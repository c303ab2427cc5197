import UsnetSockets.Resolve.ResolvConf

/-!
# The host table

`hosts.rs`: the parser of the system hosts file, and the lookup of a name in the table. A line has
an address, a name and aliases, separated by white space; what stands behind a `#` is a comment. The
first line that is not like that ends the parser with an error.

`HostFile` is a hosts file with its layout: what white space stands where, which comments there are,
and how the lines end. None of it makes a difference to the table.
-/

namespace UsnetSockets

/-- An error of the kind `InvalidData`. -/
structure InvalidData where
  text : String
  deriving DecidableEq

/-- Represents a single host within a host table. -/
structure Host where
  /-- Host address -/
  address : IpAddr
  /-- Canonical host name -/
  name : Str
  /-- Host aliases -/
  aliases : List Str
  deriving DecidableEq

/-- Represents a host table, consisting of addresses mapped to names. -/
structure HostTable where
  /-- Contained hosts -/
  hosts : List Host
  deriving DecidableEq

namespace HostTable

/-- Returns the first host matching the given name. -/
def findHostByName (t : HostTable) (name : Str) : Option Host :=
  t.hosts.find? fun h ↦ h.name == name || h.aliases.any (· == name)

/-- Returns the address for the first host matching the given name. -/
def findAddress (t : HostTable) (name : Str) : Option IpAddr :=
  (t.findHostByName name).map Host.address

end HostTable

/-! ## The parser -/

/-- The carriage return of a line feed. -/
def chomp (line : Str) : Str := if line.getLast? = some '\r' then line.dropLast else line

/-- `str::lines`. The last line needs no line feed. -/
def lines (data : Str) : List Str :=
  let parts := data.splitOn '\n'
  parts.dropLast.map chomp ++ parts.getLast?.toList.filter fun line ↦ !line.isEmpty

/-- The line up to a `#`. -/
def uncommented (line : Str) : Str :=
  match splitAtChar '#' line with
  | some (before, _) => before
  | none => line

/-- The words of a line before a comment. -/
def wordsOf (line : Str) : List Str := splitWhitespace (uncommented line)

variable (parseIp : Str → Option IpAddr)

/-- The words of a line. A line without words is skipped. -/
def parseHost : List Str → Except InvalidData (Option Host)
  | [] => .ok none
  | addrStr :: words =>
    match parseIp addrStr with
    | none => .error ⟨"invalid address: " ++ String.ofList addrStr⟩
    | some addr =>
      match words with
      | [] => .error ⟨"missing names"⟩
      | name :: aliases => .ok (some ⟨addr, name, aliases⟩)

/-- The loop over the lines, with the hosts so far. -/
def parseHosts : List Str → List Host → Except InvalidData HostTable
  | [], hosts => .ok ⟨hosts⟩
  | line :: rest, hosts =>
    match parseHost parseIp (wordsOf line) with
    | .ok none => parseHosts rest hosts
    | .ok (some host) => parseHosts rest (hosts ++ [host])
    | .error e => .error e

/-- Attempts to parse a host table in the hosts file format. -/
def parseHostTable (data : Str) : Except InvalidData HostTable := parseHosts parseIp (lines data) []

/-! ## What a line says -/

/-- The words of a line without an error, and the host that they name. -/
inductive Names : List Str → Option Host → Prop
  | none : Names [] none
  | host {addrStr name : Str} {addr : IpAddr} {aliases : List Str}
      (h : parseIp addrStr = some addr) :
      Names (addrStr :: name :: aliases) (some ⟨addr, name, aliases⟩)

/-- The words of a line that is not accepted, and the error. -/
inductive Fault : List Str → InvalidData → Prop
  | address {addrStr : Str} {words : List Str} (h : parseIp addrStr = none) :
      Fault (addrStr :: words) ⟨"invalid address: " ++ String.ofList addrStr⟩
  | names {addrStr : Str} {addr : IpAddr} (h : parseIp addrStr = some addr) :
      Fault [addrStr] ⟨"missing names"⟩

variable {parseIp}

theorem parseHost_eq_ok_iff {words : List Str} {host : Option Host} :
    parseHost parseIp words = .ok host ↔ Names parseIp words host := by
  constructor
  · intro h
    rcases words with _ | ⟨addrStr, words⟩
    · obtain rfl : none = host := Except.ok.inj h
      exact .none
    rw [parseHost] at h
    rcases haddr : parseIp addrStr with _ | addr
    · simp [haddr] at h
    · rcases words with _ | ⟨name, aliases⟩
      · simp [haddr] at h
      · simp only [haddr, Except.ok.injEq] at h
        exact h ▸ .host haddr
  · rintro (_ | h)
    · rfl
    · simp [parseHost, h]

theorem parseHost_eq_error_iff {words : List Str} {e : InvalidData} :
    parseHost parseIp words = .error e ↔ Fault parseIp words e := by
  constructor
  · intro h
    rcases words with _ | ⟨addrStr, words⟩
    · exact absurd h (by simp [parseHost])
    rw [parseHost] at h
    rcases haddr : parseIp addrStr with _ | addr
    · simp only [haddr, Except.error.injEq] at h
      exact h ▸ .address haddr
    · rcases words with _ | ⟨name, aliases⟩
      · simp only [haddr, Except.error.injEq] at h
        exact h ▸ .names haddr
      · simp [haddr] at h
  · rintro (h | h) <;> simp [parseHost, h]

/-- All lines are accepted, and the table has their hosts. -/
theorem parseHosts_eq_ok_iff {ls : List Str} {hosts : List Host} {t : HostTable} :
    parseHosts parseIp ls hosts = .ok t ↔
      ∃ hs, List.Forall₂ (Names parseIp) (ls.map wordsOf) hs ∧
        t.hosts = hosts ++ hs.filterMap id := by
  induction ls generalizing hosts with
  | nil =>
    obtain ⟨ts⟩ := t
    simp only [parseHosts, Except.ok.injEq, HostTable.mk.injEq, List.map_nil,
      List.forall₂_nil_left_iff, exists_eq_left, List.filterMap_nil, List.append_nil]
    exact eq_comm
  | cons line ls ih =>
    simp only [List.map_cons, List.forall₂_cons_left_iff]
    rw [parseHosts]
    rcases hline : parseHost parseIp (wordsOf line) with e | _ | host
    · have hfault := parseHost_eq_error_iff.mp hline
      constructor
      · intro h
        exact absurd h (by simp)
      · rintro ⟨hs, ⟨o, rest, hnames, -, -⟩, -⟩
        exact absurd (hline.symm.trans (parseHost_eq_ok_iff.mpr hnames)) (by simp)
    · have hnames := parseHost_eq_ok_iff.mp hline
      rw [ih]
      constructor
      · rintro ⟨hs, hall, ht⟩
        exact ⟨none :: hs, ⟨none, hs, hnames, hall, rfl⟩, ht⟩
      · rintro ⟨_, ⟨o, hs, ho, hall, rfl⟩, ht⟩
        obtain rfl : none = o := Except.ok.inj (hline.symm.trans (parseHost_eq_ok_iff.mpr ho))
        exact ⟨hs, hall, ht⟩
    · have hnames := parseHost_eq_ok_iff.mp hline
      rw [ih]
      constructor
      · rintro ⟨hs, hall, ht⟩
        refine ⟨some host :: hs, ⟨some host, hs, hnames, hall, rfl⟩, ?_⟩
        rw [ht, List.append_assoc]
        rfl
      · rintro ⟨_, ⟨o, hs, ho, hall, rfl⟩, ht⟩
        obtain rfl : some host = o := Except.ok.inj (hline.symm.trans (parseHost_eq_ok_iff.mpr ho))
        refine ⟨hs, hall, ?_⟩
        rw [ht, List.append_assoc]
        rfl

/-- The first line that is not accepted gives the error. -/
theorem parseHosts_eq_error_iff {ls : List Str} {hosts : List Host} {e : InvalidData} :
    parseHosts parseIp ls hosts = .error e ↔ ∃ pre words post,
      ls.map wordsOf = pre ++ words :: post ∧ (∀ ws ∈ pre, ∃ h, Names parseIp ws h) ∧
      Fault parseIp words e := by
  induction ls generalizing hosts with
  | nil => simp [parseHosts]
  | cons line ls ih =>
    rw [parseHosts, List.map_cons]
    rcases hline : parseHost parseIp (wordsOf line) with e' | host
    · have hfault := parseHost_eq_error_iff.mp hline
      constructor
      · intro h
        obtain rfl := Except.error.inj h
        exact ⟨[], _, _, rfl, by simp, hfault⟩
      · rintro ⟨pre, words, post, hsplit, hpre, hwords⟩
        rcases pre with _ | ⟨ws, pre⟩
        · obtain ⟨rfl, -⟩ := List.cons.inj hsplit
          rw [← hline, parseHost_eq_error_iff.mpr hwords]
        · obtain ⟨rfl, -⟩ := List.cons.inj hsplit
          obtain ⟨h, hnames⟩ := hpre _ List.mem_cons_self
          exact absurd (hline.symm.trans (parseHost_eq_ok_iff.mpr hnames)) (by simp)
    · have hnames := parseHost_eq_ok_iff.mp hline
      have hrest : (∃ pre words post, wordsOf line :: ls.map wordsOf = pre ++ words :: post ∧
          (∀ ws ∈ pre, ∃ h, Names parseIp ws h) ∧ Fault parseIp words e) ↔
          ∃ pre words post, ls.map wordsOf = pre ++ words :: post ∧
            (∀ ws ∈ pre, ∃ h, Names parseIp ws h) ∧ Fault parseIp words e := by
        constructor
        · rintro ⟨pre, words, post, hsplit, hpre, hwords⟩
          rcases pre with _ | ⟨ws, pre⟩
          · obtain ⟨rfl, -⟩ := List.cons.inj hsplit
            exact absurd (hline.symm.trans (parseHost_eq_error_iff.mpr hwords)) (by simp)
          · rw [List.forall_mem_cons] at hpre
            exact ⟨pre, words, post, (List.cons.inj hsplit).2, hpre.2, hwords⟩
        · rintro ⟨pre, words, post, hsplit, hpre, hwords⟩
          refine ⟨wordsOf line :: pre, words, post, by rw [hsplit]; rfl, ?_, hwords⟩
          rw [List.forall_mem_cons]
          exact ⟨⟨host, hnames⟩, hpre⟩
      rw [hrest]
      rcases host with _ | host
      · exact ih
      · exact ih

/-! ## The words of a line -/

theorem uncommented_eq_takeWhile (line : Str) : uncommented line = line.takeWhile (· != '#') := by
  rw [uncommented, splitAtChar, List.span_eq_takeWhile_dropWhile]
  rcases h : line.dropWhile (· != '#') with _ | ⟨c, after⟩
  · have happend := List.takeWhile_append_dropWhile (p := (· != '#')) (l := line)
    rw [h, List.append_nil] at happend
    exact happend.symm
  · rfl

theorem wordsOf_eq (line : Str) :
    wordsOf line = wordsBy isWhitespace (line.takeWhile (· != '#')) := by
  rw [wordsOf, uncommented_eq_takeWhile]
  rfl

/-- A carriage return at the end makes no difference. -/
theorem wordsOf_chomp (line : Str) : wordsOf (chomp line) = wordsOf line := by
  rw [chomp]
  by_cases hlast : line.getLast? = some '\r'
  · obtain ⟨init, rfl⟩ := List.getLast?_eq_some_iff.mp hlast
    rw [if_pos hlast, List.dropLast_concat, wordsOf_eq, wordsOf_eq, List.takeWhile_append]
    by_cases hall : (init.takeWhile (· != '#')).length = init.length
    · have hcr : ∀ c ∈ ['\r'].takeWhile (· != '#'), isWhitespace c = true :=
        List.all_eq_true.mp (by decide)
      rw [if_pos hall, wordsBy_append_right hcr, (List.takeWhile_prefix _).eq_of_length hall]
    · rw [if_neg hall]
  · rw [if_neg hlast]

/-! ## Layouts -/

/-- A line of a hosts file: words with white space around them, and a comment. -/
structure HostLine where
  spaced : Spaced Char
  comment : Option Str

namespace HostLine

def text (l : HostLine) : Str :=
  l.spaced.text ++ match l.comment with
    | some comment => '#' :: comment
    | none => []

structure Proper (l : HostLine) : Prop where
  spaced : l.spaced.Proper isWhitespace
  no_hash : '#' ∉ l.spaced.text
  no_newline : '\n' ∉ l.text

theorem wordsOf_text {l : HostLine} (h : l.Proper) : wordsOf l.text = l.spaced.words := by
  have hne : ∀ c ∈ l.spaced.text, (c != '#') = true := by
    intro c hc
    exact bne_iff_ne.mpr fun heq ↦ h.no_hash (heq ▸ hc)
  rw [wordsOf_eq, text, List.takeWhile_append_of_pos hne, ← Spaced.wordsBy_text h.spaced]
  rcases l.comment with _ | comment
  · rw [List.takeWhile_nil, List.append_nil]
  · rw [List.takeWhile_cons_of_neg (by simp), List.append_nil]

end HostLine

/-- A hosts file with its layout: lines that end with a line feed, which may have a carriage return
before it, and a last line that does not. -/
structure HostFile where
  lines : List (HostLine × Bool)
  last : HostLine

namespace HostFile

/-- A line up to its line feed. -/
def body (l : HostLine × Bool) : Str := l.1.text ++ if l.2 then ['\r'] else []

def text (f : HostFile) : Str := f.lines.flatMap (body · ++ ['\n']) ++ f.last.text

/-- The words of the lines. A file that ends with a line feed has no line behind it. -/
def words (f : HostFile) : List (List Str) :=
  f.lines.map (fun l ↦ l.1.spaced.words) ++
    if f.last.text = [] then [] else [f.last.spaced.words]

structure Proper (f : HostFile) : Prop where
  lines : ∀ l ∈ f.lines, l.1.Proper
  last : f.last.Proper

theorem wordsOf_body {l : HostLine × Bool} (h : l.1.Proper) :
    wordsOf (chomp (body l)) = l.1.spaced.words := by
  obtain ⟨l, _ | _⟩ := l
  · rw [wordsOf_chomp, body, if_neg (by simp), List.append_nil, HostLine.wordsOf_text h]
  · rw [chomp, body, if_pos rfl, if_pos (by simp), List.dropLast_concat, HostLine.wordsOf_text h]

/-- **The layout makes no difference**: the lines of the text have the words of the file. -/
theorem wordsOf_lines {f : HostFile} (h : f.Proper) :
    (UsnetSockets.lines f.text).map wordsOf = f.words := by
  have hbody : ∀ b ∈ f.lines.map body, '\n' ∉ b := by
    intro b hb
    obtain ⟨l, hl, rfl⟩ := List.mem_map.mp hb
    have hno := (h.lines l hl).no_newline
    obtain ⟨l, _ | _⟩ := l <;> simpa [body] using hno
  have hsplit : f.text.splitOn '\n' = f.lines.map body ++ [f.last.text] := by
    rw [← splitOn_flatMap_append hbody h.last.no_newline, List.flatMap_map]
    rfl
  have hwords : ((f.lines.map body).map chomp).map wordsOf =
      f.lines.map fun l ↦ l.1.spaced.words := by
    rw [List.map_map, List.map_map]
    exact List.map_congr_left fun l hl ↦ wordsOf_body (h.lines l hl)
  rw [UsnetSockets.lines, hsplit, List.dropLast_concat, List.map_append, hwords, words,
    List.getLast?_concat]
  by_cases hlast : f.last.text = []
  · rw [if_pos hlast, hlast]
    rfl
  · rw [if_neg hlast, ← HostLine.wordsOf_text h.last]
    simp [hlast]

theorem parseHostTable_text_eq_ok_iff {f : HostFile} (h : f.Proper) {t : HostTable} :
    parseHostTable parseIp f.text = .ok t ↔
      ∃ hs, List.Forall₂ (Names parseIp) f.words hs ∧ t.hosts = hs.filterMap id := by
  rw [← wordsOf_lines h]
  exact parseHosts_eq_ok_iff

theorem parseHostTable_text_eq_error_iff {f : HostFile} (h : f.Proper) {e : InvalidData} :
    parseHostTable parseIp f.text = .error e ↔ ∃ pre words post,
      f.words = pre ++ words :: post ∧ (∀ ws ∈ pre, ∃ host, Names parseIp ws host) ∧
      Fault parseIp words e := by
  rw [← wordsOf_lines h]
  exact parseHosts_eq_error_iff

/-- **Hosts files are read as they are meant.** Whatever white space, comments and line ends a file
has, it is accepted exactly when each of its lines is empty or has an address and a name, and then
the table has the hosts of the lines in their order; otherwise the first other line gives the
error. -/
theorem parseHostTable_text (parseIp : Str → Option IpAddr) {f : HostFile} (h : f.Proper) :
    (∀ t, parseHostTable parseIp f.text = .ok t ↔
      ∃ hs, List.Forall₂ (Names parseIp) f.words hs ∧ t.hosts = hs.filterMap id) ∧
    ∀ e, parseHostTable parseIp f.text = .error e ↔ ∃ pre words post,
      f.words = pre ++ words :: post ∧ (∀ ws ∈ pre, ∃ host, Names parseIp ws host) ∧
      Fault parseIp words e :=
  ⟨fun _ ↦ parseHostTable_text_eq_ok_iff h, fun _ ↦ parseHostTable_text_eq_error_iff h⟩

/-- A comment, and a line with white space and a comment at its end. -/
def exampleFile : HostFile where
  lines := [(⟨⟨[], []⟩, some " hosts".toList⟩, false),
    (⟨⟨[([], "10.0.0.1".toList), (" \t".toList, "foo".toList), (" ".toList, "bar".toList)],
      " ".toList⟩, some " here".toList⟩, true)]
  last := ⟨⟨[], []⟩, none⟩

theorem proper_exampleFile : exampleFile.Proper := by
  have hempty : (⟨[], []⟩ : Spaced Char).Proper isWhitespace :=
    ⟨by simp, by simp, by simp, by simp⟩
  have hgap {gap : Str} (h : gap.all isWhitespace = true) := List.all_eq_true.mp h
  have hword {w : Str} (hne : w ≠ []) (h : w.all (!isWhitespace ·) = true) :
      IsWord isWhitespace w := ⟨hne, by simpa using h⟩
  refine ⟨?_, ⟨hempty, by decide, by decide⟩⟩
  simp only [exampleFile, List.forall_mem_cons]
  refine ⟨⟨hempty, by decide, by decide⟩, ⟨⟨?_, by decide, ?_, hgap (by decide)⟩, by decide,
    by decide⟩, by simp⟩
  · simp only [List.forall_mem_cons]
    exact ⟨by simp, hgap (by decide), hgap (by decide), by simp⟩
  · simp only [List.forall_mem_cons]
    exact ⟨hword (by decide) (by decide), hword (by decide) (by decide),
      hword (by decide) (by decide), by simp⟩

theorem parseHostTable_text_example : parseHostTable ResolvConf.parseDotted exampleFile.text =
    .ok ⟨[⟨.v4 10 0 0 1, "foo".toList, ["bar".toList]⟩]⟩ :=
  ((parseHostTable_text ResolvConf.parseDotted proper_exampleFile).1 _).mpr
    ⟨[none, _], .cons .none (.cons (.host rfl) .nil), rfl⟩

end HostFile

end UsnetSockets
