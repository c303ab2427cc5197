import UsnetSockets.Resolve.Resolver
import UsnetSockets.Text.Words

/-!
# Partial Unix `resolv.conf(5)` parser

`resolv_conf::parse` reads a configuration line by line. It keeps the first three name servers, and
of each option the last value that is a number, cut down to a maximum. Nothing is checked from below
except that there is a name server.

The resolver relies on more: without an attempt there is no last error to return, and a timeout of
zero is refused by the socket. So what decides whether a configuration can be used is whether the
last number for one of these two options is zero.

What counts as the text of an address is up to the standard library and has changed with its
versions; `parseIp` is an arbitrary function here.
-/

namespace UsnetSockets

/-! ## Strings of the standard library -/

/-- `str::split_whitespace`. -/
def splitWhitespace (s : Str) : List Str := wordsBy isWhitespace s

/-- The two parts around the first occurrence of a character, as `str::find` gives them. -/
def splitAtChar (sep : Char) (s : Str) : Option (Str × Str) :=
  match s.span (· != sep) with
  | (_, []) => none
  | (before, _ :: after) => some (before, after)

/-- A number of at most `bits` bits in decimal digits, of which there must be one. -/
def parseDigits (bits : ℕ) (digits : Str) : Option ℕ :=
  if digits.isEmpty then none
  else digits.foldlM (fun n c ↦
    if c.isDigit then
      let n := n * 10 + (c.toNat - '0'.toNat)
      if n < 2 ^ bits then some n else none
    else none) 0

/-- `parse` for unsigned integers. A sign is allowed. -/
def parseUint (bits : ℕ) : Str → Option ℕ
  | '+' :: digits => parseDigits bits digits
  | s => parseDigits bits s

namespace ResolvConf

/-! ## The parser -/

/-- Port for DNS communication -/
def dnsPort : UInt16 := 53

/-- Maximum number of name servers loaded from `resolv.conf` -/
def maxNameServers : ℕ := 3

/-- Default value of `"options attempts:n"` -/
def defaultAttempts : ℕ := 2

/-- Default value of `"options ndots:n"` -/
def defaultNDots : ℕ := 1

/-- Default value of `"options timeout:n"` -/
def defaultTimeout : ℕ := 5

/-- Maximum allowed value of `"options attempts:n"` -/
def maxAttempts : ℕ := 5

/-- Maximum allowed value of `"options ndots:n"` -/
def maxNDots : ℕ := 15

/-- Maximum allowed value of `"options timeout:n"` -/
def maxTimeout : ℕ := 30

/-- `Duration::from_secs`, in nanoseconds. -/
def fromSecs (n : ℕ) : ℕ := n * 1000000000

/-- All fields of a `DnsConfig`. -/
structure FullConfig extends DnsConfig where
  /-- List of search domains -/
  search : List Str
  /-- Minimum number of dots in a name to trigger an initial absolute query -/
  nDots : ℕ
  /-- If `true`, perform `AAAA` queries first and return IPv4 addresses as IPv4-mapped IPv6
  addresses. -/
  useInet6 : Bool

def defaultConfig : FullConfig where
  nameServers := []
  search := []
  nDots := defaultNDots
  attempts := defaultAttempts
  timeout := fromSecs defaultTimeout
  rotate := false
  useInet6 := false

/-- The name and the value of an option; without a colon the value is empty. -/
def optionOf (opt : Str) : Str × Str := (splitAtChar ':' opt).getD (opt, [])

/-- One word of a line with options. -/
def parseOption (cfg : FullConfig) (word : Str) : FullConfig :=
  let (opt, value) := optionOf word
  if opt = "ndots".toList then
    match parseUint 32 value with
    | some n => { cfg with nDots := min n maxNDots }
    | none => cfg
  else if opt = "timeout".toList then
    match parseUint 64 value with
    | some n => { cfg with timeout := fromSecs (min n maxTimeout) }
    | none => cfg
  else if opt = "attempts".toList then
    match parseUint 32 value with
    | some n => { cfg with attempts := min n maxAttempts }
    | none => cfg
  else if opt = "rotate".toList then { cfg with rotate := true }
  else if opt = "inet6".toList then { cfg with useInet6 := true }
  else cfg

variable (parseIp : Str → Option IpAddr)

/-- The lines that are skipped: empty ones and comments. -/
def isSkipped : Str → Bool
  | [] => true
  | c :: _ => c == '#' || c == ';'

def parseLine (cfg : FullConfig) (line : Str) : FullConfig :=
  if isSkipped line then cfg
  else
    match splitWhitespace line with
    | [] => cfg
    | name :: words =>
      if name = "nameserver".toList then
        match words with
        | ip :: _ =>
          if cfg.nameServers.length < maxNameServers then
            match parseIp ip with
            | some ip => { cfg with nameServers := cfg.nameServers ++ [⟨ip, dnsPort⟩] }
            | none => cfg
          else cfg
        | [] => cfg
      else if name = "domain".toList then
        match words with
        | domain :: _ => { cfg with search := [domain] }
        | [] => cfg
      else if name = "search".toList then { cfg with search := words }
      else if name = "options".toList then words.foldl parseOption cfg
      else cfg

/-- The loop over the lines. Reading a line may fail. -/
def parseLines : FullConfig → List (Except IoError Str) → Except IoError FullConfig
  | cfg, [] => .ok cfg
  | _, .error e :: _ => .error e
  | cfg, .ok line :: lines => parseLines (parseLine parseIp cfg line) lines

/-- `parse`, with the lines that the reader gives and what `get_hostname` returns. -/
def parse (lines : List (Except IoError Str)) (hostname : Except IoError Str) :
    Except IoError FullConfig := do
  let cfg ← parseLines parseIp defaultConfig lines
  if cfg.nameServers.isEmpty then .error (.other "no nameserver directives in resolv.conf")
  else if cfg.search.isEmpty then
    let host ← hostname
    match splitAtChar '.' host with
    | some (_, domain) => return { cfg with search := [domain] }
    | none => return cfg
  else return cfg

/-! ## The last number counts -/

/-- When each step takes the last of the values it is given, if any, so does the whole. -/
theorem foldl_eq_getLast? {σ α β : Type} {f : σ → α → σ} {get : σ → β} {g : α → List β}
    (h : ∀ s a, get (f s a) = (g a).getLast?.getD (get s)) (l : List α) (s : σ) :
    get (l.foldl f s) = (l.flatMap g).getLast?.getD (get s) := by
  induction l generalizing s with
  | nil => rfl
  | cons a l ih =>
    rw [List.foldl_cons, ih, h, List.flatMap_cons, List.getLast?_append, Option.getD_or]

/-- The number that a word gives for an option, if it does. -/
def numberFor (name : Str) (bits : ℕ) (word : Str) : List ℕ :=
  if (optionOf word).1 = name then (parseUint bits (optionOf word).2).toList else []

/-- The words of a line with options. -/
def optionsOf (line : Str) : List Str :=
  if isSkipped line then []
  else
    match splitWhitespace line with
    | [] => []
    | name :: words => if name = "options".toList then words else []

/-- The numbers that a text gives for an option, in the order of the text. -/
def numbersFor (name : Str) (bits : ℕ) (lines : List Str) : List ℕ :=
  lines.flatMap fun line ↦ (optionsOf line).flatMap (numberFor name bits)

variable {parseIp} {cfg : FullConfig} {word line : Str}

/-- What one word sets. -/
theorem parseOption_eq (cfg : FullConfig) (word : Str) : parseOption cfg word = { cfg with
    nDots := ((numberFor "ndots".toList 32 word).map (min · maxNDots)).getLast?.getD cfg.nDots
    timeout := ((numberFor "timeout".toList 64 word).map
      fun n ↦ fromSecs (min n maxTimeout)).getLast?.getD cfg.timeout
    attempts :=
      ((numberFor "attempts".toList 32 word).map (min · maxAttempts)).getLast?.getD cfg.attempts
    rotate := if (optionOf word).1 = "rotate".toList then true else cfg.rotate
    useInet6 := if (optionOf word).1 = "inet6".toList then true else cfg.useInet6 } := by
  simp only [parseOption, numberFor]
  obtain ⟨opt, value⟩ := optionOf word
  dsimp only
  split
  · next h =>
    subst h
    rcases parseUint 32 value with _ | n
    · rfl
    · rfl
  split
  · next h =>
    subst h
    rcases parseUint 64 value with _ | n
    · rfl
    · rfl
  split
  · next h =>
    subst h
    rcases parseUint 32 value with _ | n
    · rfl
    · rfl
  split
  · next h =>
    subst h
    rfl
  split
  · rfl
  · rfl

/-- What one line sets. -/
theorem parseLine_cases (parseIp : Str → Option IpAddr) (cfg : FullConfig) (line : Str) :
    (optionsOf line = [] ∧ ∃ nameServers search, parseLine parseIp cfg line =
      { cfg with nameServers := nameServers, search := search } ∧
      (nameServers = cfg.nameServers ∨ cfg.nameServers.length < maxNameServers ∧
        ∃ ip, nameServers = cfg.nameServers ++ [ip])) ∨
    parseLine parseIp cfg line = (optionsOf line).foldl parseOption cfg := by
  by_cases hskip : isSkipped line = true
  · exact .inr (by simp [parseLine, optionsOf, hskip])
  rcases hwords : splitWhitespace line with _ | ⟨name, words⟩
  · exact .inr (by simp [parseLine, optionsOf, hskip, hwords])
  by_cases hoptions : name = "options".toList
  · subst hoptions
    refine .inr ?_
    rw [parseLine, optionsOf, if_neg hskip, if_neg hskip, hwords]
    rfl
  · refine .inl ?_
    rw [parseLine, optionsOf, if_neg hskip, if_neg hskip, hwords]
    dsimp only
    rw [if_neg hoptions, if_neg hoptions]
    refine ⟨rfl, ?_⟩
    split
    · rcases words with _ | ⟨ip, words⟩
      · exact ⟨_, _, rfl, .inl rfl⟩
      · by_cases hlt : cfg.nameServers.length < maxNameServers
        · rcases hip : parseIp ip with _ | addr
          · exact ⟨cfg.nameServers, cfg.search, by simp [hip], .inl rfl⟩
          · exact ⟨cfg.nameServers ++ [⟨addr, dnsPort⟩], cfg.search, by simp only [hip, if_pos hlt],
              .inr ⟨hlt, _, rfl⟩⟩
        · exact ⟨cfg.nameServers, cfg.search, by simp only [if_neg hlt], .inl rfl⟩
    split
    · rcases words with _ | ⟨domain, words⟩
      · exact ⟨_, _, rfl, .inl rfl⟩
      · exact ⟨_, _, rfl, .inl rfl⟩
    split
    · exact ⟨_, _, rfl, .inl rfl⟩
    · exact ⟨_, _, rfl, .inl rfl⟩

/-- The last word that sets a value decides, on whatever line it is. -/
theorem foldl_parseLine_eq {β : Type} (get : FullConfig → β) {g : Str → List β}
    (hoption : ∀ cfg word, get (parseOption cfg word) = (g word).getLast?.getD (get cfg))
    (hother : ∀ cfg nameServers search,
      get { cfg with nameServers := nameServers, search := search } = get cfg)
    (lines : List Str) (cfg : FullConfig) :
    get (lines.foldl (parseLine parseIp) cfg) =
      (lines.flatMap fun line ↦ (optionsOf line).flatMap g).getLast?.getD (get cfg) := by
  refine foldl_eq_getLast? (fun cfg line ↦ ?_) lines cfg
  obtain ⟨hnone, nameServers, search, hline, -⟩ | hline := parseLine_cases parseIp cfg line
  · rw [hline, hother, hnone]
    rfl
  · rw [hline]
    exact foldl_eq_getLast? hoption _ cfg

theorem getLast?_numbersFor {β : Type} (f : ℕ → β) (name : Str) (bits : ℕ) (lines : List Str) :
    (lines.flatMap fun line ↦ (optionsOf line).flatMap
      fun word ↦ (numberFor name bits word).map f).getLast? =
    (numbersFor name bits lines).getLast?.map f := by
  rw [← List.getLast?_map, numbersFor, List.map_flatMap]
  simp only [List.map_flatMap]

theorem nDots_foldl (parseIp : Str → Option IpAddr) (lines : List Str) (cfg : FullConfig) :
    (lines.foldl (parseLine parseIp) cfg).nDots =
      ((numbersFor "ndots".toList 32 lines).getLast?.map (min · maxNDots)).getD cfg.nDots := by
  rw [← getLast?_numbersFor]
  exact foldl_parseLine_eq FullConfig.nDots (fun cfg word ↦ by rw [parseOption_eq])
    (fun _ _ _ ↦ rfl) lines cfg

theorem timeout_foldl (parseIp : Str → Option IpAddr) (lines : List Str) (cfg : FullConfig) :
    (lines.foldl (parseLine parseIp) cfg).timeout =
      ((numbersFor "timeout".toList 64 lines).getLast?.map
        fun n ↦ fromSecs (min n maxTimeout)).getD cfg.timeout := by
  rw [← getLast?_numbersFor]
  exact foldl_parseLine_eq (fun cfg ↦ cfg.timeout) (fun cfg word ↦ by rw [parseOption_eq])
    (fun _ _ _ ↦ rfl) lines cfg

theorem attempts_foldl (parseIp : Str → Option IpAddr) (lines : List Str) (cfg : FullConfig) :
    (lines.foldl (parseLine parseIp) cfg).attempts =
      ((numbersFor "attempts".toList 32 lines).getLast?.map (min · maxAttempts)).getD
        cfg.attempts := by
  rw [← getLast?_numbersFor]
  exact foldl_parseLine_eq (fun cfg ↦ cfg.attempts) (fun cfg word ↦ by rw [parseOption_eq])
    (fun _ _ _ ↦ rfl) lines cfg

theorem nameServers_foldl_parseOption (words : List Str) (cfg : FullConfig) :
    (words.foldl parseOption cfg).nameServers = cfg.nameServers := by
  induction words generalizing cfg with
  | nil => rfl
  | cons word words ih => rw [List.foldl_cons, ih, parseOption_eq]

/-- Only the first name servers are kept. -/
theorem length_nameServers_foldl (lines : List Str) {cfg : FullConfig}
    (hcfg : cfg.nameServers.length ≤ maxNameServers) :
    (lines.foldl (parseLine parseIp) cfg).nameServers.length ≤ maxNameServers := by
  induction lines generalizing cfg with
  | nil => exact hcfg
  | cons line lines ih =>
    refine ih ?_
    obtain ⟨-, nameServers, search, hline, rfl | ⟨hlt, ip, rfl⟩⟩ | hline :=
      parseLine_cases parseIp cfg line
    · rw [hline]
      exact hcfg
    · rw [hline, List.length_append]
      exact hlt
    · rw [hline, nameServers_foldl_parseOption]
      exact hcfg

theorem parseLines_eq_ok {lines : List (Except IoError Str)} {cfg cfg' : FullConfig}
    (h : parseLines parseIp cfg lines = .ok cfg') :
    ∃ texts : List Str, lines = texts.map .ok ∧ cfg' = texts.foldl (parseLine parseIp) cfg := by
  induction lines generalizing cfg with
  | nil => exact ⟨[], rfl, (Except.ok.inj h).symm⟩
  | cons line lines ih =>
    rcases line with e | line
    · exact absurd h (by simp [parseLines])
    · obtain ⟨texts, rfl, hcfg'⟩ := ih h
      exact ⟨line :: texts, rfl, hcfg'⟩

theorem parse_eq_ok {lines : List (Except IoError Str)} {hostname : Except IoError Str}
    {cfg : FullConfig} (h : parse parseIp lines hostname = .ok cfg) :
    ∃ (texts : List Str) (search : List Str), lines = texts.map .ok ∧
      cfg = { texts.foldl (parseLine parseIp) defaultConfig with search := search } ∧
      cfg.nameServers ≠ [] := by
  rw [parse] at h
  rcases hlines : parseLines parseIp defaultConfig lines with e | cfg₀
  · rw [hlines] at h
    exact absurd h (by simp [bind, Except.bind])
  · rw [hlines] at h
    obtain ⟨texts, rfl, rfl⟩ := parseLines_eq_ok hlines
    simp only [bind, Except.bind] at h
    split at h
    · exact absurd h (by simp)
    next hsome =>
    have hne : (texts.foldl (parseLine parseIp) defaultConfig).nameServers ≠ [] := by
      simpa [List.isEmpty_iff] using hsome
    split at h
    · rcases hostname with e | host
      · exact absurd h (by simp)
      · dsimp only at h
        split at h
        · rw [← Except.ok.inj h]
          exact ⟨texts, _, rfl, rfl, hne⟩
        · rw [← Except.ok.inj h]
          exact ⟨texts, _, rfl, rfl, hne⟩
    · rw [← Except.ok.inj h]
      exact ⟨texts, _, rfl, rfl, hne⟩

end ResolvConf

/-! ## Requests with a parsed configuration -/

namespace DnsResolver

/-- The states of the outer loop of a request: how many attempts are left, the number of the next
one, the last error, and the resolver. -/
inductive Attempting (X : IdnaCrate) (call : DnsCall) (r₀ : DnsResolver) :
    ℕ → ℕ → Option DnsSocketError → DnsResolver → Prop
  | start : Attempting X call r₀ r₀.config.attempts 0 none r₀
  | again {left retries : ℕ} {last : Option DnsSocketError} {r r' : DnsResolver}
      {nsAddr : SocketAddr} {e : DnsSocketError}
      (h : Attempting X call r₀ (left + 1) retries last r)
      (hchoose : r.chooseNameserver retries = some (nsAddr, r'))
      (hattempt : attempt X r'.config.timeout call (call.world retries) nsAddr = .ok (.retry e)) :
      Attempting X call r₀ left (retries + 1) (some e) r'

/-- A request goes as it has to: it makes an attempt, each attempt has a name server and sets a
timeout that the standard library accepts, and after the last one there is an error to return. -/
structure GoesWell (X : IdnaCrate) (call : DnsCall) (r : DnsResolver) : Prop where
  attempted : r.tried.length < (r.sendMessage X call).2.tried.length
  inRange : ∀ left retries last r', Attempting X call r (left + 1) retries last r' →
    (r'.chooseNameserver retries).isSome = true
  accepted : ∀ left retries last r' answer, Attempting X call r (left + 1) retries last r' →
    DnsSocket.setReadTimeout r'.config.timeout answer = answer
  lastErr : ∀ retries last r', Attempting X call r 0 retries last r' → last.isSome = true

variable {X : IdnaCrate} {call : DnsCall} {r₀ r : DnsResolver} {left retries : ℕ}
  {last : Option DnsSocketError}

/-- The request goes on from each of these states as the outer loop does. -/
theorem Attempting.sendMessage_eq (h : Attempting X call r₀ left retries last r) :
    r₀.sendMessage X call = retry X call left retries last r := by
  induction h with
  | start => rfl
  | again h hchoose hattempt ih =>
    rw [ih, retry, hchoose]
    simp only [hattempt]

theorem Attempting.inTurn (hr₀ : r₀.InTurn) (h : Attempting X call r₀ left retries last r) :
    r.config = r₀.config ∧ r.InTurn ∧ r.tried.length = r₀.tried.length + retries := by
  induction h with
  | start => exact ⟨rfl, hr₀, rfl⟩
  | again h hchoose hattempt ih =>
    obtain ⟨hconfig, hr, hbefore⟩ := ih
    obtain ⟨-, hconfig', htried, hr'⟩ := chooseNameserver_eq_some hr hbefore hchoose
    refine ⟨hconfig'.trans hconfig, hr', ?_⟩
    rw [htried, List.length_append, hbefore, List.length_singleton, Nat.add_assoc]

theorem Attempting.lastErr (h0 : r₀.config.attempts ≠ 0)
    (h : Attempting X call r₀ left retries last r) : left = 0 → last.isSome = true := by
  rcases h with - | ⟨-, -, -⟩
  · exact fun h ↦ absurd h h0
  · exact fun _ ↦ rfl

/-- With name servers there is always one whose turn it is. -/
theorem InTurn.chooseNameserver_isSome (hr : r.InTurn) (hne : r.config.nameServers ≠ [])
    (retries : ℕ) : (r.chooseNameserver retries).isSome = true := by
  have hpos := List.length_pos_iff.mpr hne
  by_cases hrotate : r.config.rotate = true
  · have hlt : r.nextNs < r.config.nameServers.length := by
      rw [hr hrotate]
      exact Nat.mod_lt _ hpos
    simp [chooseNameserver, nextNameserver, hrotate, hlt]
  · simp [chooseNameserver, hrotate, Nat.mod_lt _ hpos]

/-- An attempt that is left is made. -/
theorem tried_lt_retry (hr : r.InTurn) (hne : r.config.nameServers ≠ []) (left : ℕ) :
    r.tried.length < (retry X call (left + 1) 0 none r).2.tried.length := by
  obtain ⟨⟨nsAddr, r'⟩, hchoose⟩ := Option.isSome_iff_exists.mp (hr.chooseNameserver_isSome hne 0)
  obtain ⟨-, -, htried, hr'⟩ := chooseNameserver_eq_some hr (Nat.add_zero _).symm hchoose
  have hlt : r.tried.length < r'.tried.length := by simp [htried]
  rw [retry, hchoose]
  dsimp only
  split
  · exact hlt
  · have hnext : r'.tried.length = r.tried.length + (0 + 1) := by simp [htried]
    obtain ⟨servers, hrequest⟩ := exists_request_retry (X := X) left hr' hnext
    rw [hrequest.tried, List.length_append]
    omega
  · exact hlt
  · exact hlt
  · exact hlt

/-- Requests go well exactly with at least one attempt and a timeout. -/
theorem goesWell_iff {config : DnsConfig} (hne : config.nameServers ≠ []) :
    (∀ calls r call, Transition.run (step X) (new config) calls = some r → GoesWell X call r) ↔
      config.attempts ≠ 0 ∧ config.timeout ≠ 0 := by
  constructor
  · intro h
    have hfirst := h [] _ (bareCall (.ok ())) rfl
    have h0 : config.attempts ≠ 0 := by
      intro h0
      have hattempted := hfirst.attempted
      rw [sendMessage, show (new config).config.attempts = 0 from h0] at hattempted
      exact absurd hattempted (by simp [retry])
    obtain ⟨k, hk⟩ := Nat.exists_eq_succ_of_ne_zero h0
    have hstart : Attempting X (bareCall (.ok ())) (new config) (k + 1) 0 none (new config) := by
      rw [← Nat.succ_eq_add_one, ← hk]
      exact .start
    have haccepted := hfirst.accepted k 0 none _ (.ok ()) hstart
    exact ⟨h0, (DnsSocket.setReadTimeout_eq_ok_iff.mp haccepted).1⟩
  · rintro ⟨h0, ht⟩ calls r call hrun
    obtain ⟨rfl, hr⟩ := inTurn_of_run hrun
    refine ⟨?_, ?_, ?_, ?_⟩
    · obtain ⟨k, hk⟩ := Nat.exists_eq_succ_of_ne_zero h0
      rw [sendMessage, hk]
      exact tried_lt_retry hr hne k
    · intro left retries last r' hr'
      obtain ⟨hconfig, hturn, -⟩ := hr'.inTurn hr
      exact hturn.chooseNameserver_isSome (by rwa [hconfig]) retries
    · intro left retries last r' answer hr'
      rw [DnsSocket.setReadTimeout, (hr'.inTurn hr).1, if_neg ht]
    · intro retries last r' hr'
      exact hr'.lastErr h0 rfl

end DnsResolver

namespace ResolvConf

/-- A configuration is safe to resolve with: it is within its bounds, and after any requests the
next one goes as it has to. -/
structure FullConfig.Safe (X : IdnaCrate) (cfg : FullConfig) : Prop where
  nameServers_pos : 1 ≤ cfg.nameServers.length
  nameServers_le : cfg.nameServers.length ≤ maxNameServers
  nDots_le : cfg.nDots ≤ maxNDots
  attempts_le : cfg.attempts ≤ maxAttempts
  timeout_le : cfg.timeout ≤ fromSecs maxTimeout
  requests : ∀ calls r call,
    Transition.run (DnsResolver.step X) (.new cfg.toDnsConfig) calls = some r →
      DnsResolver.GoesWell X call r

theorem getD_map_le {α : Type} {f : α → ℕ} {m d : ℕ} (hf : ∀ a, f a ≤ m) (hd : d ≤ m)
    (o : Option α) : (o.map f).getD d ≤ m := by
  rcases o with _ | a
  · exact hd
  · exact hf a

theorem getD_map_eq_zero_iff {α : Type} {f : α → ℕ} {d : ℕ} (hd : d ≠ 0) {z : α}
    (hf : ∀ a, f a = 0 ↔ a = z) (o : Option α) : (o.map f).getD d = 0 ↔ o = some z := by
  rcases o with _ | a
  · simpa using hd
  · simpa using hf a

/-- **Which texts make a configuration that is safe to resolve with.** Those whose last number of
attempts and last timeout, if they give any, are not zero. -/
theorem safe_iff (X : IdnaCrate) (parseIp : Str → Option IpAddr)
    {lines : List (Except IoError Str)} {hostname : Except IoError Str} {cfg : FullConfig}
    (h : parse parseIp lines hostname = .ok cfg) :
    cfg.Safe X ↔
      (numbersFor "attempts".toList 32 (lines.filterMap Except.toOption)).getLast? ≠ some 0 ∧
        (numbersFor "timeout".toList 64 (lines.filterMap Except.toOption)).getLast? ≠ some 0 := by
  obtain ⟨texts, search, rfl, rfl, hne⟩ := parse_eq_ok h
  have htexts : (texts.map Except.ok).filterMap (Except.toOption (ε := IoError)) = texts := by
    rw [List.filterMap_map]
    exact List.filterMap_some
  have hattempts := attempts_foldl parseIp texts defaultConfig
  have htimeout := timeout_foldl parseIp texts defaultConfig
  have hrequests := DnsResolver.goesWell_iff (X := X) hne
  rw [htexts, Ne, Ne,
    ← getD_map_eq_zero_iff (f := (min · maxAttempts)) (d := defaultConfig.attempts)
      (by decide) (by simp [maxAttempts]),
    ← getD_map_eq_zero_iff (f := fun n ↦ fromSecs (min n maxTimeout)) (d := defaultConfig.timeout)
      (by decide) (by simp [fromSecs, maxTimeout]), ← hattempts, ← htimeout]
  constructor
  · intro hsafe
    exact hrequests.mp hsafe.requests
  · intro hcond
    refine ⟨List.length_pos_iff.mpr hne, ?_, ?_, ?_, ?_, hrequests.mpr hcond⟩
    · exact length_nameServers_foldl texts (Nat.zero_le _)
    · dsimp only
      rw [nDots_foldl]
      exact getD_map_le (fun n ↦ min_le_right n _) (by decide) _
    · dsimp only
      rw [hattempts]
      exact getD_map_le (fun n ↦ min_le_right n _) (by decide) _
    · dsimp only
      rw [htimeout]
      exact getD_map_le (fun n ↦ Nat.mul_le_mul_right _ (min_le_right n _)) (by decide) _

/-- Addresses in dotted decimal. -/
def parseDotted (s : Str) : Option IpAddr :=
  match (s.splitOn '.').map (parseDigits 8) with
  | [some a, some b, some c, some d] => some (.v4 (.ofNat a) (.ofNat b) (.ofNat c) (.ofNat d))
  | _ => none

/-- A text with one name server and a line of options. -/
def textWith (options : String) : List (Except IoError Str) :=
  [.ok "nameserver 10.0.0.1".toList, .ok options.toList]

/-- The last of two numbers of attempts counts, and the timeout is cut down. -/
theorem safe_of_two_attempts : ∃ cfg,
    parse parseDotted (textWith "options attempts:0 attempts:3 timeout:99") (.ok []) = .ok cfg ∧
      cfg.attempts = 3 ∧ cfg.timeout = 30000000000 ∧ cfg.Safe ⟨some, some⟩ := by
  refine ⟨_, rfl, rfl, rfl, (safe_iff _ parseDotted (show parse parseDotted
    (textWith "options attempts:0 attempts:3 timeout:99") (.ok []) = .ok _ from rfl)).mpr ?_⟩
  exact ⟨by decide, by decide⟩

/-- Without attempts the first request panics, and with a timeout of zero it fails. -/
theorem not_safe :
    (∃ cfg, parse parseDotted (textWith "options attempts:0") (.ok []) = .ok cfg ∧
      ((DnsResolver.new cfg.toDnsConfig).sendMessage ⟨some, some⟩
        (DnsResolver.bareCall (.ok ()))).1 = .panic ∧
      ¬cfg.Safe ⟨some, some⟩) ∧
    ∃ cfg, parse parseDotted (textWith "options timeout:0") (.ok []) = .ok cfg ∧
      ¬cfg.Safe ⟨some, some⟩ := by
  refine ⟨⟨_, rfl, rfl, ?_⟩, _, rfl, ?_⟩
  · intro hsafe
    exact ((DnsResolver.goesWell_iff (by decide)).mp hsafe.requests).1 rfl
  · intro hsafe
    exact ((DnsResolver.goesWell_iff (by decide)).mp hsafe.requests).2 rfl

end ResolvConf

end UsnetSockets
