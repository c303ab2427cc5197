import Mathlib.Algebra.Order.Ring.Nat
import UsnetSockets.Resolve.Writer

/-!
# What `write_name` writes

`write_name` checks the structure of the whole name first, and then converts, checks and writes one
label after the other. This file has what it does for every name and every conversion of labels:
the name is accepted exactly when each of its parts gives a label, the encoding is not too long and
there is room for it, and then the labels have been appended.

A label is written before the next one is looked at. So a name that is rejected has usually left
something behind: the writer is unchanged only if nothing of the first label has been written.
-/

namespace UsnetSockets

open MsgWriter Outcome

/-! ## Splitting a name -/

/-- The name with a dot behind every label. -/
def dotsOf (ls : List Str) : Str := ls.flatMap (· ++ ['.'])

/-- The name that `read_name` makes of the labels. -/
def nameOf (ls : List Str) : Str := if ls.isEmpty then ['.'] else dotsOf ls

/-- The name with one final dot. -/
def dotted (name : Str) : Str := if name.getLast? = some '.' then name else name ++ ['.']

theorem dotsOf_eq_intercalate : ∀ {ls : List Str}, ls ≠ [] →
    dotsOf ls = ['.'].intercalate ls ++ ['.']
  | [l], _ => by simp [dotsOf]
  | l :: l' :: ls, _ => by
    have ih := dotsOf_eq_intercalate (List.cons_ne_nil l' ls)
    rw [dotsOf, List.flatMap_cons, ← dotsOf, ih, List.intercalate_cons_cons]
    simp

/-- The parts of a name between its dots, with a dot behind each, are the name with one more dot. -/
theorem dotsOf_splitOn (name : Str) : dotsOf (name.splitOn '.') = name ++ ['.'] := by
  rw [dotsOf_eq_intercalate (List.splitOn_ne_nil '.' name), List.intercalate_splitOn]

theorem not_mem_of_mem_splitOn {name l : Str} (h : l ∈ name.splitOn '.') : '.' ∉ l := by
  induction name generalizing l with
  | nil =>
    obtain rfl : l = [] := by simpa using h
    simp
  | cons c name ih =>
    rw [List.splitOn_cons_eq_if_modifyHead] at h
    by_cases hc : c = '.'
    · rw [if_pos (by simpa using hc), List.mem_cons] at h
      rcases h with rfl | h
      · simp
      · exact ih h
    · rw [if_neg (by simpa using hc)] at h
      rcases hsplit : name.splitOn '.' with _ | ⟨part, parts⟩
      · exact absurd hsplit (List.splitOn_ne_nil '.' name)
      rw [hsplit, List.modifyHead_cons, List.mem_cons] at h
      rw [hsplit] at ih
      rcases h with rfl | h
      · have hpart := ih List.mem_cons_self
        simp only [List.mem_cons, not_or]
        exact ⟨fun hno ↦ hc hno.symm, hpart⟩
      · exact ih (List.mem_cons_of_mem _ h)

theorem length_le_length_utf8 (s : Str) : s.length ≤ (utf8 s).length := by
  induction s with
  | nil => simp
  | cons c s ih =>
    have hc := c.utf8Size_pos
    rw [utf8, List.flatMap_cons, ← utf8, List.length_append, String.length_utf8EncodeChar,
      List.length_cons]
    omega

theorem utf8_eq_nil_iff {s : Str} : utf8 s = [] ↔ s = [] := by
  constructor
  · intro h
    have hle := length_le_length_utf8 s
    rw [h, List.length_nil] at hle
    exact List.length_eq_zero_iff.mp (by omega)
  · rintro rfl
    rfl

section Split

variable {name : Str}

/-- What `is_valid_name` says about a name that is not the root. -/
theorem head_ne_dot (hvalid : isValidName name = true) (hroot : name ≠ ['.']) :
    name ≠ [] ∧ name.head? ≠ some '.' ∧ ¬['.', '.'] <:+: name := by
  have hlength := length_le_length_utf8 name
  simp only [isValidName, Bool.and_eq_true, bne_iff_ne, ne_eq, List.length_eq_zero_iff,
    Bool.or_eq_true, beq_iff_eq, Bool.not_eq_true', decide_eq_false_iff_not,
    beq_eq_false_iff_ne] at hvalid
  obtain ⟨⟨hbytes, hlen | hhead⟩, hdots⟩ := hvalid
  · have hne : name ≠ [] := by
      rintro rfl
      exact hbytes rfl
    have hpos := List.length_pos_iff.mpr hne
    refine ⟨hne, fun hhead ↦ hroot ?_, hdots⟩
    obtain ⟨c, rfl⟩ := List.length_eq_one_iff.mp (by omega : name.length = 1)
    rw [List.head?_cons, Option.some_inj] at hhead
    rw [hhead]
  · refine ⟨?_, hhead, hdots⟩
    rintro rfl
    exact hbytes rfl

/-- Only the last part of a valid name may be empty. -/
theorem ne_nil_of_mem_splitOn (hvalid : isValidName name = true) (hroot : name ≠ ['.'])
    {a b : List Str} (hsplit : name.splitOn '.' = a ++ [] :: b) : b = [] := by
  by_contra hb
  obtain ⟨-, hhead, hdots⟩ := head_ne_dot hvalid hroot
  have hname : name ++ ['.'] = dotsOf a ++ ['.'] ++ (['.'].intercalate b ++ ['.']) := by
    rw [← dotsOf_splitOn, hsplit, ← dotsOf_eq_intercalate hb]
    simp [dotsOf]
  rw [← List.append_assoc, List.append_left_inj] at hname
  rcases List.eq_nil_or_concat' a with rfl | ⟨a', l, rfl⟩
  · exact hhead (by rw [hname]; rfl)
  · refine hdots ⟨dotsOf a' ++ l, ['.'].intercalate b, ?_⟩
    rw [hname]
    simp [dotsOf]

/-- **The labels of a name.** They are its parts, without the empty one behind a final dot. -/
theorem exists_labels (hvalid : isValidName name = true) (hroot : name ≠ ['.']) :
    ∃ ls, [] ∉ ls ∧ nameOf ls = dotted name ∧
      name.splitOn '.' = ls ++ if name.getLast? = some '.' then [[]] else [] := by
  obtain ⟨hne, -⟩ := head_ne_dot hvalid hroot
  obtain ⟨ls, l, hsplit⟩ :=
    (List.eq_nil_or_concat' (name.splitOn '.')).resolve_left (List.splitOn_ne_nil '.' name)
  have hname : name = dotsOf ls ++ l := by
    have h := dotsOf_splitOn name
    rw [hsplit] at h
    simpa [dotsOf, ← List.append_assoc] using h.symm
  have hls : [] ∉ ls := by
    intro hmem
    obtain ⟨a, b, rfl⟩ := List.append_of_mem hmem
    have hb := ne_nil_of_mem_splitOn hvalid hroot (a := a) (b := b ++ [l]) (by rw [hsplit]; simp)
    exact absurd hb (by simp)
  by_cases hl : l = []
  · subst hl
    rw [List.append_nil] at hname
    have hlsne : ls ≠ [] := by
      rintro rfl
      exact hne hname
    obtain ⟨ls', l', rfl⟩ := (List.eq_nil_or_concat' ls).resolve_left hlsne
    have hlast : name.getLast? = some '.' := by
      rw [hname]
      simp [dotsOf]
    refine ⟨_, hls, ?_, by rw [hsplit, if_pos hlast]⟩
    rw [dotted, if_pos hlast, nameOf, if_neg (by simp), ← hname]
  · have hlast : name.getLast? ≠ some '.' := by
      intro hlast
      -- the last character of the name is one of its last part
      rw [hname, List.getLast?_append_of_ne_nil _ hl] at hlast
      have hmem : l ∈ name.splitOn '.' := by
        rw [hsplit]
        simp
      exact not_mem_of_mem_splitOn hmem (List.mem_of_getLast? hlast)
    refine ⟨ls ++ [l], ?_, ?_, by rw [hsplit, if_neg hlast, List.append_nil]⟩
    · simp only [List.mem_append, List.mem_singleton, not_or]
      exact ⟨hls, fun h ↦ hl h.symm⟩
    · rw [dotted, if_neg hlast, nameOf, if_neg (by simp), ← hsplit, dotsOf_splitOn]

end Split

/-! ## Room in the buffer -/

namespace MsgWriter

/-- There is room for `n` more bytes, in the buffer and below the limit for messages. -/
def HasRoom (w : MsgWriter) (n : ℕ) : Prop := n ≤ w.free.length ∧ w.written + n ≤ messageLimit

/-- The writer after the bytes. -/
def append (w : MsgWriter) (data : List UInt8) : MsgWriter :=
  ⟨w.bytes ++ data, w.free.drop data.length⟩

variable {w w' : MsgWriter}

theorem HasRoom.mono {m n : ℕ} (h : w.HasRoom n) (hmn : m ≤ n) : w.HasRoom m :=
  ⟨hmn.trans h.1, (Nat.add_le_add_left hmn _).trans h.2⟩

theorem append_append (w : MsgWriter) (a b : List UInt8) :
    (w.append a).append b = w.append (a ++ b) := by
  simp [append]

theorem hasRoom_append {a : List UInt8} {n : ℕ} (ha : w.HasRoom a.length) :
    (w.append a).HasRoom n ↔ w.HasRoom (a.length + n) := by
  obtain ⟨hfree, hlimit⟩ := ha
  simp only [HasRoom, append, written, List.length_append, List.length_drop]
  omega

theorem write_of_hasRoom {data : List UInt8} (h : w.HasRoom data.length) :
    w.write data = (.ok (), w.append data) := by
  have hle := h.2
  rw [write, if_neg (by omega), if_pos h.1, List.take_of_length_le h.1, append]

theorem write_eq_ok_iff {data : List UInt8} :
    w.write data = (.ok (), w') ↔ w.HasRoom data.length ∧ w' = w.append data := by
  constructor
  · intro h
    have hroom : w.HasRoom data.length := by
      by_cases hlimit : w.written + data.length > messageLimit
      · simp [write, hlimit] at h
      by_cases hfree : data.length ≤ w.free.length
      · exact ⟨hfree, by omega⟩
      · simp [write, hlimit, hfree] at h
    rw [write_of_hasRoom hroom, Prod.mk.injEq] at h
    exact ⟨hroom, h.2.symm⟩
  · rintro ⟨hroom, rfl⟩
    exact write_of_hasRoom hroom

/-- Where there is no room for a byte, nothing is written. -/
theorem writeByte_of_not_hasRoom (h : ¬w.HasRoom 1) (b : UInt8) :
    w.writeByte b = (.err .tooLong, w) := by
  rw [writeByte, write, List.length_singleton]
  by_cases hlimit : w.written + 1 > messageLimit
  · rw [if_pos hlimit]
  · have hfree : w.free = [] := by
      by_contra hne
      have hpos := List.length_pos_iff.mpr hne
      exact h ⟨hpos, by omega⟩
    obtain ⟨bytes, free⟩ := w
    obtain rfl : free = [] := hfree
    rw [if_neg hlimit]
    simp

theorem writeByte_of_hasRoom (h : w.HasRoom 1) (b : UInt8) :
    w.writeByte b = (.ok (), w.append [b]) := write_of_hasRoom h

end MsgWriter

theorem bytes_of_write {w w' : MsgWriter} {data : List UInt8} (h : w.write data = (.ok (), w')) :
    w'.bytes = w.bytes ++ data := by
  rw [(write_eq_ok_iff.mp h).2, append]

/-! ## Labels -/

/-- The bytes of the label that a part of a name is converted to, if it is accepted. -/
def labelBytes (X : IdnaCrate) (seg : Str) : Option (List UInt8) :=
  match X.toAscii seg with
  | some label =>
    if isValidSegment label = true ∧ (utf8 label).length ≤ labelLimit then some (utf8 label)
    else none
  | none => none

/-- Labels with their lengths in front. -/
def wireLabels (labels : List (List UInt8)) : List UInt8 :=
  labels.flatMap fun l ↦ .ofNat l.length :: l

@[simp] theorem wireLabels_nil : wireLabels [] = [] := rfl

@[simp] theorem wireLabels_cons (l : List UInt8) (labels : List (List UInt8)) :
    wireLabels (l :: labels) = .ofNat l.length :: l ++ wireLabels labels := rfl

theorem wireLabels_append (a b : List (List UInt8)) :
    wireLabels (a ++ b) = wireLabels a ++ wireLabels b := List.flatMap_append

/-- The parts of the name give the labels. -/
def GivesLabels (X : IdnaCrate) (segs : List Str) (labels : List (List UInt8)) : Prop :=
  List.Forall₂ (fun seg l ↦ labelBytes X seg = some l) segs labels

variable {X : IdnaCrate}

theorem length_le_of_labelBytes {seg : Str} {l : List UInt8} (h : labelBytes X seg = some l) :
    l.length ≤ labelLimit := by
  rw [labelBytes] at h
  rcases hconv : X.toAscii seg with _ | label
  · simp [hconv] at h
  · simp only [hconv, Option.ite_none_right_eq_some, Option.some_inj] at h
    rw [← h.2]
    exact h.1.2

/-- A single label is never too long for a name. -/
theorem length_lt_of_labelBytes {seg : Str} {l : List UInt8} (h : labelBytes X seg = some l) :
    ¬0 + (1 + l.length) > nameLimit := by
  have hle := length_le_of_labelBytes h
  rw [labelLimit] at hle
  rw [nameLimit]
  omega

theorem GivesLabels.length_le {segs : List Str} {labels : List (List UInt8)}
    (h : GivesLabels X segs labels) : ∀ l ∈ labels, l.length ≤ labelLimit := by
  induction h with
  | nil => simp
  | cons hl _ ih => exact List.forall_mem_cons.mpr ⟨length_le_of_labelBytes hl, ih⟩

/-- One pass of the loop of `write_name`. -/
theorem writeSegments_cons (seg : Str) (segs : List Str) (t : ℕ) (w : MsgWriter) :
    writeSegments X (seg :: segs) t w = match labelBytes X seg with
      | none => (.err .invalidName, w)
      | some l =>
        if t + (1 + l.length) > nameLimit then (.err .invalidName, w)
        else
          (w.writeByte (.ofNat l.length)).andThen fun _ w ↦
            (w.write l).andThen fun _ w ↦ writeSegments X segs (t + (1 + l.length)) w := by
  rw [writeSegments, labelBytes]
  rcases X.toAscii seg with _ | label
  · rfl
  by_cases hvalid : isValidSegment label = true
  · by_cases hlen : (utf8 label).length ≤ labelLimit
    · simp [hvalid, hlen, Nat.not_lt.mpr hlen]
    · simp [hvalid, hlen, Nat.not_le.mp hlen]
  · simp [hvalid]

theorem writeSegments_eq_ok {segs : List Str} {t t' : ℕ} {w w' : MsgWriter}
    (h : writeSegments X segs t w = (.ok t', w')) :
    ∃ labels, GivesLabels X segs labels ∧ t' = t + (wireLabels labels).length ∧
      w' = w.append (wireLabels labels) ∧
      (segs ≠ [] → t' ≤ nameLimit ∧ w.HasRoom (wireLabels labels).length) := by
  induction segs generalizing t w with
  | nil =>
    rw [writeSegments, Prod.mk.injEq, ok.injEq] at h
    obtain ⟨rfl, rfl⟩ := h
    exact ⟨[], .nil, by simp, by simp [append], fun hne ↦ absurd rfl hne⟩
  | cons seg segs ih =>
    rw [writeSegments_cons] at h
    rcases hl : labelBytes X seg with _ | l
    · simp [hl] at h
    by_cases hlimit : t + (1 + l.length) > nameLimit
    · simp [hl, hlimit] at h
    simp only [hl, if_neg hlimit] at h
    obtain ⟨_, w₁, hbyte, h⟩ := Encoded.andThen_eq_ok.mp h
    obtain ⟨_, w₂, hbytes, h⟩ := Encoded.andThen_eq_ok.mp h
    obtain ⟨hroom₁, rfl⟩ := write_eq_ok_iff.mp hbyte
    obtain ⟨hroom₂, rfl⟩ := write_eq_ok_iff.mp hbytes
    have hroom : w.HasRoom ([UInt8.ofNat l.length] ++ l).length := by
      rw [hasRoom_append hroom₁] at hroom₂
      exact hroom₂.mono (List.length_append).le
    have hwire (labels : List (List UInt8)) : (wireLabels (l :: labels)).length =
        ([UInt8.ofNat l.length] ++ l).length + (wireLabels labels).length := by
      rw [wireLabels_cons, List.length_append]
      rfl
    obtain ⟨labels, hlabels, rfl, rfl, hrest⟩ := ih h
    refine ⟨l :: labels, .cons hl hlabels, ?_, ?_, fun _ ↦ ?_⟩
    · simp only [wireLabels_cons, List.length_append, List.length_cons]
      omega
    · rw [append_append, append_append]
      simp
    · by_cases hsegs : segs = []
      · subst hsegs
        obtain rfl := List.forall₂_nil_left_iff.mp hlabels
        rw [hwire, wireLabels_nil, List.length_nil]
        exact ⟨by omega, hroom⟩
      · obtain ⟨hle, hroom₃⟩ := hrest hsegs
        rw [append_append, hasRoom_append hroom, ← hwire] at hroom₃
        exact ⟨hle, hroom₃⟩

theorem writeSegments_of_givesLabels {segs : List Str} {labels : List (List UInt8)} {t : ℕ}
    {w : MsgWriter} (hlabels : GivesLabels X segs labels)
    (hlimit : t + (wireLabels labels).length ≤ nameLimit)
    (hroom : w.HasRoom (wireLabels labels).length) :
    writeSegments X segs t w =
      (.ok (t + (wireLabels labels).length), w.append (wireLabels labels)) := by
  induction hlabels generalizing t w with
  | nil => simp [writeSegments, append]
  | @cons seg l segs labels hl _ ih =>
    simp only [wireLabels_cons, List.length_append, List.length_cons] at hlimit hroom
    have hroom₁ : w.HasRoom [UInt8.ofNat l.length].length :=
      hroom.mono (by rw [List.length_singleton]; omega)
    have hroom₂ : (w.append [.ofNat l.length]).HasRoom l.length := by
      rw [hasRoom_append hroom₁]
      exact hroom.mono (by rw [List.length_singleton]; omega)
    have hroom₃ : ((w.append [.ofNat l.length]).append l).HasRoom (wireLabels labels).length := by
      rw [hasRoom_append hroom₂, hasRoom_append hroom₁]
      exact hroom.mono (by rw [List.length_singleton]; omega)
    rw [writeSegments_cons]
    simp only [hl, if_neg (show ¬t + (1 + l.length) > nameLimit by omega),
      writeByte_of_hasRoom hroom₁, write_of_hasRoom hroom₂, Encoded.andThen]
    rw [ih (by omega) hroom₃, append_append, append_append]
    simp only [wireLabels_cons, List.length_append, List.length_cons, Prod.mk.injEq, ok.injEq]
    refine ⟨by omega, ?_⟩
    simp

/-! ## Names -/

/-- What is written for a name with the given labels. A name that ends with a dot has an empty last
part already. -/
def wireBytes (name : Str) (labels : List (List UInt8)) : List UInt8 :=
  wireLabels labels ++ if name.getLast? = some '.' then [] else [0]

theorem GivesLabels.of_append {a b : List Str} {labels : List (List UInt8)}
    (h : GivesLabels X (a ++ b) labels) :
    ∃ la lb, labels = la ++ lb ∧ GivesLabels X a la ∧ GivesLabels X b lb := by
  induction a generalizing labels with
  | nil => exact ⟨[], labels, rfl, .nil, h⟩
  | cons seg a ih =>
    rw [List.cons_append, GivesLabels, List.forall₂_cons_left_iff] at h
    obtain ⟨l, labels, hl, hrest, rfl⟩ := h
    obtain ⟨la, lb, rfl, ha, hb⟩ := ih hrest
    exact ⟨l :: la, lb, rfl, .cons hl ha, hb⟩

/-- The parts of a name that are not empty give what is written up to the last byte. -/
theorem GivesLabels.exists_parts {name : Str} {labels : List (List UInt8)}
    (h : GivesLabels X (name.splitOn '.') labels) (hvalid : isValidName name = true)
    (hroot : name ≠ ['.']) :
    ∃ ls ls', [] ∉ ls ∧ (∀ l, l ≠ [] → (l ∈ ls ↔ l ∈ name.splitOn '.')) ∧ GivesLabels X ls ls' ∧
      wireBytes name labels = wireLabels ls' ++ [0] ∧ nameOf ls = dotted name := by
  obtain ⟨ls, hnil, hname, hsplit⟩ := exists_labels hvalid hroot
  rw [hsplit] at h ⊢
  obtain ⟨la, lb, rfl, ha, hb⟩ := h.of_append
  refine ⟨ls, la, hnil, fun l hl ↦ ?_, ha, ?_, hname⟩
  · by_cases hlast : name.getLast? = some '.'
    · simp [hlast, hl]
    · simp [hlast]
  · by_cases hlast : name.getLast? = some '.'
    · rw [if_pos hlast, GivesLabels, List.forall₂_cons_left_iff] at hb
      obtain ⟨l, rest, hl, hrest, rfl⟩ := hb
      obtain rfl := List.forall₂_nil_left_iff.mp hrest
      obtain rfl : [] = l := Option.some.inj hl
      rw [wireBytes, if_pos hlast, wireLabels_append, List.append_nil]
      rfl
    · rw [if_neg hlast] at hb
      obtain rfl := List.forall₂_nil_left_iff.mp hb
      rw [wireBytes, if_neg hlast, List.append_nil]

/-- **When a name is written.** Apart from the root, each part of it gives a label, the encoding is
not too long and there is room for it. -/
theorem writeName_eq_ok_iff {name : Str} {w w' : MsgWriter} (hroot : name ≠ ['.']) :
    writeName X name w = (.ok (), w') ↔
      isValidName name = true ∧ ∃ labels, GivesLabels X (name.splitOn '.') labels ∧
        (wireBytes name labels).length ≤ nameLimit ∧
        w.HasRoom (wireBytes name labels).length ∧ w' = w.append (wireBytes name labels) := by
  have hsplit := List.splitOn_ne_nil '.' name
  rw [writeName]
  by_cases hvalid : isValidName name = true
  swap
  · simp [hvalid]
  simp only [hvalid, Bool.not_true, Bool.false_eq_true, if_false, if_neg hroot, true_and]
  rw [Encoded.andThen_eq_ok]
  by_cases hlast : name.getLast? = some '.'
  · simp only [hlast, ne_eq, not_true_eq_false, if_false, wireBytes, if_true, List.append_nil,
      Prod.mk.injEq, true_and]
    constructor
    · rintro ⟨t, w₁, hsegs, rfl⟩
      obtain ⟨labels, hlabels, rfl, rfl, hrest⟩ := writeSegments_eq_ok hsegs
      obtain ⟨hle, hroom⟩ := hrest hsplit
      exact ⟨labels, hlabels, by omega, hroom, rfl⟩
    · rintro ⟨labels, hlabels, hle, hroom, rfl⟩
      exact ⟨_, _, writeSegments_of_givesLabels hlabels (by omega) hroom, rfl⟩
  · simp only [ne_eq, hlast, not_false_eq_true, if_true, wireBytes, if_false, List.length_append,
      List.length_singleton]
    constructor
    · rintro ⟨t, w₁, hsegs, h⟩
      obtain ⟨labels, hlabels, rfl, rfl, hrest⟩ := writeSegments_eq_ok hsegs
      obtain ⟨-, hroom⟩ := hrest hsplit
      by_cases hlimit : 0 + (wireLabels labels).length + 1 > nameLimit
      · rw [if_pos hlimit] at h
        exact absurd h (by simp)
      rw [if_neg hlimit, writeByte, write_eq_ok_iff, hasRoom_append hroom] at h
      obtain ⟨hroom', rfl⟩ := h
      exact ⟨labels, hlabels, by omega, hroom', append_append ..⟩
    · rintro ⟨labels, hlabels, hle, hroom, rfl⟩
      have hroom₁ : w.HasRoom (wireLabels labels).length := hroom.mono (by omega)
      refine ⟨_, _, writeSegments_of_givesLabels hlabels (by omega) hroom₁, ?_⟩
      rw [if_neg (by omega), writeByte_of_hasRoom ((hasRoom_append hroom₁).mpr hroom),
        append_append]

theorem writeName_root_eq_ok_iff {w w' : MsgWriter} :
    writeName X ['.'] w = (.ok (), w') ↔ w.HasRoom 1 ∧ w' = w.append [0] := by
  have hvalid : isValidName ['.'] = true := by decide
  rw [writeName, hvalid]
  exact write_eq_ok_iff

/-! ## Names that are rejected -/

theorem prefix_write (w : MsgWriter) (data : List UInt8) : w.bytes <+: (w.write data).2.bytes := by
  rw [write]
  split
  · exact List.prefix_rfl
  · exact List.prefix_append ..

theorem prefix_andThen {α β : Type} {x : Encoded α} {f : α → MsgWriter → Encoded β}
    {bytes : List UInt8} (hx : bytes <+: x.2.bytes)
    (hf : ∀ a w, w.bytes <+: (f a w).2.bytes) : bytes <+: (x.andThen f).2.bytes := by
  obtain ⟨a | e | _ | _, w⟩ := x
  · exact hx.trans (hf a w)
  · exact hx
  · exact hx
  · exact hx

/-- What has been written stays, however the loop ends. -/
theorem prefix_writeSegments (segs : List Str) (t : ℕ) (w : MsgWriter) :
    w.bytes <+: (writeSegments X segs t w).2.bytes := by
  induction segs generalizing t w with
  | nil => exact List.prefix_rfl
  | cons seg segs ih =>
    rw [writeSegments_cons]
    rcases labelBytes X seg with _ | l
    · exact List.prefix_rfl
    dsimp only
    split
    · exact List.prefix_rfl
    · refine prefix_andThen (prefix_write w _) fun _ w ↦ ?_
      exact prefix_andThen (prefix_write w l) fun _ w ↦ ih _ w

/-- The first part of the name gives a label. -/
def FirstLabelAccepted (X : IdnaCrate) (name : Str) : Prop :=
  ∃ seg segs l, name.splitOn '.' = seg :: segs ∧ labelBytes X seg = some l

section Rejected

variable {name : Str} {w w' : MsgWriter} {e : EncodeError}

/-- Nothing is written for a name whose first label is not written. -/
theorem eq_of_writeName_err (h : writeName X name w = (.err e, w'))
    (hfirst : ¬(isValidName name = true ∧ FirstLabelAccepted X name ∧ w.HasRoom 1)) : w' = w := by
  rw [writeName] at h
  by_cases hvalid : isValidName name = true
  swap
  · simp only [hvalid, Bool.not_false, if_true, Prod.mk.injEq] at h
    exact h.2.symm
  simp only [hvalid, Bool.not_true, Bool.false_eq_true, if_false] at h
  by_cases hroom : w.HasRoom 1
  · -- the first label is rejected
    obtain ⟨seg, segs, hsplit⟩ := List.exists_cons_of_ne_nil (List.splitOn_ne_nil '.' name)
    have hnone : labelBytes X seg = none := by
      rcases hl : labelBytes X seg with _ | l
      · rfl
      · exact absurd ⟨hvalid, ⟨seg, segs, l, hsplit, hl⟩, hroom⟩ hfirst
    by_cases hroot : name = ['.']
    · rw [if_pos hroot, writeByte_of_hasRoom hroom] at h
      exact absurd h (by simp)
    · rw [if_neg hroot, hsplit, writeSegments_cons, hnone] at h
      exact (Prod.mk.inj h).2.symm
  · by_cases hroot : name = ['.']
    · rw [if_pos hroot, writeByte_of_not_hasRoom hroom, Prod.mk.injEq] at h
      exact h.2.symm
    · obtain ⟨seg, segs, hsplit⟩ := List.exists_cons_of_ne_nil (List.splitOn_ne_nil '.' name)
      rw [if_neg hroot, hsplit, writeSegments_cons] at h
      rcases hl : labelBytes X seg with _ | l
      · rw [hl] at h
        exact (Prod.mk.inj h).2.symm
      · simp only [hl, if_neg (length_lt_of_labelBytes hl), writeByte_of_not_hasRoom hroom,
          Encoded.andThen] at h
        exact (Prod.mk.inj h).2.symm

/-- The length of the first label has been written. -/
theorem lt_written_of_writeName_err (h : writeName X name w = (.err e, w'))
    (hvalid : isValidName name = true) (hfirst : FirstLabelAccepted X name) (hroom : w.HasRoom 1) :
    w.written < w'.written := by
  obtain ⟨seg, segs, l, hsplit, hl⟩ := hfirst
  rw [writeName] at h
  simp only [hvalid, Bool.not_true, Bool.false_eq_true, if_false] at h
  by_cases hroot : name = ['.']
  · rw [if_pos hroot, writeByte_of_hasRoom hroom] at h
    exact absurd h (by simp)
  rw [if_neg hroot] at h
  have hsegs : (w.append [.ofNat l.length]).bytes <+:
      (writeSegments X (name.splitOn '.') 0 w).2.bytes := by
    rw [hsplit, writeSegments_cons]
    simp only [hl, if_neg (length_lt_of_labelBytes hl), writeByte_of_hasRoom hroom,
      Encoded.andThen]
    exact prefix_andThen (prefix_write _ l) fun _ w ↦ prefix_writeSegments segs _ w
  have hprefix : (w.append [.ofNat l.length]).bytes <+: w'.bytes := by
    have hend := prefix_andThen (f := fun totalLen w ↦
      if name.getLast? ≠ some '.' then
        if totalLen + 1 > nameLimit then (.err .invalidName, w) else w.writeByte 0
      else (.ok (), w)) hsegs fun t w ↦ by
        split
        · split
          · exact List.prefix_rfl
          · exact prefix_write w [0]
        · exact List.prefix_rfl
    rwa [h] at hend
  have hlen := hprefix.length_le
  rw [append, List.length_append, List.length_singleton] at hlen
  rw [written, written]
  omega

/-- **When a rejected name leaves nothing behind.** The writer is unchanged if and only if the name
has a structure that is not valid, or its first label is rejected, or there is no room for a
byte. -/
theorem writeName_unchanged_iff (h : writeName X name w = (.err e, w')) :
    (w'.written = w.written ∧ w'.intoBytes = w.intoBytes ↔
      ¬(isValidName name = true ∧ FirstLabelAccepted X name ∧ w.HasRoom 1)) ∧
    (w'.intoBytes = w.intoBytes → w' = w) := by
  have hunchanged : w'.intoBytes = w.intoBytes →
      ¬(isValidName name = true ∧ FirstLabelAccepted X name ∧ w.HasRoom 1) := by
    rintro hbytes ⟨hvalid, hfirst, hroom⟩
    have hlt := lt_written_of_writeName_err h hvalid hfirst hroom
    have hlen : w'.written = w.written := congrArg List.length hbytes
    exact hlt.ne' hlen
  refine ⟨⟨fun hsame ↦ hunchanged hsame.2, fun hcond ↦ ?_⟩, fun hbytes ↦ ?_⟩
  · rw [eq_of_writeName_err h hcond]
    exact ⟨rfl, rfl⟩
  · exact eq_of_writeName_err h (hunchanged hbytes)

/-- The first label of `-.a` is rejected, and nothing has been written before. -/
theorem writeName_unchanged_hyphen :
    ∃ w', writeName ⟨some, some⟩ "-.a".toList ⟨[7], [0, 0, 0, 0]⟩ = (.err .invalidName, w') ∧
      w'.written = 1 ∧ w'.intoBytes = [7] ∧ w' = ⟨[7], [0, 0, 0, 0]⟩ := by
  have h : writeName ⟨some, some⟩ "-.a".toList ⟨[7], [0, 0, 0, 0]⟩ =
      (.err .invalidName, ⟨[7], [0, 0, 0, 0]⟩) := rfl
  have hlabel : ¬FirstLabelAccepted ⟨some, some⟩ "-.a".toList := by
    rintro ⟨seg, segs, l, hsplit, hl⟩
    have hsegs : "-.a".toList.splitOn '.' = [['-'], ['a']] := by decide
    have hnone : labelBytes ⟨some, some⟩ ['-'] = none := by decide
    obtain ⟨rfl, -⟩ := List.cons.inj (hsegs.symm.trans hsplit)
    exact absurd (hnone.symm.trans hl) (by simp)
  obtain ⟨hiff, heq⟩ := writeName_unchanged_iff h
  obtain ⟨hwritten, hbytes⟩ := hiff.mpr fun hno ↦ hlabel hno.2.1
  exact ⟨_, h, hwritten, hbytes, heq hbytes⟩

/-- The second label of `a.-` is rejected when the first one has been written. -/
theorem writeName_changed :
    ¬∀ (X : IdnaCrate) (name : Str) (w w' : MsgWriter) (e : EncodeError),
      writeName X name w = (.err e, w') →
        w'.written = w.written ∧ w'.intoBytes = w.intoBytes := by
  intro h
  have hrejected : writeName ⟨some, some⟩ "a.-".toList ⟨[], [0, 0, 0, 0]⟩ =
      (.err .invalidName, ⟨[1, 97], [0, 0]⟩) := rfl
  exact absurd (h _ _ _ _ _ hrejected).1 (by decide)

end Rejected

end UsnetSockets
