import UsnetSockets.Resolve.NameWriting

/-!
# One name on the wire

A name in a message ends with its first empty label. `write_name` looks for empty labels in the name
as it is given, but what it writes are the converted labels, and a label that is not in ASCII may be
converted to the empty string: `domain_to_ascii` drops characters that are to be ignored. Then a
zero byte stands in the middle of what is written for the name.
-/

namespace UsnetSockets

open MsgWriter

/-- The bytes are one name: labels with their lengths in front, and a zero byte at the end. -/
def OneWireName (bytes : List UInt8) : Prop :=
  ∃ labels : List (List UInt8), (∀ l ∈ labels, 1 ≤ l.length ∧ l.length ≤ 63) ∧
    bytes = labels.flatMap (fun l ↦ .ofNat l.length :: l) ++ [0] ∧ bytes.length ≤ 255

/-- No label of the name is converted to the empty string. -/
def NoEmptyConversion (X : IdnaCrate) (name : Str) : Prop :=
  ∀ seg ∈ name.splitOn '.', isAscii seg = false → X.domainToAscii seg ≠ some []

/-! ## Where a name ends -/

theorem toNat_ofNat_length {l : List UInt8} (h : l.length ≤ 63) :
    (UInt8.ofNat l.length).toNat = l.length :=
  UInt8.toNat_ofNat_of_lt' (h.trans_lt (by decide))

theorem ofNat_length_ne_zero {l : List UInt8} (h : 1 ≤ l.length ∧ l.length ≤ 63) :
    UInt8.ofNat l.length ≠ 0 := by
  intro hzero
  have hnat : 0 = l.length := by
    rw [← toNat_ofNat_length h.2, hzero]
    rfl
  omega

/-- The first zero byte in the place of a length is the end of a name. -/
theorem eq_nil_of_oneWireName {a : List (List UInt8)} {rest : List UInt8}
    (ha : ∀ l ∈ a, 1 ≤ l.length ∧ l.length ≤ 63)
    (h : OneWireName (wireLabels a ++ 0 :: rest)) : rest = [] := by
  obtain ⟨labels, hlabels, hwire, -⟩ := h
  induction a generalizing labels with
  | nil =>
    rcases labels with _ | ⟨l, labels⟩
    · simpa using hwire
    · have hzero := ofNat_length_ne_zero (hlabels l List.mem_cons_self)
      exact absurd (List.cons.inj hwire).1.symm hzero
  | cons l' a ih =>
    rw [List.forall_mem_cons] at ha
    rcases labels with _ | ⟨l, labels⟩
    · exact absurd (List.cons.inj hwire).1 (ofNat_length_ne_zero ha.1)
    · rw [List.forall_mem_cons] at hlabels
      simp only [wireLabels_cons, List.cons_append, List.flatMap_cons, List.cons.injEq,
        List.append_assoc] at hwire
      have hlen := congrArg UInt8.toNat hwire.1
      rw [toNat_ofNat_length ha.1.2, toNat_ofNat_length hlabels.1.2] at hlen
      exact ih ha.2 labels hlabels.2 (List.append_inj_right hwire.2 hlen)

theorem oneWireName_iff {labels : List (List UInt8)} (hlabel : ∀ l ∈ labels, l.length ≤ 63)
    (hlen : (wireLabels labels ++ [0]).length ≤ 255) :
    OneWireName (wireLabels labels ++ [0]) ↔ [] ∉ labels := by
  constructor
  · intro h hnil
    -- up to the first of the empty labels
    obtain ⟨a, b, rfl, ha⟩ := List.eq_append_cons_of_mem hnil
    have hne (l : List UInt8) (hl : l ∈ a) : 1 ≤ l.length ∧ l.length ≤ 63 := by
      refine ⟨List.length_pos_iff.mpr ?_, hlabel l (List.mem_append_left _ hl)⟩
      rintro rfl
      exact ha hl
    have hwire : wireLabels (a ++ [] :: b) ++ [0] =
        wireLabels a ++ 0 :: (wireLabels b ++ [0]) := by
      rw [wireLabels_append, List.append_assoc]
      rfl
    rw [hwire] at h
    exact absurd (eq_nil_of_oneWireName hne h) (by simp)
  · intro hnil
    refine ⟨labels, fun l hl ↦ ⟨List.length_pos_iff.mpr ?_, hlabel l hl⟩, rfl, hlen⟩
    rintro rfl
    exact hnil hl

/-! ## Empty labels -/

variable {X : IdnaCrate}

theorem labelBytes_eq_nil_iff {seg : Str} :
    labelBytes X seg = some [] ↔
      seg = [] ∨ isAscii seg = false ∧ X.domainToAscii seg = some [] := by
  have hnil : isValidSegment [] = true ∧ (utf8 []).length ≤ labelLimit := by decide
  rw [labelBytes, IdnaCrate.toAscii]
  by_cases hascii : isAscii seg = true
  · rw [if_pos hascii]
    simp only [Option.ite_none_right_eq_some, Option.some_inj, utf8_eq_nil_iff, hascii,
      Bool.true_eq_false, false_and, or_false]
    refine ⟨And.right, ?_⟩
    rintro rfl
    exact ⟨hnil, rfl⟩
  · have hne : seg ≠ [] := by
      rintro rfl
      exact hascii rfl
    rw [if_neg hascii]
    simp only [hne, false_or, Bool.not_eq_true] at hascii ⊢
    rcases X.domainToAscii seg with _ | label
    · simp
    · simp only [Option.ite_none_right_eq_some, Option.some_inj, utf8_eq_nil_iff, hascii, true_and]
      refine ⟨And.right, ?_⟩
      rintro rfl
      exact ⟨hnil, rfl⟩

theorem GivesLabels.mem_iff {segs : List Str} {labels : List (List UInt8)}
    (h : GivesLabels X segs labels) {l : List UInt8} :
    l ∈ labels ↔ ∃ seg ∈ segs, labelBytes X seg = some l := by
  induction h with
  | nil => simp
  | cons hseg _ ih =>
    simp only [List.mem_cons, ih, exists_eq_or_imp, hseg, Option.some_inj]
    exact or_congr_left eq_comm

theorem GivesLabels.nil_mem_iff {segs : List Str} {labels : List (List UInt8)}
    (h : GivesLabels X segs labels) (hsegs : [] ∉ segs) :
    [] ∈ labels ↔ ∃ seg ∈ segs, isAscii seg = false ∧ X.domainToAscii seg = some [] := by
  rw [h.mem_iff]
  refine exists_congr fun seg ↦ and_congr_right fun hseg ↦ ?_
  have hne : seg ≠ [] := by
    rintro rfl
    exact hsegs hseg
  rw [labelBytes_eq_nil_iff, or_iff_right hne]

/-! ## Names -/

/-- **When a name is written as one name.** For a name that `write_name` accepts, what it writes is
one name if and only if no label of the name is converted to the empty string. -/
theorem writeName_oneWireName_iff {name : Str} {w w' : MsgWriter}
    (h : writeName X name w = (.ok (), w')) :
    (∃ bytes, w'.bytes = w.bytes ++ bytes ∧ OneWireName bytes) ↔ NoEmptyConversion X name := by
  by_cases hroot : name = ['.']
  · subst hroot
    obtain ⟨-, rfl⟩ := writeName_root_eq_ok_iff.mp h
    have hascii : ∀ seg ∈ ['.'].splitOn '.', isAscii seg = true := by decide
    refine iff_of_true ⟨[0], rfl, [], by simp, rfl, by decide⟩ fun seg hseg hno ↦ ?_
    rw [hascii seg hseg] at hno
    exact absurd hno (by simp)
  obtain ⟨hvalid, labels, hlabels, hlimit, -, rfl⟩ := (writeName_eq_ok_iff hroot).mp h
  obtain ⟨ls, ls', hnil, hmem, hparts, hwire, -⟩ := hlabels.exists_parts hvalid hroot
  rw [hwire] at hlimit ⊢
  have hone : (∃ bytes, (w.append (wireLabels ls' ++ [0])).bytes = w.bytes ++ bytes ∧
      OneWireName bytes) ↔ OneWireName (wireLabels ls' ++ [0]) := by
    constructor
    · rintro ⟨bytes, hbytes, hbytes'⟩
      rwa [List.append_cancel_left hbytes]
    · exact fun hbytes ↦ ⟨_, rfl, hbytes⟩
  rw [hone, oneWireName_iff hparts.length_le hlimit, hparts.nil_mem_iff hnil, NoEmptyConversion]
  constructor
  · intro hno seg hseg hascii hconv
    have hne : seg ≠ [] := by
      rintro rfl
      exact absurd hascii (by decide)
    exact hno ⟨seg, (hmem seg hne).mpr hseg, hascii, hconv⟩
  · rintro hno ⟨seg, hseg, hascii, hconv⟩
    have hne : seg ≠ [] := fun h ↦ hnil (h ▸ hseg)
    exact hno seg ((hmem seg hne).mp hseg) hascii hconv

/-- A conversion that drops soft hyphens, and knows no other characters outside of ASCII. -/
def dropSoftHyphens : IdnaCrate where
  domainToAscii s :=
    let kept := s.filter (· != '\u00ad')
    if isAscii kept then some kept else none
  domainToUnicode := some

theorem writeName_oneWireName_softHyphen :
    ∃ w', writeName dropSoftHyphens ['a', '\u00ad', 'b', '.'] ⟨[], [0, 0, 0, 0]⟩ = (.ok (), w') ∧
      ∃ bytes, w'.bytes = [] ++ bytes ∧ OneWireName bytes := by
  have h : writeName dropSoftHyphens ['a', '\u00ad', 'b', '.'] ⟨[], [0, 0, 0, 0]⟩ =
      (.ok (), ⟨[2, 97, 98, 0], []⟩) := rfl
  exact ⟨_, h, (writeName_oneWireName_iff h).mpr (by unfold NoEmptyConversion; decide)⟩

/-- A label of one soft hyphen in front of `a` is written as a zero byte. -/
theorem not_writeName_oneWireName :
    ¬∀ (X : IdnaCrate), (∀ s label, isAscii s = false → X.domainToAscii s = some label →
        isAscii label = true) →
      ∀ (name : Str) (w w' : MsgWriter), writeName X name w = (.ok (), w') →
        ∃ bytes, w'.bytes = w.bytes ++ bytes ∧ OneWireName bytes := by
  intro h
  have hascii (s label : Str) (_ : isAscii s = false)
      (hconv : dropSoftHyphens.domainToAscii s = some label) : isAscii label = true := by
    simp only [dropSoftHyphens, Option.ite_none_right_eq_some, Option.some_inj] at hconv
    rw [← hconv.2]
    exact hconv.1
  have hwrite : writeName dropSoftHyphens ['\u00ad', '.', 'a'] ⟨[], [0, 0, 0, 0]⟩ =
      (.ok (), ⟨[0, 1, 97, 0], []⟩) := rfl
  obtain ⟨bytes, hbytes, hone⟩ := h _ hascii _ _ _ hwrite
  obtain rfl : [0, 1, 97, 0] = bytes := hbytes
  have hnil : [1, 97, 0] = ([] : List UInt8) := eq_nil_of_oneWireName (a := []) (by simp) hone
  exact absurd hnil (by simp)

end UsnetSockets
