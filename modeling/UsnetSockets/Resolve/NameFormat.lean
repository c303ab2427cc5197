import UsnetSockets.Resolve.NameWriting
import UsnetSockets.Resolve.ReaderLogic

/-!
# Names on the wire

A name in a message is a sequence of labels, each with its length in front, and a zero byte at the
end. `write_name` splits its argument at the dots and `read_name` puts a dot behind every label, so
the final dot of a name is optional on one side and always there on the other. This file has the
labels of a name as the middle between the two: what `write_name` writes is the labels of the name,
and what `read_name` reads from there is the name of the labels.

It is about names in ASCII without internationalized labels, on which the external crate has no say.
-/

namespace UsnetSockets

open MsgReader MsgWriter Outcome

/-! ## Labels -/

/-- A label as it stands in a message. -/
def wireLabel (l : Str) : List UInt8 := .ofNat l.length :: l.map fun c ↦ .ofNat c.toNat

/-- The labels of a name as they stand in a message. -/
def wireName (ls : List Str) : List UInt8 := ls.flatMap wireLabel ++ [0]

/-- A label that both sides accept as it is. -/
structure PlainLabel (l : Str) : Prop where
  ne_nil : l ≠ []
  length_le : l.length ≤ labelLimit
  valid : isValidSegment l = true
  ascii : isAscii l = true
  not_idna : ¬"xn--".toList <+: l

/-- A name in ASCII without internationalized labels. -/
structure PlainName (name : Str) : Prop where
  ascii : isAscii name = true
  not_idna : ∀ l ∈ name.splitOn '.', ¬"xn--".toList <+: l

/-! ## Characters and bytes -/

theorem utf8_of_isAscii {s : Str} (h : isAscii s = true) :
    utf8 s = s.map fun c ↦ .ofNat c.toNat := by
  induction s with
  | nil => rfl
  | cons c s ih =>
    simp only [isAscii, List.all_cons, Bool.and_eq_true, decide_eq_true_eq] at h
    have hc : String.utf8EncodeChar c = [UInt8.ofNat c.toNat] := by
      rw [String.utf8EncodeChar]
      exact if_pos (by have := h.1; rw [Char.toNat] at this; omega)
    rw [utf8, List.flatMap_cons, hc, ← utf8, ih (by simpa [isAscii] using h.2)]
    rfl

theorem length_utf8_of_isAscii {s : Str} (h : isAscii s = true) : (utf8 s).length = s.length := by
  rw [utf8_of_isAscii h, List.length_map]

private theorem toNat_ofNat_of_isAscii {s : Str} (h : isAscii s = true) {c : Char} (hc : c ∈ s) :
    (UInt8.ofNat c.toNat).toNat = c.toNat ∧ c.toNat < 128 := by
  have hlt : c.toNat < 128 := by simpa using List.all_eq_true.mp h c hc
  exact ⟨UInt8.toNat_ofNat_of_lt' (hlt.trans (by decide)), hlt⟩

theorem strOfBytes_map {s : Str} (h : isAscii s = true) :
    strOfBytes (s.map fun c ↦ .ofNat c.toNat) = s := by
  rw [strOfBytes, List.map_map]
  conv_rhs => rw [← List.map_id s]
  refine List.map_congr_left fun c hc ↦ ?_
  simp only [Function.comp_apply, (toNat_ofNat_of_isAscii h hc).1, Char.ofNat_toNat, id]

theorem isAsciiBytes_map {s : Str} (h : isAscii s = true) :
    isAsciiBytes (s.map fun c ↦ .ofNat c.toNat) = true := by
  rw [isAsciiBytes, List.all_map, List.all_eq_true]
  intro c hc
  have hbyte := toNat_ofNat_of_isAscii h hc
  simp only [Function.comp_apply, hbyte.1, hbyte.2, decide_true]

/-! ## Parts of a name -/

theorem isAscii_of_mem_splitOn {name l : Str} (h : isAscii name = true)
    (hl : l ∈ name.splitOn '.') : isAscii l = true := by
  rw [isAscii, List.all_eq_true] at h ⊢
  intro c hc
  have hmem : c ∈ name ++ ['.'] := by
    rw [← dotsOf_splitOn]
    exact List.mem_flatMap.mpr ⟨l, hl, List.mem_append_left _ hc⟩
  rcases List.mem_append.mp hmem with hname | hdot
  · exact h c hname
  · rw [List.mem_singleton.mp hdot]
    decide

/-! ## Writing -/

@[simp] theorem length_wireLabel (l : Str) : (wireLabel l).length = 1 + l.length := by
  simp [wireLabel, Nat.add_comm]

variable {X : IdnaCrate}

/-- A part of a name in ASCII is its own label. -/
theorem labelBytes_eq_some_iff {seg : Str} {l : List UInt8} (hascii : isAscii seg = true) :
    labelBytes X seg = some l ↔
      l = (seg.map fun c ↦ .ofNat c.toNat) ∧ isValidSegment seg = true ∧
        seg.length ≤ labelLimit := by
  rw [labelBytes, IdnaCrate.toAscii, if_pos hascii]
  simp only [utf8_of_isAscii hascii, List.length_map, Option.ite_none_right_eq_some,
    Option.some_inj]
  exact ⟨fun h ↦ ⟨h.2.symm, h.1⟩, fun h ↦ ⟨h.2, h.1.symm⟩⟩

theorem givesLabels_iff {segs : List Str} {labels : List (List UInt8)}
    (hascii : ∀ l ∈ segs, isAscii l = true) :
    GivesLabels X segs labels ↔
      labels = segs.map (fun l ↦ l.map fun c ↦ .ofNat c.toNat) ∧
        ∀ l ∈ segs, isValidSegment l = true ∧ l.length ≤ labelLimit := by
  induction segs generalizing labels with
  | nil => simp [GivesLabels]
  | cons seg segs ih =>
    rw [List.forall_mem_cons] at hascii
    rw [GivesLabels, List.forall₂_cons_left_iff]
    simp only [labelBytes_eq_some_iff hascii.1, ← GivesLabels.eq_def, ih hascii.2, List.map_cons,
      List.forall_mem_cons]
    constructor
    · rintro ⟨l, labels, ⟨rfl, hseg⟩, ⟨rfl, hsegs⟩, rfl⟩
      exact ⟨rfl, hseg, hsegs⟩
    · rintro ⟨rfl, hseg, hsegs⟩
      exact ⟨_, _, ⟨rfl, hseg⟩, ⟨rfl, hsegs⟩, rfl⟩

theorem wireLabels_map (segs : List Str) :
    wireLabels (segs.map fun l ↦ l.map fun c ↦ .ofNat c.toNat) = segs.flatMap wireLabel := by
  rw [wireLabels, List.flatMap_map]
  refine List.flatMap_congr fun l _ ↦ ?_
  rw [wireLabel, List.length_map]

theorem not_mem_of_isValidSegment {l : Str} (h : isValidSegment l = true) : '.' ∉ l := by
  intro hmem
  rw [isValidSegment, Bool.and_eq_true, List.all_eq_true] at h
  exact absurd (h.2 '.' hmem) (by decide)

/-- **What `write_name` writes** is the labels of the name. -/
theorem bytes_of_writeName {name : Str} {w w' : MsgWriter} (hplain : PlainName name)
    (h : writeName X name w = (.ok (), w')) :
    ∃ ls, w'.bytes = w.bytes ++ wireName ls ∧ (∀ l ∈ ls, PlainLabel l) ∧
      (wireName ls).length ≤ nameLimit ∧ nameOf ls = dotted name := by
  by_cases hroot : name = ['.']
  · subst hroot
    obtain ⟨-, rfl⟩ := writeName_root_eq_ok_iff.mp h
    exact ⟨[], rfl, by simp, by decide, rfl⟩
  obtain ⟨hvalid, labels, hlabels, hlimit, -, rfl⟩ := (writeName_eq_ok_iff hroot).mp h
  obtain ⟨ls, ls', hnil, hmem, hlabels', hwire, hname⟩ := hlabels.exists_parts hvalid hroot
  have hsplit (l : Str) (hl : l ∈ ls) : l ∈ name.splitOn '.' := (hmem l fun h ↦ hnil (h ▸ hl)).mp hl
  obtain ⟨rfl, hall⟩ :=
    (givesLabels_iff fun l hl ↦ isAscii_of_mem_splitOn hplain.ascii (hsplit l hl)).mp hlabels'
  rw [hwire, wireLabels_map, ← wireName] at hlimit ⊢
  refine ⟨ls, rfl, fun l hl ↦ ?_, hlimit, hname⟩
  exact ⟨fun h ↦ hnil (h ▸ hl), (hall l hl).2, (hall l hl).1,
    isAscii_of_mem_splitOn hplain.ascii (hsplit l hl), hplain.not_idna l (hsplit l hl)⟩

/-! ## Reading -/

theorem PlainLabel.segmentText {l : Str} (h : PlainLabel l) :
    segmentText X (l.map fun c ↦ .ofNat c.toNat) = some l := by
  have hstr := strOfBytes_map h.ascii
  rw [UsnetSockets.segmentText, hstr, if_pos ⟨isAsciiBytes_map h.ascii, h.valid⟩,
    IdnaCrate.toUnicode, if_neg]
  rw [List.splitOn_eq_singleton (not_mem_of_isValidSegment h.valid)]
  simpa using h.not_idna

/-- The label is found where it has been written. -/
theorem PlainLabel.labelAt {l : Str} (h : PlainLabel l) (pre post : List UInt8) :
    labelAt X (pre ++ (wireLabel l ++ post)) pre.length = some (l.length, l) := by
  have hlen : l.length < 64 := by
    have := h.length_le
    rw [labelLimit] at this
    omega
  have hnat : (UInt8.ofNat l.length).toNat = l.length :=
    UInt8.toNat_ofNat_of_lt' (hlen.trans (by decide))
  have hpos : 0 < l.length := List.length_pos_iff.mpr h.ne_nil
  have hbyte : (pre ++ (wireLabel l ++ post))[pre.length]? = some (.ofNat l.length) := by
    rw [List.getElem?_append_right le_rfl, Nat.sub_self]
    rfl
  have hne : UInt8.ofNat l.length ≠ 0 := by
    intro hno
    rw [hno] at hnat
    exact absurd hnat.symm hpos.ne'
  have hshift : UInt8.ofNat l.length >>> 6 = 0b00 := by
    have hdiv : l.length / 2 ^ 6 = 0 := Nat.div_eq_of_lt hlen
    rw [← UInt8.toNat_inj, UInt8.toNat_shiftRight, hnat]
    simpa [Nat.shiftRight_eq_div_pow] using hdiv
  have hdrop : ((pre ++ (wireLabel l ++ post)).drop (pre.length + 1)).take l.length =
      l.map fun c ↦ .ofNat c.toNat := by
    rw [← List.drop_drop, List.drop_left, wireLabel, List.cons_append, List.drop_one,
      List.tail_cons]
    exact List.take_left' (by simp)
  have hle : pre.length + 1 + l.length ≤ (pre ++ (wireLabel l ++ post)).length := by
    rw [List.length_append, List.length_append, length_wireLabel]
    omega
  rw [UsnetSockets.labelAt, hbyte]
  dsimp only
  rw [hnat, if_pos ⟨hne, hshift, hle⟩, hdrop, h.segmentText]
  rfl

theorem wireName_cons (l : Str) (ls : List Str) :
    wireName (l :: ls) = wireLabel l ++ wireName ls := by
  rw [wireName, wireName, List.flatMap_cons, List.append_assoc]

/-- The loop of `read_name` over labels that have been written. -/
theorem returns_readNameLoop (start : ℕ) {ls : List Str} (hls : ∀ l ∈ ls, PlainLabel l)
    (pre post : List UInt8) (res : Str) (t : ℕ) (ht : t + (wireName ls).length ≤ nameLimit) :
    Returns (fun n ↦ loop (readNameBody X start) n
        ⟨⟨pre ++ (wireName ls ++ post), pre.length⟩, none, res, t⟩)
      ⟨⟨pre ++ (wireName ls ++ post), pre.length + (wireName ls).length⟩, none, res ++ dotsOf ls,
        t + (ls.flatMap wireLabel).length⟩ := by
  induction ls generalizing pre res t with
  | nil =>
    have hbody : readNameBody X start
          ⟨⟨pre ++ (wireName [] ++ post), pre.length⟩, none, res, t⟩ = .ok (.inr _) :=
      readNameBody_of_zero (by simp [wireName]) (by simpa [wireName] using ht)
    rw [returns_loop_iff_of_break hbody]
    simp [NameState.stop, setPosition, wireName, dotsOf]
  | cons l ls ih =>
    rw [List.forall_mem_cons] at hls
    rw [wireName_cons, List.length_append, length_wireLabel] at ht
    have hbody : readNameBody X start
          ⟨⟨pre ++ (wireLabel l ++ (wireName ls ++ post)), pre.length⟩, none, res, t⟩ =
        .ok (.inl ⟨⟨(pre ++ wireLabel l) ++ (wireName ls ++ post), (pre ++ wireLabel l).length⟩,
          none, res ++ l ++ ['.'], t + (1 + l.length)⟩) := by
      rw [readNameBody_of_labelAt (hls.1.labelAt pre _) (by dsimp only; omega)]
      simp [NameState.take, setPosition, Nat.add_assoc]
    have hrest := ih hls.2 (pre ++ wireLabel l) (res ++ l ++ ['.']) (t + (1 + l.length)) (by omega)
    rw [wireName_cons, List.append_assoc, returns_loop_iff_of_continue hbody]
    simpa [dotsOf, wireName_cons, Nat.add_assoc] using hrest

/-- **What `read_name` reads** is the name of the labels. -/
theorem readsBack_readName {ls : List Str} (hls : ∀ l ∈ ls, PlainLabel l)
    (hlen : (wireName ls).length ≤ nameLimit) :
    ReadsBack (fun n r ↦ r.readName X n) (wireName ls) (· = nameOf ls) := by
  intro pre post
  obtain ⟨N, hN⟩ := returns_readNameLoop (X := X) pre.length hls pre post [] 0 (by omega)
  have hname : (if (dotsOf ls).isEmpty then ['.'] else dotsOf ls) = nameOf ls := by
    cases ls with
    | nil => rfl
    | cons l ls => simp [nameOf, dotsOf]
  refine ⟨nameOf ls, rfl, N, fun n hn ↦ ?_⟩
  rw [← stable_loop _ hn (by simp [hN])] at hN
  simp only [List.nil_append] at hN
  simp only [readName, hN, ok_bind, hname]
  rfl

end UsnetSockets
