import Mathlib.Algebra.Order.Ring.Nat
import UsnetSockets.Resolve.NameWalk

/-!
# The name at a place of a message

RFC 1035 writes a name as labels with their lengths in front, up to a zero byte, where the rest of a
name may be replaced by a pointer to another place of the message. `NameAt` is this format, as a
relation between a place, the labels that are found from there and the place where the name ends: a
pointer ends the name, whatever it points at.

`read_name` is a loop with a place to return to, which is set by the first pointer only. Here it is
shown that a name it returns is the one the format gives.
-/

namespace UsnetSockets

open MsgReader Outcome

/-! ## The format -/

/-- The labels of the name at a place of a message, and the place just behind it. -/
inductive NameAt (data : List UInt8) : ℕ → List (List UInt8) → ℕ → Prop
  | zero {p : ℕ} (hbyte : data[p]? = some 0) : NameAt data p [] (p + 1)
  /-- The two highest bits of the length of a label are 00. -/
  | label {p stop : ℕ} {len : UInt8} {labels : List (List UInt8)} (hbyte : data[p]? = some len)
      (hbits : len.toNat / 64 = 0b00) (hne : len ≠ 0) (hfits : p + 1 + len.toNat ≤ data.length)
      (hrest : NameAt data (p + 1 + len.toNat) labels stop) :
      NameAt data p ((data.drop (p + 1)).take len.toNat :: labels) stop
  /-- The two highest bits of a pointer are 11, and the other 14 are an offset. -/
  | pointer {p stop : ℕ} {hi lo : UInt8} {labels : List (List UInt8)} (hhi : data[p]? = some hi)
      (hlo : data[p + 1]? = some lo) (hbits : hi.toNat / 64 = 0b11)
      (hrest : NameAt data (hi.toNat % 64 * 256 + lo.toNat) labels stop) :
      NameAt data p labels (p + 2)

/-- A label that `read_name` lets through. -/
structure ReadableLabel (l : List UInt8) : Prop where
  ascii : isAsciiBytes l = true
  pos : 1 ≤ l.length
  le : l.length ≤ 63
  valid : isValidSegment (strOfBytes l) = true

/-- The length of the name without compression, with the zero byte at its end. -/
def wireLength (labels : List (List UInt8)) : ℕ := (labels.map fun l ↦ 1 + l.length).sum + 1

/-- The name is the Unicode form of each label with a dot behind it, or one dot. -/
def NameText (X : IdnaCrate) (labels : List (List UInt8)) (name : Str) : Prop :=
  ∃ texts, List.Forall₂ (fun l text ↦ X.toUnicode (strOfBytes l) = some text) labels texts ∧
    name = if labels = [] then ['.'] else texts.flatMap (· ++ ['.'])

@[simp] theorem wireLength_cons (l : List UInt8) (labels : List (List UInt8)) :
    wireLength (l :: labels) = 1 + l.length + wireLength labels := by
  simp [wireLength, Nat.add_assoc]

/-! ## Steps of the loop -/

theorem toNat_shiftRight_six (b : UInt8) : (b >>> 6).toNat = b.toNat / 64 := by
  rw [UInt8.toNat_shiftRight]
  simp [Nat.shiftRight_eq_div_pow]

theorem pointerOffset_eq (hi lo : UInt8) :
    pointerOffset hi lo = hi.toNat % 64 * 256 + lo.toNat := by
  have hlo : lo.toNat < 2 ^ 8 := lo.toNat_lt
  have hand : (hi &&& 0b00111111).toNat = hi.toNat % 64 := by
    rw [UInt8.toNat_and]
    exact Nat.and_two_pow_sub_one_eq_mod hi.toNat 6
  rw [pointerOffset, ← Nat.shiftLeft_add_eq_or_of_lt hlo, hand, Nat.shiftLeft_eq]

/-- Where the loop follows a pointer, the format has one. -/
theorem NameAt.of_pointerAt {data : List UInt8} {start p o stop : ℕ} {labels : List (List UInt8)}
    (h : pointerAt data start p = some o) (hrest : NameAt data o labels stop) :
    NameAt data p labels (p + 2) := by
  rw [pointerAt] at h
  rcases hhi : data[p]? with _ | hi
  · simp [hhi] at h
  rcases hlo : data[p + 1]? with _ | lo
  · simp [hhi, hlo] at h
  rw [hhi, hlo] at h
  simp only [Option.ite_none_right_eq_some, Option.some_inj] at h
  obtain ⟨⟨hbits, -⟩, rfl⟩ := h
  rw [pointerOffset_eq] at hrest
  refine .pointer hhi hlo ?_ hrest
  rw [← toNat_shiftRight_six, hbits]
  rfl

/-- A label that the loop takes. -/
theorem labelAt_eq_some {X : IdnaCrate} {data : List UInt8} {p n : ℕ} {text : Str}
    (h : labelAt X data p = some (n, text)) :
    ∃ len : UInt8, data[p]? = some len ∧ n = len.toNat ∧ len ≠ 0 ∧ len.toNat / 64 = 0b00 ∧
      p + 1 + n ≤ data.length ∧ ReadableLabel ((data.drop (p + 1)).take n) ∧
      X.toUnicode (strOfBytes ((data.drop (p + 1)).take n)) = some text := by
  rcases hbyte : data[p]? with _ | len
  · simp [labelAt, hbyte] at h
  obtain ⟨rfl, hpos, hfits⟩ := labelAt_length hbyte h
  rw [labelAt, hbyte] at h
  simp only [Option.ite_none_right_eq_some, Option.map_eq_some_iff, Prod.mk.injEq, true_and,
    exists_eq_right] at h
  obtain ⟨⟨hne, hbits, -⟩, htext⟩ := h
  rw [segmentText, Option.ite_none_right_eq_some] at htext
  obtain ⟨⟨hascii, hvalid⟩, htext⟩ := htext
  have hbits : len.toNat / 64 = 0b00 := by
    rw [← toNat_shiftRight_six, hbits]
    rfl
  have hlen : ((data.drop (p + 1)).take len.toNat).length = len.toNat := by
    rw [List.length_take, List.length_drop]
    omega
  refine ⟨len, rfl, rfl, hne, hbits, hfits, ⟨hascii, ?_, ?_, hvalid⟩, htext⟩
  · omega
  · omega

/-! ## The loop -/

/-- What the rest of the loop has read when it breaks in the state `s'`. -/
structure ReadsRest (X : IdnaCrate) (s s' : NameState) (labels : List (List UInt8)) (stop : ℕ) :
    Prop where
  name : NameAt s.reader.data s.reader.pos labels stop
  data_eq : s'.reader.data = s.reader.data
  /-- The first pointer decides where to go on, and it may have been before. -/
  pos : s'.restore.getD s'.reader.pos = s.restore.getD stop
  readable : ∀ l ∈ labels, ReadableLabel l
  length_le : s.totalRead + wireLength labels ≤ nameLimit
  text : ∃ texts, List.Forall₂ (fun l text ↦ X.toUnicode (strOfBytes l) = some text) labels texts ∧
    s'.res = s.res ++ texts.flatMap (· ++ ['.'])

section Loop

variable {X : IdnaCrate} {s s' : NameState} {labels : List (List UInt8)} {stop : ℕ}

theorem ReadsRest.of_zero (hbyte : s.reader.data[s.reader.pos]? = some 0)
    (hle : s.totalRead + 1 ≤ nameLimit) :
    ReadsRest X s s.stop [] (s.reader.pos + 1) where
  name := .zero hbyte
  data_eq := rfl
  pos := rfl
  readable l hl := absurd hl (by simp)
  length_le := hle
  text := ⟨[], .nil, by simp [NameState.stop]⟩

theorem ReadsRest.of_jump {start o : ℕ}
    (ho : pointerAt s.reader.data start s.reader.pos = some o)
    (h : ReadsRest X (s.jump o) s' labels stop) :
    ReadsRest X s s' labels (s.reader.pos + 2) where
  name := .of_pointerAt ho h.name
  data_eq := h.data_eq
  pos := by
    rw [h.pos, NameState.jump]
    rcases s.restore with _ | q <;> rfl
  readable := h.readable
  length_le := h.length_le
  text := h.text

theorem ReadsRest.of_take {n : ℕ} {text : Str}
    (hl : labelAt X s.reader.data s.reader.pos = some (n, text))
    (h : ReadsRest X (s.take n text) s' labels stop) :
    ReadsRest X s s' ((s.reader.data.drop (s.reader.pos + 1)).take n :: labels) stop := by
  obtain ⟨len, hbyte, rfl, hne, hbits, hfits, hreadable, htext⟩ := labelAt_eq_some hl
  have hlen : ((s.reader.data.drop (s.reader.pos + 1)).take len.toNat).length = len.toNat := by
    rw [List.length_take, List.length_drop]
    omega
  obtain ⟨texts, htexts, hres⟩ := h.text
  refine ⟨.label hbyte hbits hne hfits h.name, h.data_eq, h.pos, ?_, ?_,
    text :: texts, .cons htext htexts, ?_⟩
  · exact List.forall_mem_cons.mpr ⟨hreadable, h.readable⟩
  · have hle : s.totalRead + (1 + len.toNat) + wireLength labels ≤ nameLimit := h.length_le
    rw [wireLength_cons, hlen]
    omega
  · rw [hres, NameState.take]
    simp

/-- A loop that breaks has read the name of the format. The induction is on the passes of the
loop. -/
theorem exists_readsRest {start : ℕ} : ∀ {n : ℕ} {s : NameState},
    loop (readNameBody X start) n s = .ok s' → ∃ labels stop, ReadsRest X s s' labels stop := by
  intro n
  induction n with
  | zero =>
    intro s h
    exact absurd h (by simp)
  | succ n ih =>
    intro s h
    rcases readNameBody_cases X start s with ⟨o, ho, hbody⟩ | ⟨l, text, hl, -, hbody⟩ |
      ⟨-, -, ⟨hzero, hle, hbody⟩ | ⟨e, hbody⟩⟩
    · rw [loop_of_continue hbody] at h
      obtain ⟨labels, stop, hrest⟩ := ih h
      exact ⟨labels, _, hrest.of_jump ho⟩
    · rw [loop_of_continue hbody] at h
      obtain ⟨labels, stop, hrest⟩ := ih h
      exact ⟨_, stop, hrest.of_take hl⟩
    · rw [loop, hbody, ok_bind, ok.injEq] at h
      subst h
      exact ⟨[], _, .of_zero hzero hle⟩
    · rw [loop, hbody, err_bind] at h
      exact absurd h (by simp)

end Loop

/-! ## Reading a name -/

/-- `read_name` is its loop, with the cursor put back behind the first pointer. -/
theorem readName_eq_ok_iff {X : IdnaCrate} {fuel : ℕ} {r r' : MsgReader} {name : Str} :
    r.readName X fuel = .ok (name, r') ↔
      ∃ s, loop (readNameBody X r.pos) fuel ⟨r, none, [], 0⟩ = .ok s ∧
        name = (if s.res.isEmpty then ['.'] else s.res) ∧
        r' = s.reader.setPosition (s.restore.getD s.reader.pos) := by
  rw [readName, bind_eq_ok]
  refine exists_congr fun s ↦ and_congr_right fun _ ↦ ?_
  rcases s.restore with _ | q
  · simp only [pure_eq, ok.injEq, Prod.mk.injEq, Option.getD_none]
    exact and_congr eq_comm eq_comm
  · simp only [pure_eq, ok.injEq, Prod.mk.injEq, Option.getD_some]
    exact and_congr eq_comm eq_comm

/-- **Names are read as they are written.** A name that `read_name` returns is the one that the
format gives at the cursor. -/
theorem readName_nameAt {X : IdnaCrate} {fuel : ℕ} {data : List UInt8} {pos : ℕ} {name : Str}
    {r' : MsgReader} (h : readName X fuel ⟨data, pos⟩ = .ok (name, r')) :
    ∃ labels stop, NameAt data pos labels stop ∧ NameText X labels name ∧
      (∀ l ∈ labels, ReadableLabel l) ∧ wireLength labels ≤ 255 ∧ r' = ⟨data, stop⟩ := by
  obtain ⟨s, hloop, rfl, rfl⟩ := readName_eq_ok_iff.mp h
  obtain ⟨labels, stop, hrest⟩ := exists_readsRest hloop
  obtain ⟨texts, htexts, hres⟩ := hrest.text
  have hle : wireLength labels ≤ nameLimit := by simpa using hrest.length_le
  refine ⟨labels, stop, hrest.name, ⟨texts, htexts, ?_⟩, hrest.readable, hle, ?_⟩
  · rw [hres]
    rcases htexts with _ | ⟨-, -⟩ <;> simp
  · rw [hrest.pos, setPosition, hrest.data_eq]
    rfl

/-- A name that ends with a pointer to the root of the name before it. -/
theorem readName_nameAt_pointer :
    ∃ labels stop, NameAt [1, 97, 0, 1, 98, 0xc0, 0] 3 labels stop ∧
      NameText ⟨some, some⟩ labels "b.a.".toList ∧ (∀ l ∈ labels, ReadableLabel l) ∧
      wireLength labels ≤ 255 ∧
      (⟨[1, 97, 0, 1, 98, 0xc0, 0], 7⟩ : MsgReader) = ⟨[1, 97, 0, 1, 98, 0xc0, 0], stop⟩ := by
  have h : readName ⟨some, some⟩ 4 ⟨[1, 97, 0, 1, 98, 0xc0, 0], 3⟩ =
      .ok ("b.a.".toList, ⟨[1, 97, 0, 1, 98, 0xc0, 0], 7⟩) := by decide
  exact readName_nameAt h

end UsnetSockets
