import Mathlib.Logic.Relation
import UsnetSockets.Resolve.Message

/-!
# When reading a name ends

`read_name` follows a compression pointer whenever it points before the start of the name being
read, wherever the cursor is by then. That is not enough to make the loop end: the bytes before the
name may hold a pointer to itself, or several that point at each other. This file says exactly when
the loop ends.

The places the loop can be at, as a graph on the bytes of the message, are given by `NameStep`: a
node is a position with the length read so far, and an edge skips a label or follows a pointer.
Labels add to the length, which is limited, so only pointers can go round for ever. The loop fails
to end exactly when the walk from the start of the name reaches a position on a cycle of pointers.
-/

namespace UsnetSockets

open MsgReader

/-! ## The graph of a name -/

/-- The offset a compression pointer consists of. -/
def pointerOffset (len lo : UInt8) : ℕ := (len &&& 0b00111111).toNat <<< 8 ||| lo.toNat

/-- The target of the compression pointer at `p`, if there is one and it points before `start`. -/
def pointerAt (data : List UInt8) (start p : ℕ) : Option ℕ :=
  match data[p]?, data[p + 1]? with
  | some len, some lo =>
    if len >>> 6 = 0b11 ∧ pointerOffset len lo < start then some (pointerOffset len lo) else none
  | _, _ => none

/-- The text of a label, if its bytes make one. -/
def segmentText (X : IdnaCrate) (seg : List UInt8) : Option Str :=
  if isAsciiBytes seg ∧ isValidSegment (strOfBytes seg) then X.toUnicode (strOfBytes seg) else none

/-- The length and the text of the label at `p`, if there is one. -/
def labelAt (X : IdnaCrate) (data : List UInt8) (p : ℕ) : Option (ℕ × Str) :=
  match data[p]? with
  | some len =>
    if len ≠ 0 ∧ len >>> 6 = 0b00 ∧ p + 1 + len.toNat ≤ data.length then
      (segmentText X ((data.drop (p + 1)).take len.toNat)).map fun label ↦ (len.toNat, label)
    else none
  | none => none

/-- One step of following a name from a position with some length read so far. -/
inductive NameStep (X : IdnaCrate) (data : List UInt8) (start : ℕ) : ℕ × ℕ → ℕ × ℕ → Prop
  | pointer {p t o : ℕ} (h : pointerAt data start p = some o) : NameStep X data start (p, t) (o, t)
  | label {p t l : ℕ} {text : Str} (h : labelAt X data p = some (l, text))
      (ht : t + 1 + l ≤ nameLimit) :
      NameStep X data start (p, t) (p + 1 + l, t + (1 + l))

/-- Following the name at `start` reaches a compression pointer on a cycle of pointers. -/
def RunsIntoPointerCycle (X : IdnaCrate) (data : List UInt8) (start : ℕ) : Prop :=
  ∃ p t, Relation.ReflTransGen (NameStep X data start) (start, 0) (p, t) ∧
    Orbit.OnCycle (pointerAt data start) p

theorem pointerAt_lt {data : List UInt8} {start p o : ℕ} (h : pointerAt data start p = some o) :
    o < start := by
  rw [pointerAt] at h
  split at h
  · split at h
    · rename_i hc
      rw [Option.some_inj] at h
      rw [← h]
      exact hc.2
    · exact absurd h (by simp)
  · exact absurd h (by simp)

/-! ## What one pass of the loop can do -/

private theorem shift_six_lt {len : UInt8} (h : len >>> 6 = 0b00) : len.toNat < 64 := by
  have h' := congrArg UInt8.toNat h
  rw [UInt8.toNat_shiftRight] at h'
  have : len.toNat / 2 ^ 6 = 0 := by simpa [Nat.shiftRight_eq_div_pow] using h'
  omega

/-- Reading a label is looking up its text. -/
theorem readSegment_of_le {X : IdnaCrate} {r : MsgReader} {buf : Str} {len : ℕ} (hlen : len < 64)
    (h : r.pos + len ≤ r.data.length) :
    r.readSegment X buf len = match segmentText X ((r.data.drop r.pos).take len) with
      | some label => .ok (buf ++ label ++ ['.'], r.setPosition (r.pos + len))
      | none => .err .invalidName := by
  rw [readSegment, if_neg (by omega), read_of_le h, Outcome.ok_bind, segmentText]
  by_cases ha : isAsciiBytes ((r.data.drop r.pos).take len) = true
  · by_cases hv : isValidSegment (strOfBytes ((r.data.drop r.pos).take len)) = true
    · rw [if_pos ⟨ha, hv⟩]
      simp only [ha, hv, Bool.not_true, Bool.false_eq_true, if_false]
      cases X.toUnicode (strOfBytes ((r.data.drop r.pos).take len)) <;> rfl
    · simp [ha, hv]
  · simp [ha]

theorem readSegment_of_lt {X : IdnaCrate} {r : MsgReader} {buf : Str} {len : ℕ} (hpos : 0 < len)
    (hlen : len < 64) (h : r.data.length < r.pos + len) :
    r.readSegment X buf len = .err .shortMessage := by
  rw [readSegment, if_neg (by omega), read_of_lt hpos h, Outcome.err_bind]

/-- The state after a pointer. -/
def MsgReader.NameState.jump (s : NameState) (o : ℕ) : NameState :=
  { s with
    reader := s.reader.setPosition o
    restore := if s.restore.isNone then some (s.reader.pos + 2) else s.restore }

/-- The state after a label. -/
def MsgReader.NameState.take (s : NameState) (l : ℕ) (label : Str) : NameState :=
  { s with
    reader := s.reader.setPosition (s.reader.pos + 1 + l)
    res := s.res ++ label ++ ['.']
    totalRead := s.totalRead + (1 + l) }

/-- The state in which the loop breaks. -/
def MsgReader.NameState.stop (s : NameState) : NameState :=
  { s with reader := s.reader.setPosition (s.reader.pos + 1) }

section Body

variable (X : IdnaCrate) (start : ℕ) (s : NameState) {len : UInt8}

private theorem body_of_none (hb : s.reader.data[s.reader.pos]? = none) :
    readNameBody X start s = .err .shortMessage := by
  rw [readNameBody, readByte_of_getElem?_none hb, Outcome.err_bind]

private theorem body_of_zero (hb : s.reader.data[s.reader.pos]? = some 0) :
    readNameBody X start s =
      if s.totalRead + 1 > nameLimit then .err .invalidName else .ok (.inr s.stop) := by
  rw [readNameBody, readByte_of_getElem? hb, Outcome.ok_bind]
  simp only [if_true]
  rfl

private theorem body_of_pointer (hb : s.reader.data[s.reader.pos]? = some len)
    (h : len >>> 6 = 0b11) :
    readNameBody X start s = match s.reader.data[s.reader.pos + 1]? with
      | none => .err .shortMessage
      | some lo => if pointerOffset len lo ≥ start then .err .invalidName
          else .ok (.inl (s.jump (pointerOffset len lo))) := by
  have h0 : len ≠ 0 := by
    rintro rfl
    exact absurd h (by decide)
  rw [readNameBody, readByte_of_getElem? hb, Outcome.ok_bind]
  simp only [h0, h, if_false, if_true]
  cases hlo : s.reader.data[s.reader.pos + 1]? with
  | none =>
    rw [readByte_of_getElem?_none (r := s.reader.setPosition (s.reader.pos + 1)) hlo,
      Outcome.err_bind]
  | some lo =>
    rw [readByte_of_getElem? (r := s.reader.setPosition (s.reader.pos + 1)) hlo, Outcome.ok_bind]
    rfl

private theorem body_of_label (hb : s.reader.data[s.reader.pos]? = some len) (h0 : len ≠ 0)
    (h : len >>> 6 = 0b00) :
    readNameBody X start s =
      if s.totalRead + 1 + len.toNat > nameLimit then .err .invalidName
      else match labelAt X s.reader.data s.reader.pos with
        | some (l, label) => .ok (.inl (s.take l label))
        | none => .err (if s.reader.pos + 1 + len.toNat ≤ s.reader.data.length
            then .invalidName else .shortMessage) := by
  have hlen := shift_six_lt h
  have hpos : 0 < len.toNat := Nat.pos_of_ne_zero fun hc ↦ h0 (UInt8.toNat_inj.mp hc)
  have h3 : (0b00 : UInt8) ≠ 0b11 := by decide
  rw [readNameBody, readByte_of_getElem? hb, Outcome.ok_bind]
  simp only [h0, h, h3, if_false, if_true]
  by_cases ht : s.totalRead + 1 + len.toNat > nameLimit
  · rw [if_pos ht, if_pos ht]
  · rw [if_neg ht, if_neg ht]
    by_cases hle : s.reader.pos + 1 + len.toNat ≤ s.reader.data.length
    · rw [readSegment_of_le (r := s.reader.setPosition (s.reader.pos + 1)) hlen hle]
      simp only [labelAt, hb, h0, h, hle, ne_eq, not_false_eq_true, and_self, if_true, setPosition]
      cases segmentText X ((s.reader.data.drop (s.reader.pos + 1)).take len.toNat) <;> rfl
    · rw [readSegment_of_lt (r := s.reader.setPosition (s.reader.pos + 1)) hpos hlen
        (by simp only [setPosition]; omega)]
      simp [labelAt, hb, hle]

private theorem body_of_reserved (hb : s.reader.data[s.reader.pos]? = some len)
    (h3 : len >>> 6 ≠ 0b11) (h0 : len >>> 6 ≠ 0b00) :
    readNameBody X start s = .err .invalidMessage := by
  have hne : len ≠ 0 := by
    rintro rfl
    exact absurd rfl h0
  rw [readNameBody, readByte_of_getElem? hb, Outcome.ok_bind]
  simp [hne, h3, h0]

end Body

theorem pointerAt_eq_none {data : List UInt8} {start p : ℕ} {len : UInt8}
    (hb : data[p]? = some len) (h : len >>> 6 ≠ 0b11) : pointerAt data start p = none := by
  rw [pointerAt, hb]
  cases data[p + 1]? with
  | none => rfl
  | some lo => exact if_neg fun hc ↦ h hc.1

theorem labelAt_eq_none {X : IdnaCrate} {data : List UInt8} {p : ℕ} {len : UInt8}
    (hb : data[p]? = some len) (h : len = 0 ∨ len >>> 6 ≠ 0b00) : labelAt X data p = none := by
  rw [labelAt, hb]
  refine if_neg ?_
  rintro ⟨hne, h00, -⟩
  rcases h with h | h
  · exact hne h
  · exact h h00

/-- A label is as long as the byte in front of it says. -/
theorem labelAt_length {X : IdnaCrate} {data : List UInt8} {p l : ℕ} {text : Str} {len : UInt8}
    (hb : data[p]? = some len) (h : labelAt X data p = some (l, text)) :
    l = len.toNat ∧ 0 < l ∧ p + 1 + l ≤ data.length := by
  rw [labelAt, hb] at h
  simp only at h
  split at h
  · rename_i hc
    rw [Option.map_eq_some_iff] at h
    obtain ⟨label, -, hl⟩ := h
    rw [Prod.mk.injEq] at hl
    obtain ⟨rfl, -⟩ := hl
    exact ⟨rfl, Nat.pos_of_ne_zero fun h0 ↦ hc.1 (UInt8.toNat_inj.mp h0), hc.2.2⟩
  · exact absurd h (by simp)

/-- **One pass of the loop.** It follows a pointer of the graph, takes a label of the graph, breaks
at a zero byte, or returns an error; the last only when the graph has no edge to follow. -/
theorem readNameBody_cases (X : IdnaCrate) (start : ℕ) (s : NameState) :
    (∃ o, pointerAt s.reader.data start s.reader.pos = some o ∧
      readNameBody X start s = .ok (.inl (s.jump o))) ∨
    (∃ l label, labelAt X s.reader.data s.reader.pos = some (l, label) ∧
      s.totalRead + 1 + l ≤ nameLimit ∧
      readNameBody X start s = .ok (.inl (s.take l label))) ∨
    (pointerAt s.reader.data start s.reader.pos = none ∧
      (∀ l label, labelAt X s.reader.data s.reader.pos = some (l, label) →
        nameLimit < s.totalRead + 1 + l) ∧
      ((s.reader.data[s.reader.pos]? = some 0 ∧ s.totalRead + 1 ≤ nameLimit ∧
        readNameBody X start s = .ok (.inr s.stop)) ∨
       ∃ e, readNameBody X start s = .err e)) := by
  -- by the byte at the cursor: none, zero, and the three values of its two highest bits
  cases hb : s.reader.data[s.reader.pos]? with
  | none =>
    exact Or.inr (Or.inr ⟨by simp [pointerAt, hb], by simp [labelAt, hb],
      Or.inr ⟨.shortMessage, body_of_none X start s hb⟩⟩)
  | some len =>
    by_cases h0 : len = 0
    · subst h0
      refine Or.inr (Or.inr ⟨pointerAt_eq_none hb (by decide), ?_, ?_⟩)
      · simp [labelAt_eq_none hb (Or.inl rfl)]
      · rw [body_of_zero X start s hb]
        by_cases ht : s.totalRead + 1 > nameLimit
        · exact Or.inr ⟨.invalidName, if_pos ht⟩
        · exact Or.inl ⟨rfl, by omega, if_neg ht⟩
    by_cases h3 : len >>> 6 = 0b11
    · have hnone : labelAt X s.reader.data s.reader.pos = none :=
        labelAt_eq_none hb (Or.inr (by rw [h3]; decide))
      rw [body_of_pointer X start s hb h3]
      cases hlo : s.reader.data[s.reader.pos + 1]? with
      | none =>
        exact Or.inr (Or.inr ⟨by simp [pointerAt, hlo], by simp [hnone], Or.inr ⟨_, rfl⟩⟩)
      | some lo =>
        by_cases ho : pointerOffset len lo ≥ start
        · refine Or.inr (Or.inr ⟨?_, by simp [hnone], Or.inr ⟨.invalidName, if_pos ho⟩⟩)
          simp only [pointerAt, hb, hlo]
          exact if_neg fun hc ↦ absurd hc.2 (by omega)
        · refine Or.inl ⟨pointerOffset len lo, ?_, if_neg ho⟩
          simp only [pointerAt, hb, hlo]
          exact if_pos ⟨h3, by omega⟩
    · have hnone : pointerAt s.reader.data start s.reader.pos = none := pointerAt_eq_none hb h3
      by_cases h00 : len >>> 6 = 0b00
      · rw [body_of_label X start s hb h0 h00]
        by_cases ht : s.totalRead + 1 + len.toNat > nameLimit
        · refine Or.inr (Or.inr ⟨hnone, fun l label hl ↦ ?_, Or.inr ⟨.invalidName, if_pos ht⟩⟩)
          rw [(labelAt_length hb hl).1]
          exact ht
        · rw [if_neg ht]
          cases hl : labelAt X s.reader.data s.reader.pos with
          | none => exact Or.inr (Or.inr ⟨hnone, by simp, Or.inr ⟨_, rfl⟩⟩)
          | some x =>
            obtain ⟨l, label⟩ := x
            refine Or.inr (Or.inl ⟨l, label, rfl, ?_, rfl⟩)
            rw [(labelAt_length hb hl).1]
            omega
      · refine Or.inr (Or.inr ⟨hnone, ?_, Or.inr ⟨_, body_of_reserved X start s hb h3 h00⟩⟩)
        simp [labelAt_eq_none hb (Or.inr h00)]

/-! ## Termination -/

variable {X : IdnaCrate} {start : ℕ}

private theorem labelAt_eq_none_of_pointerAt {data : List UInt8} {p o : ℕ}
    (h : pointerAt data start p = some o) : labelAt X data p = none := by
  cases hb : data[p]? with
  | none => simp [pointerAt, hb] at h
  | some len =>
    by_cases h3 : len >>> 6 = 0b11
    · exact labelAt_eq_none hb (Or.inr (by rw [h3]; decide))
    · rw [pointerAt_eq_none hb h3] at h
      exact absurd h (by simp)

theorem readNameBody_of_pointerAt {s : NameState} {o : ℕ}
    (h : pointerAt s.reader.data start s.reader.pos = some o) :
    readNameBody X start s = .ok (.inl (s.jump o)) := by
  rcases readNameBody_cases X start s with ⟨o', ho', hbody⟩ | ⟨l, label, hl, -⟩ | ⟨hnone, -⟩
  · rw [h, Option.some_inj] at ho'
    rw [hbody, ho']
  · rw [labelAt_eq_none_of_pointerAt h] at hl
    exact absurd hl (by simp)
  · rw [h] at hnone
    exact absurd hnone (by simp)

theorem readNameBody_of_labelAt {s : NameState} {l : ℕ} {label : Str}
    (h : labelAt X s.reader.data s.reader.pos = some (l, label))
    (ht : s.totalRead + 1 + l ≤ nameLimit) :
    readNameBody X start s = .ok (.inl (s.take l label)) := by
  rcases readNameBody_cases X start s with ⟨o, ho, -⟩ | ⟨l', label', hl', -, hbody⟩ | ⟨-, hno, -⟩
  · exact absurd (h.symm.trans (labelAt_eq_none_of_pointerAt ho)) (by simp)
  · rw [h, Option.some_inj, Prod.mk.injEq] at hl'
    rw [hbody, hl'.1, hl'.2]
  · exact absurd (hno l label h) (by omega)

theorem readNameBody_of_zero {s : NameState} (h : s.reader.data[s.reader.pos]? = some 0)
    (ht : s.totalRead + 1 ≤ nameLimit) : readNameBody X start s = .ok (.inr s.stop) := by
  rw [body_of_zero X start s h, if_neg (by omega)]

/-- On a cycle of pointers the loop goes round for ever. -/
private theorem not_halts_of_onCycle {s : NameState}
    (h : Orbit.OnCycle (pointerAt s.reader.data start) s.reader.pos) :
    ¬Outcome.Halts (readNameBody X start) s := by
  refine Outcome.not_halts_of_invariant
    (I := fun s ↦ Orbit.OnCycle (pointerAt s.reader.data start) s.reader.pos) (fun s hs ↦ ?_) h
  obtain ⟨o, ho, hcycle⟩ := hs.next
  exact ⟨s.jump o, readNameBody_of_pointerAt ho, hcycle⟩

/-- An edge of the graph is a pass of the loop, from whatever the loop carries along. -/
private theorem exists_continue_of_nameStep {data : List UInt8} {x y : ℕ × ℕ}
    (h : NameStep X data start x y) {s : NameState} (hd : s.reader.data = data)
    (hx : (s.reader.pos, s.totalRead) = x) :
    ∃ s', readNameBody X start s = .ok (.inl s') ∧ s'.reader.data = data ∧
      (s'.reader.pos, s'.totalRead) = y := by
  subst hd hx
  generalize hp : s.reader.pos = p at h
  generalize ht : s.totalRead = t at h
  cases h with
  | pointer hptr =>
    rw [← hp] at hptr
    exact ⟨_, readNameBody_of_pointerAt hptr, rfl, by rw [← ht]; rfl⟩
  | @label _ _ l text hlab hle =>
    rw [← hp] at hlab
    rw [← ht] at hle
    rcases readNameBody_cases X start s with ⟨o, ho, -⟩ | ⟨l', text', hl', -, hbody⟩ | ⟨-, hlim, -⟩
    · rw [labelAt_eq_none_of_pointerAt ho] at hlab
      exact absurd hlab (by simp)
    · rw [hlab, Option.some_inj, Prod.mk.injEq] at hl'
      obtain ⟨rfl, rfl⟩ := hl'
      exact ⟨_, hbody, rfl, by rw [← hp, ← ht]; rfl⟩
    · exact absurd (hlim l text hlab) (by omega)

private theorem halts_iff_of_reaches {data : List UInt8} {x y : ℕ × ℕ}
    (h : Relation.ReflTransGen (NameStep X data start) x y) {s : NameState}
    (hd : s.reader.data = data) (hx : (s.reader.pos, s.totalRead) = x) :
    ∃ s', s'.reader.data = data ∧ (s'.reader.pos, s'.totalRead) = y ∧
      (Outcome.Halts (readNameBody X start) s ↔ Outcome.Halts (readNameBody X start) s') := by
  induction h with
  | refl => exact ⟨s, hd, hx, Iff.rfl⟩
  | tail _ hstep ih =>
    obtain ⟨s', hd', hx', hiff⟩ := ih
    obtain ⟨s'', hbody, hd'', hx''⟩ := exists_continue_of_nameStep hstep hd' hx'
    exact ⟨s'', hd'', hx'', hiff.trans (Outcome.halts_iff_of_continue hbody)⟩

private theorem reaches_of_iter {data : List UInt8} {t : ℕ} :
    ∀ {k p q : ℕ}, Orbit.iter (pointerAt data start) k p = some q →
      Relation.ReflTransGen (NameStep X data start) (p, t) (q, t) := by
  intro k
  induction k with
  | zero =>
    intro p q h
    rw [Orbit.iter_zero, Option.some_inj] at h
    rw [h]
  | succ k ih =>
    intro p q h
    rw [Orbit.iter_succ, Option.bind_eq_some_iff] at h
    obtain ⟨o, ho, hq⟩ := h
    exact (ih ho).tail (.pointer hq)

/-- Without a cycle ahead, the chain of pointers at the cursor stops. -/
private theorem exists_stop {data : List UInt8} {p t : ℕ}
    (hno : ∀ q u, Relation.ReflTransGen (NameStep X data start) (p, t) (q, u) →
      ¬Orbit.OnCycle (pointerAt data start) q) :
    ∃ k, Orbit.iter (pointerAt data start) k p = none := by
  rcases Orbit.exists_stop_or_cycle (Finset.range start)
      (fun a b hab ↦ Finset.mem_range.mpr (pointerAt_lt hab)) p with hstop | ⟨k, q, hq, hcycle⟩
  · exact hstop
  · exact absurd hcycle (hno q t (reaches_of_iter hq))

/-- A chain of pointers that stops leads to a label, or out of the loop. -/
private theorem halts_of_stop {data : List UInt8} : ∀ {k : ℕ} {s : NameState},
    s.reader.data = data → Orbit.iter (pointerAt data start) k s.reader.pos = none →
    (∀ s' : NameState, s'.reader.data = data → s.totalRead < s'.totalRead →
      s'.totalRead ≤ nameLimit →
      Relation.ReflTransGen (NameStep X data start) (s.reader.pos, s.totalRead)
        (s'.reader.pos, s'.totalRead) → Outcome.Halts (readNameBody X start) s') →
    Outcome.Halts (readNameBody X start) s := by
  intro k
  induction k with
  | zero =>
    intro s _ hstop _
    exact absurd hstop (by simp)
  | succ k ih =>
    intro s hd hstop hlabel
    subst hd
    rcases readNameBody_cases X start s with ⟨o, ho, hbody⟩ | ⟨l, text, hl, hle, hbody⟩ | hend
    · -- one pointer further the chain is shorter
      rw [Orbit.iter_succ' ho] at hstop
      rw [Outcome.halts_iff_of_continue hbody]
      refine ih rfl hstop fun s' hd' hlt hle' hreach ↦ hlabel s' hd' hlt hle' ?_
      exact Relation.ReflTransGen.head (.pointer ho) hreach
    · -- a label uses up some of the length
      rw [Outcome.halts_iff_of_continue hbody]
      refine hlabel _ rfl ?_ ?_ (Relation.ReflTransGen.single (.label hl hle))
      · simp only [NameState.take]
        omega
      · simp only [NameState.take]
        omega
    · refine Outcome.halts_of_not_continue ?_ ?_
      · rcases hend with ⟨-, -, ⟨-, -, hbody⟩ | ⟨e, hbody⟩⟩ <;> simp [hbody]
      · intro s'
        rcases hend with ⟨-, -, ⟨-, -, hbody⟩ | ⟨e, hbody⟩⟩ <;> simp [hbody]

/-- Without a cycle of pointers ahead the loop ends. The induction is on the length that is left for
labels; in between, every chain of pointers stops. -/
private theorem halts_of_no_cycle {data : List UInt8} : ∀ {n : ℕ} {s : NameState},
    s.reader.data = data → nameLimit - s.totalRead ≤ n →
    (∀ p t, Relation.ReflTransGen (NameStep X data start) (s.reader.pos, s.totalRead) (p, t) →
      ¬Orbit.OnCycle (pointerAt data start) p) →
    Outcome.Halts (readNameBody X start) s := by
  intro n
  induction n with
  | zero =>
    intro s hd hn hno
    obtain ⟨k, hk⟩ := exists_stop hno
    exact halts_of_stop hd hk fun s' _ hlt hle _ ↦ absurd hn (by omega)
  | succ n ih =>
    intro s hd hn hno
    obtain ⟨k, hk⟩ := exists_stop hno
    exact halts_of_stop hd hk fun s' hd' hlt hle hreach ↦
      ih hd' (by omega) fun p t h ↦ hno p t (hreach.trans h)

/-- The loop of `read_name`, started at `start`, ends exactly when the name does not run into a
cycle of pointers. -/
theorem halts_readNameBody_iff (data : List UInt8) :
    Outcome.Halts (readNameBody X start) ⟨⟨data, start⟩, none, [], 0⟩ ↔
      ¬RunsIntoPointerCycle X data start := by
  constructor
  · rintro hhalts ⟨p, t, hreach, hcycle⟩
    obtain ⟨s', hd, hx, hiff⟩ := halts_iff_of_reaches hreach
      (s := ⟨⟨data, start⟩, none, [], 0⟩) rfl rfl
    refine not_halts_of_onCycle (X := X) (s := s') ?_ (hiff.mp hhalts)
    rw [hd, (Prod.mk.inj hx).1]
    exact hcycle
  · intro hno
    exact halts_of_no_cycle (n := nameLimit) rfl (Nat.sub_le _ _)
      fun p t hreach hcycle ↦ hno ⟨p, t, hreach, hcycle⟩

theorem readName_eq_outOfFuel_iff {fuel : ℕ} {r : MsgReader} :
    r.readName X fuel = .outOfFuel ↔
      Outcome.loop (readNameBody X r.pos) fuel ⟨r, none, [], 0⟩ = .outOfFuel := by
  rw [readName, Outcome.bind_eq_outOfFuel]
  constructor
  · rintro (h | ⟨s, -, h⟩)
    · exact h
    · exact absurd h (by cases s.restore <;> simp)
  · exact Or.inl

/-- **When a name is read to its end.** -/
theorem exists_readName_iff (data : List UInt8) (pos : ℕ) :
    (∃ fuel, readName X fuel ⟨data, pos⟩ ≠ .outOfFuel) ↔ ¬RunsIntoPointerCycle X data pos := by
  rw [← halts_readNameBody_iff]
  exact exists_congr fun fuel ↦ not_congr readName_eq_outOfFuel_iff

end UsnetSockets
