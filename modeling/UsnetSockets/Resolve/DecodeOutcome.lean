import UsnetSockets.Resolve.ReaderLogic

/-!
# When decoding a message ends, and when it panics

`Message::decode` reads the header and then one item after the other. It gives no result exactly
when one of the items it gets to gives none, so both questions come down to the items: a name that
runs into a cycle of pointers is read for ever, and a resource record whose length reaches past the
end of the message panics. Nothing else goes wrong, on any bytes.
-/

namespace UsnetSockets

open MsgReader Outcome

variable {α β : Type}

/-! ## Reading items one after the other -/

/-- `k` items, read one after the other from `p`, end at `q`. -/
def ItemsEnd (f : ℕ → MsgReader → Decoded (α × MsgReader)) (data : List UInt8) :
    ℕ → ℕ → ℕ → Prop
  | 0, p, q => q = p
  | k + 1, p, q => ∃ x m, Returns (fun n ↦ f n ⟨data, p⟩) (x, ⟨data, m⟩) ∧ ItemsEnd f data k m q

theorem itemsEnd_add {f : ℕ → MsgReader → Decoded (α × MsgReader)} {data : List UInt8} :
    ∀ {a b p q : ℕ}, ItemsEnd f data (a + b) p q ↔
      ∃ m, ItemsEnd f data a p m ∧ ItemsEnd f data b m q := by
  intro a
  induction a with
  | zero => intro b p q; simp [ItemsEnd]
  | succ a ih =>
    intro b p q
    rw [show a + 1 + b = a + b + 1 from by omega]
    simp only [ItemsEnd, ih]
    constructor
    · rintro ⟨x, m, hx, m', ha, hb⟩
      exact ⟨m', ⟨x, m, hx, ha⟩, hb⟩
    · rintro ⟨m', ⟨x, m, hx, ha⟩, hb⟩
      exact ⟨x, m, hx, m', ha, hb⟩

section Items

variable {f : ℕ → MsgReader → Decoded (α × MsgReader)}

theorem steady_readItems (hf : Steady f) : ∀ k, Steady fun n r ↦ readItems (f n) k r
  | 0 => (reads_pure []).toSteady
  | k + 1 => hf.bind fun _ ↦ (steady_readItems hf k).bind fun _ ↦ (reads_pure _).toSteady

/-- Reading one item more is reading the item and then the rest. -/
private theorem readItems_succ (n k : ℕ) (r : MsgReader) :
    readItems (f n) (k + 1) r = f n r >>= fun x ↦
      readItems (f n) k x.2 >>= fun ys ↦ pure (x.1 :: ys.1, ys.2) := rfl

private theorem stable_rest (hf : Steady f) (k : ℕ) (x : α × MsgReader) :
    Stable fun n ↦ readItems (f n) k x.2 >>= fun ys ↦
      (pure (x.1 :: ys.1, ys.2) : Decoded (List α × MsgReader)) :=
  ((steady_readItems hf k).stable x.2).bind fun _ ↦ stable_const _

variable {data : List UInt8}

theorem returns_of_within (hf : Steady f) {p : ℕ} (hp : p ≤ data.length) {x : α} {r : MsgReader}
    (h : Returns (fun n ↦ f n ⟨data, p⟩) (x, r)) : r = ⟨data, r.pos⟩ ∧ r.pos ≤ data.length := by
  obtain ⟨hd, hw⟩ := hf.stays (r := ⟨data, p⟩) hp h
  obtain ⟨d, q⟩ := r
  obtain rfl : d = data := hd
  exact ⟨rfl, hw⟩

theorem ItemsEnd.le (hf : Steady f) : ∀ {k p q : ℕ}, ItemsEnd f data k p q → p ≤ data.length →
    q ≤ data.length := by
  intro k
  induction k with
  | zero =>
    rintro p q rfl hp
    exact hp
  | succ k ih =>
    rintro p q ⟨x, m, hx, h⟩ hp
    exact ih h (returns_of_within hf hp hx).2

/-- The items can be read exactly when each ends where the next begins. -/
theorem returns_readItems_iff (hf : Steady f) : ∀ {k p q : ℕ}, p ≤ data.length →
    ((∃ xs, Returns (fun n ↦ readItems (f n) k ⟨data, p⟩) (xs, ⟨data, q⟩)) ↔
      ItemsEnd f data k p q) := by
  intro k
  induction k with
  | zero =>
    intro p q _
    simp only [readItems, pure_eq, returns_const_iff, ok.injEq, Prod.mk.injEq, ItemsEnd,
      MsgReader.mk.injEq, true_and, exists_eq_left']
    exact eq_comm
  | succ k ih =>
    intro p q hp
    have hiff : ∀ xs, Returns (fun n ↦ readItems (f n) (k + 1) ⟨data, p⟩) (xs, ⟨data, q⟩) ↔
        ∃ x, Returns (fun n ↦ f n ⟨data, p⟩) x ∧
          ∃ ys, Returns (fun n ↦ readItems (f n) k x.2) ys ∧
            (x.1 :: ys.1, ys.2) = (xs, ⟨data, q⟩) := by
      intro xs
      simp only [readItems_succ]
      rw [returns_bind_iff (hf.stable _) (stable_rest hf k)]
      refine exists_congr fun x ↦ and_congr_right fun _ ↦ ?_
      exact returns_map_iff
    simp only [hiff, ItemsEnd]
    constructor
    · rintro ⟨xs, ⟨x, r⟩, hx, ⟨ys, r'⟩, hys, he⟩
      obtain ⟨-, rfl⟩ := Prod.mk.inj he
      obtain ⟨hr, hw⟩ := returns_of_within hf hp hx
      rw [hr] at hx hys
      exact ⟨x, r.pos, hx, (ih hw).mp ⟨ys, hys⟩⟩
    · rintro ⟨x, m, hx, hrest⟩
      obtain ⟨-, hw⟩ := returns_of_within hf hp hx
      obtain ⟨ys, hys⟩ := (ih hw).mpr hrest
      exact ⟨x :: ys, (x, ⟨data, m⟩), hx, (ys, ⟨data, q⟩), hys, rfl⟩

/-- Reading items fails exactly when one of the items it gets to fails. -/
theorem fails_readItems_iff (F : Failure) (hf : Steady f) : ∀ {k p : ℕ}, p ≤ data.length →
    (Fails F (fun n ↦ readItems (f n) k ⟨data, p⟩) ↔
      ∃ j < k, ∃ q, ItemsEnd f data j p q ∧ Fails F fun n ↦ f n ⟨data, q⟩) := by
  intro k
  induction k with
  | zero =>
    intro p _
    simp only [readItems, pure_eq, not_fails_ok, Nat.not_lt_zero, false_and, exists_false]
  | succ k ih =>
    intro p hp
    simp only [readItems_succ]
    rw [fails_bind_iff F (hf.stable _) (stable_rest hf k)]
    simp only [pure_eq, fails_map_iff]
    -- the item that fails is the first, or one of the rest with its number shifted by one
    constructor
    · rintro (h | ⟨⟨x, r⟩, hx, h⟩)
      · exact ⟨0, by omega, p, rfl, h⟩
      · obtain ⟨hr, hw⟩ := returns_of_within hf hp hx
        rw [hr] at hx h
        obtain ⟨j, hj, q, hq, hfail⟩ := (ih hw).mp h
        exact ⟨j + 1, by omega, q, ⟨x, r.pos, hx, hq⟩, hfail⟩
    · rintro ⟨j, hj, q, hq, hfail⟩
      cases j with
      | zero =>
        obtain rfl : q = p := hq
        exact Or.inl hfail
      | succ j =>
        obtain ⟨x, m, hx, hq⟩ := hq
        obtain ⟨-, hw⟩ := returns_of_within hf hp hx
        exact Or.inr ⟨_, hx, (ih hw).mpr ⟨j, by omega, q, hq, hfail⟩⟩

/-- A program that reads on from a position of the message fails exactly when the position
satisfies `P`. -/
structure FailsWhen (F : Failure) (data : List UInt8) (g : ℕ → MsgReader → Decoded β)
    (P : ℕ → Prop) : Prop where
  stable : ∀ r, Stable fun n ↦ g n r
  fails_iff : ∀ q ≤ data.length, (Fails F (fun n ↦ g n ⟨data, q⟩) ↔ P q)

/-- Reading items and going on fails at one of the items, or behind the last of them. -/
theorem failsWhen_readItems_bind {F : Failure} (hf : Steady f) {k : ℕ}
    {g : ℕ → List α → MsgReader → Decoded β} {P : ℕ → Prop}
    (hg : ∀ xs, FailsWhen F data (fun n r ↦ g n xs r) P) :
    FailsWhen F data (fun n r ↦ readItems (f n) k r >>= fun x ↦ g n x.1 x.2) fun p ↦
      (∃ j < k, ∃ q, ItemsEnd f data j p q ∧ Fails F fun n ↦ f n ⟨data, q⟩) ∨
      ∃ q, ItemsEnd f data k p q ∧ P q := by
  have hitems := steady_readItems hf k
  refine ⟨fun r ↦ (hitems.stable r).bind fun x ↦ (hg x.1).stable x.2, fun p hp ↦ ?_⟩
  rw [fails_bind_iff F (hitems.stable _) fun x ↦ (hg x.1).stable x.2, fails_readItems_iff F hf hp]
  refine or_congr_right ⟨?_, ?_⟩
  · rintro ⟨⟨xs, r⟩, hx, h⟩
    obtain ⟨hr, hw⟩ := returns_of_within hitems hp hx
    rw [hr] at hx h
    exact ⟨r.pos, (returns_readItems_iff hf hp).mp ⟨xs, hx⟩, ((hg xs).fails_iff _ hw).mp h⟩
  · rintro ⟨q, hq, h⟩
    obtain ⟨xs, hx⟩ := (returns_readItems_iff hf hp).mpr hq
    obtain ⟨-, hw⟩ := returns_of_within hitems hp hx
    exact ⟨(xs, ⟨data, q⟩), hx, ((hg xs).fails_iff q hw).mpr h⟩

end Items

/-! ## Questions and resource records -/

variable (X : IdnaCrate) {data : List UInt8}

/-- Reading a name goes on for ever exactly on a cycle of pointers. -/
theorem readName_diverges_iff {p : ℕ} :
    Fails .diverges (fun n ↦ readName X n ⟨data, p⟩) ↔ RunsIntoPointerCycle X data p := by
  rw [← not_iff_not, ← exists_readName_iff]
  exact not_forall

theorem be16_take {n i : ℕ} (h : i + 2 ≤ n) (buf : List UInt8) :
    be16 (buf.take n) i = be16 buf i := by
  simp only [be16, List.getD_eq_getElem?_getD]
  rw [List.getElem?_take_of_lt (by omega), List.getElem?_take_of_lt (by omega)]

theorem be16_drop (n i : ℕ) (buf : List UInt8) : be16 (buf.drop n) i = be16 buf (n + i) := by
  simp only [be16, List.getD_eq_getElem?_getD, List.getElem?_drop, Nat.add_assoc]

theorem read_ne_outOfFuel (r : MsgReader) (n : ℕ) : r.read n ≠ .outOfFuel := by
  rw [MsgReader.read]
  split <;> simp

theorem readQuestion_diverges_iff {p : ℕ} :
    Fails .diverges (fun n ↦ readQuestion X n ⟨data, p⟩) ↔ RunsIntoPointerCycle X data p := by
  rw [← readName_diverges_iff]
  refine diverges_bind_iff fun n x ↦ bind_ne_outOfFuel (read_ne_outOfFuel _ _) fun y _ ↦ ?_
  simp

theorem readResource_diverges_iff {p : ℕ} :
    Fails .diverges (fun n ↦ readResource X n ⟨data, p⟩) ↔ RunsIntoPointerCycle X data p := by
  rw [← readName_diverges_iff]
  refine diverges_bind_iff fun n x ↦ bind_ne_outOfFuel (read_ne_outOfFuel _ _) fun y _ ↦ ?_
  dsimp only
  split <;> simp

/-- The rdata of the resource record at `p`, of the length that the record declares, lies inside
the message. It is asked for only where the name of the record and the ten bytes behind it can be
read; otherwise decoding stops with an error there. -/
def RdataFits (data : List UInt8) (p : ℕ) : Prop :=
  ∀ name q, Returns (fun n ↦ readName X n ⟨data, p⟩) (name, ⟨data, q⟩) → q + 10 ≤ data.length →
    q + 10 + (be16 data (q + 8)).toNat ≤ data.length

/-- The resource that `read_resource` builds from a name ending at `q`. -/
def resourceAt (data : List UInt8) (name : Str) (q : ℕ) : Resource where
  name := name
  rType := .fromU16 (be16 data q)
  rClass := .fromU16 (be16 data (q + 2))
  ttl := be32 ((data.drop q).take 10) 4
  data := data.take (q + 10 + (be16 data (q + 8)).toNat)
  offset := q + 10

/-- What `read_resource` does once it has read the name. -/
theorem readResource_of_readName {n p q : ℕ} {name : Str}
    (h : readName X n ⟨data, p⟩ = .ok (name, ⟨data, q⟩)) :
    readResource X n ⟨data, p⟩ =
      if q + 10 ≤ data.length then
        if q + 10 + (be16 data (q + 8)).toNat ≤ data.length then
          .ok (resourceAt data name q, ⟨data, q + 10 + (be16 data (q + 8)).toNat⟩)
        else .panic
      else .err .shortMessage := by
  rw [readResource, h, ok_bind]
  dsimp only
  by_cases hq : q + 10 ≤ data.length
  · rw [if_pos hq, read_of_le (r := ⟨data, q⟩) hq, ok_bind]
    simp only [be16_take (show 8 + 2 ≤ 10 by omega), be16_take (show 0 + 2 ≤ 10 by omega),
      be16_take (show 2 + 2 ≤ 10 by omega), be16_drop, setPosition]
    rfl
  · rw [if_neg hq, read_of_lt (r := ⟨data, q⟩) (by omega) (by simpa using hq)]
    rfl

/-- Taking bytes that have to be there. -/
theorem steady_consume (make : MsgReader → α) (k : ℕ) : Steady fun _ r ↦
    (if r.pos + k ≤ r.data.length then pure (make r, r.consume k) else .panic :
      Decoded (α × MsgReader)) := by
  refine ⟨fun r ↦ stable_const _, fun r r' a hr h ↦ ?_⟩
  simp only [returns_const_iff] at h
  split at h
  · rename_i hle
    rw [pure_eq, ok.injEq, Prod.mk.injEq] at h
    obtain ⟨-, rfl⟩ := h
    exact ⟨rfl, hle⟩
  · exact absurd h (by simp)

theorem steady_readResource : Steady fun n r ↦ readResource X n r := by
  unfold readResource
  exact (reads_readName X).toSteady.bind fun name ↦ (reads_read 10).toSteady.bind fun buf ↦
    steady_consume _ _

/-- A record is the one place where decoding panics: its declared rdata does not fit. -/
theorem readResource_panics_iff {p : ℕ} (hp : p ≤ data.length) :
    Fails .panics (fun n ↦ readResource X n ⟨data, p⟩) ↔ ¬RdataFits X data p := by
  constructor
  · rintro ⟨n, hn⟩ hfits
    rcases bind_eq_panic.mp hn with h | ⟨⟨name, r⟩, hx, -⟩
    · exact (reads_readName X).calm (r := ⟨data, p⟩) hp ⟨n, h⟩
    · obtain ⟨hr, -⟩ := returns_of_within (reads_readName X).toSteady hp ⟨n, hx⟩
      rw [hr] at hx
      simp only [readResource_of_readName X hx] at hn
      split at hn
      · rename_i hq
        rw [if_pos (hfits name r.pos ⟨n, hx⟩ hq)] at hn
        exact absurd hn (by simp)
      · exact absurd hn (by simp)
  · intro h
    simp only [RdataFits, not_forall, exists_prop] at h
    obtain ⟨name, q, ⟨n, hx⟩, hq, hlt⟩ := h
    exact ⟨n, (readResource_of_readName X hx).trans (by rw [if_pos hq, if_neg hlt])⟩

/-! ## Whole messages -/

/-- The header announces a question that begins at `p`, and everything before it can be read. -/
def QuestionAt (data : List UInt8) (p : ℕ) : Prop :=
  12 ≤ data.length ∧ ∃ j < (be16 data 4).toNat, ItemsEnd (readQuestion X) data j 12 p

/-- The number of resource records that the header announces. -/
def resourceCount (data : List UInt8) : ℕ :=
  (be16 data 6).toNat + (be16 data 8).toNat + (be16 data 10).toNat

/-- The header announces a resource record, in one of the three sections, that begins at `p`, and
everything before it can be read. -/
def ResourceAt (data : List UInt8) (p : ℕ) : Prop :=
  12 ≤ data.length ∧ ∃ m, ItemsEnd (readQuestion X) data (be16 data 4).toNat 12 m ∧
    ∃ j < resourceCount data, ItemsEnd (readResource X) data j m p

theorem QuestionAt.le {p : ℕ} (h : QuestionAt X data p) : p ≤ data.length := by
  obtain ⟨hlen, j, -, hp⟩ := h
  exact hp.le (reads_readQuestion X).toSteady hlen

theorem ResourceAt.le {p : ℕ} (h : ResourceAt X data p) : p ≤ data.length := by
  obtain ⟨hlen, m, hm, j, -, hp⟩ := h
  exact hp.le (steady_readResource X) (hm.le (reads_readQuestion X).toSteady hlen)

/-- Two sections in a row are one section with the items of both. -/
private theorem exists_lt_add_iff {f : ℕ → MsgReader → Decoded (α × MsgReader)} {a b m : ℕ}
    {T : ℕ → Prop} :
    (∃ j < a + b, ∃ q, ItemsEnd f data j m q ∧ T q) ↔
      (∃ j < a, ∃ q, ItemsEnd f data j m q ∧ T q) ∨
      ∃ m', ItemsEnd f data a m m' ∧ ∃ j < b, ∃ q, ItemsEnd f data j m' q ∧ T q := by
  constructor
  · rintro ⟨j, hj, q, hq, hT⟩
    by_cases hja : j < a
    · exact Or.inl ⟨j, hja, q, hq, hT⟩
    · rw [show j = a + (j - a) by omega, itemsEnd_add] at hq
      obtain ⟨m', ha, hb⟩ := hq
      exact Or.inr ⟨m', ha, j - a, by omega, q, hb, hT⟩
  · rintro (⟨j, hj, h⟩ | ⟨m', ha, j, hj, q, hb, hT⟩)
    · exact ⟨j, by omega, h⟩
    · exact ⟨a + j, by omega, q, itemsEnd_add.mpr ⟨m', ha, hb⟩, hT⟩

/-- The header of a message that is long enough, and where it ends. -/
theorem readHeader_of_le (h : 12 ≤ data.length) : ∃ hdr : FullHeader,
    readHeader ⟨data, 0⟩ = .ok (hdr, ⟨data, 12⟩) ∧ hdr.qdCount = be16 data 4 ∧
    hdr.anCount = be16 data 6 ∧ hdr.nsCount = be16 data 8 ∧ hdr.arCount = be16 data 10 := by
  rw [readHeader, read_of_le (by simpa using h), ok_bind]
  refine ⟨_, rfl, ?_, ?_, ?_, ?_⟩ <;> exact be16_take (by omega) _

private theorem failsWhen_finish (data : List UInt8) (F : Failure) (m : Message) :
    FailsWhen F data (fun _ r ↦ r.finish >>= fun _ ↦ pure m) fun _ ↦ False := by
  refine ⟨fun r ↦ stable_const _, fun q hq ↦ iff_false_intro ?_⟩
  have hrem : (⟨data, q⟩ : MsgReader).remaining = .ok (data.length - q) := if_pos hq
  rw [finish, hrem, ok_bind]
  by_cases h0 : data.length - q = 0
  · rw [if_pos h0]
    exact not_fails_ok F m
  · rw [if_neg h0]
    cases F <;> simp [Fails]

/-- **Decoding fails exactly at an item it gets to.** -/
theorem decode_fails_iff (F : Failure) :
    Fails F (fun n ↦ Message.decode X n data) ↔
      (∃ p, QuestionAt X data p ∧ Fails F fun n ↦ readQuestion X n ⟨data, p⟩) ∨
      ∃ p, ResourceAt X data p ∧ Fails F fun n ↦ readResource X n ⟨data, p⟩ := by
  have hQ : Steady (readQuestion X) := (reads_readQuestion X).toSteady
  have hR : Steady (readResource X) := steady_readResource X
  by_cases hlen : 12 ≤ data.length
  · obtain ⟨hdr, hread, hqd, han, hns, har⟩ := readHeader_of_le hlen
    simp only [Message.decode, MsgReader.new, hread, ok_bind, hqd, han, hns, har]
    -- the four sections, each with what follows it
    have hsections := failsWhen_readItems_bind (k := (be16 data 4).toNat) hQ fun qs ↦
      failsWhen_readItems_bind (k := (be16 data 6).toNat) hR fun as ↦
      failsWhen_readItems_bind (k := (be16 data 8).toNat) hR fun ns ↦
      failsWhen_readItems_bind (k := (be16 data 10).toNat) hR fun ar ↦
        failsWhen_finish data F ⟨hdr.toHeader, qs, as, ns, ar⟩
    rw [hsections.fails_iff 12 hlen]
    simp only [QuestionAt, ResourceAt, resourceCount, hlen, true_and, and_false, exists_false,
      or_false]
    refine or_congr ⟨?_, ?_⟩ ?_
    · rintro ⟨j, hj, p, hp, h⟩
      exact ⟨p, ⟨j, hj, hp⟩, h⟩
    · rintro ⟨p, ⟨j, hj, hp⟩, h⟩
      exact ⟨j, hj, p, hp, h⟩
    · simp only [← exists_lt_add_iff, ← Nat.add_assoc]
      constructor
      · rintro ⟨m, hm, j, hj, p, hp, h⟩
        exact ⟨p, ⟨m, hm, j, hj, hp⟩, h⟩
      · rintro ⟨p, ⟨m, hm, j, hj, hp⟩, h⟩
        exact ⟨m, hm, j, hj, p, hp, h⟩
  · -- without a whole header there is nothing to get to
    have hshort (n : ℕ) : Message.decode X n data = .err .shortMessage := by
      rw [Message.decode, readHeader, MsgReader.new, read_of_lt (by omega) (by simpa using hlen)]
      rfl
    simp only [hshort, QuestionAt, ResourceAt, hlen, false_and, exists_false, or_false, iff_false]
    cases F <;> simp [Fails]

end UsnetSockets
