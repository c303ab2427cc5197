import UsnetSockets.Resolve.NameWalk

/-!
# Where readers stop

Three facts about every reading function, from which the outcome of decoding a whole message is
assembled: more fuel does not change what it does and it leaves the cursor inside the same message
(`Steady`), and, with one exception, it does not panic (`Reads`). They are closed under sequencing,
so they have to be shown for `read` and `read_name` only.
-/

namespace UsnetSockets

open MsgReader Outcome

variable {α β : Type}

/-- The cursor is not behind the end of the message. -/
def MsgReader.Within (r : MsgReader) : Prop := r.pos ≤ r.data.length

/-- A reading function that leaves the same message behind, with the cursor inside, and does not
depend on how much fuel it gets beyond what it needs. -/
structure Steady (f : ℕ → MsgReader → Decoded (α × MsgReader)) : Prop where
  stable : ∀ r, Stable fun n ↦ f n r
  stays : ∀ ⦃r r' : MsgReader⦄ ⦃a : α⦄, r.Within → Returns (fun n ↦ f n r) (a, r') →
    r'.data = r.data ∧ r'.Within

/-- A reading function that, moreover, does not panic on a cursor inside the message. -/
structure Reads (f : ℕ → MsgReader → Decoded (α × MsgReader)) : Prop extends Steady f where
  calm : ∀ ⦃r : MsgReader⦄, r.Within → ¬Fails .panics fun n ↦ f n r

theorem reads_pure (a : α) : Reads fun _ r ↦ (pure (a, r) : Decoded (α × MsgReader)) where
  stable r := stable_const _
  stays r r' a' hr h := by
    simp only [pure_eq, returns_const_iff, ok.injEq, Prod.mk.injEq] at h
    obtain ⟨-, rfl⟩ := h
    exact ⟨rfl, hr⟩
  calm r _ := not_fails_ok _ _

theorem reads_read (k : ℕ) : Reads fun _ r ↦ r.read k where
  stable r := stable_const _
  stays r r' a hr h := by
    rw [returns_const_iff, MsgReader.read] at h
    split at h
    · rename_i hlen
      rw [ok.injEq, Prod.mk.injEq] at h
      obtain ⟨-, rfl⟩ := h
      rw [List.length_take, List.length_drop] at hlen
      refine ⟨rfl, ?_⟩
      rw [MsgReader.Within] at hr ⊢
      simp only [setPosition]
      omega
    · exact absurd h (by simp)
  calm r hr h := by
    obtain ⟨_, h⟩ := h
    simp only [MsgReader.read] at h
    split at h <;> exact absurd h (by simp)

variable {f : ℕ → MsgReader → Decoded (α × MsgReader)}
  {g : ℕ → α × MsgReader → Decoded (β × MsgReader)}

theorem Steady.bind (hf : Steady f) (hg : ∀ a, Steady fun n r ↦ g n (a, r)) :
    Steady fun n r ↦ f n r >>= g n where
  stable r := (hf.stable r).bind fun x ↦ (hg x.1).stable x.2
  stays r r' b hr h := by
    rw [returns_bind_iff (hf.stable r) fun x ↦ (hg x.1).stable x.2] at h
    obtain ⟨x, hx, h⟩ := h
    obtain ⟨hd, hw⟩ := hf.stays hr hx
    obtain ⟨hd', hw'⟩ := (hg x.1).stays hw h
    exact ⟨hd'.trans hd, hw'⟩

theorem Reads.bind (hf : Reads f) (hg : ∀ a, Reads fun n r ↦ g n (a, r)) :
    Reads fun n r ↦ f n r >>= g n where
  toSteady := hf.toSteady.bind fun a ↦ (hg a).toSteady
  calm r hr h := by
    rw [fails_bind_iff _ (hf.stable r) fun x ↦ (hg x.1).stable x.2] at h
    rcases h with h | ⟨x, hx, h⟩
    · exact hf.calm hr h
    · exact (hg x.1).calm (hf.stays hr hx).2 h

/-! ## Reading back -/

/-- Wherever the bytes stand in a message, the function reads them and no more, with a result that
has the property, on any fuel from some amount on. -/
def ReadsBack (f : ℕ → MsgReader → Decoded (α × MsgReader)) (bytes : List UInt8)
    (P : α → Prop) : Prop :=
  ∀ pre post, ∃ a, P a ∧ ∃ N, ∀ n ≥ N, f n ⟨pre ++ (bytes ++ post), pre.length⟩ =
    .ok (a, ⟨pre ++ (bytes ++ post), pre.length + bytes.length⟩)

theorem readsBack_read (bytes : List UInt8) :
    ReadsBack (fun _ r ↦ r.read bytes.length) bytes (· = bytes) := by
  intro pre post
  refine ⟨bytes, rfl, 0, fun n _ ↦ ?_⟩
  dsimp only
  rw [read_of_le (by simp), List.drop_left, List.take_left]
  rfl

theorem ReadsBack.imp {bytes : List UInt8} {P Q : α → Prop} (h : ReadsBack f bytes P)
    (hPQ : ∀ a, P a → Q a) : ReadsBack f bytes Q := by
  intro pre post
  obtain ⟨a, ha, hread⟩ := h pre post
  exact ⟨a, hPQ a ha, hread⟩

/-- One after the other. -/
theorem ReadsBack.bind {b₁ b₂ : List UInt8} {P : α → Prop} {Q : β → Prop} (h₁ : ReadsBack f b₁ P)
    (h₂ : ∀ a, P a → ReadsBack (fun n r ↦ g n (a, r)) b₂ Q) :
    ReadsBack (fun n r ↦ f n r >>= g n) (b₁ ++ b₂) Q := by
  intro pre post
  obtain ⟨a, ha, N, hfirst⟩ := h₁ pre (b₂ ++ post)
  obtain ⟨b, hb, M, hsecond⟩ := h₂ a ha (pre ++ b₁) post
  refine ⟨b, hb, max N M, fun n hn ↦ ?_⟩
  have hfirst := hfirst n ((le_max_left N M).trans hn)
  have hsecond := hsecond n ((le_max_right N M).trans hn)
  simp only [List.append_assoc, List.length_append, Nat.add_assoc] at hfirst hsecond ⊢
  rw [hfirst, ok_bind, hsecond]

/-- The result is made from what has been read. -/
theorem ReadsBack.map {bytes : List UInt8} {P : α → Prop} {Q : β → Prop} (h : ReadsBack f bytes P)
    (make : α → β) (hmake : ∀ a, P a → Q (make a)) :
    ReadsBack (fun n r ↦ f n r >>= fun x ↦ pure (make x.1, x.2)) bytes Q := by
  intro pre post
  obtain ⟨a, ha, N, hread⟩ := h pre post
  refine ⟨make a, hmake a ha, N, fun n hn ↦ ?_⟩
  dsimp only
  rw [hread n hn]
  rfl

/-! ## The primitives -/

theorem reads_readByte : Reads fun _ r ↦ r.readByte := by
  unfold MsgReader.readByte
  exact (reads_read 1).bind fun buf ↦ reads_pure _

theorem reads_readU16 : Reads fun _ r ↦ r.readU16 := by
  unfold MsgReader.readU16
  exact (reads_read 2).bind fun buf ↦ reads_pure _

theorem reads_readU32 : Reads fun _ r ↦ r.readU32 := by
  unfold MsgReader.readU32
  exact (reads_read 4).bind fun buf ↦ reads_pure _

theorem reads_readCharacterString : Reads fun _ r ↦ r.readCharacterString := by
  unfold MsgReader.readCharacterString
  exact reads_readByte.bind fun len ↦ reads_read _

/-! ## Names -/

variable (X : IdnaCrate)

/-- The loop of `read_name` keeps to the message, and remembers a place inside it to return to. -/
private structure NameInv (data : List UInt8) (s : NameState) : Prop where
  data_eq : s.reader.data = data
  within : s.reader.Within
  restore : ∀ pos, s.restore = some pos → pos ≤ data.length

private theorem pointerAt_bound {data : List UInt8} {start p o : ℕ}
    (h : pointerAt data start p = some o) : p + 2 ≤ data.length := by
  rw [pointerAt] at h
  split at h
  · rename_i hlo
    have := (List.getElem?_eq_some_iff.mp hlo).1
    omega
  · exact absurd h (by simp)

private theorem NameInv.next {data : List UInt8} {start : ℕ} (hstart : start ≤ data.length)
    {s s' : NameState} (hs : NameInv data s) (h : readNameBody X start s = .ok (.inl s')) :
    NameInv data s' := by
  obtain ⟨rfl, hw, hres⟩ := hs
  rcases readNameBody_cases X start s with ⟨o, ho, hbody⟩ | ⟨l, text, hl, -, hbody⟩ |
    ⟨-, -, ⟨-, -, hbody⟩ | ⟨e, hbody⟩⟩
  · rw [hbody, ok.injEq, Sum.inl.injEq] at h
    subst h
    refine ⟨rfl, ?_, ?_⟩
    · exact ((pointerAt_lt ho).le.trans hstart)
    · intro pos hpos
      simp only [NameState.jump] at hpos
      split at hpos
      · rw [Option.some_inj] at hpos
        rw [← hpos]
        exact pointerAt_bound ho
      · exact hres pos hpos
  · rw [hbody, ok.injEq, Sum.inl.injEq] at h
    subst h
    obtain ⟨len, hlen⟩ : ∃ len, s.reader.data[s.reader.pos]? = some len := by
      cases hb : s.reader.data[s.reader.pos]? with
      | none => simp [labelAt, hb] at hl
      | some len => exact ⟨len, rfl⟩
    exact ⟨rfl, (labelAt_length hlen hl).2.2, hres⟩
  · rw [hbody] at h
    exact absurd h (by simp)
  · rw [hbody] at h
    exact absurd h (by simp)

private theorem NameInv.break {data : List UInt8} {start : ℕ} {s s' : NameState}
    (hs : NameInv data s) (h : readNameBody X start s = .ok (.inr s')) : NameInv data s' := by
  obtain ⟨rfl, hw, hres⟩ := hs
  rcases readNameBody_cases X start s with ⟨o, -, hbody⟩ | ⟨l, text, -, -, hbody⟩ |
    ⟨-, -, ⟨hzero, -, hbody⟩ | ⟨e, hbody⟩⟩
  · rw [hbody] at h
    exact absurd h (by simp)
  · rw [hbody] at h
    exact absurd h (by simp)
  · rw [hbody, ok.injEq, Sum.inr.injEq] at h
    subst h
    exact ⟨rfl, (List.getElem?_eq_some_iff.mp hzero).1, hres⟩
  · rw [hbody] at h
    exact absurd h (by simp)

theorem readNameBody_ne_panic (start : ℕ) (s : NameState) : readNameBody X start s ≠ .panic := by
  rcases readNameBody_cases X start s with ⟨o, -, hbody⟩ | ⟨l, text, -, -, hbody⟩ |
    ⟨-, -, ⟨-, -, hbody⟩ | ⟨e, hbody⟩⟩ <;> simp [hbody]

theorem reads_readName : Reads fun n r ↦ r.readName X n where
  stable r := by
    unfold MsgReader.readName
    exact (stable_loop _).bind fun s ↦ stable_const _
  stays r r' name hr h := by
    obtain ⟨n, h⟩ := h
    simp only [MsgReader.readName, bind_eq_ok] at h
    obtain ⟨s, hs, h⟩ := h
    have hinv : NameInv r.data s :=
      loop_ok_of_invariant (I := NameInv r.data) (fun s s' ↦ NameInv.next X hr)
        (fun s s' ↦ NameInv.break X) ⟨rfl, hr, by simp⟩ hs
    cases hres : s.restore with
    | none =>
      simp only [hres, pure_eq, ok.injEq, Prod.mk.injEq] at h
      obtain ⟨-, rfl⟩ := h
      exact ⟨hinv.data_eq, hinv.within⟩
    | some pos =>
      simp only [hres, pure_eq, ok.injEq, Prod.mk.injEq] at h
      obtain ⟨-, rfl⟩ := h
      refine ⟨hinv.data_eq, ?_⟩
      rw [MsgReader.Within, setPosition, hinv.data_eq]
      exact hinv.restore pos hres
  calm r hr h := by
    obtain ⟨n, h⟩ := h
    refine bind_ne_panic (loop_ne_panic (readNameBody_ne_panic X r.pos)) (fun s _ ↦ ?_) h
    cases s.restore <;> simp

/-! ## Items and records -/

theorem reads_readQuestion : Reads fun n r ↦ r.readQuestion X n := by
  unfold MsgReader.readQuestion
  exact (reads_readName X).bind fun name ↦ (reads_read 4).bind fun buf ↦ reads_pure _

theorem reads_decode (k : RecordKind) : Reads fun n r ↦ Record.decode X n k r := by
  unfold Record.decode
  cases k with
  | a => exact (reads_read 4).bind fun buf ↦ reads_pure _
  | aaaa => exact (reads_read 16).bind fun buf ↦ reads_pure _
  | cname => exact (reads_readName X).bind fun name ↦ reads_pure _
  | mx => exact reads_readU16.bind fun p ↦ (reads_readName X).bind fun name ↦ reads_pure _
  | ns => exact (reads_readName X).bind fun name ↦ reads_pure _
  | ptr => exact (reads_readName X).bind fun name ↦ reads_pure _
  | soa =>
    exact (reads_readName X).bind fun mname ↦ (reads_readName X).bind fun rname ↦
      reads_readU32.bind fun serial ↦ reads_readU32.bind fun refresh ↦
      reads_readU32.bind fun retry ↦ reads_readU32.bind fun expire ↦
      reads_readU32.bind fun minimum ↦ reads_pure _
  | srv =>
    exact reads_readU16.bind fun priority ↦ reads_readU16.bind fun weight ↦
      reads_readU16.bind fun port ↦ (reads_readName X).bind fun target ↦ reads_pure _
  | txt => exact reads_readCharacterString.bind fun data ↦ reads_pure _

end UsnetSockets
