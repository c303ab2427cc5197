import UsnetSockets.Resolve.DecodeOutcome

/-!
# What a received datagram can do to the resolver

The resource records of a decoded message keep their rdata undecoded; `read_rdata` decodes it, again
with names that may point anywhere before it. Together with the outcome of `Message::decode` this
settles what a datagram can do: loop the resolver, by a cycle of compression pointers, or panic it,
by a record longer than the message, and nothing else.
-/

namespace UsnetSockets

open MsgReader Outcome

variable (X : IdnaCrate) {data : List UInt8}

/-! ## Names in rdata -/

/-- Behind the end there is no byte of a name to read. -/
private theorem readName_of_length_le {n p : ℕ} (h : data.length ≤ p) :
    readName X (n + 1) ⟨data, p⟩ = .err .shortMessage := by
  have hnone : (⟨data, p⟩ : MsgReader).data[p]? = none := List.getElem?_eq_none h
  rw [readName, loop, readNameBody, readByte_of_getElem?_none hnone]
  rfl

private theorem not_runsIntoPointerCycle_of_length_le {p : ℕ} (h : data.length ≤ p) :
    ¬RunsIntoPointerCycle X data p := by
  rw [← exists_readName_iff]
  exact ⟨1, by simp [readName_of_length_le X h]⟩

/-- A name that `read_name` has read was read from the same message. -/
private theorem data_eq_of_readName {p : ℕ} {x : Str × MsgReader}
    (h : Returns (fun n ↦ readName X n ⟨data, p⟩) x) : x.2.data = data := by
  by_cases hp : p ≤ data.length
  · obtain ⟨name, r⟩ := x
    exact ((reads_readName X).stays (r := ⟨data, p⟩) hp h).1
  · obtain ⟨n, hn⟩ := h
    cases n with
    | zero => exact absurd hn (by simp [readName])
    | succ n => simp [readName_of_length_le X (Nat.le_of_not_le hp)] at hn

/-- Decoding rdata of the given type comes to a name that runs into a cycle of pointers. `MX` and
`SRV` have two and six bytes before their name; `SOA` has a second name where its first one ends. -/
def RdataRunsIntoPointerCycle (k : RecordKind) (res : Resource) : Prop :=
  match k with
  | .a | .aaaa | .txt => False
  | .cname | .ns | .ptr => RunsIntoPointerCycle X res.data res.offset
  | .mx => RunsIntoPointerCycle X res.data (res.offset + 2)
  | .srv => RunsIntoPointerCycle X res.data (res.offset + 6)
  | .soa => RunsIntoPointerCycle X res.data res.offset ∨
      ∃ name q, Returns (fun n ↦ readName X n ⟨res.data, res.offset⟩) (name, ⟨res.data, q⟩) ∧
        RunsIntoPointerCycle X res.data q

private theorem readU32_ne_outOfFuel (r : MsgReader) : r.readU32 ≠ .outOfFuel :=
  bind_ne_outOfFuel (read_ne_outOfFuel r 4) fun _ _ ↦ by simp

private theorem readCharacterString_ne_outOfFuel (r : MsgReader) :
    r.readCharacterString ≠ .outOfFuel :=
  bind_ne_outOfFuel (bind_ne_outOfFuel (read_ne_outOfFuel r 1) fun _ _ ↦ by simp)
    fun _ _ ↦ read_ne_outOfFuel _ _

/-- A program that reads two bytes first goes on behind them, or stops with an error. -/
private theorem readU16_bind_diverges_iff {β : Type} {p : ℕ}
    {g : ℕ → UInt16 × MsgReader → Decoded β} {P : Prop} (hP : P → p + 2 ≤ data.length)
    (hg : ∀ v, Fails .diverges (fun n ↦ g n (v, ⟨data, p + 2⟩)) ↔ P) :
    Fails .diverges (fun n ↦ readU16 ⟨data, p⟩ >>= g n) ↔ P := by
  by_cases hp : p + 2 ≤ data.length
  · rw [readU16, read_of_le (r := ⟨data, p⟩) hp]
    exact hg _
  · rw [readU16, read_of_lt (r := ⟨data, p⟩) (by omega) (by simpa using hp)]
    refine ⟨fun h ↦ absurd (h 0) (by simp), fun h ↦ absurd (hP h) hp⟩

/-- A name followed by reads that need no fuel. -/
private theorem readName_bind_diverges_iff {β : Type} {p : ℕ}
    {g : ℕ → Str × MsgReader → Decoded β} (hg : ∀ n x, g n x ≠ .outOfFuel) :
    Fails .diverges (fun n ↦ readName X n ⟨data, p⟩ >>= g n) ↔ RunsIntoPointerCycle X data p := by
  rw [diverges_bind_iff hg, readName_diverges_iff]

/-- Two names in a row, followed by reads that need no fuel. -/
private theorem readName_readName_bind_diverges_iff {β : Type} {p : ℕ}
    {g : Str × MsgReader → Str × MsgReader → Decoded β} (hg : ∀ x y, g x y ≠ .outOfFuel) :
    Fails .diverges (fun n ↦ readName X n ⟨data, p⟩ >>= fun x ↦ readName X n x.2 >>= g x) ↔
      RunsIntoPointerCycle X data p ∨ ∃ name q,
        Returns (fun n ↦ readName X n ⟨data, p⟩) (name, ⟨data, q⟩) ∧
        RunsIntoPointerCycle X data q := by
  have hname (r : MsgReader) : Stable fun n ↦ readName X n r := (reads_readName X).stable r
  have hrest (x : Str × MsgReader) : Stable fun n ↦ readName X n x.2 >>= g x :=
    (hname x.2).bind fun y ↦ stable_const _
  rw [fails_bind_iff _ (hname _) hrest, readName_diverges_iff]
  refine or_congr_right ⟨?_, ?_⟩
  · rintro ⟨⟨name, ⟨d, q⟩⟩, hx, h⟩
    obtain rfl : d = data := data_eq_of_readName X hx
    exact ⟨name, q, hx, (readName_bind_diverges_iff X fun _ y ↦ hg _ y).mp h⟩
  · rintro ⟨name, q, hx, h⟩
    exact ⟨_, hx, (readName_bind_diverges_iff X fun _ y ↦ hg _ y).mpr h⟩

private theorem le_of_runsIntoPointerCycle {p q : ℕ} (h : RunsIntoPointerCycle X data p)
    (hq : q ≤ p) : q ≤ data.length := by
  by_contra hlt
  exact not_runsIntoPointerCycle_of_length_le X (by omega) h

/-- Decoding a record goes on for ever exactly on a cycle of pointers in one of its names. -/
theorem decode_diverges_iff (k : RecordKind) (res : Resource) :
    Fails .diverges (fun n ↦ Record.decode X n k ⟨res.data, res.offset⟩) ↔
      RdataRunsIntoPointerCycle X k res := by
  have hle {p q : ℕ} (hq : q ≤ p) (h : RunsIntoPointerCycle X res.data p) : q ≤ res.data.length :=
    le_of_runsIntoPointerCycle X h hq
  simp only [Record.decode, RdataRunsIntoPointerCycle]
  cases k with
  | a =>
    refine iff_false_intro fun h ↦ ?_
    exact bind_ne_outOfFuel (read_ne_outOfFuel _ 4) (fun _ _ ↦ by simp) (h 0)
  | aaaa =>
    refine iff_false_intro fun h ↦ ?_
    exact bind_ne_outOfFuel (read_ne_outOfFuel _ 16) (fun _ _ ↦ by simp) (h 0)
  | cname => exact readName_bind_diverges_iff X fun _ _ ↦ by simp
  | mx =>
    refine readU16_bind_diverges_iff (hle le_rfl) fun preference ↦ ?_
    exact readName_bind_diverges_iff X fun _ _ ↦ by simp
  | ns => exact readName_bind_diverges_iff X fun _ _ ↦ by simp
  | ptr => exact readName_bind_diverges_iff X fun _ _ ↦ by simp
  | soa =>
    refine readName_readName_bind_diverges_iff X fun mname rname ↦ ?_
    refine bind_ne_outOfFuel (readU32_ne_outOfFuel _) fun serial _ ↦ ?_
    refine bind_ne_outOfFuel (readU32_ne_outOfFuel _) fun refresh _ ↦ ?_
    refine bind_ne_outOfFuel (readU32_ne_outOfFuel _) fun retry _ ↦ ?_
    refine bind_ne_outOfFuel (readU32_ne_outOfFuel _) fun expire _ ↦ ?_
    exact bind_ne_outOfFuel (readU32_ne_outOfFuel _) fun minimum _ ↦ by simp
  | srv =>
    refine readU16_bind_diverges_iff (hle (by omega)) fun priority ↦ ?_
    refine readU16_bind_diverges_iff (hle (by omega)) fun weight ↦ ?_
    refine readU16_bind_diverges_iff (hle (by omega)) fun port ↦ ?_
    exact readName_bind_diverges_iff X fun _ _ ↦ by simp
  | txt =>
    refine iff_false_intro fun h ↦ ?_
    exact bind_ne_outOfFuel (readCharacterString_ne_outOfFuel _) (fun _ _ ↦ by simp) (h 0)

theorem readRdata_diverges_iff (k : RecordKind) (res : Resource) :
    Fails .diverges (fun n ↦ res.readRdata X n k) ↔ RdataRunsIntoPointerCycle X k res := by
  rw [← decode_diverges_iff]
  refine diverges_bind_iff fun n x ↦ bind_ne_outOfFuel (bind_ne_outOfFuel ?_ ?_) ?_
  · rw [remaining]
    split <;> simp
  · intro m _
    split <;> simp
  · intro _ _
    simp

/-! ## Resources of a decoded message -/

/-- The rdata begins inside the data that the resource keeps. -/
def Resource.WellFormed (res : Resource) : Prop := res.offset ≤ res.data.length

theorem wellFormed_of_readResource {n : ℕ} {r : MsgReader} {x : Resource × MsgReader}
    (h : readResource X n r = .ok x) : x.1.WellFormed := by
  simp only [readResource, bind_eq_ok] at h
  obtain ⟨y, -, z, -, h⟩ := h
  split at h
  · rename_i hle
    rw [pure_eq, ok.injEq] at h
    rw [← h, Resource.WellFormed]
    dsimp only
    rw [List.length_take]
    omega
  · exact absurd h (by simp)

theorem forall_of_readItems {α : Type} {item : MsgReader → Decoded (α × MsgReader)}
    {P : α → Prop} (hP : ∀ r x, item r = .ok x → P x.1) :
    ∀ {k : ℕ} {r : MsgReader} {x : List α × MsgReader}, readItems item k r = .ok x →
      ∀ a ∈ x.1, P a := by
  intro k
  induction k with
  | zero =>
    intro r x h
    rw [readItems, pure_eq, ok.injEq] at h
    simp [← h]
  | succ k ih =>
    intro r x h
    simp only [readItems, bind_eq_ok] at h
    obtain ⟨y, hy, z, hz, h⟩ := h
    rw [pure_eq, ok.injEq] at h
    rw [← h]
    exact List.forall_mem_cons.mpr ⟨hP r y hy, ih hz⟩

/-- Every resource of a decoded message is well formed. -/
theorem wellFormed_of_decode {n : ℕ} {m : Message} (h : Message.decode X n data = .ok m) :
    ∀ res ∈ m.answer ++ m.authority ++ m.additional, res.WellFormed := by
  simp only [Message.decode, bind_eq_ok] at h
  obtain ⟨hdr, -, qs, -, as, has, ns, hns, ar, har, -, -, h⟩ := h
  rw [pure_eq, ok.injEq] at h
  subst h
  have hP (r : MsgReader) (x : Resource × MsgReader) (h : readResource X n r = .ok x) :
      x.1.WellFormed := wellFormed_of_readResource X h
  intro res hres
  rw [List.mem_append, List.mem_append] at hres
  rcases hres with (hres | hres) | hres
  · exact forall_of_readItems hP has res hres
  · exact forall_of_readItems hP hns res hres
  · exact forall_of_readItems hP har res hres

/-- Reading the rdata of a well-formed resource does not panic. -/
theorem Resource.WellFormed.readRdata_ne_panic {res : Resource} (h : res.WellFormed)
    (k : RecordKind) (n : ℕ) : res.readRdata X n k ≠ .panic := by
  refine bind_ne_panic ?_ ?_
  · intro hc
    exact (reads_decode X k).calm (r := ⟨res.data, res.offset⟩) h ⟨n, hc⟩
  · intro x hx
    obtain ⟨rec, r⟩ := x
    have hw : r.Within := ((reads_decode X k).stays (r := ⟨res.data, res.offset⟩) h ⟨n, hx⟩).2
    have hrem : r.remaining = .ok (r.data.length - r.pos) := if_pos hw
    dsimp only
    rw [finish, hrem, ok_bind]
    split <;> simp

/-! ## The two things a datagram can do -/

/-- **Termination.** Reading a name ends unless it runs into a cycle of compression pointers, and
decoding a message or the rdata of a resource ends unless one of the names it comes to does. -/
theorem read_terminates_iff :
    (∀ data pos, (∃ fuel, readName X fuel ⟨data, pos⟩ ≠ .outOfFuel) ↔
      ¬RunsIntoPointerCycle X data pos) ∧
    (∀ data, (∃ fuel, Message.decode X fuel data ≠ .outOfFuel) ↔
      ∀ p, QuestionAt X data p ∨ ResourceAt X data p → ¬RunsIntoPointerCycle X data p) ∧
    (∀ k res, (∃ fuel, Resource.readRdata X fuel k res ≠ .outOfFuel) ↔
      ¬RdataRunsIntoPointerCycle X k res) := by
  refine ⟨exists_readName_iff, ?_, ?_⟩
  · intro data
    have hdec : (∃ fuel, Message.decode X fuel data ≠ .outOfFuel) ↔
        ¬Fails .diverges fun n ↦ Message.decode X n data := not_forall.symm
    rw [hdec, decode_fails_iff]
    simp only [readQuestion_diverges_iff, readResource_diverges_iff, not_or, not_exists, not_and,
      or_imp, forall_and]
  · intro k res
    rw [← readRdata_diverges_iff]
    exact not_forall.symm

/-- A query with one question. Its id reads as a compression pointer to the beginning of the
message, and the name of the question points there. -/
def pointerLoop : List UInt8 := [0xC0, 0, 0, 0, 0, 1, 0, 0, 0, 0, 0, 0, 0xC0, 0, 0, 1, 0, 1]

private theorem runsIntoPointerCycle_pointerLoop : RunsIntoPointerCycle X pointerLoop 12 := by
  refine ⟨0, 0, .single (.pointer (by decide)), 0, by decide⟩

theorem not_read_terminates :
    (¬∃ X fuel, readName X fuel ⟨pointerLoop, 12⟩ ≠ .outOfFuel) ∧
    ¬∃ X fuel, Message.decode X fuel pointerLoop ≠ .outOfFuel := by
  refine ⟨?_, ?_⟩
  · rintro ⟨X, h⟩
    exact exists_readName_iff _ _ |>.mp h (runsIntoPointerCycle_pointerLoop X)
  · rintro ⟨X, fuel, h⟩
    have hq : QuestionAt X pointerLoop 12 := ⟨by decide, 0, by decide, rfl⟩
    have hloop := (readQuestion_diverges_iff X).mpr (runsIntoPointerCycle_pointerLoop X)
    exact h ((decode_fails_iff X .diverges).mpr (Or.inl ⟨12, hq, hloop⟩) fuel)

/-- **Panics.** Decoding does not panic on a message exactly when every resource record it comes to
has its declared rdata inside the message. Nothing that is decoded panics later on. -/
theorem decode_panics_iff :
    (∀ data, (∀ fuel, Message.decode X fuel data ≠ .panic) ↔
      ∀ p, ResourceAt X data p → RdataFits X data p) ∧
    (∀ data fuel m, Message.decode X fuel data = .ok m →
      ∀ res ∈ m.answer ++ m.authority ++ m.additional, res.getRdata ≠ .panic ∧
        ∀ k fuel', res.readRdata X fuel' k ≠ .panic) := by
  refine ⟨?_, ?_⟩
  · intro data
    have hdec : (∀ fuel, Message.decode X fuel data ≠ .panic) ↔
        ¬Fails .panics fun n ↦ Message.decode X n data := not_exists.symm
    rw [hdec, decode_fails_iff, not_or]
    constructor
    · rintro ⟨-, hres⟩ p hp
      by_contra hfits
      exact hres ⟨p, hp, (readResource_panics_iff X (hp.le X)).mpr hfits⟩
    · intro h
      refine ⟨?_, ?_⟩
      · rintro ⟨p, hp, hfail⟩
        exact (reads_readQuestion X).calm (r := ⟨data, p⟩) (hp.le X) hfail
      · rintro ⟨p, hp, hfail⟩
        exact (readResource_panics_iff X (hp.le X)).mp hfail (h p hp)
  · intro data fuel m h res hres
    have hwf := wellFormed_of_decode X h res hres
    refine ⟨?_, fun k n ↦ hwf.readRdata_ne_panic X k n⟩
    have hget : res.getRdata = .ok (res.data.drop res.offset) := if_pos hwf
    simp [hget]

/-- A response with one answer, whose rdata would be one byte long but is missing. -/
def missingRdata : List UInt8 :=
  [0, 0, 0x80, 0, 0, 0, 0, 1, 0, 0, 0, 0, 0, 0, 1, 0, 1, 0, 0, 0, 0, 0, 1]

theorem decode_panics_missingRdata :
    ¬∃ X, ∀ fuel, Message.decode X fuel missingRdata ≠ .panic := by
  rintro ⟨X, h⟩
  exact h 1 rfl

end UsnetSockets
