import UsnetSockets.Net.Evolution
import UsnetSockets.Net.Ring
import UsnetSockets.Net.SingleThread
import UsnetSockets.Net.Ttl

/-!
# Runs of the singlethread API

What holds of every run: each socket that the program uses has one holder, no call on the
`SocketSet` panics, and a socket only ever goes from a backlog to a stream and from there to nobody.
A socket that nobody holds is still polled, and it stays in the set for good.
-/

namespace UsnetSockets

namespace SingleThread

open Transition SocketSet

variable {T : Smoltcp} {cfg : Setup} {B : Buffers T} {s s' : State T} {a : Action T}
  {S S' : SocketSet T} {os os' : List Holding}

/-! ## One holder for each socket -/

theorem Counted.forget (gone : List Holding) (h : Counted S (gone ++ os)) : Counted S os := by
  refine SocketSet.Owned.of_subset h (fun k ↦ ?_) (List.subset_append_right gone os)
  rw [holders_append]
  exact Nat.le_add_left _ _

theorem Counted.taken {x : SocketHandle} {b : Bool} (h : Counted S ((x, .backlog b) :: os)) :
    Counted S ((x, .tcp) :: os) := by
  refine h.mono (fun k ↦ le_rfl) fun k r hk ↦ ?_
  rcases List.mem_cons.mp hk with he | hk
  · obtain ⟨rfl, rfl⟩ := Prod.mk.inj he
    exact ⟨_, List.mem_cons_self, .taken b⟩
  · exact ⟨r, List.mem_cons_of_mem _ hk, .same r⟩

theorem Moves.counted (h : Moves S os S' os') (hs : Counted S os) : Counted S' os' := by
  rcases h with hp | ⟨gone, hp⟩ | ⟨hr, hadd, hp⟩ | ⟨hadd, hp⟩ | ⟨hmem, ht, hp⟩ | ⟨hp, ht, hrel⟩ |
    ⟨hp, hadd, hp'⟩
  · exact hs.perm hp.symm
  · exact Counted.forget gone (hs.perm hp)
  · exact (hs.add hadd hr fun _ _ _ _ ↦ trivial).perm hp.symm
  · have hadded := hs.add (r := .tcp) hadd rfl fun _ _ _ _ ↦ trivial
    exact (Counted.forget [_] hadded).perm hp.symm
  · exact (hs.setTcp_of_mem hmem ht).perm hp.symm
  · obtain ⟨S₁, hS₁, hs₁⟩ :=
      ((hs.setTcp_of_mem (hp.mem_iff.mpr List.mem_cons_self) ht).perm hp).release
    rwa [← Option.some.inj (hS₁.symm.trans hrel)]
  · have htaken := Counted.taken (hs.perm hp)
    exact (htaken.add (r := .backlog false) hadd rfl fun _ _ _ _ ↦ trivial).perm hp'.symm

/-- Nothing is counted twice. -/
def RefsLeOne (S : SocketSet T) : Prop := ∀ i item, S.slots i = some item → item.refs ≤ 1

theorem RefsLeOne.modify (h : RefsLeOne S) {index : ℕ} {f : Item T → Item T}
    (hf : ∀ item, (f item).refs ≤ item.refs) : RefsLeOne (S.modify index f) := by
  intro i item hitem
  rw [slots_modify] at hitem
  split at hitem
  · obtain ⟨item₀, hitem₀, rfl⟩ := Option.map_eq_some_iff.mp hitem
    exact (hf item₀).trans (h i item₀ hitem₀)
  · exact h i item hitem

theorem RefsLeOne.process (h : RefsLeOne S) (events : List (ℕ × T.Event)) :
    RefsLeOne (S.process events) := by
  induction events generalizing S with
  | nil => exact h
  | cons e events ih => exact ih (h.modify fun _ ↦ le_rfl)

theorem RefsLeOne.add (h : RefsLeOne S) {slot : ℕ} {x : T.Tcp ⊕ T.Udp} {k : SocketHandle}
    (hadd : S.add slot x = some (k, S')) : RefsLeOne S' := by
  intro i item hitem
  obtain ⟨-, rfl⟩ | hitem := slots_of_add hadd i item hitem
  · exact le_rfl
  · exact h i item hitem

theorem RefsLeOne.release (h : RefsLeOne S) {k : SocketHandle} (hrel : S.release k = some S') :
    RefsLeOne S' := by
  rw [SocketSet.release] at hrel
  split at hrel
  · split at hrel
    · exact absurd hrel (by simp)
    · rw [← Option.some.inj hrel]
      exact h.modify fun item ↦ Nat.sub_le item.refs 1
  · exact absurd hrel (by simp)

theorem RefsLeOne.setSocket (h : RefsLeOne S) (k : SocketHandle) (x : T.Tcp ⊕ T.Udp) :
    RefsLeOne (S.setSocket k x) := h.modify fun _ ↦ le_rfl

theorem Moves.refsLeOne (h : Moves S os S' os') (hs : RefsLeOne S) : RefsLeOne S' := by
  rcases h with hp | ⟨gone, hp⟩ | ⟨hr, hadd, hp⟩ | ⟨hadd, hp⟩ | ⟨hmem, ht, hp⟩ | ⟨hp, ht, hrel⟩ |
    ⟨hp, hadd, hp'⟩
  · exact hs
  · exact hs
  · exact hs.add hadd
  · exact hs.add hadd
  · exact hs.setSocket _ _
  · exact (hs.setSocket _ _).release hrel
  · exact hs.add hadd

/-- What holds of every state. -/
structure Exclusive (s : State T) : Prop where
  counted : Counted s.sockets s.holdings
  refs_le : RefsLeOne s.sockets

theorem Exclusive.step (hs : Exclusive s) (h : s.step cfg B a = some s') :
    Exclusive s' ∧ s'.fault = s.fault := by
  obtain ⟨hfault, hmoves, -⟩ := fits_of_step hs.counted h
  exact ⟨⟨hmoves.counted (hs.counted.process a.events),
    hmoves.refsLeOne (hs.refs_le.process a.events)⟩, hfault⟩

theorem exclusive_initial : Exclusive (State.initial : State T) :=
  ⟨Owned.empty, fun i item hitem ↦ absurd hitem (by simp [State.initial, SocketSet.empty])⟩

theorem exclusive_of_run {as : List (Action T)}
    (hrun : run (State.step cfg B) State.initial as = some s) : Exclusive s ∧ s.fault = false :=
  invariant_of_run (I := fun s : State T ↦ Exclusive s ∧ s.fault = false)
    (fun _ _ _ hs h ↦ ⟨(hs.1.step h).1, (hs.1.step h).2.trans hs.2⟩) ⟨exclusive_initial, rfl⟩ hrun

theorem kind_of_mem_holdings {o : Holding} (ho : o ∈ s.holdings) : o.2.kind = .tcp := by
  rcases List.mem_append.mp ho with ho | ho
  · rcases hphase : s.phase with _ | x | ⟨i, first, asked⟩ | ⟨i, c⟩ | _
    all_goals simp_all [Phase.holdings, Role.kind]
  · obtain ⟨x, -, ho⟩ := List.mem_flatMap.mp ho
    rcases x with l | x | _ | _
    · obtain ⟨k, -, rfl⟩ := List.mem_map.mp ho
      rfl
    · rw [List.mem_singleton.mp ho]
      rfl
    · exact absurd ho List.not_mem_nil
    · exact absurd ho List.not_mem_nil

/-- The slot of a handle that is held has its socket, which is counted once. -/
theorem Exclusive.slot (hs : Exclusive s) {o : Holding} (ho : o ∈ s.holdings) :
    ∃ item, s.sockets.slots o.1.index = some item ∧ item.uid = o.1.uid ∧ item.refs = 1 ∧
      item.kind = o.2.kind := by
  obtain ⟨item, hslot, huid, hkind, hrefs⟩ := hs.counted.backs o ho
  have hone := hs.refs_le _ item hslot
  have hpos := holders_pos ho
  exact ⟨item, hslot, huid, by omega, hkind⟩

/-- No handle is held twice. -/
theorem Exclusive.nodup (hs : Exclusive s) : (s.holdings.map Prod.fst).Nodup := by
  refine List.nodup_iff_count.mpr fun k ↦ ?_
  by_cases hk : k ∈ s.holdings.map Prod.fst
  · obtain ⟨o, ho, rfl⟩ := List.mem_map.mp hk
    obtain ⟨item, hslot, -, -, hrefs⟩ := hs.counted.backs o ho
    exact hrefs.trans (hs.refs_le _ item hslot)
  · rw [List.count_eq_zero_of_not_mem hk]
    exact Nat.zero_le 1

/-- **One holder for each socket.** In every state of every run, between two polls of the interface,
no call on the `SocketSet` has panicked, all handles that are held are different, and each of them
refers to the TCP socket that it was made for, which is counted once; so neither `get` nor `release`
panics on it, and no two streams and listeners share a socket. -/
theorem handles_exclusive {as : List (Action T)}
    (hrun : run (State.step cfg B) State.initial as = some s) :
    s.fault = false ∧ (s.holdings.map Prod.fst).Nodup ∧ ∀ h r, (h, r) ∈ s.holdings →
      (∃ item, s.sockets.slots h.index = some item ∧ item.uid = h.uid ∧ item.refs = 1) ∧
      (s.sockets.getTcp h).isSome ∧ (s.sockets.release h).isSome := by
  obtain ⟨hs, hfault⟩ := exclusive_of_run hrun
  refine ⟨hfault, hs.nodup, fun h r ho ↦ ?_⟩
  obtain ⟨item, hslot, huid, hrefs, -⟩ := hs.slot ho
  refine ⟨⟨item, hslot, huid, hrefs⟩, ?_, ?_⟩
  · exact Option.isSome_iff_exists.mpr (hs.counted.getTcp_isSome ho (kind_of_mem_holdings ho))
  · simp [SocketSet.release, hslot, hrefs]

/-! Concrete runs: usnetd runs, and a client comes to port 80. -/

def Setup.small : Setup := ⟨true, 16⟩

def bindAt (slot : ℕ) : Action Smoltcp.ring := .bind (.of (.ok 5) (.ok ())) slot

/-- A pass of the loop of `poll_wait`, with what comes for the socket in the first slot. -/
def pollOne (events : List ReferenceEvent) (result : Bool) (slot : ℕ) : Action Smoltcp.ring :=
  .poll ⟨events.map fun e ↦ (0, .segment e), .ok result, false, true⟩ none slot

def client : SocketAddr := ⟨.v4 10 0 0 9, 4000⟩

/-- A connection is accepted. -/
def acceptOne : List (Action Smoltcp.ring) :=
  [bindAt 0, .accept 0 (.ok ()), pollOne [.syn client, .ack] true 1]

theorem handles_exclusive_acceptOne : ∃ s : State Smoltcp.ring,
    run (State.step .small .ring) State.initial acceptOne = some s ∧
    s.holdings = [(⟨1, 1⟩, .backlog false), (⟨0, 0⟩, .tcp)] ∧
    s.fault = false ∧ (s.sockets.release ⟨0, 0⟩).isSome := by
  obtain ⟨s, hrun, hs⟩ := Option.map_eq_some_iff.mp (show (run (State.step .small .ring)
    State.initial acceptOne).map State.holdings =
      some [(⟨1, 1⟩, .backlog false), (⟨0, 0⟩, .tcp)] from rfl)
  obtain ⟨hfault, -, hall⟩ := handles_exclusive hrun
  exact ⟨s, hrun, hs, hfault, (hall ⟨0, 0⟩ .tcp (by simp [hs])).2.2⟩

/-! ## Sockets that nobody holds -/

/-- What comes from the network for the socket in a slot. -/
def processedAt (i : ℕ) (events : List (ℕ × T.Event)) (item : Item T) : Item T :=
  events.foldl (fun item e ↦ if e.1 = i then processItem e.2 item else item) item

theorem slots_process (S : SocketSet T) (events : List (ℕ × T.Event)) (i : ℕ) :
    (S.process events).slots i = (S.slots i).map (processedAt i events) := by
  induction events generalizing S with
  | nil => exact Option.map_id'.symm
  | cons e events ih =>
    rw [SocketSet.process, List.foldl_cons, ← SocketSet.process, ih, slots_modify]
    by_cases hi : i = e.1
    · rw [if_pos hi, Option.map_map]
      congr 1
      funext item
      rw [Function.comp, processedAt, processedAt, List.foldl_cons, if_pos hi.symm]
    · rw [if_neg hi]
      congr 1
      funext item
      rw [processedAt, processedAt, List.foldl_cons, if_neg (Ne.symm hi)]

theorem uid_processedAt (i : ℕ) (events : List (ℕ × T.Event)) (item : Item T) :
    (processedAt i events item).uid = item.uid := by
  induction events generalizing item with
  | nil => rfl
  | cons e events ih =>
    rw [processedAt, List.foldl_cons, ← processedAt, ih]
    split <;> rfl

/-- A new socket goes to an empty slot. -/
theorem slots_of_add_of_some {i slot : ℕ} {x : T.Tcp ⊕ T.Udp} {h : SocketHandle} {item : Item T}
    (hadd : S.add slot x = some (h, S')) (hslot : S.slots i = some item) :
    S'.slots i = some item ∧ h.index ≠ i := by
  rw [SocketSet.add] at hadd
  split at hadd
  · next hfree =>
    simp only [Option.some.injEq, Prod.mk.injEq] at hadd
    obtain ⟨rfl, rfl⟩ := hadd
    have hne : i ≠ slot := by
      rintro rfl
      exact absurd (hfree.symm.trans hslot) (by simp)
    exact ⟨(Function.update_of_ne hne _ _).trans hslot, hne.symm⟩
  · exact absurd hadd (by simp)

theorem slots_release {k : SocketHandle} (hrel : S.release k = some S') :
    S' = S.modify k.index fun item ↦ { item with refs := item.refs - 1 } := by
  rw [SocketSet.release] at hrel
  split at hrel
  · split at hrel
    · exact absurd hrel (by simp)
    · exact (Option.some.inj hrel).symm
  · exact absurd hrel (by simp)

/-- Nobody holds the slot. -/
def Unheld (os : List Holding) (i : ℕ) : Prop := ∀ o ∈ os, o.1.index ≠ i

theorem Unheld.of_perm {i : ℕ} (h : Unheld os i) (hp : os'.Perm os) : Unheld os' i :=
  fun o ho ↦ h o (hp.mem_iff.mp ho)

/-- A change does not touch a socket that nobody holds. -/
theorem Moves.slots_of_unheld (h : Moves S os S' os') {i : ℕ} {item : Item T}
    (hslot : S.slots i = some item) (hno : Unheld os i) :
    S'.slots i = some item ∧ Unheld os' i := by
  rcases h with hp | ⟨gone, hp⟩ | ⟨hr, hadd, hp⟩ | ⟨hadd, hp⟩ | ⟨hmem, ht, hp⟩ | ⟨hp, ht, hrel⟩ |
    ⟨hp, hadd, hp'⟩
  · exact ⟨hslot, hno.of_perm hp⟩
  · exact ⟨hslot, fun o ho ↦ hno o (hp.mem_iff.mpr (List.mem_append_right gone ho))⟩
  · obtain ⟨hslot', hne⟩ := slots_of_add_of_some hadd hslot
    refine ⟨hslot', Unheld.of_perm ?_ hp⟩
    exact List.forall_mem_cons.mpr ⟨hne, hno⟩
  · exact ⟨(slots_of_add_of_some hadd hslot).1, hno.of_perm hp⟩
  · refine ⟨?_, hno.of_perm hp⟩
    rw [SocketSet.setSocket, slots_modify, if_neg (hno _ hmem).symm, hslot]
  · have hne := hno _ (hp.mem_iff.mpr List.mem_cons_self)
    refine ⟨?_, fun o ho ↦ hno o (hp.mem_iff.mpr (List.mem_cons_of_mem _ ho))⟩
    rw [slots_release hrel, slots_modify, if_neg hne.symm, SocketSet.setSocket, slots_modify,
      if_neg hne.symm, hslot]
  · obtain ⟨hslot', hne⟩ := slots_of_add_of_some hadd hslot
    have hrest := List.forall_mem_cons.mp (hno.of_perm hp.symm)
    refine ⟨hslot', Unheld.of_perm ?_ hp'⟩
    exact List.forall_mem_cons.mpr ⟨hne, List.forall_mem_cons.mpr ⟨hrest.1, hrest.2⟩⟩

/-- Every socket of `S` is still in its slot in `S'`. -/
def Stays (S S' : SocketSet T) : Prop :=
  ∀ i item, S.slots i = some item → ∃ item', S'.slots i = some item' ∧ item'.uid = item.uid

theorem Stays.refl (S : SocketSet T) : Stays S S := fun _ item hslot ↦ ⟨item, hslot, rfl⟩

theorem Stays.trans {S'' : SocketSet T} (h : Stays S S') (h' : Stays S' S'') : Stays S S'' := by
  intro i item hslot
  obtain ⟨item', hslot', huid'⟩ := h i item hslot
  obtain ⟨item'', hslot'', huid''⟩ := h' i item' hslot'
  exact ⟨item'', hslot'', huid''.trans huid'⟩

theorem Stays.modify {k : ℕ} {f : Item T → Item T} (hf : ∀ item, (f item).uid = item.uid) :
    Stays S (S.modify k f) := by
  intro i item hslot
  rw [slots_modify]
  split
  · exact ⟨f item, by rw [hslot, Option.map_some], hf item⟩
  · exact ⟨item, hslot, rfl⟩

theorem Stays.setSocket (k : SocketHandle) (x : T.Tcp ⊕ T.Udp) : Stays S (S.setSocket k x) :=
  .modify fun _ ↦ rfl

theorem Stays.release {k : SocketHandle} (hrel : S.release k = some S') : Stays S S' := by
  rw [slots_release hrel]
  exact .modify fun _ ↦ rfl

theorem Stays.add {slot : ℕ} {x : T.Tcp ⊕ T.Udp} {h : SocketHandle}
    (hadd : S.add slot x = some (h, S')) : Stays S S' :=
  fun _ item hslot ↦ ⟨item, (slots_of_add_of_some hadd hslot).1, rfl⟩

theorem Stays.process (events : List (ℕ × T.Event)) : Stays S (S.process events) := by
  intro i item hslot
  exact ⟨_, by rw [slots_process, hslot, Option.map_some], uid_processedAt i events item⟩

theorem Moves.stays (h : Moves S os S' os') : Stays S S' := by
  rcases h with hp | ⟨gone, hp⟩ | ⟨hr, hadd, hp⟩ | ⟨hadd, hp⟩ | ⟨hmem, ht, hp⟩ | ⟨hp, ht, hrel⟩ |
    ⟨hp, hadd, hp'⟩
  · exact .refl S
  · exact .refl S
  · exact .add hadd
  · exact .add hadd
  · exact .setSocket _ _
  · exact (Stays.setSocket _ _).trans (.release hrel)
  · exact .add hadd

theorem unheld_of_run {bs : List (Action T)} {i : ℕ} {item : Item T} (hs : Exclusive s)
    (hrun : run (State.step cfg B) s bs = some s') (hslot : s.sockets.slots i = some item)
    (hno : Unheld s.holdings i) :
    s'.sockets.slots i = some (processedAt i (bs.flatMap Action.events) item) ∧
      Unheld s'.holdings i := by
  induction bs generalizing s item with
  | nil =>
    obtain rfl := Option.some.inj hrun
    exact ⟨hslot, hno⟩
  | cons b bs ih =>
    obtain ⟨s₁, hstep, hrun⟩ := run_cons_eq_some.mp hrun
    have hmoves := (fits_of_step hs.counted hstep).moves
    have hpolled : (s.sockets.process b.events).slots i = some (processedAt i b.events item) := by
      rw [slots_process, hslot, Option.map_some]
    obtain ⟨hslot₁, hno₁⟩ := hmoves.slots_of_unheld hpolled hno
    obtain ⟨hslot', hno'⟩ := ih (hs.step hstep).1 hrun hslot₁ hno₁
    refine ⟨?_, hno'⟩
    rw [hslot', List.flatMap_cons, processedAt, processedAt, processedAt, List.foldl_append]

theorem stays_of_run {bs : List (Action T)} (hs : Exclusive s)
    (hrun : run (State.step cfg B) s bs = some s') : Stays s.sockets s'.sockets := by
  induction bs generalizing s with
  | nil =>
    obtain rfl := Option.some.inj hrun
    exact .refl _
  | cons b bs ih =>
    obtain ⟨s₁, hstep, hrun⟩ := run_cons_eq_some.mp hrun
    have hmoves := (fits_of_step hs.counted hstep).moves
    exact ((Stays.process b.events).trans hmoves.stays).trans (ih (hs.step hstep).1 hrun)

/-- **No socket is ever freed.** Whatever the program does, every socket stays in the set, in its
slot. One that nobody holds, because its stream or its listener has been dropped or its `bind` has
failed, is not touched again: it takes part in every poll of the interface, nobody comes to hold
it, and only the network changes it. -/
theorem sockets_stay {as bs : List (Action T)}
    (hrun : run (State.step cfg B) State.initial as = some s)
    (hrun' : run (State.step cfg B) s bs = some s') {i : ℕ} {item : Item T}
    (hslot : s.sockets.slots i = some item) :
    (∃ item', s'.sockets.slots i = some item' ∧ item'.uid = item.uid) ∧
    (Unheld s.holdings i →
      s'.sockets.slots i = some (processedAt i (bs.flatMap Action.events) item) ∧
        Unheld s'.holdings i) := by
  have hs := (exclusive_of_run hrun).1
  exact ⟨stays_of_run hs hrun' i item hslot, unheld_of_run hs hrun' hslot⟩

/-- The listener is dropped, and another one waits. The socket of the first one answers a client. -/
theorem sockets_stay_of_dropped : ∃ (s s' : State Smoltcp.ring) (item : Item Smoltcp.ring)
    (t : Smoltcp.ring.Tcp),
    run (State.step .small .ring) State.initial [bindAt 0, .drop 0] = some s ∧
    run (State.step .small .ring) s
      [bindAt 1, .accept 1 (.ok ()), pollOne [.syn client] true 2] = some s' ∧
    s.holdings = [] ∧ Unheld s'.holdings 0 ∧ s'.sockets.slots 0 = some item ∧
    item.socket = .inl t ∧ Smoltcp.ring.state t = .synReceived := by
  obtain ⟨s, s', item, t, hrun, hrun', hs, hslot, ht, hstate⟩ : ∃ (s s' : State Smoltcp.ring)
      (item : Item Smoltcp.ring) (t : Smoltcp.ring.Tcp),
      run (State.step .small .ring) State.initial [bindAt 0, .drop 0] = some s ∧
      run (State.step .small .ring) s
        [bindAt 1, .accept 1 (.ok ()), pollOne [.syn client] true 2] = some s' ∧
      s.holdings = [] ∧ s.sockets.slots 0 = some item ∧
      (processedAt 0 ([bindAt 1, .accept 1 (.ok ()), pollOne [.syn client] true 2].flatMap
        Action.events) item).socket = .inl t ∧ Smoltcp.ring.state t = .synReceived :=
    ⟨_, _, _, _, rfl, rfl, rfl, rfl, rfl, rfl⟩
  obtain ⟨hslot', hno⟩ := (sockets_stay hrun hrun' hslot).2 fun o ho ↦ absurd ho (by simp [hs])
  exact ⟨s, s', _, t, hrun, hrun', hs, hno, hslot', ht, hstate⟩

/-! ## The life of a socket -/

/-- What a number stands for: a socket that is still to be made, one in the backlog of a listener,
one of a stream or of a `connect` under way, or one that nobody holds any more. -/
inductive Life where
  | unmade
  | backlog
  | stream
  | left
  deriving DecidableEq

def Life.rank : Life → ℕ
  | unmade => 0
  | backlog => 1
  | stream => 2
  | left => 3

/-- Somebody holds the socket with the number, in a role of the kind. -/
def HeldAs (os : List Holding) (u : ℕ) (p : Role → Bool) : Prop :=
  ∃ o ∈ os, o.1.uid = u ∧ p o.2 = true

instance (os : List Holding) (u : ℕ) (p : Role → Bool) : Decidable (HeldAs os u p) :=
  inferInstanceAs (Decidable (∃ o ∈ os, _))

def life (S : SocketSet T) (os : List Holding) (u : ℕ) : Life :=
  if S.added ≤ u then .unmade
  else if HeldAs os u (· == .backlog false) then .backlog
  else if HeldAs os u fun _ ↦ true then .stream
  else .left

/-- Whoever holds an old socket has held it before, or has taken it from a backlog. -/
structure Ages (S : SocketSet T) (os : List Holding) (S' : SocketSet T) (os' : List Holding) :
    Prop where
  added_le : S.added ≤ S'.added
  held : ∀ o ∈ os', S.added ≤ o.1.uid ∨ o ∈ os ∨ (o.2 = .tcp ∧ (o.1, .backlog false) ∈ os)

theorem Ages.heldAs (h : Ages S os S' os') {u : ℕ} (hu : ¬S.added ≤ u) :
    (HeldAs os' u (· == .backlog false) → HeldAs os u (· == .backlog false)) ∧
    (HeldAs os' u (fun _ ↦ true) → HeldAs os u fun _ ↦ true) := by
  constructor
  · rintro ⟨⟨x, r⟩, ho, rfl, hr⟩
    rcases h.held _ ho with hnew | hold | ⟨rfl, -⟩
    · exact absurd hnew hu
    · exact ⟨_, hold, rfl, hr⟩
    · exact absurd hr (by simp)
  · rintro ⟨⟨x, r⟩, ho, rfl, -⟩
    rcases h.held _ ho with hnew | hold | ⟨-, hold⟩
    · exact absurd hnew hu
    · exact ⟨_, hold, rfl, rfl⟩
    · exact ⟨_, hold, rfl, rfl⟩

theorem Ages.rank_le (h : Ages S os S' os') (u : ℕ) :
    (life S os u).rank ≤ (life S' os' u).rank := by
  by_cases hu : S.added ≤ u
  · rw [life, if_pos hu]
    exact Nat.zero_le _
  obtain ⟨hbacklog, hany⟩ := h.heldAs hu
  rw [life, if_neg hu, life, if_neg fun hu' ↦ hu (h.added_le.trans hu')]
  by_cases hb : HeldAs os u (· == .backlog false)
  · rw [if_pos hb]
    split
    · exact le_rfl
    · split <;> simp [Life.rank]
  rw [if_neg hb, if_neg fun hb' ↦ hb (hbacklog hb')]
  by_cases ha : HeldAs os u fun _ ↦ true
  · rw [if_pos ha]
    split <;> simp [Life.rank]
  · rw [if_neg ha, if_neg fun ha' ↦ ha (hany ha')]

theorem Ages.of_perm (hadded : S.added ≤ S'.added) (hp : os'.Perm os) : Ages S os S' os' :=
  ⟨hadded, fun _ ho ↦ .inr (.inl (hp.mem_iff.mp ho))⟩

/-- The number of the new socket has not been given out before. -/
theorem Ages.add {slot : ℕ} {x : T.Tcp ⊕ T.Udp} {h : SocketHandle} {rest : List Holding}
    {r : Role} (hadd : S.add slot x = some (h, S')) (hp : os'.Perm ((h, r) :: rest))
    (hrest : ∀ o ∈ rest, o ∈ os ∨ (o.2 = .tcp ∧ (o.1, .backlog false) ∈ os)) :
    Ages S os S' os' := by
  obtain ⟨rfl, hadded⟩ := add_eq_some hadd
  refine ⟨hadded ▸ Nat.le_succ _, fun o ho ↦ ?_⟩
  rcases List.mem_cons.mp (hp.mem_iff.mp ho) with rfl | ho
  · exact .inl le_rfl
  · exact .inr (hrest o ho)

theorem Moves.ages (h : Moves S os S' os') : Ages S os S' os' := by
  rcases h with hp | ⟨gone, hp⟩ | ⟨hr, hadd, hp⟩ | ⟨hadd, hp⟩ | ⟨hmem, ht, hp⟩ | ⟨hp, ht, hrel⟩ |
    ⟨hp, hadd, hp'⟩
  · exact .of_perm le_rfl hp
  · exact ⟨le_rfl, fun o ho ↦ .inr (.inl (hp.mem_iff.mpr (List.mem_append_right gone ho)))⟩
  · exact .add hadd hp fun o ho ↦ .inl ho
  · exact .of_perm ((add_eq_some hadd).2 ▸ Nat.le_succ _) hp
  · exact .of_perm le_rfl hp
  · rw [slots_release hrel]
    exact ⟨le_rfl, fun o ho ↦ .inr (.inl (hp.mem_iff.mpr (List.mem_cons_of_mem _ ho)))⟩
  · refine .add hadd hp' fun o ho ↦ ?_
    rcases List.mem_cons.mp ho with rfl | ho
    · exact .inr ⟨rfl, hp.mem_iff.mpr List.mem_cons_self⟩
    · exact .inl (hp.mem_iff.mpr (List.mem_cons_of_mem _ ho))

/-- **Sockets are handed on in one direction**: from a backlog to a stream, and from there to
nobody. So no socket is returned by two calls of `accept`, or by one of `accept` and one of
`connect`, and a stream that has been dropped does not come back. -/
theorem life_rank_le {as bs : List (Action T)}
    (hrun : run (State.step cfg B) State.initial as = some s)
    (hrun' : run (State.step cfg B) s bs = some s') (u : ℕ) :
    (life s.sockets s.holdings u).rank ≤ (life s'.sockets s'.holdings u).rank := by
  have hs := (exclusive_of_run hrun).1
  clear hrun
  induction bs generalizing s with
  | nil =>
    obtain rfl := Option.some.inj hrun'
    exact le_rfl
  | cons b bs ih =>
    obtain ⟨s₁, hstep, hrun'⟩ := run_cons_eq_some.mp hrun'
    have hmoves := (fits_of_step hs.counted hstep).moves
    have hpolled : life (s.sockets.process b.events) s.holdings u =
        life s.sockets s.holdings u := by
      rw [life, added_process, life]
    calc (life s.sockets s.holdings u).rank
        = (life (s.sockets.process b.events) s.holdings u).rank := by rw [hpolled]
      _ ≤ (life s₁.sockets s₁.holdings u).rank := hmoves.ages.rank_le u
      _ ≤ (life s'.sockets s'.holdings u).rank := ih hrun' (hs.step hstep).1

/-- The stream is dropped. -/
theorem life_rank_le_acceptOne : ∃ s s' : State Smoltcp.ring,
    run (State.step .small .ring) State.initial acceptOne = some s ∧
    run (State.step .small .ring) s [.drop 1] = some s' ∧
    life s.sockets s.holdings 0 = .stream ∧ life s'.sockets s'.holdings 0 = .left ∧
    (life s.sockets s.holdings 1).rank ≤ (life s'.sockets s'.holdings 1).rank := by
  obtain ⟨s, s', hrun, hrun', hbefore, hafter⟩ : ∃ s s' : State Smoltcp.ring,
      run (State.step .small .ring) State.initial acceptOne = some s ∧
      run (State.step .small .ring) s [.drop 1] = some s' ∧
      life s.sockets s.holdings 0 = .stream ∧ life s'.sockets s'.holdings 0 = .left :=
    ⟨_, _, rfl, rfl, rfl, rfl⟩
  exact ⟨s, s', hrun, hrun', hbefore, hafter, life_rank_le hrun hrun' 1⟩

/-! ## Listeners -/

/-- An object stays as it is, or is dropped, or it is a listener that accepts a connection. -/
theorem Rearranges.get {objects objects' : List Object} (h : Rearranges S objects objects')
    {i : ℕ} {o : Object} (hi : objects[i]? = some o) :
    objects'[i]? = some o ∨ objects'[i]? = some .gone ∨
      ∃ (l : StcpListener) (hs : List SocketHandle) (x : SocketHandle) (t : T.Tcp),
        o = .listener l ∧ l.listenHandles = some hs ∧ x ∈ hs ∧ S.getTcp x = some t ∧
        T.acceptable t := by
  have hlt := (List.getElem?_eq_some_iff.mp hi).1
  rcases h with _ | ⟨o', -⟩ | j | @⟨j, k, l, hs, x, x', t, hj, hl, hk, ht, hacc⟩
  · exact .inl hi
  · exact .inl ((List.getElem?_append_left hlt).trans hi)
  · rcases eq_or_ne j i with rfl | hne
    · exact .inr (.inl (List.getElem?_set_self hlt))
    · exact .inl ((List.getElem?_set_ne hne).trans hi)
  · rcases eq_or_ne j i with rfl | hne
    · obtain rfl := Option.some.inj (hi.symm.trans hj)
      exact .inr (.inr ⟨l, hs, x, t, rfl, hl, List.mem_of_getElem? hk, ht, hacc⟩)
    · rw [List.getElem?_append_left (by rwa [List.length_set]), List.getElem?_set_ne hne]
      exact .inl hi

/-- A listener of the stack has one socket in its backlog. -/
def OneHandle (objects : List Object) : Prop :=
  ∀ l, .listener l ∈ objects → l.listenHandles = none ∨ ∃ h, l.listenHandles = some [h]

theorem Rearranges.oneHandle {objects objects' : List Object} (h : Rearranges S objects objects')
    (hone : OneHandle objects) : OneHandle objects' := by
  intro l hl
  rcases h with _ | ⟨o, ho⟩ | j | @⟨j, k, l₀, hs, x, x', t, hj, hl₀, hk, -, -⟩
  · exact hone l hl
  · rcases List.mem_append.mp hl with hl | hl
    · exact hone l hl
    · exact ho l (List.mem_singleton.mp hl).symm
  · rcases List.mem_or_eq_of_mem_set hl with hl | hl
    · exact hone l hl
    · exact absurd hl (by simp)
  · rcases List.mem_append.mp hl with hl | hl
    · rcases List.mem_or_eq_of_mem_set hl with hl | hl
      · exact hone l hl
      · -- the socket that is taken is the only one
        obtain rfl := Object.listener.inj hl
        obtain hnone | ⟨y, hy⟩ := hone l₀ (List.mem_of_getElem? hj)
        · exact absurd (hl₀.symm.trans hnone) (by simp)
        · obtain rfl : hs = [y] := Option.some.inj (hl₀.symm.trans hy)
          obtain rfl : k = 0 := by
            have hlt := (List.getElem?_eq_some_iff.mp hk).1
            simpa using hlt
          exact .inr ⟨x', rfl⟩
    · exact absurd (List.mem_singleton.mp hl) (by simp)

theorem oneHandle_of_run {as : List (Action T)}
    (hrun : run (State.step cfg B) State.initial as = some s) : OneHandle s.objects :=
  (invariant_of_run (I := fun s : State T ↦ Exclusive s ∧ OneHandle s.objects)
    (fun _ _ _ hs h ↦ ⟨(hs.1.step h).1, (fits_of_step hs.1.counted h).objects.oneHandle hs.2⟩)
    ⟨exclusive_initial, fun _ hl ↦ absurd hl List.not_mem_nil⟩ hrun).2

/-- The socket of a backlog is touched by nobody but the network. -/
theorem Moves.slots_of_backlog (h : Moves S os S' os') (hs : Counted S os) {x : SocketHandle}
    {b : Bool} (hx : (x, .backlog b) ∈ os) {item : Item T}
    (hslot : S.slots x.index = some item) : S'.slots x.index = some item := by
  rcases h with hp | ⟨gone, hp⟩ | ⟨hr, hadd, hp⟩ | ⟨hadd, hp⟩ | ⟨hmem, ht, hp⟩ | ⟨hp, ht, hrel⟩ |
    ⟨hp, hadd, hp'⟩
  · exact hslot
  · exact hslot
  · exact (slots_of_add_of_some hadd hslot).1
  · exact (slots_of_add_of_some hadd hslot).1
  · have hne := hs.not_backlog hmem (by simp) hx
    rw [SocketSet.setSocket, slots_modify, if_neg hne, hslot]
  · have hne := hs.not_backlog (hp.mem_iff.mpr List.mem_cons_self) (by simp) hx
    rw [slots_release hrel, slots_modify, if_neg hne, SocketSet.setSocket, slots_modify,
      if_neg hne, hslot]
  · exact (slots_of_add_of_some hadd hslot).1

/-- A connection that has ended in a backlog: it has been reset, or the peer has closed it and has
left nothing to read. -/
def Ended (t : T.Tcp) : Prop :=
  T.state t = .closed ∨ (T.state t = .closeWait ∧ T.rxLen t = 0)

theorem Ended.not_acceptable {t : T.Tcp} (h : Ended t) : ¬T.acceptable t := by
  rw [T.acceptable_iff]
  rcases h with h | ⟨h, hrx⟩ <;> simp [*]

/-- A closed socket ignores what arrives, and a peer sends nothing behind its `FIN`. -/
def StaysEnded (T : Smoltcp) : Prop :=
  ∀ (e : T.Event) (t : T.Tcp), Ended t → Ended (T.process e t)

theorem ended_processedAt (hT : StaysEnded T) (i : ℕ) (events : List (ℕ × T.Event))
    {item : Item T} {t : T.Tcp} (ht : item.socket = .inl t) (hended : Ended t) :
    ∃ t', (processedAt i events item).socket = .inl t' ∧ Ended t' := by
  induction events generalizing item t with
  | nil => exact ⟨t, ht, hended⟩
  | cons e events ih =>
    rw [processedAt, List.foldl_cons, ← processedAt]
    split
    · exact ih (by simp only [processItem, ht]) (hT e.2 t hended)
    · exact ih ht hended

/-- The listener is as it was, and its connections have ended. -/
structure Deaf (i : ℕ) (l : StcpListener) (s : State T) : Prop where
  listener : s.objects[i]? = some (.listener l)
  ended : ∀ hs, l.listenHandles = some hs → ∀ h ∈ hs, ∃ item t,
    s.sockets.slots h.index = some item ∧ item.socket = .inl t ∧ Ended t

theorem Deaf.step (hT : StaysEnded T) {i : ℕ} {l : StcpListener} (hs : Exclusive s)
    (hd : Deaf i l s) (h : s.step cfg B a = some s') :
    Deaf i l s' ∨ s'.objects[i]? = some .gone := by
  obtain ⟨-, hmoves, hobjects⟩ := fits_of_step hs.counted h
  have hpolled : ∀ hs, l.listenHandles = some hs → ∀ h ∈ hs, ∃ item t,
      (s.processed a.events).sockets.slots h.index = some item ∧ item.socket = .inl t ∧
        Ended t := by
    intro hs hl x hx
    obtain ⟨item, t, hslot, ht, hended⟩ := hd.ended hs hl x hx
    obtain ⟨t', ht', hended'⟩ := ended_processedAt hT x.index a.events ht hended
    exact ⟨_, t', by rw [State.processed, slots_process, hslot, Option.map_some], ht', hended'⟩
  rcases hobjects.get hd.listener with hi | hi | ⟨l', hs', x, t, he, hl, hx, ht, hacc⟩
  · refine .inl ⟨hi, fun hs' hl x hx ↦ ?_⟩
    obtain ⟨item, t, hslot, ht, hended⟩ := hpolled hs' hl x hx
    have hheld : (x, .backlog false) ∈ s.holdings := by
      refine List.mem_append_right _ (holdings_of_getElem hd.listener ?_)
      rw [Object.holdings, hl]
      exact List.mem_map_of_mem hx
    exact ⟨item, t, hmoves.slots_of_backlog (hs.counted.process a.events) hheld hslot, ht, hended⟩
  · exact .inr hi
  · -- a connection that has ended is not accepted
    obtain rfl := Object.listener.inj he
    obtain ⟨item, t', hslot, ht', hended⟩ := hpolled hs' hl x hx
    obtain rfl := Option.some.inj (ht.symm.trans (getTcp_of_slots hslot ht'))
    exact absurd hacc hended.not_acceptable

theorem gone_of_step {i : ℕ} (hs : Exclusive s) (hi : s.objects[i]? = some .gone)
    (h : s.step cfg B a = some s') : s'.objects[i]? = some .gone := by
  rcases (fits_of_step hs.counted h).objects.get hi with hi | hi | ⟨l, hs', x, t, he, -⟩
  · exact hi
  · exact hi
  · exact absurd he (by simp)

/-- **One short-lived client makes a listener deaf.** A listener of the stack has one socket in its
backlog. When the connection of that socket has been reset before it was accepted, or closed without
any data, no call of `accept` returns a connection of the stack again: until it is dropped the
listener keeps this socket, whatever the program does and whoever tries to connect. -/
theorem listener_deaf (hT : StaysEnded T) {as bs : List (Action T)}
    (hrun : run (State.step cfg B) State.initial as = some s)
    (hrun' : run (State.step cfg B) s bs = some s') {i : ℕ} {l : StcpListener}
    {hs : List SocketHandle} (hi : s.objects[i]? = some (.listener l))
    (hl : l.listenHandles = some hs) :
    ∃ h t, hs = [h] ∧ s.sockets.getTcp h = some t ∧
      (Ended t → s'.objects[i]? = some (.listener l) ∨ s'.objects[i]? = some .gone) := by
  have hexcl := (exclusive_of_run hrun).1
  obtain hnone | ⟨x, hx⟩ := oneHandle_of_run hrun l (List.mem_of_getElem? hi)
  · exact absurd (hl.symm.trans hnone) (by simp)
  obtain rfl : hs = [x] := Option.some.inj (hl.symm.trans hx)
  have hheld : (x, .backlog false) ∈ s.holdings := by
    refine List.mem_append_right _ (holdings_of_getElem hi ?_)
    rw [Object.holdings, hl]
    exact List.mem_cons_self
  obtain ⟨t, ht⟩ := hexcl.counted.getTcp_isSome hheld rfl
  obtain ⟨item, hslot, hsocket⟩ := getTcp_eq_some ht
  refine ⟨x, t, rfl, ht, fun hended ↦ ?_⟩
  have hdeaf : Deaf i l s := by
    refine ⟨hi, fun hs' hl' y hy ↦ ?_⟩
    obtain rfl : hs' = [x] := Option.some.inj (hl'.symm.trans hx)
    obtain rfl := List.mem_singleton.mp hy
    exact ⟨item, t, hslot, hsocket, hended⟩
  obtain ⟨-, hend⟩ := invariant_of_run
    (I := fun s : State T ↦ Exclusive s ∧ (Deaf i l s ∨ s.objects[i]? = some .gone))
    (fun _ _ _ hs h ↦ ⟨(hs.1.step h).1, hs.2.elim (fun hd ↦ hd.step hT hs.1 h)
      fun hi ↦ .inr (gone_of_step hs.1 hi h)⟩) ⟨hexcl, .inl hdeaf⟩ hrun'
  exact hend.imp_left Deaf.listener

theorem staysEnded_ring : StaysEnded Smoltcp.ring := by
  rintro e ⟨⟨state, rxLen, due, remote⟩, rx, tx⟩ h
  rcases e with e | bytes | n
  · rcases h with h | ⟨h, hrx⟩ <;> obtain rfl : state = _ := h
    · exact .inl (by rcases e with _ | _ | _ | _ | _ | _ <;> rfl)
    · rcases e with _ | _ | _ | _ | _ | _
      all_goals first
        | exact .inr ⟨rfl, hrx⟩
        | exact .inl rfl
  · rcases h with h | ⟨h, hrx⟩ <;> obtain rfl : state = _ := h
    · exact .inl rfl
    · exact .inr ⟨rfl, hrx⟩
  · exact h

/-- A client connects and resets the connection before `accept` is called, and then another one
tries. -/
theorem listener_deaf_of_rst : ∃ (s s' : State Smoltcp.ring) (l : StcpListener),
    run (State.step .small .ring) State.initial
      [bindAt 0, .accept 0 (.ok ()), pollOne [.syn client, .ack, .rst] true 1] = some s ∧
    run (State.step .small .ring) s [pollOne [.syn client, .ack] true 1] = some s' ∧
    l.listenHandles = some [⟨0, 0⟩] ∧
    (s'.objects[0]? = some (.listener l) ∨ s'.objects[0]? = some .gone) := by
  obtain ⟨s, s', l, hrun, hrun', hi, hl, hstate⟩ : ∃ (s s' : State Smoltcp.ring)
      (l : StcpListener),
      run (State.step .small .ring) State.initial
        [bindAt 0, .accept 0 (.ok ()), pollOne [.syn client, .ack, .rst] true 1] = some s ∧
      run (State.step .small .ring) s [pollOne [.syn client, .ack] true 1] = some s' ∧
      s.objects[0]? = some (.listener l) ∧ l.listenHandles = some [⟨0, 0⟩] ∧
      (s.sockets.getTcp ⟨0, 0⟩).map Smoltcp.ring.state = some .closed :=
    ⟨_, _, _, rfl, rfl, rfl, rfl, rfl⟩
  obtain ⟨h, t, hh, ht, hdeaf⟩ := listener_deaf staysEnded_ring hrun hrun' hi hl
  obtain rfl : ⟨0, 0⟩ = h := List.singleton_inj.mp hh
  rw [ht] at hstate
  exact ⟨s, s', l, hrun, hrun', hl, hdeaf (.inl (Option.some.inj hstate))⟩

/-! ## Calls that wait -/

/-- What the call waits for has not happened. The first `poll_wait` of `accept` does not wait. -/
def Awaits (s : State T) : Prop :=
  match s.phase with
  | .connecting h => ∀ t, s.sockets.getTcp h = some t → ¬T.acceptable t
  | .accepting i false _ => ∀ l h t, s.objects[i]? = some (.listener l) →
      h ∈ l.listenHandles.getD [] → s.sockets.getTcp h = some t → ¬T.acceptable t
  | _ => True

/-- `poll` of the interface returns `true` when a connection is ready that was not ready before. -/
def ReportsReadiness (s : State T) (a : Action T) : Prop :=
  ∀ p lo slot, a = .poll p lo slot → p.result = .ok false → ∀ h t',
    (s.sockets.process p.events).getTcp h = some t' → T.acceptable t' →
    ∃ t, s.sockets.getTcp h = some t ∧ T.acceptable t

theorem scanHandles_eq_none {hs : List SocketHandle}
    (h : UsnetSockets.State.scanHandles S hs = some none) {x : SocketHandle} (hx : x ∈ hs)
    {t : T.Tcp} (ht : S.getTcp x = some t) : ¬T.acceptable t := by
  induction hs with
  | nil => exact absurd hx List.not_mem_nil
  | cons y hs ih =>
    rw [UsnetSockets.State.scanHandles] at h
    split at h
    · exact absurd h (by simp)
    · next t' ht' =>
      split at h
      · exact absurd h (by simp)
      · next hacc =>
        rcases List.mem_cons.mp hx with rfl | hx
        · rwa [← Option.some.inj (ht'.symm.trans ht)]
        · refine ih ?_ hx
          split at h
          · exact absurd h (by simp)
          · exact h

/-- A pass that goes on waiting has seen no change. -/
theorem result_of_again {p : WaitPass T} {waitingPoll once asked : Bool}
    (h : p.passEnd waitingPoll once asked = .again) : p.result = .ok false ∧ once = false := by
  rw [WaitPass.passEnd] at h
  rcases hresult : p.result with u | r
  · simp [hresult] at h
  · rcases r with _ | _ <;> rcases once with _ | _ <;> simp_all

theorem awaits_of_phase (h : ∀ x, s.phase ≠ .connecting x) (h' : ∀ i asked,
    s.phase ≠ .accepting i false asked) : Awaits s := by
  rw [Awaits]
  split
  · next x hx => exact absurd hx (h x)
  · next i asked hi => exact absurd hi (h' i asked)
  · trivial

theorem Awaits.of_idle (h : s.phase = .idle) : Awaits s :=
  awaits_of_phase (by simp [h]) (by simp [h])

theorem Awaits.of_panicked (h : s.phase = .panicked) : Awaits s :=
  awaits_of_phase (by simp [h]) (by simp [h])

/-- A socket that has sent its `SYN` is not connected yet. -/
theorem awaits_connect {k : ConnectCall} {slot : ℕ} (hidle : s.phase = .idle)
    (h : s.connect cfg k slot = some s') : Awaits s' := by
  rw [State.connect] at h
  split at h
  · split at h <;> obtain rfl := Option.some.inj h <;> exact .of_idle hidle
  · split at h
    · exact absurd h (by simp)
    · dsimp only at h
      split at h
      · exact absurd h (by simp)
      · next x S hadd =>
        split at h
        · obtain rfl := Option.some.inj h
          exact .of_panicked rfl
        · next t ht =>
          obtain rfl := Option.some.inj h
          intro t' ht'
          obtain rfl := Option.some.inj
            ((UsnetSockets.State.getTcp_add (add_setSocket hadd (.inl t))).symm.trans ht')
          rw [T.acceptable_iff, T.state_connect _ _ _ _ ht]
          simp

theorem awaits_accept {i : ℕ} {lo : Except IoError Unit} (hidle : s.phase = .idle)
    (h : s.accept i lo = some s') : Awaits s' := by
  unfold State.accept at h
  split at h
  · split at h
    · split at h <;> obtain rfl := Option.some.inj h <;> exact .of_idle hidle
    · obtain rfl := Option.some.inj h
      exact awaits_of_phase (by simp) (by simp)
  · exact absurd h (by simp)

/-- A call on a stream leaves no call of another kind waiting. -/
theorem awaits_streamPass {i : ℕ} {c : StreamCall} (hphase : Awaits s)
    (h : s.streamPass B i c = some s') : Awaits s' := by
  rw [State.streamPass] at h
  split at h
  · split at h
    · obtain rfl := Option.some.inj h
      exact .of_panicked rfl
    · split at h
      · obtain rfl := Option.some.inj h
        exact .of_panicked rfl
      · next t' next hpass =>
        obtain rfl := Option.some.inj h
        rcases next with _ | c' <;> exact awaits_of_phase (by simp) (by simp)
  · obtain rfl := Option.some.inj h
    exact hphase
  · exact absurd h (by simp)

theorem awaits_call (hidle : s.phase = .idle) (h : s.call cfg B a = some s') : Awaits s' := by
  have hs : Awaits s := .of_idle hidle
  cases a with
  | bind b slot =>
    rw [State.call, State.bind] at h
    split at h
    · exact absurd h (by simp)
    all_goals
      obtain rfl := Option.some.inj h
      exact .of_idle hidle
  | connect k slot => exact awaits_connect hidle h
  | accept i lo => exact awaits_accept hidle h
  | read i buf => exact awaits_streamPass hs h
  | write i buf => exact awaits_streamPass hs h
  | readNoCopy i f => exact awaits_streamPass hs h
  | writeNoCopy i f => exact awaits_streamPass hs h
  | drop i =>
    rw [State.call] at h
    unfold State.drop at h
    split at h
    · split at h
      · obtain rfl := Option.some.inj h
        exact .of_panicked rfl
      · split at h
        · obtain rfl := Option.some.inj h
          exact .of_panicked rfl
        · obtain rfl := Option.some.inj h
          exact .of_idle hidle
    · obtain rfl := Option.some.inj h
      exact .of_idle hidle
    · obtain rfl := Option.some.inj h
      exact .of_idle hidle
    · exact absurd h (by simp)
  | poll p lo slot => exact absurd h (by simp [State.call])

theorem awaits_connectCheck {x : SocketHandle} : Awaits (s.connectCheck x) := by
  rw [State.connectCheck]
  split
  · exact .of_panicked rfl
  · next t ht =>
    split
    · next hlook =>
      intro t' ht'
      obtain rfl := Option.some.inj (ht.symm.trans ht')
      simpa [connectLook, Smoltcp.acceptable] using hlook
    · exact .of_idle rfl

theorem awaits_acceptCheck {i slot : ℕ} {lo : Option Bool}
    (h : s.acceptCheck cfg i lo slot = some s') : Awaits s' := by
  rw [State.acceptCheck] at h
  split at h
  · next l hi =>
    split at h
    · obtain rfl := Option.some.inj h
      exact .of_idle rfl
    · obtain rfl := Option.some.inj h
      exact .of_panicked rfl
    · dsimp only at h
      split at h
      · obtain rfl := Option.some.inj h
        exact .of_panicked rfl
      · next hscan =>
        obtain rfl := Option.some.inj h
        intro l' x t hl' hx ht
        obtain rfl := Object.listener.inj (Option.some.inj (hi.symm.trans hl'))
        exact scanHandles_eq_none hscan hx ht
      · rw [State.acceptReplace] at h
        split at h
        · obtain rfl := Option.some.inj h
          exact .of_panicked rfl
        · split at h
          · exact absurd h (by simp)
          · obtain rfl := Option.some.inj h
            exact .of_idle rfl
  · exact absurd h (by simp)

/-- A pass that goes on waiting has found nothing new. -/
theorem Awaits.poll {p : WaitPass T} {lo : Option Bool} {slot : ℕ} (hs : Awaits s)
    (hp : ReportsReadiness s (.poll p lo slot)) (h : s.poll cfg B p lo slot = some s') :
    Awaits s' := by
  rw [State.poll] at h
  dsimp only at h
  split at h
  · next x hphase =>
    split at h <;> obtain rfl := Option.some.inj h
    · exact awaits_connectCheck
    · next hend =>
      rw [Awaits, hphase] at hs ⊢
      intro t' ht' hacc
      obtain ⟨t, ht, hacc⟩ := hp p lo slot rfl (result_of_again hend).1 x t' ht' hacc
      exact hs t ht hacc
    · exact .of_panicked rfl
  · next i first asked hphase =>
    split at h
    · exact awaits_acceptCheck h
    · next hend =>
      obtain rfl := Option.some.inj h
      obtain ⟨hresult, rfl⟩ := result_of_again hend
      rw [Awaits, hphase] at hs
      intro l y t' hl hy ht' hacc
      obtain ⟨t, ht, hacc⟩ := hp p lo slot rfl hresult y t' ht' hacc
      exact hs l y t hl hy ht hacc
    · obtain rfl := Option.some.inj h
      exact .of_panicked rfl
  · next i c hphase =>
    split at h
    · exact awaits_streamPass (awaits_of_phase (by simp [hphase]) (by simp [hphase])) h
    · obtain rfl := Option.some.inj h
      exact awaits_of_phase (by simp [hphase]) (by simp [hphase])
    · obtain rfl := Option.some.inj h
      exact .of_panicked rfl
  · exact absurd h (by simp)
  · exact absurd h (by simp)

theorem Awaits.step (hs : Awaits s) (ha : ReportsReadiness s a)
    (h : s.step cfg B a = some s') : Awaits s' := by
  obtain ⟨p, lo, slot, rfl, h⟩ | ⟨hidle, -, h⟩ := step_cases h
  · exact hs.poll ha h
  · exact awaits_call hidle h

/-- **No call sleeps past a connection.** In every run in which the polls of the interface report
that a connection has become ready, a call of `connect` that waits has a socket that is not
connected, and a call of `accept` that waits has none in its backlog that can be accepted. -/
theorem calls_await {as : List (Action T)}
    (hrun : run (State.step cfg B) State.initial as = some s)
    (hpolls : Along (State.step cfg B) ReportsReadiness State.initial as) :
    (∀ h t, s.phase = .connecting h → s.sockets.getTcp h = some t → ¬T.acceptable t) ∧
    ∀ i asked l h t, s.phase = .accepting i false asked →
      s.objects[i]? = some (.listener l) → h ∈ l.listenHandles.getD [] →
      s.sockets.getTcp h = some t → ¬T.acceptable t := by
  have hs : Awaits s := invariant_of_along (fun _ _ _ hs ha h ↦ Awaits.step hs ha h)
    (.of_idle rfl) hpolls hrun
  refine ⟨fun h t hphase ↦ ?_, fun i asked l h t hphase ↦ ?_⟩
  · rw [Awaits, hphase] at hs
    exact hs t
  · rw [Awaits, hphase] at hs
    exact hs l h t

/-- The call of `accept` has seen the `SYN` of a client, and waits for its acknowledgement. -/
theorem calls_await_syn : ∃ (s : State Smoltcp.ring) (l : StcpListener) (t : Smoltcp.ring.Tcp),
    run (State.step .small .ring) State.initial
      [bindAt 0, .accept 0 (.ok ()), pollOne [.syn client] true 1, pollOne [] false 1] = some s ∧
    s.phase = .accepting 0 false true ∧ s.objects[0]? = some (.listener l) ∧
    l.listenHandles = some [⟨0, 0⟩] ∧ s.sockets.getTcp ⟨0, 0⟩ = some t ∧
    ¬Smoltcp.ring.acceptable t := by
  have hpolls : Along (State.step .small .ring) ReportsReadiness State.initial
      [bindAt 0, .accept 0 (.ok ()), pollOne [.syn client] true 1, pollOne [] false 1] := by
    refine (along_cons_of_step rfl).mpr ⟨fun p lo slot h ↦ absurd h (by simp [bindAt]), ?_⟩
    refine (along_cons_of_step rfl).mpr ⟨fun p lo slot h ↦ absurd h (by simp), ?_⟩
    refine (along_cons_of_step rfl).mpr ⟨?_, (along_cons_of_step rfl).mpr ⟨?_, trivial⟩⟩
    · rintro p lo slot ⟨⟩ hresult
      exact absurd hresult (by simp)
    · -- nothing has come
      rintro p lo slot ⟨⟩ - h t ht hacc
      exact ⟨t, ht, hacc⟩
  obtain ⟨s, l, t, hrun, hphase, hi, hl, ht⟩ : ∃ (s : State Smoltcp.ring) (l : StcpListener)
      (t : Smoltcp.ring.Tcp), run (State.step .small .ring) State.initial
        [bindAt 0, .accept 0 (.ok ()), pollOne [.syn client] true 1, pollOne [] false 1] =
          some s ∧
      s.phase = .accepting 0 false true ∧ s.objects[0]? = some (.listener l) ∧
      l.listenHandles = some [⟨0, 0⟩] ∧ s.sockets.getTcp ⟨0, 0⟩ = some t :=
    ⟨_, _, _, rfl, rfl, rfl, rfl, rfl⟩
  exact ⟨s, l, t, hrun, hphase, hi, hl, ht, (calls_await hrun hpolls).2 0 true l ⟨0, 0⟩ t hphase hi
    (by simp [hl]) ht⟩

end SingleThread

end UsnetSockets
