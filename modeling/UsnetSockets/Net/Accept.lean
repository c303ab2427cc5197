import UsnetSockets.Net.Ownership
import UsnetSockets.Net.Sleep

/-!
# The backlog of a listener

A listener has a number of sockets that listen, and `accept` takes the first with a connection and
puts a new one in its place. Nobody else touches these sockets, so that between two calls their
states change only with what arrives from the network. Two things can go wrong. A blocking `accept`
waits before it looks at its sockets; if there is a connection already, nothing need wake it up. And
a connection that the peer resets, or closes without having sent anything, before `accept` sees it,
leaves a socket that `accept` never takes and so never replaces.

Both are about a property of the sockets in the backlogs, which `Kept.step` keeps together with the
reference counts.
-/

namespace UsnetSockets

/-! ## When the background thread is bound to poll the interface -/

namespace Wake

variable {cfg : Config} {w w' : Wake}

/-- The background thread does not wait without end before its next `StcpNet::poll`, and so before
its next `notify_all`. -/
structure BoundToPoll (cfg : Config) (w : Wake) : Prop where
  first : w.pc = .first → cfg.waitingPoll = true → w.flag = .skip
  polling : w.pc = .polling → 0 < w.notifications ∨ 0 ≤ w.delay

theorem flag_wake_of_skip (h : w.flag = .skip) (kind : StcpNet.WakeKind) :
    (w.wake cfg kind).flag = .skip := by
  cases kind <;> simp [wake, h]

/-- Only the poll itself ends this. -/
theorem BoundToPoll.step (h : w.BoundToPoll cfg) (hpc : ¬(w.pc = .second ∧ w'.pc = .first))
    (hstep : Step cfg w w') : w'.BoundToPoll cfg := by
  cases hstep with
  | app kind c =>
    refine ⟨fun hp hw ↦ flag_wake_of_skip (h.first (by simpa using hp) hw) kind, fun hp ↦ ?_⟩
    rw [show ({ w.wake cfg kind with closing := w.closing || c } : Wake).delay = w.delay from
      delay_wake kind]
    exact (h.polling (by simpa using hp)).imp_left (·.trans_le (notifications_le_wake kind))
  | first hfirst delay =>
    have hskip : (cfg.waitingPoll && !(w.flag == .skip)) = false := by
      cases hw : cfg.waitingPoll with
      | false => rfl
      | true => simp [h.first hfirst hw]
    exact ⟨fun hp ↦ by simp [Wake.first, hskip] at hp, fun hp ↦ by simp [Wake.first, hskip] at hp⟩
  | poll hp => exact ⟨fun hp ↦ absurd hp (by simp), fun hp ↦ absurd hp (by simp)⟩
  | second hp => exact absurd ⟨hp, rfl⟩ hpc
  | panic flag => exact ⟨fun hp ↦ absurd hp (by simp), fun hp ↦ absurd hp (by simp)⟩

end Wake

namespace State

open Transition SocketSet

variable {T : Smoltcp} {cfg : Config} {s s' : State T} {a : Action T}

theorem not_boundToPoll_of_waitsForEver (h : WaitsForEver s) : ¬s.wake.BoundToPoll cfg := by
  obtain ⟨⟨hpc, hn⟩, hdelay⟩ := h
  intro hb
  rcases hb.polling hpc with hpos | hnonneg
  · exact absurd hn hpos.ne'
  · exact absurd hdelay (not_lt.mpr hnonneg)

/-! ## A call of `accept` that sleeps -/

/-- The states of a connection that can be accepted. -/
def Acceptable (st : TcpState) (n : ℕ) : Prop := st = .established ∨ st = .closeWait ∧ 0 < n

/-- A connection of the listener can be accepted. -/
def Ready (s : State T) (l : StcpListener) : Prop :=
  ∃ h ∈ l.listenHandles.getD [], ∃ t, s.net.sockets.getTcp h = some t ∧ T.acceptable t

/-- A socket that a sleeping `accept` waits for cannot be accepted, unless the background thread is
`bound` to wake the call. -/
def Unready (bound : Prop) (waiting : Bool) (st : TcpState) (n : ℕ) : Prop :=
  waiting = true → ¬bound → ¬Acceptable st n

theorem stable_unready (bound : Prop) : Stable (Unready bound) where
  listen b n := by simp [Unready, Acceptable]
  woken st n _ := by simp [Unready]

/-- The handles of a backlog are held by its listener. -/
theorem backlog_mem_holdings {o : Object} {h : SocketHandle} {b : Bool}
    (hk : (h, .backlog b) ∈ holdings o) :
    ∃ l, o = .listener l ∧ h ∈ l.listenHandles.getD [] ∧ b = decide (l.phase = .waiting) := by
  cases o with
  | listener l => exact ⟨l, rfl, by simp_all [holdings], by simp_all [holdings]⟩
  | stream x => simp [holdings] at hk
  | udp u => simp [holdings] at hk
  | connecting k => simp [holdings] at hk
  | gone => simp [holdings] at hk

/-- Once the threads have been woken up, none sleeps, and the backlogs are as before. -/
theorem wakeAccept_eq_listener {o : Object} {l' : StcpListener}
    (h : wakeAccept o = .listener l') :
    ∃ l, o = .listener l ∧ l'.listenHandles = l.listenHandles ∧ l'.phase ≠ .waiting := by
  cases o with
  | listener l =>
    refine ⟨l, rfl, ?_⟩
    obtain rfl := Object.listener.inj h
    split
    · exact ⟨rfl, by simp⟩
    · rename_i hno
      exact ⟨rfl, hno⟩
  | stream x => exact absurd h (by simp [wakeAccept])
  | udp u => exact absurd h (by simp [wakeAccept])
  | connecting k => exact absurd h (by simp [wakeAccept])
  | gone => exact absurd h (by simp [wakeAccept])

/-- What the listeners hold when the threads have just been woken up. -/
theorem backlog_mem_wakeAccept {objects : List Object} {h : SocketHandle} {b : Bool}
    (hk : (h, .backlog b) ∈ (objects.map wakeAccept).flatMap holdings) :
    b = false ∧ ∃ l, .listener l ∈ objects ∧ h ∈ l.listenHandles.getD [] := by
  rw [List.flatMap_map] at hk
  obtain ⟨o, hmem, ho⟩ := List.mem_flatMap.mp hk
  obtain ⟨l', he, hh, rfl⟩ := backlog_mem_holdings ho
  obtain ⟨l, rfl, hhandles, hphase⟩ := wakeAccept_eq_listener he
  exact ⟨by simp [hphase], l, hmem, hhandles ▸ hh⟩

/-- A call of `accept` goes to sleep only when none of its connections can be accepted, or when the
background thread is bound to wake it. -/
def SleepsUnready (cfg : Config) (s : State T) (a : Action T) : Prop :=
  ∀ i l, a = .acceptWait i → s.objects[i]? = some (.listener l) → Ready s l →
    s.wake.BoundToPoll cfg

/-- The invariant. -/
def SleepersUnready (cfg : Config) (s : State T) : Prop :=
  Kept (Unready (s.wake.BoundToPoll cfg)) s.net.sockets s.objects

theorem mayWait_of_sleepsUnready (h : SleepsUnready cfg s a) :
    MayWait (Unready (s.wake.BoundToPoll cfg)) s a := by
  intro i l ha hi k hk t ht _ hbound hacc
  exact hbound (h i l ha hi ⟨k, hk, t, ht, (T.acceptable_iff t).mpr hacc⟩)

theorem boundToPoll_step (hs : s.wake.BoundToPoll cfg) (ha : ∀ events, a ≠ .bgSecond events)
    (h : s.step cfg a = some s') : s'.wake.BoundToPoll cfg := by
  refine hs.step (fun ⟨hpc, hpc'⟩ ↦ ?_) (wake_step h)
  rcases step_cases h with ⟨now, -, h⟩ | ⟨ok, -, h⟩ | ⟨events, rfl, -⟩ | ⟨c, -, rfl⟩
  · exact absurd ((bgFirst_cases h).1.symm.trans hpc) (by simp)
  · exact absurd ((bgPoll_cases h).1.symm.trans hpc) (by simp)
  · exact ha events rfl
  · exact absurd (hpc.symm.trans hpc') (by simp)

theorem SleepersUnready.step (hs : SleepersUnready cfg s) (ha : SleepsUnready cfg s a)
    (h : s.step cfg a = some s') : SleepersUnready cfg s' := by
  have hpoll : PollKeeps (Unready (s.wake.BoundToPoll cfg)) s a := fun events _ ↦
    .of_forall (fun k b hk st n hb ↦ absurd (backlog_mem_wakeAccept hk).1 (by simp [hb])) _ _
  have hkept := (Kept.step (stable_unready _) hs (mayWait_of_sleepsUnready ha) hpoll h).1
  refine hkept.imp fun k b hk hat t ht hb hbound ↦ ?_
  -- the second section leaves nobody asleep, and all others leave the background thread bound
  by_cases ha' : ∃ events, a = .bgSecond events
  · obtain ⟨events, rfl⟩ := ha'
    obtain ⟨-, rfl⟩ := bgSecond_cases h
    exact absurd (backlog_mem_wakeAccept hk).1 (by simp [hb])
  · push Not at ha'
    exact hat t ht hb fun hs' ↦ hbound (boundToPoll_step hs' ha' h)

/-- **A call of `accept` does not sleep past a connection.** In every run in which the calls go to
sleep only when they have nothing to accept, or when the background thread is bound to wake them,
no call sleeps on a listener with a connection that can be accepted while the background thread
waits without end. -/
theorem accept_not_asleep {as : List (Action T)} (hrun : run (step cfg) initial as = some s)
    (hsleeps : Along (step cfg) (SleepsUnready cfg) initial as) {i : ℕ} {l : StcpListener}
    (hi : s.objects[i]? = some (.listener l)) (hl : l.phase = .waiting) (hready : Ready s l) :
    ¬(Waiting s ∧ s.bg.delay < 0) := by
  have hinv : SleepersUnready cfg s := invariant_of_along
    (fun _ _ _ hs ha h ↦ SleepersUnready.step hs ha h) kept_initial hsleeps hrun
  obtain ⟨h, hh, t, ht, hacc⟩ := hready
  have hmem : (h, .backlog true) ∈ holdings (.listener l) := by simp [holdings, hl, hh]
  intro hw
  exact hinv.hasAt h true (mem_holdings hi hmem) t ht rfl (not_boundToPoll_of_waitsForEver hw)
    ((T.acceptable_iff t).mp hacc)

/-- There is a connection when `accept` goes to sleep, but the background thread is about to poll
the interface. -/
def acceptBeforePoll : List (Action .reference) :=
  establish ++ [.bgFirst 0, .bgPoll true, .accept 0, .acceptWait 0]

theorem accept_not_asleep_acceptBeforePoll : ∃ s l,
    run (step .reference) initial acceptBeforePoll = some s ∧
    s.objects[0]? = some (.listener l) ∧ l.phase = .waiting ∧ Ready s l ∧
    ¬(Waiting s ∧ s.bg.delay < 0) := by
  have hother {s : State .reference} {a : Action .reference} (ha : ∀ i, a ≠ .acceptWait i) :
      SleepsUnready .reference s a := fun i _ h ↦ absurd h (ha i)
  have hsleeps : Along (step .reference) (SleepsUnready .reference) initial acceptBeforePoll := by
    refine (along_cons_of_step rfl).mpr ⟨hother (by simp [bindListener]), ?_⟩
    refine (along_cons_of_step rfl).mpr ⟨hother (by simp), ?_⟩
    refine (along_cons_of_step rfl).mpr ⟨hother (by simp), ?_⟩
    refine (along_cons_of_step rfl).mpr ⟨hother (by simp), ?_⟩
    refine (along_cons_of_step rfl).mpr ⟨hother (by simp), ?_⟩
    refine (along_cons_of_step rfl).mpr ⟨hother (by simp), ?_⟩
    refine (along_cons_of_step rfl).mpr ⟨hother (by simp), ?_⟩
    refine (along_cons_of_step rfl).mpr ⟨fun _ _ _ _ _ ↦ ⟨?_, ?_⟩, trivial⟩
    · exact fun hpc ↦ absurd hpc (by decide)
    · exact fun hpc ↦ absurd hpc (by decide)
  obtain ⟨s, l, hrun, hi, hl, hready⟩ : ∃ s l,
      run (step .reference) initial acceptBeforePoll = some s ∧
      s.objects[0]? = some (.listener l) ∧ l.phase = .waiting ∧ Ready s l :=
    ⟨_, _, rfl, rfl, rfl, ⟨0, 0⟩, List.mem_singleton.mpr rfl, _, rfl, rfl⟩
  exact ⟨s, l, hrun, hi, hl, hready, accept_not_asleep hrun hsleeps hi hl hready⟩

/-- A client connects, the background thread waits for more, and only then is `accept` called. -/
def acceptAfterPoll : List (Action .reference) :=
  establish ++ [.bgFirst 0, .accept 0, .acceptWait 0]

theorem not_accept_not_asleep : ∃ s l,
    run (step .reference) initial acceptAfterPoll = some s ∧
    s.objects[0]? = some (.listener l) ∧ l.phase = .waiting ∧ Ready s l ∧
    Waiting s ∧ s.bg.delay < 0 :=
  ⟨_, _, rfl, rfl, rfl, ⟨⟨0, 0⟩, List.mem_singleton.mpr rfl, _, rfl, rfl⟩, ⟨rfl, rfl⟩, by decide⟩

/-! ## Connections that end before they are accepted -/

/-- The states of a socket in a backlog that `accept` will take or can still come to take. -/
def InService (st : TcpState) (n : ℕ) : Prop :=
  st = .listen ∨ st = .synReceived ∨ Acceptable st n

/-- What arrives ends a connection in the backlog before it is accepted: the peer resets it, or
closes it without having left anything to read. -/
def Ends (e : T.Event) (t : T.Tcp) : Prop :=
  (T.isRst e = true ∧ T.state t ∈ [.established, .closeWait] ∧
    T.state (T.process e t) = .closed) ∨
  (T.isFin e = true ∧ T.state t ∈ [.synReceived, .established] ∧
    T.state (T.process e t) = .closeWait ∧ T.rxLen (T.process e t) = 0)

/-- Anything else leaves the socket in service. -/
theorem inService_process {e : T.Event} {t : T.Tcp} (he : ¬Ends e t)
    (ht : InService (T.state t) (T.rxLen t)) :
    InService (T.state (T.process e t)) (T.rxLen (T.process e t)) := by
  have hpassive : T.state t ∈ TcpState.passive := by
    rcases ht with ht | ht | ht | ⟨ht, -⟩ <;> simp [ht, TcpState.passive]
  have hnext := T.state_process e t hpassive
  have hrx := T.rxLen_process e t hpassive
  have hfin (hfin : T.isFin e = true) (hst : T.state t ∈ [.synReceived, .established])
      (h : T.state (T.process e t) = .closeWait) :
      InService (T.state (T.process e t)) (T.rxLen (T.process e t)) :=
    Or.inr (Or.inr (Or.inr ⟨h, Nat.pos_of_ne_zero fun h0 ↦ he (Or.inr ⟨hfin, hst, h, h0⟩)⟩))
  have hrst (hrst : T.isRst e = true) (hst : T.state t ∈ [.established, .closeWait]) :
      T.state (T.process e t) ≠ .closed := fun h ↦ he (Or.inl ⟨hrst, hst, h⟩)
  -- along the arrows of the TCP state machine
  rcases ht with ht | ht | ht | ⟨ht, hpos⟩
  · rw [ht, TcpState.passiveNext, List.mem_pair] at hnext
    exact hnext.imp_right Or.inl
  · rw [ht, TcpState.passiveNext] at hnext
    split at hnext
    · rcases List.mem_pair.mp hnext with h | h
      · exact Or.inr (Or.inl h)
      · exact Or.inl h
    · split at hnext
      · rename_i hf
        rcases List.mem_pair.mp hnext with h | h
        · exact Or.inr (Or.inl h)
        · exact hfin hf (by simp [ht]) h
      · rcases List.mem_pair.mp hnext with h | h
        · exact Or.inr (Or.inl h)
        · exact Or.inr (Or.inr (Or.inl h))
  · rw [ht, TcpState.passiveNext] at hnext
    split at hnext
    · rename_i hr
      rcases List.mem_pair.mp hnext with h | h
      · exact Or.inr (Or.inr (Or.inl h))
      · exact absurd h (hrst hr (by simp [ht]))
    · split at hnext
      · rename_i hf
        rcases List.mem_pair.mp hnext with h | h
        · exact Or.inr (Or.inr (Or.inl h))
        · exact hfin hf (by simp [ht]) h
      · exact Or.inr (Or.inr (Or.inl (List.mem_singleton.mp hnext)))
  · have hopen : T.state (T.process e t) = .closeWait := by
      rw [ht, TcpState.passiveNext] at hnext
      split at hnext
      · rename_i hr
        exact (List.mem_pair.mp hnext).resolve_right (hrst hr (by simp [ht]))
      · exact List.mem_singleton.mp hnext
    exact Or.inr (Or.inr (Or.inr ⟨hopen, hpos.trans_le hrx⟩))

theorem stable_inService : Stable fun _ ↦ InService where
  listen _ _ := Or.inl rfl
  woken _ _ h := h

/-- The handles of the backlogs. -/
def backlog (s : State T) : List SocketHandle :=
  s.objects.flatMap fun
    | .listener l => l.listenHandles.getD []
    | _ => []

/-- The events end no connection in a backlog before it is accepted. -/
def EventsSpare (hs : List SocketHandle) : SocketSet T → List (ℕ × T.Event) → Prop
  | _, [] => True
  | S, e :: events =>
    (∀ h ∈ hs, h.index = e.1 → ∀ t, S.getTcp h = some t → ¬Ends e.2 t) ∧
    EventsSpare hs (S.modify e.1 (processItem e.2)) events

/-- Polling the interface ends no connection before it is accepted. -/
def SparesBacklog (s : State T) (a : Action T) : Prop :=
  ∀ events, a = .bgSecond events → EventsSpare s.backlog s.net.sockets events

theorem mem_backlog_of_holdings {h : SocketHandle} {b : Bool}
    (hk : (h, .backlog b) ∈ (s.objects.map wakeAccept).flatMap holdings) : h ∈ s.backlog := by
  obtain ⟨-, l, hl, hh⟩ := backlog_mem_wakeAccept hk
  exact List.mem_flatMap.mpr ⟨.listener l, hl, hh⟩

theorem eventsKeep_of_spare {hs : List SocketHandle} {os : List Holding}
    (hos : ∀ h b, (h, .backlog b) ∈ os → h ∈ hs) :
    ∀ {S : SocketSet T} {events : List (ℕ × T.Event)}, EventsSpare hs S events →
      EventsKeep (fun _ ↦ InService) os S events
  | _, [], _ => trivial
  | _, _ :: _, h => ⟨fun k b t hk hi ht ↦ inService_process (h.1 k (hos k b hk) hi t ht),
      eventsKeep_of_spare hos h.2⟩

/-- **No slot of a backlog is lost.** In every run in which no connection ends before it is
accepted, every socket in the backlog of a listener listens, is in the middle of a handshake, or can
be accepted. -/
theorem backlog_in_service {as : List (Action T)} (hrun : run (step cfg) initial as = some s)
    (hspares : Along (step cfg) SparesBacklog initial as) {i : ℕ} {l : StcpListener}
    (hi : s.objects[i]? = some (.listener l)) {h : SocketHandle}
    (hh : h ∈ l.listenHandles.getD []) :
    ∃ t, s.net.sockets.getTcp h = some t ∧
      (T.state t = .listen ∨ T.state t = .synReceived ∨ T.acceptable t) := by
  have hinv : Kept (fun _ ↦ InService) s.net.sockets s.objects := by
    refine invariant_of_along
      (I := fun s : State T ↦ Kept (fun _ ↦ InService) s.net.sockets s.objects)
      (fun s a s' hs ha h ↦ ?_) kept_initial hspares hrun
    -- going to sleep does not matter here, since the property is the same for all sockets
    have hwait : MayWait (fun _ ↦ InService) s a := fun i l _ hi k hk t ht ↦
      hs.hasAt k (l.phase = .waiting) (mem_holdings hi (List.mem_append_left _
        (List.mem_map_of_mem hk))) t ht
    exact (hs.step stable_inService hwait (fun events he ↦ eventsKeep_of_spare
      (fun _ _ ↦ mem_backlog_of_holdings) (ha events he)) h).1
  have hmem := mem_holdings hi (List.mem_append_left _ (List.mem_map_of_mem hh))
  obtain ⟨t, ht⟩ := hinv.getTcp_isSome hmem rfl
  refine ⟨t, ht, ?_⟩
  rw [T.acceptable_iff]
  exact hinv.hasAt h _ hmem t ht

/-- A client connects and disconnects before `accept` is called; `last` is what it does in
between or at the end. -/
def acceptLate (last : List ReferenceEvent) : List (Action .reference) :=
  [bindListener, .bgFirst 0, .bgPoll true,
    .bgSecond ([(0, .syn ⟨.v4 10 0 0 9, 4000⟩), (0, .ack)] ++ last.map (0, ·)),
    .setNonblocking 0 true, .accept 0, .acceptCheck 0 false]

theorem backlog_in_service_acceptLate : ∃ s l,
    run (step .reference) initial (acceptLate [.data 5, .fin] ++ [.acceptReplace 0 1]) = some s ∧
    s.objects[0]? = some (.listener l) ∧ l.phase = .idle ∧ ∃ h ∈ l.listenHandles.getD [],
      ∃ t, s.net.sockets.getTcp h = some t ∧ (Smoltcp.reference.state t = .listen ∨
        Smoltcp.reference.state t = .synReceived ∨ Smoltcp.reference.acceptable t) := by
  have hother {s : State .reference} {a : Action .reference} (ha : ∀ events, a ≠ .bgSecond events) :
      SparesBacklog s a := fun events h ↦ absurd h (ha events)
  have hspares : Along (step .reference) SparesBacklog initial
      (acceptLate [.data 5, .fin] ++ [.acceptReplace 0 1]) := by
    refine (along_cons_of_step rfl).mpr ⟨hother (by simp [bindListener]), ?_⟩
    refine (along_cons_of_step rfl).mpr ⟨hother (by simp), ?_⟩
    refine (along_cons_of_step rfl).mpr ⟨hother (by simp), ?_⟩
    refine (along_cons_of_step rfl).mpr ⟨?_, ?_⟩
    · -- the peer closes the connection, but has sent something before
      rintro events ⟨⟩
      refine ⟨?_, ?_, ?_, ?_, trivial⟩ <;>
      · intro h hh _ t ht
        obtain rfl := List.mem_singleton.mp hh
        obtain rfl := Option.some.inj ht
        unfold Ends
        decide
    refine (along_cons_of_step rfl).mpr ⟨hother (by simp), ?_⟩
    refine (along_cons_of_step rfl).mpr ⟨hother (by simp), ?_⟩
    refine (along_cons_of_step rfl).mpr ⟨hother (by simp), ?_⟩
    exact (along_cons_of_step rfl).mpr ⟨hother (by simp), trivial⟩
  obtain ⟨s, l, hrun, hi, hl, hh⟩ : ∃ s l,
      run (step .reference) initial (acceptLate [.data 5, .fin] ++ [.acceptReplace 0 1]) = some s ∧
      s.objects[0]? = some (.listener l) ∧ l.phase = .idle ∧ ⟨1, 1⟩ ∈ l.listenHandles.getD [] :=
    ⟨_, _, rfl, rfl, rfl, List.mem_singleton.mpr rfl⟩
  exact ⟨s, l, hrun, hi, hl, _, hh, backlog_in_service hrun hspares hi hh⟩

theorem not_backlog_in_service : ∃ s l,
    run (step .reference) initial (acceptLate [.rst]) = some s ∧
    s.objects[0]? = some (.listener l) ∧ l.phase = .idle ∧ ∃ h ∈ l.listenHandles.getD [],
      ∃ t, s.net.sockets.getTcp h = some t ∧ ¬(Smoltcp.reference.state t = .listen ∨
        Smoltcp.reference.state t = .synReceived ∨ Smoltcp.reference.acceptable t) :=
  ⟨_, _, rfl, rfl, rfl, ⟨0, 0⟩, List.mem_singleton.mpr rfl, _, rfl, by decide⟩

end State

end UsnetSockets
