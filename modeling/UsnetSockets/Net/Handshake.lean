import UsnetSockets.Net.System
import UsnetSockets.Transition.First

/-!
# Waiting for a connection

`connect` of both APIs sends a SYN and then waits until the connection is there. It does not see
the segments: it looks at the socket between two polls of the interface, and a poll may process
several segments at once. What counts is therefore which states the loop can make sense of when the
ones before them have been skipped.

The multithread API looks when it is woken from its condition variable, the singlethread API after
each call of `poll_wait`. The loops are given what happens to the socket in between.
-/

namespace UsnetSockets

variable {T : Smoltcp}

/-- How a look at the socket ends the wait. -/
inductive ConnectEnd where
  | connected
  | failed
  deriving DecidableEq

/-- How a call of `connect` waits: it stops at a look, which has a number, or at a timeout, or at
the panic of a `poll(2)` that fails, or nothing more happens. -/
inductive ConnectWait where
  | stopped (look : ℕ) (e : ConnectEnd)
  | timedOut
  | panicked
  | waiting
  deriving DecidableEq

/-- What a poll of the interface makes of the socket. -/
def Smoltcp.processAll (T : Smoltcp) (events : List T.Event) (t : T.Tcp) : T.Tcp :=
  events.foldl (fun t e ↦ T.process e t) t

/-! ## The multithread API -/

/-- The condition of the loop in `connect_timeout_opt`. -/
def Smoltcp.connectLook (T : Smoltcp) (t : T.Tcp) : Option ConnectEnd :=
  if !T.isActive t then some .failed
  else if T.mayRecv t && T.maySend t then some .connected
  else none

/-- What happens while a call waits on the condition variable. -/
structure ConnectWakeup (T : Smoltcp) where
  events : List T.Event
  timedOut : Bool

/-- The loop of `connect_timeout_opt`, from the look with number `k` on. -/
def connectLoop (hasTimeout : Bool) : T.Tcp → List (ConnectWakeup T) → ℕ → ConnectWait
  | t, [], k =>
    match T.connectLook t with
    | some e => .stopped k e
    | none => .waiting
  | t, w :: ws, k =>
    match T.connectLook t with
    | some e => .stopped k e
    | none =>
      if hasTimeout && w.timedOut then .timedOut
      else connectLoop hasTimeout (T.processAll w.events t) ws (k + 1)

/-- The sockets that the loop gets to look at unless it stops. -/
def connectLooks (hasTimeout : Bool) : T.Tcp → List (ConnectWakeup T) → List T.Tcp
  | t, [] => [t]
  | t, w :: ws =>
    t :: if hasTimeout && w.timedOut then []
      else connectLooks hasTimeout (T.processAll w.events t) ws

/-- The loop is the one whose turns are the steps `connectNext` and `connectWake` of the system. -/
theorem State.connectCheck_of_getTcp (s : State T) {sockets : SocketSet T} (i : ℕ) (c : Connecting)
    {h : SocketHandle} {t : T.Tcp} (ht : sockets.getTcp h = some t) :
    s.connectCheck sockets i c h =
      match T.connectLook t with
      | some .failed => s.connectFailed sockets i c h
      | some .connected => { s.same with
          sockets := sockets
          objects := s.objects.set i (.stream h) }
      | none => { s.same with
          sockets := sockets
          objects := s.objects.set i (.connecting { c with handle := some h }) } := by
  simp only [connectCheck, ht, Smoltcp.connectLook]
  by_cases hact : T.isActive t
  · by_cases hopen : T.mayRecv t && T.maySend t
    · simp [hact, hopen]
    · simp [hact, hopen]
  · simp [hact]

/-! ## The singlethread API -/

namespace SingleThread

/-- The condition under which `connect` leaves its loop. -/
def connectLook (t : T.Tcp) : Option ConnectEnd :=
  if T.isActive t && T.mayRecv t && T.maySend t then some .connected else none

/-- One poll of the interface in `poll_wait`, with its result, and whether the `poll(2)` that may
follow succeeds. -/
structure InterfacePoll (T : Smoltcp) where
  events : List T.Event
  result : Except Unit Bool
  waited : Bool

/-- The condition under which `poll_wait` does not wait for more: there was an error, or the
readiness of a socket has changed. -/
def InterfacePoll.ready (p : InterfacePoll T) : Bool :=
  match p.result with
  | .error _ => true
  | .ok r => r

/-- How a call of `poll_wait` ends, with the socket of interest. -/
inductive PollWait (T : Smoltcp) where
  | returned (t : T.Tcp)
  | panicked
  | waiting

/-- `poll_wait` without other descriptors to wait for. -/
def pollWait (waitingPoll once : Bool) : T.Tcp → List (InterfacePoll T) → PollWait T
  | _, [] => .waiting
  | t, p :: ps =>
    if p.ready || once || !waitingPoll then .returned (T.processAll p.events t)
    else if p.waited then pollWait waitingPoll once (T.processAll p.events t) ps
    else .panicked

/-- The loop of `connect`. For each of its turns the polls are given that `poll_wait` makes. -/
def connectLoop (waitingPoll : Bool) : T.Tcp → List (List (InterfacePoll T)) → ℕ → ConnectWait
  | _, [], _ => .waiting
  | t, ps :: turns, k =>
    match pollWait waitingPoll false t ps with
    | .returned t =>
      match connectLook t with
      | some e => .stopped k e
      | none => connectLoop waitingPoll t turns (k + 1)
    | .panicked => .panicked
    | .waiting => .waiting

/-- The sockets that the loop gets to look at unless it stops. -/
def connectLooks (waitingPoll : Bool) : T.Tcp → List (List (InterfacePoll T)) → List T.Tcp
  | _, [] => []
  | t, ps :: turns =>
    match pollWait waitingPoll false t ps with
    | .returned t => t :: connectLooks waitingPoll t turns
    | .panicked | .waiting => []

end SingleThread

/-! ## The first state past the handshake -/

/-- The socket is past the handshake, be it that it is connected or that it has been given up. -/
def Smoltcp.PastHandshake (T : Smoltcp) (t : T.Tcp) : Prop :=
  T.state t ∉ [.synSent, .synReceived]

/-- What a call of `connect` has to make of a socket that is past the handshake. -/
def Smoltcp.connectEnd (T : Smoltcp) (t : T.Tcp) : ConnectEnd :=
  if T.isActive t then .connected else .failed

/-- The peer has closed its side of the connection and has left nothing to read. -/
def Smoltcp.HalfClosed (T : Smoltcp) (t : T.Tcp) : Prop :=
  T.state t = .closeWait ∧ T.rxLen t = 0

/-- The wait stops at the first look that finds the socket past the handshake, with the right
result, and at no other. -/
def StopsRightly (looks : List T.Tcp) (w : ConnectWait) : Prop :=
  ∀ k e, w = .stopped k e ↔ ∃ t, FirstAt T.PastHandshake looks k t ∧ e = T.connectEnd t

/-- The documented behaviour of a socket that has been told to connect and nothing else: a segment
may complete the handshake, end the peer's side of the connection, or reset it. -/
def Smoltcp.OpensActively (T : Smoltcp) : Prop :=
  ∀ e t, T.state t ∈ TcpState.opening → T.state (T.process e t) ∈ TcpState.opening

theorem Smoltcp.opensActively_reference : Smoltcp.reference.OpensActively := by
  intro e t ht
  change (Smoltcp.reference.process e t).state ∈ TcpState.opening
  change t.state ∈ TcpState.opening at ht
  obtain ⟨st, len, due, remote⟩ := t
  simp only [TcpState.opening, List.mem_cons, List.not_mem_nil, or_false] at ht
  rcases ht with rfl | rfl | rfl | rfl <;>
    cases e <;> simp [Smoltcp.reference, TcpState.opening]

namespace Smoltcp.OpensActively

theorem state_processAll (hT : T.OpensActively) (events : List T.Event) {t : T.Tcp}
    (ht : T.state t ∈ TcpState.opening) : T.state (T.processAll events t) ∈ TcpState.opening := by
  induction events generalizing t with
  | nil => exact ht
  | cons e events ih => exact ih (hT e t ht)

theorem state_of_mem_connectLooks (hT : T.OpensActively) {hasTimeout : Bool} {t t' : T.Tcp}
    {ws : List (ConnectWakeup T)} (ht : T.state t ∈ TcpState.opening)
    (h : t' ∈ connectLooks hasTimeout t ws) : T.state t' ∈ TcpState.opening := by
  induction ws generalizing t with
  | nil =>
    rw [List.mem_singleton.mp h]
    exact ht
  | cons w ws ih =>
    rw [connectLooks] at h
    rcases List.mem_cons.mp h with rfl | h
    · exact ht
    · split at h
      · exact absurd h List.not_mem_nil
      · exact ih (hT.state_processAll w.events ht) h

theorem state_of_pollWait (hT : T.OpensActively) {waitingPoll once : Bool} {t t' : T.Tcp}
    {ps : List (SingleThread.InterfacePoll T)} (ht : T.state t ∈ TcpState.opening)
    (h : SingleThread.pollWait waitingPoll once t ps = .returned t') :
    T.state t' ∈ TcpState.opening := by
  induction ps generalizing t with
  | nil => exact absurd h (by simp [SingleThread.pollWait])
  | cons p ps ih =>
    have hp := hT.state_processAll p.events ht
    rw [SingleThread.pollWait] at h
    split at h
    · rw [← SingleThread.PollWait.returned.inj h]
      exact hp
    · split at h
      · exact ih hp h
      · exact absurd h (by simp)

theorem state_of_mem_connectLooks' (hT : T.OpensActively) {waitingPoll : Bool} {t t' : T.Tcp}
    {turns : List (List (SingleThread.InterfacePoll T))} (ht : T.state t ∈ TcpState.opening)
    (h : t' ∈ SingleThread.connectLooks waitingPoll t turns) : T.state t' ∈ TcpState.opening := by
  induction turns generalizing t with
  | nil => exact absurd h List.not_mem_nil
  | cons ps turns ih =>
    rw [SingleThread.connectLooks] at h
    split at h
    · next t₁ hwait =>
      have ht₁ := hT.state_of_pollWait ht hwait
      rcases List.mem_cons.mp h with rfl | h
      · exact ht₁
      · exact ih ht₁ h
    all_goals exact absurd h List.not_mem_nil

end Smoltcp.OpensActively

/-! ## The loops stop at the first look that says so -/

/-- The look with number `k` is the first one that ends the wait, and ends it with `e`. -/
def StopsAt (look : T.Tcp → Option ConnectEnd) (looks : List T.Tcp) (k : ℕ) (e : ConnectEnd) :
    Prop :=
  ∃ t, FirstAt (fun t ↦ look t ≠ none) looks k t ∧ look t = some e

section

variable {look : T.Tcp → Option ConnectEnd} {t : T.Tcp} {ts : List T.Tcp} {k₀ k : ℕ}
  {e e' : ConnectEnd}

theorem not_stopsAt_nil : ¬StopsAt look [] k e := by
  rintro ⟨t, h, -⟩
  exact FirstAt.not_nil h

theorem stopsAt_cons_iff : StopsAt look (t :: ts) k e ↔
    (k = 0 ∧ look t = some e) ∨ ∃ j, k = j + 1 ∧ look t = none ∧ StopsAt look ts j e := by
  constructor
  · rintro ⟨t', h, he⟩
    rcases k with _ | k
    · obtain ⟨rfl, -⟩ := FirstAt.cons_zero_iff.mp h
      exact .inl ⟨rfl, he⟩
    · obtain ⟨hno, h⟩ := FirstAt.cons_succ_iff.mp h
      exact .inr ⟨k, rfl, not_not.mp hno, t', h, he⟩
  · rintro (⟨rfl, he⟩ | ⟨k, rfl, hno, t', h, he⟩)
    · exact ⟨t, FirstAt.cons_zero_iff.mpr ⟨rfl, by simp [he]⟩, he⟩
    · exact ⟨t', FirstAt.cons_succ_iff.mpr ⟨not_not.mpr hno, h⟩, he⟩

/-- A turn of a loop that stops. -/
theorem stopped_iff_of_some (h : look t = some e') :
    ConnectWait.stopped k₀ e' = .stopped k e ↔ ∃ j, k = k₀ + j ∧ StopsAt look (t :: ts) j e := by
  simp only [stopsAt_cons_iff, h, ConnectWait.stopped.injEq]
  constructor
  · rintro ⟨rfl, rfl⟩
    exact ⟨0, rfl, .inl ⟨rfl, rfl⟩⟩
  · rintro ⟨_, rfl, ⟨rfl, he⟩ | ⟨_, _, hno, _⟩⟩
    · exact ⟨rfl, Option.some.inj he⟩
    · exact absurd hno (by simp)

/-- A turn of a loop that goes on. -/
theorem stopsAt_iff_of_none (h : look t = none) :
    (∃ j, k = k₀ + j ∧ StopsAt look (t :: ts) j e) ↔
      ∃ j, k = k₀ + 1 + j ∧ StopsAt look ts j e := by
  simp only [stopsAt_cons_iff, h]
  constructor
  · rintro ⟨_, rfl, ⟨-, he⟩ | ⟨j, rfl, -, hj⟩⟩
    · exact absurd he (by simp)
    · exact ⟨j, by omega, hj⟩
  · rintro ⟨j, rfl, hj⟩
    exact ⟨j + 1, by omega, .inr ⟨j, rfl, trivial, hj⟩⟩

end

theorem connectLoop_eq_stopped_iff (hasTimeout : Bool) (t : T.Tcp) (ws : List (ConnectWakeup T))
    (k₀ k : ℕ) (e : ConnectEnd) :
    connectLoop hasTimeout t ws k₀ = .stopped k e ↔
      ∃ j, k = k₀ + j ∧ StopsAt T.connectLook (connectLooks hasTimeout t ws) j e := by
  induction ws generalizing t k₀ with
  | nil =>
    rw [connectLoop, connectLooks]
    cases hlook : T.connectLook t with
    | some e' => exact stopped_iff_of_some hlook
    | none => simp [stopsAt_iff_of_none hlook, not_stopsAt_nil]
  | cons w ws ih =>
    rw [connectLoop, connectLooks]
    cases hlook : T.connectLook t with
    | some e' => exact stopped_iff_of_some hlook
    | none =>
      rw [stopsAt_iff_of_none hlook]
      dsimp only
      split
      · simp [not_stopsAt_nil]
      · exact ih _ _

theorem SingleThread.connectLoop_eq_stopped_iff (waitingPoll : Bool) (t : T.Tcp)
    (turns : List (List (InterfacePoll T))) (k₀ k : ℕ) (e : ConnectEnd) :
    connectLoop waitingPoll t turns k₀ = .stopped k e ↔
      ∃ j, k = k₀ + j ∧ StopsAt connectLook (connectLooks waitingPoll t turns) j e := by
  induction turns generalizing t k₀ with
  | nil => simp [connectLoop, connectLooks, not_stopsAt_nil]
  | cons ps turns ih =>
    rw [connectLoop, connectLooks]
    cases pollWait waitingPoll false t ps with
    | returned t' =>
      dsimp only
      cases hlook : connectLook t' with
      | some e' => exact stopped_iff_of_some hlook
      | none =>
        rw [stopsAt_iff_of_none hlook]
        exact ih _ _
    | panicked => simp [not_stopsAt_nil]
    | waiting => simp [not_stopsAt_nil]

/-! ## When that is the first state past the handshake -/

/-- A wait whose looks do not stop it during the handshake stops rightly if and only if its look
makes the right thing of the first socket past it. -/
theorem stopsRightly_iff {look : T.Tcp → Option ConnectEnd} {looks : List T.Tcp} {w : ConnectWait}
    (hw : ∀ k e, w = .stopped k e ↔ StopsAt look looks k e)
    (hlook : ∀ t e, look t = some e → T.PastHandshake t) :
    StopsRightly looks w ↔
      ∀ k t, FirstAt T.PastHandshake looks k t → look t = some (T.connectEnd t) := by
  constructor
  · intro h k t ht
    obtain ⟨t', ht', he⟩ := (hw k _).mp ((h k _).mpr ⟨t, ht, rfl⟩)
    obtain rfl := ht.eq_of_getElem? ht'.1
    exact he
  · intro h k e
    rw [hw]
    constructor
    · rintro ⟨t, ht, he⟩
      -- what comes before is not past the handshake, since a first such socket would have been
      -- stopped at
      obtain ⟨j, hj, t', ht'⟩ := FirstAt.exists_le ht.1 (hlook t e he)
      have hs := h j t' ht'
      rcases Nat.lt_or_eq_of_le hj with hj | rfl
      · exact absurd (by simp [hs]) (ht.2.2 j hj t' ht'.1)
      · obtain rfl := ht.eq_of_getElem? ht'.1
        exact ⟨t, ht', Option.some.inj (he.symm.trans hs)⟩
    · rintro ⟨t, ht, rfl⟩
      have hs := h k t ht
      refine ⟨t, ⟨ht.1, by simp [hs], ?_⟩, hs⟩
      intro j hj t' ht' hno
      obtain ⟨e, he⟩ := Option.ne_none_iff_exists'.mp hno
      exact ht.2.2 j hj t' ht' (hlook t' e he)

theorem Smoltcp.pastHandshake_of_connectLook {t : T.Tcp} {e : ConnectEnd}
    (h : T.connectLook t = some e) : T.PastHandshake t := by
  intro hst
  rw [Smoltcp.connectLook, T.isActive_eq, T.maySend_eq] at h
  simp only [List.mem_cons, List.not_mem_nil, or_false] at hst
  rcases hst with hst | hst <;> simp [hst] at h

theorem SingleThread.pastHandshake_of_connectLook {t : T.Tcp} {e : ConnectEnd}
    (h : connectLook t = some e) : T.PastHandshake t := by
  intro hst
  rw [connectLook, T.maySend_eq] at h
  simp only [List.mem_cons, List.not_mem_nil, or_false] at hst
  rcases hst with hst | hst <;> simp [hst] at h

theorem Smoltcp.opening_of_pastHandshake {t : T.Tcp} (ht : T.state t ∈ TcpState.opening)
    (hpast : T.PastHandshake t) :
    T.state t = .established ∨ T.state t = .closeWait ∨ T.state t = .closed := by
  simp only [TcpState.opening, List.mem_cons, List.not_mem_nil, or_false] at ht
  rcases ht with ht | ht
  · exact absurd (by simp [ht]) hpast
  · exact ht

/-- The multithread API takes no notice of a connection that the peer has closed at once. -/
theorem Smoltcp.connectLook_eq_iff {t : T.Tcp} (ht : T.state t ∈ TcpState.opening)
    (hpast : T.PastHandshake t) : T.connectLook t = some (T.connectEnd t) ↔ ¬T.HalfClosed t := by
  rw [Smoltcp.connectLook, Smoltcp.connectEnd, Smoltcp.HalfClosed, T.isActive_eq, T.maySend_eq,
    T.mayRecv_eq]
  rcases T.opening_of_pastHandshake ht hpast with hst | hst | hst <;>
    simp [hst, Nat.pos_iff_ne_zero]

/-- Nor does the singlethread API, and it takes no notice of a refusal either. -/
theorem SingleThread.connectLook_eq_iff {t : T.Tcp} (ht : T.state t ∈ TcpState.opening)
    (hpast : T.PastHandshake t) :
    connectLook t = some (T.connectEnd t) ↔ T.isActive t ∧ ¬T.HalfClosed t := by
  rw [connectLook, Smoltcp.connectEnd, Smoltcp.HalfClosed, T.isActive_eq, T.maySend_eq,
    T.mayRecv_eq]
  rcases T.opening_of_pastHandshake ht hpast with hst | hst | hst <;>
    simp [hst, Nat.pos_iff_ne_zero]

/-- **When a wait for a connection ends.** The loop of the multithread API stops where it should,
at the first look that finds the socket past the handshake, unless that look finds that the peer has
already closed its side and has sent nothing. The loop of the singlethread API does unless that look
finds the same, or finds the socket inactive. -/
theorem connect_stopsRightly_iff (hT : T.OpensActively) {t₀ t : T.Tcp} {addr : SocketAddr}
    {port : UInt16} (ht : T.connect t₀ addr port = some t) :
    (∀ hasTimeout ws,
      StopsRightly (connectLooks hasTimeout t ws) (connectLoop hasTimeout t ws 0) ↔
        ∀ k t', FirstAt T.PastHandshake (connectLooks hasTimeout t ws) k t' →
          ¬T.HalfClosed t') ∧
    ∀ waitingPoll turns,
      StopsRightly (SingleThread.connectLooks waitingPoll t turns)
          (SingleThread.connectLoop waitingPoll t turns 0) ↔
        ∀ k t', FirstAt T.PastHandshake (SingleThread.connectLooks waitingPoll t turns) k t' →
          T.isActive t' ∧ ¬T.HalfClosed t' := by
  have hst : T.state t ∈ TcpState.opening := by
    rw [T.state_connect t₀ addr port t ht]
    decide
  refine ⟨?_, ?_⟩
  · intro hasTimeout ws
    rw [stopsRightly_iff (fun k e ↦ by simpa using connectLoop_eq_stopped_iff hasTimeout t ws 0 k e)
      (fun _ _ h ↦ T.pastHandshake_of_connectLook h)]
    refine forall₃_congr fun k t' h ↦ T.connectLook_eq_iff ?_ h.2.1
    exact hT.state_of_mem_connectLooks hst (List.mem_of_getElem? h.1)
  · intro waitingPoll turns
    rw [stopsRightly_iff
      (fun k e ↦ by simpa using SingleThread.connectLoop_eq_stopped_iff waitingPoll t turns 0 k e)
      (fun _ _ h ↦ SingleThread.pastHandshake_of_connectLook h)]
    refine forall₃_congr fun k t' h ↦ SingleThread.connectLook_eq_iff ?_ h.2.1
    exact hT.state_of_mem_connectLooks' hst (List.mem_of_getElem? h.1)

/-- A socket of the reference stack after `connect`. -/
def openingReference : Smoltcp.reference.Tcp := ⟨.synSent, 0, true, 1025, ⟨.v4 10 0 0 2, 80⟩⟩

theorem connect_openingReference :
    Smoltcp.reference.connect (Smoltcp.reference.newTcp 4096) ⟨.v4 10 0 0 2, 80⟩ 1025 =
      some openingReference := rfl

/-- A handshake that is completed during the first wait. -/
theorem connect_stopsRightly_of_ack :
    StopsRightly (connectLooks false openingReference [⟨[.ack], false⟩])
        (connectLoop false openingReference [⟨[.ack], false⟩] 0) ∧
      StopsRightly (SingleThread.connectLooks true openingReference [[⟨[.ack], .ok true, true⟩]])
        (SingleThread.connectLoop true openingReference [[⟨[.ack], .ok true, true⟩]] 0) := by
  obtain ⟨hmulti, hsingle⟩ := connect_stopsRightly_iff Smoltcp.opensActively_reference
    connect_openingReference
  refine ⟨(hmulti _ _).mpr ?_, (hsingle _ _).mpr ?_⟩
  · rintro k t ⟨hk, hpast, -⟩ ⟨hst, -⟩
    rcases k with _ | _ | k
    · rw [← Option.some.inj hk] at hst
      exact absurd hst (by decide)
    · rw [← Option.some.inj hk] at hst
      exact absurd hst (by decide)
    · exact absurd hk (by simp [connectLooks])
  · rintro k t ⟨hk, hpast, -⟩
    rcases k with _ | k
    · rw [← Option.some.inj hk]
      exact ⟨rfl, fun hhalf ↦ absurd hhalf.1 (by decide)⟩
    · exact absurd hk (by simp [SingleThread.connectLooks, SingleThread.pollWait,
        SingleThread.InterfacePoll.ready])

/-- A peer that completes the handshake and closes its side of the connection, both in one poll, is
not noticed by either loop, and a refusal is not by the singlethread one. -/
theorem not_connect_stopsRightly :
    ¬StopsRightly (connectLooks false openingReference [⟨[.ack, .fin], false⟩])
        (connectLoop false openingReference [⟨[.ack, .fin], false⟩] 0) ∧
      ¬StopsRightly
        (SingleThread.connectLooks true openingReference [[⟨[.ack, .fin], .ok true, true⟩]])
        (SingleThread.connectLoop true openingReference [[⟨[.ack, .fin], .ok true, true⟩]] 0) ∧
      ¬StopsRightly (SingleThread.connectLooks true openingReference [[⟨[.rst], .ok true, true⟩]])
        (SingleThread.connectLoop true openingReference [[⟨[.rst], .ok true, true⟩]] 0) := by
  refine ⟨?_, ?_, ?_⟩
  · intro h
    have hstop := (h 1 .connected).mpr ⟨⟨.closeWait, 0, true, 1025, ⟨.v4 10 0 0 2, 80⟩⟩,
      ⟨rfl, (by decide : TcpState.closeWait ∉ [TcpState.synSent, .synReceived]), ?_⟩, rfl⟩
    · exact absurd hstop (by decide)
    · intro j hj t ht hpast
      obtain rfl : j = 0 := by omega
      rw [← Option.some.inj ht] at hpast
      exact hpast (by decide)
  · intro h
    have hstop := (h 0 .connected).mpr ⟨⟨.closeWait, 0, true, 1025, ⟨.v4 10 0 0 2, 80⟩⟩,
      ⟨rfl, (by decide : TcpState.closeWait ∉ [TcpState.synSent, .synReceived]), by omega⟩, rfl⟩
    exact absurd hstop (by decide)
  · intro h
    have hstop := (h 0 .failed).mpr ⟨⟨.closed, 0, false, 1025, ⟨.v4 10 0 0 2, 80⟩⟩,
      ⟨rfl, (by decide : TcpState.closed ∉ [TcpState.synSent, .synReceived]), by omega⟩, rfl⟩
    exact absurd hstop (by decide)

end UsnetSockets
