import UsnetSockets.Net.System
import UsnetSockets.Transition.Run

/-!
# Waking the background thread

Whether the background thread sleeps while there is something to do depends on a few of the
variables only: where it is, its local `skip`, the shared flag `bg_skip_one_wait`, and the number of
notifications that it has not taken. `Wake` is this part of the state and `Wake.Step` says how it
can change, with nothing said about sockets or descriptors. `State.wake_step` is the connection:
each step of the system is one of `Wake`.
-/

namespace UsnetSockets

/-- The part of the state that decides when the background thread sleeps. -/
structure Wake where
  pc : BgPc
  skip : Bool
  delay : ℤ
  flag : Skip
  notifications : ℕ
  currentWaitDelay : ℤ
  closing : Bool

namespace Wake

variable (cfg : Config) (w : Wake)

/-- A notification is sent, if there is room for it. -/
def notify : Wake :=
  if w.notifications < cfg.notifyCapacity then { w with notifications := w.notifications + 1 }
  else w

/-- The end of a critical section of the application. -/
def wake : StcpNet.WakeKind → Wake
  | .none => w
  | .handOver => if w.flag = .wait then w.notify cfg else { w with flag := .skip }
  | .afterRead =>
    if w.flag = .wait ∧ (w.currentWaitDelay = -1 ∨ w.currentWaitDelay > 10) then w.notify cfg else w

/-- The first critical section of the background thread. -/
def first (delay : ℤ) : Wake :=
  { w with
    pc := if cfg.waitingPoll && !(w.flag == .skip) then .polling else .second
    skip := w.flag == .skip
    delay := delay
    flag := if w.flag == .skip then .skip else .wait
    currentWaitDelay := delay }

/-- The second critical section of the background thread. -/
def second : Wake :=
  { w with pc := .first, flag := .skippable, notifications := 0, closing := false }

/-- How the variables can change. -/
inductive Step : Wake → Wake → Prop
  | app (w : Wake) (kind : StcpNet.WakeKind) (c : Bool) :
      Step w { w.wake cfg kind with closing := w.closing || c }
  | first {w : Wake} (h : w.pc = .first) (delay : ℤ) : Step w (w.first cfg delay)
  | poll {w : Wake} (h : w.pc = .polling) : Step w { w with pc := .second }
  | second {w : Wake} (h : w.pc = .second) : Step w w.second
  | panic (w : Wake) (flag : Skip) : Step w { w with pc := .panicked, flag := flag }

end Wake

namespace State

variable {T : Smoltcp} {cfg : Config} {s s' : State T}

def wake (s : State T) : Wake where
  pc := s.bg.pc
  skip := s.bg.skip
  delay := s.bg.delay
  flag := s.net.bgSkipOneWait
  notifications := s.net.notifications
  currentWaitDelay := s.net.currentWaitDelay
  closing := s.closing

/-- All that a critical section of the application does to these variables. -/
theorem wake_apply (c : Change T) :
    (s.apply cfg c).wake = { s.wake.wake cfg c.wake with closing := s.closing || c.closing } := by
  cases hc : c.wake with
  | none => simp [apply, wake, Wake.wake, StcpNet.wake, hc]
  | handOver =>
    by_cases hw : s.net.bgSkipOneWait = .wait
    · by_cases hn : s.net.notifications < cfg.notifyCapacity <;>
        simp [apply, wake, Wake.wake, StcpNet.wake, StcpNet.wakeBg, StcpNet.notify, Wake.notify,
          hc, hw, hn]
    · simp [apply, wake, Wake.wake, StcpNet.wake, StcpNet.wakeBg, hc, hw]
  | afterRead =>
    by_cases hw : s.net.bgSkipOneWait = .wait ∧
        (s.net.currentWaitDelay = -1 ∨ s.net.currentWaitDelay > 10)
    · by_cases hn : s.net.notifications < cfg.notifyCapacity <;>
        simp [apply, wake, Wake.wake, StcpNet.wake, StcpNet.wakeBgAfterRead, StcpNet.notify,
          Wake.notify, hc, hw, hn]
    · simp [apply, wake, Wake.wake, StcpNet.wake, StcpNet.wakeBgAfterRead, hc, hw]

/-- **Each step of the system is one of `Wake`.** -/
theorem wake_step {a : Action T} (h : s.step cfg a = some s') : Wake.Step cfg s.wake s'.wake := by
  rcases step_cases h with ⟨now, -, h⟩ | ⟨ok, -, h⟩ | ⟨events, -, h⟩ | ⟨c, -, rfl⟩
  · obtain ⟨hpc, ⟨-, rfl⟩ | ⟨fdsExtra, -, rfl⟩⟩ := bgFirst_cases h
    · exact .panic s.wake _
    · exact .first hpc _
  · obtain ⟨hpc, rfl⟩ := bgPoll_cases h
    cases ok with
    | true => exact .poll hpc
    | false => exact .panic s.wake s.wake.flag
  · obtain ⟨hpc, rfl⟩ := bgSecond_cases h
    exact .second hpc
  · rw [wake_apply]
    exact .app s.wake c.wake c.closing

end State

/-! ## Nothing handed over is left behind -/

namespace Wake

variable {cfg : Config} {w w' : Wake}

/-- Between its two sections the background thread and the flag agree: it is `Skip` if the thread
has read `Skip`, and `Wait` if not. -/
def Synced (w : Wake) : Prop :=
  w.pc = .polling ∨ w.pc = .second → w.flag = if w.skip then .skip else .wait

/-- The background thread will get to its next `StcpNet::poll` without a wait that nothing ends: the
flag tells it not to wait, or it has read that already, or a notification is there. -/
structure Alert (w : Wake) : Prop where
  first : w.pc = .first → w.flag = .skip ∨ 0 < w.notifications
  between : w.pc = .polling ∨ w.pc = .second → w.skip = true ∨ 0 < w.notifications

/-- Sending a notification leaves one there, whether there was room for it or not. -/
theorem notifications_notify_pos : 0 < (w.notify cfg).notifications := by
  rw [notify]
  split
  · exact Nat.succ_pos _
  · rename_i hfull
    exact cfg.notifyCapacity_pos.trans_le (Nat.le_of_not_lt hfull)

theorem notifications_le_notify : w.notifications ≤ (w.notify cfg).notifications := by
  rw [notify]
  split
  · exact Nat.le_succ _
  · exact le_rfl

@[simp] theorem pc_notify : (w.notify cfg).pc = w.pc := by rw [notify]; split <;> rfl

@[simp] theorem skip_notify : (w.notify cfg).skip = w.skip := by rw [notify]; split <;> rfl

@[simp] theorem flag_notify : (w.notify cfg).flag = w.flag := by rw [notify]; split <;> rfl

@[simp] theorem delay_notify : (w.notify cfg).delay = w.delay := by rw [notify]; split <;> rfl

@[simp] theorem pc_wake (kind : StcpNet.WakeKind) : (w.wake cfg kind).pc = w.pc := by
  cases kind <;> simp only [wake] <;> (try split) <;> simp

@[simp] theorem skip_wake (kind : StcpNet.WakeKind) : (w.wake cfg kind).skip = w.skip := by
  cases kind <;> simp only [wake] <;> (try split) <;> simp

@[simp] theorem delay_wake (kind : StcpNet.WakeKind) : (w.wake cfg kind).delay = w.delay := by
  cases kind <;> simp only [wake] <;> (try split) <;> simp

theorem notifications_le_wake (kind : StcpNet.WakeKind) :
    w.notifications ≤ (w.wake cfg kind).notifications := by
  cases kind <;> simp only [wake] <;> (try split) <;>
    first | exact le_rfl | exact notifications_le_notify

/-- The end of a section leaves the flag, or sets it to `Skip` where it was not `Wait`. -/
theorem flag_wake (cfg : Config) (w : Wake) (kind : StcpNet.WakeKind) :
    (w.wake cfg kind).flag = w.flag ∨ w.flag ≠ .wait ∧ (w.wake cfg kind).flag = .skip := by
  rcases kind with _ | _ | _
  · exact Or.inl rfl
  · by_cases hw : w.flag = .wait
    · rw [wake, if_pos hw, flag_notify]
      exact Or.inl rfl
    · rw [wake, if_neg hw]
      exact Or.inr ⟨hw, rfl⟩
  · rw [wake]
    split
    · exact Or.inl flag_notify
    · exact Or.inl rfl

/-- The flag is `Wait` unless the thread has read `Skip`. -/
theorem Synced.skip_eq_true (h : w.Synced) (hpc : w.pc = .polling ∨ w.pc = .second)
    (hw : w.flag ≠ .wait) : w.skip = true := by
  by_contra hno
  exact hw (by simpa [hno] using h hpc)

theorem Synced.wake (h : w.Synced) (cfg : Config) (kind : StcpNet.WakeKind) :
    (w.wake cfg kind).Synced := by
  intro hpc
  rw [pc_wake] at hpc
  rw [skip_wake]
  rcases flag_wake cfg w kind with hsame | ⟨hw, hset⟩
  · rw [hsame]
    exact h hpc
  · rw [hset, if_pos (h.skip_eq_true hpc hw)]

theorem Synced.step (h : w.Synced) (hstep : Step cfg w w') : w'.Synced := by
  cases hstep with
  | app kind c => exact h.wake cfg kind
  | first hpc delay => exact fun _ ↦ rfl
  | poll hpc => exact fun _ ↦ h (Or.inl hpc)
  | second hpc => exact fun h' ↦ absurd h' (by simp [Wake.second])
  | panic flag => exact fun h' ↦ absurd h' (by simp)

/-- A section that ends by waking the background thread leaves it alert. -/
theorem Synced.alert_handOver (h : w.Synced) (cfg : Config) : (w.wake cfg .handOver).Alert := by
  by_cases hw : w.flag = .wait
  · rw [Wake.wake, if_pos hw]
    exact ⟨fun _ ↦ Or.inr notifications_notify_pos, fun _ ↦ Or.inr notifications_notify_pos⟩
  · rw [Wake.wake, if_neg hw]
    refine ⟨fun _ ↦ Or.inl rfl, fun hpc ↦ Or.inl ?_⟩
    exact h.skip_eq_true hpc hw

theorem Alert.wake (h : w.Alert) (cfg : Config) (kind : StcpNet.WakeKind) :
    (w.wake cfg kind).Alert := by
  refine ⟨fun hpc ↦ ?_, fun hpc ↦ ?_⟩
  · rw [pc_wake] at hpc
    rcases h.first hpc with hskip | hn
    · left
      rcases flag_wake cfg w kind with hsame | ⟨-, hset⟩
      · rw [hsame, hskip]
      · exact hset
    · exact Or.inr (hn.trans_le (notifications_le_wake kind))
  · rw [pc_wake] at hpc
    rw [skip_wake]
    exact (h.between hpc).imp_right fun hn ↦ hn.trans_le (notifications_le_wake kind)

/-- Only the second section of the background thread ends this. -/
theorem Alert.step (h : w.Alert) (hstep : Step cfg w w') (hno : w.pc = .second → w'.pc ≠ .first) :
    w'.Alert := by
  cases hstep with
  | app kind c =>
    obtain ⟨hfirst, hbetween⟩ := h.wake cfg kind
    exact ⟨hfirst, hbetween⟩
  | first hpc delay =>
    refine ⟨fun h' ↦ ?_, fun _ ↦ ?_⟩
    · simp only [Wake.first] at h'
      split at h' <;> exact absurd h' (by simp)
    · rcases h.first hpc with hs | hn
      · exact Or.inl (by simp [Wake.first, hs])
      · exact Or.inr hn
  | poll hpc => exact ⟨fun h' ↦ absurd h' (by simp), fun _ ↦ h.between (Or.inl hpc)⟩
  | second hpc => exact absurd rfl (hno hpc)
  | panic flag => exact ⟨fun h' ↦ absurd h' (by simp), fun h' ↦ absurd h' (by simp)⟩

end Wake

namespace State

open Transition

variable {T : Smoltcp} {cfg : Config} {s s' : State T}

theorem synced_of_run {as : List (Action T)} (h : run (step cfg) initial as = some s) :
    s.wake.Synced :=
  invariant_of_run (I := fun s ↦ s.wake.Synced) (fun _ _ _ hs hstep ↦ hs.step (wake_step hstep))
    (fun hpc ↦ absurd hpc (by simp [wake, initial])) h

/-- A section that wakes the background thread leaves it alert, from every state of a run. -/
theorem alert_apply {c : Change T} (hs : s.wake.Synced) (hc : c.wake = .handOver) :
    (s.apply cfg c).wake.Alert := by
  rw [wake_apply, hc]
  exact ⟨(hs.alert_handOver cfg).first, (hs.alert_handOver cfg).between⟩

theorem alert_step {a : Action T} (hs : s.wake.Alert) (ha : ∀ events, a ≠ .bgSecond events)
    (h : s.step cfg a = some s') : s'.wake.Alert := by
  refine hs.step (wake_step h) fun hpc hpc' ↦ ?_
  rcases step_cases h with ⟨now, -, h⟩ | ⟨ok, -, h⟩ | ⟨events, rfl, -⟩ | ⟨c, -, rfl⟩
  · exact absurd (hpc.symm.trans (bgFirst_cases h).1) (by simp)
  · exact absurd (hpc.symm.trans (bgPoll_cases h).1) (by simp)
  · exact ha events rfl
  · exact absurd (hpc.symm.trans hpc') (by simp)

theorem alert_of_run {as : List (Action T)} (hs : s.wake.Alert)
    (hno : ∀ events, .bgSecond events ∉ as) (h : run (step cfg) s as = some s') :
    s'.wake.Alert := by
  induction as generalizing s with
  | nil =>
    rw [run_nil, Option.some_inj] at h
    rwa [← h]
  | cons a as ih =>
    obtain ⟨t, ht, h⟩ := run_cons_eq_some.mp h
    exact ih (alert_step hs (fun events he ↦ hno events (he ▸ List.mem_cons_self)) ht)
      (fun events hmem ↦ hno events (List.mem_cons_of_mem _ hmem)) h

/-! ## What the background thread polls -/

/-- The list of descriptors is empty until it is made for the first time, and then up to date. -/
structure Polls (cfg : Config) (s : State T) : Prop where
  fds_eq : s.bg.fds = [] ∨ s.bg.fds = [cfg.fd, cfg.notifyPollListener] ++ s.bg.fdsExtra
  between : s.bg.pc = .polling ∨ s.bg.pc = .second →
    s.bg.fds = [cfg.fd, cfg.notifyPollListener] ++ s.bg.fdsExtra

theorem Polls.step {a : Action T} (hs : Polls cfg s) (h : s.step cfg a = some s') :
    Polls cfg s' := by
  rcases step_cases h with ⟨now, -, h⟩ | ⟨ok, -, h⟩ | ⟨events, -, h⟩ | ⟨c, -, rfl⟩
  · obtain ⟨hpc, ⟨-, rfl⟩ | ⟨fdsExtra, hextra, rfl⟩⟩ := bgFirst_cases h
    · exact ⟨hs.fds_eq, fun h' ↦ absurd h' (by simp)⟩
    · have hfds : s.polledFds cfg fdsExtra = [cfg.fd, cfg.notifyPollListener] ++ fdsExtra := by
        rw [polledFds]
        split
        · rfl
        · -- nothing was added and nothing removed, so the list of the last time will do
          rename_i hsame
          simp only [Bool.or_eq_true, not_or, Bool.not_eq_true', Bool.not_eq_false,
            List.isEmpty_iff] at hsame
          obtain ⟨⟨hne, hadd⟩, hremove⟩ := hsame
          rw [hadd, hremove, List.append_nil, removeFds, Option.some_inj] at hextra
          rw [← hextra]
          exact hs.fds_eq.resolve_left hne
      exact ⟨Or.inr hfds, fun _ ↦ hfds⟩
  · obtain ⟨hpc, rfl⟩ := bgPoll_cases h
    exact ⟨hs.fds_eq, fun _ ↦ hs.between (Or.inl hpc)⟩
  · obtain ⟨hpc, rfl⟩ := bgSecond_cases h
    exact ⟨hs.fds_eq, fun h' ↦ absurd h' (by simp)⟩
  · exact ⟨hs.fds_eq, hs.between⟩

theorem polls_of_run {as : List (Action T)} (h : run (step cfg) initial as = some s) :
    Polls cfg s :=
  invariant_of_run (I := Polls cfg) (fun _ _ _ hs hstep ↦ hs.step hstep)
    ⟨Or.inl rfl, fun hpc ↦ absurd hpc (by simp [initial])⟩ h

end State

end UsnetSockets
