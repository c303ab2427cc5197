import Mathlib.Data.List.Induction
import UsnetSockets.Net.Sleep

/-!
# Notifications and the length of the wait

A critical section that has something for the background thread sends it a datagram, as long as the
flag says `Wait`. Nobody takes the datagrams until the second critical section of the background
thread, and the socket pair holds only so many; the `unwrap` on the result of `send` then panics in
the call of the application. How often this can happen is a matter of counting the sections that
send between two drains.

The other question here is how long the background thread waits. smoltcp reports a number of
milliseconds, which is cast to a `c_int` for `poll(2)` and kept in `current_wait_delay`, where
`read` looks it up to decide whether the wait is short enough.
-/

namespace UsnetSockets

namespace Wake

/-- Whether the end of a critical section calls `notify_poll.send`. -/
def sends (w : Wake) : StcpNet.WakeKind → Bool
  | .none => false
  | .handOver => w.flag == .wait
  | .afterRead => w.flag == .wait && (w.currentWaitDelay == -1 || decide (w.currentWaitDelay > 10))

variable {cfg : Config} {w : Wake}

/-- All that the end of a critical section does to the notifications. -/
theorem notifications_wake (kind : StcpNet.WakeKind) : (w.wake cfg kind).notifications =
    if w.sends kind ∧ w.notifications < cfg.notifyCapacity then w.notifications + 1
    else w.notifications := by
  cases kind with
  | none => simp [wake, sends]
  | handOver =>
    by_cases hw : w.flag = .wait
    · by_cases hn : w.notifications < cfg.notifyCapacity <;> simp [wake, sends, notify, hw, hn]
    · simp [wake, sends, hw]
  | afterRead =>
    by_cases hw : w.flag = .wait ∧ (w.currentWaitDelay = -1 ∨ w.currentWaitDelay > 10)
    · by_cases hn : w.notifications < cfg.notifyCapacity <;> simp [wake, sends, notify, hw, hn]
    · simp only [wake, if_neg hw]
      rw [if_neg]
      simpa [sends] using fun h h' ↦ absurd ⟨h, h'⟩ hw

/-- While the flag is `Wait`, critical sections of the application leave it. -/
theorem flag_wake_of_wait (kind : StcpNet.WakeKind) (h : w.flag = .wait) :
    (w.wake cfg kind).flag = .wait := by
  cases kind with
  | none => exact h
  | handOver => simp [wake, h]
  | afterRead =>
    simp only [wake]
    split <;> simp [h]

@[simp] theorem currentWaitDelay_wake (kind : StcpNet.WakeKind) :
    (w.wake cfg kind).currentWaitDelay = w.currentWaitDelay := by
  cases kind <;> simp only [wake, notify] <;> repeat' split
  all_goals rfl

end Wake

namespace State

open Transition

variable {T : Smoltcp} {cfg : Config} {s s' : State T} {a : Action T}

/-! ## Between two drains -/

/-- Whether the critical section calls `notify_poll.send`. -/
def notifies (cfg : Config) (s : State T) (a : Action T) : Bool :=
  match s.change cfg a with
  | some c => s.wake.sends c.wake
  | none => false

/-- The `unwrap` on `notify_poll.send` does not panic in the critical section. -/
def SendSucceeds (cfg : Config) (s : State T) (a : Action T) : Prop :=
  ∀ c, s.change cfg a = some c → (s.net.wake cfg c.wake).isSome

/-- How many of the critical sections of a run call `notify_poll.send`. -/
def sent (cfg : Config) : State T → List (Action T) → ℕ
  | _, [] => 0
  | s, a :: as => (if s.notifies cfg a then 1 else 0) +
    match s.step cfg a with
    | some s' => sent cfg s' as
    | none => 0

/-- The notifications are drained by the second critical section of the background thread. -/
def Drains (a : Action T) : Prop := ∃ events, a = .bgSecond events

theorem isSome_wake_iff (kind : StcpNet.WakeKind) : (s.net.wake cfg kind).isSome ↔
    (s.wake.sends kind → s.net.notifications < cfg.notifyCapacity) := by
  cases kind with
  | none => simp [StcpNet.wake, Wake.sends]
  | handOver =>
    by_cases hw : s.net.bgSkipOneWait = .wait
    · by_cases hn : s.net.notifications < cfg.notifyCapacity <;>
        simp [StcpNet.wake, StcpNet.wakeBg, StcpNet.notify, Wake.sends, wake, hw, hn]
    · simp [StcpNet.wake, StcpNet.wakeBg, Wake.sends, wake, hw]
  | afterRead =>
    by_cases hw : s.net.bgSkipOneWait = .wait ∧
        (s.net.currentWaitDelay = -1 ∨ s.net.currentWaitDelay > 10)
    · by_cases hn : s.net.notifications < cfg.notifyCapacity <;>
        simp [StcpNet.wake, StcpNet.wakeBgAfterRead, StcpNet.notify, Wake.sends, wake, hw, hn]
    · simp only [StcpNet.wake, StcpNet.wakeBgAfterRead, if_neg hw, Option.isSome_some, true_iff]
      simpa [Wake.sends, wake] using fun h h' ↦ absurd ⟨h, h'⟩ hw

theorem sendSucceeds_iff : SendSucceeds cfg s a ↔
    (s.notifies cfg a → s.net.notifications < cfg.notifyCapacity) := by
  rw [SendSucceeds, notifies]
  cases s.change cfg a with
  | none => simp
  | some c => simp [isSome_wake_iff]

/-- **What a step does to the notifications.** A drain takes all of them, and a section that sends
one adds one if there is room. -/
theorem notifications_step (h : s.step cfg a = some s') (ha : ¬Drains a) :
    s'.net.notifications = s.net.notifications +
      if s.notifies cfg a ∧ s.net.notifications < cfg.notifyCapacity then 1 else 0 := by
  have hbg (hno : s.change cfg a = none) (he : s'.net.notifications = s.net.notifications) :
      s'.net.notifications = s.net.notifications +
        if s.notifies cfg a ∧ s.net.notifications < cfg.notifyCapacity then 1 else 0 := by
    simp [notifies, hno, he]
  rcases step_cases h with ⟨now, rfl, h⟩ | ⟨ok, rfl, h⟩ | ⟨events, rfl, -⟩ | ⟨c, hc, rfl⟩
  · obtain ⟨-, ⟨-, rfl⟩ | ⟨fdsExtra, -, rfl⟩⟩ := bgFirst_cases h <;> exact hbg rfl rfl
  · obtain ⟨-, rfl⟩ := bgPoll_cases h
    exact hbg rfl rfl
  · exact absurd ⟨events, rfl⟩ ha
  · have hwake : (s.apply cfg c).wake.notifications = _ := congrArg _ (wake_apply c)
    rw [show (s.apply cfg c).net.notifications = (s.apply cfg c).wake.notifications from rfl, hwake]
    dsimp only
    rw [Wake.notifications_wake, notifies, hc]
    simp only [show s.wake.notifications = s.net.notifications from rfl]
    split <;> rfl

theorem notifications_le_capacity {as : List (Action T)}
    (hrun : run (step cfg) initial as = some s) : s.net.notifications ≤ cfg.notifyCapacity := by
  refine invariant_of_run (I := fun s : State T ↦ s.net.notifications ≤ cfg.notifyCapacity)
    (fun s a s' hs h ↦ ?_) (Nat.zero_le _) hrun
  by_cases ha : Drains a
  · obtain ⟨events, rfl⟩ := ha
    obtain ⟨-, rfl⟩ := bgSecond_cases h
    exact Nat.zero_le _
  · rw [notifications_step h ha]
    split
    · rename_i hroom
      exact hroom.2
    · exact hs

theorem sent_cons (h : s.step cfg a = some s') (as : List (Action T)) :
    sent cfg s (a :: as) = (if s.notifies cfg a then 1 else 0) + sent cfg s' as := by
  rw [sent, h]

theorem sent_snoc {as : List (Action T)} (h : run (step cfg) s as = some s') (a : Action T) :
    sent cfg s (as ++ [a]) = sent cfg s as + if s'.notifies cfg a then 1 else 0 := by
  induction as generalizing s with
  | nil =>
    rw [run_nil, Option.some_inj] at h
    subst h
    simp only [List.nil_append, sent]
    split <;> split <;> simp
  | cons b as ih =>
    obtain ⟨t, ht, h⟩ := run_cons_eq_some.mp h
    rw [List.cons_append, sent_cons ht, sent_cons ht, ih h, Nat.add_assoc]

/-- Without a drain, what is sent adds up if it succeeds. -/
theorem notifications_eq_of_run {as : List (Action T)} (hrun : run (step cfg) s as = some s')
    (hno : ∀ a ∈ as, ¬Drains a) (hsucc : Along (step cfg) (SendSucceeds cfg) s as) :
    s'.net.notifications = s.net.notifications + sent cfg s as := by
  induction as generalizing s with
  | nil =>
    rw [run_nil, Option.some_inj] at hrun
    rw [← hrun]
    rfl
  | cons a as ih =>
    obtain ⟨t, ht, hrun⟩ := run_cons_eq_some.mp hrun
    rw [List.forall_mem_cons] at hno
    have hfirst := notifications_step ht hno.1
    have hroom := sendSucceeds_iff.mp hsucc.1
    rw [ih hrun hno.2 (hsucc.2 t ht), sent_cons ht, hfirst]
    by_cases hn : s.notifies cfg a
    · simp [hn, hroom hn, Nat.add_assoc]
    · simp [hn]

/-- Whatever has been sent since the last drain is all that is there. -/
theorem exists_stretch {as : List (Action T)} (hrun : run (step cfg) initial as = some s) :
    ∃ before stretch t, as = before ++ stretch ∧ (∀ a ∈ stretch, ¬Drains a) ∧
      run (step cfg) initial before = some t ∧ run (step cfg) t stretch = some s ∧
      s.net.notifications ≤ sent cfg t stretch := by
  induction as using List.reverseRecOn generalizing s with
  | nil => exact ⟨[], [], initial, rfl, by simp, rfl, hrun, by
      rw [run_nil, Option.some_inj] at hrun
      rw [← hrun]
      rfl⟩
  | append_singleton as a ih =>
    obtain ⟨u, hu, hstep⟩ := run_snoc_eq_some.mp hrun
    by_cases ha : Drains a
    · obtain ⟨events, rfl⟩ := ha
      refine ⟨as ++ [.bgSecond events], [], s, by simp, by simp, hrun, rfl, ?_⟩
      obtain ⟨-, rfl⟩ := bgSecond_cases hstep
      exact Nat.zero_le _
    · obtain ⟨before, stretch, t, rfl, hno, ht, hrest, hle⟩ := ih hu
      refine ⟨before, stretch ++ [a], t, by simp, ?_, ht, ?_, ?_⟩
      · simpa [or_imp, forall_and] using ⟨hno, ha⟩
      · exact run_snoc_eq_some.mpr ⟨u, hrest, hstep⟩
      · rw [notifications_step hstep ha, sent_snoc hrest]
        refine Nat.add_le_add hle ?_
        split
        · rename_i hroom
          simp [hroom.1]
        · exact Nat.zero_le _

/-- **When notifications make a call panic.** Every `notify_poll.send` of a run succeeds if and only
if in every stretch of the run without a drain at most as many critical sections send as fit in the
socket pair. -/
theorem sends_succeed_iff {as : List (Action T)} (hrun : run (step cfg) initial as = some s) :
    Along (step cfg) (SendSucceeds cfg) initial as ↔
    ∀ before stretch after t, as = before ++ stretch ++ after → (∀ a ∈ stretch, ¬Drains a) →
      run (step cfg) initial before = some t → sent cfg t stretch ≤ cfg.notifyCapacity := by
  constructor
  · intro hsucc before stretch after t he hno ht
    subst he
    obtain ⟨u, hu, -⟩ := run_append_eq_some.mp hrun
    obtain ⟨t', ht', hstretch⟩ := run_append_eq_some.mp hu
    obtain rfl : t = t' := Option.some.inj (ht.symm.trans ht')
    have hpart : Along (step cfg) (SendSucceeds cfg) t stretch :=
      along_iff_forall.mpr fun before' a after' v he hv ↦ along_iff_forall.mp hsucc
        (before ++ before') a (after' ++ after) v (by simp [he])
        (run_append_eq_some.mpr ⟨t, ht, hv⟩)
    have hsum := notifications_eq_of_run hstretch hno hpart
    have hle := notifications_le_capacity hu
    omega
  · intro hstretch
    refine along_iff_forall.mpr fun before a after t he ht ↦ sendSucceeds_iff.mpr fun hn ↦ ?_
    obtain ⟨before, stretch, u, rfl, hno, hu, hut, hle⟩ := exists_stretch ht
    -- the section itself belongs to the stretch since the last drain
    have hna : ¬Drains a := by
      rintro ⟨events, rfl⟩
      exact absurd hn (by simp [notifies, change])
    have hcount := hstretch before (stretch ++ [a]) after u (by simp [he]) (by
      simpa [or_imp, forall_and] using ⟨hno, hna⟩) hu
    rw [sent_snoc hut, if_pos hn] at hcount
    omega

/-- A stream is connected, and then written to `n` times while the background thread waits. -/
def writeAsleep (n : ℕ) : List (Action .reference) :=
  connectRemote ++ [.bgFirst 0, .bgPoll true, .bgSecond [(0, .ack), (0, .sent)], .connectWake 0,
    .bgFirst 0] ++ List.replicate n (.write 0 [0])

theorem sends_succeed_writeAsleep : ∃ s,
    run (step .reference) initial (writeAsleep 1) = some s ∧ s.bg.pc = .polling ∧
    ∀ before stretch after t, writeAsleep 1 = before ++ stretch ++ after →
      (∀ a ∈ stretch, ¬Drains a) → run (step .reference) initial before = some t →
      sent .reference t stretch ≤ Config.reference.notifyCapacity := by
  have hsucc : Along (step .reference) (SendSucceeds .reference) initial (writeAsleep 1) := by
    refine (along_cons_of_step rfl).mpr ⟨sendSucceeds_iff.mpr fun _ ↦ by decide, ?_⟩
    refine (along_cons_of_step rfl).mpr ⟨sendSucceeds_iff.mpr fun _ ↦ by decide, ?_⟩
    refine (along_cons_of_step rfl).mpr ⟨sendSucceeds_iff.mpr fun _ ↦ by decide, ?_⟩
    refine (along_cons_of_step rfl).mpr ⟨sendSucceeds_iff.mpr fun _ ↦ by decide, ?_⟩
    refine (along_cons_of_step rfl).mpr ⟨sendSucceeds_iff.mpr fun _ ↦ by decide, ?_⟩
    refine (along_cons_of_step rfl).mpr ⟨sendSucceeds_iff.mpr fun _ ↦ by decide, ?_⟩
    refine (along_cons_of_step rfl).mpr ⟨sendSucceeds_iff.mpr fun _ ↦ by decide, ?_⟩
    exact (along_cons_of_step rfl).mpr ⟨sendSucceeds_iff.mpr fun _ ↦ by decide, trivial⟩
  obtain ⟨s, hrun, hpc⟩ := Option.map_eq_some_iff.mp (show (run (step .reference) initial
    (writeAsleep 1)).map (fun s ↦ s.bg.pc) = some .polling from rfl)
  exact ⟨s, hrun, hpc, (sends_succeed_iff hrun).mp hsucc⟩

/-- The socket pair holds ten datagrams, and the eleventh write panics. -/
theorem not_sends_succeed : ∃ s,
    run (step .reference) initial (writeAsleep 10) = some s ∧ s.callPanicked = false ∧
    ¬SendSucceeds .reference s (.write 0 [0]) ∧
    ∃ s', s.step .reference (.write 0 [0]) = some s' ∧ s'.callPanicked = true := by
  obtain ⟨s, hrun, hs⟩ := Option.map_eq_some_iff.mp (show (run (step .reference) initial
    (writeAsleep 10)).map (fun s ↦ (s.callPanicked, s.notifies .reference (.write 0 [0]),
      s.net.notifications, (s.step .reference (.write 0 [0])).map State.callPanicked)) =
      some (false, true, 10, some true) from rfl)
  simp only [Prod.mk.injEq] at hs
  obtain ⟨hno, hn, hfull, hpanic⟩ := hs
  obtain ⟨s', hs', hp⟩ := Option.map_eq_some_iff.mp hpanic
  refine ⟨s, hrun, hno, fun h ↦ ?_, s', hs', hp⟩
  have hroom := sendSucceeds_iff.mp h hn
  rw [hfull] at hroom
  exact absurd hroom (by decide)

/-! ## How long the background thread waits -/

/-- The time-out that `poll(2)` is called with is not longer than what smoltcp has reported, and is
without end only if smoltcp has reported nothing. -/
def InTime (reported : Option ℕ) (timeout : ℤ) : Prop :=
  (timeout < 0 → reported = none) ∧
    ∀ millis, reported = some millis → 0 ≤ timeout ∧ timeout ≤ millis

/-- The critical section takes data from the receive buffer of a stream: it is one of `read` or
`read_no_copy`, and finds a stream that can receive. -/
inductive TakesData (s : State T) : Action T → Prop
  | read {i : ℕ} {h : SocketHandle} {t : T.Tcp} (len : ℕ)
      (hstream : s.objects[i]? = some (.stream h)) (ht : s.net.sockets.getTcp h = some t)
      (hrecv : T.mayRecv t ∧ T.canRecv t) : TakesData s (.read i len)
  | readNoCopy {i : ℕ} {h : SocketHandle} {t : T.Tcp} (f : List UInt8 → ℕ)
      (hstream : s.objects[i]? = some (.stream h)) (ht : s.net.sockets.getTcp h = some t)
      (hrecv : T.mayRecv t ∧ T.canRecv t) : TakesData s (.readNoCopy i f)

/-- Whatever takes data ends by looking whether the background thread is to be woken. -/
theorem wake_of_takesData {c : Change T} (h : TakesData s a) (hc : s.change cfg a = some c) :
    c.wake = .afterRead := by
  rcases h with ⟨len, hobj, ht, hrecv⟩ | ⟨f, hobj, ht, hrecv⟩
  · simp only [change, read, readWith, hobj, ht, hrecv, Bool.and_self, if_true,
      Option.some_inj] at hc
    rw [← hc]
  · simp only [change, readNoCopy, readWith, hobj, ht, hrecv, Bool.and_self, if_true,
      Option.some_inj] at hc
    rw [← hc]

/-- A cast to `c_int` keeps the milliseconds in order as long as the sign bit stays clear. -/
theorem inTime_toDelay_iff (d : Option ℕ) :
    InTime d (toDelay d) ↔ ∀ millis, d = some millis → millis % 2 ^ 32 < 2 ^ 31 := by
  cases d with
  | none => simp [InTime]
  | some millis =>
    have hcast : toDelay (some millis) = (millis : ℤ).bmod 4294967296 := rfl
    rw [InTime, hcast, Int.bmod_def]
    simp only [Option.some_inj, reduceCtorEq, imp_false, not_lt, forall_eq']
    split <;> omega

/-- The background thread is in its wait, and everybody knows for how long. -/
structure Asleep (d : ℤ) (w : Wake) : Prop where
  pc : w.pc = .polling
  flag : w.flag = .wait
  delay : w.delay = d
  known : w.currentWaitDelay = d

theorem asleep_of_bgFirst {now : ℕ} (h : s.step cfg (.bgFirst now) = some s')
    (hpc : s'.bg.pc = .polling) :
    Asleep (toDelay (T.pollDelay s.net.sockets.sockets now)) s'.wake := by
  obtain ⟨-, ⟨-, rfl⟩ | ⟨fdsExtra, -, rfl⟩⟩ := bgFirst_cases h
  · exact absurd hpc (by simp)
  · refine ⟨hpc, ?_, rfl, rfl⟩
    simp only [wake]
    dsimp only at hpc
    split at hpc
    · rename_i hwait
      rw [if_neg (by simpa using (Bool.and_eq_true_iff.mp hwait).2)]
    · exact absurd hpc (by simp)

theorem Asleep.step {d : ℤ} (hs : Asleep d s.wake) (ha : ∀ ok, a ≠ .bgPoll ok)
    (h : s.step cfg a = some s') : Asleep d s'.wake := by
  rcases step_cases h with ⟨now, -, h⟩ | ⟨ok, rfl, -⟩ | ⟨events, -, h⟩ | ⟨c, -, rfl⟩
  · exact absurd (hs.pc.symm.trans (bgFirst_cases h).1) (by simp)
  · exact absurd rfl (ha ok)
  · exact absurd (hs.pc.symm.trans (bgSecond_cases h).1) (by simp)
  · rw [wake_apply]
    exact ⟨by simpa using hs.pc, by simp [Wake.flag_wake_of_wait, hs.flag], by simpa using hs.delay,
      by simpa using hs.known⟩

/-- What `read` leaves behind while the background thread sleeps: a notification, unless the sleep
is known to be short. -/
theorem notified_of_takesData {d : ℤ} (hs : Asleep d s.wake) (ha : TakesData s a)
    (h : s.step cfg a = some s') (hlong : d = -1 ∨ d > 10) : 0 < s'.net.notifications := by
  rcases step_cases h with ⟨now, rfl, -⟩ | ⟨ok, rfl, -⟩ | ⟨events, rfl, -⟩ | ⟨c, hc, rfl⟩
  · nomatch ha
  · nomatch ha
  · nomatch ha
  · have hwake := wake_of_takesData ha hc
    have hn : (s.apply cfg c).wake.notifications = _ := congrArg _ (wake_apply c)
    refine lt_of_lt_of_eq ?_ hn.symm
    have hsend : s.wake.flag = .wait ∧
        (s.wake.currentWaitDelay = -1 ∨ s.wake.currentWaitDelay > 10) :=
      ⟨hs.flag, by rwa [hs.known]⟩
    simp only [hwake, Wake.wake, if_pos hsend]
    exact Wake.notifications_notify_pos

theorem notifications_le_of_run {as : List (Action T)} {d : ℤ} (hs : Asleep d s.wake)
    (hno : ∀ ok, .bgPoll ok ∉ as) (hrun : run (step cfg) s as = some s') :
    Asleep d s'.wake ∧ s.net.notifications ≤ s'.net.notifications := by
  induction as generalizing s with
  | nil =>
    rw [run_nil, Option.some_inj] at hrun
    rw [← hrun]
    exact ⟨hs, le_rfl⟩
  | cons a as ih =>
    obtain ⟨t, ht, hrun⟩ := run_cons_eq_some.mp hrun
    have hnext := hs.step (fun ok he ↦ hno ok (he ▸ List.mem_cons_self)) ht
    obtain ⟨hasleep, hle⟩ := ih hnext (fun ok hok ↦ hno ok (List.mem_cons_of_mem _ hok)) hrun
    refine ⟨hasleep, le_trans ?_ hle⟩
    have hna : ¬Drains a := by
      rintro ⟨events, rfl⟩
      exact absurd (hs.pc.symm.trans (bgSecond_cases ht).1) (by simp)
    rw [notifications_step ht hna]
    exact Nat.le_add_right _ _

/-- **How long the background thread waits.** From the moment it decides to wait until the wait is
over, the time-out is not longer than what smoltcp has reported, and after a `read` there is a
notification or the wait is at most ten milliseconds long, if and only if the number of milliseconds
that smoltcp reported has a clear sign bit as a `c_int`. -/
theorem wait_in_time_iff {now : ℕ} {t : State T} (hfirst : s.step cfg (.bgFirst now) = some t)
    (hpc : t.bg.pc = .polling) :
    (∀ wait t', run (step cfg) t wait = some t' → (∀ ok, .bgPoll ok ∉ wait) →
      InTime (T.pollDelay s.net.sockets.sockets now) t'.bg.delay ∧
      ∀ before a after u, wait = before ++ a :: after → run (step cfg) t before = some u →
        TakesData u a → 0 < t'.net.notifications ∨ 0 ≤ t'.bg.delay ∧ t'.bg.delay ≤ 10) ↔
    ∀ millis, T.pollDelay s.net.sockets.sockets now = some millis → millis % 2 ^ 32 < 2 ^ 31 := by
  have hasleep := asleep_of_bgFirst hfirst hpc
  rw [← inTime_toDelay_iff]
  constructor
  · intro h
    obtain ⟨hin, -⟩ := h [] t rfl (by simp)
    rwa [show t.bg.delay = _ from hasleep.delay] at hin
  · intro hin wait t' hwait hno
    have hdelay : t'.bg.delay = _ := (notifications_le_of_run hasleep hno hwait).1.delay
    rw [hdelay]
    refine ⟨hin, fun before a after u he hu htakes ↦ ?_⟩
    subst he
    by_cases hshort : 0 ≤ toDelay (T.pollDelay s.net.sockets.sockets now) ∧
        toDelay (T.pollDelay s.net.sockets.sockets now) ≤ 10
    · exact Or.inr hshort
    · -- then the delay is negative because smoltcp reported none, or long
      left
      have hlong : toDelay (T.pollDelay s.net.sockets.sockets now) = -1 ∨
          toDelay (T.pollDelay s.net.sockets.sockets now) > 10 := by
        rcases lt_or_ge (toDelay (T.pollDelay s.net.sockets.sockets now)) 0 with hneg | hpos
        · rw [hin.1 hneg]
          exact Or.inl rfl
        · omega
      obtain ⟨u', hu', hafter⟩ := run_append_eq_some.mp hwait
      obtain rfl : u = u' := Option.some.inj (hu.symm.trans hu')
      obtain ⟨v, hv, hafter⟩ := run_cons_eq_some.mp hafter
      have hsleep := (notifications_le_of_run hasleep
        (fun ok hok ↦ hno ok (List.mem_append_left _ hok)) hu).1
      have hsleep' := hsleep.step
        (fun ok he ↦ hno ok (List.mem_append_right _ (he ▸ List.mem_cons_self))) hv
      exact (notified_of_takesData hsleep htakes hv hlong).trans_le (notifications_le_of_run hsleep'
        (fun ok hok ↦ hno ok (List.mem_append_right _ (List.mem_cons_of_mem _ hok))) hafter).2

/-- A stream is connected and its peer has sent five bytes, up to the point where the background
thread is about to wait. -/
def dataReceived : List (Action .reference) :=
  connectRemote ++ [.bgFirst 0, .bgPoll true, .bgSecond [(0, .ack), (0, .data 5), (0, .sent)],
    .connectWake 0]

theorem wait_in_time_dataReceived : ∃ s t t',
    run (step .reference) initial dataReceived = some s ∧
    s.step .reference (.bgFirst 0) = some t ∧ t.bg.pc = .polling ∧
    run (step .reference) t [.read 0 10] = some t' ∧ TakesData t (.read 0 10) ∧
    InTime (Smoltcp.reference.pollDelay s.net.sockets.sockets 0) t'.bg.delay ∧
    (0 < t'.net.notifications ∨ 0 ≤ t'.bg.delay ∧ t'.bg.delay ≤ 10) := by
  obtain ⟨s, hrun, hnone⟩ := Option.map_eq_some_iff.mp (show (run (step .reference) initial
    dataReceived).map (fun s ↦ Smoltcp.reference.pollDelay s.net.sockets.sockets 0) = some none
    from rfl)
  obtain ⟨t, hfirst, hpc, t', ht', htakes⟩ : ∃ t, s.step .reference (.bgFirst 0) = some t ∧
      t.bg.pc = .polling ∧ ∃ t', run (step .reference) t [.read 0 10] = some t' ∧
      TakesData t (.read 0 10) := by
    obtain rfl := Option.some.inj hrun
    exact ⟨_, rfl, rfl, _, rfl, .read 10 rfl rfl ⟨rfl, rfl⟩⟩
  obtain ⟨hin, hread⟩ := (wait_in_time_iff hfirst hpc).mpr (by simp [hnone]) _ t' ht' (by simp)
  exact ⟨s, t, t', hrun, hfirst, hpc, ht', htakes, hin, hread [] _ [] t rfl rfl htakes⟩

/-- The reference stack with a timer that runs out in `millis` milliseconds. -/
def timerStack (millis : ℕ) : Smoltcp := { Smoltcp.reference with
  pollDelay := fun sockets _ ↦
    if sockets.any fun socket ↦ socket.elim ReferenceTcp.due fun _ ↦ false then some 0
    else some millis
  pollDelay_of_segmentDue := by
    rintro sockets now ⟨t, ht, hdue⟩
    rw [if_pos]
    exact List.any_eq_true.mpr ⟨.inl t, ht, hdue⟩ }

/-- As `dataReceived`, and the timer is as far away as a `c_int` does not reach. -/
def dataReceivedTimer : List (Action (timerStack (2 ^ 31))) :=
  [.connect [⟨.v4 10 0 0 9, 80⟩] false,
    .connectNext 0 [⟨⟨2000, RandomPort.le_2000⟩, .ok ()⟩] 0 (.ok ()),
    .bgFirst 0, .bgPoll true,
    .bgSecond [(0, ReferenceEvent.ack), (0, ReferenceEvent.data 5), (0, ReferenceEvent.sent)],
    .connectWake 0]

theorem not_wait_in_time : ∃ s t t',
    run (step .reference) initial dataReceivedTimer = some s ∧
    s.step .reference (.bgFirst 0) = some t ∧ t.bg.pc = .polling ∧
    (timerStack (2 ^ 31)).pollDelay s.net.sockets.sockets 0 = some (2 ^ 31) ∧
    run (step .reference) t [.read 0 10] = some t' ∧ TakesData t (.read 0 10) ∧
    t'.bg.delay = -2 ^ 31 ∧ t'.net.notifications = 0 :=
  ⟨_, _, _, rfl, rfl, rfl, rfl, rfl, .read 10 rfl rfl ⟨rfl, rfl⟩, rfl, rfl⟩

end State

end UsnetSockets
