import UsnetSockets.Net.Registry

/-!
# When the background thread may sleep

Two questions about the same moment, in which the background thread waits in `poll(2)` and no
notification is there to end the wait. The operations that hand something to the stack wake the
background thread, and nothing they hand over is left behind. The operations that close a
connection do not; what they leave to be sent waits with the background thread, unless smoltcp is
asked for a delay between the closing and the wait.
-/

namespace UsnetSockets

namespace State

open Transition

variable {T : Smoltcp} {cfg : Config} {s s' : State T} {a : Action T}

/-! ## Handing something over -/

/-- The background thread does not wait before its next `StcpNet::poll`: it is going to read that
it should not, or it has read it. -/
def WontWait (s : State T) : Prop :=
  (s.bg.pc = .first ∧ s.net.bgSkipOneWait = .skip) ∨ (s.bg.pc ≠ .first ∧ s.bg.skip = true)

/-- The background thread dies of an error of `poll(2)`, and of descriptors that it does not have,
which come from dropping listeners and UDP sockets. -/
def Deadly (a : Action T) : Prop := (∃ i, DropsAt a i) ∨ a = .bgPoll false

theorem fdsRemove_eq_nil_of_change {c : Change T} (h : s.change cfg a = some c)
    (ha : ¬Deadly a) : c.fdsRemove = [] := by
  cases queues_of_change h with
  | neutral hc _ => exact hc.1.2.1
  | register _ _ hrem _ _ => exact hrem
  | drop hd _ _ _ _ _ => exact absurd (Or.inl ⟨_, hd⟩) ha

/-- Without such an action the background thread has nothing to remove, and lives. -/
theorem alive_step (hs : s.bg.pc ≠ .panicked ∧ s.net.fdsRemove = []) (ha : ¬Deadly a)
    (h : s.step cfg a = some s') : s'.bg.pc ≠ .panicked ∧ s'.net.fdsRemove = [] := by
  rcases step_cases h with ⟨now, -, h⟩ | ⟨ok, rfl, h⟩ | ⟨events, -, h⟩ | ⟨c, hc, rfl⟩
  · obtain ⟨-, ⟨hnone, -⟩ | ⟨fdsExtra, -, rfl⟩⟩ := bgFirst_cases h
    · rw [hs.2, removeFds] at hnone
      exact absurd hnone (by simp)
    · refine ⟨?_, rfl⟩
      dsimp only
      split <;> simp
  · obtain ⟨-, rfl⟩ := bgPoll_cases h
    cases ok with
    | true => exact ⟨by simp, hs.2⟩
    | false => exact absurd (Or.inr rfl) ha
  · obtain ⟨-, rfl⟩ := bgSecond_cases h
    exact ⟨by simp, hs.2⟩
  · refine ⟨hs.1, ?_⟩
    rw [fdsRemove_apply, hs.2, fdsRemove_eq_nil_of_change hc ha]
    rfl

theorem exists_deadly {as : List (Action T)} (hrun : run (step cfg) initial as = some s)
    (hpc : s.bg.pc = .panicked) : ∃ a ∈ as, Deadly a := by
  by_contra hno
  push Not at hno
  have halong : Along (step cfg) (fun _ a ↦ ¬Deadly a) initial as :=
    along_of_forall hno _
  exact (invariant_of_along (fun _ _ _ hs ha h ↦ alive_step hs ha h)
    (⟨by simp [initial], rfl⟩ : _ ∧ (initial : State T).net.fdsRemove = []) halong hrun).1 hpc

/-- The critical section hands something to the stack: `write` or `write_no_copy` finds a stream
that can send and puts data into its buffer, `send_to` puts a datagram into the buffer of a socket
of the stack, or `connect` makes a socket that sends a SYN. -/
inductive HandsOver (cfg : Config) (s : State T) : Action T → Prop
  | write {i : ℕ} {h : SocketHandle} {t : T.Tcp} (buf : List UInt8)
      (hstream : s.objects[i]? = some (.stream h)) (ht : s.net.sockets.getTcp h = some t)
      (hsend : T.maySend t ∧ T.canSend t) : HandsOver cfg s (.write i buf)
  | writeNoCopy {i : ℕ} {h : SocketHandle} {t : T.Tcp} (f : ℕ → List UInt8)
      (hstream : s.objects[i]? = some (.stream h)) (ht : s.net.sockets.getTcp h = some t)
      (hsend : T.maySend t ∧ T.canSend t) : HandsOver cfg s (.writeNoCopy i f)
  | sendTo {i : ℕ} {u : UdpSocket} {h : SocketHandle} {t : T.Udp} {addr : SocketAddr}
      (buf : List UInt8) (hudp : s.objects[i]? = some (.udp u)) (hhandle : u.socketHandle = some h)
      (haddr : addr.ip.isLoopback = false) (ht : s.net.sockets.getUdp h = some t)
      (hsend : T.canSendUdp t) : HandsOver cfg s (.sendTo i buf addr)
  | connect {i slot : ℕ} {c : Connecting} {addr : SocketAddr} {addrs : List SocketAddr}
      {draws : List PortDraw} {port : UInt16} {t : T.Tcp} (system : Except IoError Unit)
      (hcall : s.objects[i]? = some (.connecting c)) (hhandle : c.handle = none)
      (haddrs : c.addrs = addr :: addrs)
      (haddr : (addr.ip.isLoopback || addr.ip = cfg.ip || addr.ip.isUnspecified) = false)
      (hipv4 : addr.ip.isIpv6 = false)
      (hport : choosePort cfg.kernelLocalPortRange draws = some port)
      (hsyn : T.connect (T.newTcp cfg.socketBufferSize) addr port = some t) :
      HandsOver cfg s (.connectNext i draws slot system)

/-- Whatever hands something over ends by waking the background thread. -/
theorem wake_of_handsOver {c : Change T} (h : HandsOver cfg s a) (hc : s.change cfg a = some c) :
    c.wake = .handOver := by
  rcases h with ⟨buf, hobj, ht, hsend⟩ | ⟨f, hobj, ht, hsend⟩ |
    ⟨buf, hobj, hh, haddr, ht, hsend⟩ | ⟨system, hobj, hh, haddrs, haddr, hipv4, hport, hsyn⟩
  · simp only [change, write, writeWith, hobj, ht, hsend, Bool.and_self, if_true,
      Option.some_inj] at hc
    rw [← hc]
  · simp only [change, writeNoCopy, writeWith, hobj, ht, hsend, Bool.and_self, if_true,
      Option.some_inj] at hc
    rw [← hc]
  · simp only [change, sendTo, hobj, hh, haddr, ht, hsend, Bool.false_eq_true, if_false, if_true,
      Option.some_inj] at hc
    rw [← hc]
  · simp only [change, connectNext, hobj, hh, haddrs, haddr, hipv4, hport, hsyn,
      Bool.false_eq_true, if_false] at hc
    split at hc
    · exact absurd hc (by simp)
    · split at hc <;> rw [← Option.some.inj hc]

theorem alert_of_handsOver (hs : s.wake.Synced) (ha : HandsOver cfg s a)
    (h : s.step cfg a = some s') : s'.wake.Alert := by
  rcases step_cases h with ⟨now, rfl, -⟩ | ⟨ok, rfl, -⟩ | ⟨events, rfl, -⟩ | ⟨c, hc, rfl⟩
  · nomatch ha
  · nomatch ha
  · nomatch ha
  · exact alert_apply hs (wake_of_handsOver ha hc)

/-- **Nothing handed over is left behind.** Once a `connect`, `write`, `write_no_copy` or `send_to`
has handed something to the stack, and until the background thread has polled the interface, it does
not wait, or a notification is there and it polls the socket on which that arrives. The background
thread has not died of any of these operations. -/
theorem no_lost_wakeup {as : List (Action T)} (hrun : run (step cfg) initial as = some s) :
    (∀ before a after t, as = before ++ a :: after → run (step cfg) initial before = some t →
      HandsOver cfg t a → (∀ events, .bgSecond events ∉ after) → s.bg.pc ≠ .panicked →
      WontWait s ∨ (0 < s.net.notifications ∧
        (s.bg.pc = .polling → cfg.notifyPollListener ∈ s.bg.fds))) ∧
    (s.bg.pc = .panicked → ∃ a ∈ as, Deadly a) := by
  refine ⟨fun before a after t he ht hands hno hp ↦ ?_, exists_deadly hrun⟩
  have hpolled (hpc : s.bg.pc = .polling) : cfg.notifyPollListener ∈ s.bg.fds := by
    rw [(polls_of_run hrun).between (Or.inl hpc)]
    simp
  have halert : s.wake.Alert := by
    obtain ⟨t', ht', hrest⟩ := run_append_eq_some.mp (he ▸ hrun)
    obtain rfl : t = t' := Option.some.inj (ht.symm.trans ht')
    obtain ⟨u, hu, hrest⟩ := run_cons_eq_some.mp hrest
    exact alert_of_run (alert_of_handsOver (synced_of_run ht) hands hu) hno hrest
  have hbetween (hpc : s.bg.pc = .polling ∨ s.bg.pc = .second) :
      WontWait s ∨ 0 < s.net.notifications := by
    rcases halert.between hpc with hs | hn
    · refine Or.inl (Or.inr ⟨?_, hs⟩)
      rcases hpc with hpc | hpc <;> simp [hpc]
    · exact Or.inr hn
  have hall : WontWait s ∨ 0 < s.net.notifications := by
    cases hpc : s.bg.pc with
    | first => exact (halert.first hpc).imp_left fun hf ↦ Or.inl ⟨hpc, hf⟩
    | polling => exact hbetween (Or.inl hpc)
    | second => exact hbetween (Or.inr hpc)
    | panicked => exact absurd hpc hp
  exact hall.imp_right fun hn ↦ ⟨hn, hpolled⟩

/-- `connect` to a host on the network, up to the point where it waits. -/
def connectRemote : List (Action .reference) :=
  [.connect [⟨.v4 10 0 0 9, 80⟩] false,
    .connectNext 0 [⟨⟨2000, RandomPort.le_2000⟩, .ok ()⟩] 0 (.ok ())]

theorem no_lost_wakeup_connectRemote : ∃ s,
    run (step .reference) initial (connectRemote ++ [.bgFirst 0]) = some s ∧
    s.bg.pc = .polling ∧ (WontWait s ∨ (0 < s.net.notifications ∧
      (s.bg.pc = .polling → Config.reference.notifyPollListener ∈ s.bg.fds))) := by
  obtain ⟨s, hrun, hpc⟩ := Option.map_eq_some_iff.mp (show (run (step .reference) initial
    (connectRemote ++ [.bgFirst 0])).map (fun s ↦ s.bg.pc) = some .polling from rfl)
  refine ⟨s, hrun, hpc, (no_lost_wakeup hrun).1 [.connect [⟨.v4 10 0 0 9, 80⟩] false] _
    [.bgFirst 0] _ rfl rfl ?_ (by simp) (by simp [hpc])⟩
  exact .connect (.ok ()) rfl rfl rfl rfl rfl rfl rfl

/-! ## Closing a connection -/

/-- The background thread waits, and smoltcp has not told it to end the wait at any time. -/
def WaitsForEver (s : State T) : Prop := Waiting s ∧ s.bg.delay < 0

/-- The action is `shutdown(Write)` or `shutdown(Both)`, the drop of the last clone of a stream, or
the drop of a listener with connections that have not been accepted. -/
def Closes (cfg : Config) (s : State T) (a : Action T) : Prop :=
  ∃ c, s.change cfg a = some c ∧ c.closing = true

/-- smoltcp has a segment to send. -/
def SegmentDue (s : State T) : Prop :=
  ∃ t, .inl t ∈ s.net.sockets.sockets ∧ T.segmentDue t

/-- Connections are closed while the background thread does not wait, and when it next asks for a
delay there is still a segment to send. -/
def ClosesAwake (cfg : Config) (s : State T) (a : Action T) : Prop :=
  (Closes cfg s a → ¬WaitsForEver s) ∧
    ∀ now, a = .bgFirst now → s.closing = true → SegmentDue s

/-- After a closing the background thread does not wait for ever. -/
def ClosingSeen (s : State T) : Prop := s.closing = true → ¬WaitsForEver s

theorem ClosingSeen.step (hs : ClosingSeen s) (ha : ClosesAwake cfg s a)
    (h : s.step cfg a = some s') : ClosingSeen s' := by
  rcases step_cases h with ⟨now, rfl, h⟩ | ⟨ok, -, h⟩ | ⟨events, -, h⟩ | ⟨c, hc, rfl⟩
  · obtain ⟨-, ⟨-, rfl⟩ | ⟨fdsExtra, -, rfl⟩⟩ := bgFirst_cases h
    · rintro - ⟨⟨hpc, -⟩, -⟩
      exact absurd hpc (by simp)
    · -- with a segment due the delay is zero
      rintro hclosing ⟨-, hdelay⟩
      simp only [T.pollDelay_of_segmentDue _ now (ha.2 now rfl hclosing)] at hdelay
      exact absurd hdelay (by decide)
  · obtain ⟨-, rfl⟩ := bgPoll_cases h
    rintro - ⟨⟨hpc, -⟩, -⟩
    simp only at hpc
    split at hpc <;> exact absurd hpc (by simp)
  · obtain ⟨-, rfl⟩ := bgSecond_cases h
    exact fun hclosing ↦ absurd hclosing (by simp)
  · rintro hclosing ⟨⟨hpc, hn⟩, hdelay⟩
    have hwait : WaitsForEver s :=
      ⟨⟨hpc, Nat.le_zero.mp (hn ▸ notifications_le_apply)⟩, hdelay⟩
    simp only [apply, Bool.or_eq_true] at hclosing
    rcases hclosing with hclosing | hclosing
    · exact hs hclosing hwait
    · exact ha.1 ⟨c, hc, hclosing⟩ hwait

/-- **Closing is seen.** In every run in which connections are closed while the background thread
does not wait for ever, and smoltcp still has a segment to send when it is next asked for a delay,
the background thread does not wait for ever between a closing and the next `StcpNet::poll`. -/
theorem closing_seen {as : List (Action T)} (hrun : run (step cfg) initial as = some s)
    (hcloses : Along (step cfg) (ClosesAwake cfg) initial as) :
    ¬(s.closing = true ∧ Waiting s ∧ s.bg.delay < 0) := by
  have hseen : ClosingSeen s := invariant_of_along (fun _ _ _ hs ha h ↦ ClosingSeen.step hs ha h)
    (fun h ↦ absurd h (by simp [initial])) hcloses hrun
  rintro ⟨hc, hw⟩
  exact hseen hc hw

/-- A client connects to the listener. -/
def establish : List (Action .reference) :=
  [bindListener, .bgFirst 0, .bgPoll true,
    .bgSecond [(0, .syn ⟨.v4 10 0 0 9, 4000⟩), (0, .ack), (0, .sent)]]

theorem closing_seen_dropListener : ∃ s,
    run (step .reference) initial (establish ++ [.dropListener 0, .bgFirst 0]) = some s ∧
    s.closing = true ∧ s.bg.pc = .polling ∧ ¬(s.closing = true ∧ Waiting s ∧ s.bg.delay < 0) := by
  have hfirst {s : State .reference} (h : s.bg.pc ≠ .polling) : ¬WaitsForEver s := fun hw ↦ h hw.1.1
  have hbg {s : State .reference} {a : Action .reference} (h : s.change .reference a = none) :
      ¬Closes .reference s a := fun ⟨c, hc, _⟩ ↦ by simp [h] at hc
  have hcloses : Along (step .reference) (ClosesAwake .reference) initial
      (establish ++ [.dropListener 0, .bgFirst 0]) := by
    refine (along_cons_of_step rfl).mpr ⟨⟨fun _ ↦ hfirst (by decide), ?_⟩, ?_⟩
    · exact fun now h ↦ absurd h (by simp [bindListener])
    refine (along_cons_of_step rfl).mpr ⟨⟨fun _ ↦ hfirst (by decide), ?_⟩, ?_⟩
    · exact fun now _ h ↦ absurd h (by decide)
    refine (along_cons_of_step rfl).mpr ⟨⟨fun h ↦ absurd h (hbg rfl), ?_⟩, ?_⟩
    · exact fun now h ↦ absurd h (by simp)
    refine (along_cons_of_step rfl).mpr ⟨⟨fun h ↦ absurd h (hbg rfl), ?_⟩, ?_⟩
    · exact fun now h ↦ absurd h (by simp)
    refine (along_cons_of_step rfl).mpr ⟨⟨fun _ ↦ hfirst (by decide), ?_⟩, ?_⟩
    · exact fun now h ↦ absurd h (by simp)
    refine (along_cons_of_step rfl).mpr ⟨⟨fun _ ↦ hfirst (by decide), ?_⟩, trivial⟩
    exact fun now _ _ ↦ ⟨_, List.mem_singleton.mpr rfl, rfl⟩
  obtain ⟨s, hrun, hs⟩ := Option.map_eq_some_iff.mp (show (run (step .reference) initial
    (establish ++ [.dropListener 0, .bgFirst 0])).map (fun s ↦ (s.closing, s.bg.pc)) =
      some (true, .polling) from rfl)
  obtain ⟨hc, hpc⟩ := Prod.mk.inj hs
  exact ⟨s, hrun, hc, hpc, closing_seen hrun hcloses⟩

/-- A stream is connected, the background thread goes to sleep, and the stream is shut down. -/
def shutdownAsleep : List (Action .reference) :=
  connectRemote ++ [.bgFirst 0, .bgPoll true, .bgSecond [(0, .ack), (0, .sent)], .connectWake 0,
    .bgFirst 0, .shutdown 0 .write]

theorem not_closing_seen : ∃ s,
    run (step .reference) initial shutdownAsleep = some s ∧
    s.closing = true ∧ Waiting s ∧ s.bg.delay < 0 := by
  obtain ⟨s, hrun, hs⟩ := Option.map_eq_some_iff.mp (show (run (step .reference) initial
    shutdownAsleep).map (fun s ↦ (s.closing, s.bg.pc, s.net.notifications, s.bg.delay)) =
      some (true, .polling, 0, -1) from rfl)
  simp only [Prod.mk.injEq] at hs
  obtain ⟨hc, hpc, hn, hd⟩ := hs
  exact ⟨s, hrun, hc, ⟨hpc, hn⟩, by simp [hd]⟩

end State

end UsnetSockets
