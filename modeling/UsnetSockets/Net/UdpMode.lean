import UsnetSockets.Net.System
import UsnetSockets.Transition.Run

/-!
# The mode of the kernel's UDP socket

A `UdpSocket` has a socket `lo` of the kernel beside the one of the stack in user space, and a
receive asks one of them or both. Whether `lo` has to be in blocking mode follows from the flag of
the application, the address the socket is connected to, and whether there is a socket in user space
at all. The program does not compute the mode from these where it is needed: `connect`,
`set_nonblocking` and `send_to` each set it.

The clones of a socket share `connected` and the flag, and the mode belongs to the open file that
their descriptors refer to. So one state is enough for all of them.
-/

namespace UsnetSockets

/-- The part of a `UdpSocket` that decides where a receive goes and whether it blocks. -/
structure UdpMode where
  socketHandle : Option SocketHandle
  connected : Option SocketAddr
  nonblocking : Bool
  /-- The mode of `lo` in the kernel. -/
  loNonblocking : Bool

/-- The calls that set the mode, with the results of name resolution, of the kernel and of the stack
in user space. -/
inductive UdpCall where
  | connect (addrs : Except IoError (List SocketAddr)) (setMode connected : Except IoError Unit)
  | setNonblocking (nonblocking : Bool) (setMode : Except IoError Unit)
  | sendTo (addrs : Except IoError (List SocketAddr)) (setMode : Except IoError Unit)
      (sent : Except IoError ℕ) (resetMode : Except IoError Unit)
  | send (setMode : Except IoError Unit) (sent : Except IoError ℕ)
      (resetMode : Except IoError Unit)

/-- The first address that the name resolves to. -/
def firstAddr : Except IoError (List SocketAddr) → Except IoError SocketAddr
  | .error e => .error e
  | .ok [] => .error (.other "to sock addr empty")
  | .ok (addr :: _) => .ok addr

namespace UdpMode

variable (cfg : Config) (u : UdpMode)

/-- The socket that `bind_udp` returns. One with a socket in user space has `lo` in non-blocking
mode. -/
def bound (socketHandle : Option SocketHandle) : UdpMode where
  socketHandle := socketHandle
  connected := none
  nonblocking := false
  loNonblocking := socketHandle.isSome

/-- Whether `peek_or_recv_from` does nothing but ask `lo`. -/
def straightToLo : Bool :=
  u.socketHandle.isNone ||
    match u.connected with
    | some addr => addr.ip.isLoopback
    | none => false

/-- `lo.set_nonblocking`. -/
def setLo (mode : Bool) : Except IoError Unit → Except IoError Unit × UdpMode
  | .ok _ => (.ok (), { u with loNonblocking := mode })
  | .error e => (.error e, u)

/-- `UdpSocket::connect`. -/
def connect (addrs : Except IoError (List SocketAddr)) (setMode connected : Except IoError Unit) :
    Except IoError Unit × UdpMode :=
  match firstAddr addrs with
  | .error e => (.error e, u)
  | .ok addr =>
    match if u.nonblocking then (.ok (), u) else u.setLo addr.ip.isLoopback setMode with
    | (.error e, u) => (.error e, u)
    | (.ok _, u) =>
      if addr.ip.isLoopback || addr.ip = cfg.ip then
        (connected, { u with connected := some ⟨.v4 127 0 0 1, addr.port⟩ })
      else (.ok (), { u with connected := some addr })

/-- `UdpSocket::set_nonblocking`. -/
def setNonblocking (nonblocking : Bool) (setMode : Except IoError Unit) :
    Except IoError Unit × UdpMode :=
  let mode :=
    match u.connected with
    | some addr => if !nonblocking then !addr.ip.isLoopback else true
    | none => if u.socketHandle.isSome then true else nonblocking
  match u.setLo mode setMode with
  | (.error e, u) => (.error e, u)
  | (.ok _, u) => (.ok (), { u with nonblocking := nonblocking })

/-- `UdpSocket::send_to`. A blocking socket sends through `lo` in blocking mode. -/
def sendTo (addrs : Except IoError (List SocketAddr)) (setMode : Except IoError Unit)
    (sent : Except IoError ℕ) (resetMode : Except IoError Unit) : Except IoError ℕ × UdpMode :=
  match firstAddr addrs with
  | .error e => (.error e, u)
  | .ok addr =>
    if u.socketHandle.isNone || addr.ip.isLoopback then
      match if u.socketHandle.isSome && !u.nonblocking then u.setLo false setMode
        else (.ok (), u) with
      | (.error e, u) => (.error e, u)
      | (.ok _, u) =>
        match if u.socketHandle.isSome && !u.nonblocking then
            u.setNonblocking u.nonblocking resetMode
          else (.ok (), u) with
        | (.error e, u) => (.error e, u)
        | (.ok _, u) => (sent, u)
    else (sent, u)

/-- `UdpSocket::send`. -/
def send (setMode : Except IoError Unit) (sent : Except IoError ℕ)
    (resetMode : Except IoError Unit) : Except IoError ℕ × UdpMode :=
  match u.connected with
  | some addr => u.sendTo (.ok [addr]) setMode sent resetMode
  | none => (.error (.invalidInput "not connected"), u)

/-- One call after the other. -/
def step (u : UdpMode) : UdpCall → Option UdpMode
  | .connect addrs setMode connected => some (u.connect cfg addrs setMode connected).2
  | .setNonblocking nonblocking setMode => some (u.setNonblocking nonblocking setMode).2
  | .sendTo addrs setMode sent resetMode => some (u.sendTo addrs setMode sent resetMode).2
  | .send setMode sent resetMode => some (u.send setMode sent resetMode).2

/-- The mode of `lo` agrees with how receives use it. -/
structure Agrees : Prop where
  /-- A non-blocking socket does not block in the kernel. -/
  nonblocking : u.nonblocking = true → u.loNonblocking = true
  /-- A blocking socket that asks only the kernel blocks there. -/
  blocking : u.nonblocking = false → u.straightToLo = true → u.loNonblocking = false
  /-- A socket that asks both stacks does not block in the kernel, since it holds the lock of
  `StcpNet` there. -/
  both : u.socketHandle.isSome → u.connected = none → u.loNonblocking = true

/-- What the call must not do. -/
def Proper : UdpCall → Prop
  -- the blocking socket is not connected to a loopback address
  | .connect addrs setMode _ =>
    u.nonblocking = false → setMode = .ok () → ∀ addr, firstAddr addrs = .ok addr →
      addr.ip.isLoopback = false
  -- a socket of the kernel alone is not made blocking when it is connected elsewhere
  | .setNonblocking nonblocking setMode =>
    nonblocking = false → setMode = .ok () → u.socketHandle = none →
      ∀ addr, u.connected = some addr → addr.ip.isLoopback = true
  -- the kernel does not fail to set the mode again after it has been cleared
  | .sendTo addrs setMode _ resetMode =>
    u.nonblocking = false → u.socketHandle.isSome → u.connected = none → setMode = .ok () →
      ∀ addr, firstAddr addrs = .ok addr → addr.ip.isLoopback = true → resetMode = .ok ()
  | .send .. => True

/-- The call of `send_to` gets to clear the mode of `lo`. -/
def Clears (addrs : Except IoError (List SocketAddr)) (setMode : Except IoError Unit) : Prop :=
  u.nonblocking = false ∧ u.socketHandle.isSome ∧ setMode = .ok () ∧
    ∃ addr, firstAddr addrs = .ok addr ∧ addr.ip.isLoopback = true

open Transition

variable {cfg : Config} {u u' : UdpMode}

/-! ## Step by step -/

/-- The address that `connect` stores. -/
private theorem exists_connect_eq (cfg : Config) (u : UdpMode) {addr : SocketAddr}
    {addrs : Except IoError (List SocketAddr)} (haddr : firstAddr addrs = .ok addr)
    (connected : Except IoError Unit) : ∃ peer : SocketAddr,
    (addr.ip.isLoopback = true → peer.ip.isLoopback = true) ∧
    (u.nonblocking = true → ∀ setMode,
      (u.connect cfg addrs setMode connected).2 = { u with connected := some peer }) ∧
    (u.nonblocking = false → (u.connect cfg addrs (.ok ()) connected).2 =
      { u with connected := some peer, loNonblocking := addr.ip.isLoopback }) := by
  by_cases hlo : (addr.ip.isLoopback || addr.ip = cfg.ip) = true
  · refine ⟨⟨.v4 127 0 0 1, addr.port⟩, fun _ ↦ rfl, ?_, ?_⟩
    · intro hnb setMode
      simp [connect, haddr, hnb, hlo]
    · intro hnb
      simp [connect, haddr, hnb, hlo, setLo]
  · refine ⟨addr, id, ?_, ?_⟩
    · intro hnb setMode
      simp [connect, haddr, hnb, hlo]
    · intro hnb
      simp [connect, haddr, hnb, hlo, setLo]

private theorem Agrees.connect_iff (h : u.Agrees) (addrs : Except IoError (List SocketAddr))
    (setMode connected : Except IoError Unit) :
    (u.connect cfg addrs setMode connected).2.Agrees ↔
      u.Proper (.connect addrs setMode connected) := by
  cases haddr : firstAddr addrs with
  | error e => simp [connect, Proper, haddr, h]
  | ok addr =>
    obtain ⟨peer, hpeer, hset, hclear⟩ := exists_connect_eq cfg u haddr connected
    cases hnb : u.nonblocking with
    | true =>
      rw [hset hnb setMode]
      simp only [Proper, hnb, reduceCtorEq, false_implies, iff_true]
      refine ⟨fun _ ↦ h.nonblocking hnb, ?_, ?_⟩
      · intro hno
        exact absurd hno (by simp)
      · intro _ hno
        exact absurd hno (by simp)
    | false =>
      cases setMode with
      | error e => simp [connect, Proper, haddr, hnb, setLo, h]
      | ok _ =>
        rw [hclear hnb]
        simp only [Proper, hnb, haddr, forall_const, Except.ok.injEq, forall_eq']
        constructor
        · intro hagrees
          by_contra hlo
          rw [Bool.not_eq_false] at hlo
          have hblocks := hagrees.blocking rfl (by simp [straightToLo, hpeer hlo])
          exact absurd hblocks (by simp [hlo])
        · intro hlo
          refine ⟨?_, fun _ _ ↦ hlo, ?_⟩
          · intro hno
            exact absurd hno (by simp)
          · intro _ hno
            exact absurd hno (by simp)

/-- Whatever the mode was, `set_nonblocking` has set it anew. -/
private theorem agrees_setNonblocking_iff (u : UdpMode) (nonblocking : Bool) :
    (u.setNonblocking nonblocking (.ok ())).2.Agrees ↔
      u.Proper (.setNonblocking nonblocking (.ok ())) := by
  obtain ⟨handle, connected, nb, lo⟩ := u
  simp only [setNonblocking, setLo, Proper, forall_const]
  cases connected with
  | none =>
    simp only [reduceCtorEq, false_implies, implies_true, iff_true]
    cases handle with
    | none => exact ⟨id, fun hnb _ ↦ hnb, fun hno ↦ absurd hno (by simp)⟩
    | some x => exact ⟨fun _ ↦ rfl, fun _ hno ↦ absurd hno (by simp [straightToLo]), fun _ _ ↦ rfl⟩
  | some addr =>
    cases nonblocking with
    | true =>
      simp only [reduceCtorEq, false_implies, iff_true]
      exact ⟨fun _ ↦ rfl, fun hno ↦ absurd hno (by simp), fun _ _ ↦ rfl⟩
    | false =>
      simp only [Option.some.injEq, forall_const, forall_eq']
      constructor
      · rintro hagrees rfl
        simpa using hagrees.blocking rfl (by simp [straightToLo])
      · intro hproper
        refine ⟨fun hno ↦ absurd hno (by simp), ?_, ?_⟩
        · intro _ hstraight
          have hlo : addr.ip.isLoopback = true := by
            rcases Bool.or_eq_true_iff.mp hstraight with hnone | hlo
            · exact hproper (Option.isNone_iff_eq_none.mp hnone)
            · exact hlo
          simp [hlo]
        · intro _ hno
          exact absurd hno (by simp)

/-- `send_to` leaves the mode alone, or it clears the mode, and sets it again unless the kernel
fails. -/
theorem sendTo_cases (u : UdpMode) (addrs : Except IoError (List SocketAddr))
    (setMode : Except IoError Unit) (sent : Except IoError ℕ) (resetMode : Except IoError Unit) :
    (¬u.Clears addrs setMode ∧ (u.sendTo addrs setMode sent resetMode).2 = u) ∨
    (u.Clears addrs setMode ∧ resetMode = .ok () ∧ (u.sendTo addrs setMode sent resetMode).2 =
      ({ u with loNonblocking := false }.setNonblocking false (.ok ())).2) ∨
    (u.Clears addrs setMode ∧ resetMode ≠ .ok () ∧
      (u.sendTo addrs setMode sent resetMode).2 = { u with loNonblocking := false }) := by
  obtain ⟨handle, connected, nonblocking, lo⟩ := u
  cases haddr : firstAddr addrs with
  | error e => exact Or.inl ⟨by simp [Clears, haddr], by simp [sendTo, haddr]⟩
  | ok addr =>
    cases handle with
    | none => exact Or.inl ⟨by simp [Clears], by simp [sendTo, haddr]⟩
    | some x =>
      cases nonblocking with
      | true => exact Or.inl ⟨by simp [Clears], by simp [sendTo, haddr]⟩
      | false =>
        cases hlo : addr.ip.isLoopback with
        | false => exact Or.inl ⟨by simp [Clears, haddr, hlo], by simp [sendTo, haddr, hlo]⟩
        | true =>
          cases setMode with
          | error e => exact Or.inl ⟨by simp [Clears], by simp [sendTo, haddr, hlo, setLo]⟩
          | ok _ =>
            have hclears : Clears ⟨some x, connected, false, lo⟩ addrs (.ok ()) :=
              ⟨rfl, rfl, rfl, addr, haddr, hlo⟩
            cases resetMode with
            | error e =>
              exact Or.inr (Or.inr ⟨hclears, by simp, by
                simp [sendTo, haddr, hlo, setLo, setNonblocking]⟩)
            | ok _ =>
              exact Or.inr (Or.inl ⟨hclears, rfl, by
                simp [sendTo, haddr, hlo, setLo, setNonblocking]⟩)

private theorem Agrees.sendTo_iff (h : u.Agrees) (addrs : Except IoError (List SocketAddr))
    (setMode : Except IoError Unit) (sent : Except IoError ℕ) (resetMode : Except IoError Unit) :
    (u.sendTo addrs setMode sent resetMode).2.Agrees ↔
      u.Proper (.sendTo addrs setMode sent resetMode) := by
  obtain ⟨hno, he⟩ | ⟨⟨-, hsome, -⟩, hok, he⟩ | ⟨⟨hnb, hsome, hset, addr, haddr, hlo⟩, herr, he⟩ :=
    sendTo_cases u addrs setMode sent resetMode
  · rw [he]
    refine ⟨fun _ hnb hsome _ hset addr haddr hlo ↦ ?_, fun _ ↦ h⟩
    exact absurd ⟨hnb, hsome, hset, addr, haddr, hlo⟩ hno
  · rw [he, agrees_setNonblocking_iff]
    refine ⟨fun _ _ _ _ _ _ _ _ ↦ hok, fun _ _ _ hnone ↦ ?_⟩
    simp [show u.socketHandle = none from hnone] at hsome
  · rw [he]
    constructor
    · intro hagrees _ _ hnone
      exact absurd (hagrees.both hsome hnone) (by simp)
    · intro hproper
      refine ⟨?_, fun _ _ ↦ rfl, ?_⟩
      · intro hno
        exact absurd (hnb.symm.trans hno) (by simp)
      · intro _ hnone
        exact absurd (hproper hnb hsome hnone hset addr haddr hlo) herr

private theorem Agrees.send (h : u.Agrees) (setMode : Except IoError Unit)
    (sent : Except IoError ℕ) (resetMode : Except IoError Unit) :
    (u.send setMode sent resetMode).2.Agrees := by
  cases hconn : u.connected with
  | none =>
    rw [UdpMode.send, hconn]
    exact h
  | some addr =>
    rw [UdpMode.send, hconn]
    refine (h.sendTo_iff (.ok [addr]) setMode sent resetMode).mpr fun _ _ hnone ↦ ?_
    exact absurd (hconn.symm.trans hnone) (by simp)

/-- A call keeps the mode right exactly when it is proper. -/
theorem Agrees.step_iff {call : UdpCall} (h : u.Agrees) (hstep : u.step cfg call = some u') :
    u'.Agrees ↔ u.Proper call := by
  cases call with
  | connect addrs setMode connected =>
    rw [← Option.some.inj hstep]
    exact h.connect_iff addrs setMode connected
  | setNonblocking nonblocking setMode =>
    rw [← Option.some.inj hstep]
    cases setMode with
    | error e => simp [setNonblocking, Proper, setLo, h]
    | ok _ => exact agrees_setNonblocking_iff u nonblocking
  | sendTo addrs setMode sent resetMode =>
    rw [← Option.some.inj hstep]
    exact h.sendTo_iff addrs setMode sent resetMode
  | send setMode sent resetMode =>
    rw [← Option.some.inj hstep]
    exact iff_of_true (h.send setMode sent resetMode) trivial

theorem agrees_bound (socketHandle : Option SocketHandle) : (bound socketHandle).Agrees := by
  refine ⟨fun hno ↦ absurd hno (by simp [bound]), fun _ hstraight ↦ ?_, fun hsome _ ↦ hsome⟩
  simpa [straightToLo, bound] using hstraight

theorem exists_run (cfg : Config) (u : UdpMode) (calls : List UdpCall) :
    ∃ u', run (step cfg) u calls = some u' := by
  induction calls generalizing u with
  | nil => exact ⟨u, rfl⟩
  | cons call calls ih =>
    obtain ⟨t, ht⟩ : ∃ t, u.step cfg call = some t := by cases call <;> exact ⟨_, rfl⟩
    obtain ⟨u', hu'⟩ := ih t
    exact ⟨u', run_cons_eq_some.mpr ⟨t, ht, hu'⟩⟩

/-- **The mode of the kernel's socket.** In all states that a socket from `bind_udp` goes through,
the mode of `lo` agrees with how receives use it, if and only if each call is proper in its turn. -/
theorem mode_agrees_iff (cfg : Config) (socketHandle : Option SocketHandle)
    (calls : List UdpCall) :
    (∀ before after u, calls = before ++ after →
      run (step cfg) (bound socketHandle) before = some u → u.Agrees) ↔
    Along (step cfg) Proper (bound socketHandle) calls := by
  obtain ⟨u', hrun⟩ := exists_run cfg (bound socketHandle) calls
  exact forall_prefix_iff_along (fun u call u' h hstep ↦ h.step_iff hstep)
    (agrees_bound socketHandle) hrun

/-- A blocking socket that is connected to a loopback address has `lo` in non-blocking mode. So has
a socket of the kernel alone that is connected elsewhere and told to block. -/
theorem not_mode_agrees :
    (∃ u, run (step .reference) (bound (some ⟨0, 0⟩))
      [.connect (.ok [⟨.v4 127 0 0 1, 53⟩]) (.ok ()) (.ok ())] = some u ∧ ¬u.Agrees) ∧
    ∃ u, run (step .reference) (bound none)
      [.connect (.ok [⟨.v4 10 0 0 9, 53⟩]) (.ok ()) (.ok ()), .setNonblocking false (.ok ())] =
      some u ∧ ¬u.Agrees := by
  refine ⟨⟨_, rfl, ?_⟩, ⟨_, rfl, ?_⟩⟩
  · intro h
    exact absurd (h.blocking rfl rfl) (by decide)
  · intro h
    exact absurd (h.blocking rfl rfl) (by decide)

end UdpMode

end UsnetSockets
