import UsnetSockets.Net.StcpNet

/-!
# The multithread API as a transition system

The system has the background thread `bg`, the shared `StcpNet`, and the values that the
application holds: listeners, streams, UDP sockets, and calls of `connect` that are under way. Each
action is one critical section, that is what a thread does between locking the mutex of `StcpNet`
and unlocking it or giving it away in a condition variable; the sections of different threads may
come in any order, so a run is any list of actions. What the kernel, usnetd and smoltcp answer is
part of the action.

A critical section of the application may change the sockets and what the application holds, queue
descriptors for the background thread, and wake it. That is a `Change`; the functions of this file
say which change each operation makes, and `State.apply` what a change does to the state. The
background thread changes the state directly.

Some fields are not in the program and keep track of what has happened. `closing` says whether a
connection was closed since the last `StcpNet::poll`; `unregistered` has the descriptors of the
values that were dropped without ever having been queued in `fds_add`; `fault` says that a call on
the `SocketSet` has panicked, and `callPanicked` that an `unwrap` of the application's call has.
-/

namespace UsnetSockets

/-- Where the background thread is: before its first critical section, about to call `poll(2)` or
blocked in it, before its second critical section, or dead after a panic. -/
inductive BgPc where
  | first
  | polling
  | second
  | panicked
  deriving DecidableEq

/-- The background thread with its local variables. -/
structure Bg where
  pc : BgPc
  fds : List Fd
  fdsExtra : List Fd
  skip : Bool
  delay : ℤ

/-- Where a call of `accept` is. The call holds the lock of the listener all the time, so that a
listener has at most one. -/
inductive AcceptPhase where
  /-- There is no call. -/
  | idle
  /-- About to lock `StcpNet`. -/
  | locked
  /-- Waiting on the condition variable. -/
  | waiting
  /-- Notified, and about to lock `StcpNet` again. -/
  | woken
  /-- A connection has been taken, and its slot is about to be replaced. -/
  | taken (h : SocketHandle) (peer : SocketAddr)
  deriving DecidableEq

structure StcpListener where
  listenHandles : Option (List SocketHandle)
  lo : Fd
  port : UInt16
  ttl : Option UInt8
  nonblocking : Bool
  phase : AcceptPhase

structure UdpSocket where
  socketHandle : Option SocketHandle
  lo : Fd
  /-- Whether `lo` has been queued in `fds_add`. -/
  registered : Bool

/-- A call of `connect_timeout_opt` under way. -/
structure Connecting where
  /-- The addresses that are still to be tried. -/
  addrs : List SocketAddr
  hasTimeout : Bool
  /-- The socket whose connection the call waits for. -/
  handle : Option SocketHandle
  r : IoError

/-- What the application holds, or held. -/
inductive Object where
  | listener (l : StcpListener)
  | stream (h : SocketHandle)
  | udp (u : UdpSocket)
  | connecting (c : Connecting)
  /-- Dropped, or a call that has returned without a value of this API. -/
  | gone

structure State (T : Smoltcp) where
  net : StcpNet T
  bg : Bg
  objects : List Object
  closing : Bool
  unregistered : List Fd
  fault : Bool
  callPanicked : Bool

/-- How a stream is shut down. -/
inductive Shutdown where
  | read
  | write
  | both

/-- The critical sections. An `i` is the position of the value in `objects`, a slot is where the
`SocketSet` puts a new socket. -/
inductive Action (T : Smoltcp) where
  | bgFirst (now : ℕ)
  | bgPoll (ok : Bool)
  | bgSecond (events : List (ℕ × T.Event))
  | bind (addrs : List BindAddr) (slots : List ℕ)
  | bindUdp (addrs : List BindAddr) (slot : ℕ)
  | dropListener (i : ℕ)
  | dropStream (i : ℕ)
  | dropUdp (i : ℕ)
  | setTtl (i : ℕ) (ttl : UInt32)
  | setNonblocking (i : ℕ) (nonblocking : Bool)
  | accept (i : ℕ)
  | acceptWait (i : ℕ)
  | acceptCheck (i : ℕ) (lo : Bool)
  | acceptReplace (i : ℕ) (slot : ℕ)
  | connect (addrs : List SocketAddr) (hasTimeout : Bool)
  | connectNext (i : ℕ) (draws : List PortDraw) (slot : ℕ) (system : Except IoError Unit)
  | connectWake (i : ℕ)
  | connectTimeout (i : ℕ)
  | write (i : ℕ) (buf : List UInt8)
  | writeNoCopy (i : ℕ) (f : ℕ → List UInt8)
  | read (i : ℕ) (len : ℕ)
  | readNoCopy (i : ℕ) (f : List UInt8 → ℕ)
  | shutdown (i : ℕ) (how : Shutdown)
  | tryClone (i : ℕ)
  | tryCloneUdp (i : ℕ) (dup : Except IoError Fd)
  | sendTo (i : ℕ) (buf : List UInt8) (addr : SocketAddr)
  | recvFrom (i : ℕ) (len : ℕ)

/-- The change that a critical section makes: the new sockets and values, and what is added to the
rest. -/
structure Change (T : Smoltcp) where
  sockets : SocketSet T
  objects : List Object
  fdsAdd : List Fd := []
  fdsRemove : List Fd := []
  unregistered : List Fd := []
  wake : StcpNet.WakeKind := .none
  closing : Bool := false
  fault : Bool := false
  callPanicked : Bool := false

namespace State

variable {T : Smoltcp} (cfg : Config) (s : State T)

/-- The state after `StcpNet::new`, with the background thread before its first section. -/
def initial : State T where
  net := .new
  bg := ⟨.first, [], [], false, -1⟩
  objects := []
  closing := false
  unregistered := []
  fault := false
  callPanicked := false

/-- The state after a critical section of the application. Waking the background thread comes
last. -/
def apply (c : Change T) : State T :=
  let net := { s.net with
    sockets := c.sockets
    fdsAdd := s.net.fdsAdd ++ c.fdsAdd
    fdsRemove := s.net.fdsRemove ++ c.fdsRemove }
  { s with
    -- when the socket pair is full, the `unwrap` panics, and all the rest has been done
    net := (net.wake cfg c.wake).getD net
    objects := c.objects
    closing := s.closing || c.closing
    unregistered := s.unregistered ++ c.unregistered
    fault := s.fault || c.fault
    callPanicked := s.callPanicked || c.callPanicked || (net.wake cfg c.wake).isNone }

/-- Nothing changes. -/
def same : Change T := { sockets := s.net.sockets, objects := s.objects }

/-- A call on the `SocketSet` panics. -/
def panics : Change T := { s.same with fault := true }

/-- The descriptors that are open: the kernel gives none of them to a new socket. -/
def openFds : List Fd :=
  [cfg.fd, cfg.notifyPollListener] ++ s.objects.filterMap fun
    | .listener l => some l.lo
    | .udp u => some u.lo
    | _ => none

/-! ## The background thread -/

/-- The loop over `fds_remove`. `none` is the panic of the `unwrap` on `position`. -/
def removeFds : List Fd → List Fd → Option (List Fd)
  | [], fdsExtra => some fdsExtra
  | fd :: fds, fdsExtra => if fd ∈ fdsExtra then removeFds fds (fdsExtra.erase fd) else none

/-- The first critical section: reads the flag, brings the list of descriptors up to date, and asks
smoltcp how long to wait. -/
def bgFirst (now : ℕ) : Option (State T) :=
  if s.bg.pc = .first then
    let skip := s.net.bgSkipOneWait == .skip
    let fdsExtra := s.bg.fdsExtra ++ s.net.fdsAdd
    let fds := if s.net.fdsAdd.isEmpty then s.bg.fds else []
    -- `Skip` stays until the second section, and `Skippable` becomes `Wait`
    let net := { s.net with
      bgSkipOneWait := if skip then .skip else .wait
      fdsAdd := [] }
    match removeFds s.net.fdsRemove fdsExtra with
    | none => some { s with net := net, bg := { s.bg with pc := .panicked } }
    | some fdsExtra =>
      -- a change of either queue has emptied the list, which is then made anew
      let fds := if s.net.fdsRemove.isEmpty then fds else []
      let fds := if fds.isEmpty then [cfg.fd, cfg.notifyPollListener] ++ fdsExtra else fds
      let delay := toDelay (T.pollDelay s.net.sockets.sockets now)
      some { s with
        net := { net with fdsRemove := [], currentWaitDelay := delay }
        bg := {
          pc := if cfg.waitingPoll && !skip then .polling else .second
          fds := fds
          fdsExtra := fdsExtra
          skip := skip
          delay := delay } }
  else none

/-- `poll(2)` returns, with an error or without one. -/
def bgPoll (ok : Bool) : Option (State T) :=
  if s.bg.pc = .polling then
    some { s with bg := { s.bg with pc := if ok then .second else .panicked } }
  else none

/-- `notify_all` reaches the calls of `accept` that are waiting. -/
def wakeAccept : Object → Object
  | .listener l => .listener (if l.phase = .waiting then { l with phase := .woken } else l)
  | o => o

/-- The second critical section: takes the notifications, polls the interface, and notifies all
threads that wait. -/
def bgSecond (events : List (ℕ × T.Event)) : Option (State T) :=
  if s.bg.pc = .second then
    some { s with
      net := { s.net with
        notifications := 0
        sockets := s.net.sockets.process events
        bgSkipOneWait := .skippable }
      bg := { s.bg with pc := .first }
      objects := s.objects.map wakeAccept
      closing := false }
  else none

/-! ## Listeners -/

/-- `TcpListener::bind`. The `unwrap` on `listen` cannot panic here, since the port is not zero. -/
def bind (addrs : List BindAddr) (slots : List ℕ) : Option (Change T) :=
  match bindAddrs addrs emptyAddrs with
  | none | some (.next _) => none
  | some (.leave _) => some s.same
  | some (.loopback port lo) =>
    if lo ∈ s.openFds cfg then none
    else some { s.same with
      objects := s.objects ++ [.listener ⟨none, lo, port, none, false, .idle⟩] }
  | some (.registered port lo) =>
    if lo ∈ s.openFds cfg ∨ slots.length ≠ cfg.socketBacklog then none
    else
      match T.listen (T.newTcp cfg.socketBufferSize) port with
      | none => none
      | some socket =>
        match s.net.sockets.addBacklog socket slots with
        | none => none
        | some (hs, sockets) => some { s.same with
            sockets := sockets
            objects := s.objects ++ [.listener ⟨some hs, lo, port, none, false, .idle⟩]
            fdsAdd := [lo] }

/-- Whether there is a connection behind the handle. -/
def isActive (h : SocketHandle) : Bool :=
  match s.net.sockets.getTcp h with
  | some t => T.isActive t
  | none => false

/-- The destructor of `StcpListener`. It runs when the last reference is gone, so that no call is
under way; the descriptor is closed after it. -/
def dropListener (i : ℕ) : Option (Change T) :=
  match s.objects[i]? with
  | some (.listener l) =>
    if l.phase = .idle then
      match l.listenHandles with
      -- the descriptor is queued to be removed although it has never been added
      | none => some { s.same with
          objects := s.objects.set i .gone
          fdsRemove := [l.lo]
          unregistered := [l.lo] }
      | some hs =>
        match SocketSet.releaseAll hs s.net.sockets with
        | none => some { s.panics with objects := s.objects.set i .gone, fdsRemove := [l.lo] }
        | some sockets => some { s.same with
            sockets := sockets
            objects := s.objects.set i .gone
            fdsRemove := [l.lo]
            closing := hs.any s.isActive }
    else none
  | _ => none

/-- How a loop over handles panics. -/
inductive Panic where
  | socketSet
  | unwrap

/-- The loop of `set_ttl` of a listener. -/
def setHopLimits (ttl : Option UInt8) :
    List SocketHandle → SocketSet T → SocketSet T × Option Panic
  | [], S => (S, none)
  | h :: hs, S =>
    match S.getTcp h with
    | none => (S, some .socketSet)
    | some t =>
      match T.setHopLimit t ttl with
      | none => (S, some .unwrap)
      | some t => setHopLimits ttl hs (S.setSocket h (.inl t))

/-- `StcpListenerRef::set_ttl`. -/
def setTtl (i : ℕ) (ttl : UInt32) : Option (Change T) :=
  match s.objects[i]? with
  | some (.listener l) =>
    if l.phase = .idle then
      let l := { l with ttl := some ttl.toUInt8 }
      let (sockets, panic) := setHopLimits l.ttl (l.listenHandles.getD []) s.net.sockets
      some { s.same with
        sockets := sockets
        objects := s.objects.set i (.listener l)
        fault := panic matches some .socketSet
        callPanicked := panic matches some .unwrap }
    else none
  | _ => none

/-- `StcpListenerRef::set_nonblocking`. The flag is set before the kernel is asked, whatever the
kernel then says. -/
def setNonblocking (i : ℕ) (nonblocking : Bool) : Option (Change T) :=
  match s.objects[i]? with
  | some (.listener l) =>
    if l.phase = .idle then some { s.same with
      objects := s.objects.set i (.listener { l with nonblocking := nonblocking }) }
    else none
  | _ => none

/-! ## `accept` -/

/-- The scan of `listen_handles`: the first handle with a connection that is open in both
directions, with its position and its socket. `none` is a panic of `get`. -/
def scanHandles (S : SocketSet T) :
    List SocketHandle → Option (Option (ℕ × SocketHandle × T.Tcp))
  | [] => some none
  | h :: hs =>
    match S.getTcp h with
    | none => none
    | some t =>
      if T.acceptable t then some (some (0, h, t))
      else
        match scanHandles S hs with
        | some (some (k, found)) => some (some (k + 1, found))
        | res => res

/-- `accept` locks the listener. On a listener of the kernel only, all the rest is one call. -/
def accept (i : ℕ) : Option (Change T) :=
  match s.objects[i]? with
  | some (.listener l) =>
    if l.phase = .idle then
      match l.listenHandles with
      | none => some s.same
      | some _ => some { s.same with
          objects := s.objects.set i (.listener { l with phase := .locked }) }
    else none
  | _ => none

/-- A blocking `accept` begins its turn by waiting on the condition variable. -/
def acceptWait (i : ℕ) : Option (Change T) :=
  match s.objects[i]? with
  | some (.listener l) =>
    if l.phase = .locked ∧ l.nonblocking = false then some { s.same with
      objects := s.objects.set i (.listener { l with phase := .waiting }) }
    else none
  | _ => none

/-- What `accept` does when it has the lock of `StcpNet`, after the wait or without one: a
connection of the kernel comes first (`lo`), then the handles. -/
def acceptCheck (i : ℕ) (lo : Bool) : Option (Change T) :=
  match s.objects[i]? with
  | some (.listener l) =>
    if l.phase = .woken ∨ l.phase = .locked ∧ l.nonblocking = true then
      match l.listenHandles with
      | none => none
      | some hs =>
        if lo then some { s.same with
          objects := s.objects.set i (.listener { l with phase := .idle }) }
        else
          match scanHandles s.net.sockets hs with
          | none => some s.panics
          -- the next turn of the loop, or `WouldBlock`
          | some none => some { s.same with
              objects := s.objects.set i (.listener { l with
                phase := if l.nonblocking then .idle else .locked }) }
          | some (some (k, h, t)) => some { s.same with
              objects := s.objects.set i (.listener { l with
                listenHandles := some (hs.eraseIdx k)
                phase := .taken h (T.remoteEndpoint t) }) }
    else none
  | _ => none

/-- `accept` puts a new listening socket in the place of the one it takes, and returns. If
`set_hop_limit` or `listen` panics, the new socket stays without an owner, and the stream that was
to be returned is dropped. -/
def acceptReplace (i : ℕ) (slot : ℕ) : Option (Change T) :=
  match s.objects[i]? with
  | some (.listener l) =>
    match l.phase, l.listenHandles with
    | .taken h _, some hs =>
      let socket := T.newTcp cfg.socketBufferSize
      match (T.setHopLimit socket l.ttl).bind fun t ↦ T.listen t l.port with
      | some t =>
        match s.net.sockets.add slot (.inl t) with
        | none => none
        | some (h', sockets) => some { s.same with
            sockets := sockets
            objects := s.objects.set i (.listener { l with
              listenHandles := some (hs ++ [h'])
              phase := .idle }) ++ [.stream h] }
      | none =>
        match s.net.sockets.add slot (.inl socket) with
        | none => none
        | some (_, sockets) =>
          match SocketSet.releaseAll [h] sockets with
          | none => some { s.panics with sockets := sockets }
          | some sockets => some { s.same with
              sockets := sockets
              objects := s.objects.set i (.listener { l with phase := .idle })
              callPanicked := true }
    | _, _ => none
  | _ => none

/-! ## `connect` -/

/-- `TcpStream::connect` and `connect_timeout` begin. -/
def connect (addrs : List SocketAddr) (hasTimeout : Bool) : Option (Change T) :=
  some { s.same with
    objects := s.objects ++ [.connecting ⟨addrs, hasTimeout, none, emptyAddrs⟩] }

/-- The call gives up on its socket and goes on with the next address. -/
def connectFailed (sockets : SocketSet T) (i : ℕ) (c : Connecting) (h : SocketHandle) :
    Change T :=
  match SocketSet.releaseAll [h] sockets with
  | none => { s.panics with sockets := sockets }
  | some sockets => { s.same with
      sockets := sockets
      objects := s.objects.set i (.connecting { c with
        handle := none
        r := .other "connection not successful" }) }

/-- The condition of the loop in which `connect_timeout_opt` waits. -/
def connectCheck (sockets : SocketSet T) (i : ℕ) (c : Connecting) (h : SocketHandle) : Change T :=
  match sockets.getTcp h with
  | none => { s.panics with sockets := sockets }
  | some t =>
    if !T.isActive t then s.connectFailed sockets i c h
    else { s.same with
      sockets := sockets
      objects := s.objects.set i
        (if T.mayRecv t && T.maySend t then .stream h
        else .connecting { c with handle := some h }) }

/-- The next address of a call: one that is connected to through the kernel, one that is not
supported, or one of the stack in user space. `system` is the result of the kernel. -/
def connectNext (i : ℕ) (draws : List PortDraw) (slot : ℕ) (system : Except IoError Unit) :
    Option (Change T) :=
  match s.objects[i]? with
  | some (.connecting c) =>
    match c.handle, c.addrs with
    | some _, _ => none
    | none, [] => some { s.same with objects := s.objects.set i .gone }
    | none, addr :: addrs =>
      let c := { c with addrs := addrs }
      if addr.ip.isLoopback || addr.ip = cfg.ip || addr.ip.isUnspecified then
        match system with
        | .ok _ => some { s.same with objects := s.objects.set i .gone }
        | .error e => some { s.same with
            objects := s.objects.set i (.connecting { c with r := e }) }
      else if addr.ip.isIpv6 then some { s.same with
        objects := s.objects.set i (.connecting { c with r := .other "ipv6 address" }) }
      else
        match choosePort cfg.kernelLocalPortRange draws with
        | none => none
        | some port =>
          let socket := T.newTcp cfg.socketBufferSize
          match T.connect socket addr port with
          | none =>
            -- the `unwrap` panics, and nobody holds the handle of the new socket
            match s.net.sockets.add slot (.inl socket) with
            | none => none
            | some (_, sockets) => some { s.same with
                sockets := sockets
                objects := s.objects.set i .gone
                callPanicked := true }
          | some t =>
            match s.net.sockets.add slot (.inl t) with
            | none => none
            | some (h, sockets) =>
              if (s.net.wakeBg cfg).isNone then some { s.same with
                sockets := sockets
                objects := s.objects.set i .gone
                wake := .handOver }
              else some { s.connectCheck sockets i c h with wake := .handOver }
  | _ => none

/-- A call that waits for its connection is woken. -/
def connectWake (i : ℕ) : Option (Change T) :=
  match s.objects[i]? with
  | some (.connecting c) =>
    match c.handle with
    | some h => some (s.connectCheck s.net.sockets i c h)
    | none => none
  | _ => none

/-- The wait of a call with a timeout times out. -/
def connectTimeout (i : ℕ) : Option (Change T) :=
  match s.objects[i]? with
  | some (.connecting c) =>
    match c.handle, c.hasTimeout with
    | some h, true =>
      match s.net.sockets.getTcp h with
      | none => some s.panics
      | some t =>
        some (s.connectFailed (s.net.sockets.setSocket h (.inl (T.abort t))) i c h)
    | _, _ => none
  | _ => none

/-! ## Streams -/

/-- `write` and `write_no_copy`: one turn of the loop, and what follows it if the socket can send.
Where it cannot, the call returns or waits, and changes nothing. -/
def writeWith (i : ℕ) (send : T.Tcp → T.Tcp) : Option (Change T) :=
  match s.objects[i]? with
  | some (.stream h) =>
    match s.net.sockets.getTcp h with
    | none => some s.panics
    | some t =>
      if T.maySend t && T.canSend t then some { s.same with
        sockets := s.net.sockets.setSocket h (.inl (send t))
        wake := .handOver }
      else some s.same
  | _ => none

def write (i : ℕ) (buf : List UInt8) : Option (Change T) :=
  s.writeWith i fun t ↦ T.sendSlice t buf

def writeNoCopy (i : ℕ) (f : ℕ → List UInt8) : Option (Change T) :=
  s.writeWith i fun t ↦ T.send t f

/-- `read` and `read_no_copy`: one turn of the loop, and what follows it if the socket can
receive. -/
def readWith (i : ℕ) (recv : T.Tcp → T.Tcp) : Option (Change T) :=
  match s.objects[i]? with
  | some (.stream h) =>
    match s.net.sockets.getTcp h with
    | none => some s.panics
    | some t =>
      if T.mayRecv t && T.canRecv t then some { s.same with
        sockets := s.net.sockets.setSocket h (.inl (recv t))
        wake := .afterRead }
      else some s.same
  | _ => none

def read (i : ℕ) (len : ℕ) : Option (Change T) := s.readWith i fun t ↦ T.recvSlice t len

def readNoCopy (i : ℕ) (f : List UInt8 → ℕ) : Option (Change T) :=
  s.readWith i fun t ↦ T.recv t f

/-- `StcpStream::shutdown`. -/
def shutdown (i : ℕ) (how : Shutdown) : Option (Change T) :=
  match s.objects[i]? with
  | some (.stream h) =>
    match s.net.sockets.getTcp h with
    | none => some s.panics
    | some t =>
      match how with
      | .read => some s.same
      | .write => some { s.same with
          sockets := s.net.sockets.setSocket h (.inl (T.close t))
          closing := true }
      | .both => some { s.same with
          sockets := s.net.sockets.setSocket h (.inl (T.abort t))
          closing := true }
  | _ => none

/-- `StcpStream::try_clone`. -/
def tryClone (i : ℕ) : Option (Change T) :=
  match s.objects[i]? with
  | some (.stream h) =>
    match s.net.sockets.retain h with
    | none => some s.panics
    | some sockets => some { s.same with
        sockets := sockets
        objects := s.objects ++ [.stream h] }
  | _ => none

/-- Whether the reference is the only one to the socket. -/
def lastRef (h : SocketHandle) : Bool :=
  match s.net.sockets.slots h.index with
  | some item => item.refs == 1
  | none => false

/-- The destructor of `StcpStream`. -/
def dropStream (i : ℕ) : Option (Change T) :=
  match s.objects[i]? with
  | some (.stream h) =>
    match SocketSet.releaseAll [h] s.net.sockets with
    | none => some s.panics
    | some sockets => some { s.same with
        sockets := sockets
        objects := s.objects.set i .gone
        closing := s.lastRef h }
  | _ => none

/-! ## UDP sockets -/

/-- `UdpSocket::bind`. The `unwrap` on `bind` cannot panic here, since the port is not zero. -/
def bindUdp (addrs : List BindAddr) (slot : ℕ) : Option (Change T) :=
  match bindAddrs addrs emptyAddrs with
  | none | some (.next _) => none
  | some (.leave _) => some s.same
  | some (.loopback _ lo) =>
    if lo ∈ s.openFds cfg then none
    else some { s.same with objects := s.objects ++ [.udp ⟨none, lo, false⟩] }
  | some (.registered port lo) =>
    if lo ∈ s.openFds cfg then none
    else
      match T.bindUdp (T.newUdp cfg.socketBufferSize) port with
      | none => none
      | some socket =>
        match s.net.sockets.add slot (.inr socket) with
        | none => none
        | some (h, sockets) => some { s.same with
            sockets := sockets
            objects := s.objects ++ [.udp ⟨some h, lo, true⟩]
            fdsAdd := [lo] }

/-- The count goes up if there is a handle. -/
def retainSome (S : SocketSet T) : Option SocketHandle → Option (SocketSet T)
  | none => some S
  | some h => S.retain h

/-- `UdpSocket::try_clone`. The clone has a descriptor of its own, which is not queued. If the
kernel fails to make it, the reference that was added to the socket stays. -/
def tryCloneUdp (i : ℕ) (dup : Except IoError Fd) : Option (Change T) :=
  match s.objects[i]? with
  | some (.udp u) =>
    match retainSome s.net.sockets u.socketHandle with
    | none => some s.panics
    | some sockets =>
      match dup with
      -- `self.lo.try_clone()?` leaves with the count already incremented
      | .error _ => some { s.same with sockets := sockets }
      | .ok lo =>
        if lo ∈ s.openFds cfg then none
        else some { s.same with
          sockets := sockets
          objects := s.objects ++ [.udp ⟨u.socketHandle, lo, false⟩] }
  | _ => none

/-- The destructor of `UdpSocket`. -/
def dropUdp (i : ℕ) : Option (Change T) :=
  match s.objects[i]? with
  | some (.udp u) =>
    match SocketSet.releaseAll u.socketHandle.toList s.net.sockets with
    | none => some { s.panics with
        objects := s.objects.set i .gone
        fdsRemove := [u.lo]
        unregistered := if u.registered then [] else [u.lo] }
    | some sockets => some { s.same with
        sockets := sockets
        objects := s.objects.set i .gone
        fdsRemove := [u.lo]
        unregistered := if u.registered then [] else [u.lo] }
  | _ => none

/-- `UdpSocket::send_to`: one turn of the loop. -/
def sendTo (i : ℕ) (buf : List UInt8) (addr : SocketAddr) : Option (Change T) :=
  match s.objects[i]? with
  | some (.udp u) =>
    match u.socketHandle with
    | none => some s.same
    | some h =>
      if addr.ip.isLoopback then some s.same
      else
        match s.net.sockets.getUdp h with
        | none => some s.panics
        | some t =>
          if T.canSendUdp t then some { s.same with
            sockets := s.net.sockets.setSocket h (.inr (T.sendUdp t buf addr))
            wake := .handOver }
          else some s.same
  | _ => none

/-- `UdpSocket::recv_from`: one turn of the loop, in which a datagram may be taken. -/
def recvFrom (i : ℕ) (len : ℕ) : Option (Change T) :=
  match s.objects[i]? with
  | some (.udp u) =>
    match u.socketHandle with
    | none => some s.same
    | some h =>
      match s.net.sockets.getUdp h with
      | none => some s.panics
      | some t =>
        if T.canRecvUdp t then some { s.same with
          sockets := s.net.sockets.setSocket h (.inr (T.recvUdp t len)) }
        else some s.same
  | _ => none

/-! ## The system -/

/-- The change that a critical section of the application makes. `none` if the section is not
possible in this state, or is not one of the application. -/
def change (a : Action T) : Option (Change T) :=
  match a with
  | .bgFirst _ | .bgPoll _ | .bgSecond _ => none
  | .bind addrs slots => s.bind cfg addrs slots
  | .bindUdp addrs slot => s.bindUdp cfg addrs slot
  | .dropListener i => s.dropListener i
  | .dropStream i => s.dropStream i
  | .dropUdp i => s.dropUdp i
  | .setTtl i ttl => s.setTtl i ttl
  | .setNonblocking i nonblocking => s.setNonblocking i nonblocking
  | .accept i => s.accept i
  | .acceptWait i => s.acceptWait i
  | .acceptCheck i lo => s.acceptCheck i lo
  | .acceptReplace i slot => s.acceptReplace cfg i slot
  | .connect addrs hasTimeout => s.connect addrs hasTimeout
  | .connectNext i draws slot system => s.connectNext cfg i draws slot system
  | .connectWake i => s.connectWake i
  | .connectTimeout i => s.connectTimeout i
  | .write i buf => s.write i buf
  | .writeNoCopy i f => s.writeNoCopy i f
  | .read i len => s.read i len
  | .readNoCopy i f => s.readNoCopy i f
  | .shutdown i how => s.shutdown i how
  | .tryClone i => s.tryClone i
  | .tryCloneUdp i dup => s.tryCloneUdp cfg i dup
  | .sendTo i buf addr => s.sendTo i buf addr
  | .recvFrom i len => s.recvFrom i len

/-- One critical section. `none` if it is not possible in this state. -/
def step (a : Action T) : Option (State T) :=
  match a with
  | .bgFirst now => s.bgFirst cfg now
  | .bgPoll ok => s.bgPoll ok
  | .bgSecond events => s.bgSecond events
  | a => (s.change cfg a).map (s.apply cfg)

/-- **What a step can do.** It is one of the three parts of an iteration of the background thread,
or it applies the change that a critical section of the application makes. -/
theorem step_cases {cfg : Config} {s s' : State T} {a : Action T} (h : s.step cfg a = some s') :
    (∃ now, a = .bgFirst now ∧ s.bgFirst cfg now = some s') ∨
    (∃ ok, a = .bgPoll ok ∧ s.bgPoll ok = some s') ∨
    (∃ events, a = .bgSecond events ∧ s.bgSecond events = some s') ∨
    ∃ c, s.change cfg a = some c ∧ s' = s.apply cfg c := by
  have happ (h : (s.change cfg a).map (s.apply cfg) = some s') :
      ∃ c, s.change cfg a = some c ∧ s' = s.apply cfg c := by
    obtain ⟨c, hc, rfl⟩ := Option.map_eq_some_iff.mp h
    exact ⟨c, hc, rfl⟩
  cases a with
  | bgFirst now => exact Or.inl ⟨now, rfl, h⟩
  | bgPoll ok => exact Or.inr (Or.inl ⟨ok, rfl, h⟩)
  | bgSecond events => exact Or.inr (Or.inr (Or.inl ⟨events, rfl, h⟩))
  | _ => exact Or.inr (Or.inr (Or.inr (happ h)))

/-- The descriptors that the background thread is going to poll. -/
def polledFds (fdsExtra : List Fd) : List Fd :=
  if s.bg.fds.isEmpty || !s.net.fdsAdd.isEmpty || !s.net.fdsRemove.isEmpty then
    [cfg.fd, cfg.notifyPollListener] ++ fdsExtra
  else s.bg.fds

variable {cfg : Config} {s s' : State T}

/-- The first critical section either panics on a descriptor that is not there, or gets to its
end. -/
theorem bgFirst_cases {now : ℕ} (h : s.bgFirst cfg now = some s') : s.bg.pc = .first ∧
    ((removeFds s.net.fdsRemove (s.bg.fdsExtra ++ s.net.fdsAdd) = none ∧
      s' = { s with
        net := { s.net with
          bgSkipOneWait := if s.net.bgSkipOneWait == .skip then .skip else .wait
          fdsAdd := [] }
        bg := { s.bg with pc := .panicked } }) ∨
    ∃ fdsExtra, removeFds s.net.fdsRemove (s.bg.fdsExtra ++ s.net.fdsAdd) = some fdsExtra ∧
      s' = { s with
        net := { s.net with
          bgSkipOneWait := if s.net.bgSkipOneWait == .skip then .skip else .wait
          fdsAdd := []
          fdsRemove := []
          currentWaitDelay := toDelay (T.pollDelay s.net.sockets.sockets now) }
        bg := {
          pc := if cfg.waitingPoll && !(s.net.bgSkipOneWait == .skip) then .polling else .second
          fds := s.polledFds cfg fdsExtra
          fdsExtra := fdsExtra
          skip := s.net.bgSkipOneWait == .skip
          delay := toDelay (T.pollDelay s.net.sockets.sockets now) } }) := by
  rw [bgFirst] at h
  split at h
  · rename_i hpc
    refine ⟨hpc, ?_⟩
    dsimp only at h
    split at h
    · rename_i hnone
      exact Or.inl ⟨hnone, (Option.some.inj h).symm⟩
    · rename_i extra hsome
      refine Or.inr ⟨extra, hsome, ?_⟩
      rw [← Option.some.inj h, polledFds]
      cases s.net.fdsAdd <;> cases s.net.fdsRemove <;> cases s.bg.fds <;> rfl
  · exact absurd h (by simp)

theorem bgPoll_cases {ok : Bool} (h : s.bgPoll ok = some s') : s.bg.pc = .polling ∧
    s' = { s with bg := { s.bg with pc := if ok then .second else .panicked } } := by
  rw [bgPoll] at h
  split at h
  · rename_i hpc
    exact ⟨hpc, (Option.some.inj h).symm⟩
  · exact absurd h (by simp)

theorem bgSecond_cases {events : List (ℕ × T.Event)} (h : s.bgSecond events = some s') :
    s.bg.pc = .second ∧ s' = { s with
      net := { s.net with
        notifications := 0
        sockets := s.net.sockets.process events
        bgSkipOneWait := .skippable }
      bg := { s.bg with pc := .first }
      objects := s.objects.map wakeAccept
      closing := false } := by
  rw [bgSecond] at h
  split at h
  · rename_i hpc
    exact ⟨hpc, (Option.some.inj h).symm⟩
  · exact absurd h (by simp)

end State

end UsnetSockets
