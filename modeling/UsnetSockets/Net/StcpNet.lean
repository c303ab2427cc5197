import Mathlib.Algebra.Order.Ring.Int
import UsnetSockets.Net.Smoltcp

/-!
# The shared state of the multithread API

`StcpNet` is what all threads share, behind one mutex. This file has its fields and the pieces of
its critical sections: waking the background thread, and the search for a port in `bind`,
`bind_udp` and `connect`.

What the kernel and usnetd answer is not determined by the program. The functions here take the
answers as arguments.
-/

namespace UsnetSockets

/-- `bg_skip_one_wait`: what the background thread does about its next wait. -/
inductive Skip where
  | wait
  | skippable
  | skip
  deriving DecidableEq

/-- What does not change after `StcpNet::new`. -/
structure Config where
  /-- The descriptor of the network device. -/
  fd : Fd
  /-- The descriptor of `notify_poll_listener`. -/
  notifyPollListener : Fd
  waitingPoll : Bool
  socketBacklog : ℕ
  socketBufferSize : ℕ
  kernelLocalPortRange : UInt16 × UInt16
  /-- The address of the interface, `iface.ips()[0]`. -/
  ip : IpAddr
  /-- How many datagrams fit in the non-blocking socket pair of the notifications. -/
  notifyCapacity : ℕ
  notifyCapacity_pos : 0 < notifyCapacity

/-- The configuration of concrete runs. -/
def Config.reference : Config where
  fd := 3
  notifyPollListener := 4
  waitingPoll := true
  socketBacklog := 1
  socketBufferSize := 500000
  kernelLocalPortRange := (32768, 60999)
  ip := .v4 10 0 0 2
  notifyCapacity := 10
  notifyCapacity_pos := by decide

structure StcpNet (T : Smoltcp) where
  sockets : SocketSet T
  bgSkipOneWait : Skip
  /-- The number of datagrams that are readable on `notify_poll_listener`. -/
  notifications : ℕ
  fdsAdd : List Fd
  fdsRemove : List Fd
  currentWaitDelay : ℤ

/-- `duration.total_millis() as c_int`, or `-1` without a duration. -/
def toDelay : Option ℕ → ℤ
  | some millis => (millis : ℤ).bmod (2 ^ 32)
  | none => -1

namespace StcpNet

variable {T : Smoltcp} (cfg : Config) (net : StcpNet T)

def new : StcpNet T where
  sockets := .empty
  bgSkipOneWait := .wait
  notifications := 0
  fdsAdd := []
  fdsRemove := []
  currentWaitDelay := -1

/-! ## Notifications -/

/-- `notify_poll.send(b"$")`, or `none` when the socket pair is full. -/
def notify : Option (StcpNet T) :=
  if net.notifications < cfg.notifyCapacity then
    some { net with notifications := net.notifications + 1 }
  else none

/-- What `connect`, `write`, `write_no_copy` and `send_to` do after handing something to the stack.
`none` is the panic of the `unwrap` on `send`. -/
def wakeBg : Option (StcpNet T) :=
  if net.bgSkipOneWait = .wait then net.notify cfg
  else some { net with bgSkipOneWait := .skip }

/-- What `read` and `read_no_copy` do after taking something from the stack. -/
def wakeBgAfterRead : Option (StcpNet T) :=
  if net.bgSkipOneWait = .wait ∧ (net.currentWaitDelay = -1 ∨ net.currentWaitDelay > 10) then
    net.notify cfg
  else some net

/-- Whether and how a critical section of the application wakes the background thread. -/
inductive WakeKind where
  | none
  | handOver
  | afterRead
  deriving DecidableEq

/-- The end of a critical section. -/
def wake : WakeKind → Option (StcpNet T)
  | .none => some net
  | .handOver => net.wakeBg cfg
  | .afterRead => net.wakeBgAfterRead cfg

end StcpNet

/-- The loop of `bind` that fills the backlog: one socket, which listens, for each slot. -/
def SocketSet.addBacklog {T : Smoltcp} (socket : T.Tcp) :
    List ℕ → SocketSet T → Option (List SocketHandle × SocketSet T)
  | [], S => some ([], S)
  | slot :: slots, S =>
    match S.add slot (.inl socket) with
    | none => none
    | some (h, S) =>
      match addBacklog socket slots S with
      | none => none
      | some (hs, S) => some (h :: hs, S)

/-! ## The search for a port -/

/-- The ports that `1u16 + thread_rng().gen_range(1024, u16::MAX)` may be. -/
abbrev RandomPort := {port : UInt16 // 1025 ≤ port}

/-! Two ports that concrete runs draw. -/

theorem RandomPort.le_1025 : (1025 : UInt16) ≤ 1025 := by decide

theorem RandomPort.le_2000 : (1025 : UInt16) ≤ 2000 := by decide

/-- What happens in one pass of the loop that looks for a port: the port drawn at random if the
address has none, the result of the kernel's bind, and the result of `add_port_match`. -/
structure BindAttempt where
  drawn : RandomPort
  lo : Except IoError Fd
  usnet : Except IoError Unit

/-- The variables of the loop. -/
structure BindVars where
  port : UInt16
  loResult : Except IoError Fd
  usnetResult : Except IoError Unit

def isErr {α : Type} : Except IoError α → Bool
  | .error _ => true
  | .ok _ => false

/-- The loop of `bind` and `bind_udp`. `none` if it is not over after the given attempts. -/
def bindLoop (findRandom loopback : Bool) : List BindAttempt → BindVars → Option BindVars
  | [], v =>
    if isErr v.loResult && (isErr v.usnetResult || loopback) then none else some v
  | a :: as, v =>
    if isErr v.loResult && (isErr v.usnetResult || loopback) then
      let v : BindVars := {
        port := if findRandom then a.drawn.val else v.port
        loResult := a.lo
        -- usnetd is asked only for a port that the kernel has granted
        usnetResult := if !isErr a.lo && !loopback then a.usnet else v.usnetResult }
      -- without `find_random` the loop breaks after its first pass
      if findRandom then bindLoop findRandom loopback as v else some v
    else some v

/-- How `bind` and `bind_udp` end for one address. -/
inductive BindResult where
  /-- A socket of the kernel only. -/
  | loopback (port : UInt16) (lo : Fd)
  /-- A socket of the kernel and one of the stack in user space. -/
  | registered (port : UInt16) (lo : Fd)
  /-- Go on with the next address. -/
  | next (e : IoError)
  /-- Leave with the error. -/
  | leave (e : IoError)

/-- What `bind` and `bind_udp` do for one address up to the point where they queue the descriptor.
`setNonblocking` is the result of `lolisten.set_nonblocking(true)`. `none` if the loop is not over
after the given attempts. -/
def bindAddr (addr : SocketAddr) (attempts : List BindAttempt)
    (setNonblocking : Except IoError Unit) : Option BindResult :=
  if !addr.ip.isLoopback && addr.ip.isIpv6 then some (.next (.other "ipv6 bind"))
  else
    match bindLoop (addr.port == 0) addr.ip.isLoopback attempts
        ⟨addr.port, .error (.other "uninit"), .error (.other "uninit")⟩ with
    | none => none
    | some v =>
      match v.loResult with
      | .error e => some (.next e)
      | .ok lo =>
        if addr.ip.isLoopback then some (.loopback v.port lo)
        else
          match v.usnetResult with
          | .error e => some (.next e)
          | .ok _ =>
            match setNonblocking with
            | .error e => some (.leave e)
            | .ok _ => some (.registered v.port lo)

/-- What happens at one address of the list that `bind` is called with. -/
structure BindAddr where
  addr : SocketAddr
  attempts : List BindAttempt
  setNonblocking : Except IoError Unit

/-- An address with a port, at which the kernel makes the socket `lo` and usnetd agrees. -/
def BindAddr.granted (addr : SocketAddr) (lo : Fd) : BindAddr where
  addr := addr
  attempts := [⟨⟨1025, RandomPort.le_1025⟩, .ok lo, .ok ()⟩]
  setNonblocking := .ok ()

/-- The loop over the addresses. An address at which `bind` fails leaves nothing behind in
`StcpNet`, so the critical sections of the addresses before the last are not separate steps. -/
def bindAddrs : List BindAddr → IoError → Option BindResult
  | [], r => some (.leave r)
  | b :: bs, _ =>
    match bindAddr b.addr b.attempts b.setNonblocking with
    | some (.next e) => bindAddrs bs e
    | res => res

/-- The start value of `r` in `bind`, `bind_udp` and `connect_timeout_opt`. -/
def emptyAddrs : IoError := .other "to_socket_addrs is empty"

/-- One pass of the loop of `connect_timeout_opt` that looks for a local port: the port drawn, and
whether `add_port_match` accepts it. -/
structure PortDraw where
  port : RandomPort
  usnet : Except IoError Unit

/-- The loop of `connect_timeout_opt` that looks for a local port. -/
def choosePort (range : UInt16 × UInt16) : List PortDraw → Option UInt16
  | [] => none
  | d :: ds =>
    -- a port of the kernel is drawn again without asking usnetd
    if range.1 ≤ d.port.val ∧ d.port.val ≤ range.2 then choosePort range ds
    else if isErr d.usnet then choosePort range ds
    else some d.port.val

end UsnetSockets
