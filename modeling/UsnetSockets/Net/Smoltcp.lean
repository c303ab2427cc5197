import Mathlib.Logic.Function.Basic
import UsnetSockets.Net.Addr

/-!
# The sockets of smoltcp

The stack in user space is the crate smoltcp, which is not part of this repository. Its TCP and UDP
sockets are a parameter of everything that follows: `Smoltcp` lists the calls that the repository
makes, and the documented behaviour that it relies on. The TCP states are documented as those of the
TCP state machine, and so are the predicates `is_active`, `may_recv` and `may_send`.

`SocketSet` owns the sockets; its users hold handles. A handle is the index of a slot. Slots are
used again after `prune` has emptied them, so two sockets may have had the same handle; the model
therefore numbers the sockets in the order in which they were added and lets a handle carry the
number of the socket that it was made for. No function of the model decides anything by that number.
-/

namespace UsnetSockets

/-- The state of a TCP socket. -/
inductive TcpState where
  | closed
  | listen
  | synSent
  | synReceived
  | established
  | finWait1
  | finWait2
  | closeWait
  | closing
  | lastAck
  | timeWait
  deriving DecidableEq

namespace TcpState

/-- The state after `close`. -/
def close : TcpState → TcpState
  | closed | listen | synSent => closed
  | synReceived | established => finWait1
  | closeWait => lastAck
  | st => st

/-- The states into which a segment, with or without the `RST` and `FIN` flags, may take a socket
that has not been closed on this side and has not initiated the connection. A segment that is not
acceptable leaves the state as it is. -/
def passiveNext (st : TcpState) (rst fin : Bool) : List TcpState :=
  match st with
  | listen => [listen, synReceived]
  | synReceived =>
    if rst then [synReceived, listen] else if fin then [synReceived, closeWait]
    else [synReceived, established]
  | established =>
    if rst then [established, closed] else if fin then [established, closeWait] else [established]
  | closeWait => if rst then [closeWait, closed] else [closeWait]
  | _ => []

/-- The states of a socket that has been told to listen and nothing else. -/
def passive : List TcpState := [listen, synReceived, established, closeWait]

/-- The states of a socket that has been told to connect and nothing else. -/
def opening : List TcpState := [synSent, established, closeWait, closed]

end TcpState

/-- The part of smoltcp that the repository uses. Functions that the repository calls with `unwrap`
return an `Option`. -/
structure Smoltcp where
  /-- TCP sockets. -/
  Tcp : Type
  /-- UDP sockets. -/
  Udp : Type
  /-- What one poll of the interface has for one socket: a segment, a timer. -/
  Event : Type
  /-- A closed socket with receive and transmit buffers of the given size. -/
  newTcp : ℕ → Tcp
  listen : Tcp → UInt16 → Option Tcp
  connect : Tcp → SocketAddr → UInt16 → Option Tcp
  setHopLimit : Tcp → Option UInt8 → Option Tcp
  close : Tcp → Tcp
  abort : Tcp → Tcp
  /-- `send_slice`. -/
  sendSlice : Tcp → List UInt8 → Tcp
  /-- `send`: the closure is given the size of the free buffer and fills it. -/
  send : Tcp → (ℕ → List UInt8) → Tcp
  /-- `recv_slice` with a buffer of the given size. -/
  recvSlice : Tcp → ℕ → Tcp
  /-- `recv`: the closure is given the data and says how much of it is used up. -/
  recv : Tcp → (List UInt8 → ℕ) → Tcp
  state : Tcp → TcpState
  /-- The number of bytes in the receive buffer. -/
  rxLen : Tcp → ℕ
  /-- Whether there is a segment to send now. -/
  segmentDue : Tcp → Bool
  remoteEndpoint : Tcp → SocketAddr
  isActive : Tcp → Bool
  mayRecv : Tcp → Bool
  maySend : Tcp → Bool
  canRecv : Tcp → Bool
  canSend : Tcp → Bool
  /-- A UDP socket with buffers of the given size. -/
  newUdp : ℕ → Udp
  bindUdp : Udp → UInt16 → Option Udp
  canSendUdp : Udp → Bool
  sendUdp : Udp → List UInt8 → SocketAddr → Udp
  canRecvUdp : Udp → Bool
  recvUdp : Udp → ℕ → Udp
  /-- The effect of one poll of the interface on one socket. -/
  process : Event → Tcp → Tcp
  processUdp : Event → Udp → Udp
  isRst : Event → Bool
  isFin : Event → Bool
  /-- `poll_delay` of the interface, in milliseconds, from the sockets and the time. -/
  pollDelay : List (Tcp ⊕ Udp) → ℕ → Option ℕ
  isActive_eq : ∀ t, isActive t = !decide (state t ∈ [.closed, .listen, .timeWait])
  maySend_eq : ∀ t, maySend t = decide (state t ∈ [.established, .closeWait])
  mayRecv_eq : ∀ t, mayRecv t =
    (decide (state t ∈ [.established, .finWait1, .finWait2]) || decide (0 < rxLen t))
  state_newTcp : ∀ n, state (newTcp n) = .closed
  listen_isSome : ∀ t port, state t = .closed → port ≠ 0 → (listen t port).isSome
  state_listen : ∀ t port t', listen t port = some t' → state t' = .listen
  state_connect : ∀ t addr port t', connect t addr port = some t' → state t' = .synSent
  state_setHopLimit : ∀ t ttl t', setHopLimit t ttl = some t' → state t' = state t
  rxLen_setHopLimit : ∀ t ttl t', setHopLimit t ttl = some t' → rxLen t' = rxLen t
  state_close : ∀ t, state (close t) = (state t).close
  state_abort : ∀ t, state (abort t) = .closed
  state_sendSlice : ∀ t buf, state (sendSlice t buf) = state t
  rxLen_sendSlice : ∀ t buf, rxLen (sendSlice t buf) = rxLen t
  state_send : ∀ t f, state (send t f) = state t
  rxLen_send : ∀ t f, rxLen (send t f) = rxLen t
  state_recvSlice : ∀ t n, state (recvSlice t n) = state t
  rxLen_recvSlice : ∀ t n, rxLen (recvSlice t n) ≤ rxLen t
  state_recv : ∀ t f, state (recv t f) = state t
  rxLen_recv : ∀ t f, rxLen (recv t f) ≤ rxLen t
  bindUdp_isSome : ∀ n port, port ≠ 0 → (bindUdp (newUdp n) port).isSome
  state_process : ∀ e t, state t ∈ TcpState.passive →
    state (process e t) ∈ (state t).passiveNext (isRst e) (isFin e)
  rxLen_process : ∀ e t, state t ∈ TcpState.passive → rxLen t ≤ rxLen (process e t)
  pollDelay_of_segmentDue : ∀ sockets now,
    (∃ t, .inl t ∈ sockets ∧ segmentDue t) → pollDelay sockets now = some 0

variable {T : Smoltcp}

/-- What `accept` looks for: a connection that is open in both directions. -/
def Smoltcp.acceptable (T : Smoltcp) (t : T.Tcp) : Bool :=
  T.isActive t && T.mayRecv t && T.maySend t

/-- A connection can be accepted when it is established, or when the peer has closed its side of it
but has left data to read. -/
theorem Smoltcp.acceptable_iff (t : T.Tcp) : T.acceptable t ↔
    T.state t = .established ∨ T.state t = .closeWait ∧ 0 < T.rxLen t := by
  rw [Smoltcp.acceptable, T.isActive_eq, T.mayRecv_eq, T.maySend_eq]
  cases T.state t <;> simp

/-- A TCP socket of `Smoltcp.reference`. -/
structure ReferenceTcp where
  state : TcpState
  rxLen : ℕ
  due : Bool
  localPort : UInt16
  remote : SocketAddr

/-- A segment for a TCP socket of `Smoltcp.reference`, or the end of a poll, when what was to be
sent has been sent. -/
inductive ReferenceEvent where
  | syn (remote : SocketAddr)
  | ack
  | data (len : ℕ)
  | fin
  | rst
  | sent

/-- A stack that is no more than the TCP state machine: the length of the received data stands for
the data, and a UDP socket for nothing but itself. It shows that the documented behaviour can be
had, and serves as the stack of concrete runs. -/
def Smoltcp.reference : Smoltcp where
  Tcp := ReferenceTcp
  Udp := Unit
  Event := ReferenceEvent
  newTcp _ := ⟨.closed, 0, false, 0, ⟨.v4 0 0 0 0, 0⟩⟩
  listen t port :=
    if t.state = .closed ∧ port ≠ 0 then some { t with state := .listen, localPort := port }
    else none
  connect t addr port :=
    if t.state = .closed ∧ port ≠ 0 ∧ addr.port ≠ 0 then
      some { t with state := .synSent, due := true, localPort := port, remote := addr }
    else none
  setHopLimit t ttl := if ttl = some 0 then none else some t
  close t := { t with
    state := t.state.close
    due := t.due || t.state matches .synReceived | .established | .closeWait }
  abort t := { t with
    state := .closed
    due := t.due || !(t.state matches .closed | .listen) }
  sendSlice t buf := { t with due := t.due || !buf.isEmpty }
  send t _ := { t with due := true }
  recvSlice t n := { t with rxLen := t.rxLen - n }
  recv t _ := { t with rxLen := 0 }
  state := ReferenceTcp.state
  rxLen := ReferenceTcp.rxLen
  segmentDue := ReferenceTcp.due
  remoteEndpoint := ReferenceTcp.remote
  isActive t := !decide (t.state ∈ [.closed, .listen, .timeWait])
  mayRecv t := decide (t.state ∈ [.established, .finWait1, .finWait2]) || decide (0 < t.rxLen)
  maySend t := decide (t.state ∈ [.established, .closeWait])
  canRecv t := decide (0 < t.rxLen)
  canSend t := decide (t.state ∈ [.established, .closeWait])
  newUdp _ := ()
  bindUdp _ port := if port ≠ 0 then some () else none
  canSendUdp _ := true
  sendUdp _ _ _ := ()
  canRecvUdp _ := false
  recvUdp _ _ := ()
  process e t :=
    match e, t.state with
    | .syn remote, .listen => { t with state := .synReceived, due := true, remote := remote }
    | .ack, .synReceived => { t with state := .established }
    | .ack, .synSent => { t with state := .established, due := true }
    | .data len, .established => { t with rxLen := t.rxLen + len, due := true }
    | .fin, .synReceived => { t with state := .closeWait, due := true }
    | .fin, .established => { t with state := .closeWait, due := true }
    -- a connection that is not established yet goes back to listening, unless it was this side's
    | .rst, .synReceived => { t with state := .listen, due := false }
    | .rst, .synSent => { t with state := .closed, due := false }
    | .rst, .established => { t with state := .closed, due := false }
    | .rst, .closeWait => { t with state := .closed, due := false }
    | .sent, _ => { t with due := false }
    | _, _ => t
  processUdp _ u := u
  isRst e := e matches .rst
  isFin e := e matches .fin
  pollDelay sockets _ :=
    if sockets.any fun socket ↦ socket.elim ReferenceTcp.due fun _ ↦ false then some 0 else none
  isActive_eq _ := rfl
  maySend_eq _ := rfl
  mayRecv_eq _ := rfl
  state_newTcp _ := rfl
  listen_isSome t port ht hp := by simp [ht, hp]
  state_listen t port t' h := by
    split at h
    · rw [← Option.some.inj h]
    · exact absurd h (by simp)
  state_connect t addr port t' h := by
    split at h
    · rw [← Option.some.inj h]
    · exact absurd h (by simp)
  state_setHopLimit t ttl t' h := by
    split at h
    · exact absurd h (by simp)
    · rw [← Option.some.inj h]
  rxLen_setHopLimit t ttl t' h := by
    split at h
    · exact absurd h (by simp)
    · rw [← Option.some.inj h]
  state_close _ := rfl
  state_abort _ := rfl
  state_sendSlice _ _ := rfl
  rxLen_sendSlice _ _ := rfl
  state_send _ _ := rfl
  rxLen_send _ _ := rfl
  state_recvSlice _ _ := rfl
  rxLen_recvSlice _ _ := Nat.sub_le _ _
  state_recv _ _ := rfl
  rxLen_recv _ _ := Nat.zero_le _
  bindUdp_isSome _ port hp := by simp [hp]
  state_process e t ht := by
    obtain ⟨st, rx, due, port, remote⟩ := t
    cases e <;> cases st <;> simp_all [TcpState.passive, TcpState.passiveNext]
  rxLen_process e t ht := by
    obtain ⟨st, rx, due, port, remote⟩ := t
    cases e <;> cases st <;> simp
  pollDelay_of_segmentDue sockets now h := by
    obtain ⟨t, ht, hdue⟩ := h
    rw [if_pos]
    exact List.any_eq_true.mpr ⟨.inl t, ht, hdue⟩

/-! ## The set of sockets -/

/-- The index of a slot; `uid` is the number of the socket that the handle was made for. -/
structure SocketHandle where
  index : ℕ
  uid : ℕ
  deriving DecidableEq

/-- The content of a slot. -/
structure Item (T : Smoltcp) where
  uid : ℕ
  refs : ℕ
  socket : T.Tcp ⊕ T.Udp

structure SocketSet (T : Smoltcp) where
  slots : ℕ → Option (Item T)
  /-- The number of slots. Those behind are empty. -/
  size : ℕ
  /-- The number of sockets that have been added so far. -/
  added : ℕ

namespace SocketSet

def empty : SocketSet T := ⟨fun _ ↦ none, 0, 0⟩

/-- Adds a socket to a free slot, with a reference count of one. -/
def add (S : SocketSet T) (slot : ℕ) (socket : T.Tcp ⊕ T.Udp) :
    Option (SocketHandle × SocketSet T) :=
  match S.slots slot with
  | none => some (⟨slot, S.added⟩, {
      slots := Function.update S.slots slot (some ⟨S.added, 1, socket⟩)
      size := max S.size (slot + 1)
      added := S.added + 1 })
  | some _ => none

/-- `get::<TcpSocket>`, which panics on an empty slot and on another kind of socket. -/
def getTcp (S : SocketSet T) (h : SocketHandle) : Option T.Tcp :=
  match S.slots h.index with
  | some ⟨_, _, .inl t⟩ => some t
  | _ => none

/-- `get::<UdpSocket>`. -/
def getUdp (S : SocketSet T) (h : SocketHandle) : Option T.Udp :=
  match S.slots h.index with
  | some ⟨_, _, .inr u⟩ => some u
  | _ => none

/-- Changes the content of a slot. -/
def modify (S : SocketSet T) (index : ℕ) (f : Item T → Item T) : SocketSet T :=
  { S with slots := fun i ↦ if i = index then (S.slots i).map f else S.slots i }

/-- The socket of the handle after a change through the reference that `get` returns. -/
def setSocket (S : SocketSet T) (h : SocketHandle) (socket : T.Tcp ⊕ T.Udp) : SocketSet T :=
  S.modify h.index fun item ↦ { item with socket := socket }

/-- Increments the reference count; panics on an empty slot. -/
def retain (S : SocketSet T) (h : SocketHandle) : Option (SocketSet T) :=
  match S.slots h.index with
  | some _ => some (S.modify h.index fun item ↦ { item with refs := item.refs + 1 })
  | none => none

/-- Decrements the reference count; panics on an empty slot and at zero. -/
def release (S : SocketSet T) (h : SocketHandle) : Option (SocketSet T) :=
  match S.slots h.index with
  | some item =>
    if item.refs = 0 then none
    else some (S.modify h.index fun item ↦ { item with refs := item.refs - 1 })
  | none => none

/-- What `prune` does to a slot: an unreferenced socket is removed if it is a UDP socket or a closed
TCP socket, and closed otherwise. -/
def pruneItem (item : Item T) : Option (Item T) :=
  if item.refs = 0 then
    match item.socket with
    | .inr _ => none
    | .inl t => if T.state t = .closed then none else some { item with socket := .inl (T.close t) }
  else some item

/-- Removes the sockets that are no longer referenced. -/
def prune (S : SocketSet T) : SocketSet T :=
  { S with slots := fun i ↦ (S.slots i).bind pruneItem }

/-- What the destructors do: `release` and then `prune`, for one handle after the other. -/
def releaseAll : List SocketHandle → SocketSet T → Option (SocketSet T)
  | [], S => some S
  | h :: hs, S =>
    match S.release h with
    | some S => releaseAll hs S.prune
    | none => none

/-- The effect of one event on one slot. -/
def processItem (e : T.Event) (item : Item T) : Item T :=
  { item with socket := match item.socket with
      | .inl t => .inl (T.process e t)
      | .inr u => .inr (T.processUdp e u) }

/-- The effect of one poll of the interface: the events, one after the other, each on its slot. -/
def process (S : SocketSet T) (events : List (ℕ × T.Event)) : SocketSet T :=
  events.foldl (fun S e ↦ S.modify e.1 (processItem e.2)) S

/-- The sockets as the interface sees them. -/
def sockets (S : SocketSet T) : List (T.Tcp ⊕ T.Udp) :=
  (List.range S.size).filterMap fun i ↦ (S.slots i).map Item.socket

end SocketSet

end UsnetSockets
