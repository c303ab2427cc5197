import UsnetSockets.Net.UdpState

/-!
# Which timeout a call waits with

A blocking call that cannot go on waits on the condition variable, for as long as the timeout for
its direction says. The loop that does so is written out seven times in the source, each time with
the name of the timeout in the middle. Here it is one loop, `waitLoop`, which is given what the call
looks at, what it returns when it gives up, and the timeout it reads.

What the loops must not do is best said with two runs: of two runs in which everything but the
timeout of the other direction is the same, neither ends in another way. Time is in nanoseconds. The
timeouts are shared with the clones of a socket and are read anew before each wait, so that each
wait has its own.
-/

namespace UsnetSockets

/-- The timeouts of a stream or of a UDP socket. -/
structure Timeouts where
  read : Option ℕ
  write : Option ℕ

/-- What happens at a wait: the timeouts that are stored when it begins, the time of the
notification if there is one, and what the call finds afterwards. -/
structure Wakeup (α : Type) where
  timeouts : Timeouts
  notifiedAt : Option ℕ
  found : α

/-- Whether `wait_until` times out. -/
def timedOut (deadline : ℕ) : Option ℕ → Bool
  | none => true
  | some t => deadline ≤ t

/-- How a call ends: it returns after a number of waits, or nothing more happens. -/
inductive WaitEnd (ρ : Type) where
  | returned (waits : ℕ) (r : ρ)
  | waiting
  deriving DecidableEq

section

variable {α ρ : Type}

/-- The loop: `look` says whether the call can return with what it finds. A blocking call waits
until it is notified or until `start` and the timeout are over. -/
def waitLoop (look : α → Option ρ) (notReady : ρ) (timeout : Timeouts → Option ℕ)
    (nonblocking : Bool) (start : ℕ) : α → List (Wakeup α) → ℕ → WaitEnd ρ
  | found, [], k =>
    match look found with
    | some r => .returned k r
    | none => if nonblocking then .returned k notReady else .waiting
  | found, w :: ws, k =>
    match look found with
    | some r => .returned k r
    | none =>
      if nonblocking then .returned k notReady
      else
        match timeout w.timeouts with
        | some dur =>
          if timedOut (start + dur) w.notifiedAt then .returned k notReady
          else waitLoop look notReady timeout nonblocking start w.found ws (k + 1)
        | none =>
          if w.notifiedAt.isNone then .waiting
          else waitLoop look notReady timeout nonblocking start w.found ws (k + 1)

/-- Two schedules are the same but for the timeouts that the loop does not read. -/
def SameBut (timeout : Timeouts → Option ℕ) (ws ws' : List (Wakeup α)) : Prop :=
  List.Forall₂ (fun w w' ↦ timeout w.timeouts = timeout w'.timeouts ∧
    w.notifiedAt = w'.notifiedAt ∧ w.found = w'.found) ws ws'

theorem waitLoop_congr {look : α → Option ρ} {notReady : ρ} {timeout : Timeouts → Option ℕ}
    {nonblocking : Bool} {start : ℕ} {ws ws' : List (Wakeup α)} (h : SameBut timeout ws ws')
    (found : α) (k : ℕ) :
    waitLoop look notReady timeout nonblocking start found ws k =
      waitLoop look notReady timeout nonblocking start found ws' k := by
  induction h generalizing found k with
  | nil => rfl
  | cons hw _ ih =>
    obtain ⟨htimeout, hnotified, hfound⟩ := hw
    rw [waitLoop, waitLoop, htimeout, hnotified, hfound]
    simp only [ih]

end

/-! ## The operations of a stream -/

/-- An error of smoltcp. -/
inductive StackError where
  | illegal
  | exhausted
  | other (text : String)

/-- What the calls on a TCP socket of smoltcp return. The errors that are turned into errors of the
standard library are given by their texts. -/
structure TcpResults (T : Smoltcp) where
  recvSlice : T.Tcp → ℕ → Except String (List UInt8)
  peekSlice : T.Tcp → ℕ → Except String (List UInt8)
  sendSlice : T.Tcp → List UInt8 → Except String ℕ
  recv : {R : Type} → T.Tcp → (List UInt8 → ℕ × R) → Except StackError R
  send : {R : Type} → T.Tcp → (ℕ → List UInt8 × R) → Except StackError R

/-- `map_err(|e| io::Error::new(io::ErrorKind::Other, e.to_string()))`. -/
def mapErr {α : Type} : Except String α → Except IoError α
  | .ok a => .ok a
  | .error text => .error (.other text)

namespace StcpStream

variable {T : Smoltcp} (io : TcpResults T) (nonblocking : Bool) (start : ℕ)

/-- What `read` and `peek` wait for: data, or that no more of it can come. -/
def readLook {ρ : Type} (ended : ρ) (take : T.Tcp → ρ) (t : T.Tcp) : Option ρ :=
  if !T.mayRecv t then some ended else if !T.canRecv t then none else some (take t)

/-- What `write` waits for: room, or that no more can be sent. -/
def writeLook {ρ : Type} (ended : ρ) (give : T.Tcp → ρ) (t : T.Tcp) : Option ρ :=
  if !T.maySend t then some ended else if !T.canSend t then none else some (give t)

def peek (len : ℕ) (t : T.Tcp) (ws : List (Wakeup T.Tcp)) :
    WaitEnd (Except IoError (List UInt8)) :=
  waitLoop (readLook (.ok []) fun t ↦ mapErr (io.peekSlice t len))
    (.error (.wouldBlock "peek not ready")) Timeouts.read nonblocking start t ws 0

def read (len : ℕ) (t : T.Tcp) (ws : List (Wakeup T.Tcp)) :
    WaitEnd (Except IoError (List UInt8)) :=
  waitLoop (readLook (.ok []) fun t ↦ mapErr (io.recvSlice t len))
    (.error (.wouldBlock "read not ready")) Timeouts.read nonblocking start t ws 0

def write (buf : List UInt8) (t : T.Tcp) (ws : List (Wakeup T.Tcp)) : WaitEnd (Except IoError ℕ) :=
  waitLoop (writeLook (.error (.other "not connected (anymore)")) fun t ↦
      mapErr (io.sendSlice t buf))
    (.error (.wouldBlock "write not ready")) Timeouts.write nonblocking start t ws 0

/-- The closure is called with no data when no more can come. -/
def readNoCopy {R : Type} (f : List UInt8 → ℕ × R) (t : T.Tcp) (ws : List (Wakeup T.Tcp)) :
    WaitEnd (Except StackError R) :=
  waitLoop (readLook (.ok (f []).2) fun t ↦ io.recv t f) (.error .exhausted) Timeouts.read
    nonblocking start t ws 0

def writeNoCopy {R : Type} (f : ℕ → List UInt8 × R) (t : T.Tcp) (ws : List (Wakeup T.Tcp)) :
    WaitEnd (Except StackError R) :=
  waitLoop (writeLook (.error .illegal) fun t ↦ io.send t f) (.error .exhausted) Timeouts.write
    nonblocking start t ws 0

end StcpStream

/-! A turn that waits is a step of the system that leaves the sockets alone. -/

theorem State.readWith_of_readLook {T : Smoltcp} {s : State T} {i : ℕ} {h : SocketHandle}
    {t : T.Tcp} {ρ : Type} {ended : ρ} {take : T.Tcp → ρ} (hi : s.objects[i]? = some (.stream h))
    (ht : s.net.sockets.getTcp h = some t) (hlook : StcpStream.readLook ended take t = none)
    (recv : T.Tcp → T.Tcp) : s.readWith i recv = some s.same := by
  have hcan : T.canRecv t = false := by
    by_contra hno
    by_cases hmay : T.mayRecv t
    · simp [StcpStream.readLook, hno, hmay] at hlook
    · simp [StcpStream.readLook, hmay] at hlook
  simp [readWith, hi, ht, hcan]

theorem State.writeWith_of_writeLook {T : Smoltcp} {s : State T} {i : ℕ} {h : SocketHandle}
    {t : T.Tcp} {ρ : Type} {ended : ρ} {give : T.Tcp → ρ} (hi : s.objects[i]? = some (.stream h))
    (ht : s.net.sockets.getTcp h = some t) (hlook : StcpStream.writeLook ended give t = none)
    (send : T.Tcp → T.Tcp) : s.writeWith i send = some s.same := by
  have hcan : T.canSend t = false := by
    by_contra hno
    by_cases hmay : T.maySend t
    · simp [StcpStream.writeLook, hno, hmay] at hlook
    · simp [StcpStream.writeLook, hmay] at hlook
  simp [writeWith, hi, ht, hcan]

/-! ## The operations of a UDP socket -/

namespace UdpState

variable {T : Smoltcp} (u : UdpState) (start : ℕ)

/-- What the waits of a receive bring: the datagrams that arrive, and what `lo` then answers. -/
abbrev UdpArrivals := List Datagram × Except IoError (List UInt8 × SocketAddr)

/-- The waits of a receive. One without a timeout and without a notification has no end. -/
def udpWaits : List (Wakeup UdpArrivals) → List UdpWait
  | [] => []
  | w :: ws =>
    match w.timeouts.read with
    | some dur => ⟨w.found.1, timedOut (start + dur) w.notifiedAt, w.found.2⟩ :: udpWaits ws
    | none => if w.notifiedAt.isNone then [] else ⟨w.found.1, false, w.found.2⟩ :: udpWaits ws

/-- The receiver, of which each wait knows whether it times out. -/
def waiter : UdpReceiver := { u.receiver with hasTimeout := true }

/-- The call of `recv_from` or `peek_from`, with the queue and the answer of `lo` at its beginning.
The last argument bounds the number of turns. -/
def peekOrRecvFrom (recv : Bool) (len : ℕ) (queue : List Datagram)
    (lo : Except IoError (List UInt8 × SocketAddr)) (ws : List (Wakeup UdpArrivals)) (n : ℕ) :
    Outcome IoError UdpEnd :=
  u.waiter.peekOrRecvFrom len recv ⟨queue, lo, udpWaits start ws⟩ n

/-- `UdpSocket::recv` and `UdpSocket::peek`. -/
def peekOrRecv (recv : Bool) (len : ℕ) (queue : List Datagram)
    (lo : Except IoError (List UInt8 × SocketAddr)) (ws : List (Wakeup UdpArrivals)) (n : ℕ) :
    Outcome IoError UdpEnd :=
  if recv then u.waiter.recv len ⟨queue, lo, udpWaits start ws⟩ n
  else u.waiter.peek len ⟨queue, lo, udpWaits start ws⟩ n

/-- What the kernel answers on the way of `send_to` through it. -/
structure LoSend where
  setMode : Except IoError Unit
  sent : Except IoError ℕ
  resetMode : Except IoError Unit

/-- What `send_to` waits for. -/
def sendLook (sendSlice : T.Udp → List UInt8 → SocketAddr → Except String Unit) (buf : List UInt8)
    (addr : SocketAddr) (t : T.Udp) : Option (Except IoError ℕ) :=
  if T.canSendUdp t then some (mapErr ((sendSlice t buf addr).map fun _ ↦ buf.length)) else none

/-- `UdpSocket::send_to`. The loop waits with the timeout for reading. -/
def sendTo (sendSlice : T.Udp → List UInt8 → SocketAddr → Except String Unit) (buf : List UInt8)
    (addrs : Except IoError (List SocketAddr)) (lo : LoSend) (t : T.Udp)
    (ws : List (Wakeup T.Udp)) : WaitEnd (Except IoError ℕ) :=
  match firstAddr addrs with
  | .error e => .returned 0 (.error e)
  | .ok addr =>
    match u.sendToRoute addr with
    | .kernel =>
      .returned 0 (u.toUdpMode.sendTo addrs lo.setMode lo.sent lo.resetMode).1
    | .stack =>
      waitLoop (sendLook sendSlice buf addr) (.error (.wouldBlock "send not ready")) Timeouts.read
        u.nonblocking start t ws 0

/-- `UdpSocket::send`. -/
def send (sendSlice : T.Udp → List UInt8 → SocketAddr → Except String Unit) (buf : List UInt8)
    (lo : LoSend) (t : T.Udp) (ws : List (Wakeup T.Udp)) : WaitEnd (Except IoError ℕ) :=
  match u.connected with
  | some addr => u.sendTo start sendSlice buf (.ok [addr]) lo t ws
  | none => .returned 0 (.error (.invalidInput "not connected"))

/-! ## Two runs -/

theorem udpWaits_congr {start : ℕ} {ws ws' : List (Wakeup UdpArrivals)}
    (h : SameBut Timeouts.read ws ws') : udpWaits start ws = udpWaits start ws' := by
  induction h with
  | nil => rfl
  | cons hw _ ih =>
    obtain ⟨htimeout, hnotified, hfound⟩ := hw
    rw [udpWaits, udpWaits, htimeout, hnotified, hfound, ih]

/-- The call has to wait before it can hand its datagram to the stack. -/
def WaitsToSend (u : UdpState) (addrs : Except IoError (List SocketAddr)) (t : T.Udp) : Prop :=
  ∃ addr, firstAddr addrs = .ok addr ∧ u.sendToRoute addr = .stack ∧ u.nonblocking = false ∧
    T.canSendUdp t = false

variable {u start} {sendSlice : T.Udp → List UInt8 → SocketAddr → Except String Unit}
  {buf : List UInt8} {addrs : Except IoError (List SocketAddr)} {lo : LoSend} {t : T.Udp}

theorem sendTo_of_not_waitsToSend (h : ¬u.WaitsToSend addrs t) (ws ws' : List (Wakeup T.Udp)) :
    u.sendTo start sendSlice buf addrs lo t ws = u.sendTo start sendSlice buf addrs lo t ws' := by
  rw [sendTo, sendTo]
  rcases haddr : firstAddr addrs with e | addr
  · rfl
  · dsimp only
    rcases hroute : u.sendToRoute addr with _ | _
    · rfl
    · dsimp only
      rcases hnb : u.nonblocking with _ | _
      · have hcan : T.canSendUdp t = true := by
          by_contra hno
          exact h ⟨addr, haddr, hroute, hnb, by simpa using hno⟩
        rcases ws with _ | ⟨w, ws⟩ <;> rcases ws' with _ | ⟨w', ws'⟩ <;>
          simp [waitLoop, sendLook, hcan]
      · rcases ws with _ | ⟨w, ws⟩ <;> rcases ws' with _ | ⟨w', ws'⟩ <;>
          simp [waitLoop]

/-- A call that has to wait gives up at once with a timeout of zero for reading, and never without
one. -/
theorem sendTo_of_waitsToSend (h : u.WaitsToSend addrs t) :
    u.sendTo start sendSlice buf addrs lo t [⟨⟨some 0, none⟩, none, t⟩] ≠
      u.sendTo start sendSlice buf addrs lo t [⟨⟨none, none⟩, none, t⟩] := by
  obtain ⟨addr, haddr, hroute, hnb, hcan⟩ := h
  simp [sendTo, haddr, hroute, hnb, waitLoop, sendLook, hcan, timedOut]

theorem sendTo_independent_iff :
    (∀ ws ws', SameBut Timeouts.write ws ws' →
      u.sendTo start sendSlice buf addrs lo t ws = u.sendTo start sendSlice buf addrs lo t ws') ↔
    ¬u.WaitsToSend addrs t := by
  constructor
  · intro h hwaits
    refine sendTo_of_waitsToSend hwaits (h _ _ (.cons ⟨rfl, rfl, rfl⟩ .nil))
  · intro h ws ws' _
    exact sendTo_of_not_waitsToSend h ws ws'

end UdpState

/-- **Which calls heed which timeout.** Two runs that differ only in the timeout for writing end the
same for the calls that receive, and two that differ only in the timeout for reading end the same
for `write` and `write_no_copy`. For `send_to` and `send` of a UDP socket they do if and only if the
call does not have to wait. -/
theorem timeouts_separate_iff {T : Smoltcp} (io : TcpResults T)
    (sendSlice : T.Udp → List UInt8 → SocketAddr → Except String Unit) (nonblocking : Bool)
    (start : ℕ) (u : UdpState) :
    (∀ len t ws ws', SameBut Timeouts.read ws ws' →
      StcpStream.peek io nonblocking start len t ws =
        StcpStream.peek io nonblocking start len t ws' ∧
      StcpStream.read io nonblocking start len t ws =
        StcpStream.read io nonblocking start len t ws') ∧
    (∀ (R : Type) (f : List UInt8 → ℕ × R) t ws ws', SameBut Timeouts.read ws ws' →
      StcpStream.readNoCopy io nonblocking start f t ws =
        StcpStream.readNoCopy io nonblocking start f t ws') ∧
    (∀ buf t ws ws', SameBut Timeouts.write ws ws' →
      StcpStream.write io nonblocking start buf t ws =
        StcpStream.write io nonblocking start buf t ws') ∧
    (∀ (R : Type) (f : ℕ → List UInt8 × R) t ws ws', SameBut Timeouts.write ws ws' →
      StcpStream.writeNoCopy io nonblocking start f t ws =
        StcpStream.writeNoCopy io nonblocking start f t ws') ∧
    (∀ recv len queue lo ws ws', SameBut Timeouts.read ws ws' →
      u.peekOrRecvFrom start recv len queue lo ws = u.peekOrRecvFrom start recv len queue lo ws' ∧
      u.peekOrRecv start recv len queue lo ws = u.peekOrRecv start recv len queue lo ws') ∧
    (∀ buf addrs lo t, (∀ ws ws', SameBut Timeouts.write ws ws' →
      u.sendTo start sendSlice buf addrs lo t ws = u.sendTo start sendSlice buf addrs lo t ws') ↔
        ¬u.WaitsToSend addrs t) ∧
    ∀ buf lo t, (∀ ws ws', SameBut Timeouts.write ws ws' →
      u.send start sendSlice buf lo t ws = u.send start sendSlice buf lo t ws') ↔
        ∀ addr, u.connected = some addr → ¬u.WaitsToSend (.ok [addr]) t := by
  refine ⟨?_, ?_, ?_, ?_, ?_, ?_, ?_⟩
  · intro len t ws ws' h
    exact ⟨waitLoop_congr h t 0, waitLoop_congr h t 0⟩
  · intro R f t ws ws' h
    exact waitLoop_congr h t 0
  · intro buf t ws ws' h
    exact waitLoop_congr h t 0
  · intro R f t ws ws' h
    exact waitLoop_congr h t 0
  · intro recv len queue lo ws ws' h
    constructor
    · funext n
      rw [UdpState.peekOrRecvFrom, UdpState.peekOrRecvFrom, UdpState.udpWaits_congr h]
    · funext n
      rw [UdpState.peekOrRecv, UdpState.peekOrRecv, UdpState.udpWaits_congr h]
  · intro buf addrs lo t
    exact UdpState.sendTo_independent_iff
  · intro buf lo t
    rcases hconn : u.connected with _ | addr
    · simp [UdpState.send, hconn]
    · simp only [UdpState.send, hconn, Option.some.injEq, forall_eq']
      exact UdpState.sendTo_independent_iff

/-- A stack whose buffers for UDP are full. -/
def Smoltcp.fullUdp : Smoltcp := { Smoltcp.reference with canSendUdp := fun _ ↦ false }

/-- What the calls return on a stack that takes everything and has nothing to give. -/
def TcpResults.idle (T : Smoltcp) : TcpResults T where
  recvSlice _ _ := .ok []
  peekSlice _ _ := .ok []
  sendSlice _ buf := .ok buf.length
  recv _ f := .ok (f []).2
  send _ f := .ok (f 0).2

theorem timeouts_separate_reference :
    (UdpState.bound (some ⟨0, 0⟩)).sendTo (T := .reference) 0 (fun _ _ _ ↦ .ok ()) [1, 2, 3]
      (.ok [⟨.v4 10 0 0 9, 53⟩]) ⟨.ok (), .ok 3, .ok ()⟩ () [⟨⟨some 1000, some 5000⟩, none, ()⟩] =
    (UdpState.bound (some ⟨0, 0⟩)).sendTo (T := .reference) 0 (fun _ _ _ ↦ .ok ()) [1, 2, 3]
      (.ok [⟨.v4 10 0 0 9, 53⟩]) ⟨.ok (), .ok 3, .ok ()⟩ () [⟨⟨none, some 5000⟩, none, ()⟩] := by
  obtain ⟨-, -, -, -, -, hsendTo, -⟩ := timeouts_separate_iff (.idle .reference)
    (fun _ _ _ ↦ .ok ()) false 0 (UdpState.bound (some ⟨0, 0⟩))
  refine (hsendTo _ _ _ _).mpr ?_ _ _ (.cons ⟨rfl, rfl, rfl⟩ .nil)
  rintro ⟨addr, -, -, -, hcan⟩
  exact absurd hcan (by decide)

/-- When there is none, `send_to` gives up after the timeout for reading. The timeout for writing
is the same in both runs. -/
theorem not_timeouts_separate :
    SameBut Timeouts.write
      [(⟨⟨some 1000, some 5000⟩, none, ()⟩ : Wakeup Unit)] [⟨⟨none, some 5000⟩, none, ()⟩] ∧
    (UdpState.bound (some ⟨0, 0⟩)).sendTo (T := .fullUdp) 0 (fun _ _ _ ↦ .ok ()) [1, 2, 3]
      (.ok [⟨.v4 10 0 0 9, 53⟩]) ⟨.ok (), .ok 3, .ok ()⟩ () [⟨⟨some 1000, some 5000⟩, none, ()⟩] =
      .returned 0 (.error (.wouldBlock "send not ready")) ∧
    (UdpState.bound (some ⟨0, 0⟩)).sendTo (T := .fullUdp) 0 (fun _ _ _ ↦ .ok ()) [1, 2, 3]
      (.ok [⟨.v4 10 0 0 9, 53⟩]) ⟨.ok (), .ok 3, .ok ()⟩ () [⟨⟨none, some 5000⟩, none, ()⟩] =
      .waiting :=
  ⟨.cons ⟨rfl, rfl, rfl⟩ .nil, rfl, rfl⟩

end UsnetSockets
