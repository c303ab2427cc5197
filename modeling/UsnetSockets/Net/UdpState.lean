import UsnetSockets.Net.Changes
import UsnetSockets.Net.UdpMode
import UsnetSockets.Net.UdpReceive

/-!
# The state of a UDP socket

A `UdpSocket` keeps several things twice, once in its own fields and once in the kernel's socket
`lo`: the address it is connected to, the mode, the timeouts. `UdpMode` has what decides the mode;
`UdpState` adds the peer of `lo` and the timeouts. Three questions are asked here. Do the two
copies of the peer agree after `connect`? Do the calls that have a destination take the same stack
to it? And does a call that fails leave both copies as they were?

Durations are in nanoseconds.
-/

namespace UsnetSockets

/-- A `UdpSocket` and its socket of the kernel. -/
structure UdpState extends UdpMode where
  readTimeout : Option ℕ
  writeTimeout : Option ℕ
  /-- The address that `lo` is connected to. -/
  loPeer : Option SocketAddr
  loReadTimeout : Option ℕ
  loWriteTimeout : Option ℕ

/-- The two ways out. -/
inductive Route where
  | kernel
  | stack
  deriving DecidableEq

namespace UdpState

variable (cfg : Config) (u : UdpState)

/-- `UdpSocket::connect`. -/
def connect (addrs : Except IoError (List SocketAddr)) (setMode connected : Except IoError Unit) :
    Except IoError Unit × UdpState :=
  match firstAddr addrs with
  | .error e => (.error e, u)
  | .ok addr =>
    match if u.nonblocking then (.ok (), u.toUdpMode) else u.setLo addr.ip.isLoopback setMode with
    | (.error e, mode) => (.error e, { u with toUdpMode := mode })
    | (.ok _, mode) =>
      if addr.ip.isLoopback || addr.ip = cfg.ip then
        let u := { u with toUdpMode := { mode with connected := some ⟨.v4 127 0 0 1, addr.port⟩ } }
        -- the kernel is given the address as it is
        match connected with
        | .error e => (.error e, u)
        | .ok _ => (.ok (), { u with loPeer := some addr })
      else (.ok (), { u with toUdpMode := { mode with connected := some addr } })

/-- `UdpSocket::set_nonblocking`. -/
def setNonblocking (nonblocking : Bool) (setMode : Except IoError Unit) :
    Except IoError Unit × UdpState :=
  let (res, mode) := u.toUdpMode.setNonblocking nonblocking setMode
  (res, { u with toUdpMode := mode })

/-- `set_read_timeout` and `set_write_timeout` of the kernel's socket, which refuse a duration of
zero before they ask the kernel. -/
def setLoTimeout (dur : Option ℕ) (answer : Except IoError Unit) : Except IoError Unit :=
  if dur = some 0 then .error (.invalidInput "cannot set a 0 duration timeout") else answer

/-- `UdpSocket::set_read_timeout`. -/
def setReadTimeout (dur : Option ℕ) (answer : Except IoError Unit) :
    Except IoError Unit × UdpState :=
  let u := { u with readTimeout := dur }
  match setLoTimeout u.readTimeout answer with
  | .error e => (.error e, u)
  | .ok _ => (.ok (), { u with loReadTimeout := u.readTimeout })

/-- `UdpSocket::set_write_timeout`. -/
def setWriteTimeout (dur : Option ℕ) (answer : Except IoError Unit) :
    Except IoError Unit × UdpState :=
  let u := { u with writeTimeout := dur }
  match setLoTimeout u.writeTimeout answer with
  | .error e => (.error e, u)
  | .ok _ => (.ok (), { u with loWriteTimeout := u.writeTimeout })

/-- `UdpSocket::try_clone`. The clone has the same fields, and a descriptor of its own. `none` is a
panic of the `SocketSet`. -/
def tryClone {T : Smoltcp} (dup : Except IoError Fd) (S : SocketSet T) :
    Option (Except IoError (UdpState × Fd) × SocketSet T) :=
  match State.retainSome S u.socketHandle with
  | none => none
  | some S =>
    match dup with
    | .error e => some (.error e, S)
    | .ok lo => some (.ok (u, lo), S)

/-- The fields that a receive reads. -/
def receiver : UdpReceiver where
  socketHandle := u.socketHandle
  connected := u.connected.map PeerAddr.new
  nonblocking := u.nonblocking
  hasTimeout := u.readTimeout.isSome

/-- The stack that `send_to` takes. -/
def sendToRoute (addr : SocketAddr) : Route :=
  if u.socketHandle.isNone || addr.ip.isLoopback then .kernel else .stack

/-- Where `send` transmits to. -/
def sendDestination : Option (Route × SocketAddr) :=
  match u.connected with
  | some addr => some (u.sendToRoute addr, addr)
  | none => none

/-- Whether a datagram of the sender may be what `recv` returns. The kernel gives a connected socket
what its peer has sent. -/
def RecvAccepts (sender : SocketAddr) : Prop :=
  if u.receiver.straightToLo then ∀ peer, u.loPeer = some peer → sender = peer
  else u.receiver.Accepts ⟨sender, []⟩

variable {cfg u}

/-- On the part that decides the mode, the calls are those of `UdpMode`. -/
theorem toUdpMode_connect (addrs : Except IoError (List SocketAddr))
    (setMode connected : Except IoError Unit) :
    ((u.connect cfg addrs setMode connected).1,
        (u.connect cfg addrs setMode connected).2.toUdpMode) =
      u.toUdpMode.connect cfg addrs setMode connected := by
  rw [connect, UdpMode.connect]
  cases firstAddr addrs with
  | error e => rfl
  | ok addr =>
    dsimp only
    generalize (if u.nonblocking then (.ok (), u.toUdpMode)
      else u.setLo addr.ip.isLoopback setMode) = p
    obtain ⟨res | res, mode⟩ := p
    · rfl
    · dsimp only
      split
      · cases connected <;> rfl
      · rfl

theorem connect_eq_ok {addrs : Except IoError (List SocketAddr)} {addr : SocketAddr}
    {setMode connected : Except IoError Unit} {u' : UdpState} (haddr : firstAddr addrs = .ok addr)
    (h : u.connect cfg addrs setMode connected = (.ok (), u')) :
    u'.socketHandle = u.socketHandle ∧
      if addr.ip.isLoopback || addr.ip = cfg.ip then
        u'.connected = some ⟨.v4 127 0 0 1, addr.port⟩ ∧ u'.loPeer = some addr
      else u'.connected = some addr := by
  rw [connect, haddr] at h
  have hmode : ∀ res mode, (if u.nonblocking then (.ok (), u.toUdpMode)
      else u.setLo addr.ip.isLoopback setMode) = (res, mode) →
      mode.socketHandle = u.socketHandle := by
    intro res mode hmode
    split at hmode
    · rw [← (Prod.mk.inj hmode).2]
    · cases setMode with
      | ok _ => rw [← (Prod.mk.inj hmode).2]
      | error e => rw [← (Prod.mk.inj hmode).2]
  dsimp only at h
  split at h
  · exact absurd (congrArg Prod.fst h) (by simp)
  · next mode heq =>
    split at h
    · next hlocal =>
      split at h
      · exact absurd (congrArg Prod.fst h) (by simp)
      · rw [← (Prod.mk.inj h).2]
        exact ⟨hmode _ mode heq, by simp [hlocal]⟩
    · next hremote =>
      rw [← (Prod.mk.inj h).2]
      exact ⟨hmode _ mode heq, by simp [hremote]⟩

/-! ## The peer -/

/-- The socket is connected to the address: this is where `send` transmits to, and nobody else's
datagrams are what `recv` returns. -/
def ConnectedTo (u : UdpState) (addr : SocketAddr) : Prop :=
  (∃ route, u.sendDestination = some (route, addr)) ∧ ∀ sender, u.RecvAccepts sender ↔ sender = addr

theorem sendDestination_eq {peer : SocketAddr} (h : u.connected = some peer) :
    u.sendDestination = some (u.sendToRoute peer, peer) := by
  rw [sendDestination, h]

theorem recvAccepts_of_isLoopback {peer loPeer : SocketAddr} (h : u.connected = some peer)
    (hlo : peer.ip.isLoopback = true) (hpeer : u.loPeer = some loPeer) (sender : SocketAddr) :
    u.RecvAccepts sender ↔ sender = loPeer := by
  have hstraight : u.receiver.straightToLo = true := by
    simp [UdpReceiver.straightToLo, receiver, h, PeerAddr.new, hlo]
  simp [RecvAccepts, hstraight, hpeer]

theorem recvAccepts_of_not_isLoopback {peer : SocketAddr} (h : u.connected = some peer)
    (hlo : peer.ip.isLoopback = false) (hsome : u.socketHandle.isSome)
    (hip : peer.ip.isUnspecified = false) (hport : peer.port ≠ 0) (sender : SocketAddr) :
    u.RecvAccepts sender ↔ sender = peer := by
  have hstraight : u.receiver.straightToLo = false := by
    have hnone : u.socketHandle.isNone = false := by simpa using hsome
    simp [UdpReceiver.straightToLo, receiver, h, PeerAddr.new, hlo, hnone]
  have haccepts : u.receiver.Accepts ⟨sender, []⟩ ↔
      peer.ip = sender.ip ∧ peer.port = sender.port := by
    simp [UdpReceiver.Accepts, receiver, h, PeerAddr.Matches, PeerAddr.Plain, PeerAddr.new, hip,
      hport]
  simp only [RecvAccepts, hstraight, Bool.false_eq_true, if_false, haccepts]
  constructor
  · rintro ⟨hip', hport'⟩
    obtain ⟨ip, port⟩ := sender
    obtain ⟨ip', port'⟩ := peer
    simp_all
  · rintro rfl
    exact ⟨rfl, rfl⟩

/-- **The two copies of the peer.** After `connect` has succeeded on a socket with one in user
space, `send` transmits to the address of the call and `recv` accepts datagrams of that address
alone, if and only if the address is `127.0.0.1` or belongs to another host. All other local
addresses are rewritten in one copy only. -/
theorem connectedTo_iff (cfg : Config) {u u' : UdpState} (hsome : u.socketHandle.isSome)
    {addrs : Except IoError (List SocketAddr)} {addr : SocketAddr}
    (haddr : firstAddr addrs = .ok addr) (hip : addr.ip.isUnspecified = false)
    (hport : addr.port ≠ 0) {setMode connected : Except IoError Unit}
    (h : u.connect cfg addrs setMode connected = (.ok (), u')) :
    u'.ConnectedTo addr ↔
      addr.ip = .v4 127 0 0 1 ∨ addr.ip.isLoopback = false ∧ addr.ip ≠ cfg.ip := by
  obtain ⟨hhandle, hcases⟩ := connect_eq_ok haddr h
  by_cases hlocal : (addr.ip.isLoopback || addr.ip = cfg.ip) = true
  · rw [if_pos hlocal] at hcases
    obtain ⟨hconn, hpeer⟩ := hcases
    have hno : ¬(addr.ip.isLoopback = false ∧ addr.ip ≠ cfg.ip) := by
      rintro ⟨hlo, hne⟩
      simp [hlo, hne] at hlocal
    constructor
    · rintro ⟨⟨route, hdest⟩, -⟩
      rw [sendDestination_eq hconn] at hdest
      have hrewritten := (Prod.mk.inj (Option.some.inj hdest)).2
      exact .inl (congrArg SocketAddr.ip hrewritten).symm
    · rintro (heq | hremote)
      · refine ⟨⟨u'.sendToRoute addr, ?_⟩, ?_⟩
        · obtain ⟨ip, port⟩ := addr
          obtain rfl : ip = .v4 127 0 0 1 := heq
          exact sendDestination_eq hconn
        · exact recvAccepts_of_isLoopback hconn rfl hpeer
      · exact absurd hremote hno
  · rw [if_neg hlocal] at hcases
    simp only [Bool.or_eq_true, decide_eq_true_eq, not_or, Bool.not_eq_true] at hlocal
    refine iff_of_true ⟨⟨_, sendDestination_eq hcases⟩, ?_⟩ (.inr hlocal)
    exact recvAccepts_of_not_isLoopback hcases hlocal.1 (hhandle ▸ hsome) hip hport

/-- A UDP socket as it comes from `bind`. -/
def bound (socketHandle : Option SocketHandle) : UdpState :=
  ⟨.bound socketHandle, none, none, none, none, none⟩

theorem connectedTo_remote : ∃ u, (bound (some ⟨0, 0⟩)).connect .reference
    (.ok [⟨.v4 10 0 0 9, 53⟩]) (.ok ()) (.ok ()) = (.ok (), u) ∧
    u.ConnectedTo ⟨.v4 10 0 0 9, 53⟩ := by
  obtain ⟨u, hu⟩ : ∃ u, (bound (some ⟨0, 0⟩)).connect .reference (.ok [⟨.v4 10 0 0 9, 53⟩])
    (.ok ()) (.ok ()) = (.ok (), u) := ⟨_, rfl⟩
  exact ⟨u, hu, (connectedTo_iff .reference rfl rfl rfl (by decide) hu).mpr (.inr ⟨rfl, by decide⟩)⟩

/-- Connected to the own address, `send` transmits to `127.0.0.1`, and the kernel accepts what the
own address has sent. So it is with the other addresses of `127.0.0.0/8`. -/
theorem not_connectedTo_local :
    (∃ u, (bound (some ⟨0, 0⟩)).connect .reference (.ok [⟨.v4 10 0 0 2, 53⟩]) (.ok ()) (.ok ()) =
      (.ok (), u) ∧ u.sendDestination = some (.kernel, ⟨.v4 127 0 0 1, 53⟩) ∧
      ¬u.ConnectedTo ⟨.v4 10 0 0 2, 53⟩) ∧
    ∃ u, (bound (some ⟨0, 0⟩)).connect .reference (.ok [⟨.v4 127 0 0 9, 53⟩]) (.ok ()) (.ok ()) =
      (.ok (), u) ∧ u.sendDestination = some (.kernel, ⟨.v4 127 0 0 1, 53⟩) ∧
      ¬u.ConnectedTo ⟨.v4 127 0 0 9, 53⟩ := by
  refine ⟨⟨_, rfl, rfl, ?_⟩, _, rfl, rfl, ?_⟩
  · rintro ⟨⟨route, hdest⟩, -⟩
    have hrewritten : (⟨.v4 127 0 0 1, 53⟩ : SocketAddr) = ⟨.v4 10 0 0 2, 53⟩ :=
      (Prod.mk.inj (Option.some.inj hdest)).2
    exact absurd hrewritten (by decide)
  · rintro ⟨⟨route, hdest⟩, -⟩
    have hrewritten : (⟨.v4 127 0 0 1, 53⟩ : SocketAddr) = ⟨.v4 127 0 0 9, 53⟩ :=
      (Prod.mk.inj (Option.some.inj hdest)).2
    exact absurd hrewritten (by decide)

/-! ## The way out -/

/-- The stack that `TcpStream::connect` takes. -/
def tcpRoute (cfg : Config) (addr : SocketAddr) : Route :=
  if State.viaSystem cfg addr then .kernel else .stack

/-- `TcpStream::connect`, `UdpSocket::connect` followed by `send`, and `UdpSocket::send_to` take the
same stack to the address. -/
def RoutedAlike (cfg : Config) (u : UdpState) (addr : SocketAddr) : Prop :=
  u.sendToRoute addr = tcpRoute cfg addr ∧
    ∀ setMode connected u', u.connect cfg (.ok [addr]) setMode connected = (.ok (), u') →
      u'.sendDestination.map Prod.fst = some (tcpRoute cfg addr)

theorem sendDestination_of_connect {addr : SocketAddr} {setMode connected : Except IoError Unit}
    {u' : UdpState} (hsome : u.socketHandle.isSome)
    (h : u.connect cfg (.ok [addr]) setMode connected = (.ok (), u')) :
    u'.sendDestination.map Prod.fst =
      some (if addr.ip.isLoopback || addr.ip = cfg.ip then .kernel else .stack) := by
  obtain ⟨hhandle, hcases⟩ := connect_eq_ok (show firstAddr (.ok [addr]) = .ok addr from rfl) h
  have hnone : u'.socketHandle.isNone = false := by simpa [hhandle] using hsome
  split at hcases
  · next hlocal =>
    rw [sendDestination_eq hcases.1, if_pos hlocal]
    simp [sendToRoute, IpAddr.isLoopback]
  · next hremote =>
    rw [sendDestination_eq hcases, if_neg hremote]
    have hlo : addr.ip.isLoopback = false := by
      simp only [Bool.or_eq_true, not_or, Bool.not_eq_true] at hremote
      exact hremote.1
    simp [sendToRoute, hnone, hlo]

theorem sendToRoute_eq_tcpRoute_iff (cfg : Config) {u : UdpState} (hsome : u.socketHandle.isSome)
    (addr : SocketAddr) : u.sendToRoute addr = tcpRoute cfg addr ↔
      addr.ip.isLoopback = true ∨ addr.ip ≠ cfg.ip ∧ addr.ip.isUnspecified = false := by
  have hnone : u.socketHandle.isNone = false := by simpa using hsome
  rw [sendToRoute, tcpRoute, State.viaSystem, hnone]
  rcases hlo : addr.ip.isLoopback with _ | _
  · by_cases hown : addr.ip = cfg.ip
    · simp [hown]
    · rcases hany : addr.ip.isUnspecified with _ | _
      · simp [hown]
      · simp [hown]
  · simp

/-- **The three ways to an address.** For a socket with one in user space they agree if and only if
the address is a loopback address, or neither the own address nor the unspecified one: `send_to`
takes the kernel to nothing but loopback addresses, and only `TcpStream::connect` takes it to the
unspecified address. -/
theorem routedAlike_iff (cfg : Config) {u : UdpState} (hsome : u.socketHandle.isSome)
    (addr : SocketAddr) : RoutedAlike cfg u addr ↔
      addr.ip.isLoopback = true ∨ addr.ip ≠ cfg.ip ∧ addr.ip.isUnspecified = false := by
  constructor
  · rintro ⟨hsendTo, -⟩
    exact (sendToRoute_eq_tcpRoute_iff cfg hsome addr).mp hsendTo
  · intro h
    refine ⟨(sendToRoute_eq_tcpRoute_iff cfg hsome addr).mpr h, ?_⟩
    intro setMode connected u' hu'
    rw [sendDestination_of_connect hsome hu']
    rcases h with hlo | ⟨hown, hany⟩
    · simp [tcpRoute, State.viaSystem, hlo]
    · simp [tcpRoute, State.viaSystem, hown, hany]

theorem routedAlike_remote : RoutedAlike .reference (bound (some ⟨0, 0⟩)) ⟨.v4 10 0 0 9, 53⟩ :=
  (routedAlike_iff .reference rfl _).mpr (.inr ⟨by decide, rfl⟩)

/-- The own address, which `send_to` looks for on the network, and the unspecified address. -/
theorem not_routedAlike_own :
    ¬RoutedAlike .reference (bound (some ⟨0, 0⟩)) ⟨.v4 10 0 0 2, 53⟩ ∧
    (bound (some ⟨0, 0⟩)).sendToRoute ⟨.v4 10 0 0 2, 53⟩ = .stack ∧
    ¬RoutedAlike .reference (bound (some ⟨0, 0⟩)) ⟨.v4 0 0 0 0, 53⟩ := by
  refine ⟨?_, rfl, ?_⟩
  · rintro ⟨hsendTo, -⟩
    exact absurd hsendTo (by decide)
  · rintro ⟨hsendTo, -⟩
    exact absurd hsendTo (by decide)

end UdpState

/-! The routes are the ones that the steps of the system take. -/

namespace State

variable {T : Smoltcp} {cfg : Config} {s : State T} {i : ℕ}

theorem sendTo_of_kernel {u : UdpSocket} {v : UdpState} (hi : s.objects[i]? = some (.udp u))
    (hv : v.socketHandle = u.socketHandle) {addr : SocketAddr} (h : v.sendToRoute addr = .kernel)
    (buf : List UInt8) : s.sendTo i buf addr = some s.same := by
  rw [sendTo, hi]
  rcases hhandle : u.socketHandle with _ | x
  · simp [hhandle]
  · have hlo : addr.ip.isLoopback = true := by
      by_contra hno
      simp [UdpState.sendToRoute, hv, hhandle, hno] at h
    simp [hhandle, hlo]

theorem sendTo_of_stack {u : UdpSocket} {v : UdpState} (hi : s.objects[i]? = some (.udp u))
    (hv : v.socketHandle = u.socketHandle) {addr : SocketAddr} (h : v.sendToRoute addr = .stack) :
    ∃ x, u.socketHandle = some x ∧ ∀ t, s.net.sockets.getUdp x = some t → T.canSendUdp t →
      ∀ buf, s.sendTo i buf addr = some { s.same with
        sockets := s.net.sockets.setSocket x (.inr (T.sendUdp t buf addr))
        wake := .handOver } := by
  rcases hhandle : u.socketHandle with _ | x
  · simp [UdpState.sendToRoute, hv, hhandle] at h
  · have hlo : addr.ip.isLoopback = false := by
      by_contra hno
      simp [UdpState.sendToRoute, hno] at h
    refine ⟨x, rfl, ?_⟩
    intro t ht hcan buf
    simp [sendTo, hi, hhandle, hlo, ht, hcan]

theorem connectNext_of_kernel {slot : ℕ} {draws : List PortDraw} {system : Except IoError Unit}
    {k : Connecting} {addr : SocketAddr} {addrs : List SocketAddr} {c : Change T}
    (hi : s.objects[i]? = some (.connecting k)) (hk : k.addrs = addr :: addrs)
    (hroute : UdpState.tcpRoute cfg addr = .kernel)
    (h : s.connectNext cfg i draws slot system = some c) : c.sockets = s.net.sockets := by
  have hvia : viaSystem cfg addr = true := by
    by_contra hno
    simp [UdpState.tcpRoute, hno] at hroute
  obtain ⟨k', hk', -, ⟨hnil, -⟩ | ⟨addr', addrs', hcons, hcases⟩⟩ := connectNext_cases h
  · obtain rfl : k = k' := by simpa [hi] using hk'
    exact absurd (hk.symm.trans hnil) (by simp)
  · obtain rfl : k = k' := by simpa [hi] using hk'
    obtain ⟨rfl, -⟩ := List.cons.inj (hk.symm.trans hcons)
    rcases hcases with ⟨-, -, rfl⟩ | ⟨-, e, -, rfl⟩ | ⟨hno, -⟩ | ⟨hno, -⟩ | ⟨hno, -⟩
    · rfl
    · rfl
    all_goals exact absurd (hvia.symm.trans hno) (by simp)

/-- On its way through the stack, what the kernel would say does not matter. -/
theorem connectNext_of_stack {slot : ℕ} {draws : List PortDraw}
    {system system' : Except IoError Unit} {k : Connecting} {addr : SocketAddr}
    {addrs : List SocketAddr} (hi : s.objects[i]? = some (.connecting k))
    (hk : k.addrs = addr :: addrs) (hroute : UdpState.tcpRoute cfg addr = .stack) :
    s.connectNext cfg i draws slot system = s.connectNext cfg i draws slot system' := by
  have hvia : (addr.ip.isLoopback || addr.ip = cfg.ip || addr.ip.isUnspecified) = false := by
    by_contra hno
    rw [Bool.not_eq_false] at hno
    rw [UdpState.tcpRoute, viaSystem, hno] at hroute
    exact absurd hroute (by decide)
  rw [connectNext, connectNext, hi]
  rcases hhandle : k.handle with _ | x
  · simp [hhandle, hk, hvia]
  · simp [hhandle]

end State

/-! ## A call that fails -/

/-- The calls that may fail, with what the kernel answers. -/
inductive UdpOp where
  | connect (addrs : Except IoError (List SocketAddr)) (setMode connected : Except IoError Unit)
  | tryClone (dup : Except IoError Fd)
  | setReadTimeout (dur : Option ℕ) (answer : Except IoError Unit)
  | setWriteTimeout (dur : Option ℕ) (answer : Except IoError Unit)
  | setNonblocking (nonblocking : Bool) (setMode : Except IoError Unit)

/-- What can be seen of a socket. -/
structure UdpView where
  connected : Option SocketAddr
  nonblocking : Bool
  readTimeout : Option ℕ
  writeTimeout : Option ℕ
  loNonblocking : Bool
  /-- The reference count of its handle. -/
  refs : Option ℕ

namespace UdpState

variable {T : Smoltcp} (cfg : Config) (u : UdpState) (S : SocketSet T)

/-- One call. `none` is a panic. -/
def exec : UdpOp → Option (Except IoError Unit × UdpState × SocketSet T)
  | .connect addrs setMode connected =>
    let (res, u) := u.connect cfg addrs setMode connected
    some (res, u, S)
  | .tryClone dup =>
    match u.tryClone dup S with
    | none => none
    | some (.error e, S) => some (.error e, u, S)
    | some (.ok _, S) => some (.ok (), u, S)
  | .setReadTimeout dur answer =>
    let (res, u) := u.setReadTimeout dur answer
    some (res, u, S)
  | .setWriteTimeout dur answer =>
    let (res, u) := u.setWriteTimeout dur answer
    some (res, u, S)
  | .setNonblocking nonblocking setMode =>
    let (res, u) := u.setNonblocking nonblocking setMode
    some (res, u, S)

def view : UdpView where
  connected := u.connected
  nonblocking := u.nonblocking
  readTimeout := u.readTimeout
  writeTimeout := u.writeTimeout
  loNonblocking := u.loNonblocking
  refs := u.socketHandle.bind fun h ↦ (S.slots h.index).map Item.refs

/-- If the call fails, then nothing has changed. -/
def FailsCleanly (op : UdpOp) : Prop :=
  ∀ e u' S', u.exec cfg S op = some (.error e, u', S') → u'.view S' = u.view S

/-- What each call must not meet. -/
def Spared : UdpOp → Prop
  -- the kernel does not fail to connect `lo`, or all that is set before is set already
  | .connect addrs setMode connected =>
    ∀ addr, firstAddr addrs = .ok addr → (u.nonblocking = true ∨ isErr setMode = false) →
      (addr.ip.isLoopback || addr.ip = cfg.ip) = true → isErr connected = true →
        u.connected = some ⟨.v4 127 0 0 1, addr.port⟩ ∧
          (u.nonblocking = false → u.loNonblocking = addr.ip.isLoopback)
  -- the descriptor can be duplicated, or there is no socket to count references of
  | .tryClone dup => isErr dup = true → u.socketHandle = none
  -- the kernel accepts the timeout, or it is the one that is stored
  | .setReadTimeout dur answer => isErr (setLoTimeout dur answer) = true → u.readTimeout = dur
  | .setWriteTimeout dur answer => isErr (setLoTimeout dur answer) = true → u.writeTimeout = dur
  | .setNonblocking _ _ => True

variable {cfg u S}

theorem failsCleanly_setReadTimeout_iff (dur : Option ℕ) (answer : Except IoError Unit) :
    u.FailsCleanly cfg S (.setReadTimeout dur answer) ↔
      u.Spared cfg (.setReadTimeout dur answer) := by
  rw [FailsCleanly, Spared]
  rcases hanswer : setLoTimeout dur answer with e | _
  · simp only [exec, setReadTimeout, hanswer, isErr]
    constructor
    · intro h _
      exact (congrArg UdpView.readTimeout (h e _ S rfl)).symm
    · rintro h e' u' S' heq
      obtain ⟨-, rfl, rfl⟩ : _ ∧ _ ∧ _ := by simpa using heq
      simp [view, h]
  · simp [exec, setReadTimeout, hanswer, isErr]

theorem failsCleanly_setWriteTimeout_iff (dur : Option ℕ) (answer : Except IoError Unit) :
    u.FailsCleanly cfg S (.setWriteTimeout dur answer) ↔
      u.Spared cfg (.setWriteTimeout dur answer) := by
  rw [FailsCleanly, Spared]
  rcases hanswer : setLoTimeout dur answer with e | _
  · simp only [exec, setWriteTimeout, hanswer, isErr]
    constructor
    · intro h _
      exact (congrArg UdpView.writeTimeout (h e _ S rfl)).symm
    · rintro h e' u' S' heq
      obtain ⟨-, rfl, rfl⟩ : _ ∧ _ ∧ _ := by simpa using heq
      simp [view, h]
  · simp [exec, setWriteTimeout, hanswer, isErr]

theorem failsCleanly_setNonblocking (nonblocking : Bool) (setMode : Except IoError Unit) :
    u.FailsCleanly cfg S (.setNonblocking nonblocking setMode) := by
  intro e u' S' heq
  rcases setMode with e' | _
  · obtain ⟨-, rfl, rfl⟩ : _ ∧ _ ∧ _ := by
      simpa [exec, setNonblocking, UdpMode.setNonblocking, UdpMode.setLo] using heq
    rfl
  · simp [exec, setNonblocking, UdpMode.setNonblocking, UdpMode.setLo] at heq

/-- A clone that cannot be made leaves its reference behind. -/
theorem failsCleanly_tryClone_iff (hlive : ∀ h, u.socketHandle = some h → S.slots h.index ≠ none)
    (dup : Except IoError Fd) :
    u.FailsCleanly cfg S (.tryClone dup) ↔ u.Spared cfg (.tryClone dup) := by
  rw [FailsCleanly, Spared]
  rcases hhandle : u.socketHandle with _ | x
  · rcases dup with e | lo
    · simp only [exec, tryClone, State.retainSome, hhandle, isErr, implies_true, iff_true]
      rintro e' u' S' heq
      obtain ⟨-, rfl, rfl⟩ : _ ∧ _ ∧ _ := by simpa using heq
      rfl
    · simp [exec, tryClone, State.retainSome, hhandle, isErr]
  · obtain ⟨item, hitem⟩ := Option.ne_none_iff_exists'.mp (hlive x hhandle)
    rcases dup with e | lo
    · simp only [exec, tryClone, State.retainSome, SocketSet.retain, hhandle, hitem, isErr,
        reduceCtorEq, imp_false, not_true_eq_false, iff_false, not_forall]
      refine ⟨e, u, _, rfl, ?_⟩
      intro heq
      have hrefs := congrArg UdpView.refs heq
      simp [view, hhandle, hitem, SocketSet.modify] at hrefs
    · simp [exec, tryClone, State.retainSome, SocketSet.retain, hhandle, hitem, isErr]

theorem connectMode_cases (u : UdpState) (addr : SocketAddr) (setMode : Except IoError Unit) :
    (∃ e, u.nonblocking = false ∧ isErr setMode = true ∧
      (if u.nonblocking then (.ok (), u.toUdpMode) else u.setLo addr.ip.isLoopback setMode) =
        (.error e, u.toUdpMode)) ∨
    (u.nonblocking = true ∨ isErr setMode = false) ∧
      (if u.nonblocking then (.ok (), u.toUdpMode) else u.setLo addr.ip.isLoopback setMode) =
        (.ok (), { u.toUdpMode with
          loNonblocking := if u.nonblocking then u.loNonblocking else addr.ip.isLoopback }) := by
  rcases hnb : u.nonblocking with _ | _
  · rcases setMode with e | _
    · exact .inl ⟨e, rfl, rfl, rfl⟩
    · exact .inr ⟨.inr rfl, rfl⟩
  · exact .inr ⟨.inl rfl, rfl⟩

theorem failsCleanly_connect_iff (addrs : Except IoError (List SocketAddr))
    (setMode connected : Except IoError Unit) :
    u.FailsCleanly cfg S (.connect addrs setMode connected) ↔
      u.Spared cfg (.connect addrs setMode connected) := by
  rw [FailsCleanly, Spared]
  rcases haddr : firstAddr addrs with e | addr
  · simp only [exec, connect, haddr, reduceCtorEq, false_implies, implies_true, iff_true]
    rintro e' u' S' heq
    obtain ⟨-, rfl, rfl⟩ : _ ∧ _ ∧ _ := by simpa using heq
    rfl
  · simp only [Except.ok.injEq, forall_eq']
    rcases connectMode_cases u addr setMode with ⟨e, hnb, hset, hmode⟩ | ⟨hset, hmode⟩
    · -- the kernel fails before anything is set
      simp only [exec, connect, haddr, hmode]
      refine iff_of_true ?_ (fun h ↦ absurd h (by simp [hnb, hset]))
      rintro e' u' S' heq
      obtain ⟨-, rfl, rfl⟩ : _ ∧ _ ∧ _ := by simpa using heq
      rfl
    · simp only [exec, connect, haddr, hmode, hset, forall_const]
      by_cases hlocal : (addr.ip.isLoopback || addr.ip = cfg.ip) = true
      · simp only [hlocal, if_true, forall_const]
        rcases connected with e | _
        · simp only [isErr, forall_const]
          constructor
          · intro h
            have hview := h e _ S rfl
            refine ⟨(congrArg UdpView.connected hview).symm, ?_⟩
            intro hnb
            have hlo := congrArg UdpView.loNonblocking hview
            simpa [view, hnb] using hlo.symm
          · rintro ⟨hconn, hlo⟩ e' u' S' heq
            obtain ⟨-, rfl, rfl⟩ : _ ∧ _ ∧ _ := by simpa using heq
            rcases hnb : u.nonblocking with _ | _
            · simp [view, hconn, hnb, hlo hnb]
            · simp [view, hconn, hnb]
        · simp [isErr]
      · simp [hlocal]

/-- **A call that fails.** It leaves the socket as it was if and only if it is spared the late
failures: that of the kernel's `connect` after the peer and the mode have been changed, that of
duplicating the descriptor after the reference has been counted, and that of setting a timeout in
the kernel after it has been stored. `set_nonblocking` fails before it stores anything. -/
theorem failsCleanly_iff (cfg : Config) {u : UdpState} {S : SocketSet T}
    (hlive : ∀ h, u.socketHandle = some h → S.slots h.index ≠ none) (op : UdpOp) :
    u.FailsCleanly cfg S op ↔ u.Spared cfg op := by
  cases op with
  | connect addrs setMode connected => exact failsCleanly_connect_iff addrs setMode connected
  | tryClone dup => exact failsCleanly_tryClone_iff hlive dup
  | setReadTimeout dur answer => exact failsCleanly_setReadTimeout_iff dur answer
  | setWriteTimeout dur answer => exact failsCleanly_setWriteTimeout_iff dur answer
  | setNonblocking nonblocking setMode =>
    exact iff_of_true (failsCleanly_setNonblocking nonblocking setMode) trivial

/-- A `SocketSet` with one UDP socket. -/
def oneSocket : SocketSet .reference := ⟨fun i ↦ if i = 0 then some ⟨0, 1, .inr ()⟩ else none, 1, 1⟩

theorem failsCleanly_of_mode_error :
    (bound (some ⟨0, 0⟩)).FailsCleanly .reference oneSocket
      (.connect (.ok [⟨.v4 127 0 0 1, 53⟩]) (.error (.os 9)) (.ok ())) := by
  have hlive (h : SocketHandle) (hh : (bound (some ⟨0, 0⟩)).socketHandle = some h) :
      oneSocket.slots h.index ≠ none := by
    obtain rfl := Option.some.inj hh
    simp [oneSocket]
  refine (failsCleanly_iff .reference hlive _).mpr ?_
  intro addr _ _ _ hno
  exact absurd hno (by decide)

/-- A zero timeout is refused and stays, and so does the address of a `connect` that the kernel
refuses. -/
theorem not_failsCleanly :
    ¬(bound none).FailsCleanly .reference (SocketSet.empty : SocketSet .reference)
      (.setReadTimeout (some 0) (.ok ())) ∧
    ¬(bound none).FailsCleanly .reference (SocketSet.empty : SocketSet .reference)
      (.connect (.ok [⟨.v4 127 0 0 1, 53⟩]) (.ok ()) (.error (.os 13))) := by
  refine ⟨?_, ?_⟩
  · intro h
    have hview := h (.invalidInput "cannot set a 0 duration timeout") _ _ rfl
    exact absurd (congrArg UdpView.readTimeout hview) (by decide)
  · intro h
    have hview := h (.os 13) _ _ rfl
    exact absurd (congrArg UdpView.connected hview) (by decide)

end UdpState

/-- Cloning is the step of the system: the same references are counted. -/
theorem State.sockets_tryCloneUdp {T : Smoltcp} {cfg : Config} {s : State T} {i : ℕ} {u : UdpSocket}
    {v : UdpState} {dup : Except IoError Fd} {c : Change T} (hi : s.objects[i]? = some (.udp u))
    (hv : v.socketHandle = u.socketHandle) (h : s.tryCloneUdp cfg i dup = some c)
    (hfault : c.fault = false) : (v.tryClone dup s.net.sockets).map Prod.snd = some c.sockets := by
  rw [tryCloneUdp, hi] at h
  rw [UdpState.tryClone, hv]
  dsimp only at h
  rcases hret : retainSome s.net.sockets u.socketHandle with _ | sockets
  · simp only [hret] at h
    rw [← Option.some.inj h] at hfault
    exact absurd hfault (by simp [panics])
  · simp only [hret] at h ⊢
    rcases dup with e | lo
    · rw [← Option.some.inj h]
      rfl
    · dsimp only at h
      split at h
      · exact absurd h (by simp)
      · rw [← Option.some.inj h]
        rfl

end UsnetSockets
