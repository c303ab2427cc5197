import UsnetSockets.Net.UdpReceive
import UsnetSockets.Resolve.Writer
import UsnetSockets.Transition.Run

/-!
# Asking the name servers

`DnsResolver::send_message` with what it uses of `socket.rs` and `address.rs`. A request is made in
attempts, each to one name server. Within an attempt datagrams are read until one is the reply: its
sender is the name server, and it is a response with the id of the query. What comes from elsewhere
is not decoded, and what the name server says otherwise is ignored.

The world outside is given as what each call on the socket meets: for each attempt the result of
`send_to`, and then a sequence of receives. A datagram that arrives late, or from somebody else, is
one of these receives as any other.
-/

namespace UsnetSockets

/-! ## Comparing addresses -/

namespace IpAddr

/-- A segment of an IPv6 address, from its two bytes. -/
def segment (high low : UInt8) : UInt16 := .ofNat (high.toNat * 256 + low.toNat)

/-- The IPv4 address in an IPv4-compatible or IPv4-mapped address. -/
def toIpv4 : IpAddr → Option IpAddr
  | v4 .. => none
  | v6 a b c d e f g h =>
    if [a, b, c, d, e] = [0, 0, 0, 0, 0] ∧ (f = 0 ∨ f = 0xffff) then
      some (v4 (.ofNat (g.toNat / 256)) (.ofNat g.toNat) (.ofNat (h.toNat / 256)) (.ofNat h.toNat))
    else none

/-- `to_ipv6_compatible` of an IPv4 address. -/
def ipv6Compatible (a b c d : UInt8) : IpAddr := v6 0 0 0 0 0 0 (segment a b) (segment c d)

/-- `to_ipv6_mapped` of an IPv4 address. -/
def ipv6Mapped (a b c d : UInt8) : IpAddr := v6 0 0 0 0 0 0xffff (segment a b) (segment c d)

/-- The address in IPv6 stands for the one in IPv4. -/
inductive Wraps : IpAddr → IpAddr → Prop
  | compatible (a b c d : UInt8) : Wraps (ipv6Compatible a b c d) (v4 a b c d)
  | mapped (a b c d : UInt8) : Wraps (ipv6Mapped a b c d) (v4 a b c d)

/-- The same address, up to the forms in which an IPv4 address is written in IPv6. -/
def Same (x y : IpAddr) : Prop := x = y ∨ x.Wraps y ∨ y.Wraps x

@[simp] theorem not_v4_wraps (a b c d : UInt8) (y : IpAddr) : ¬(v4 a b c d).Wraps y := by
  intro h
  generalize hx : v4 a b c d = x at h
  cases h with
  | compatible => exact absurd hx (by simp [ipv6Compatible])
  | mapped => exact absurd hx (by simp [ipv6Mapped])

@[simp] theorem not_wraps_v6 (x : IpAddr) (a b c d e f g h : UInt16) :
    ¬x.Wraps (v6 a b c d e f g h) := by
  rintro ⟨⟩

theorem segment_eq_iff (a b : UInt8) (g : UInt16) :
    g = segment a b ↔ .ofNat (g.toNat / 256) = a ∧ .ofNat g.toNat = b := by
  have ha := a.toNat_lt
  have hb := b.toNat_lt
  have hg := g.toNat_lt
  rw [← UInt16.toNat_inj, ← UInt8.toNat_inj, ← UInt8.toNat_inj, segment, UInt16.toNat_ofNat',
    UInt8.toNat_ofNat', UInt8.toNat_ofNat']
  omega

theorem toIpv4_eq_some_iff (x : IpAddr) (a b c d : UInt8) :
    x.toIpv4 = some (v4 a b c d) ↔ x.Wraps (v4 a b c d) := by
  constructor
  · intro h
    cases x with
    | v4 => exact absurd h (by simp [toIpv4])
    | v6 a' b' c' d' e' f g k =>
      rw [toIpv4] at h
      split at h
      · rename_i hzero
        obtain ⟨hseg, hf⟩ := hzero
        simp only [List.cons.injEq, and_true] at hseg
        obtain ⟨rfl, rfl, rfl, rfl, rfl⟩ := hseg
        simp only [Option.some.injEq, v4.injEq] at h
        obtain ⟨ha, hb, hc, hd⟩ := h
        obtain rfl := (segment_eq_iff a b g).mpr ⟨ha, hb⟩
        obtain rfl := (segment_eq_iff c d k).mpr ⟨hc, hd⟩
        rcases hf with rfl | rfl
        · exact .compatible a b c d
        · exact .mapped a b c d
      · exact absurd h (by simp)
  · have hab := (segment_eq_iff a b _).mp rfl
    have hcd := (segment_eq_iff c d _).mp rfl
    rintro (_ | _)
    · rw [ipv6Compatible, toIpv4, if_pos (by simp), hab.1, hab.2, hcd.1, hcd.2]
    · rw [ipv6Mapped, toIpv4, if_pos (by simp), hab.1, hab.2, hcd.1, hcd.2]

end IpAddr

/-- Compares two addresses, checking for IPv6-compatible or IPv6-mapped addresses. The last case of
the source is the third with the arguments exchanged. -/
def addressEqual : IpAddr → IpAddr → Bool
  | .v4 a b c d, .v4 a' b' c' d' => IpAddr.v4 a b c d == .v4 a' b' c' d'
  | .v6 a b c d e f g h, .v6 a' b' c' d' e' f' g' h' =>
    IpAddr.v6 a b c d e f g h == .v6 a' b' c' d' e' f' g' h'
  | .v6 a b c d e f g h, .v4 a' b' c' d' =>
    match (IpAddr.v6 a b c d e f g h).toIpv4 with
    | some a4 => a4 == .v4 a' b' c' d'
    | none => false
  | .v4 a b c d, .v6 a' b' c' d' e' f' g' h' =>
    match (IpAddr.v6 a' b' c' d' e' f' g' h').toIpv4 with
    | some a4 => a4 == .v4 a b c d
    | none => false

def socketAddressEqual (a b : SocketAddr) : Bool := a.port == b.port && addressEqual a.ip b.ip

theorem addressEqual_iff (x y : IpAddr) : addressEqual x y = true ↔ x.Same y := by
  have hv4 (x : IpAddr) (a b c d : UInt8) : (match x.toIpv4 with
      | some a4 => a4 == .v4 a b c d
      | none => false) = true ↔ x.Wraps (.v4 a b c d) := by
    rw [← IpAddr.toIpv4_eq_some_iff]
    cases x.toIpv4 <;> simp
  cases x with
  | v4 a b c d =>
    cases y with
    | v4 a' b' c' d' => simp [addressEqual, IpAddr.Same]
    | v6 a' b' c' d' e' f' g' h' => rw [addressEqual, hv4]; simp [IpAddr.Same]
  | v6 a b c d e f g h =>
    cases y with
    | v4 a' b' c' d' => rw [addressEqual, hv4]; simp [IpAddr.Same]
    | v6 a' b' c' d' e' f' g' h' => simp [addressEqual, IpAddr.Same]

theorem socketAddressEqual_iff (a b : SocketAddr) :
    socketAddressEqual a b = true ↔ a.port = b.port ∧ a.ip.Same b.ip := by
  rw [socketAddressEqual, Bool.and_eq_true, beq_iff_eq, addressEqual_iff]

/-! ## The socket -/

/-- Represents an error in sending or receiving a DNS message. -/
inductive DnsSocketError where
  /-- Error decoding received data -/
  | decodeError (e : DecodeError)
  /-- Error encoding data to be sent -/
  | encodeError (e : EncodeError)
  /-- Server responded with error message -/
  | dnsError (rcode : RCode)
  /-- Error generated by network operation -/
  | ioError (e : IoError)
  deriving DecidableEq

/-- Whether the error is the result of an operation having timed out. The codes of `EAGAIN` and
`ETIMEDOUT` are 11 and 110. -/
def DnsSocketError.isTimeout : DnsSocketError → Bool
  | ioError e => e.isWouldBlock || e == .os 110
  | _ => false

/-- A datagram that the socket is given. The length field of UDP has two bytes. -/
structure Packet extends Datagram where
  length_le : data.length ≤ messageLimit

/-- What one receive of the resolver meets: what the kernel answers to the new timeout, the datagram
or the error that `recv_from` ends with, and the time that it takes. -/
structure Reception where
  setTimeout : Except IoError Unit
  packet : Except IoError Packet
  passed : ℕ

/-- What one attempt meets: what `send_to` answers to a datagram for an address, and what the
receives meet. -/
structure AttemptWorld where
  sendTo : List UInt8 → SocketAddr → Except IoError Unit
  receptions : ℕ → Reception

/-- The result of a call on the socket, as `try!` passes it on. -/
def ofIo {α : Type} : Except IoError α → Outcome DnsSocketError α
  | .ok a => .ok a
  | .error e => .err (.ioError e)

namespace DnsSocket

/-- `set_read_timeout`, in nanoseconds. The standard library does not accept zero. -/
def setReadTimeout (timeout : ℕ) (answer : Except IoError Unit) : Except IoError Unit :=
  if timeout = 0 then .error (.invalidInput "cannot set a 0 duration timeout") else answer

theorem setReadTimeout_eq_ok_iff {timeout : ℕ} {answer : Except IoError Unit} :
    setReadTimeout timeout answer = .ok () ↔ timeout ≠ 0 ∧ answer = .ok () := by
  by_cases h : timeout = 0
  · simp [setReadTimeout, h]
  · simp [setReadTimeout, h]

variable (X : IdnaCrate)

/-- Sends a message to the given address. -/
def sendMessage (message : Message) (addr : SocketAddr)
    (sendTo : List UInt8 → SocketAddr → Except IoError Unit) : Outcome DnsSocketError Unit := do
  let data ← (message.encode X (List.replicate messageLimit 0)).mapErr .encodeError
  ofIo (sendTo data addr)

/-- Attempts to read a DNS message into a buffer of `len` bytes. The message will only be decoded if
the remote address matches `addr`. -/
def recvMessage (n : ℕ) (addr : SocketAddr) (len : ℕ) (packet : Except IoError Packet) :
    Outcome DnsSocketError (Option Message) := do
  let packet ← ofIo packet
  let (bytes, recvAddr) := packet.read len
  if !socketAddressEqual recvAddr addr then return none
  else
    let msg ← (Message.decode X n bytes).mapErr .decodeError
    return some msg

end DnsSocket

/-! ## The resolver -/

/-- The fields of a `DnsConfig` that a request reads. -/
structure DnsConfig where
  /-- List of name servers; must not be empty -/
  nameServers : List SocketAddr
  /-- Duration before retrying or failing an unanswered request, in nanoseconds -/
  timeout : ℕ
  /-- Number of attempts made before returning an error -/
  attempts : ℕ
  /-- Whether to rotate through available nameservers -/
  rotate : Bool

/-- The name server that attempt `k` of a request is to use, when `before` attempts have been made
in the requests before it. -/
def DnsConfig.server (config : DnsConfig) (before k : ℕ) : Option SocketAddr :=
  config.nameServers[(if config.rotate then before + k else k) % config.nameServers.length]?

structure DnsResolver where
  config : DnsConfig
  /-- Index of `nameServers` to use in next DNS request; ignored without `rotate`. -/
  nextNs : ℕ
  /-- The name servers of all attempts so far. This is not a field of the source. -/
  tried : List SocketAddr

/-- One call of `send_message`: the message, the length of the buffer, the world that the attempts
meet, and fuel for the loops. -/
structure DnsCall where
  outMsg : Message
  len : ℕ
  world : ℕ → AttemptWorld
  fuel : ℕ

/-- How an attempt ends that does not end the request with an error. -/
inductive AttemptEnd where
  | reply (msg : Message)
  | retry (e : DnsSocketError)

/-- The state of the inner loop: the time that is left, and the number of the next receive. -/
structure Listening where
  timeout : ℕ
  next : ℕ

namespace DnsResolver

open Outcome

variable (X : IdnaCrate)

def new (config : DnsConfig) : DnsResolver := ⟨config, 0, []⟩

/-- The reply is a response with the id of the query. -/
def isReply (outMsg msg : Message) : Bool :=
  msg.header.id == outMsg.header.id && msg.header.qr == .response

/-- One pass of the inner loop. -/
def receiveBody (call : DnsCall) (receptions : ℕ → Reception) (nsAddr : SocketAddr)
    (s : Listening) : Outcome DnsSocketError (Listening ⊕ AttemptEnd) := do
  let reception := receptions s.next
  ofIo (DnsSocket.setReadTimeout s.timeout reception.setTimeout)
  match DnsSocket.recvMessage X call.fuel nsAddr call.len reception.packet with
  | .ok none =>
    -- keep the right total timeout when interrupted by irrelevant messages
    let timeout := if s.timeout < reception.passed then 0 else s.timeout - reception.passed
    return .inl ⟨timeout, s.next + 1⟩
  | .ok (some msg) =>
    if isReply call.outMsg msg then
      match msg.getError with
      | none => return .inr (.reply msg)
      | some rcode => .err (.dnsError rcode)
    else return .inl ⟨s.timeout, s.next + 1⟩
  | .err e => if e.isTimeout then return .inr (.retry e) else .err e
  | .panic => .panic
  | .outOfFuel => .outOfFuel

/-- One attempt, with the given name server. -/
def attempt (timeout : ℕ) (call : DnsCall) (world : AttemptWorld) (nsAddr : SocketAddr) :
    Outcome DnsSocketError AttemptEnd := do
  DnsSocket.sendMessage X call.outMsg nsAddr world.sendTo
  loop (receiveBody X call world.receptions nsAddr) call.fuel ⟨timeout, 0⟩

/-- The name server for the next attempt, in turn. Without name servers this is a panic. -/
def nextNameserver (r : DnsResolver) : Option (SocketAddr × DnsResolver) :=
  r.config.nameServers[r.nextNs]?.map fun nsAddr ↦
    (nsAddr, { r with nextNs := (r.nextNs + 1) % r.config.nameServers.length })

/-- The name server for an attempt, which is added to the list of those that were tried. -/
def chooseNameserver (r : DnsResolver) (retries : ℕ) : Option (SocketAddr × DnsResolver) :=
  let choice :=
    if r.config.rotate then r.nextNameserver
    else r.config.nameServers[retries % r.config.nameServers.length]?.map fun nsAddr ↦ (nsAddr, r)
  choice.map fun x ↦ (x.1, { x.2 with tried := x.2.tried ++ [x.1] })

/-- The outer loop, with the number of attempts that are left and the number of the next one. -/
def retry (call : DnsCall) : ℕ → ℕ → Option DnsSocketError → DnsResolver →
    Outcome DnsSocketError Message × DnsResolver
  | 0, _, some e, r => (.err e, r)
  | 0, _, none, r => (.panic, r)
  | left + 1, retries, _, r =>
    match r.chooseNameserver retries with
    | none => (.panic, r)
    | some (nsAddr, r) =>
      match attempt X r.config.timeout call (call.world retries) nsAddr with
      | .ok (.reply msg) => (.ok msg, r)
      | .ok (.retry e) => retry call left (retries + 1) (some e) r
      | .err e => (.err e, r)
      | .panic => (.panic, r)
      | .outOfFuel => (.outOfFuel, r)

/-- Sends a message to the DNS server and attempts to read a response. -/
def sendMessage (r : DnsResolver) (call : DnsCall) :
    Outcome DnsSocketError Message × DnsResolver :=
  retry X call r.config.attempts 0 none r

/-- A request that returns, with a reply or with an error, leaves a resolver for the next one. -/
def step (r : DnsResolver) (call : DnsCall) : Option DnsResolver :=
  match r.sendMessage X call with
  | (.ok _, r') => some r'
  | (.err _, r') => some r'
  | _ => none

/-! ## The query and the reply -/

/-- The query has been sent to the name server. -/
def Sent (call : DnsCall) (world : AttemptWorld) (nsAddr : SocketAddr) : Prop :=
  ∃ data, call.outMsg.encode X (List.replicate messageLimit 0) = .ok data ∧
    world.sendTo data nsAddr = .ok ()

/-- The packet comes from the name server and is decoded to the message. -/
structure Carries (len : ℕ) (nsAddr : SocketAddr) (p : Packet) (msg : Message) : Prop where
  port : p.sender.port = nsAddr.port
  ip : p.sender.ip.Same nsAddr.ip
  decoded : Returns (fun n ↦ Message.decode X n (p.data.take len)) msg

/-- The message is a response to the query. -/
structure Answers (outMsg msg : Message) : Prop where
  id : msg.header.id = outMsg.header.id
  qr : msg.header.qr = .response

/-- A packet was received that is not from the name server or does not answer the query. -/
def Ignored (call : DnsCall) (nsAddr : SocketAddr) (reception : Reception) : Prop :=
  ∃ p, reception.packet = .ok p ∧ (¬(p.sender.port = nsAddr.port ∧ p.sender.ip.Same nsAddr.ip) ∨
    ∃ msg, Carries X call.len nsAddr p msg ∧ ¬Answers call.outMsg msg)

/-- The message is the one of the first packet that answers the query. -/
structure FirstReply (call : DnsCall) (receptions : ℕ → Reception) (nsAddr : SocketAddr)
    (msg : Message) (i : ℕ) (p : Packet) : Prop where
  received : (receptions i).packet = .ok p
  carries : Carries X call.len nsAddr p msg
  answers : Answers call.outMsg msg
  rcode : msg.header.rcode = .noError
  first : ∀ j < i, Ignored X call nsAddr (receptions j)
  /-- All of the packet fits in a buffer of the size that the callers use. -/
  whole : messageLimit ≤ call.len → p.data.take call.len = p.data

variable {X}

theorem isReply_iff (outMsg msg : Message) : isReply outMsg msg = true ↔ Answers outMsg msg := by
  rw [isReply, Bool.and_eq_true, beq_iff_eq, beq_iff_eq]
  exact ⟨fun h ↦ ⟨h.1, h.2⟩, fun h ↦ ⟨h.id, h.qr⟩⟩

theorem ofIo_eq_ok {α : Type} {x : Except IoError α} {a : α} (h : ofIo x = .ok a) : x = .ok a := by
  rcases x with e | b
  · exact absurd h (by simp [ofIo])
  · rw [ok.inj h]

theorem recvMessage_eq_ok {n len : ℕ} {nsAddr : SocketAddr} {packet : Except IoError Packet}
    {o : Option Message} (h : DnsSocket.recvMessage X n nsAddr len packet = .ok o) :
    ∃ p, packet = .ok p ∧
      (o = none ∧ ¬(p.sender.port = nsAddr.port ∧ p.sender.ip.Same nsAddr.ip) ∨
        ∃ msg, o = some msg ∧ Carries X len nsAddr p msg) := by
  rw [DnsSocket.recvMessage, bind_eq_ok] at h
  obtain ⟨p, hp, h⟩ := h
  refine ⟨p, ?_, ?_⟩
  · exact ofIo_eq_ok hp
  · rw [← socketAddressEqual_iff]
    split at h
    rename_i bytes recvAddr hread
    obtain ⟨rfl, rfl⟩ := Prod.mk.inj hread
    split at h
    · rename_i hne
      exact Or.inl ⟨(ok.inj h).symm, by simpa using hne⟩
    · rename_i heq
      obtain ⟨msg, hmsg, h⟩ := bind_eq_ok.mp h
      obtain ⟨hport, hip⟩ := (socketAddressEqual_iff p.sender nsAddr).mp (by simpa using heq)
      exact Or.inr ⟨msg, (ok.inj h).symm, hport, hip, n, mapErr_eq_ok.mp hmsg⟩

variable {call : DnsCall} {receptions : ℕ → Reception} {nsAddr : SocketAddr}

/-- A pass that goes on has ignored a packet, and one that ends with a reply has received it. -/
theorem receiveBody_eq_ok {s : Listening} {x : Listening ⊕ AttemptEnd}
    (h : receiveBody X call receptions nsAddr s = .ok x) :
    (∃ timeout, x = .inl ⟨timeout, s.next + 1⟩ ∧ Ignored X call nsAddr (receptions s.next)) ∨
    (∃ msg p, x = .inr (.reply msg) ∧ (receptions s.next).packet = .ok p ∧
      Carries X call.len nsAddr p msg ∧ Answers call.outMsg msg ∧ msg.header.rcode = .noError) ∨
    ∃ e, x = .inr (.retry e) := by
  rw [receiveBody, bind_eq_ok] at h
  obtain ⟨_, -, h⟩ := h
  split at h
  · rename_i hrecv
    obtain ⟨p, hp, ⟨-, hother⟩ | ⟨msg, hmsg, -⟩⟩ := recvMessage_eq_ok hrecv
    · exact Or.inl ⟨_, (ok.inj h).symm, p, hp, Or.inl hother⟩
    · exact absurd hmsg (by simp)
  · rename_i msg hrecv
    obtain ⟨p, hp, ⟨hnone, -⟩ | ⟨msg', hmsg, hcarries⟩⟩ := recvMessage_eq_ok hrecv
    · exact absurd hnone (by simp)
    obtain rfl := Option.some.inj hmsg
    split at h
    · rename_i hreply
      split at h
      · rename_i hrcode
        refine Or.inr (Or.inl ⟨msg, p, (ok.inj h).symm, hp, hcarries, ?_, ?_⟩)
        · exact (isReply_iff _ _).mp hreply
        · rw [Message.getError] at hrcode
          exact by_contra fun hne ↦ absurd hrcode (by simp [hne])
      · exact absurd h (by simp)
    · rename_i hreply
      refine Or.inl ⟨_, (ok.inj h).symm, p, hp, Or.inr ⟨msg, hcarries, ?_⟩⟩
      rwa [← isReply_iff]
  · split at h
    · exact Or.inr (Or.inr ⟨_, (ok.inj h).symm⟩)
    · exact absurd h (by simp)
  · exact absurd h (by simp)
  · exact absurd h (by simp)

/-- An attempt gets to its inner loop when the query is sent. -/
theorem sent_of_attempt {timeout : ℕ} {world : AttemptWorld} {x : AttemptEnd}
    (h : attempt X timeout call world nsAddr = .ok x) : Sent X call world nsAddr := by
  rw [attempt, bind_eq_ok] at h
  obtain ⟨_, hsend, -⟩ := h
  rw [DnsSocket.sendMessage, bind_eq_ok] at hsend
  obtain ⟨data, hdata, hsend⟩ := hsend
  exact ⟨data, mapErr_eq_ok.mp hdata, ofIo_eq_ok hsend⟩

/-- The inner loop ends with the first reply. -/
theorem attempt_eq_reply {timeout : ℕ} {world : AttemptWorld} {msg : Message}
    (h : attempt X timeout call world nsAddr = .ok (.reply msg)) :
    ∃ i p, FirstReply X call world.receptions nsAddr msg i p := by
  rw [attempt, bind_eq_ok] at h
  obtain ⟨_, -, h⟩ := h
  -- before each pass all packets so far have been ignored
  let I (s : Listening) : Prop := ∀ j < s.next, Ignored X call nsAddr (world.receptions j)
  let J (b : AttemptEnd) : Prop := ∀ msg, b = .reply msg →
    ∃ i p, FirstReply X call world.receptions nsAddr msg i p
  refine loop_ok_of_invariant (I := I) (J := J) ?_ ?_ ?_ h msg rfl
  · intro s s' hs hbody j hj
    obtain ⟨timeout, hs', hignored⟩ | ⟨_, _, hx, -⟩ | ⟨_, hx⟩ := receiveBody_eq_ok hbody
    · obtain rfl := Sum.inl.inj hs'
      rcases Nat.lt_succ_iff_lt_or_eq.mp hj with hj | rfl
      · exact hs j hj
      · exact hignored
    · exact absurd hx (by simp)
    · exact absurd hx (by simp)
  · intro s b hs hbody msg hb
    subst hb
    obtain ⟨_, hx, -⟩ | ⟨msg', p, hx, hp, hcarries, hanswers, hrcode⟩ | ⟨_, hx⟩ :=
      receiveBody_eq_ok hbody
    · exact absurd hx (by simp)
    · obtain rfl : msg = msg' := by simpa using hx
      refine ⟨s.next, p, hp, hcarries, hanswers, hrcode, hs, fun hlen ↦ ?_⟩
      exact List.take_of_length_le (p.length_le.trans hlen)
    · exact absurd hx (by simp)
  · intro j hj
    exact absurd hj (Nat.not_lt_zero j)

/-! ## The name servers -/

/-- With rotation, the next name server is the one after those that have been tried. -/
def InTurn (r : DnsResolver) : Prop :=
  r.config.rotate = true → r.nextNs = r.tried.length % r.config.nameServers.length

theorem chooseNameserver_eq_some {r r' : DnsResolver} {retries before : ℕ} (hr : r.InTurn)
    (hbefore : r.tried.length = before + retries)
    (h : r.chooseNameserver retries = some (nsAddr, r')) :
    r.config.server before retries = some nsAddr ∧ r'.config = r.config ∧
      r'.tried = r.tried ++ [nsAddr] ∧ r'.InTurn := by
  simp only [chooseNameserver, Option.map_eq_some_iff, Prod.mk.injEq] at h
  obtain ⟨⟨addr, r''⟩, hchoice, rfl, rfl⟩ := h
  by_cases hrotate : r.config.rotate = true
  · simp only [if_pos hrotate, nextNameserver, Option.map_eq_some_iff, Prod.mk.injEq] at hchoice
    obtain ⟨_, hget, rfl, rfl⟩ := hchoice
    rw [hr hrotate, hbefore] at hget
    refine ⟨by rw [DnsConfig.server, if_pos hrotate, hget], rfl, rfl, fun _ ↦ ?_⟩
    simp only [hr hrotate, List.length_append, List.length_singleton, Nat.mod_add_mod]
  · simp only [if_neg hrotate, Option.map_eq_some_iff, Prod.mk.injEq] at hchoice
    obtain ⟨_, hget, rfl, rfl⟩ := hchoice
    exact ⟨by rw [DnsConfig.server, if_neg hrotate, hget], rfl, rfl, fun h ↦ absurd h hrotate⟩

/-- What a request does from attempt `retries` on: the name servers that it tries, to which of them
the query is sent, and which of the attempts gets the reply. An attempt that another one follows has
sent the query. -/
structure Request (X : IdnaCrate) (call : DnsCall) (before retries : ℕ) (r : DnsResolver)
    (result : Outcome DnsSocketError Message × DnsResolver) (servers : List SocketAddr) : Prop where
  config : result.2.config = r.config
  inTurn : result.2.InTurn
  tried : result.2.tried = r.tried ++ servers
  server : ∀ k a, servers[k]? = some a → r.config.server before (retries + k) = some a
  sent : ∀ k a, servers[k]? = some a → k + 1 < servers.length ∨ (∃ msg, result.1 = .ok msg) →
    Sent X call (call.world (retries + k)) a
  reply : ∀ msg, result.1 = .ok msg → ∃ k a, servers.length = k + 1 ∧ servers[k]? = some a ∧
    ∃ i p, FirstReply X call (call.world (retries + k)).receptions a msg i p

variable {before retries : ℕ} {r r' : DnsResolver}

theorem Request.none (hr : r.InTurn) {res : Outcome DnsSocketError Message}
    (hres : ∀ msg, res ≠ .ok msg) : Request X call before retries r (res, r) [] where
  config := rfl
  inTurn := hr
  tried := (List.append_nil _).symm
  server k a h := absurd h (by simp)
  sent k a h := absurd h (by simp)
  reply msg h := absurd h (hres msg)

/-- The last attempt, which may have got the reply. -/
theorem Request.single (hserver : r.config.server before retries = some nsAddr)
    (hconfig : r'.config = r.config) (htried : r'.tried = r.tried ++ [nsAddr]) (hr' : r'.InTurn)
    {res : Outcome DnsSocketError Message} (hres : ∀ msg, res = .ok msg →
      Sent X call (call.world retries) nsAddr ∧
        ∃ i p, FirstReply X call (call.world retries).receptions nsAddr msg i p) :
    Request X call before retries r (res, r') [nsAddr] where
  config := hconfig
  inTurn := hr'
  tried := htried
  server k a hk := by
    obtain ⟨rfl, rfl⟩ : k = 0 ∧ nsAddr = a := by simpa [List.getElem?_singleton] using hk
    exact hserver
  sent k a hk hsent := by
    obtain ⟨rfl, rfl⟩ : k = 0 ∧ nsAddr = a := by simpa [List.getElem?_singleton] using hk
    rcases hsent with hlt | ⟨msg, hmsg⟩
    · exact absurd hlt (by simp)
    · exact (hres msg hmsg).1
  reply msg hmsg := ⟨0, nsAddr, rfl, rfl, (hres msg hmsg).2⟩

/-- An attempt before the others. -/
theorem Request.cons {result : Outcome DnsSocketError Message × DnsResolver}
    {servers : List SocketAddr} (hserver : r.config.server before retries = some nsAddr)
    (hconfig : r'.config = r.config) (htried : r'.tried = r.tried ++ [nsAddr])
    (hsent : Sent X call (call.world retries) nsAddr)
    (h : Request X call before (retries + 1) r' result servers) :
    Request X call before retries r result (nsAddr :: servers) where
  config := h.config.trans hconfig
  inTurn := h.inTurn
  tried := by rw [h.tried, htried, List.append_assoc, List.singleton_append]
  server k a hk := by
    cases k with
    | zero =>
      obtain rfl : nsAddr = a := by simpa using hk
      exact hserver
    | succ k =>
      rw [← hconfig, ← Nat.add_assoc, Nat.add_right_comm]
      exact h.server k a (by simpa using hk)
  sent k a hk hlast := by
    cases k with
    | zero =>
      obtain rfl : nsAddr = a := by simpa using hk
      exact hsent
    | succ k =>
      rw [← Nat.add_assoc, Nat.add_right_comm]
      exact h.sent k a (by simpa using hk) (hlast.imp_left fun hlt ↦ by simpa using hlt)
  reply msg hmsg := by
    obtain ⟨k, a, hlen, ha, hreply⟩ := h.reply msg hmsg
    refine ⟨k + 1, a, by rw [List.length_cons, hlen], by simpa using ha, ?_⟩
    rwa [← Nat.add_assoc, Nat.add_right_comm]

theorem exists_request_retry (left : ℕ) {lastErr : Option DnsSocketError} (hr : r.InTurn)
    (hbefore : r.tried.length = before + retries) :
    ∃ servers, Request X call before retries r (retry X call left retries lastErr r) servers := by
  induction left generalizing retries lastErr r with
  | zero =>
    refine ⟨[], ?_⟩
    cases lastErr with
    | none => exact .none hr (by simp)
    | some e => exact .none hr (by simp)
  | succ left ih =>
    rw [retry]
    cases hchoose : r.chooseNameserver retries with
    | none => exact ⟨[], .none hr (by simp)⟩
    | some x =>
      obtain ⟨nsAddr, r'⟩ := x
      obtain ⟨hserver, hconfig, htried, hr'⟩ := chooseNameserver_eq_some hr hbefore hchoose
      simp only
      cases hattempt : attempt X r'.config.timeout call (call.world retries) nsAddr with
      | ok x =>
        cases x with
        | reply msg =>
          refine ⟨[nsAddr], .single hserver hconfig htried hr' fun msg' hmsg ↦ ?_⟩
          obtain rfl := ok.inj hmsg
          exact ⟨sent_of_attempt hattempt, attempt_eq_reply hattempt⟩
        | retry e =>
          have hnext : r'.tried.length = before + (retries + 1) := by
            rw [htried, List.length_append, hbefore, List.length_singleton, Nat.add_assoc]
          obtain ⟨servers, h⟩ := ih hr' hnext
          exact ⟨nsAddr :: servers, h.cons hserver hconfig htried (sent_of_attempt hattempt)⟩
      | err e => exact ⟨[nsAddr], .single hserver hconfig htried hr' (by simp)⟩
      | panic => exact ⟨[nsAddr], .single hserver hconfig htried hr' (by simp)⟩
      | outOfFuel => exact ⟨[nsAddr], .single hserver hconfig htried hr' (by simp)⟩

theorem exists_request_sendMessage (hr : r.InTurn) (call : DnsCall) :
    ∃ servers, Request X call r.tried.length 0 r (r.sendMessage X call) servers :=
  exists_request_retry _ hr rfl

theorem step_eq_some {call : DnsCall} (h : r.step X call = some r') :
    (r.sendMessage X call).2 = r' := by
  rw [step] at h
  split at h
  · rename_i hsend
    rw [hsend, Option.some.inj h]
  · rename_i hsend
    rw [hsend, Option.some.inj h]
  · exact absurd h (by simp)

theorem inTurn_of_run {config : DnsConfig} {calls : List DnsCall}
    (hrun : Transition.run (step X) (new config) calls = some r) :
    r.config = config ∧ r.InTurn := by
  let I (r : DnsResolver) : Prop := r.config = config ∧ r.InTurn
  refine Transition.invariant_of_run (I := I) ?_ ⟨rfl, fun _ ↦ (Nat.zero_mod _).symm⟩ hrun
  rintro r call r' ⟨hconfig, hr⟩ hstep
  obtain ⟨servers, h⟩ := exists_request_sendMessage (X := X) hr call
  rw [← step_eq_some hstep]
  exact ⟨h.config.trans hconfig, h.inTurn⟩

/-- **Only the first reply is accepted.** After any requests, attempt `k` of the next one uses the
name server whose turn it is: when another attempt follows, or a reply is returned, it has sent the
query there. If the request returns a message, it is the one of the first packet in
its last attempt that comes from the name server of that attempt and answers the query. -/
theorem sendMessage_accepts {config : DnsConfig} {calls : List DnsCall}
    (hrun : Transition.run (step X) (new config) calls = some r) (call : DnsCall) :
    ∃ servers, (r.sendMessage X call).2.tried = r.tried ++ servers ∧
      (∀ k nsAddr, servers[k]? = some nsAddr →
        config.server r.tried.length k = some nsAddr ∧
          (k + 1 < servers.length ∨ (∃ msg, (r.sendMessage X call).1 = .ok msg) →
            Sent X call (call.world k) nsAddr)) ∧
      ∀ msg, (r.sendMessage X call).1 = .ok msg →
        ∃ k nsAddr, servers.length = k + 1 ∧ servers[k]? = some nsAddr ∧
          ∃ i p, FirstReply X call (call.world k).receptions nsAddr msg i p := by
  obtain ⟨hconfig, hr⟩ := inTurn_of_run hrun
  obtain ⟨servers, h⟩ := exists_request_sendMessage (X := X) hr call
  refine ⟨servers, h.tried, ?_, ?_⟩
  · intro k nsAddr hk
    rw [← hconfig, ← Nat.zero_add k]
    refine ⟨h.server k nsAddr hk, fun hlast ↦ ?_⟩
    exact h.sent k nsAddr hk (by rwa [Nat.zero_add] at hlast)
  · intro msg hmsg
    simpa only [Nat.zero_add] using h.reply msg hmsg

theorem attempt_of_encode {call : DnsCall} {bytes : List UInt8}
    (h : call.outMsg.encode X (List.replicate messageLimit 0) = .ok bytes) (timeout : ℕ)
    (world : AttemptWorld) (nsAddr : SocketAddr) : attempt X timeout call world nsAddr =
      (ofIo (world.sendTo bytes nsAddr)).bind fun _ ↦
        loop (receiveBody X call world.receptions nsAddr) call.fuel ⟨timeout, 0⟩ := by
  rw [attempt, DnsSocket.sendMessage, h]
  rfl

theorem retry_of_err {left : ℕ} {last : Option DnsSocketError} {e : DnsSocketError}
    (hchoose : r.chooseNameserver retries = some (nsAddr, r'))
    (hattempt : attempt X r'.config.timeout call (call.world retries) nsAddr = .err e) :
    retry X call (left + 1) retries last r = (.err e, r') := by
  rw [retry, hchoose]
  simp only [hattempt]

theorem retry_of_reply {left : ℕ} {last : Option DnsSocketError} {msg : Message}
    (hchoose : r.chooseNameserver retries = some (nsAddr, r'))
    (hattempt : attempt X r'.config.timeout call (call.world retries) nsAddr = .ok (.reply msg)) :
    retry X call (left + 1) retries last r = (.ok msg, r') := by
  rw [retry, hchoose]
  simp only [hattempt]

/-! A resolver with two name servers. A first request fails before anything is sent. In the second
one somebody else answers first, and then the second name server, with an IPv4-mapped address. -/

/-- A message without any items. -/
def bareMessage (qr : Qr) : Message where
  header := { id := 7, qr := qr, op := .query, authoritative := false, truncated := false,
              recursionDesired := true, recursionAvailable := false, rcode := .noError }
  question := []
  answer := []
  authority := []
  additional := []

def nameServer (n : UInt8) : SocketAddr := ⟨.v4 10 0 0 n, 53⟩

def twoServers : DnsConfig := ⟨[nameServer 1, nameServer 2], 5000000000, 3, true⟩

/-- The resolver after the first request. -/
def afterFirst : DnsResolver := ⟨twoServers, 1, [nameServer 1]⟩

def responseFrom (ip : IpAddr) : Reception where
  setTimeout := .ok ()
  packet := .ok ⟨⟨⟨ip, 53⟩, [0, 7, 129, 0, 0, 0, 0, 0, 0, 0, 0, 0]⟩, by simp [messageLimit]⟩
  passed := 1

def bareCall (sendTo : Except IoError Unit) : DnsCall where
  outMsg := bareMessage .query
  len := messageLimit
  world _ :=
    ⟨fun _ _ ↦ sendTo,
      fun i ↦ responseFrom (if i = 0 then .v4 10 0 0 9 else .ipv6Mapped 10 0 0 2)⟩
  fuel := 2

theorem encode_bareMessage (X : IdnaCrate) {buf : List UInt8} (h : 12 ≤ buf.length) :
    ∃ bytes, (bareMessage .query).encode X buf = .ok bytes := by
  obtain ⟨header, hheader⟩ : ∃ header, (bareMessage .query).fullHeader = .ok header := ⟨_, rfl⟩
  have hwrite {data : List UInt8} (hdata : data.length = 12) :
      (MsgWriter.new buf).write data = (.ok (), ⟨data.take buf.length, buf.drop data.length⟩) := by
    have hlimit : ¬(MsgWriter.new buf).written + data.length > messageLimit := by
      simp [MsgWriter.new, MsgWriter.written, hdata, messageLimit]
    rw [MsgWriter.write, if_neg hlimit]
    simp [MsgWriter.new, hdata, h]
  obtain ⟨w, hw⟩ : ∃ w, Message.writeMessage X (bareMessage .query) header (.new buf) =
      (.ok (), w) := by
    rw [Message.writeMessage, MsgWriter.writeHeader, hwrite (by simp [be16Bytes])]
    exact ⟨_, rfl⟩
  refine ⟨w.intoBytes, ?_⟩
  simp [Message.encode, hheader, hw]

theorem encode_bareCall (X : IdnaCrate) (sendTo : Except IoError Unit) :
    ∃ bytes, (bareCall sendTo).outMsg.encode X (List.replicate messageLimit 0) = .ok bytes :=
  encode_bareMessage X (by rw [List.length_replicate, messageLimit]; decide)

theorem run_bareCall (X : IdnaCrate) :
    Transition.run (step X) (new twoServers) [bareCall (.error (.os 101))] = some afterFirst := by
  obtain ⟨bytes, hbytes⟩ := encode_bareCall X (.error (.os 101))
  have hattempt : attempt X afterFirst.config.timeout (bareCall (.error (.os 101)))
      ((bareCall (.error (.os 101))).world 0) (nameServer 1) = .err (.ioError (.os 101)) := by
    rw [attempt_of_encode hbytes]
    rfl
  have hsend : (new twoServers).sendMessage X (bareCall (.error (.os 101))) =
      (.err (.ioError (.os 101)), afterFirst) := retry_of_err rfl hattempt
  rw [Transition.run, step, hsend]
  rfl

theorem sendMessage_bareCall (X : IdnaCrate) :
    (afterFirst.sendMessage X (bareCall (.ok ()))).1 = .ok (bareMessage .response) := by
  obtain ⟨bytes, hbytes⟩ := encode_bareCall X (.ok ())
  have hattempt : attempt X twoServers.timeout (bareCall (.ok ())) ((bareCall (.ok ())).world 0)
      (nameServer 2) = .ok (.reply (bareMessage .response)) := by
    rw [attempt_of_encode hbytes]
    rfl
  have hsend : afterFirst.sendMessage X (bareCall (.ok ())) =
      (.ok (bareMessage .response), ⟨twoServers, 0, [nameServer 1, nameServer 2]⟩) :=
    retry_of_reply rfl hattempt
  rw [hsend]

theorem sendMessage_accepts_bareCall :
    Transition.run (step ⟨some, some⟩) (new twoServers) [bareCall (.error (.os 101))] =
      some afterFirst ∧
    ∃ k nsAddr i p, twoServers.server 1 k = some nsAddr ∧
      FirstReply ⟨some, some⟩ (bareCall (.ok ())) ((bareCall (.ok ())).world k).receptions nsAddr
        (bareMessage .response) i p := by
  refine ⟨run_bareCall _, ?_⟩
  obtain ⟨servers, -, hserver, hreply⟩ :=
    sendMessage_accepts (run_bareCall ⟨some, some⟩) (bareCall (.ok ()))
  obtain ⟨k, nsAddr, -, hk, i, p, hfirst⟩ := hreply _ (sendMessage_bareCall _)
  exact ⟨k, nsAddr, i, p, (hserver k nsAddr hk).1, hfirst⟩

end DnsResolver

end UsnetSockets
