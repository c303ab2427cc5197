import Mathlib.Logic.Relation
import UsnetSockets.Net.System
import UsnetSockets.Program.Outcome

/-!
# Receiving datagrams

`peek_or_recv_from` of a `UdpSocket`. One loop serves `recv_from`, which takes the first datagram of
the queue in user space, and `peek_from`, which only looks at it. On a connected socket the sender
of the datagram is compared with the connected address after the datagram has been taken or looked
at, and a datagram of another sender sends the loop into its next turn.

The call holds the lock of `StcpNet` from its beginning to its end, except while it waits on the
condition variable. What happens during these waits is given as a list: the datagrams that arrive,
whether the wait times out, and what the kernel's socket has to say afterwards.
-/

namespace UsnetSockets

/-- A socket address with the two fields that only an IPv6 address has. Equality of Rust's
`SocketAddr` compares them too. -/
structure PeerAddr where
  ip : IpAddr
  port : UInt16
  flowinfo : UInt32
  scopeId : UInt32
  eq_zero_of_v4 : ip.isIpv6 = false → flowinfo = 0 ∧ scopeId = 0
  deriving DecidableEq

/-- `SocketAddr::new`, with which `endpoint_to_socket_addr` makes the address of a sender. -/
def PeerAddr.new (addr : SocketAddr) : PeerAddr :=
  ⟨addr.ip, addr.port, 0, 0, fun _ ↦ ⟨rfl, rfl⟩⟩

/-- A datagram in the queue of the socket in user space. -/
structure Datagram where
  sender : SocketAddr
  data : List UInt8

/-- What `recv_slice` and `peek_slice` return for a buffer of `len` bytes: what fits in it. -/
def Datagram.read (d : Datagram) (len : ℕ) : List UInt8 × SocketAddr := (d.data.take len, d.sender)

/-- The kinds of error are those of the standard library; the code of `EAGAIN` is 11. -/
def IoError.isWouldBlock : IoError → Bool
  | .wouldBlock _ => true
  | .os code => code == 11
  | _ => false

/-- What happens while a call waits. -/
structure UdpWait where
  arrivals : List Datagram
  timedOut : Bool
  /-- What `lo` answers if it is asked after the wait. -/
  lo : Except IoError (List UInt8 × SocketAddr)

/-- The fields of a `UdpSocket` that a receive reads. -/
structure UdpReceiver where
  socketHandle : Option SocketHandle
  connected : Option PeerAddr
  nonblocking : Bool
  hasTimeout : Bool

/-- A call under way: the queue of the socket in user space, what `lo` answers if it is asked now,
and the waits to come. -/
structure UdpReceiving where
  queue : List Datagram
  lo : Except IoError (List UInt8 × SocketAddr)
  waits : List UdpWait

/-- How one turn of the loop ends. -/
inductive UdpTurn where
  /-- The call returns with a datagram of the queue, and leaves the queue behind. -/
  | received (d : Datagram) (queue : List Datagram)
  /-- The call returns with the answer of the kernel. -/
  | kernel (r : Except IoError (List UInt8 × SocketAddr))
  /-- The call returns with `WouldBlock`. -/
  | wouldBlock
  /-- The next turn, without a wait. -/
  | again (queue : List Datagram)
  /-- The lock is given up in a wait. -/
  | wait

/-- How a call ends, with the queue that it leaves. A call is left waiting when nothing more
happens. -/
inductive UdpEnd where
  | received (bytes : List UInt8) (sender : SocketAddr) (queue : List Datagram)
  | kernel (r : Except IoError (List UInt8 × SocketAddr)) (queue : List Datagram)
  | wouldBlock (queue : List Datagram)
  | waiting

namespace UdpEnd

/-- What the call returns. -/
def result : UdpEnd → Option (Except IoError (List UInt8 × SocketAddr))
  | received bytes sender _ => some (.ok (bytes, sender))
  | kernel r _ => some r
  | wouldBlock _ => some (.error (.wouldBlock "recv not ready"))
  | waiting => none

end UdpEnd

namespace PeerAddr

variable (c : PeerAddr) (sender : SocketAddr)

/-- The condition under which the loop passes over a datagram. -/
def passesOver : Bool :=
  PeerAddr.new sender != c && !(c.ip.isUnspecified && c.port == 0) &&
    !(c.ip.isUnspecified && sender.port == c.port) && !(c.port == 0 && c.ip == sender.ip)

/-- The sender matches the connected address, where an unspecified address and the port zero stand
for any. -/
def Matches : Prop :=
  (c.ip.isUnspecified = true ∨ c.ip = sender.ip) ∧ (c.port = 0 ∨ c.port = sender.port)

/-- The fields that only an IPv6 address has do not count: they are zero, or the addresses are not
compared as a whole. -/
def Plain : Prop :=
  c.ip.isUnspecified = true ∨ c.port = 0 ∨ c.flowinfo = 0 ∧ c.scopeId = 0

end PeerAddr

namespace UdpReceiver

variable (u : UdpReceiver) (len : ℕ)

/-- Whether `peek_or_recv_from` does nothing but ask `lo`. -/
def straightToLo : Bool :=
  u.socketHandle.isNone ||
    match u.connected with
    | some addr => addr.ip.isLoopback
    | none => false

/-- One turn of the loop. -/
def turn (recv : Bool) (lo : Except IoError (List UInt8 × SocketAddr)) : List Datagram → UdpTurn
  | d :: rest =>
    -- `recv_slice` removes the datagram, `peek_slice` does not
    let queue := if recv then rest else d :: rest
    match u.connected with
    | some c => if c.passesOver d.sender then .again queue else .received d queue
    | none => .received d queue
  | [] =>
    match u.connected, lo with
    | none, .ok r => .kernel (.ok r)
    | none, .error e =>
      if !e.isWouldBlock then .kernel (.error e)
      else if u.nonblocking then .wouldBlock
      else .wait
    | some _, _ => if u.nonblocking then .wouldBlock else .wait

/-- One turn of the loop, with the wait at its end. -/
def body (recv : Bool) (s : UdpReceiving) : Outcome IoError (UdpReceiving ⊕ UdpEnd) :=
  match u.turn recv s.lo s.queue with
  | .received d queue => .ok (.inr (.received (d.read len).1 (d.read len).2 queue))
  | .kernel r => .ok (.inr (.kernel r s.queue))
  | .wouldBlock => .ok (.inr (.wouldBlock s.queue))
  | .again queue => .ok (.inl { s with queue := queue })
  | .wait =>
    match s.waits with
    | [] => .ok (.inr .waiting)
    | w :: waits =>
      -- whatever has arrived during a wait that times out is not looked at
      if u.hasTimeout && w.timedOut then .ok (.inr (.wouldBlock (s.queue ++ w.arrivals)))
      else .ok (.inl ⟨s.queue ++ w.arrivals, w.lo, waits⟩)

/-- `peek_or_recv_from`. -/
def peekOrRecvFrom (recv : Bool) (s : UdpReceiving) (n : ℕ) : Outcome IoError UdpEnd :=
  if u.straightToLo then .ok (.kernel s.lo s.queue)
  else Outcome.loop (u.body len recv) n s

def recvFrom : UdpReceiving → ℕ → Outcome IoError UdpEnd := u.peekOrRecvFrom len true

def peekFrom : UdpReceiving → ℕ → Outcome IoError UdpEnd := u.peekOrRecvFrom len false

/-- `UdpSocket::recv`, which returns the length only. -/
def recv (s : UdpReceiving) (n : ℕ) : Outcome IoError UdpEnd :=
  if u.connected.isNone then .err (.invalidInput "not connected") else u.recvFrom len s n

/-- `UdpSocket::peek`. -/
def peek (s : UdpReceiving) (n : ℕ) : Outcome IoError UdpEnd :=
  if u.connected.isNone then .err (.invalidInput "not connected") else u.peekFrom len s n

end UdpReceiver

/-! ## The filter -/

theorem PeerAddr.passesOver_eq_false_iff (c : PeerAddr) (sender : SocketAddr) :
    c.passesOver sender = false ↔ c.Matches sender ∧ c.Plain := by
  have hpass : c.passesOver sender = false ↔
      (sender.ip = c.ip ∧ sender.port = c.port ∧ c.flowinfo = 0 ∧ c.scopeId = 0) ∨
      (c.ip.isUnspecified = true ∧ c.port = 0) ∨
      (c.ip.isUnspecified = true ∧ sender.port = c.port) ∨ (c.port = 0 ∧ c.ip = sender.ip) := by
    have hnew : PeerAddr.new sender = c ↔
        sender.ip = c.ip ∧ sender.port = c.port ∧ c.flowinfo = 0 ∧ c.scopeId = 0 := by
      obtain ⟨ip, port, flowinfo, scopeId, hv4⟩ := c
      simp only [PeerAddr.new, PeerAddr.mk.injEq]
      constructor
      · rintro ⟨hip, hport, hflow, hscope⟩
        exact ⟨hip, hport, hflow.symm, hscope.symm⟩
      · rintro ⟨hip, hport, hflow, hscope⟩
        exact ⟨hip, hport, hflow.symm, hscope.symm⟩
    rw [← hnew]
    simp only [passesOver, Bool.and_eq_false_iff, bne_eq_false_iff_eq, Bool.not_eq_false',
      Bool.and_eq_true, beq_iff_eq, or_assoc]
  rw [hpass, Matches, Plain]
  constructor
  · rintro (⟨hip, hport, hplain⟩ | ⟨hany, hport⟩ | ⟨hany, hport⟩ | ⟨hport, hip⟩)
    · exact ⟨⟨Or.inr hip.symm, Or.inr hport.symm⟩, Or.inr (Or.inr hplain)⟩
    · exact ⟨⟨Or.inl hany, Or.inl hport⟩, Or.inl hany⟩
    · exact ⟨⟨Or.inl hany, Or.inr hport.symm⟩, Or.inl hany⟩
    · exact ⟨⟨Or.inr hip, Or.inl hport⟩, Or.inr (Or.inl hport)⟩
  · rintro ⟨⟨hany | hip, hzero | hport⟩, hplain⟩
    · exact Or.inr (Or.inl ⟨hany, hzero⟩)
    · exact Or.inr (Or.inr (Or.inl ⟨hany, hport.symm⟩))
    · exact Or.inr (Or.inr (Or.inr ⟨hzero, hip⟩))
    · obtain hany | hzero | hplain := hplain
      · exact Or.inr (Or.inr (Or.inl ⟨hany, hport.symm⟩))
      · exact Or.inr (Or.inr (Or.inr ⟨hzero, hip⟩))
      · exact Or.inl ⟨hip.symm, hport.symm, hplain⟩

namespace UdpReceiver

open Outcome

variable {u : UdpReceiver} {len : ℕ} {s : UdpReceiving}

/-- The datagram is one for this socket. -/
def Accepts (u : UdpReceiver) (d : Datagram) : Prop :=
  ∀ c, u.connected = some c → c.Matches d.sender ∧ c.Plain

theorem turn_cons_of_accepts {d : Datagram} (hd : u.Accepts d) (recv : Bool)
    (lo : Except IoError (List UInt8 × SocketAddr)) (rest : List Datagram) :
    u.turn recv lo (d :: rest) = .received d (if recv then rest else d :: rest) := by
  cases hc : u.connected with
  | none => simp [turn, hc]
  | some c => simp [turn, hc, (c.passesOver_eq_false_iff d.sender).mpr (hd c hc)]

theorem turn_cons_of_not_accepts {d : Datagram} (hd : ¬u.Accepts d) (recv : Bool)
    (lo : Except IoError (List UInt8 × SocketAddr)) (rest : List Datagram) :
    u.turn recv lo (d :: rest) = .again (if recv then rest else d :: rest) := by
  cases hc : u.connected with
  | none => exact absurd (fun c hc' ↦ absurd (hc.symm.trans hc') (by simp)) hd
  | some c =>
    have hpasses : c.passesOver d.sender = true := by
      rw [← Bool.not_eq_false, c.passesOver_eq_false_iff]
      intro hmatch
      refine hd fun c' hc' ↦ ?_
      rwa [← Option.some.inj (hc.symm.trans hc')]
    simp [turn, hc, hpasses]

theorem turn_nil_cases (u : UdpReceiver) (recv : Bool)
    (lo : Except IoError (List UInt8 × SocketAddr)) :
    (∃ r, u.connected = none ∧ u.turn recv lo [] = .kernel r) ∨
    (u.nonblocking = true ∧ u.turn recv lo [] = .wouldBlock) ∨
    (u.nonblocking = false ∧ u.turn recv lo [] = .wait) := by
  cases hc : u.connected with
  | some c => cases hnb : u.nonblocking <;> simp [turn, hc, hnb]
  | none =>
    cases lo with
    | ok r => exact Or.inl ⟨.ok r, rfl, by simp [turn, hc]⟩
    | error e =>
      cases he : e.isWouldBlock with
      | false => exact Or.inl ⟨.error e, rfl, by simp [turn, hc, he]⟩
      | true => cases hnb : u.nonblocking <;> simp [turn, hc, he, hnb]

/-- With an empty queue the two modes do the same. -/
theorem body_nil (recv : Bool) (lo : Except IoError (List UInt8 × SocketAddr))
    (waits : List UdpWait) :
    u.body len recv ⟨[], lo, waits⟩ = u.body len true ⟨[], lo, waits⟩ := rfl

theorem body_of_accepts {d : Datagram} (hd : u.Accepts d) (recv : Bool)
    (lo : Except IoError (List UInt8 × SocketAddr)) (rest : List Datagram)
    (waits : List UdpWait) : u.body len recv ⟨d :: rest, lo, waits⟩ =
      .ok (.inr (.received (d.read len).1 (d.read len).2 (if recv then rest else d :: rest))) := by
  rw [body, turn_cons_of_accepts hd]

theorem body_of_not_accepts {d : Datagram} (hd : ¬u.Accepts d) (recv : Bool)
    (lo : Except IoError (List UInt8 × SocketAddr)) (rest : List Datagram)
    (waits : List UdpWait) : u.body len recv ⟨d :: rest, lo, waits⟩ =
      .ok (.inl ⟨if recv then rest else d :: rest, lo, waits⟩) := by
  rw [body, turn_cons_of_not_accepts hd]

/-- **What a turn does with an empty queue.** It returns what the kernel says, if the socket is not
connected; or it returns with `WouldBlock`; or it waits, until nothing more happens, until the
timeout, or until it is woken. -/
theorem body_nil_cases (u : UdpReceiver) (len : ℕ) (lo : Except IoError (List UInt8 × SocketAddr))
    (waits : List UdpWait) :
    (∃ r, u.connected = none ∧ u.body len true ⟨[], lo, waits⟩ = .ok (.inr (.kernel r []))) ∨
    (u.nonblocking = true ∧ u.body len true ⟨[], lo, waits⟩ = .ok (.inr (.wouldBlock []))) ∨
    (u.nonblocking = false ∧ waits = [] ∧ u.body len true ⟨[], lo, waits⟩ = .ok (.inr .waiting)) ∨
    ∃ w rest, u.nonblocking = false ∧ waits = w :: rest ∧
      ((u.hasTimeout = true ∧ w.timedOut = true ∧
        u.body len true ⟨[], lo, waits⟩ = .ok (.inr (.wouldBlock w.arrivals))) ∨
      ((u.hasTimeout && w.timedOut) = false ∧
        u.body len true ⟨[], lo, waits⟩ = .ok (.inl ⟨w.arrivals, w.lo, rest⟩))) := by
  obtain ⟨r, hc, hr⟩ | ⟨hnb, hw⟩ | ⟨hnb, hw⟩ := turn_nil_cases u true lo
  · exact Or.inl ⟨r, hc, by simp only [body, hr]⟩
  · exact Or.inr (Or.inl ⟨hnb, by simp only [body, hw]⟩)
  · cases waits with
    | nil => exact Or.inr (Or.inr (Or.inl ⟨hnb, rfl, by simp only [body, hw]⟩))
    | cons w rest =>
      refine Or.inr (Or.inr (Or.inr ⟨w, rest, hnb, rfl, ?_⟩))
      cases htime : u.hasTimeout && w.timedOut with
      | true =>
        obtain ⟨hhas, hout⟩ := Bool.and_eq_true_iff.mp htime
        exact Or.inl ⟨hhas, hout, by simp [body, hw, htime]⟩
      | false => exact Or.inr ⟨rfl, by simp [body, hw, htime]⟩

theorem peekOrRecvFrom_eq_loop (hstraight : u.straightToLo = false) (len : ℕ) (recv : Bool)
    (s : UdpReceiving) : u.peekOrRecvFrom len recv s = fun n ↦ loop (u.body len recv) n s := by
  funext n
  rw [peekOrRecvFrom, hstraight]
  rfl

/-! ## A receive on a connected socket -/

/-- The datagrams that have come by the time the call has waited `k` times. -/
def seen (s : UdpReceiving) (k : ℕ) : List Datagram :=
  s.queue ++ (s.waits.take k).flatMap UdpWait.arrivals

/-- What a receive is for: the first datagram that is accepted, as soon as there is one. -/
inductive FirstAccepted (u : UdpReceiver) (len : ℕ) (s : UdpReceiving) : UdpEnd → Prop
  /-- The datagrams before it are gone, and those after it are left. -/
  | received {k : ℕ} {skipped rest : List Datagram} {d : Datagram}
      (hseen : seen s k = skipped ++ d :: rest) (hskipped : ∀ x ∈ skipped, ¬u.Accepts x)
      (hd : u.Accepts d) (hbefore : ∀ j < k, ∀ x ∈ seen s j, ¬u.Accepts x) :
      FirstAccepted u len s (.received (d.data.take len) d.sender rest)
  | nonblocking (h : u.nonblocking = true) (hnone : ∀ x ∈ s.queue, ¬u.Accepts x) :
      FirstAccepted u len s (.wouldBlock [])
  /-- What has arrived during the wait that times out is left as it is. -/
  | timedOut {k : ℕ} {w : UdpWait} (hw : s.waits[k]? = some w) (hhas : u.hasTimeout = true)
      (hout : w.timedOut = true) (hnone : ∀ x ∈ seen s k, ¬u.Accepts x) :
      FirstAccepted u len s (.wouldBlock w.arrivals)
  | waiting (h : u.nonblocking = false)
      (hnone : ∀ x ∈ seen s s.waits.length, ¬u.Accepts x) : FirstAccepted u len s .waiting

theorem seen_succ (queue : List Datagram) (lo : Except IoError (List UInt8 × SocketAddr))
    (w : UdpWait) (waits : List UdpWait) (k : ℕ) :
    seen ⟨queue, lo, w :: waits⟩ (k + 1) = queue ++ seen ⟨w.arrivals, w.lo, waits⟩ k := by
  simp [seen]

/-- A wait after which the call goes on. -/
theorem FirstAccepted.of_wait {queue : List Datagram}
    {lo : Except IoError (List UInt8 × SocketAddr)} {w : UdpWait} {waits : List UdpWait}
    {e : UdpEnd}
    (hnb : u.nonblocking = false) (hnone : ∀ x ∈ queue, ¬u.Accepts x)
    (h : FirstAccepted u len ⟨w.arrivals, w.lo, waits⟩ e) :
    FirstAccepted u len ⟨queue, lo, w :: waits⟩ e := by
  have hlater {k : ℕ} (hk : ∀ x ∈ seen ⟨w.arrivals, w.lo, waits⟩ k, ¬u.Accepts x) :
      ∀ x ∈ seen ⟨queue, lo, w :: waits⟩ (k + 1), ¬u.Accepts x := by
    intro x hx
    rw [seen_succ, List.mem_append] at hx
    exact hx.elim (hnone x) (hk x)
  cases h with
  | @received k skipped rest d hseen hskipped hd hbefore =>
    have hseen' : seen ⟨queue, lo, w :: waits⟩ (k + 1) = (queue ++ skipped) ++ d :: rest := by
      rw [seen_succ, hseen, List.append_assoc]
    refine .received hseen' ?_ hd ?_
    · intro x hx
      exact (List.mem_append.mp hx).elim (hnone x) (hskipped x)
    · intro j hj
      cases j with
      | zero => simpa [seen] using hnone
      | succ j => exact hlater (hbefore j (by omega))
  | nonblocking hyes _ => exact absurd (hnb.symm.trans hyes) (by simp)
  | @timedOut k w' hw hhas hout hnone' => exact .timedOut (k := k + 1) hw hhas hout (hlater hnone')
  | waiting _ hnone' => exact .waiting hnb (hlater hnone')

/-- The datagrams that are not accepted are passed over. -/
theorem returns_skipped {skipped : List Datagram} (hskipped : ∀ x ∈ skipped, ¬u.Accepts x)
    (queue : List Datagram) (lo : Except IoError (List UInt8 × SocketAddr)) (waits : List UdpWait)
    (e : UdpEnd) : Returns (fun n ↦ loop (u.body len true) n ⟨skipped ++ queue, lo, waits⟩) e ↔
      Returns (fun n ↦ loop (u.body len true) n ⟨queue, lo, waits⟩) e := by
  induction skipped with
  | nil => rfl
  | cons x skipped ih =>
    rw [List.forall_mem_cons] at hskipped
    rw [List.cons_append, returns_loop_iff_of_continue (body_of_not_accepts hskipped.1 true _ _ _)]
    exact ih hskipped.2

/-- A queue without a datagram that is accepted, or the first such datagram. -/
theorem first_accepted (u : UdpReceiver) (queue : List Datagram) :
    (∀ x ∈ queue, ¬u.Accepts x) ∨ ∃ skipped d rest, queue = skipped ++ d :: rest ∧
      (∀ x ∈ skipped, ¬u.Accepts x) ∧ u.Accepts d := by
  induction queue with
  | nil => exact Or.inl fun x hx ↦ absurd hx (by simp)
  | cons x queue ih =>
    by_cases hx : u.Accepts x
    · exact Or.inr ⟨[], x, queue, rfl, fun _ hno ↦ absurd hno (by simp), hx⟩
    · rcases ih with hnone | ⟨skipped, d, rest, rfl, hskipped, hd⟩
      · exact Or.inl (List.forall_mem_cons.mpr ⟨hx, hnone⟩)
      · exact Or.inr ⟨x :: skipped, d, rest, rfl, List.forall_mem_cons.mpr ⟨hx, hskipped⟩, hd⟩

/-- One look at the queue: the call returns, or it waits with an empty queue. -/
private theorem returns_firstAccepted_of_rest {c : PeerAddr} (hc : u.connected = some c)
    (queue : List Datagram) (lo : Except IoError (List UInt8 × SocketAddr)) (waits : List UdpWait)
    (hrest : ∀ w rest, waits = w :: rest →
      ∃ e, Returns (fun n ↦ loop (u.body len true) n ⟨w.arrivals, w.lo, rest⟩) e ∧
        FirstAccepted u len ⟨w.arrivals, w.lo, rest⟩ e) :
    ∃ e, Returns (fun n ↦ loop (u.body len true) n ⟨queue, lo, waits⟩) e ∧
      FirstAccepted u len ⟨queue, lo, waits⟩ e := by
  rcases first_accepted u queue with hnone | ⟨skipped, d, rest, rfl, hskipped, hd⟩
  · have hskip (e : UdpEnd) : Returns (fun n ↦ loop (u.body len true) n ⟨queue, lo, waits⟩) e ↔
        Returns (fun n ↦ loop (u.body len true) n ⟨[], lo, waits⟩) e := by
      simpa using returns_skipped hnone [] lo waits e
    obtain ⟨r, hno, -⟩ | ⟨hnb, hb⟩ | ⟨hnb, rfl, hb⟩ | ⟨w, rest, hnb, rfl, hw⟩ :=
      body_nil_cases u len lo waits
    · exact absurd (hc.symm.trans hno) (by simp)
    · refine ⟨_, (hskip _).mpr ((returns_loop_iff_of_break hb).mpr rfl), .nonblocking hnb hnone⟩
    · refine ⟨_, (hskip _).mpr ((returns_loop_iff_of_break hb).mpr rfl), .waiting hnb ?_⟩
      simpa [seen] using hnone
    · obtain ⟨hhas, hout, hb⟩ | ⟨-, hb⟩ := hw
      · refine ⟨_, (hskip _).mpr ((returns_loop_iff_of_break hb).mpr rfl),
          .timedOut (k := 0) rfl hhas hout ?_⟩
        simpa [seen] using hnone
      · obtain ⟨e, he, hfirst⟩ := hrest w rest rfl
        have hreturns := (hskip e).mpr ((returns_loop_iff_of_continue hb).mpr he)
        exact ⟨e, hreturns, hfirst.of_wait hnb hnone⟩
  · refine ⟨_, (returns_skipped hskipped _ lo waits _).mpr
      ((returns_loop_iff_of_break (body_of_accepts hd true lo rest waits)).mpr rfl),
      .received (k := 0) ?_ hskipped hd fun j hj ↦ absurd hj (by omega)⟩
    simp [seen]

theorem exists_returns_firstAccepted {c : PeerAddr} (hc : u.connected = some c) (len : ℕ)
    (queue : List Datagram) (lo : Except IoError (List UInt8 × SocketAddr)) (waits : List UdpWait) :
    ∃ e, Returns (fun n ↦ loop (u.body len true) n ⟨queue, lo, waits⟩) e ∧
      FirstAccepted u len ⟨queue, lo, waits⟩ e := by
  induction waits generalizing queue lo with
  | nil => exact returns_firstAccepted_of_rest hc queue lo [] fun w rest hno ↦ absurd hno (by simp)
  | cons w waits ih =>
    refine returns_firstAccepted_of_rest hc queue lo (w :: waits) fun w' rest he ↦ ?_
    obtain ⟨rfl, rfl⟩ := List.cons.inj he
    exact ih w.arrivals w.lo

theorem recv_of_connected {c : PeerAddr} (hc : u.connected = some c) (len : ℕ)
    (s : UdpReceiving) : u.recv len s = u.recvFrom len s := by
  funext n
  simp [recv, hc]

/-- **The filter of a connected socket.** On a socket that is connected to an address of another
host, `recv_from` and `recv` return the first datagram of the queue in user space that is accepted,
and never what the kernel has. -/
theorem recvFrom_connected {c : PeerAddr} (hhandle : u.socketHandle.isSome)
    (hc : u.connected = some c) (hlo : c.ip.isLoopback = false) (len : ℕ) (s : UdpReceiving) :
    (∃ e, Returns (u.recvFrom len s) e) ∧
    (∀ e, Returns (u.recvFrom len s) e → FirstAccepted u len s e) ∧
    u.recv len s = u.recvFrom len s := by
  have hstraight : u.straightToLo = false := by
    simp [straightToLo, hc, hlo, Option.isNone_eq_false_iff.mpr hhandle]
  have hloop : u.recvFrom len s = fun n ↦ loop (u.body len true) n s :=
    peekOrRecvFrom_eq_loop hstraight len true s
  obtain ⟨e, he, hfirst⟩ := exists_returns_firstAccepted hc len s.queue s.lo s.waits
  refine ⟨⟨e, by rwa [hloop]⟩, fun e' he' ↦ ?_, recv_of_connected hc len s⟩
  rw [hloop] at he'
  rwa [← (stable_loop s).returns_unique he he']

/-- A blocking socket with a timeout that is connected to `10.0.0.9:53`. -/
def connectedReceiver : UdpReceiver where
  socketHandle := some ⟨0, 0⟩
  connected := some (.new ⟨.v4 10 0 0 9, 53⟩)
  nonblocking := false
  hasTimeout := true

/-- A datagram of another sender is in front of one of the peer. -/
def strayFirst : UdpReceiving where
  queue := [⟨⟨.v4 10 0 0 7, 9⟩, [1]⟩, ⟨⟨.v4 10 0 0 9, 53⟩, [2]⟩]
  lo := .error (.os 11)
  waits := []

theorem recvFrom_connected_strayFirst :
    (∃ e, Returns (connectedReceiver.recvFrom 512 strayFirst) e) ∧
    (∀ e, Returns (connectedReceiver.recvFrom 512 strayFirst) e →
      FirstAccepted connectedReceiver 512 strayFirst e) ∧
    connectedReceiver.recv 512 strayFirst = connectedReceiver.recvFrom 512 strayFirst :=
  recvFrom_connected rfl rfl rfl 512 strayFirst

/-- `WouldBlock` is reported although a datagram of the peer is in the queue: it has arrived during
the wait that times out. And a datagram is discarded although its sender has the address and the
port of the peer: the scope of the connected address is not zero. -/
theorem not_recvFrom_connected :
    (Returns (connectedReceiver.recvFrom 512 ⟨[], .error (.os 11),
        [⟨[⟨⟨.v4 10 0 0 9, 53⟩, [2]⟩], true, .error (.os 11)⟩]⟩)
      (.wouldBlock [⟨⟨.v4 10 0 0 9, 53⟩, [2]⟩]) ∧
      (PeerAddr.new ⟨.v4 10 0 0 9, 53⟩).Matches ⟨.v4 10 0 0 9, 53⟩) ∧
    ∃ c : PeerAddr, c.Matches ⟨.v6 0xfe80 0 0 0 0 0 0 1, 53⟩ ∧
      Returns (recvFrom { connectedReceiver with connected := some c, nonblocking := true } 512
          ⟨[⟨⟨.v6 0xfe80 0 0 0 0 0 0 1, 53⟩, [2]⟩], .error (.os 11), []⟩)
        (.wouldBlock []) := by
  refine ⟨⟨⟨1, rfl⟩, Or.inr rfl, Or.inr rfl⟩, ?_⟩
  refine ⟨⟨.v6 0xfe80 0 0 0 0 0 0 1, 53, 0, 2, fun hno ↦ absurd hno (by decide)⟩, ?_, 2, rfl⟩
  exact ⟨Or.inr rfl, Or.inr rfl⟩

/-! ## Looking without taking -/

/-- The turns that a call gets to. -/
def Reaches (u : UdpReceiver) (len : ℕ) (recv : Bool) : UdpReceiving → UdpReceiving → Prop :=
  Relation.ReflTransGen fun s t ↦ u.body len recv s = .ok (.inl t)

/-- No turn of the loop goes on to the next one with the same queue and without a wait. -/
def Progresses (u : UdpReceiver) (len : ℕ) (recv : Bool) (s : UdpReceiving) : Prop :=
  u.straightToLo = false → ∀ t, u.Reaches len recv s t →
    ∀ queue, u.turn recv t.lo t.queue = .again queue → queue.length < t.queue.length

/-- The two calls return the same, and the second one leaves the datagram where it is. -/
def EndAlike (len : ℕ) (e e' : UdpEnd) : Prop :=
  e'.result = e.result ∧ ∀ bytes sender queue, e = .received bytes sender queue →
    ∃ d, d.read len = (bytes, sender) ∧ e' = .received bytes sender (d :: queue)

/-- The second call returns what the first one would, and leaves the datagram where it is. -/
def LooksAhead (len : ℕ) (recv peek : ℕ → Outcome IoError UdpEnd) : Prop :=
  (∀ err, (∃ n, recv n = .err err) → ∃ n, peek n = .err err) ∧
  ∀ e, Returns recv e → ∃ e', Returns peek e' ∧ EndAlike len e e'

/-- The first datagram that a call on a connected socket finds in the queue: when it begins, or
after a wait. -/
def firstFound (u : UdpReceiver) : List Datagram → List UdpWait → Option Datagram
  | d :: _, _ => some d
  | [], [] => none
  | [], w :: waits =>
    if u.nonblocking || u.hasTimeout && w.timedOut then none else u.firstFound w.arrivals waits

/-- A call that uses the queue finds a datagram for this socket first, if it finds one. -/
def Clear (u : UdpReceiver) (s : UdpReceiving) : Prop :=
  u.straightToLo = false → ∀ d, u.firstFound s.queue s.waits = some d → u.Accepts d

theorem turn_nil_ne_again (u : UdpReceiver) (recv : Bool)
    (lo : Except IoError (List UInt8 × SocketAddr)) (queue : List Datagram) :
    u.turn recv lo [] ≠ .again queue := by
  obtain ⟨r, -, h⟩ | ⟨-, h⟩ | ⟨-, h⟩ := turn_nil_cases u recv lo <;> simp [h]

/-- A turn that goes on without a wait has passed over a datagram. -/
theorem turn_eq_again {recv : Bool} {lo : Except IoError (List UInt8 × SocketAddr)}
    {queue queue' : List Datagram} (h : u.turn recv lo queue = .again queue') :
    ∃ d rest, queue = d :: rest ∧ ¬u.Accepts d ∧ queue' = if recv then rest else d :: rest := by
  cases queue with
  | nil => exact absurd h (turn_nil_ne_again u recv lo queue')
  | cons d rest =>
    have hd : ¬u.Accepts d := by
      intro hd
      exact absurd ((turn_cons_of_accepts hd recv lo rest).symm.trans h) (by simp)
    refine ⟨d, rest, rfl, hd, ?_⟩
    exact (UdpTurn.again.inj ((turn_cons_of_not_accepts hd recv lo rest).symm.trans h)).symm

/-- Taking datagrams uses up the queue. -/
theorem progresses_recv (u : UdpReceiver) (len : ℕ) (s : UdpReceiving) :
    u.Progresses len true s := by
  intro _ t _ queue hagain
  obtain ⟨d, rest, hqueue, -, rfl⟩ := turn_eq_again hagain
  simp [hqueue]

theorem firstFound_cons (u : UdpReceiver) (d : Datagram) (rest : List Datagram)
    (waits : List UdpWait) : u.firstFound (d :: rest) waits = some d := by
  rw [firstFound]

theorem firstFound_of_wait {w : UdpWait} {waits : List UdpWait} (hnb : u.nonblocking = false)
    (htime : (u.hasTimeout && w.timedOut) = false) :
    u.firstFound [] (w :: waits) = u.firstFound w.arrivals waits := by
  simp [firstFound, hnb, htime]

/-- As long as the call has not found a datagram of another sender, it looks on. -/
theorem Clear.continue {t : UdpReceiving} (hstraight : u.straightToLo = false) (h : u.Clear s)
    (hbody : u.body len false s = .ok (.inl t)) : u.Clear t := by
  obtain ⟨queue, lo, waits⟩ := s
  cases queue with
  | cons d rest =>
    have hd := h hstraight d (firstFound_cons u d rest waits)
    exact absurd ((body_of_accepts hd false lo rest waits).symm.trans hbody) (by simp)
  | nil =>
    rw [body_nil] at hbody
    obtain ⟨r, -, hb⟩ | ⟨-, hb⟩ | ⟨-, -, hb⟩ | ⟨w, rest, hnb, rfl, ⟨-, -, hb⟩ | ⟨htime, hb⟩⟩ :=
      body_nil_cases u len lo waits
    · exact absurd (hb.symm.trans hbody) (by simp)
    · exact absurd (hb.symm.trans hbody) (by simp)
    · exact absurd (hb.symm.trans hbody) (by simp)
    · exact absurd (hb.symm.trans hbody) (by simp)
    · have ht : t = ⟨w.arrivals, w.lo, rest⟩ := by simpa using (hb.symm.trans hbody).symm
      intro _ d hd
      rw [ht] at hd
      exact h hstraight d ((firstFound_of_wait hnb htime).trans hd)

theorem Clear.progresses (h : u.Clear s) (len : ℕ) : u.Progresses len false s := by
  intro hstraight t hreach queue hagain
  have hclear : u.Clear t := by
    clear hagain
    induction hreach with
    | refl => exact h
    | tail _ hbody ih => exact ih.continue hstraight hbody
  obtain ⟨d, rest, hqueue, hd, -⟩ := turn_eq_again hagain
  exact absurd (hclear hstraight d (by rw [hqueue, firstFound_cons])) hd

/-- A call that finds a datagram of another sender gets to the turn in which it looks at it. -/
theorem exists_reaches_of_firstFound {d : Datagram} (hd : ¬u.Accepts d) (recv : Bool)
    (queue : List Datagram) (lo : Except IoError (List UInt8 × SocketAddr)) (waits : List UdpWait)
    (hfound : u.firstFound queue waits = some d) :
    ∃ t rest, u.Reaches len recv ⟨queue, lo, waits⟩ t ∧ t.queue = d :: rest := by
  induction waits generalizing queue lo with
  | nil =>
    cases queue with
    | nil => exact absurd hfound (by simp [firstFound])
    | cons d' rest =>
      rw [firstFound_cons, Option.some_inj] at hfound
      exact ⟨_, rest, .refl, by rw [hfound]⟩
  | cons w waits ih =>
    cases queue with
    | cons d' rest =>
      rw [firstFound_cons, Option.some_inj] at hfound
      exact ⟨_, rest, .refl, by rw [hfound]⟩
    | nil =>
      rw [firstFound] at hfound
      split at hfound
      · exact absurd hfound (by simp)
      · rename_i hgo
        rw [Bool.not_eq_true, Bool.or_eq_false_iff] at hgo
        -- a socket that is not connected accepts every datagram
        have hconn : u.connected ≠ none := by
          intro hno
          exact hd fun c hc ↦ absurd (hno.symm.trans hc) (by simp)
        obtain ⟨c, hc⟩ := Option.ne_none_iff_exists'.mp hconn
        have hbody : u.body len recv ⟨[], lo, w :: waits⟩ =
            .ok (.inl ⟨w.arrivals, w.lo, waits⟩) := by
          simp [body, turn, hc, hgo.1, hgo.2]
        obtain ⟨t, rest, hreach, ht⟩ := ih w.arrivals w.lo hfound
        exact ⟨t, rest, .head hbody hreach, ht⟩

theorem clear_of_progresses (h : u.Progresses len false s) : u.Clear s := by
  intro hstraight d hfound
  by_contra hd
  obtain ⟨t, rest, hreach, ht⟩ := exists_reaches_of_firstFound hd false s.queue s.lo s.waits hfound
  have hagain : u.turn false t.lo t.queue = .again t.queue := by
    rw [ht, turn_cons_of_not_accepts hd]
    rfl
  exact absurd (h hstraight t hreach t.queue hagain) (lt_irrefl _)

/-- A turn that ends both calls in the same way. -/
private theorem exists_ends_of_break {lo : Except IoError (List UInt8 × SocketAddr)}
    {waits : List UdpWait} {e : UdpEnd} (hb : u.body len true ⟨[], lo, waits⟩ = .ok (.inr e))
    (he : ∀ bytes sender queue, e ≠ .received bytes sender queue) :
    ∃ e e', Returns (fun n ↦ loop (u.body len true) n ⟨[], lo, waits⟩) e ∧
      Returns (fun n ↦ loop (u.body len false) n ⟨[], lo, waits⟩) e' ∧ EndAlike len e e' := by
  refine ⟨e, e, (returns_loop_iff_of_break hb).mpr rfl, ?_, rfl, ?_⟩
  · exact (returns_loop_iff_of_break ((body_nil false lo waits).trans hb)).mpr rfl
  · exact fun bytes sender queue hno ↦ absurd hno (he bytes sender queue)

private theorem exists_ends_of_rest (hstraight : u.straightToLo = false) (queue : List Datagram)
    (lo : Except IoError (List UInt8 × SocketAddr)) (waits : List UdpWait)
    (h : u.Clear ⟨queue, lo, waits⟩)
    (hrest : ∀ w rest, waits = w :: rest → u.Clear ⟨w.arrivals, w.lo, rest⟩ →
      ∃ e e', Returns (fun n ↦ loop (u.body len true) n ⟨w.arrivals, w.lo, rest⟩) e ∧
        Returns (fun n ↦ loop (u.body len false) n ⟨w.arrivals, w.lo, rest⟩) e' ∧
        EndAlike len e e') :
    ∃ e e', Returns (fun n ↦ loop (u.body len true) n ⟨queue, lo, waits⟩) e ∧
      Returns (fun n ↦ loop (u.body len false) n ⟨queue, lo, waits⟩) e' ∧ EndAlike len e e' := by
  cases queue with
  | cons d rest =>
    have hd := h hstraight d (firstFound_cons u d rest waits)
    refine ⟨_, _, (returns_loop_iff_of_break (body_of_accepts hd true lo rest waits)).mpr rfl,
      (returns_loop_iff_of_break (body_of_accepts hd false lo rest waits)).mpr rfl, rfl, ?_⟩
    intro bytes sender queue he
    simp only [if_true, UdpEnd.received.injEq] at he
    obtain ⟨rfl, rfl, rfl⟩ := he
    exact ⟨d, rfl, rfl⟩
  | nil =>
    obtain ⟨r, -, hb⟩ | ⟨-, hb⟩ | ⟨-, rfl, hb⟩ | ⟨w, rest, -, rfl, ⟨-, -, hb⟩ | ⟨-, hb⟩⟩ :=
      body_nil_cases u len lo waits
    · exact exists_ends_of_break hb (by simp)
    · exact exists_ends_of_break hb (by simp)
    · exact exists_ends_of_break hb (by simp)
    · exact exists_ends_of_break hb (by simp)
    · have hb' := (body_nil false lo (w :: rest)).trans hb
      obtain ⟨e, e', he, he', halike⟩ := hrest w rest rfl (h.continue hstraight hb')
      exact ⟨e, e', (returns_loop_iff_of_continue hb).mpr he,
        (returns_loop_iff_of_continue hb').mpr he', halike⟩

/-- A call that takes and a call that looks end alike. -/
theorem Clear.exists_ends (hstraight : u.straightToLo = false) (len : ℕ) (queue : List Datagram)
    (lo : Except IoError (List UInt8 × SocketAddr)) (waits : List UdpWait)
    (h : u.Clear ⟨queue, lo, waits⟩) :
    ∃ e e', Returns (fun n ↦ loop (u.body len true) n ⟨queue, lo, waits⟩) e ∧
      Returns (fun n ↦ loop (u.body len false) n ⟨queue, lo, waits⟩) e' ∧ EndAlike len e e' := by
  induction waits generalizing queue lo with
  | nil =>
    exact exists_ends_of_rest hstraight queue lo [] h fun w rest hno ↦ absurd hno (by simp)
  | cons w waits ih =>
    refine exists_ends_of_rest hstraight queue lo (w :: waits) h fun w' rest he hclear ↦ ?_
    obtain ⟨rfl, rfl⟩ := List.cons.inj he
    exact ih w.arrivals w.lo hclear

theorem Clear.looksAhead (h : u.Clear s) (len : ℕ) :
    LooksAhead len (u.recvFrom len s) (u.peekFrom len s) := by
  cases hstraight : u.straightToLo with
  | true =>
    have hlo (recv : Bool) : u.peekOrRecvFrom len recv s = fun _ ↦ .ok (.kernel s.lo s.queue) := by
      funext n
      rw [peekOrRecvFrom, hstraight]
      rfl
    rw [recvFrom, peekFrom, hlo, hlo]
    refine ⟨fun err herr ↦ absurd herr (by simp), fun e he ↦ ⟨e, he, rfl, ?_⟩⟩
    rintro bytes sender queue rfl
    exact absurd (returns_const_iff.mp he) (by simp)
  | false =>
    obtain ⟨e, e', he, he', halike⟩ := Clear.exists_ends hstraight len s.queue s.lo s.waits h
    rw [recvFrom, peekFrom, peekOrRecvFrom_eq_loop hstraight, peekOrRecvFrom_eq_loop hstraight]
    refine ⟨?_, fun e₁ he₁ ↦ ⟨e', he', ?_⟩⟩
    · intro err herr
      obtain ⟨n, hn⟩ := herr
      obtain ⟨m, hm⟩ := he
      have hsame : loop (u.body len true) n s = loop (u.body len true) m s :=
        (stable_loop s).eq_of_ne (by simp [hn]) (by simp [hm])
      exact absurd (hn.symm.trans (hsame.trans hm)) (by simp)
    · rwa [(stable_loop s).returns_unique he₁ he]

/-- **Peeking.** `peek_from` and `peek` return what `recv_from` and `recv` would, leave the datagram
where it is, and do not spin while they hold the lock of `StcpNet`, if and only if the first
datagram that the call finds is one for this socket. -/
theorem peek_agrees_iff (u : UdpReceiver) (len : ℕ) (s : UdpReceiving) :
    (LooksAhead len (u.recvFrom len s) (u.peekFrom len s) ∧
      LooksAhead len (u.recv len s) (u.peek len s) ∧ ∀ recv, u.Progresses len recv s) ↔
    u.Clear s := by
  constructor
  · rintro ⟨-, -, hprogress⟩
    exact clear_of_progresses (hprogress false)
  · intro h
    refine ⟨h.looksAhead len, ?_, ?_⟩
    · cases hc : u.connected with
      | none =>
        have hrecv : u.recv len s = fun _ ↦ .err (.invalidInput "not connected") := by
          funext n
          simp [UdpReceiver.recv, hc]
        have hpeek : u.peek len s = fun _ ↦ .err (.invalidInput "not connected") := by
          funext n
          simp [peek, hc]
        rw [hrecv, hpeek]
        exact ⟨fun err herr ↦ herr, fun e he ↦ absurd (returns_const_iff.mp he) (by simp)⟩
      | some c =>
        have hpeek : u.peek len s = u.peekFrom len s := by
          funext n
          simp [peek, hc]
        rw [recv_of_connected hc, hpeek]
        exact h.looksAhead len
    · intro recv
      cases recv with
      | false => exact h.progresses len
      | true => exact progresses_recv u len s

/-- The datagram of the other sender stays in front of the queue, and `peek_from` looks at it for
ever, while `recv_from` gets to the datagram behind it. -/
theorem not_peek_agrees :
    Returns (connectedReceiver.recvFrom 512 strayFirst) (.received [2] ⟨.v4 10 0 0 9, 53⟩ []) ∧
    Fails .diverges (connectedReceiver.peekFrom 512 strayFirst) ∧
    ¬connectedReceiver.Progresses 512 false strayFirst := by
  have hbody : connectedReceiver.body 512 false strayFirst = .ok (.inl strayFirst) := rfl
  refine ⟨⟨2, rfl⟩, ?_, ?_⟩
  · intro n
    by_contra hhalts
    exact not_halts_of_invariant (I := (· = strayFirst))
      (fun t ht ↦ ⟨strayFirst, ht ▸ hbody, rfl⟩) rfl ⟨n, hhalts⟩
  · intro h
    exact absurd (h rfl strayFirst .refl strayFirst.queue rfl) (lt_irrefl _)

end UdpReceiver

end UsnetSockets
