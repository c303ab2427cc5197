import UsnetSockets.Net.Objects
import UsnetSockets.Transition.First

/-!
# What `bind` does and what it leaves behind

`TcpListener::bind` and `UdpSocket::bind` ask three parties for a port: the kernel, for the loopback
interface, then usnetd, and at last the stack in user space, which is given sockets. Two questions
about that are answered here. Without a port in the address, ports are drawn until one is free:
which draw decides how the call ends? And when the call fails, has it left something behind?

The transition system takes a call of `bind` as one change of the state. Here the call is followed
through `StcpNet` address by address, in the order of the source, with the error that it returns.
The singlethread API has a `bind` of its own, which asks the three parties in another order.
-/

namespace UsnetSockets

variable {T : Smoltcp}

/-! ## The multithread API -/

/-- What `bind` or `bind_udp` does with one address: `continue` with the error in `r`, or
`return`. -/
inductive BindPass (α : Type) where
  | next (e : IoError)
  | done (res : Except IoError α)

namespace StcpNet

variable {α : Type}

/-- One address. `onLoopback` is what is returned for an address that is the kernel's alone,
`openSockets` makes the sockets of the stack. `none` if the call panics or is not over. -/
def bindPass (onLoopback : UInt16 → Fd → α)
    (openSockets : UInt16 → Fd → StcpNet T → Option (α × StcpNet T)) (b : BindAddr)
    (net : StcpNet T) : Option (BindPass α × StcpNet T) :=
  match bindAddr b.addr b.attempts b.setNonblocking with
  | none => none
  | some (.next e) => some (.next e, net)
  | some (.leave e) => some (.done (.error e), net)
  | some (.loopback port lo) => some (.done (.ok (onLoopback port lo)), net)
  | some (.registered port lo) =>
    match openSockets port lo { net with fdsAdd := net.fdsAdd ++ [lo] } with
    | none => none
    | some (x, net) => some (.done (.ok x), net)

/-- The loop over the addresses, with the error `r` of the last one. -/
def bindWith (onLoopback : UInt16 → Fd → α)
    (openSockets : UInt16 → Fd → StcpNet T → Option (α × StcpNet T)) :
    List BindAddr → IoError → StcpNet T → Option (Except IoError α × StcpNet T)
  | [], r, net => some (.error r, net)
  | b :: bs, _, net =>
    match bindPass onLoopback openSockets b net with
    | none => none
    | some (.next e, net) => bindWith onLoopback openSockets bs e net
    | some (.done res, net) => some (res, net)

/-- The loop of `bind` that fills the backlog, and the listener. -/
def openTcp (cfg : Config) (slots : List ℕ) (port : UInt16) (lo : Fd) (net : StcpNet T) :
    Option (StcpListener × StcpNet T) :=
  if slots.length ≠ cfg.socketBacklog then none
  else
    match T.listen (T.newTcp cfg.socketBufferSize) port with
    | none => none
    | some socket =>
      match net.sockets.addBacklog socket slots with
      | none => none
      | some (hs, sockets) =>
        some (⟨some hs, lo, port, none, false, .idle⟩, { net with sockets := sockets })

/-- `StcpNetRef::bind`. The addresses are the result of `usnet_to_socket_addrs`, and `slots` is
where the `SocketSet` puts the sockets of the backlog. -/
def bind (cfg : Config) (addrs : Except IoError (List BindAddr)) (slots : List ℕ)
    (net : StcpNet T) : Option (Except IoError StcpListener × StcpNet T) :=
  match addrs with
  | .error e => some (.error e, net)
  | .ok addrs =>
    bindWith (fun port lo ↦ ⟨none, lo, port, none, false, .idle⟩) (openTcp cfg slots) addrs
      emptyAddrs net

/-- The UDP socket of the stack, and the one that is returned. -/
def openUdp (cfg : Config) (slot : ℕ) (port : UInt16) (lo : Fd) (net : StcpNet T) :
    Option (UdpSocket × StcpNet T) :=
  match T.bindUdp (T.newUdp cfg.socketBufferSize) port with
  | none => none
  | some socket =>
    match net.sockets.add slot (.inr socket) with
    | none => none
    | some (h, sockets) => some (⟨some h, lo, true⟩, { net with sockets := sockets })

/-- `StcpNetRef::bind_udp`. -/
def bindUdp (cfg : Config) (addrs : Except IoError (List BindAddr)) (slot : ℕ) (net : StcpNet T) :
    Option (Except IoError UdpSocket × StcpNet T) :=
  match addrs with
  | .error e => some (.error e, net)
  | .ok addrs =>
    bindWith (fun _ lo ↦ ⟨none, lo, false⟩) (openUdp cfg slot) addrs emptyAddrs net

/-! The loop over the addresses does what `bindAddrs` says, and then makes the sockets. -/

variable {onLoopback : UInt16 → Fd → α}
  {openSockets : UInt16 → Fd → StcpNet T → Option (α × StcpNet T)} {net net' : StcpNet T}

theorem bindWith_eq (addrs : List BindAddr) (r : IoError) :
    bindWith onLoopback openSockets addrs r net =
      match bindAddrs addrs r with
      | none | some (.next _) => none
      | some (.leave e) => some (.error e, net)
      | some (.loopback port lo) => some (.ok (onLoopback port lo), net)
      | some (.registered port lo) =>
        (openSockets port lo { net with fdsAdd := net.fdsAdd ++ [lo] }).map fun p ↦
          (.ok p.1, p.2) := by
  induction addrs generalizing r with
  | nil => rfl
  | cons b bs ih =>
    rw [bindWith, bindAddrs, bindPass]
    cases bindAddr b.addr b.attempts b.setNonblocking with
    | none => rfl
    | some res =>
      cases res with
      | next e => exact ih e
      | leave e => rfl
      | loopback port lo => rfl
      | registered port lo =>
        dsimp only
        cases openSockets port lo { net with fdsAdd := net.fdsAdd ++ [lo] } with
        | none => rfl
        | some p => rfl

theorem eq_of_bindWith_error {addrs : List BindAddr} {r e : IoError}
    (h : bindWith onLoopback openSockets addrs r net = some (.error e, net')) : net' = net := by
  rw [bindWith_eq] at h
  split at h
  · exact absurd h (by simp)
  · exact absurd h (by simp)
  · simp only [Option.some.injEq, Prod.mk.injEq] at h
    exact h.2.symm
  · exact absurd h (by simp)
  · simp [Option.map_eq_some_iff] at h

end StcpNet

/-- The step `bind` of the system is this call, together with the listener that it returns. -/
theorem State.net_bind {cfg : Config} {s : State T} {addrs : List BindAddr} {slots : List ℕ}
    {c : Change T} (h : s.bind cfg addrs slots = some c) :
    ∃ res, s.net.bind cfg (.ok addrs) slots = some (res, (s.apply cfg c).net) ∧
      (s.apply cfg c).objects =
        s.objects ++ match res with
          | .ok l => [.listener l]
          | .error _ => [] := by
  rcases bind_cases h with ⟨e, hbind, rfl⟩ | ⟨port, lo, hbind, -, rfl⟩ |
    ⟨port, lo, socket, hs, sockets, hbind, -, hlen, hlisten, hadd, rfl⟩
  · refine ⟨.error e, ?_, (List.append_nil _).symm⟩
    simp [StcpNet.bind, StcpNet.bindWith_eq, hbind, apply, same, StcpNet.wake]
  · refine ⟨.ok ⟨none, lo, port, none, false, .idle⟩, ?_, rfl⟩
    simp [StcpNet.bind, StcpNet.bindWith_eq, hbind, apply, same, StcpNet.wake]
  · refine ⟨.ok ⟨some hs, lo, port, none, false, .idle⟩, ?_, rfl⟩
    simp [StcpNet.bind, StcpNet.bindWith_eq, hbind, StcpNet.openTcp, hlen, hlisten, hadd, apply,
      same, StcpNet.wake]

theorem State.net_bindUdp {cfg : Config} {s : State T} {addrs : List BindAddr} {slot : ℕ}
    {c : Change T} (h : s.bindUdp cfg addrs slot = some c) :
    ∃ res, s.net.bindUdp cfg (.ok addrs) slot = some (res, (s.apply cfg c).net) ∧
      (s.apply cfg c).objects =
        s.objects ++ match res with
          | .ok u => [.udp u]
          | .error _ => [] := by
  rw [State.bindUdp] at h
  split at h
  · exact absurd h (by simp)
  · exact absurd h (by simp)
  · next e hbind =>
    rw [← Option.some.inj h]
    refine ⟨.error e, ?_, (List.append_nil _).symm⟩
    simp [StcpNet.bindUdp, StcpNet.bindWith_eq, hbind, apply, same, StcpNet.wake]
  · next port lo hbind =>
    split at h
    · exact absurd h (by simp)
    · rw [← Option.some.inj h]
      refine ⟨.ok ⟨none, lo, false⟩, ?_, rfl⟩
      simp [StcpNet.bindUdp, StcpNet.bindWith_eq, hbind, apply, same, StcpNet.wake]
  · next port lo hbind =>
    split at h
    · exact absurd h (by simp)
    · split at h
      · exact absurd h (by simp)
      · next socket hsocket =>
        split at h
        · exact absurd h (by simp)
        · next x sockets hadd =>
          rw [← Option.some.inj h]
          refine ⟨.ok ⟨some x, lo, true⟩, ?_, rfl⟩
          simp [StcpNet.bindUdp, StcpNet.bindWith_eq, hbind, StcpNet.openUdp, hsocket, hadd, apply,
            same, StcpNet.wake]

/-! ## The search for a port -/

/-- The kernel accepts the port that was drawn. -/
def BindAttempt.Granted (a : BindAttempt) : Prop := isErr a.lo = false

/-- usnetd accepts it, or would if it were asked. -/
def BindAttempt.Agreed (a : BindAttempt) : Prop := isErr a.usnet = false

theorem bindLoop_of_ok {findRandom loopback : Bool} {v : BindVars} (hv : isErr v.loResult = false)
    (attempts : List BindAttempt) : bindLoop findRandom loopback attempts v = some v := by
  cases attempts with
  | nil => simp [bindLoop, hv]
  | cons a attempts => simp [bindLoop, hv]

theorem bindLoop_eq_some_iff {v w : BindVars} (hlo : isErr v.loResult)
    (husnet : isErr v.usnetResult) (attempts : List BindAttempt) :
    bindLoop true false attempts v = some w ↔
      ∃ n a, FirstAt BindAttempt.Granted attempts n a ∧ ⟨a.drawn.val, a.lo, a.usnet⟩ = w := by
  induction attempts generalizing v with
  | nil => simp [bindLoop, hlo, husnet, FirstAt.not_nil]
  | cons a attempts ih =>
    rw [bindLoop]
    simp only [hlo, husnet, Bool.true_or, Bool.and_self, if_true, Bool.not_false, Bool.and_true]
    cases ha : isErr a.lo with
    | true =>
      have hno : ¬a.Granted := by simp [BindAttempt.Granted, ha]
      rw [ih (by simpa using ha) (by simpa using husnet)]
      constructor
      · rintro ⟨n, a', hfirst, rfl⟩
        exact ⟨n + 1, a', FirstAt.cons_succ_iff.mpr ⟨hno, hfirst⟩, rfl⟩
      · rintro ⟨n, a', hfirst, rfl⟩
        rcases n with _ | n
        · obtain ⟨rfl, hyes⟩ := FirstAt.cons_zero_iff.mp hfirst
          exact absurd hyes hno
        · exact ⟨n, a', (FirstAt.cons_succ_iff.mp hfirst).2, rfl⟩
    | false =>
      have hyes : a.Granted := ha
      rw [bindLoop_of_ok (by simpa using ha)]
      simp only [Bool.not_false, if_true, Option.some.injEq]
      constructor
      · rintro rfl
        exact ⟨0, a, FirstAt.cons_zero_iff.mpr ⟨rfl, hyes⟩, rfl⟩
      · rintro ⟨n, a', hfirst, rfl⟩
        rcases n with _ | n
        · obtain ⟨rfl, -⟩ := FirstAt.cons_zero_iff.mp hfirst
          rfl
        · exact absurd hyes (FirstAt.cons_succ_iff.mp hfirst).1

/-- An address without a port, of the stack in user space. -/
structure SocketAddr.IsEphemeral (addr : SocketAddr) : Prop where
  isIpv6 : addr.ip.isIpv6 = false
  isLoopback : addr.ip.isLoopback = false
  port : addr.port = 0

namespace SocketAddr.IsEphemeral

variable {addr : SocketAddr} {attempts : List BindAttempt} {n : ℕ} {a : BindAttempt}

theorem bindAddr_of_firstAt (haddr : addr.IsEphemeral)
    (hfirst : FirstAt BindAttempt.Granted attempts n a) :
    ∃ lo, bindAddr addr attempts (.ok ()) = some (match a.usnet with
      | .ok _ => .registered a.drawn.val lo
      | .error e => .next e) := by
  have hloop := (bindLoop_eq_some_iff (v := ⟨0, .error (.other "uninit"), .error (.other "uninit")⟩)
    rfl rfl attempts).mpr ⟨n, a, hfirst, rfl⟩
  have hgranted := hfirst.2.1
  rw [BindAttempt.Granted] at hgranted
  cases hlo : a.lo with
  | error e => simp [hlo, isErr] at hgranted
  | ok lo =>
    refine ⟨lo, ?_⟩
    cases husnet : a.usnet with
    | error e =>
      simp [bindAddr, haddr.isIpv6, haddr.isLoopback, haddr.port, hloop, hlo, husnet]
    | ok u => simp [bindAddr, haddr.isIpv6, haddr.isLoopback, haddr.port, hloop, hlo, husnet]

theorem bindAddr_of_agreed (haddr : addr.IsEphemeral)
    (hfirst : FirstAt BindAttempt.Granted attempts n a) (ha : a.Agreed) :
    ∃ lo, bindAddr addr attempts (.ok ()) = some (.registered a.drawn.val lo) := by
  obtain ⟨lo, hbind⟩ := haddr.bindAddr_of_firstAt hfirst
  rw [BindAttempt.Agreed] at ha
  rcases husnet : a.usnet with e | u
  · simp [husnet, isErr] at ha
  · exact ⟨lo, by rw [hbind, husnet]⟩

theorem bindAddr_of_not_agreed (haddr : addr.IsEphemeral)
    (hfirst : FirstAt BindAttempt.Granted attempts n a) (ha : ¬a.Agreed) :
    ∃ e, bindAddr addr attempts (.ok ()) = some (.next e) := by
  obtain ⟨lo, hbind⟩ := haddr.bindAddr_of_firstAt hfirst
  rw [BindAttempt.Agreed] at ha
  rcases husnet : a.usnet with e | u
  · exact ⟨e, by rw [hbind, husnet]⟩
  · simp [husnet, isErr] at ha

theorem bindAddr_of_forall_not_granted (haddr : addr.IsEphemeral)
    (hno : ∀ n a, ¬FirstAt BindAttempt.Granted attempts n a) :
    bindAddr addr attempts (.ok ()) = none := by
  have hloop : bindLoop true false attempts
      ⟨0, .error (.other "uninit"), .error (.other "uninit")⟩ = none := by
    by_contra hsome
    obtain ⟨w, hw⟩ := Option.ne_none_iff_exists'.mp hsome
    obtain ⟨n, a, hfirst, -⟩ := (bindLoop_eq_some_iff rfl rfl attempts).mp hw
    exact hno n a hfirst
  simp [bindAddr, haddr.isIpv6, haddr.isLoopback, haddr.port, hloop]

end SocketAddr.IsEphemeral

/-- A call with the results of the first draws of an infinite sequence, on an address without a
port. The call of `set_nonblocking` succeeds. -/
def ephemeral (addr : SocketAddr) (draws : ℕ → BindAttempt) (m : ℕ) : BindAddr :=
  ⟨addr, (List.range m).map draws, .ok ()⟩

/-- The port is accepted by the kernel and by usnetd. -/
def BindAttempt.Free (a : BindAttempt) : Prop := a.Granted ∧ a.Agreed

/-- What is expected of the search for a port: the first port that both accept is the one, and a
port that one of them refuses is never an error. `bind` is the call after a number of draws, and
`HasPort` says what it means for its result to have a port. -/
structure FindsPort {α : Type} (draws : ℕ → BindAttempt)
    (bind : ℕ → Option (Except IoError α × StcpNet T)) (HasPort : UInt16 → α → StcpNet T → Prop) :
    Prop where
  ok : ∀ n, FirstIn BindAttempt.Free draws n →
    ∃ m x net', bind m = some (.ok x, net') ∧ HasPort (draws n).drawn.val x net'
  noError : ∀ m e net', bind m ≠ some (.error e, net')

/-- The first port that the kernel accepts is accepted by usnetd, if there is one. -/
def AgreedAtOnce (draws : ℕ → BindAttempt) : Prop :=
  ∀ n, FirstIn BindAttempt.Granted draws n → (draws n).Agreed

/-- The listener has the port, and so have the sockets of its backlog. -/
def StcpNet.ListensOn (cfg : Config) (slots : List ℕ) (net : StcpNet T) (port : UInt16)
    (l : StcpListener) (net' : StcpNet T) : Prop :=
  l.port = port ∧ ∃ socket hs, T.listen (T.newTcp cfg.socketBufferSize) port = some socket ∧
    net.sockets.addBacklog socket slots = some (hs, net'.sockets) ∧ l.listenHandles = some hs

/-- The socket of the stack is bound to the port. -/
def StcpNet.BoundTo (cfg : Config) (slot : ℕ) (net : StcpNet T) (port : UInt16) (u : UdpSocket)
    (net' : StcpNet T) : Prop :=
  ∃ socket h, T.bindUdp (T.newUdp cfg.socketBufferSize) port = some socket ∧
    net.sockets.add slot (.inr socket) = some (h, net'.sockets) ∧ u.socketHandle = some h

theorem SocketSet.exists_addBacklog (socket : T.Tcp) {slots : List ℕ} {S : SocketSet T}
    (hnodup : slots.Nodup) (hfree : ∀ slot ∈ slots, S.slots slot = none) :
    ∃ hs S', S.addBacklog socket slots = some (hs, S') := by
  induction slots generalizing S with
  | nil => exact ⟨[], S, rfl⟩
  | cons slot slots ih =>
    obtain ⟨hnotin, hnodup⟩ := List.nodup_cons.mp hnodup
    obtain ⟨hs, S', hadd⟩ := ih
      (S := ⟨Function.update S.slots slot (some ⟨S.added, 1, .inl socket⟩),
        max S.size (slot + 1), S.added + 1⟩) hnodup (by
        intro other hother
        have hne : other ≠ slot := fun heq ↦ hnotin (heq ▸ hother)
        exact (Function.update_of_ne hne _ _).trans (hfree other (List.mem_cons_of_mem _ hother)))
    exact ⟨⟨slot, S.added⟩ :: hs, S',
      by simp [addBacklog, add, hfree slot List.mem_cons_self, hadd]⟩

section

variable {α : Type} {onLoopback : UInt16 → Fd → α}
  {openSockets : UInt16 → Fd → StcpNet T → Option (α × StcpNet T)} {net : StcpNet T}

theorem findsPort_iff {addr : SocketAddr} (haddr : addr.IsEphemeral) (r : IoError)
    {HasPort : UInt16 → α → StcpNet T → Prop} (draws : ℕ → BindAttempt)
    (hopen : ∀ port : RandomPort, ∀ lo, ∃ x net',
      openSockets port.val lo { net with fdsAdd := net.fdsAdd ++ [lo] } = some (x, net') ∧
        HasPort port.val x net') :
    FindsPort draws
        (fun m ↦ StcpNet.bindWith onLoopback openSockets [ephemeral addr draws m] r net) HasPort ↔
      AgreedAtOnce draws := by
  constructor
  · intro h n hfirst
    by_contra hno
    obtain ⟨e, hbind⟩ := haddr.bindAddr_of_not_agreed
      (firstAt_map_range_iff.mpr ⟨n.lt_succ_self, rfl, hfirst⟩) hno
    refine h.noError (n + 1) e net ?_
    simp only [StcpNet.bindWith_eq, bindAddrs, ephemeral]
    rw [hbind]
  · intro hagreed
    refine ⟨?_, ?_⟩
    · intro n hfree
      -- the first port that both accept is the first one that the kernel accepts
      obtain ⟨j, hj, hfirst⟩ := FirstIn.exists_le hfree.1.1
      have hbound := hagreed j hfirst
      obtain rfl : j = n := by
        by_contra hne
        exact hfree.2 j (lt_of_le_of_ne hj hne) ⟨hfirst.1, hbound⟩
      obtain ⟨lo, hbind⟩ := haddr.bindAddr_of_agreed
        (firstAt_map_range_iff.mpr ⟨j.lt_succ_self, rfl, hfirst⟩) hbound
      obtain ⟨x, net', hx, hport⟩ := hopen (draws j).drawn lo
      refine ⟨j + 1, x, net', ?_, hport⟩
      simp only [StcpNet.bindWith_eq, bindAddrs, ephemeral]
      rw [hbind]
      simp [hx]
    · intro m e net' herr
      simp only [StcpNet.bindWith_eq, bindAddrs, ephemeral] at herr
      by_cases hex : ∃ n a, FirstAt BindAttempt.Granted ((List.range m).map draws) n a
      · obtain ⟨n, a, hfirst⟩ := hex
        obtain ⟨-, rfl, hin⟩ := firstAt_map_range_iff.mp hfirst
        obtain ⟨lo, hbind⟩ := haddr.bindAddr_of_agreed hfirst (hagreed n hin)
        rw [hbind] at herr
        simp [Option.map_eq_some_iff] at herr
      · push Not at hex
        rw [haddr.bindAddr_of_forall_not_granted hex] at herr
        simp at herr

end

/-- **Which port a search for a port finds.** On an address without a port, `TcpListener::bind` and
`UdpSocket::bind` find the first port that the kernel and usnetd accept if and only if usnetd
accepts the very first port that the kernel does: if not, the search ends there, with an error. -/
theorem findsPort_iff_agreedAtOnce (cfg : Config) (net : StcpNet T) {addr : SocketAddr}
    (haddr : addr.IsEphemeral) (draws : ℕ → BindAttempt) :
    (∀ slots : List ℕ, slots.length = cfg.socketBacklog → slots.Nodup →
      (∀ slot ∈ slots, net.sockets.slots slot = none) →
      (FindsPort draws (fun m ↦ net.bind cfg (.ok [ephemeral addr draws m]) slots)
        (net.ListensOn cfg slots) ↔ AgreedAtOnce draws)) ∧
    ∀ slot, net.sockets.slots slot = none →
      (FindsPort draws (fun m ↦ net.bindUdp cfg (.ok [ephemeral addr draws m]) slot)
        (net.BoundTo cfg slot) ↔ AgreedAtOnce draws) := by
  refine ⟨?_, ?_⟩
  · intro slots hlen hnodup hfree
    refine findsPort_iff haddr emptyAddrs draws ?_
    intro port lo
    obtain ⟨socket, hsocket⟩ := Option.isSome_iff_exists.mp
      (T.listen_isSome (T.newTcp cfg.socketBufferSize) port.val (T.state_newTcp _) port.ne_zero)
    obtain ⟨hs, sockets, hadd⟩ := SocketSet.exists_addBacklog socket hnodup hfree
    refine ⟨⟨some hs, lo, port.val, none, false, .idle⟩,
      { net with sockets := sockets, fdsAdd := net.fdsAdd ++ [lo] }, ?_, rfl, socket, hs, hsocket,
      hadd, rfl⟩
    simp [StcpNet.openTcp, hlen, hsocket, hadd]
  · intro slot hfree
    refine findsPort_iff haddr emptyAddrs draws ?_
    intro port lo
    obtain ⟨socket, hsocket⟩ := Option.isSome_iff_exists.mp
      (T.bindUdp_isSome cfg.socketBufferSize port.val port.ne_zero)
    cases hadd : net.sockets.add slot (.inr socket) with
    | none => simp [SocketSet.add, hfree] at hadd
    | some p =>
      refine ⟨⟨some p.1, lo, true⟩, { net with sockets := p.2, fdsAdd := net.fdsAdd ++ [lo] }, ?_,
        socket, p.1, hsocket, hadd, rfl⟩
      simp [StcpNet.openUdp, hsocket, hadd]

/-- Draws of ports from 1025 on, at which the kernel and usnetd do what is given for the first few,
and accept all others. -/
def drawsOf (results : List (Except IoError Fd × Except IoError Unit)) (n : ℕ) : BindAttempt :=
  let (lo, usnet) := results.getD n (.ok 5, .ok ())
  ⟨if h : 1025 ≤ 1025 + UInt16.ofNat n then ⟨1025 + UInt16.ofNat n, h⟩
    else ⟨1025, RandomPort.le_1025⟩, lo, usnet⟩

theorem findsPort_of_used_port :
    FindsPort (drawsOf [(.error (.os 98), .ok ())])
      (fun m ↦ (StcpNet.new : StcpNet .reference).bind .reference
        (.ok [ephemeral ⟨.v4 10 0 0 2, 0⟩ (drawsOf [(.error (.os 98), .ok ())]) m]) [0])
      (StcpNet.new.ListensOn .reference [0]) := by
  refine ((findsPort_iff_agreedAtOnce .reference StcpNet.new ⟨rfl, rfl, rfl⟩ _).1 [0] rfl
    (by simp) (by simp [StcpNet.new, SocketSet.empty])).mpr ?_
  rintro n -
  rcases n with _ | n
  · rfl
  · rfl

/-- usnetd refuses the first port, and would accept the second one. Both kinds of `bind` fail at the
first. -/
theorem not_findsPort :
    ¬FindsPort (drawsOf [(.ok 5, .error (.other "port not free"))])
      (fun m ↦ (StcpNet.new : StcpNet .reference).bind .reference (.ok [ephemeral ⟨.v4 10 0 0 2, 0⟩
        (drawsOf [(.ok 5, .error (.other "port not free"))]) m]) [0])
      (StcpNet.new.ListensOn .reference [0]) ∧
    ¬FindsPort (drawsOf [(.ok 5, .error (.other "port not free"))])
      (fun m ↦ (StcpNet.new : StcpNet .reference).bindUdp .reference
        (.ok [ephemeral ⟨.v4 10 0 0 2, 0⟩
          (drawsOf [(.ok 5, .error (.other "port not free"))]) m]) 0)
      (StcpNet.new.BoundTo .reference 0) := by
  refine ⟨?_, ?_⟩
  · intro h
    exact h.noError 1 (.other "port not free") _ rfl
  · intro h
    exact h.noError 1 (.other "port not free") _ rfl

/-! ## The singlethread API -/

namespace SingleThread

/-- What usnetd answers when it is asked for the ports in use, as triples of a protocol, an address
and a port, and when it is asked for the port. -/
structure UsnetdAnswers where
  listening : List (UInt8 × IpAddr × UInt16)
  connected : List (UInt8 × IpAddr × UInt16)
  addPortMatch : Except IoError Unit

/-- The ports in use to connect from, or to listen on. -/
def UsnetdAnswers.used (a : UsnetdAnswers) (connecting : Bool) : List (UInt8 × IpAddr × UInt16) :=
  if connecting then a.connected else a.listening

/-- The protocol number of TCP. -/
def tcpProtocol : UInt8 := 6

/-- `is_free_listening_port_for`. -/
def isFreeListeningPortFor (a : UsnetdAnswers) (port : UInt16) (ip : IpAddr) : Bool :=
  !a.listening.contains (tcpProtocol, ip, port)

/-- `find_free_connecting_or_listening_port_for`. Ports are drawn until one is neither zero nor in
use. -/
def findFreeConnectingOrListeningPortFor (connecting : Bool) (a : UsnetdAnswers) (ip : IpAddr) :
    UInt16 → List UInt16 → Option UInt16
  | port, [] =>
    if port = 0 || (a.used connecting).contains (tcpProtocol, ip, port) then none else some port
  | port, draw :: draws =>
    if port = 0 || (a.used connecting).contains (tcpProtocol, ip, port) then
      findFreeConnectingOrListeningPortFor connecting a ip draw draws
    else some port

/-- What happens in a call of `bind`. -/
structure BindCall where
  /-- The first address of the list. -/
  addr : SocketAddr
  /-- The address of the interface. -/
  ip : IpAddr
  /-- The answers of usnetd, if the interface is one of usnetd's. -/
  control : Option UsnetdAnswers
  /-- The ports that are drawn with usnetd, and the one that is drawn without. -/
  draws : List UInt16
  drawn : RandomPort
  lo : Except IoError Fd
  setNonblocking : Except IoError Unit

/-- The port to listen on. `none` if the search is not over after the given draws. -/
def BindCall.choosePort (b : BindCall) : Option (Except IoError UInt16) :=
  match b.control with
  | some control =>
    if b.addr.port ≠ 0 then
      if !isFreeListeningPortFor control b.addr.port b.ip then
        some (.error (.other "port not free"))
      else some (.ok b.addr.port)
    else (findFreeConnectingOrListeningPortFor false control b.ip 0 b.draws).map .ok
  | none => some (.ok (if b.addr.port = 0 then b.drawn.val else b.addr.port))

/-- `add_port_match`, which has nobody to ask without usnetd. -/
def BindCall.addPortMatch (b : BindCall) : Except IoError Unit :=
  match b.control with
  | some control => control.addPortMatch
  | none => .ok ()

structure StcpListener where
  port : UInt16
  lo : Fd
  listenHandles : Option (List SocketHandle)

/-- `StcpNetRef::bind` from the point on where the port is known. -/
def bindPort (socketBufferSize : ℕ) (b : BindCall) (port : UInt16) (slot : ℕ) (S : SocketSet T) :
    Option (Except IoError StcpListener × SocketSet T) :=
  match b.lo with
  | .error e => some (.error e, S)
  | .ok lo =>
    if b.addr.ip.isLoopback then some (.ok ⟨port, lo, none⟩, S)
    else
      match b.setNonblocking with
      | .error e => some (.error e, S)
      | .ok _ =>
        match T.listen (T.newTcp socketBufferSize) port with
        | none => none
        | some socket =>
          match S.add slot (.inl socket) with
          | none => none
          | some (h, S) =>
            -- the socket listens already when usnetd is asked
            match b.addPortMatch with
            | .error e => some (.error e, S)
            | .ok _ => some (.ok ⟨port, lo, some [h]⟩, S)

/-- `StcpNetRef::bind`. `none` if the call panics or is not over. -/
def bind (socketBufferSize : ℕ) (b : BindCall) (slot : ℕ) (S : SocketSet T) :
    Option (Except IoError StcpListener × SocketSet T) :=
  match b.choosePort with
  | none => none
  | some (.error e) => some (.error e, S)
  | some (.ok port) => bindPort socketBufferSize b port slot S

theorem findFreeConnectingOrListeningPortFor_ne_zero {connecting : Bool} {a : UsnetdAnswers}
    {ip : IpAddr} {port port' : UInt16} {draws : List UInt16}
    (h : findFreeConnectingOrListeningPortFor connecting a ip port draws = some port') :
    port' ≠ 0 := by
  induction draws generalizing port with
  | nil =>
    rw [findFreeConnectingOrListeningPortFor] at h
    split at h
    · exact absurd h (by simp)
    · next hfree =>
      rw [← Option.some.inj h]
      exact fun h0 ↦ hfree (by simp [h0])
  | cons draw draws ih =>
    rw [findFreeConnectingOrListeningPortFor] at h
    split at h
    · exact ih h
    · next hfree =>
      rw [← Option.some.inj h]
      exact fun h0 ↦ hfree (by simp [h0])

theorem BindCall.choosePort_ne_zero {b : BindCall} {port : UInt16}
    (h : b.choosePort = some (.ok port)) : port ≠ 0 := by
  rw [choosePort] at h
  split at h
  · split at h
    · next hport =>
      split at h
      · exact absurd h (by simp)
      · simp only [Option.some.injEq, Except.ok.injEq] at h
        rwa [← h]
    · obtain ⟨port', hfind, hport'⟩ := Option.map_eq_some_iff.mp h
      rw [← Except.ok.inj hport']
      exact findFreeConnectingOrListeningPortFor_ne_zero hfind
  · simp only [Option.some.injEq, Except.ok.injEq] at h
    rw [← h]
    split
    · exact RandomPort.ne_zero _
    · next hport => exact hport

/-- What makes a call go wrong: the kernel grants the port, and usnetd does not. -/
def BindCall.RefusedLate (b : BindCall) : Prop :=
  (∃ port, b.choosePort = some (.ok port)) ∧ b.addr.ip.isLoopback = false ∧
    isErr b.lo = false ∧ isErr b.setNonblocking = false ∧ isErr b.addPortMatch = true

theorem added_of_refusedLate (socketBufferSize : ℕ) {slot : ℕ} {b : BindCall} {S : SocketSet T}
    (hslot : S.slots slot = none) (hb : b.RefusedLate) :
    ∃ e S', bind socketBufferSize b slot S = some (.error e, S') ∧ S'.added = S.added + 1 := by
  obtain ⟨⟨port, hport⟩, hlo, hbound, hset, hmatch⟩ := hb
  have hlisten := T.listen_isSome (T.newTcp socketBufferSize) port (T.state_newTcp _)
    (BindCall.choosePort_ne_zero hport)
  obtain ⟨socket, hsocket⟩ := Option.isSome_iff_exists.mp hlisten
  cases hb : b.lo with
  | error e => simp [hb, isErr] at hbound
  | ok fd =>
    cases hn : b.setNonblocking with
    | error e => simp [hn, isErr] at hset
    | ok u =>
      cases hm : b.addPortMatch with
      | ok u => simp [hm, isErr] at hmatch
      | error e =>
        cases hadd : S.add slot (.inl socket) with
        | none => simp [SocketSet.add, hslot] at hadd
        | some p =>
          refine ⟨e, p.2, ?_, (SocketSet.add_eq_some hadd).2⟩
          simp [bind, hport, bindPort, hb, hlo, hn, hsocket, hadd, hm]

theorem eq_of_bind_error {socketBufferSize slot : ℕ} {b : BindCall} {S S' : SocketSet T}
    {e : IoError} (hb : ¬b.RefusedLate)
    (h : bind socketBufferSize b slot S = some (.error e, S')) : S' = S := by
  rw [bind] at h
  split at h
  · exact absurd h (by simp)
  · simp only [Option.some.injEq, Prod.mk.injEq] at h
    exact h.2.symm
  · next port hport =>
    rw [bindPort] at h
    split at h
    · simp only [Option.some.injEq, Prod.mk.injEq] at h
      exact h.2.symm
    · next lo hlo =>
      split at h
      · exact absurd h (by simp)
      · next hloop =>
        split at h
        · simp only [Option.some.injEq, Prod.mk.injEq] at h
          exact h.2.symm
        · next u hset =>
          split at h
          · exact absurd h (by simp)
          · split at h
            · exact absurd h (by simp)
            · split at h
              · next e' hmatch =>
                exact absurd ⟨⟨port, hport⟩, by simpa using hloop, by simp [hlo, isErr],
                  by simp [hset, isErr], by simp [hmatch, isErr]⟩ hb
              · exact absurd h (by simp)

end SingleThread

/-! ## What a failed call leaves behind -/

/-- **What a failed `bind` leaves behind.** Nothing in the multithread API, where sockets and
descriptors come last: the sockets with their reference counts are the same, and so is `fds_add`. In
the singlethread API it leaves a listening socket behind exactly when usnetd refuses a port that the
kernel has granted. -/
theorem bind_error_leaves_net_iff (cfg : Config) (net : StcpNet T) :
    (∀ addrs slots e net', net.bind cfg addrs slots = some (.error e, net') → net' = net) ∧
    (∀ addrs slot e net', net.bindUdp cfg addrs slot = some (.error e, net') → net' = net) ∧
    ∀ b slot, net.sockets.slots slot = none →
      ((∀ e S', SingleThread.bind cfg.socketBufferSize b slot net.sockets = some (.error e, S') →
        S' = net.sockets) ↔ ¬b.RefusedLate) := by
  refine ⟨?_, ?_, ?_⟩
  · intro addrs slots e net' h
    cases addrs with
    | error e' =>
      simp only [StcpNet.bind, Option.some.injEq, Prod.mk.injEq] at h
      exact h.2.symm
    | ok addrs => exact StcpNet.eq_of_bindWith_error h
  · intro addrs slot e net' h
    cases addrs with
    | error e' =>
      simp only [StcpNet.bindUdp, Option.some.injEq, Prod.mk.injEq] at h
      exact h.2.symm
    | ok addrs => exact StcpNet.eq_of_bindWith_error h
  · intro b slot hslot
    constructor
    · intro h hb
      obtain ⟨e, S', hbind, hadded⟩ :=
        SingleThread.added_of_refusedLate cfg.socketBufferSize hslot hb
      rw [h e S' hbind] at hadded
      omega
    · intro hb e S' h
      exact SingleThread.eq_of_bind_error hb h

namespace SingleThread

/-- A call on an address with a port that is free according to usnetd. -/
def BindCall.of (lo : Except IoError Fd) (addPortMatch : Except IoError Unit) : BindCall where
  addr := ⟨.v4 10 0 0 2, 80⟩
  ip := .v4 10 0 0 2
  control := some ⟨[], [], addPortMatch⟩
  draws := []
  drawn := ⟨1025, RandomPort.le_1025⟩
  lo := lo
  setNonblocking := .ok ()

end SingleThread

/-- A thread that has a stream. -/
def withStream : StcpNet .reference :=
  { (StcpNet.new : StcpNet .reference) with
    sockets := ⟨fun i ↦ if i = 0 then
      some ⟨0, 1, .inl ⟨.established, 5, false, 1025, ⟨.v4 10 0 0 9, 80⟩⟩⟩ else none, 1, 1⟩ }

theorem bind_error_leaves_net_of_used_port :
    ∃ S : SocketSet .reference,
      SingleThread.bind 500000 (.of (.error (.os 98)) (.ok ())) 1 withStream.sockets =
        some (.error (.os 98), S) ∧ S = withStream.sockets := by
  refine ⟨_, rfl, ((bind_error_leaves_net_iff .reference withStream).2.2
    (.of (.error (.os 98)) (.ok ())) 1 rfl).mpr ?_ (.os 98) _ rfl⟩
  rintro ⟨-, -, hlo, -, -⟩
  exact absurd hlo (by decide)

/-- Another process takes the port between the two questions to usnetd: the call fails, and the
socket goes on listening. -/
theorem not_bind_error_leaves_net :
    ∃ S : SocketSet .reference,
      SingleThread.bind 500000 (.of (.ok 5) (.error (.other "port not free"))) 0 SocketSet.empty =
        some (.error (.other "port not free"), S) ∧
      (S.getTcp ⟨0, 0⟩).map Smoltcp.reference.state = some .listen ∧ S ≠ SocketSet.empty := by
  refine ⟨_, rfl, rfl, ?_⟩
  intro h
  exact absurd (congrArg SocketSet.added h) (by decide)

end UsnetSockets
