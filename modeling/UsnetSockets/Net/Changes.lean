import UsnetSockets.Net.System

/-!
# What each operation can do

One theorem for each critical section of the application, which lists the changes it can make and
when it makes them. Whatever is said about the system later is derived from these lists; no other
proof looks into the definitions of the operations.
-/

namespace UsnetSockets

namespace State

variable {T : Smoltcp} {cfg : Config} {s : State T} {c : Change T}

/-- An operation that makes one of two changes. -/
theorem cases_of_ite_some {p : Bool} {c₁ c₂ : Change T}
    (h : (if p then some c₁ else some c₂) = some c) :
    (p = true ∧ c = c₁) ∨ (p = false ∧ c = c₂) := by
  by_cases hp : p = true
  · rw [if_pos hp] at h
    exact Or.inl ⟨hp, (Option.some.inj h).symm⟩
  · rw [if_neg hp] at h
    exact Or.inr ⟨Bool.eq_false_iff.mpr hp, (Option.some.inj h).symm⟩

/-! ## Applying a change -/

/-- Waking the background thread touches the flag and the notifications only. -/
theorem wake_getD (cfg : Config) (net : StcpNet T) (kind : StcpNet.WakeKind) : ∃ flag n,
    (net.wake cfg kind).getD net = { net with bgSkipOneWait := flag, notifications := n } := by
  cases kind with
  | none => exact ⟨_, _, rfl⟩
  | handOver =>
    simp only [StcpNet.wake, StcpNet.wakeBg, StcpNet.notify]
    repeat' split
    all_goals exact ⟨_, _, rfl⟩
  | afterRead =>
    simp only [StcpNet.wake, StcpNet.wakeBgAfterRead, StcpNet.notify]
    repeat' split
    all_goals exact ⟨_, _, rfl⟩

theorem net_apply (cfg : Config) (s : State T) (c : Change T) : ∃ flag n,
    (s.apply cfg c).net = { s.net with
      sockets := c.sockets
      fdsAdd := s.net.fdsAdd ++ c.fdsAdd
      fdsRemove := s.net.fdsRemove ++ c.fdsRemove
      bgSkipOneWait := flag
      notifications := n } :=
  wake_getD cfg _ c.wake

theorem sockets_apply : (s.apply cfg c).net.sockets = c.sockets := by
  obtain ⟨flag, n, h⟩ := net_apply cfg s c
  rw [h]

theorem fdsAdd_apply : (s.apply cfg c).net.fdsAdd = s.net.fdsAdd ++ c.fdsAdd := by
  obtain ⟨flag, n, h⟩ := net_apply cfg s c
  rw [h]

theorem fdsRemove_apply : (s.apply cfg c).net.fdsRemove = s.net.fdsRemove ++ c.fdsRemove := by
  obtain ⟨flag, n, h⟩ := net_apply cfg s c
  rw [h]

/-! ## Listeners -/

theorem bind_cases {addrs : List BindAddr} {slots : List ℕ} (h : s.bind cfg addrs slots = some c) :
    (∃ e, bindAddrs addrs emptyAddrs = some (.leave e) ∧ c = s.same) ∨
    (∃ port lo, bindAddrs addrs emptyAddrs = some (.loopback port lo) ∧ lo ∉ s.openFds cfg ∧
      c = { s.same with
        objects := s.objects ++ [.listener ⟨none, lo, port, none, false, .idle⟩] }) ∨
    ∃ port lo socket hs sockets, bindAddrs addrs emptyAddrs = some (.registered port lo) ∧
      lo ∉ s.openFds cfg ∧ slots.length = cfg.socketBacklog ∧
      T.listen (T.newTcp cfg.socketBufferSize) port = some socket ∧
      s.net.sockets.addBacklog socket slots = some (hs, sockets) ∧
      c = { s.same with
        sockets := sockets
        objects := s.objects ++ [.listener ⟨some hs, lo, port, none, false, .idle⟩]
        fdsAdd := [lo] } := by
  rw [State.bind] at h
  split at h
  · exact absurd h (by simp)
  · exact absurd h (by simp)
  · rename_i e hbind
    exact Or.inl ⟨e, hbind, (Option.some.inj h).symm⟩
  · rename_i port lo hbind
    split at h
    · exact absurd h (by simp)
    · rename_i hlo
      exact Or.inr (Or.inl ⟨port, lo, hbind, hlo, (Option.some.inj h).symm⟩)
  · rename_i port lo hbind
    split at h
    · exact absurd h (by simp)
    · rename_i hlo
      rw [not_or, not_ne_iff] at hlo
      split at h
      · exact absurd h (by simp)
      · rename_i socket hlisten
        split at h
        · exact absurd h (by simp)
        · rename_i hs sockets hadd
          exact Or.inr (Or.inr ⟨port, lo, socket, hs, sockets, hbind, hlo.1, hlo.2, hlisten, hadd,
            (Option.some.inj h).symm⟩)

theorem dropListener_cases {i : ℕ} (h : s.dropListener i = some c) :
    ∃ l, s.objects[i]? = some (.listener l) ∧ l.phase = .idle ∧
      ((l.listenHandles = none ∧ c = { s.same with
        objects := s.objects.set i .gone
        fdsRemove := [l.lo]
        unregistered := [l.lo] }) ∨
      ∃ hs, l.listenHandles = some hs ∧
        ((SocketSet.releaseAll hs s.net.sockets = none ∧
          c = { s.panics with objects := s.objects.set i .gone, fdsRemove := [l.lo] }) ∨
        ∃ sockets, SocketSet.releaseAll hs s.net.sockets = some sockets ∧ c = { s.same with
          sockets := sockets
          objects := s.objects.set i .gone
          fdsRemove := [l.lo]
          closing := hs.any s.isActive })) := by
  rw [dropListener] at h
  split at h
  · rename_i l hi
    split at h
    · rename_i hidle
      refine ⟨l, hi, hidle, ?_⟩
      split at h
      · rename_i hnone
        exact Or.inl ⟨hnone, (Option.some.inj h).symm⟩
      · rename_i hs hsome
        refine Or.inr ⟨hs, hsome, ?_⟩
        split at h
        · rename_i hrel
          exact Or.inl ⟨hrel, (Option.some.inj h).symm⟩
        · rename_i sockets hrel
          exact Or.inr ⟨sockets, hrel, (Option.some.inj h).symm⟩
    · exact absurd h (by simp)
  · exact absurd h (by simp)

theorem setTtl_cases {i : ℕ} {ttl : UInt32} (h : s.setTtl i ttl = some c) :
    ∃ l sockets panic, s.objects[i]? = some (.listener l) ∧ l.phase = .idle ∧
      setHopLimits (some ttl.toUInt8) (l.listenHandles.getD []) s.net.sockets = (sockets, panic) ∧
      c = { s.same with
        sockets := sockets
        objects := s.objects.set i (.listener { l with ttl := some ttl.toUInt8 })
        fault := panic matches some .socketSet
        callPanicked := panic matches some .unwrap } := by
  rw [setTtl] at h
  split at h
  · rename_i l hi
    split at h
    · rename_i hidle
      exact ⟨l, _, _, hi, hidle, rfl, (Option.some.inj h).symm⟩
    · exact absurd h (by simp)
  · exact absurd h (by simp)

theorem setNonblocking_cases {i : ℕ} {nonblocking : Bool}
    (h : s.setNonblocking i nonblocking = some c) :
    ∃ l, s.objects[i]? = some (.listener l) ∧ l.phase = .idle ∧ c = { s.same with
      objects := s.objects.set i (.listener { l with nonblocking := nonblocking }) } := by
  rw [setNonblocking] at h
  split at h
  · rename_i l hi
    split at h
    · rename_i hidle
      exact ⟨l, hi, hidle, (Option.some.inj h).symm⟩
    · exact absurd h (by simp)
  · exact absurd h (by simp)

/-! ## `accept` -/

theorem accept_cases {i : ℕ} (h : s.accept i = some c) :
    ∃ l, s.objects[i]? = some (.listener l) ∧ l.phase = .idle ∧
      ((l.listenHandles = none ∧ c = s.same) ∨
      ∃ hs, l.listenHandles = some hs ∧ c = { s.same with
        objects := s.objects.set i (.listener { l with phase := .locked }) }) := by
  rw [accept] at h
  split at h
  · rename_i l hi
    split at h
    · rename_i hidle
      refine ⟨l, hi, hidle, ?_⟩
      split at h
      · rename_i hnone
        exact Or.inl ⟨hnone, (Option.some.inj h).symm⟩
      · rename_i hs hsome
        exact Or.inr ⟨hs, hsome, (Option.some.inj h).symm⟩
    · exact absurd h (by simp)
  · exact absurd h (by simp)

theorem acceptWait_cases {i : ℕ} (h : s.acceptWait i = some c) :
    ∃ l, s.objects[i]? = some (.listener l) ∧ l.phase = .locked ∧ l.nonblocking = false ∧
      c = { s.same with
        objects := s.objects.set i (.listener { l with phase := .waiting }) } := by
  rw [acceptWait] at h
  split at h
  · rename_i l hi
    split at h
    · rename_i hlocked
      exact ⟨l, hi, hlocked.1, hlocked.2, (Option.some.inj h).symm⟩
    · exact absurd h (by simp)
  · exact absurd h (by simp)

theorem acceptCheck_cases {i : ℕ} {lo : Bool} (h : s.acceptCheck i lo = some c) :
    ∃ l hs, s.objects[i]? = some (.listener l) ∧ l.listenHandles = some hs ∧
      (l.phase = .woken ∨ l.phase = .locked ∧ l.nonblocking = true) ∧
      ((lo = true ∧ c = { s.same with
        objects := s.objects.set i (.listener { l with phase := .idle }) }) ∨
      (lo = false ∧ scanHandles s.net.sockets hs = none ∧ c = s.panics) ∨
      (lo = false ∧ scanHandles s.net.sockets hs = some none ∧ c = { s.same with
        objects := s.objects.set i (.listener { l with
          phase := if l.nonblocking then .idle else .locked }) }) ∨
      ∃ k h t, lo = false ∧ scanHandles s.net.sockets hs = some (some (k, h, t)) ∧
        c = { s.same with
          objects := s.objects.set i (.listener { l with
            listenHandles := some (hs.eraseIdx k)
            phase := .taken h (T.remoteEndpoint t) }) }) := by
  rw [acceptCheck] at h
  split at h
  · rename_i l hi
    split at h
    · rename_i hphase
      split at h
      · exact absurd h (by simp)
      · rename_i hs hsome
        refine ⟨l, hs, hi, hsome, hphase, ?_⟩
        split at h
        · rename_i hlo
          exact Or.inl ⟨hlo, (Option.some.inj h).symm⟩
        · rename_i hlo
          rw [Bool.not_eq_true] at hlo
          split at h
          · rename_i hscan
            exact Or.inr (Or.inl ⟨hlo, hscan, (Option.some.inj h).symm⟩)
          · rename_i hscan
            exact Or.inr (Or.inr (Or.inl ⟨hlo, hscan, (Option.some.inj h).symm⟩))
          · rename_i k x t hscan
            exact Or.inr (Or.inr (Or.inr ⟨k, x, t, hlo, hscan, (Option.some.inj h).symm⟩))
    · exact absurd h (by simp)
  · exact absurd h (by simp)

theorem acceptReplace_cases {i slot : ℕ} (h : s.acceptReplace cfg i slot = some c) :
    ∃ l x peer hs, s.objects[i]? = some (.listener l) ∧ l.phase = .taken x peer ∧
      l.listenHandles = some hs ∧
      ((∃ t x' sockets, ((T.setHopLimit (T.newTcp cfg.socketBufferSize) l.ttl).bind fun t ↦
          T.listen t l.port) = some t ∧
        s.net.sockets.add slot (.inl t) = some (x', sockets) ∧ c = { s.same with
          sockets := sockets
          objects := s.objects.set i (.listener { l with
            listenHandles := some (hs ++ [x'])
            phase := .idle }) ++ [.stream x] }) ∨
      ∃ x' sockets, ((T.setHopLimit (T.newTcp cfg.socketBufferSize) l.ttl).bind fun t ↦
          T.listen t l.port) = none ∧
        s.net.sockets.add slot (.inl (T.newTcp cfg.socketBufferSize)) = some (x', sockets) ∧
        ((SocketSet.releaseAll [x] sockets = none ∧ c = { s.panics with sockets := sockets }) ∨
        ∃ sockets', SocketSet.releaseAll [x] sockets = some sockets' ∧ c = { s.same with
          sockets := sockets'
          objects := s.objects.set i (.listener { l with phase := .idle })
          callPanicked := true })) := by
  rw [acceptReplace] at h
  split at h
  · rename_i l hi
    split at h
    · rename_i _ _ x peer hs hphase hsome
      refine ⟨l, x, peer, hs, hi, hphase, hsome, ?_⟩
      dsimp only at h
      split at h
      · rename_i t ht
        split at h
        · exact absurd h (by simp)
        · rename_i x' sockets hadd
          exact Or.inl ⟨t, x', sockets, ht, hadd, (Option.some.inj h).symm⟩
      · rename_i hfail
        split at h
        · exact absurd h (by simp)
        · rename_i x' sockets hadd
          refine Or.inr ⟨x', sockets, hfail, hadd, ?_⟩
          split at h
          · rename_i hrel
            exact Or.inl ⟨hrel, (Option.some.inj h).symm⟩
          · rename_i sockets' hrel
            exact Or.inr ⟨sockets', hrel, (Option.some.inj h).symm⟩
    · exact absurd h (by simp)
  · exact absurd h (by simp)

/-! ## `connect` -/

theorem connectFailed_cases {S : SocketSet T} {i : ℕ} {k : Connecting} {x : SocketHandle}
    (h : s.connectFailed S i k x = c) :
    (SocketSet.releaseAll [x] S = none ∧ c = { s.panics with sockets := S }) ∨
    ∃ sockets, SocketSet.releaseAll [x] S = some sockets ∧ c = { s.same with
      sockets := sockets
      objects := s.objects.set i (.connecting { k with
        handle := none
        r := .other "connection not successful" }) } := by
  rw [connectFailed] at h
  split at h
  · rename_i hrel
    exact Or.inl ⟨hrel, h.symm⟩
  · rename_i sockets hrel
    exact Or.inr ⟨sockets, hrel, h.symm⟩

theorem connectCheck_cases {S : SocketSet T} {i : ℕ} {k : Connecting} {x : SocketHandle}
    (h : s.connectCheck S i k x = c) :
    (S.getTcp x = none ∧ c = { s.panics with sockets := S }) ∨
    (∃ t, S.getTcp x = some t ∧ T.isActive t = false ∧ s.connectFailed S i k x = c) ∨
    (∃ t, S.getTcp x = some t ∧ T.isActive t = true ∧ (T.mayRecv t && T.maySend t) = true ∧
      c = { s.same with sockets := S, objects := s.objects.set i (.stream x) }) ∨
    ∃ t, S.getTcp x = some t ∧ T.isActive t = true ∧ (T.mayRecv t && T.maySend t) = false ∧
      c = { s.same with
        sockets := S
        objects := s.objects.set i (.connecting { k with handle := some x }) } := by
  rw [connectCheck] at h
  split at h
  · rename_i hnone
    exact Or.inl ⟨hnone, h.symm⟩
  · rename_i t ht
    split at h
    · rename_i hact
      exact Or.inr (Or.inl ⟨t, ht, by simpa using hact, h⟩)
    · rename_i hact
      refine Or.inr (Or.inr ?_)
      cases hopen : T.mayRecv t && T.maySend t with
      | true =>
        rw [hopen] at h
        exact Or.inl ⟨t, ht, by simpa using hact, hopen, h.symm⟩
      | false =>
        rw [hopen] at h
        exact Or.inr ⟨t, ht, by simpa using hact, hopen, h.symm⟩

/-- The addresses that `connect` reaches through the kernel. -/
def viaSystem (cfg : Config) (addr : SocketAddr) : Bool :=
  addr.ip.isLoopback || addr.ip = cfg.ip || addr.ip.isUnspecified

theorem connectNext_cases {i slot : ℕ} {draws : List PortDraw} {system : Except IoError Unit}
    (h : s.connectNext cfg i draws slot system = some c) :
    ∃ k, s.objects[i]? = some (.connecting k) ∧ k.handle = none ∧
      ((k.addrs = [] ∧ c = { s.same with objects := s.objects.set i .gone }) ∨
      ∃ addr addrs, k.addrs = addr :: addrs ∧
        ((viaSystem cfg addr = true ∧ (∃ u, system = .ok u) ∧
          c = { s.same with objects := s.objects.set i .gone }) ∨
        (viaSystem cfg addr = true ∧ ∃ e, system = .error e ∧ c = { s.same with
          objects := s.objects.set i (.connecting { k with addrs := addrs, r := e }) }) ∨
        (viaSystem cfg addr = false ∧ addr.ip.isIpv6 = true ∧ c = { s.same with
          objects := s.objects.set i (.connecting { k with
            addrs := addrs, r := .other "ipv6 address" }) }) ∨
        (viaSystem cfg addr = false ∧ addr.ip.isIpv6 = false ∧ ∃ port x sockets,
          choosePort cfg.kernelLocalPortRange draws = some port ∧
          T.connect (T.newTcp cfg.socketBufferSize) addr port = none ∧
          s.net.sockets.add slot (.inl (T.newTcp cfg.socketBufferSize)) = some (x, sockets) ∧
          c = { s.same with
            sockets := sockets, objects := s.objects.set i .gone, callPanicked := true }) ∨
        (viaSystem cfg addr = false ∧ addr.ip.isIpv6 = false ∧ ∃ port t x sockets,
          choosePort cfg.kernelLocalPortRange draws = some port ∧
          T.connect (T.newTcp cfg.socketBufferSize) addr port = some t ∧
          s.net.sockets.add slot (.inl t) = some (x, sockets) ∧
          ((s.net.wakeBg cfg = none ∧ c = { s.same with
            sockets := sockets, objects := s.objects.set i .gone, wake := .handOver }) ∨
          ((s.net.wakeBg cfg).isSome ∧
            c = { s.connectCheck sockets i { k with addrs := addrs } x with
              wake := .handOver }))))) := by
  rw [connectNext] at h
  split at h
  · rename_i k hi
    split at h
    · exact absurd h (by simp)
    · rename_i hnone haddrs
      exact ⟨k, hi, hnone, Or.inl ⟨haddrs, (Option.some.inj h).symm⟩⟩
    · rename_i addr addrs hnone haddrs
      refine ⟨k, hi, hnone, Or.inr ⟨addr, addrs, haddrs, ?_⟩⟩
      dsimp only at h
      split at h
      · rename_i hsys
        split at h
        · rename_i u
          exact Or.inl ⟨hsys, ⟨u, rfl⟩, (Option.some.inj h).symm⟩
        · rename_i e
          exact Or.inr (Or.inl ⟨hsys, e, rfl, (Option.some.inj h).symm⟩)
      · rename_i hsys
        replace hsys : viaSystem cfg addr = false := by simpa [viaSystem] using hsys
        split at h
        · rename_i hv6
          exact Or.inr (Or.inr (Or.inl ⟨hsys, hv6, (Option.some.inj h).symm⟩))
        · rename_i hv6
          rw [Bool.not_eq_true] at hv6
          split at h
          · exact absurd h (by simp)
          · rename_i port hport
            split at h
            · rename_i hconn
              split at h
              · exact absurd h (by simp)
              · rename_i x sockets hadd
                exact Or.inr (Or.inr (Or.inr (Or.inl ⟨hsys, hv6, port, x, sockets, hport, hconn,
                  hadd, (Option.some.inj h).symm⟩)))
            · rename_i t hconn
              split at h
              · exact absurd h (by simp)
              · rename_i x sockets hadd
                refine Or.inr (Or.inr (Or.inr (Or.inr ⟨hsys, hv6, port, t, x, sockets, hport,
                  hconn, hadd, ?_⟩)))
                split at h
                · rename_i hwake
                  exact Or.inl ⟨Option.isNone_iff_eq_none.mp hwake, (Option.some.inj h).symm⟩
                · rename_i hwake
                  rw [Option.isNone_iff_eq_none] at hwake
                  exact Or.inr ⟨Option.isSome_iff_ne_none.mpr hwake, (Option.some.inj h).symm⟩
  · exact absurd h (by simp)

theorem connectWake_cases {i : ℕ} (h : s.connectWake i = some c) :
    ∃ k x, s.objects[i]? = some (.connecting k) ∧ k.handle = some x ∧
      s.connectCheck s.net.sockets i k x = c := by
  rw [connectWake] at h
  split at h
  · rename_i k hi
    split at h
    · rename_i x hx
      exact ⟨k, x, hi, hx, Option.some.inj h⟩
    · exact absurd h (by simp)
  · exact absurd h (by simp)

theorem connectTimeout_cases {i : ℕ} (h : s.connectTimeout i = some c) :
    ∃ k x, s.objects[i]? = some (.connecting k) ∧ k.handle = some x ∧ k.hasTimeout = true ∧
      ((s.net.sockets.getTcp x = none ∧ c = s.panics) ∨
      ∃ t, s.net.sockets.getTcp x = some t ∧
        s.connectFailed (s.net.sockets.setSocket x (.inl (T.abort t))) i k x = c) := by
  rw [connectTimeout] at h
  split at h
  · rename_i k hi
    split at h
    · rename_i x hx ht
      refine ⟨k, x, hi, hx, ht, ?_⟩
      split at h
      · rename_i hnone
        exact Or.inl ⟨hnone, (Option.some.inj h).symm⟩
      · rename_i t ht
        exact Or.inr ⟨t, ht, Option.some.inj h⟩
    · exact absurd h (by simp)
  · exact absurd h (by simp)

/-! ## Streams -/

theorem writeWith_cases {i : ℕ} {send : T.Tcp → T.Tcp} (h : s.writeWith i send = some c) :
    ∃ x, s.objects[i]? = some (.stream x) ∧
      ((s.net.sockets.getTcp x = none ∧ c = s.panics) ∨
      ∃ t, s.net.sockets.getTcp x = some t ∧
        (((T.maySend t && T.canSend t) = true ∧ c = { s.same with
          sockets := s.net.sockets.setSocket x (.inl (send t))
          wake := .handOver }) ∨
        ((T.maySend t && T.canSend t) = false ∧ c = s.same))) := by
  rw [writeWith] at h
  split at h
  · rename_i x hi
    refine ⟨x, hi, ?_⟩
    split at h
    · rename_i hnone
      exact Or.inl ⟨hnone, (Option.some.inj h).symm⟩
    · rename_i t ht
      exact Or.inr ⟨t, ht, cases_of_ite_some h⟩
  · exact absurd h (by simp)

theorem readWith_cases {i : ℕ} {recv : T.Tcp → T.Tcp} (h : s.readWith i recv = some c) :
    ∃ x, s.objects[i]? = some (.stream x) ∧
      ((s.net.sockets.getTcp x = none ∧ c = s.panics) ∨
      ∃ t, s.net.sockets.getTcp x = some t ∧
        (((T.mayRecv t && T.canRecv t) = true ∧ c = { s.same with
          sockets := s.net.sockets.setSocket x (.inl (recv t))
          wake := .afterRead }) ∨
        ((T.mayRecv t && T.canRecv t) = false ∧ c = s.same))) := by
  rw [readWith] at h
  split at h
  · rename_i x hi
    refine ⟨x, hi, ?_⟩
    split at h
    · rename_i hnone
      exact Or.inl ⟨hnone, (Option.some.inj h).symm⟩
    · rename_i t ht
      exact Or.inr ⟨t, ht, cases_of_ite_some h⟩
  · exact absurd h (by simp)

theorem shutdown_cases {i : ℕ} {how : Shutdown} (h : s.shutdown i how = some c) :
    ∃ x, s.objects[i]? = some (.stream x) ∧
      ((s.net.sockets.getTcp x = none ∧ c = s.panics) ∨
      ∃ t, s.net.sockets.getTcp x = some t ∧
        ((how = .read ∧ c = s.same) ∨
        (how = .write ∧ c = { s.same with
          sockets := s.net.sockets.setSocket x (.inl (T.close t))
          closing := true }) ∨
        (how = .both ∧ c = { s.same with
          sockets := s.net.sockets.setSocket x (.inl (T.abort t))
          closing := true }))) := by
  rw [shutdown] at h
  split at h
  · rename_i x hi
    refine ⟨x, hi, ?_⟩
    split at h
    · rename_i hnone
      exact Or.inl ⟨hnone, (Option.some.inj h).symm⟩
    · rename_i t ht
      refine Or.inr ⟨t, ht, ?_⟩
      cases how with
      | read => exact Or.inl ⟨rfl, (Option.some.inj h).symm⟩
      | write => exact Or.inr (Or.inl ⟨rfl, (Option.some.inj h).symm⟩)
      | both => exact Or.inr (Or.inr ⟨rfl, (Option.some.inj h).symm⟩)
  · exact absurd h (by simp)

theorem tryClone_cases {i : ℕ} (h : s.tryClone i = some c) :
    ∃ x, s.objects[i]? = some (.stream x) ∧
      ((s.net.sockets.retain x = none ∧ c = s.panics) ∨
      ∃ sockets, s.net.sockets.retain x = some sockets ∧ c = { s.same with
        sockets := sockets
        objects := s.objects ++ [.stream x] }) := by
  rw [tryClone] at h
  split at h
  · rename_i x hi
    refine ⟨x, hi, ?_⟩
    split at h
    · rename_i hnone
      exact Or.inl ⟨hnone, (Option.some.inj h).symm⟩
    · rename_i sockets hret
      exact Or.inr ⟨sockets, hret, (Option.some.inj h).symm⟩
  · exact absurd h (by simp)

theorem dropStream_cases {i : ℕ} (h : s.dropStream i = some c) :
    ∃ x, s.objects[i]? = some (.stream x) ∧
      ((SocketSet.releaseAll [x] s.net.sockets = none ∧ c = s.panics) ∨
      ∃ sockets, SocketSet.releaseAll [x] s.net.sockets = some sockets ∧ c = { s.same with
        sockets := sockets
        objects := s.objects.set i .gone
        closing := s.lastRef x }) := by
  rw [dropStream] at h
  split at h
  · rename_i x hi
    refine ⟨x, hi, ?_⟩
    split at h
    · rename_i hnone
      exact Or.inl ⟨hnone, (Option.some.inj h).symm⟩
    · rename_i sockets hrel
      exact Or.inr ⟨sockets, hrel, (Option.some.inj h).symm⟩
  · exact absurd h (by simp)

/-! ## UDP sockets -/

theorem bindUdp_cases {addrs : List BindAddr} {slot : ℕ} (h : s.bindUdp cfg addrs slot = some c) :
    c = s.same ∨
    (∃ port lo, bindAddrs addrs emptyAddrs = some (.loopback port lo) ∧ lo ∉ s.openFds cfg ∧
      c = { s.same with objects := s.objects ++ [.udp ⟨none, lo, false⟩] }) ∨
    ∃ port lo socket x sockets, bindAddrs addrs emptyAddrs = some (.registered port lo) ∧
      lo ∉ s.openFds cfg ∧ T.bindUdp (T.newUdp cfg.socketBufferSize) port = some socket ∧
      s.net.sockets.add slot (.inr socket) = some (x, sockets) ∧ c = { s.same with
        sockets := sockets
        objects := s.objects ++ [.udp ⟨some x, lo, true⟩]
        fdsAdd := [lo] } := by
  rw [bindUdp] at h
  split at h
  · exact absurd h (by simp)
  · exact absurd h (by simp)
  · exact Or.inl (Option.some.inj h).symm
  · rename_i port lo hbind
    split at h
    · exact absurd h (by simp)
    · rename_i hlo
      exact Or.inr (Or.inl ⟨port, lo, hbind, hlo, (Option.some.inj h).symm⟩)
  · rename_i port lo hbind
    split at h
    · exact absurd h (by simp)
    · rename_i hlo
      split at h
      · exact absurd h (by simp)
      · rename_i socket hsocket
        split at h
        · exact absurd h (by simp)
        · rename_i x sockets hadd
          exact Or.inr (Or.inr ⟨port, lo, socket, x, sockets, hbind, hlo, hsocket, hadd,
            (Option.some.inj h).symm⟩)

theorem tryCloneUdp_cases {i : ℕ} {dup : Except IoError Fd}
    (h : s.tryCloneUdp cfg i dup = some c) :
    ∃ u, s.objects[i]? = some (.udp u) ∧
      ((retainSome s.net.sockets u.socketHandle = none ∧ c = s.panics) ∨
      ∃ sockets, retainSome s.net.sockets u.socketHandle = some sockets ∧
        ((∃ e, dup = .error e ∧ c = { s.same with sockets := sockets }) ∨
        ∃ lo, dup = .ok lo ∧ lo ∉ s.openFds cfg ∧ c = { s.same with
          sockets := sockets
          objects := s.objects ++ [.udp ⟨u.socketHandle, lo, false⟩] })) := by
  rw [tryCloneUdp] at h
  split at h
  · rename_i u hi
    refine ⟨u, hi, ?_⟩
    split at h
    · rename_i hnone
      exact Or.inl ⟨hnone, (Option.some.inj h).symm⟩
    · rename_i sockets hret
      refine Or.inr ⟨sockets, hret, ?_⟩
      split at h
      · rename_i e
        exact Or.inl ⟨e, rfl, (Option.some.inj h).symm⟩
      · rename_i lo
        split at h
        · exact absurd h (by simp)
        · rename_i hlo
          exact Or.inr ⟨lo, rfl, hlo, (Option.some.inj h).symm⟩
  · exact absurd h (by simp)

theorem dropUdp_cases {i : ℕ} (h : s.dropUdp i = some c) :
    ∃ u, s.objects[i]? = some (.udp u) ∧
      ((SocketSet.releaseAll u.socketHandle.toList s.net.sockets = none ∧ c = { s.panics with
        objects := s.objects.set i .gone
        fdsRemove := [u.lo]
        unregistered := if u.registered then [] else [u.lo] }) ∨
      ∃ sockets, SocketSet.releaseAll u.socketHandle.toList s.net.sockets = some sockets ∧
        c = { s.same with
          sockets := sockets
          objects := s.objects.set i .gone
          fdsRemove := [u.lo]
          unregistered := if u.registered then [] else [u.lo] }) := by
  rw [dropUdp] at h
  split at h
  · rename_i u hi
    refine ⟨u, hi, ?_⟩
    split at h
    · rename_i hnone
      exact Or.inl ⟨hnone, (Option.some.inj h).symm⟩
    · rename_i sockets hrel
      exact Or.inr ⟨sockets, hrel, (Option.some.inj h).symm⟩
  · exact absurd h (by simp)

theorem sendTo_cases {i : ℕ} {buf : List UInt8} {addr : SocketAddr}
    (h : s.sendTo i buf addr = some c) :
    ∃ u, s.objects[i]? = some (.udp u) ∧
      (((u.socketHandle = none ∨ addr.ip.isLoopback = true) ∧ c = s.same) ∨
      ∃ x, u.socketHandle = some x ∧ addr.ip.isLoopback = false ∧
        ((s.net.sockets.getUdp x = none ∧ c = s.panics) ∨
        ∃ t, s.net.sockets.getUdp x = some t ∧
          ((T.canSendUdp t = true ∧ c = { s.same with
            sockets := s.net.sockets.setSocket x (.inr (T.sendUdp t buf addr))
            wake := .handOver }) ∨
          (T.canSendUdp t = false ∧ c = s.same)))) := by
  rw [sendTo] at h
  split at h
  · rename_i u hi
    refine ⟨u, hi, ?_⟩
    split at h
    · rename_i hnone
      exact Or.inl ⟨Or.inl hnone, (Option.some.inj h).symm⟩
    · rename_i x hx
      split at h
      · rename_i hlo
        exact Or.inl ⟨Or.inr hlo, (Option.some.inj h).symm⟩
      · rename_i hlo
        refine Or.inr ⟨x, hx, Bool.not_eq_true _ ▸ hlo, ?_⟩
        split at h
        · rename_i hnone
          exact Or.inl ⟨hnone, (Option.some.inj h).symm⟩
        · rename_i t ht
          exact Or.inr ⟨t, ht, cases_of_ite_some h⟩
  · exact absurd h (by simp)

theorem recvFrom_cases {i len : ℕ} (h : s.recvFrom i len = some c) :
    ∃ u, s.objects[i]? = some (.udp u) ∧
      ((u.socketHandle = none ∧ c = s.same) ∨
      ∃ x, u.socketHandle = some x ∧
        ((s.net.sockets.getUdp x = none ∧ c = s.panics) ∨
        ∃ t, s.net.sockets.getUdp x = some t ∧
          ((T.canRecvUdp t = true ∧ c = { s.same with
            sockets := s.net.sockets.setSocket x (.inr (T.recvUdp t len)) }) ∨
          (T.canRecvUdp t = false ∧ c = s.same)))) := by
  rw [recvFrom] at h
  split at h
  · rename_i u hi
    refine ⟨u, hi, ?_⟩
    split at h
    · rename_i hnone
      exact Or.inl ⟨hnone, (Option.some.inj h).symm⟩
    · rename_i x hx
      refine Or.inr ⟨x, hx, ?_⟩
      split at h
      · rename_i hnone
        exact Or.inl ⟨hnone, (Option.some.inj h).symm⟩
      · rename_i t ht
        exact Or.inr ⟨t, ht, cases_of_ite_some h⟩
  · exact absurd h (by simp)

end State

end UsnetSockets
