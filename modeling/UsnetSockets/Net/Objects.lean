import UsnetSockets.Net.Ownership

/-!
# What happens to the values of the application

All that a step of the system can do to the values that the application holds: which of them change
and into what, which are added, and which sockets are new. The invariants about listeners and
connections that follow look at this list, and not at the operations.
-/

namespace UsnetSockets

/-! ## The numbers of new sockets -/

namespace SocketSet

variable {T : Smoltcp} {S S' : SocketSet T} {h : SocketHandle}

theorem add_eq_some {slot : ℕ} {socket : T.Tcp ⊕ T.Udp} (hadd : S.add slot socket = some (h, S')) :
    h = ⟨slot, S.added⟩ ∧ S'.added = S.added + 1 := by
  rw [add] at hadd
  split at hadd
  · rw [Option.some_inj, Prod.mk.injEq] at hadd
    obtain ⟨rfl, rfl⟩ := hadd
    exact ⟨rfl, rfl⟩
  · exact absurd hadd (by simp)

theorem addBacklog_eq_some {socket : T.Tcp} {slots : List ℕ} {hs : List SocketHandle}
    (hadd : S.addBacklog socket slots = some (hs, S')) :
    hs.map SocketHandle.uid = List.range' S.added slots.length ∧
      S'.added = S.added + slots.length := by
  induction slots generalizing S hs with
  | nil =>
    rw [addBacklog, Option.some_inj, Prod.mk.injEq] at hadd
    obtain ⟨rfl, rfl⟩ := hadd
    exact ⟨rfl, rfl⟩
  | cons slot slots ih =>
    rw [addBacklog] at hadd
    split at hadd
    · exact absurd hadd (by simp)
    · rename_i x S₁ hfirst
      split at hadd
      · exact absurd hadd (by simp)
      · rename_i hs' S₂ hrest
        rw [Option.some_inj, Prod.mk.injEq] at hadd
        obtain ⟨rfl, rfl⟩ := hadd
        obtain ⟨rfl, hone⟩ := add_eq_some hfirst
        obtain ⟨huids, hadded⟩ := ih hrest
        rw [hone] at huids hadded
        rw [List.map_cons, huids, hadded, List.length_cons, List.range'_succ]
        exact ⟨rfl, by omega⟩

theorem added_retain (hret : S.retain h = some S') : S'.added = S.added := by
  rw [retain] at hret
  split at hret
  · rw [← Option.some.inj hret]
    rfl
  · exact absurd hret (by simp)

theorem added_releaseAll {hs : List SocketHandle} (hrel : releaseAll hs S = some S') :
    S'.added = S.added := by
  induction hs generalizing S with
  | nil => rw [← Option.some.inj hrel]
  | cons x hs ih =>
    rw [releaseAll] at hrel
    split at hrel
    · rename_i S₁ hx
      rw [ih hrel]
      rw [release] at hx
      split at hx
      · split at hx
        · exact absurd hx (by simp)
        · rw [← Option.some.inj hx]
          rfl
      · exact absurd hx (by simp)
    · exact absurd hrel (by simp)

theorem added_process (events : List (ℕ × T.Event)) : (S.process events).added = S.added := by
  induction events generalizing S with
  | nil => rfl
  | cons e events ih => exact ih

end SocketSet

/-! ## The ports of listeners -/

theorem RandomPort.ne_zero (port : RandomPort) : port.val ≠ 0 := by
  intro h
  have hle := port.property
  rw [h] at hle
  exact absurd hle (by decide)

/-- The loop ends with the port that was asked for, or with one that was drawn. -/
theorem port_ne_zero_of_bindLoop {findRandom loopback : Bool} {attempts : List BindAttempt}
    {v v' : BindVars} (hv : v.port = 0 → findRandom = true ∧
      (isErr v.loResult && (isErr v.usnetResult || loopback)) = true)
    (h : bindLoop findRandom loopback attempts v = some v') : v'.port ≠ 0 := by
  induction attempts generalizing v with
  | nil =>
    rw [bindLoop] at h
    split at h
    · exact absurd h (by simp)
    · rename_i hdone
      rw [← Option.some.inj h]
      exact fun h0 ↦ hdone (hv h0).2
  | cons attempt attempts ih =>
    rw [bindLoop] at h
    split at h
    · cases findRandom with
      | true =>
        simp only [if_true] at h
        refine ih (fun h0 ↦ ?_) h
        exact absurd h0 (RandomPort.ne_zero _)
      | false =>
        simp only [Bool.false_eq_true, if_false, Option.some_inj] at h
        rw [← h]
        exact fun h0 ↦ absurd (hv h0).1 (by simp)
    · rename_i hdone
      rw [← Option.some.inj h]
      exact fun h0 ↦ hdone (hv h0).2

theorem port_ne_zero_of_bindAddrs {addrs : List BindAddr} {e : IoError} {port : UInt16} {lo : Fd}
    (h : bindAddrs addrs e = some (.registered port lo)) : port ≠ 0 := by
  induction addrs generalizing e with
  | nil => exact absurd h (by simp [bindAddrs])
  | cons b bs ih =>
    rw [bindAddrs] at h
    split at h
    · exact ih h
    · rw [bindAddr] at h
      split at h
      · exact absurd h (by simp)
      · split at h
        · exact absurd h (by simp)
        · rename_i v hloop
          have hport : v.port ≠ 0 := port_ne_zero_of_bindLoop (by simp [isErr]) hloop
          repeat' split at h
          all_goals simp only [Option.some_inj, reduceCtorEq, BindResult.registered.injEq] at h
          rw [← h.1]
          exact hport

namespace State

open SocketSet

variable {T : Smoltcp} {cfg : Config} {s s' : State T} {c : Change T} {a : Action T}

/-! ## How values change -/

/-- How a critical section changes a listener: a call of `accept` takes one of its handles, or they
stay as they are. -/
inductive ListenerTurns (a : Action T) : StcpListener → StcpListener → Prop
  | keeps {l l' : StcpListener} (handles : l'.listenHandles = l.listenHandles)
      (port : l'.port = l.port) (phase : phaseHandles l'.phase = phaseHandles l.phase)
      (ttl : l'.ttl = l.ttl ∨ ∃ i ttl, a = .setTtl i ttl ∧ l'.ttl = some ttl.toUInt8) :
      ListenerTurns a l l'
  | takes {l : StcpListener} {hs : List SocketHandle} {k : ℕ} {h : SocketHandle}
      (peer : SocketAddr) (handles : l.listenHandles = some hs) (found : hs[k]? = some h)
      (phase : phaseHandles l.phase = []) :
      ListenerTurns a l { l with listenHandles := some (hs.eraseIdx k), phase := .taken h peer }

/-- How a critical section changes a value without a new socket. -/
inductive Turns (a : Action T) : Object → Object → Prop
  | gone (o : Object) : Turns a o .gone
  | listener {l l' : StcpListener} (h : ListenerTurns a l l') : Turns a (.listener l) (.listener l')
  | connecting {k k' : Connecting} (h : k'.handle = none ∨ k'.handle = k.handle) :
      Turns a (.connecting k) (.connecting k')
  | connected {k : Connecting} {x : SocketHandle} (h : k.handle = some x) :
      Turns a (.connecting k) (.stream x)

/-- The values that can be added without a new socket. -/
inductive Adds (s : State T) : Object → Prop
  | listener (lo : Fd) (port : UInt16) : Adds s (.listener ⟨none, lo, port, none, false, .idle⟩)
  | stream {x : SocketHandle} (h : .stream x ∈ s.objects) : Adds s (.stream x)
  | udp {u : UdpSocket} (h : u.socketHandle = none ∨
      ∃ u', .udp u' ∈ s.objects ∧ u.socketHandle = u'.socketHandle) : Adds s (.udp u)
  | connecting {k : Connecting} (h : k.handle = none) : Adds s (.connecting k)

/-- What a call of `connect` can become once it has a new socket: the call fails or goes on, with
the socket or without it, or it returns a stream. -/
inductive Connects (x : SocketHandle) : Object → Prop
  | gone : Connects x .gone
  | stream : Connects x (.stream x)
  | connecting {k : Connecting} (h : k.handle = none ∨ k.handle = some x) :
      Connects x (.connecting k)

/-- **What a step can do to the values**: those after it, and the number of sockets so far. -/
inductive Rearranges (cfg : Config) (s : State T) : Action T → List Object → ℕ → Prop
  | same (a : Action T) : Rearranges cfg s a s.objects s.net.sockets.added
  | wakes (es : List (ℕ × T.Event)) :
      Rearranges cfg s (.bgSecond es) (s.objects.map wakeAccept) s.net.sockets.added
  | turns {a : Action T} {i : ℕ} {o o' : Object} (hi : s.objects[i]? = some o) (h : Turns a o o') :
      Rearranges cfg s a (s.objects.set i o') s.net.sockets.added
  | adds {a : Action T} {o : Object} (ha : ∀ i slot, a ≠ .acceptReplace i slot) (h : s.Adds o) :
      Rearranges cfg s a (s.objects ++ [o]) s.net.sockets.added
  | binds {addrs : List BindAddr} {slots : List ℕ} {hs : List SocketHandle} {lo : Fd}
      {port : UInt16} (result : bindAddrs addrs emptyAddrs = some (.registered port lo))
      (uids : hs.map SocketHandle.uid = List.range' s.net.sockets.added cfg.socketBacklog) :
      Rearranges cfg s (.bind addrs slots)
        (s.objects ++ [.listener ⟨some hs, lo, port, none, false, .idle⟩])
        (s.net.sockets.added + cfg.socketBacklog)
  | bindsUdp {addrs : List BindAddr} {slot : ℕ} {lo : Fd} :
      Rearranges cfg s (.bindUdp addrs slot)
        (s.objects ++ [.udp ⟨some ⟨slot, s.net.sockets.added⟩, lo, true⟩])
        (s.net.sockets.added + 1)
  | accepts {i slot : ℕ} {l : StcpListener} {x : SocketHandle} {peer : SocketAddr}
      {hs : List SocketHandle} {t : T.Tcp} (hi : s.objects[i]? = some (.listener l))
      (phase : l.phase = .taken x peer) (handles : l.listenHandles = some hs)
      (listens : ((T.setHopLimit (T.newTcp cfg.socketBufferSize) l.ttl).bind
        fun t ↦ T.listen t l.port) = some t) :
      Rearranges cfg s (.acceptReplace i slot)
        (s.objects.set i (.listener { l with
          listenHandles := some (hs ++ [⟨slot, s.net.sockets.added⟩])
          phase := .idle }) ++ [.stream x])
        (s.net.sockets.added + 1)
  | loses {i slot : ℕ} {l : StcpListener} {hs : List SocketHandle} {objects : List Object}
      (hi : s.objects[i]? = some (.listener l)) (handles : l.listenHandles = some hs)
      (fails : ((T.setHopLimit (T.newTcp cfg.socketBufferSize) l.ttl).bind
        fun t ↦ T.listen t l.port) = none)
      (objects_eq : objects = s.objects ∨
        objects = s.objects.set i (.listener { l with phase := .idle })) :
      Rearranges cfg s (.acceptReplace i slot) objects (s.net.sockets.added + 1)
  | connects {i slot : ℕ} {draws : List PortDraw} {system : Except IoError Unit} {k : Connecting}
      {o : Object} (hi : s.objects[i]? = some (.connecting k))
      (h : Connects ⟨slot, s.net.sockets.added⟩ o) :
      Rearranges cfg s (.connectNext i draws slot system) (s.objects.set i o)
        (s.net.sockets.added + 1)

theorem Rearranges.of_eq {objects : List Object} {n n' : ℕ}
    (h : Rearranges cfg s a objects n) (hn : n' = n) : Rearranges cfg s a objects n' :=
  hn ▸ h

/-! ## Each operation -/

/-- The change rearranges the values. -/
def Fits (cfg : Config) (s : State T) (a : Action T) (c : Change T) : Prop :=
  Rearranges cfg s a c.objects c.sockets.added

private theorem fits_bind {addrs : List BindAddr} {slots : List ℕ}
    (h : s.bind cfg addrs slots = some c) : Fits cfg s (.bind addrs slots) c := by
  obtain ⟨e, -, rfl⟩ | ⟨port, lo, -, -, rfl⟩ |
    ⟨port, lo, socket, hs, S, he, -, hlen, -, hadd, rfl⟩ := bind_cases h
  · exact .same _
  · exact .adds (by simp) (.listener lo port)
  · obtain ⟨huids, hadded⟩ := addBacklog_eq_some hadd
    rw [hlen] at huids hadded
    exact .of_eq (.binds he huids) hadded

private theorem fits_dropListener {i : ℕ} (h : s.dropListener i = some c) :
    Fits cfg s (.dropListener i) c := by
  obtain ⟨l, hi, -, ⟨-, rfl⟩ | ⟨hs, -, ⟨-, rfl⟩ | ⟨S, hrel, rfl⟩⟩⟩ := dropListener_cases h
  · exact .turns hi (.gone _)
  · exact .turns hi (.gone _)
  · exact .of_eq (.turns hi (.gone _)) (added_releaseAll hrel)

theorem added_setHopLimits {ttl : Option UInt8} {hs : List SocketHandle} {S S' : SocketSet T}
    {p : Option Panic} (h : setHopLimits ttl hs S = (S', p)) : S'.added = S.added := by
  induction hs generalizing S with
  | nil =>
    rw [setHopLimits, Prod.mk.injEq] at h
    rw [h.1]
  | cons x hs ih =>
    rw [setHopLimits] at h
    split at h
    · rw [Prod.mk.injEq] at h
      rw [h.1]
    · split at h
      · rw [Prod.mk.injEq] at h
        rw [h.1]
      · exact (ih h).trans rfl

private theorem fits_setTtl {i : ℕ} {ttl : UInt32} (h : s.setTtl i ttl = some c) :
    Fits cfg s (.setTtl i ttl) c := by
  obtain ⟨l, S, p, hi, -, hset, rfl⟩ := setTtl_cases h
  have hturns : ListenerTurns (.setTtl i ttl : Action T) l { l with ttl := some ttl.toUInt8 } :=
    .keeps rfl rfl rfl (Or.inr ⟨i, ttl, rfl, rfl⟩)
  exact .of_eq (.turns hi (.listener hturns)) (added_setHopLimits hset)

private theorem fits_setNonblocking {i : ℕ} {nonblocking : Bool}
    (h : s.setNonblocking i nonblocking = some c) :
    Fits cfg s (.setNonblocking i nonblocking) c := by
  obtain ⟨l, hi, -, rfl⟩ := setNonblocking_cases h
  exact .turns hi (.listener (.keeps rfl rfl rfl (Or.inl rfl)))

private theorem fits_accept {i : ℕ} (h : s.accept i = some c) : Fits cfg s (.accept i) c := by
  obtain ⟨l, hi, hidle, ⟨-, rfl⟩ | ⟨_, -, rfl⟩⟩ := accept_cases h
  · exact .same _
  · exact .turns hi (.listener (.keeps rfl rfl (by rw [hidle]; rfl) (Or.inl rfl)))

private theorem fits_acceptWait {i : ℕ} (h : s.acceptWait i = some c) :
    Fits cfg s (.acceptWait i) c := by
  obtain ⟨l, hi, hlocked, -, rfl⟩ := acceptWait_cases h
  exact .turns hi (.listener (.keeps rfl rfl (by rw [hlocked]; rfl) (Or.inl rfl)))

private theorem fits_acceptCheck {i : ℕ} {lo : Bool} (h : s.acceptCheck i lo = some c) :
    Fits cfg s (.acceptCheck i lo) c := by
  obtain ⟨l, hs, hi, hsome, hphase, hc⟩ := acceptCheck_cases h
  have hfree : phaseHandles l.phase = [] := by
    rcases hphase with hphase | ⟨hphase, -⟩ <;> rw [hphase] <;> rfl
  obtain ⟨-, rfl⟩ | ⟨-, -, rfl⟩ | ⟨-, -, rfl⟩ | ⟨k, x, t, -, hfound, rfl⟩ := hc
  · exact .turns hi (.listener (.keeps rfl rfl hfree.symm (Or.inl rfl)))
  · exact .same _
  · refine .turns hi (.listener (.keeps rfl rfl ?_ (Or.inl rfl)))
    rw [hfree]
    dsimp only
    split <;> rfl
  · exact .turns hi (.listener (.takes _ hsome (scanHandles_eq_found hfound).1 hfree))

private theorem fits_acceptReplace {i slot : ℕ} (h : s.acceptReplace cfg i slot = some c) :
    Fits cfg s (.acceptReplace i slot) c := by
  obtain ⟨l, x, peer, hs, hi, hphase, hsome, hc⟩ := acceptReplace_cases h
  obtain ⟨t, x', S, ht, hadd, rfl⟩ | ⟨x', S, hfail, hadd, hc⟩ := hc
  · obtain ⟨rfl, hadded⟩ := add_eq_some hadd
    exact .of_eq (.accepts hi hphase hsome ht) hadded
  · obtain ⟨-, hadded⟩ := add_eq_some hadd
    obtain ⟨-, rfl⟩ | ⟨S', hrel, rfl⟩ := hc
    · exact .of_eq (.loses hi hsome hfail (Or.inl rfl)) hadded
    · exact .of_eq (.loses hi hsome hfail (Or.inr rfl)) ((added_releaseAll hrel).trans hadded)

/-- A call of `connect` that has looked at its socket, and has changed nothing or its own value. -/
private theorem objects_connectCheck {S : SocketSet T} {i : ℕ} {k : Connecting} {x : SocketHandle}
    (h : s.connectCheck S i k x = c) : c.sockets.added = S.added ∧
    (c.objects = s.objects ∨ c.objects = s.objects.set i (.stream x) ∨
      ∃ k' : Connecting, c.objects = s.objects.set i (.connecting k') ∧
        (k'.handle = none ∨ k'.handle = some x)) := by
  obtain ⟨-, rfl⟩ | ⟨t, -, -, h⟩ | ⟨t, -, -, -, rfl⟩ | ⟨t, -, -, -, rfl⟩ := connectCheck_cases h
  · exact ⟨rfl, Or.inl rfl⟩
  · obtain ⟨-, rfl⟩ | ⟨S', hrel, rfl⟩ := connectFailed_cases h
    · exact ⟨rfl, Or.inl rfl⟩
    · exact ⟨added_releaseAll hrel, Or.inr (Or.inr ⟨_, rfl, Or.inl rfl⟩)⟩
  · exact ⟨rfl, Or.inr (Or.inl rfl)⟩
  · exact ⟨rfl, Or.inr (Or.inr ⟨_, rfl, Or.inr rfl⟩)⟩

private theorem fits_connectNext {i slot : ℕ} {draws : List PortDraw}
    {system : Except IoError Unit} (h : s.connectNext cfg i draws slot system = some c) :
    Fits cfg s (.connectNext i draws slot system) c := by
  obtain ⟨k, hi, hnone, hc⟩ := connectNext_cases h
  have hkeep (k' : Connecting) (hk' : k'.handle = none) : Turns (.connectNext i draws slot system :
      Action T) (.connecting k) (.connecting k') := .connecting (Or.inl hk')
  have hnew {o : Object} (ho : Connects ⟨slot, s.net.sockets.added⟩ o) :
      Rearranges cfg s (.connectNext i draws slot system) (s.objects.set i o)
        (s.net.sockets.added + 1) := .connects hi ho
  obtain ⟨-, rfl⟩ | ⟨addr, addrs, -, hc⟩ := hc
  · exact .turns hi (.gone _)
  obtain ⟨-, -, rfl⟩ | ⟨-, e, -, rfl⟩ | ⟨-, -, rfl⟩ | ⟨-, -, port, x, S, -, -, hadd, rfl⟩ |
    ⟨-, -, port, t, x, S, -, -, hadd, hc⟩ := hc
  · exact .turns hi (.gone _)
  · exact .turns hi (hkeep _ hnone)
  · exact .turns hi (hkeep _ hnone)
  · obtain ⟨rfl, hadded⟩ := add_eq_some hadd
    exact .of_eq (hnew .gone) hadded
  · obtain ⟨rfl, hadded⟩ := add_eq_some hadd
    obtain ⟨-, rfl⟩ | ⟨-, rfl⟩ := hc
    · exact .of_eq (hnew .gone) hadded
    · obtain ⟨hsame, ho⟩ := objects_connectCheck (s := s) (S := S) (i := i)
        (k := { k with addrs := addrs }) (x := ⟨slot, s.net.sockets.added⟩) rfl
      refine .of_eq ?_ (hsame.trans hadded)
      obtain ho | ho | ⟨k', ho, hk'⟩ := ho
      · obtain ⟨hlt, hget⟩ := List.getElem?_eq_some_iff.mp hi
        have hself := hnew (.connecting (Or.inl hnone))
        rw [← hget, List.set_getElem_self] at hself
        rwa [ho]
      · rw [ho]
        exact hnew .stream
      · rw [ho]
        exact hnew (.connecting hk')

private theorem fits_connectWake {i : ℕ} (h : s.connectWake i = some c) :
    Fits cfg s (.connectWake i) c := by
  obtain ⟨k, x, hi, hx, h⟩ := connectWake_cases h
  obtain ⟨hadded, ho⟩ := objects_connectCheck h
  refine .of_eq ?_ hadded
  obtain ho | ho | ⟨k', ho, hk'⟩ := ho
  · rw [ho]
    exact .same _
  · rw [ho]
    exact .turns hi (.connected hx)
  · rw [ho]
    exact .turns hi (.connecting (hx ▸ hk'))

private theorem fits_connectTimeout {i : ℕ} (h : s.connectTimeout i = some c) :
    Fits cfg s (.connectTimeout i) c := by
  obtain ⟨k, x, hi, hx, -, ⟨-, rfl⟩ | ⟨t, -, h⟩⟩ := connectTimeout_cases h
  · exact .same _
  · obtain ⟨-, rfl⟩ | ⟨S', hrel, rfl⟩ := connectFailed_cases h
    · exact .same _
    · have hadded : S'.added = s.net.sockets.added := (added_releaseAll hrel).trans rfl
      exact .of_eq (.turns hi (.connecting (Or.inl rfl))) hadded

private theorem fits_writeWith {i : ℕ} {send : T.Tcp → T.Tcp} (h : s.writeWith i send = some c) :
    Fits cfg s a c := by
  obtain ⟨x, -, ⟨-, rfl⟩ | ⟨t, -, ⟨-, rfl⟩ | ⟨-, rfl⟩⟩⟩ := writeWith_cases h <;> exact .same _

private theorem fits_readWith {i : ℕ} {recv : T.Tcp → T.Tcp} (h : s.readWith i recv = some c) :
    Fits cfg s a c := by
  obtain ⟨x, -, ⟨-, rfl⟩ | ⟨t, -, ⟨-, rfl⟩ | ⟨-, rfl⟩⟩⟩ := readWith_cases h <;> exact .same _

private theorem fits_shutdown {i : ℕ} {how : Shutdown} (h : s.shutdown i how = some c) :
    Fits cfg s (.shutdown i how) c := by
  obtain ⟨x, -, ⟨-, rfl⟩ | ⟨t, -, ⟨-, rfl⟩ | ⟨-, rfl⟩ | ⟨-, rfl⟩⟩⟩ := shutdown_cases h <;>
    exact .same _

private theorem fits_tryClone {i : ℕ} (h : s.tryClone i = some c) : Fits cfg s (.tryClone i) c := by
  obtain ⟨x, hi, ⟨-, rfl⟩ | ⟨S, hret, rfl⟩⟩ := tryClone_cases h
  · exact .same _
  · exact .of_eq (.adds (by simp) (.stream (List.mem_of_getElem? hi))) (added_retain hret)

private theorem fits_dropStream {i : ℕ} (h : s.dropStream i = some c) :
    Fits cfg s (.dropStream i) c := by
  obtain ⟨x, hi, ⟨-, rfl⟩ | ⟨S, hrel, rfl⟩⟩ := dropStream_cases h
  · exact .same _
  · exact .of_eq (.turns hi (.gone _)) (added_releaseAll hrel)

private theorem fits_bindUdp {addrs : List BindAddr} {slot : ℕ}
    (h : s.bindUdp cfg addrs slot = some c) : Fits cfg s (.bindUdp addrs slot) c := by
  obtain rfl | ⟨port, lo, -, -, rfl⟩ | ⟨port, lo, _, x, S, -, -, -, hadd, rfl⟩ := bindUdp_cases h
  · exact .same _
  · exact .adds (by simp) (.udp (Or.inl rfl))
  · obtain ⟨rfl, hadded⟩ := add_eq_some hadd
    exact .of_eq .bindsUdp hadded

private theorem fits_tryCloneUdp {i : ℕ} {dup : Except IoError Fd}
    (h : s.tryCloneUdp cfg i dup = some c) : Fits cfg s (.tryCloneUdp i dup) c := by
  obtain ⟨u, hi, ⟨-, rfl⟩ | ⟨S, hret, hc⟩⟩ := tryCloneUdp_cases h
  · exact .same _
  · have hadded : S.added = s.net.sockets.added := by
      cases hu : u.socketHandle with
      | none =>
        rw [hu] at hret
        rw [← Option.some.inj hret]
      | some x =>
        rw [hu] at hret
        exact added_retain hret
    obtain ⟨e, -, rfl⟩ | ⟨lo, -, -, rfl⟩ := hc
    · exact .of_eq (.same _) hadded
    · exact .of_eq (.adds (by simp) (.udp (Or.inr ⟨u, List.mem_of_getElem? hi, rfl⟩))) hadded

private theorem fits_dropUdp {i : ℕ} (h : s.dropUdp i = some c) : Fits cfg s (.dropUdp i) c := by
  obtain ⟨u, hi, ⟨-, rfl⟩ | ⟨S, hrel, rfl⟩⟩ := dropUdp_cases h
  · exact .turns hi (.gone _)
  · exact .of_eq (.turns hi (.gone _)) (added_releaseAll hrel)

private theorem fits_sendTo {i : ℕ} {buf : List UInt8} {addr : SocketAddr}
    (h : s.sendTo i buf addr = some c) : Fits cfg s (.sendTo i buf addr) c := by
  obtain ⟨u, -, ⟨-, rfl⟩ | ⟨x, -, -, ⟨-, rfl⟩ | ⟨t, -, ⟨-, rfl⟩ | ⟨-, rfl⟩⟩⟩⟩ := sendTo_cases h <;>
    exact .same _

private theorem fits_recvFrom {i len : ℕ} (h : s.recvFrom i len = some c) :
    Fits cfg s (.recvFrom i len) c := by
  obtain ⟨u, -, ⟨-, rfl⟩ | ⟨x, -, ⟨-, rfl⟩ | ⟨t, -, ⟨-, rfl⟩ | ⟨-, rfl⟩⟩⟩⟩ := recvFrom_cases h <;>
    exact .same _

theorem rearranges_of_change (h : s.change cfg a = some c) : Fits cfg s a c := by
  cases a with
  | bgFirst now => exact absurd h (by simp [change])
  | bgPoll ok => exact absurd h (by simp [change])
  | bgSecond events => exact absurd h (by simp [change])
  | bind addrs slots => exact fits_bind h
  | bindUdp addrs slot => exact fits_bindUdp h
  | dropListener i => exact fits_dropListener h
  | dropStream i => exact fits_dropStream h
  | dropUdp i => exact fits_dropUdp h
  | setTtl i ttl => exact fits_setTtl h
  | setNonblocking i nonblocking => exact fits_setNonblocking h
  | accept i => exact fits_accept h
  | acceptWait i => exact fits_acceptWait h
  | acceptCheck i lo => exact fits_acceptCheck h
  | acceptReplace i slot => exact fits_acceptReplace h
  | connect addrs hasTimeout =>
    cases h
    exact .adds (by simp) (.connecting rfl)
  | connectNext i draws slot system => exact fits_connectNext h
  | connectWake i => exact fits_connectWake h
  | connectTimeout i => exact fits_connectTimeout h
  | write i buf => exact fits_writeWith h
  | writeNoCopy i f => exact fits_writeWith h
  | read i len => exact fits_readWith h
  | readNoCopy i f => exact fits_readWith h
  | shutdown i how => exact fits_shutdown h
  | tryClone i => exact fits_tryClone h
  | tryCloneUdp i dup => exact fits_tryCloneUdp h
  | sendTo i buf addr => exact fits_sendTo h
  | recvFrom i len => exact fits_recvFrom h

/-- **Every step rearranges the values** in one of the listed ways. -/
theorem rearranges_of_step (h : s.step cfg a = some s') :
    Rearranges cfg s a s'.objects s'.net.sockets.added := by
  rcases step_cases h with ⟨now, rfl, h⟩ | ⟨ok, rfl, h⟩ | ⟨es, rfl, h⟩ | ⟨c, hc, rfl⟩
  · obtain ⟨-, ⟨-, rfl⟩ | ⟨fdsExtra, -, rfl⟩⟩ := bgFirst_cases h <;> exact .same _
  · obtain ⟨-, rfl⟩ := bgPoll_cases h
    exact .same _
  · obtain ⟨-, rfl⟩ := bgSecond_cases h
    exact .of_eq (.wakes es) (added_process es)
  · rw [sockets_apply]
    exact rearranges_of_change hc

/-! ## Handles and numbers -/

variable {objects : List Object} {added : ℕ}

theorem Rearranges.added_le (hr : Rearranges cfg s a objects added) :
    s.net.sockets.added ≤ added := by
  cases hr <;> omega

/-- The handles of a listener, in the roles in which it has them. -/
theorem mem_holdings_listener {l : StcpListener} {h : SocketHandle} :
    (∃ r, (h, r) ∈ holdings (.listener l)) ↔
      h ∈ l.listenHandles.getD [] ∨ h ∈ phaseHandles l.phase := by
  simp only [holdings, List.mem_append, List.mem_map, Prod.mk.injEq]
  grind

theorem Turns.held {o o' : Object} (hturns : Turns a o o') {h : SocketHandle} {r : Role}
    (hh : (h, r) ∈ holdings o') : ∃ r', (h, r') ∈ holdings o := by
  cases hturns with
  | gone o => exact absurd hh (by simp [holdings])
  | listener hl =>
    rw [mem_holdings_listener]
    have hh' := mem_holdings_listener.mp ⟨r, hh⟩
    cases hl with
    | keeps handles port phase ttl => rwa [handles, phase] at hh'
    | takes peer handles found phase =>
      rw [handles]
      rcases hh' with hh' | hh'
      · exact Or.inl (List.mem_of_mem_eraseIdx hh')
      · rw [List.mem_singleton.mp hh']
        exact Or.inl (List.mem_of_getElem? found)
  | connecting hk =>
    rcases hk with hk | hk
    · exact absurd hh (by simp [holdings, hk])
    · exact ⟨r, by simpa [holdings, hk] using hh⟩
  | connected hk => exact ⟨r, by simpa [holdings, hk] using hh⟩

theorem Adds.held {o : Object} (hadds : s.Adds o) {h : SocketHandle} {r : Role}
    (hh : (h, r) ∈ holdings o) : ∃ r', (h, r') ∈ s.objects.flatMap holdings := by
  cases hadds with
  | listener lo port => exact absurd hh (by simp [holdings, phaseHandles])
  | stream hx => exact ⟨r, List.mem_flatMap.mpr ⟨_, hx, hh⟩⟩
  | udp hu =>
    rcases hu with hu | ⟨u', hu', hu⟩
    · exact absurd hh (by simp [holdings, hu])
    · exact ⟨r, List.mem_flatMap.mpr ⟨_, hu', by simpa [holdings, hu] using hh⟩⟩
  | connecting hk => exact absurd hh (by simp [holdings, hk])

theorem Connects.held {o : Object} {x : SocketHandle} (hconnects : Connects x o)
    {h : SocketHandle} {r : Role} (hh : (h, r) ∈ holdings o) : h = x := by
  cases hconnects with
  | gone => exact absurd hh (by simp [holdings])
  | stream => exact (Prod.mk.inj (List.mem_singleton.mp hh)).1
  | connecting hk =>
    rcases hk with hk | hk
    · exact absurd hh (by simp [holdings, hk])
    · rw [holdings, hk] at hh
      exact (Prod.mk.inj (List.mem_singleton.mp hh)).1

theorem mem_holdings_of_mem_set {objects : List Object} {i : ℕ} {o : Object}
    {x : SocketHandle × Role} (hx : x ∈ (objects.set i o).flatMap holdings) :
    x ∈ objects.flatMap holdings ∨ x ∈ holdings o := by
  obtain ⟨o', ho', hx'⟩ := List.mem_flatMap.mp hx
  rcases List.mem_or_eq_of_mem_set ho' with ho' | rfl
  · exact Or.inl (List.mem_flatMap.mpr ⟨o', ho', hx'⟩)
  · exact Or.inr hx'

theorem mem_holdings_append {objects : List Object} {o : Object} {x : SocketHandle × Role} :
    x ∈ (objects ++ [o]).flatMap holdings ↔ x ∈ objects.flatMap holdings ∨ x ∈ holdings o := by
  simp

/-- A handle in the values after a step was in them before, or is one of a new socket. -/
theorem Rearranges.held (hr : Rearranges cfg s a objects added) {h : SocketHandle} {r : Role}
    (hh : (h, r) ∈ objects.flatMap holdings) :
    (∃ r', (h, r') ∈ s.objects.flatMap holdings) ∨ s.net.sockets.added ≤ h.uid := by
  have hold {i : ℕ} {o : Object} (hi : s.objects[i]? = some o) (hmem : ∃ r', (h, r') ∈ holdings o) :
      ∃ r', (h, r') ∈ s.objects.flatMap holdings :=
    hmem.imp fun _ hr' ↦ mem_holdings hi hr'
  cases hr with
  | same a => exact Or.inl ⟨r, hh⟩
  | wakes events =>
    rw [List.flatMap_map] at hh
    obtain ⟨o, ho, hh⟩ := List.mem_flatMap.mp hh
    have hfst := List.mem_map_of_mem (f := Prod.fst) hh
    rw [map_fst_holdings_wakeAccept, List.mem_map] at hfst
    obtain ⟨⟨_, r'⟩, hr', rfl⟩ := hfst
    exact Or.inl ⟨r', List.mem_flatMap.mpr ⟨o, ho, hr'⟩⟩
  | turns hi hturns =>
    rcases mem_holdings_of_mem_set hh with hh | hh
    · exact Or.inl ⟨r, hh⟩
    · exact Or.inl (hold hi (hturns.held hh))
  | adds _ hadds =>
    rcases mem_holdings_append.mp hh with hh | hh
    · exact Or.inl ⟨r, hh⟩
    · exact Or.inl (hadds.held hh)
  | binds hresult huids =>
    rename_i hs lo port
    rcases mem_holdings_append.mp hh with hh | hh
    · exact Or.inl ⟨r, hh⟩
    · have hmem : h ∈ hs := by simpa [phaseHandles] using mem_holdings_listener.mp ⟨r, hh⟩
      have huid := List.mem_map_of_mem (f := SocketHandle.uid) hmem
      rw [huids, List.mem_range'_1] at huid
      exact Or.inr huid.1
  | bindsUdp =>
    rcases mem_holdings_append.mp hh with hh | hh
    · exact Or.inl ⟨r, hh⟩
    · rw [(Prod.mk.inj (List.mem_singleton.mp hh)).1]
      exact Or.inr le_rfl
  | accepts hi hphase hhandles hlistens =>
    rename_i l x peer hs t
    rcases mem_holdings_append.mp hh with hh | hh
    · rcases mem_holdings_of_mem_set hh with hh | hh
      · exact Or.inl ⟨r, hh⟩
      · have hmem := mem_holdings_listener.mp ⟨r, hh⟩
        simp only [Option.getD_some, phaseHandles, List.not_mem_nil, or_false, List.mem_append,
          List.mem_singleton] at hmem
        rcases hmem with hmem | rfl
        · exact Or.inl (hold hi (mem_holdings_listener.mpr (Or.inl (by rwa [hhandles]))))
        · exact Or.inr le_rfl
    · obtain rfl : h = x := (Prod.mk.inj (List.mem_singleton.mp hh)).1
      exact Or.inl (hold hi (mem_holdings_listener.mpr (Or.inr (by simp [hphase, phaseHandles]))))
  | loses hi hhandles hfails hobjects =>
    rcases hobjects with rfl | rfl
    · exact Or.inl ⟨r, hh⟩
    · rcases mem_holdings_of_mem_set hh with hh | hh
      · exact Or.inl ⟨r, hh⟩
      · have hmem := mem_holdings_listener.mp ⟨r, hh⟩
        simp only [phaseHandles, List.not_mem_nil, or_false] at hmem
        exact Or.inl (hold hi (mem_holdings_listener.mpr (Or.inl hmem)))
  | connects hi hconnects =>
    rcases mem_holdings_of_mem_set hh with hh | hh
    · exact Or.inl ⟨r, hh⟩
    · rw [hconnects.held hh]
      exact Or.inr le_rfl

end State

end UsnetSockets
