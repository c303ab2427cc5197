import UsnetSockets.Net.Objects

/-!
# How the sockets of the set evolve

A critical section changes sockets by calls of smoltcp, and adds sockets that it has made.
`Action.Does` lists the calls of each section and `State.Makes` its new sockets; `Evolves` says that
every socket of the set comes from one with the same number in the same slot by such calls, or is
new. Every step lets the sockets evolve like this. What the calls keep is then kept by all sockets
of the set, whatever it is: the data of the streams, the hop limits, the ports of connections.

The numbers tell the sockets apart: no two slots have a socket with the same number (`Numbered`).
-/

namespace UsnetSockets

open Relation

variable {T : Smoltcp}

/-- What a critical section may do to a socket. -/
inductive Action.Does (a : Action T) : T.Tcp ⊕ T.Udp → T.Tcp ⊕ T.Udp → Prop
  | close (ha : ∀ es, a ≠ .bgSecond es) (t : T.Tcp) : Does a (.inl t) (.inl (T.close t))
  | abort (ha : ∀ es, a ≠ .bgSecond es) (t : T.Tcp) : Does a (.inl t) (.inl (T.abort t))
  | setHopLimit {i : ℕ} {ttl : UInt32} {t t' : T.Tcp} (ha : a = .setTtl i ttl)
      (h : T.setHopLimit t (some ttl.toUInt8) = some t') : Does a (.inl t) (.inl t')
  | sendSlice {i : ℕ} {buf : List UInt8} (ha : a = .write i buf) (t : T.Tcp) :
      Does a (.inl t) (.inl (T.sendSlice t buf))
  | send {i : ℕ} {f : ℕ → List UInt8} (ha : a = .writeNoCopy i f) (t : T.Tcp) :
      Does a (.inl t) (.inl (T.send t f))
  | recvSlice {i len : ℕ} (ha : a = .read i len) (t : T.Tcp) :
      Does a (.inl t) (.inl (T.recvSlice t len))
  | recv {i : ℕ} {f : List UInt8 → ℕ} (ha : a = .readNoCopy i f) (t : T.Tcp) :
      Does a (.inl t) (.inl (T.recv t f))
  | sendUdp {i : ℕ} {buf : List UInt8} {addr : SocketAddr} (ha : a = .sendTo i buf addr)
      (u : T.Udp) : Does a (.inr u) (.inr (T.sendUdp u buf addr))
  | recvUdp {i len : ℕ} (ha : a = .recvFrom i len) (u : T.Udp) :
      Does a (.inr u) (.inr (T.recvUdp u len))
  | process {es : List (ℕ × T.Event)} (ha : a = .bgSecond es) (e : T.Event) (t : T.Tcp) :
      Does a (.inl t) (.inl (T.process e t))
  | processUdp {es : List (ℕ × T.Event)} (ha : a = .bgSecond es) (e : T.Event) (u : T.Udp) :
      Does a (.inr u) (.inr (T.processUdp e u))

/-- The sockets that a critical section may make. -/
inductive State.Makes (cfg : Config) (s : State T) (a : Action T) : T.Tcp ⊕ T.Udp → Prop
  | binds {addrs : List BindAddr} {slots : List ℕ} {port : UInt16} {lo : Fd} {t : T.Tcp}
      (ha : a = .bind addrs slots)
      (result : bindAddrs addrs emptyAddrs = some (.registered port lo))
      (listens : T.listen (T.newTcp cfg.socketBufferSize) port = some t) : Makes cfg s a (.inl t)
  | bindsUdp {addrs : List BindAddr} {slot : ℕ} (ha : a = .bindUdp addrs slot) (u : T.Udp) :
      Makes cfg s a (.inr u)
  | accepts {i slot : ℕ} {l : StcpListener} {t : T.Tcp} (ha : a = .acceptReplace i slot)
      (hi : s.objects[i]? = some (.listener l))
      (listens : ((T.setHopLimit (T.newTcp cfg.socketBufferSize) l.ttl).bind
        fun t ↦ T.listen t l.port) = some t) : Makes cfg s a (.inl t)
  | loses {i slot : ℕ} {l : StcpListener} (ha : a = .acceptReplace i slot)
      (hi : s.objects[i]? = some (.listener l))
      (fails : ((T.setHopLimit (T.newTcp cfg.socketBufferSize) l.ttl).bind
        fun t ↦ T.listen t l.port) = none) : Makes cfg s a (.inl (T.newTcp cfg.socketBufferSize))
  | connects {i slot : ℕ} {draws : List PortDraw} {system : Except IoError Unit} {k : Connecting}
      {addr : SocketAddr} {port : UInt16} {t : T.Tcp} (ha : a = .connectNext i draws slot system)
      (hi : s.objects[i]? = some (.connecting k)) (head : k.addrs.head? = some addr)
      (stack : (viaSystem cfg addr || addr.ip.isIpv6) = false)
      (chosen : choosePort cfg.kernelLocalPortRange draws = some port)
      (connects : T.connect (T.newTcp cfg.socketBufferSize) addr port = some t) :
      Makes cfg s a (.inl t)
  | refused {i slot : ℕ} {draws : List PortDraw} {system : Except IoError Unit}
      (ha : a = .connectNext i draws slot system) :
      Makes cfg s a (.inl (T.newTcp cfg.socketBufferSize))

theorem Action.Does.exists_tcp {a : Action T} {x : T.Tcp ⊕ T.Udp} {t' : T.Tcp}
    (h : a.Does x (.inl t')) : ∃ t, x = .inl t := by
  rcases x with t | u
  · exact ⟨t, rfl⟩
  · nomatch h

/-- What each call does to a TCP socket is done by any number of them. -/
theorem Action.Does.of_reflTransGen {a : Action T} {Q : T.Tcp → T.Tcp → Prop} (hrefl : ∀ t, Q t t)
    (htrans : ∀ t t' t'', Q t t' → Q t' t'' → Q t t'')
    (hQ : ∀ t t', a.Does (.inl t) (.inl t') → Q t t') {x y : T.Tcp ⊕ T.Udp}
    (h : ReflTransGen a.Does x y) {t' : T.Tcp} (hy : y = .inl t') : ∃ t, x = .inl t ∧ Q t t' := by
  induction h generalizing t' with
  | refl => exact ⟨t', hy, hrefl t'⟩
  | tail _ hlast ih =>
    subst hy
    obtain ⟨t₁, rfl⟩ := hlast.exists_tcp
    obtain ⟨t, rfl, ht⟩ := ih rfl
    exact ⟨t, rfl, htrans t t₁ t' ht (hQ t₁ t' hlast)⟩

namespace SocketSet

variable {S S' S'' : SocketSet T} {R : T.Tcp ⊕ T.Udp → T.Tcp ⊕ T.Udp → Prop}
  {N : T.Tcp ⊕ T.Udp → Prop}

/-- The numbers of the sockets are those given out so far, each to one socket. -/
structure Numbered (S : SocketSet T) : Prop where
  uid_lt : ∀ i item, S.slots i = some item → item.uid < S.added
  inj : ∀ i j item item', S.slots i = some item → S.slots j = some item' → item.uid = item'.uid →
    i = j

theorem numbered_empty : (SocketSet.empty : SocketSet T).Numbered :=
  ⟨fun i item h ↦ absurd h (by simp [SocketSet.empty]),
    fun i j item item' h ↦ absurd h (by simp [SocketSet.empty])⟩

/-- Where the numbers in the slots stay, or go, they remain in order. -/
theorem Numbered.of_slots (h : S.Numbered) (hadded : S.added ≤ S'.added)
    (hslots : ∀ i item', S'.slots i = some item' →
      ∃ item, S.slots i = some item ∧ item.uid = item'.uid) : S'.Numbered := by
  constructor
  · intro i item' hitem'
    obtain ⟨item, hitem, huid⟩ := hslots i item' hitem'
    exact huid ▸ (h.uid_lt i item hitem).trans_le hadded
  · intro i j item' item'' hitem' hitem'' heq
    obtain ⟨item, hitem, huid⟩ := hslots i item' hitem'
    obtain ⟨item₁, hitem₁, huid₁⟩ := hslots j item'' hitem''
    exact h.inj i j item item₁ hitem hitem₁ (huid.trans (heq.trans huid₁.symm))

theorem uid_slots_modify {index : ℕ} {f : Item T → Item T} (huid : ∀ item, (f item).uid = item.uid)
    (i : ℕ) (item' : Item T) (hitem' : (S.modify index f).slots i = some item') :
    ∃ item, S.slots i = some item ∧ item.uid = item'.uid := by
  rw [slots_modify] at hitem'
  split at hitem'
  · obtain ⟨item, hitem, rfl⟩ := Option.map_eq_some_iff.mp hitem'
    exact ⟨item, hitem, (huid item).symm⟩
  · exact ⟨item', hitem', rfl⟩

/-- A new socket is in the slot that was asked for, and everything else is as before. -/
theorem slots_of_add {slot : ℕ} {x : T.Tcp ⊕ T.Udp} {h : SocketHandle}
    (hadd : S.add slot x = some (h, S')) (i : ℕ) (item : Item T) (hitem : S'.slots i = some item) :
    (i = slot ∧ item = ⟨S.added, 1, x⟩) ∨ S.slots i = some item := by
  rw [SocketSet.add] at hadd
  split at hadd
  · simp only [Option.some.injEq, Prod.mk.injEq] at hadd
    obtain ⟨-, rfl⟩ := hadd
    dsimp only at hitem
    by_cases hslot : i = slot
    · rw [hslot, Function.update_self, Option.some_inj] at hitem
      exact .inl ⟨hslot, hitem.symm⟩
    · rw [Function.update_of_ne hslot] at hitem
      exact .inr hitem
  · exact absurd hadd (by simp)

/-- What has become of the sockets of `S` in `S'`: each has been changed in ways that `R` allows,
and new ones have been made in one that `N` allows. -/
structure Evolves (R : T.Tcp ⊕ T.Udp → T.Tcp ⊕ T.Udp → Prop) (N : T.Tcp ⊕ T.Udp → Prop)
    (S S' : SocketSet T) : Prop where
  added_le : S.added ≤ S'.added
  numbered : S.Numbered → S'.Numbered
  comes : ∀ i item', S'.slots i = some item' →
    (∃ item, S.slots i = some item ∧ item.uid = item'.uid ∧
      ReflTransGen R item.socket item'.socket) ∨
    (S.added ≤ item'.uid ∧ ∃ x, N x ∧ ReflTransGen R x item'.socket)

namespace Evolves

theorem refl (S : SocketSet T) : Evolves R N S S :=
  ⟨le_rfl, id, fun _ item hitem ↦ .inl ⟨item, hitem, rfl, .refl⟩⟩

theorem trans (h : Evolves R N S S') (h' : Evolves R N S' S'') : Evolves R N S S'' := by
  refine ⟨h.added_le.trans h'.added_le, h'.numbered ∘ h.numbered, fun i item'' hitem'' ↦ ?_⟩
  obtain ⟨item', hitem', huid', hR'⟩ | ⟨hnew, x, hx, hR⟩ := h'.comes i item'' hitem''
  · obtain ⟨item, hitem, huid, hR⟩ | ⟨hnew, x, hx, hR⟩ := h.comes i item' hitem'
    · exact .inl ⟨item, hitem, huid.trans huid', hR.trans hR'⟩
    · exact .inr ⟨huid' ▸ hnew, x, hx, hR.trans hR'⟩
  · exact .inr ⟨h.added_le.trans hnew, x, hx, hR⟩

/-- A change of one slot that leaves the number alone. -/
theorem modify {index : ℕ} {f : Item T → Item T} (huid : ∀ item, (f item).uid = item.uid)
    (hf : ∀ item, S.slots index = some item → ReflTransGen R item.socket (f item).socket) :
    Evolves R N S (S.modify index f) := by
  refine ⟨le_rfl, fun h ↦ h.of_slots le_rfl (uid_slots_modify huid), fun i item' hitem' ↦ .inl ?_⟩
  rw [slots_modify] at hitem'
  split at hitem'
  · next hi =>
    subst hi
    obtain ⟨item, hitem, rfl⟩ := Option.map_eq_some_iff.mp hitem'
    exact ⟨item, hitem, (huid item).symm, hf item hitem⟩
  · exact ⟨item', hitem', rfl, .refl⟩

theorem setTcp {h : SocketHandle} {t t' : T.Tcp} (ht : S.getTcp h = some t)
    (hR : R (.inl t) (.inl t')) : Evolves R N S (S.setSocket h (.inl t')) := by
  obtain ⟨item, hitem, hsocket⟩ := getTcp_eq_some ht
  refine modify (fun _ ↦ rfl) fun item' hitem' ↦ ?_
  obtain rfl := Option.some.inj (hitem.symm.trans hitem')
  rw [hsocket]
  exact .single hR

theorem setUdp {h : SocketHandle} {u u' : T.Udp} (hu : S.getUdp h = some u)
    (hR : R (.inr u) (.inr u')) : Evolves R N S (S.setSocket h (.inr u')) := by
  obtain ⟨item, hitem, hsocket⟩ := getUdp_eq_some hu
  refine modify (fun _ ↦ rfl) fun item' hitem' ↦ ?_
  obtain rfl := Option.some.inj (hitem.symm.trans hitem')
  rw [hsocket]
  exact .single hR

theorem add {slot : ℕ} {x : T.Tcp ⊕ T.Udp} {h : SocketHandle} (hx : N x)
    (hadd : S.add slot x = some (h, S')) : Evolves R N S S' := by
  have hslots := slots_of_add hadd
  have hadded := (add_eq_some hadd).2
  refine ⟨hadded ▸ Nat.le_succ _, fun hnum ↦ ⟨fun i item hitem ↦ ?_, ?_⟩, fun i item hitem ↦ ?_⟩
  · rw [hadded]
    obtain ⟨-, rfl⟩ | hitem := hslots i item hitem
    · exact Nat.lt_succ_self _
    · exact (hnum.uid_lt i item hitem).trans (Nat.lt_succ_self _)
  · -- the new number is larger than all others
    intro i j item item' hi hj heq
    obtain ⟨rfl, rfl⟩ | hi := hslots i item hi <;> obtain ⟨rfl, rfl⟩ | hj := hslots j item' hj
    · rfl
    · exact absurd (hnum.uid_lt j item' hj) (by simp [← heq])
    · exact absurd (hnum.uid_lt i item hi) (by simp [heq])
    · exact hnum.inj i j item item' hi hj heq
  · obtain ⟨-, rfl⟩ | hitem := hslots i item hitem
    · exact .inr ⟨le_rfl, x, hx, .refl⟩
    · exact .inl ⟨item, hitem, rfl, .refl⟩

theorem addBacklog {socket : T.Tcp} {slots : List ℕ} {hs : List SocketHandle}
    (hx : N (.inl socket)) (hadd : S.addBacklog socket slots = some (hs, S')) :
    Evolves R N S S' := by
  induction slots generalizing S hs with
  | nil =>
    simp only [SocketSet.addBacklog, Option.some.injEq, Prod.mk.injEq] at hadd
    obtain ⟨-, rfl⟩ := hadd
    exact refl S
  | cons slot slots ih =>
    rw [SocketSet.addBacklog] at hadd
    split at hadd
    · exact absurd hadd (by simp)
    · next x S₁ hfirst =>
      split at hadd
      · exact absurd hadd (by simp)
      · next hs' S₂ hrest =>
        simp only [Option.some.injEq, Prod.mk.injEq] at hadd
        obtain ⟨-, rfl⟩ := hadd
        exact (add hx hfirst).trans (ih hrest)

theorem retain {h : SocketHandle} (hret : S.retain h = some S') : Evolves R N S S' := by
  rw [SocketSet.retain] at hret
  split at hret
  · rw [← Option.some.inj hret]
    exact modify (fun _ ↦ rfl) fun _ _ ↦ .refl
  · exact absurd hret (by simp)

/-- Sockets that nobody holds are closed or removed. -/
theorem prune (hclose : ∀ t, R (.inl t) (.inl (T.close t))) (S : SocketSet T) :
    Evolves R N S S.prune := by
  have hslots : ∀ i item', S.prune.slots i = some item' →
      ∃ item, S.slots i = some item ∧ item.uid = item'.uid ∧
        ReflTransGen R item.socket item'.socket := by
    intro i item' hitem'
    obtain ⟨item, hitem, hprune⟩ := Option.bind_eq_some_iff.mp hitem'
    refine ⟨item, hitem, (uid_pruneItem hprune).symm, ?_⟩
    rw [pruneItem] at hprune
    split at hprune
    · split at hprune
      · exact absurd hprune (by simp)
      · next t hsocket =>
        split at hprune
        · exact absurd hprune (by simp)
        · rw [← Option.some.inj hprune, hsocket]
          exact .single (hclose t)
    · rw [Option.some.inj hprune]
  refine ⟨le_rfl, fun h ↦ h.of_slots le_rfl fun i item' hitem' ↦ ?_, fun i item' hitem' ↦ ?_⟩
  · obtain ⟨item, hitem, huid, -⟩ := hslots i item' hitem'
    exact ⟨item, hitem, huid⟩
  · exact .inl (hslots i item' hitem')

theorem release {h : SocketHandle} (hrel : S.release h = some S') : Evolves R N S S' := by
  rw [SocketSet.release] at hrel
  split at hrel
  · split at hrel
    · exact absurd hrel (by simp)
    · rw [← Option.some.inj hrel]
      exact modify (fun _ ↦ rfl) fun _ _ ↦ .refl
  · exact absurd hrel (by simp)

theorem releaseAll {hs : List SocketHandle} (hclose : ∀ t, R (.inl t) (.inl (T.close t)))
    (hrel : SocketSet.releaseAll hs S = some S') : Evolves R N S S' := by
  induction hs generalizing S with
  | nil =>
    rw [← Option.some.inj hrel]
    exact refl S
  | cons h hs ih =>
    rw [SocketSet.releaseAll] at hrel
    split at hrel
    · next S₁ hone => exact (release hone).trans ((prune hclose S₁).trans (ih hrel))
    · exact absurd hrel (by simp)

theorem process (htcp : ∀ e t, R (.inl t) (.inl (T.process e t)))
    (hudp : ∀ e u, R (.inr u) (.inr (T.processUdp e u))) (events : List (ℕ × T.Event))
    (S : SocketSet T) : Evolves R N S (S.process events) := by
  induction events generalizing S with
  | nil => exact refl S
  | cons e events ih =>
    have hone : Evolves R N S (S.modify e.1 (processItem e.2)) := by
      refine modify (fun _ ↦ rfl) fun item _ ↦ ?_
      rcases hsocket : item.socket with t | u
      · simpa [processItem, hsocket] using .single (htcp e.2 t)
      · simpa [processItem, hsocket] using .single (hudp e.2 u)
    exact hone.trans (ih _)

end Evolves

end SocketSet

/-! ## Each operation -/

namespace State

open SocketSet

variable {cfg : Config} {s s' : State T} {c : Change T} {a : Action T}

/-- The sockets evolve by what the section does and makes. -/
abbrev Grows (cfg : Config) (s : State T) (a : Action T) (S S' : SocketSet T) : Prop :=
  Evolves a.Does (s.Makes cfg a) S S'

private theorem evolves_connectFailed {S : SocketSet T} {i : ℕ} {k : Connecting} {x : SocketHandle}
    (ha : ∀ es, a ≠ .bgSecond es) (h : s.connectFailed S i k x = c) :
    Grows cfg s a S c.sockets := by
  obtain ⟨-, rfl⟩ | ⟨S', hrel, rfl⟩ := connectFailed_cases h
  · exact .refl _
  · exact .releaseAll (.close ha) hrel

private theorem evolves_connectCheck {S : SocketSet T} {i : ℕ} {k : Connecting} {x : SocketHandle}
    (ha : ∀ es, a ≠ .bgSecond es) (h : s.connectCheck S i k x = c) :
    Grows cfg s a S c.sockets := by
  obtain ⟨-, rfl⟩ | ⟨t, -, -, h⟩ | ⟨t, -, -, -, rfl⟩ | ⟨t, -, -, -, rfl⟩ := connectCheck_cases h
  · exact .refl _
  · exact evolves_connectFailed ha h
  · exact .refl _
  · exact .refl _

private theorem evolves_connectNext {i slot : ℕ} {draws : List PortDraw}
    {system : Except IoError Unit} (h : s.connectNext cfg i draws slot system = some c) :
    Grows cfg s (.connectNext i draws slot system) s.net.sockets c.sockets := by
  obtain ⟨k, hi, -, ⟨-, rfl⟩ | ⟨addr, addrs, haddrs, hc⟩⟩ := connectNext_cases h
  · exact .refl _
  obtain ⟨-, -, rfl⟩ | ⟨-, e, -, rfl⟩ | ⟨-, -, rfl⟩ | ⟨-, -, _, x, S, -, -, hadd, rfl⟩ |
    ⟨hsys, hv6, port, t, x, S, hport, hconnect, hadd, hc⟩ := hc
  · exact .refl _
  · exact .refl _
  · exact .refl _
  · exact .add (.refused rfl) hadd
  · have hev : Grows cfg s (.connectNext i draws slot system) s.net.sockets S :=
      .add (.connects rfl hi (by rw [haddrs]; rfl) (by simp [hsys, hv6]) hport hconnect) hadd
    obtain ⟨-, rfl⟩ | ⟨-, rfl⟩ := hc
    · exact hev
    · have hcheck : Grows cfg s (.connectNext i draws slot system) S
          (s.connectCheck S i { k with addrs := addrs } x).sockets :=
        evolves_connectCheck (by simp) rfl
      exact hev.trans hcheck

private theorem evolves_connectTimeout {i : ℕ} (h : s.connectTimeout i = some c) :
    Grows cfg s (.connectTimeout i) s.net.sockets c.sockets := by
  obtain ⟨k, x, -, -, -, ⟨-, rfl⟩ | ⟨t, ht, h⟩⟩ := connectTimeout_cases h
  · exact .refl _
  · exact (Evolves.setTcp ht (.abort (by simp) t)).trans (evolves_connectFailed (by simp) h)

private theorem evolves_acceptReplace {i slot : ℕ} (h : s.acceptReplace cfg i slot = some c) :
    Grows cfg s (.acceptReplace i slot) s.net.sockets c.sockets := by
  obtain ⟨l, x, peer, hs, hi, -, -, ⟨t, x', S, hlisten, hadd, rfl⟩ |
    ⟨x', S, hfail, hadd, ⟨-, rfl⟩ | ⟨S', hrel, rfl⟩⟩⟩ := acceptReplace_cases h
  · exact .add (.accepts rfl hi hlisten) hadd
  · exact .add (.loses rfl hi hfail) hadd
  · have hlost : Grows cfg s (.acceptReplace i slot) s.net.sockets S :=
      .add (.loses rfl hi hfail) hadd
    exact hlost.trans (.releaseAll (.close (by simp)) hrel)

private theorem evolves_setHopLimits {i : ℕ} {ttl : UInt32} {hs : List SocketHandle}
    {S S' : SocketSet T} {panic : Option Panic}
    (h : setHopLimits (some ttl.toUInt8) hs S = (S', panic)) :
    Grows cfg s (.setTtl i ttl) S S' := by
  induction hs generalizing S with
  | nil =>
    rw [setHopLimits, Prod.mk.injEq] at h
    exact h.1 ▸ .refl S
  | cons x hs ih =>
    rw [setHopLimits] at h
    split at h
    · rw [Prod.mk.injEq] at h
      exact h.1 ▸ .refl S
    · next t ht =>
      split at h
      · rw [Prod.mk.injEq] at h
        exact h.1 ▸ .refl S
      · next t' ht' => exact (Evolves.setTcp ht (.setHopLimit rfl ht')).trans (ih h)

private theorem evolves_writeWith {i : ℕ} {send : T.Tcp → T.Tcp}
    (hsend : ∀ t, a.Does (.inl t) (.inl (send t))) (h : s.writeWith i send = some c) :
    Grows cfg s a s.net.sockets c.sockets := by
  obtain ⟨x, -, ⟨-, rfl⟩ | ⟨t, ht, ⟨-, rfl⟩ | ⟨-, rfl⟩⟩⟩ := writeWith_cases h
  · exact .refl _
  · exact .setTcp ht (hsend t)
  · exact .refl _

private theorem evolves_readWith {i : ℕ} {recv : T.Tcp → T.Tcp}
    (hrecv : ∀ t, a.Does (.inl t) (.inl (recv t))) (h : s.readWith i recv = some c) :
    Grows cfg s a s.net.sockets c.sockets := by
  obtain ⟨x, -, ⟨-, rfl⟩ | ⟨t, ht, ⟨-, rfl⟩ | ⟨-, rfl⟩⟩⟩ := readWith_cases h
  · exact .refl _
  · exact .setTcp ht (hrecv t)
  · exact .refl _

private theorem evolves_shutdown {i : ℕ} {how : Shutdown} (h : s.shutdown i how = some c) :
    Grows cfg s (.shutdown i how) s.net.sockets c.sockets := by
  obtain ⟨x, -, ⟨-, rfl⟩ | ⟨t, ht, ⟨-, rfl⟩ | ⟨-, rfl⟩ | ⟨-, rfl⟩⟩⟩ := shutdown_cases h
  · exact .refl _
  · exact .refl _
  · exact .setTcp ht (.close (by simp) t)
  · exact .setTcp ht (.abort (by simp) t)

private theorem evolves_tryCloneUdp {i : ℕ} {dup : Except IoError Fd}
    (h : s.tryCloneUdp cfg i dup = some c) : Grows cfg s a s.net.sockets c.sockets := by
  obtain ⟨u, -, ⟨-, rfl⟩ | ⟨S, hret, hc⟩⟩ := tryCloneUdp_cases h
  · exact .refl _
  have hev : Grows cfg s a s.net.sockets S := by
    rcases hu : u.socketHandle with _ | x
    · rw [hu] at hret
      rw [← Option.some.inj hret]
      exact .refl _
    · rw [hu] at hret
      exact .retain hret
  obtain ⟨e, -, rfl⟩ | ⟨lo, -, -, rfl⟩ := hc
  · exact hev
  · exact hev

private theorem evolves_sendTo {i : ℕ} {buf : List UInt8} {addr : SocketAddr}
    (h : s.sendTo i buf addr = some c) :
    Grows cfg s (.sendTo i buf addr) s.net.sockets c.sockets := by
  obtain ⟨u, -, ⟨-, rfl⟩ | ⟨x, -, -, ⟨-, rfl⟩ | ⟨t, ht, ⟨-, rfl⟩ | ⟨-, rfl⟩⟩⟩⟩ := sendTo_cases h
  · exact .refl _
  · exact .refl _
  · exact .setUdp ht (.sendUdp rfl t)
  · exact .refl _

private theorem evolves_recvFrom {i len : ℕ} (h : s.recvFrom i len = some c) :
    Grows cfg s (.recvFrom i len) s.net.sockets c.sockets := by
  obtain ⟨u, -, ⟨-, rfl⟩ | ⟨x, -, ⟨-, rfl⟩ | ⟨t, ht, ⟨-, rfl⟩ | ⟨-, rfl⟩⟩⟩⟩ := recvFrom_cases h
  · exact .refl _
  · exact .refl _
  · exact .setUdp ht (.recvUdp rfl t)
  · exact .refl _

theorem evolves_of_change (h : s.change cfg a = some c) :
    Grows cfg s a s.net.sockets c.sockets := by
  cases a with
  | bgFirst now => exact absurd h (by simp [change])
  | bgPoll ok => exact absurd h (by simp [change])
  | bgSecond events => exact absurd h (by simp [change])
  | bind addrs slots =>
    obtain ⟨e, -, rfl⟩ | ⟨port, lo, -, -, rfl⟩ |
      ⟨port, lo, socket, hs, S, hresult, -, -, hlisten, hadd, rfl⟩ := bind_cases h
    · exact .refl _
    · exact .refl _
    · exact .addBacklog (.binds rfl hresult hlisten) hadd
  | bindUdp addrs slot =>
    obtain rfl | ⟨port, lo, -, -, rfl⟩ | ⟨port, lo, socket, x, S, -, -, -, hadd, rfl⟩ :=
      bindUdp_cases h
    · exact .refl _
    · exact .refl _
    · exact .add (.bindsUdp rfl socket) hadd
  | dropListener i =>
    obtain ⟨l, -, -, ⟨-, rfl⟩ | ⟨hs, -, ⟨-, rfl⟩ | ⟨S, hrel, rfl⟩⟩⟩ := dropListener_cases h
    · exact .refl _
    · exact .refl _
    · exact .releaseAll (.close (by simp)) hrel
  | dropStream i =>
    obtain ⟨x, -, ⟨-, rfl⟩ | ⟨S, hrel, rfl⟩⟩ := dropStream_cases h
    · exact .refl _
    · exact .releaseAll (.close (by simp)) hrel
  | dropUdp i =>
    obtain ⟨u, -, ⟨-, rfl⟩ | ⟨S, hrel, rfl⟩⟩ := dropUdp_cases h
    · exact .refl _
    · exact .releaseAll (.close (by simp)) hrel
  | setTtl i ttl =>
    obtain ⟨l, S, panic, -, -, hset, rfl⟩ := setTtl_cases h
    exact evolves_setHopLimits hset
  | setNonblocking i nonblocking =>
    obtain ⟨l, -, -, rfl⟩ := setNonblocking_cases h
    exact .refl _
  | accept i =>
    obtain ⟨l, -, -, ⟨-, rfl⟩ | ⟨hs, -, rfl⟩⟩ := accept_cases h
    · exact .refl _
    · exact .refl _
  | acceptWait i =>
    obtain ⟨l, -, -, -, rfl⟩ := acceptWait_cases h
    exact .refl _
  | acceptCheck i lo =>
    obtain ⟨l, hs, -, -, -, ⟨-, rfl⟩ | ⟨-, -, rfl⟩ | ⟨-, -, rfl⟩ | ⟨k, x, t, -, -, rfl⟩⟩ :=
      acceptCheck_cases h
    all_goals exact .refl _
  | acceptReplace i slot => exact evolves_acceptReplace h
  | connect addrs hasTimeout =>
    rw [← Option.some.inj h]
    exact .refl _
  | connectNext i draws slot system => exact evolves_connectNext h
  | connectWake i =>
    obtain ⟨k, x, -, -, h⟩ := connectWake_cases h
    exact evolves_connectCheck (by simp) h
  | connectTimeout i => exact evolves_connectTimeout h
  | write i buf => exact evolves_writeWith (.sendSlice rfl) h
  | writeNoCopy i f => exact evolves_writeWith (.send rfl) h
  | read i len => exact evolves_readWith (.recvSlice rfl) h
  | readNoCopy i f => exact evolves_readWith (.recv rfl) h
  | shutdown i how => exact evolves_shutdown h
  | tryClone i =>
    obtain ⟨x, -, ⟨-, rfl⟩ | ⟨S, hret, rfl⟩⟩ := tryClone_cases h
    · exact .refl _
    · exact .retain hret
  | tryCloneUdp i dup => exact evolves_tryCloneUdp h
  | sendTo i buf addr => exact evolves_sendTo h
  | recvFrom i len => exact evolves_recvFrom h

/-- **The sockets evolve** in every step by what it does and makes. -/
theorem evolves_of_step (h : s.step cfg a = some s') :
    Grows cfg s a s.net.sockets s'.net.sockets := by
  rcases step_cases h with ⟨now, rfl, h⟩ | ⟨ok, rfl, h⟩ | ⟨events, rfl, h⟩ | ⟨c, hc, rfl⟩
  · obtain ⟨-, ⟨-, rfl⟩ | ⟨fdsExtra, -, rfl⟩⟩ := bgFirst_cases h
    · exact .refl _
    · exact .refl _
  · obtain ⟨-, rfl⟩ := bgPoll_cases h
    exact .refl _
  · obtain ⟨-, rfl⟩ := bgSecond_cases h
    exact .process (.process rfl) (.processUdp rfl) events s.net.sockets
  · rw [sockets_apply]
    exact evolves_of_change hc

section Held

variable {P P' : Bool → TcpState → ℕ → Prop} {h : SocketHandle} {r r' : Role} {t' : T.Tcp}

/-- What a step has made of a socket that the application holds before and after it. -/
theorem does_of_step (hs : Kept P s.net.sockets s.objects)
    (hs' : Kept P' s'.net.sockets s'.objects) (hstep : s.step cfg a = some s')
    (hr : (h, r) ∈ s.objects.flatMap holdings) (hr' : (h, r') ∈ s'.objects.flatMap holdings)
    (ht' : s'.net.sockets.getTcp h = some t') : ∃ t, s.net.sockets.getTcp h = some t ∧
      ReflTransGen a.Does (.inl t) (.inl t') := by
  obtain ⟨item, hslot, huid, -⟩ := hs.backs _ hr
  obtain ⟨item', hslot', huid', -⟩ := hs'.backs _ hr'
  obtain ⟨item₁, hslot₁, hsocket⟩ := getTcp_eq_some ht'
  obtain rfl := Option.some.inj (hslot'.symm.trans hslot₁)
  obtain ⟨item₀, hslot₀, -, hdoes⟩ | ⟨hnew, -⟩ := (evolves_of_step hstep).comes _ item' hslot'
  · obtain rfl := Option.some.inj (hslot.symm.trans hslot₀)
    rw [hsocket] at hdoes
    obtain ⟨t, ht, -⟩ := Action.Does.of_reflTransGen (Q := fun _ _ ↦ True) (fun _ ↦ trivial)
      (fun _ _ _ _ _ ↦ trivial) (fun _ _ _ ↦ trivial) hdoes rfl
    exact ⟨t, getTcp_of_slots hslot ht, ht ▸ hdoes⟩
  · -- the socket has an old number
    rw [huid', ← huid] at hnew
    exact absurd (hs.uid_lt _ item hslot) (Nat.not_lt.mpr hnew)

/-- A socket with a new number is one that the step has made. -/
theorem makes_of_step (hs : Kept P s.net.sockets s.objects)
    (hs' : Kept P' s'.net.sockets s'.objects) (hstep : s.step cfg a = some s')
    (hr' : (h, r') ∈ s'.objects.flatMap holdings) (ht' : s'.net.sockets.getTcp h = some t')
    (hnew : s.net.sockets.added ≤ h.uid) :
    ∃ t, s.Makes cfg a (.inl t) ∧ ReflTransGen a.Does (.inl t) (.inl t') := by
  obtain ⟨item', hslot', huid', -⟩ := hs'.backs _ hr'
  obtain ⟨item₁, hslot₁, hsocket⟩ := getTcp_eq_some ht'
  obtain rfl := Option.some.inj (hslot'.symm.trans hslot₁)
  obtain ⟨item, hslot, huid, -⟩ | ⟨-, x, hx, hdoes⟩ := (evolves_of_step hstep).comes _ item' hslot'
  · -- no old socket has the number
    have hlt := hs.uid_lt _ item hslot
    rw [huid, huid'] at hlt
    exact absurd hlt (Nat.not_lt.mpr hnew)
  · rw [hsocket] at hdoes
    obtain ⟨t, rfl, -⟩ := Action.Does.of_reflTransGen (Q := fun _ _ ↦ True) (fun _ ↦ trivial)
      (fun _ _ _ _ _ ↦ trivial) (fun _ _ _ ↦ trivial) hdoes rfl
    exact ⟨t, hx, hdoes⟩

end Held

end State

end UsnetSockets
