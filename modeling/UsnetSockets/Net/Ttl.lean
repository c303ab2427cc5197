import UsnetSockets.Net.Backlog
import UsnetSockets.Net.HopLimits

/-!
# Setting the TTL

`set_ttl` narrows its argument to eight bits for the sockets of the stack, and hands the whole of it
to the kernel afterwards. A listener keeps the narrowed value too, for the sockets that `accept`
will put in the place of those it takes. But `accept` sets the hop limit of such a socket before it
tells it to listen, and `listen` makes the socket new: it sends with the default.

The transition system has `set_ttl` of listeners already. Those of streams and of UDP sockets are
added to it here, so that a listener can be followed through everything that may happen later.
-/

namespace UsnetSockets

variable {T : Smoltcp}

/-- What the kernel makes of a TTL: an error, or the value that it reports from then on. -/
abbrev KernelTtl := UInt32 → Except IoError UInt32

/-- What is known of the kernel. -/
structure KernelTtl.Lawful (kernel : KernelTtl) : Prop where
  accepts : ∀ t : UInt32, 1 ≤ t.toNat → t.toNat ≤ 255 → kernel t = .ok t
  refuses_zero : isErr (kernel 0) = true
  refuses : ∀ t : UInt32, 256 ≤ t.toNat → t.toNat < 2 ^ 31 → isErr (kernel t) = true

/-- A kernel that accepts nothing else. -/
def KernelTtl.reference : KernelTtl := fun t ↦
  if 1 ≤ t.toNat ∧ t.toNat ≤ 255 then .ok t else .error (.os 22)

theorem KernelTtl.lawful_reference : KernelTtl.reference.Lawful where
  accepts t h1 h2 := by simp [KernelTtl.reference, h1, h2]
  refuses_zero := rfl
  refuses t h1 _ := by
    have hno : ¬(1 ≤ t.toNat ∧ t.toNat ≤ 255) := by omega
    simp [KernelTtl.reference, hno, isErr]

theorem KernelTtl.Lawful.one_le {kernel : KernelTtl} (hkernel : kernel.Lawful) {t r : UInt32}
    (hok : kernel t = .ok r) : 1 ≤ t.toNat := by
  by_contra hlow
  have ht0 : t = 0 := UInt32.toNat_inj.mp (by rw [UInt32.toNat_zero]; omega)
  have herr := hkernel.refuses_zero
  rw [← ht0, hok] at herr
  exact absurd herr (by simp [isErr])

namespace State

open Transition SocketSet Smoltcp.HopLimits

/-- `StcpStream::set_ttl`. -/
def setTtlStream (s : State T) (i : ℕ) (ttl : UInt32) : Option (Change T) :=
  match s.objects[i]? with
  | some (.stream h) =>
    match s.net.sockets.getTcp h with
    | none => some s.panics
    | some t =>
      match T.setHopLimit t (some ttl.toUInt8) with
      | none => some { s.same with callPanicked := true }
      | some t => some { s.same with sockets := s.net.sockets.setSocket h (.inl t) }
  | _ => none

/-- `UdpSocket::set_ttl`, up to the call of the kernel. -/
def setTtlUdp (hl : T.HopLimits) (s : State T) (i : ℕ) (ttl : UInt32) : Option (Change T) :=
  match s.objects[i]? with
  | some (.udp u) =>
    match u.socketHandle with
    | none => some s.same
    | some h =>
      match s.net.sockets.getUdp h with
      | none => some s.panics
      | some t =>
        match hl.setUdp t (some ttl.toUInt8) with
        | none => some { s.same with callPanicked := true }
        | some t => some { s.same with sockets := s.net.sockets.setSocket h (.inr t) }
  | _ => none

/-- The critical sections, with `set_ttl` of streams and of UDP sockets. -/
inductive TtlAction (T : Smoltcp) where
  | core (a : Action T)
  | stream (i : ℕ) (ttl : UInt32)
  | udp (i : ℕ) (ttl : UInt32)

def ttlStep (cfg : Config) (hl : T.HopLimits) (s : State T) : TtlAction T → Option (State T)
  | .core a => s.step cfg a
  | .stream i ttl => (s.setTtlStream i ttl).map (s.apply cfg)
  | .udp i ttl => (s.setTtlUdp hl i ttl).map (s.apply cfg)

variable {cfg : Config} {hl : T.HopLimits} {s s' : State T} {c : Change T} {i : ℕ} {ttl : UInt32}

theorem setTtlStream_cases (h : s.setTtlStream i ttl = some c) :
    ∃ x, s.objects[i]? = some (.stream x) ∧
      ((s.net.sockets.getTcp x = none ∧ c = s.panics) ∨
      ∃ t, s.net.sockets.getTcp x = some t ∧
        ((T.setHopLimit t (some ttl.toUInt8) = none ∧ c = { s.same with callPanicked := true }) ∨
        ∃ t', T.setHopLimit t (some ttl.toUInt8) = some t' ∧
          c = { s.same with sockets := s.net.sockets.setSocket x (.inl t') })) := by
  rw [setTtlStream] at h
  split at h
  · next x hi =>
    refine ⟨x, hi, ?_⟩
    split at h
    · next hnone => exact .inl ⟨hnone, (Option.some.inj h).symm⟩
    · next t ht =>
      refine .inr ⟨t, ht, ?_⟩
      split at h
      · next hset => exact .inl ⟨hset, (Option.some.inj h).symm⟩
      · next t' hset => exact .inr ⟨t', hset, (Option.some.inj h).symm⟩
  · exact absurd h (by simp)

theorem setTtlUdp_cases (h : s.setTtlUdp hl i ttl = some c) :
    ∃ u, s.objects[i]? = some (.udp u) ∧
      ((u.socketHandle = none ∧ c = s.same) ∨
      ∃ x, u.socketHandle = some x ∧
        ((s.net.sockets.getUdp x = none ∧ c = s.panics) ∨
        ∃ t, s.net.sockets.getUdp x = some t ∧
          ((hl.setUdp t (some ttl.toUInt8) = none ∧ c = { s.same with callPanicked := true }) ∨
          ∃ t', hl.setUdp t (some ttl.toUInt8) = some t' ∧
            c = { s.same with sockets := s.net.sockets.setSocket x (.inr t') }))) := by
  rw [setTtlUdp] at h
  split at h
  · next u hi =>
    refine ⟨u, hi, ?_⟩
    split at h
    · next hnone => exact .inl ⟨hnone, (Option.some.inj h).symm⟩
    · next x hx =>
      refine .inr ⟨x, hx, ?_⟩
      split at h
      · next hnone => exact .inl ⟨hnone, (Option.some.inj h).symm⟩
      · next t ht =>
        refine .inr ⟨t, ht, ?_⟩
        split at h
        · next hset => exact .inl ⟨hset, (Option.some.inj h).symm⟩
        · next t' hset => exact .inr ⟨t', hset, (Option.some.inj h).symm⟩
  · exact absurd h (by simp)

/-! ## Who holds what -/

/-- The counts are right, nobody has closed a socket in a backlog, and a listener with such sockets
has a port. -/
structure Sound (s : State T) : Prop where
  kept : Kept (fun _ st _ ↦ st ∈ TcpState.backlog) s.net.sockets s.objects
  port_ne_zero : ∀ l, .listener l ∈ s.objects → l.listenHandles ≠ none → l.port ≠ 0

/-- Ports of listeners stay as they are, and new ones are not zero. -/
theorem port_ne_zero_of_rearranges {a : Action T} {objects : List Object} {added : ℕ}
    (hs : ∀ l, .listener l ∈ s.objects → l.listenHandles ≠ none → l.port ≠ 0)
    (hr : Rearranges cfg s a objects added) :
    ∀ l, .listener l ∈ objects → l.listenHandles ≠ none → l.port ≠ 0 := by
  intro l' hl' hsome
  cases hr with
  | same a => exact hs l' hl' hsome
  | wakes events =>
    obtain ⟨o, ho, hwake⟩ := List.mem_map.mp hl'
    rcases o with l | _ | _ | _ | _
    · simp only [wakeAccept, Object.listener.injEq] at hwake
      rw [← hwake] at hsome ⊢
      by_cases hw : l.phase = .waiting
      · rw [if_pos hw] at hsome ⊢
        exact hs l ho hsome
      · rw [if_neg hw] at hsome ⊢
        exact hs l ho hsome
    all_goals exact absurd hwake (by simp [wakeAccept])
  | turns hi hturns =>
    rcases List.mem_or_eq_of_mem_set hl' with hl' | rfl
    · exact hs l' hl' hsome
    · rcases hturns with _ | hl
      have hport := hs _ (List.mem_of_getElem? hi)
      cases hl with
      | keeps handles port phase ttl => exact port ▸ hport (handles ▸ hsome)
      | takes peer handles found phase => exact hport (by simp [handles])
  | adds ha hadds =>
    rcases List.mem_append.mp hl' with hl' | hl'
    · exact hs l' hl' hsome
    · obtain rfl := List.mem_singleton.mp hl'
      rcases hadds with ⟨lo, port⟩
      exact absurd rfl hsome
  | binds hresult huids =>
    rcases List.mem_append.mp hl' with hl' | hl'
    · exact hs l' hl' hsome
    · obtain rfl := Object.listener.inj (List.mem_singleton.mp hl')
      exact port_ne_zero_of_bindAddrs hresult
  | bindsUdp =>
    rcases List.mem_append.mp hl' with hl' | hl'
    · exact hs l' hl' hsome
    · exact absurd (List.mem_singleton.mp hl') (by simp)
  | accepts hi hphase hhandles hlistens =>
    rcases List.mem_append.mp hl' with hl' | hl'
    · rcases List.mem_or_eq_of_mem_set hl' with hl' | hl'
      · exact hs l' hl' hsome
      · have hport := hs _ (List.mem_of_getElem? hi) (by simp [hhandles])
        rwa [Object.listener.inj hl']
    · exact absurd (List.mem_singleton.mp hl') (by simp)
  | loses hi hhandles hfails hobjects =>
    rcases hobjects with rfl | rfl
    · exact hs l' hl' hsome
    · rcases List.mem_or_eq_of_mem_set hl' with hl' | hl'
      · exact hs l' hl' hsome
      · have hport := hs _ (List.mem_of_getElem? hi) (by simp [hhandles])
        rwa [Object.listener.inj hl']
  | connects hi hconnects =>
    rcases List.mem_or_eq_of_mem_set hl' with hl' | rfl
    · exact hs l' hl' hsome
    · cases hconnects

theorem eventsKeep_backlog (hl : T.HopLimits) {os : List Holding} {S : SocketSet T}
    {events : List (ℕ × T.Event)} :
    EventsKeep (fun _ st _ ↦ st ∈ TcpState.backlog) os S events := by
  induction events generalizing S with
  | nil => trivial
  | cons e events ih => exact ⟨fun _ _ _ _ _ _ ht ↦ hl.state_process_backlog e.2 ht, ih⟩

theorem Sound.step (hl : T.HopLimits) {a : Action T} (hs : s.Sound)
    (h : s.step cfg a = some s') : s'.Sound := by
  refine ⟨?_, port_ne_zero_of_rearranges hs.port_ne_zero (rearranges_of_step h)⟩
  refine (Kept.step ⟨fun _ _ ↦ by decide, fun _ _ h ↦ h⟩ hs.kept ?_ ?_ h).1
  · intro i l _ hi k hk t ht
    exact hs.kept.hasAt k (l.phase = .waiting)
      (mem_flatMap_holdings (List.mem_of_getElem? hi) hk) t ht
  · exact fun events _ ↦ eventsKeep_backlog hl

theorem Sound.setTtlStream (hs : s.Sound) (h : s.setTtlStream i ttl = some c) :
    (s.apply cfg c).Sound := by
  obtain ⟨x, hi, ⟨-, rfl⟩ | ⟨t, ht, ⟨-, rfl⟩ | ⟨t', -, rfl⟩⟩⟩ := setTtlStream_cases h
  · exact ⟨by rw [sockets_apply]; exact hs.kept, hs.port_ne_zero⟩
  · exact ⟨by rw [sockets_apply]; exact hs.kept, hs.port_ne_zero⟩
  · refine ⟨?_, hs.port_ne_zero⟩
    rw [sockets_apply]
    exact Owned.setTcp_of_mem hs.kept (mem_holdings hi List.mem_cons_self) ht

theorem Sound.setTtlUdp (hs : s.Sound) (h : s.setTtlUdp hl i ttl = some c) :
    (s.apply cfg c).Sound := by
  obtain ⟨u, hi, ⟨-, rfl⟩ | ⟨x, -, ⟨-, rfl⟩ | ⟨t, ht, ⟨-, rfl⟩ | ⟨t', -, rfl⟩⟩⟩⟩ :=
    setTtlUdp_cases h
  · exact ⟨by rw [sockets_apply]; exact hs.kept, hs.port_ne_zero⟩
  · exact ⟨by rw [sockets_apply]; exact hs.kept, hs.port_ne_zero⟩
  · exact ⟨by rw [sockets_apply]; exact hs.kept, hs.port_ne_zero⟩
  · refine ⟨?_, hs.port_ne_zero⟩
    rw [sockets_apply]
    exact Owned.setUdp hs.kept ht

theorem Sound.ttlStep {a : TtlAction T} (hs : s.Sound) (h : s.ttlStep cfg hl a = some s') :
    s'.Sound := by
  rcases a with a | ⟨i, ttl⟩ | ⟨i, ttl⟩
  · exact hs.step hl h
  · obtain ⟨c, hc, rfl⟩ := Option.map_eq_some_iff.mp h
    exact hs.setTtlStream hc
  · obtain ⟨c, hc, rfl⟩ := Option.map_eq_some_iff.mp h
    exact hs.setTtlUdp hc

theorem sound_of_run {as : List (TtlAction T)}
    (hrun : run (ttlStep cfg hl) initial as = some s) : s.Sound := by
  refine invariant_of_run (fun _ _ _ hs h ↦ Sound.ttlStep hs h) ⟨kept_initial, ?_⟩ hrun
  exact fun l h ↦ absurd h (by simp [initial])

/-! ## The loop over the handles -/

/-- The socket of the handle has the hop limit. -/
def HopsAt (hl : T.HopLimits) (S : SocketSet T) (h : SocketHandle) (v : Option UInt8) : Prop :=
  ∃ t, S.getTcp h = some t ∧ hl.tcp t = v

section Loop

variable {S S' : SocketSet T} {h k : SocketHandle} {hs : List SocketHandle} {v : Option UInt8}
  {t t' : T.Tcp}

theorem slots_setSocket_of_ne {x : T.Tcp ⊕ T.Udp} (hne : h.index ≠ k.index) :
    (S.setSocket k x).slots h.index = S.slots h.index := by
  rw [setSocket, slots_modify, if_neg hne]

theorem setSocket_self {item : Item T} (hslot : S.slots h.index = some item) :
    S.setSocket h item.socket = S := by
  have hslots : (S.setSocket h item.socket).slots = S.slots := by
    funext j
    rw [setSocket, slots_modify]
    split
    · next hj => rw [hj, hslot, Option.map_some]
    · rfl
  exact congrArg (fun slots ↦ SocketSet.mk slots S.size S.added) hslots

theorem setSocket_tcp_self (ht : S.getTcp h = some t) : S.setSocket h (.inl t) = S := by
  obtain ⟨item, hslot, hsocket⟩ := getTcp_eq_some ht
  rw [← hsocket, setSocket_self hslot]

theorem setSocket_udp_self {u : T.Udp} (hu : S.getUdp h = some u) : S.setSocket h (.inr u) = S := by
  obtain ⟨item, hslot, hsocket⟩ := getUdp_eq_some hu
  rw [← hsocket, setSocket_self hslot]

theorem getUdp_setSocket {u u' : T.Udp} (hu : S.getUdp h = some u) :
    (S.setSocket h (.inr u')).getUdp h = some u' := by
  obtain ⟨item, hslot, -⟩ := getUdp_eq_some hu
  simp [getUdp, setSocket, slots_modify, hslot]

/-- Setting the hop limit of one socket sets it for all handles of that socket. -/
theorem HopsAt.setSocket (hk : S.getTcp k = some t) (ht' : hl.tcp t' = v) (hh : HopsAt hl S h v) :
    HopsAt hl (S.setSocket k (.inl t')) h v := by
  by_cases hi : h.index = k.index
  · exact ⟨t', getTcp_setSocket hk hi, ht'⟩
  · obtain ⟨t₀, ht₀, hhop⟩ := hh
    exact ⟨t₀, (getTcp_congr (slots_setSocket_of_ne hi)).trans ht₀, hhop⟩

theorem slots_setHopLimits_of_ne (hne : ∀ k ∈ hs, h.index ≠ k.index) :
    (setHopLimits v hs S).1.slots h.index = S.slots h.index := by
  induction hs generalizing S with
  | nil => rfl
  | cons k hs ih =>
    rw [List.forall_mem_cons] at hne
    rw [setHopLimits]
    split
    · rfl
    · split
      · rfl
      · rw [ih hne.2, slots_setSocket_of_ne hne.1]

/-- With a hop limit other than zero the loop gets through, and all sockets have it. -/
theorem setHopLimits_of_ne_zero (hl : T.HopLimits) (hv : v ≠ some 0)
    (hget : ∀ h ∈ hs, ∃ t, S.getTcp h = some t) :
    ∃ S', setHopLimits v hs S = (S', none) ∧ (∀ h ∈ hs, HopsAt hl S' h v) ∧
      ∀ h, HopsAt hl S h v → HopsAt hl S' h v := by
  induction hs generalizing S with
  | nil => exact ⟨S, rfl, by simp, fun _ ↦ id⟩
  | cons k hs ih =>
    rw [List.forall_mem_cons] at hget
    obtain ⟨⟨t, ht⟩, hget⟩ := hget
    obtain ⟨t', ht'⟩ := Option.isSome_iff_exists.mp ((hl.setHopLimit_isSome t v).mpr hv)
    have hhop := hl.tcp_setHopLimit t v t' ht'
    have hget' : ∀ h ∈ hs, ∃ t, (S.setSocket k (.inl t')).getTcp h = some t := by
      intro h hh
      by_cases hi : h.index = k.index
      · exact ⟨t', getTcp_setSocket ht hi⟩
      · obtain ⟨t₀, ht₀⟩ := hget h hh
        exact ⟨t₀, (getTcp_congr (slots_setSocket_of_ne hi)).trans ht₀⟩
    obtain ⟨S', hS', hall, hmono⟩ := ih hget'
    refine ⟨S', by simp only [setHopLimits, ht, ht', hS'], ?_, ?_⟩
    · rw [List.forall_mem_cons]
      exact ⟨hmono k ⟨t', getTcp_setSocket ht rfl, hhop⟩, hall⟩
    · intro h hh
      exact hmono h (hh.setSocket ht hhop)

/-- Setting what is set already changes nothing. -/
theorem setHopLimits_self (hv : v ≠ some 0) (hall : ∀ h ∈ hs, HopsAt hl S h v) :
    setHopLimits v hs S = (S, none) := by
  induction hs with
  | nil => rfl
  | cons k hs ih =>
    rw [List.forall_mem_cons] at hall
    obtain ⟨⟨t, ht, hhop⟩, hall⟩ := hall
    have hself : T.setHopLimit t v = some t := by
      have hset := hl.setHopLimit_self t (by rw [hhop]; exact hv)
      rwa [hhop] at hset
    simp only [setHopLimits, ht, hself, setSocket_tcp_self ht]
    exact ih hall

/-- Zero panics at the first handle. -/
theorem setHopLimits_zero (hl : T.HopLimits) (hk : S.getTcp k = some t) :
    setHopLimits (some 0) (k :: hs) S = (S, some .unwrap) := by
  have hnone : T.setHopLimit t (some 0) = none := by
    rw [← Option.not_isSome_iff_eq_none, hl.setHopLimit_isSome]
    simp
  simp only [setHopLimits, hk, hnone]

end Loop

/-! ## A listener, from then on -/

/-- A listener with the TTL, whose handles all have one of the hop limits; or none any more. -/
def Limited (hl : T.HopLimits) (S : SocketSet T) (v : UInt8) (W : Set (Option UInt8)) :
    Object → Prop
  | .gone => True
  | .listener l =>
    l.ttl = some v ∧ ∀ h ∈ l.listenHandles.getD [], ∃ w ∈ W, HopsAt hl S h w
  | _ => False

variable {v : UInt8} {W : Set (Option UInt8)}

/-- What a value can be after a step that neither sets its TTL nor gives it a new socket. -/
inductive Inherits : Object → Object → Prop
  | gone (o : Object) : Inherits o .gone
  | listener {l l' : StcpListener} (ttl : l'.ttl = l.ttl)
      (handles : l'.listenHandles.getD [] ⊆ l.listenHandles.getD []) :
      Inherits (.listener l) (.listener l')

theorem Inherits.refl {S : SocketSet T} {o : Object} (ho : Limited hl S v W o) :
    Inherits o o := by
  rcases o with l | _ | _ | _ | _
  · exact .listener rfl (List.Subset.refl _)
  · exact absurd ho id
  · exact absurd ho id
  · exact absurd ho id
  · exact .gone _

theorem inherits_wakeAccept {S : SocketSet T} {o : Object} (ho : Limited hl S v W o) :
    Inherits o (wakeAccept o) := by
  rcases o with l | _ | _ | _ | _
  · rw [wakeAccept]
    split
    · exact .listener rfl (List.Subset.refl _)
    · exact .listener rfl (List.Subset.refl _)
  · exact absurd ho id
  · exact absurd ho id
  · exact absurd ho id
  · exact .gone _

theorem inherits_of_turns {a : Action T} {S : SocketSet T} {o o' : Object}
    (ho : Limited hl S v W o) (ha : ∀ j ttl, a ≠ .setTtl j ttl) (h : Turns a o o') :
    Inherits o o' := by
  cases h with
  | gone o => exact .gone o
  | listener hl' =>
    cases hl' with
    | keeps handles port phase ttl =>
      rcases ttl with ttl | ⟨j, t, hat, -⟩
      · exact .listener ttl (by rw [handles]; exact List.Subset.refl _)
      · exact absurd hat (ha j t)
    | takes peer handles found phase =>
      refine .listener rfl ?_
      rw [handles]
      exact List.eraseIdx_subset
  | connecting hk => exact absurd ho id
  | connected hk => exact absurd ho id

/-- The value at a place, if it is such a listener, after a step. -/
theorem inherits_of_rearranges {a : Action T} {o : Object} {objects : List Object} {added : ℕ}
    (hi : s.objects[i]? = some o) (ho : Limited hl s.net.sockets v W o)
    (ha : ∀ j ttl, a ≠ .setTtl j ttl) (hreplace : ∀ slot, a ≠ .acceptReplace i slot)
    (hr : Rearranges cfg s a objects added) :
    ∃ o', objects[i]? = some o' ∧ Inherits o o' := by
  obtain ⟨hlt, -⟩ := List.getElem?_eq_some_iff.mp hi
  have hset {j : ℕ} {x : Object} (hne : j ≠ i) : (s.objects.set j x)[i]? = some o := by
    rw [List.getElem?_set_ne hne, hi]
  have happend (x : Object) : (s.objects ++ [x])[i]? = some o := by
    rw [List.getElem?_append_left hlt, hi]
  cases hr with
  | same a => exact ⟨o, hi, .refl ho⟩
  | wakes events => exact ⟨_, by rw [List.getElem?_map, hi]; rfl, inherits_wakeAccept ho⟩
  | turns hj hturns =>
    rename_i j oj oj'
    by_cases hne : j = i
    · subst hne
      obtain rfl := Option.some.inj (hi.symm.trans hj)
      exact ⟨oj', List.getElem?_set_self hlt, inherits_of_turns ho ha hturns⟩
    · exact ⟨o, hset hne, .refl ho⟩
  | adds _ hadds => exact ⟨o, happend _, .refl ho⟩
  | binds hresult huids => exact ⟨o, happend _, .refl ho⟩
  | bindsUdp => exact ⟨o, happend _, .refl ho⟩
  | accepts hj hphase hhandles hlistens =>
    rename_i j slot l x peer hs t
    have hne : j ≠ i := fun he ↦ hreplace slot (by rw [he])
    refine ⟨o, ?_, .refl ho⟩
    rw [List.getElem?_append_left (by rwa [List.length_set]), hset hne]
  | loses hj hhandles hfails hobjects =>
    rename_i j slot l hs
    have hne : j ≠ i := fun he ↦ hreplace slot (by rw [he])
    rcases hobjects with rfl | rfl
    · exact ⟨o, hi, .refl ho⟩
    · exact ⟨o, hset hne, .refl ho⟩
  | connects hj hconnects =>
    rename_i j slot draws system k o'
    have hne : j ≠ i := by
      rintro rfl
      obtain rfl := Option.some.inj (hi.symm.trans hj)
      exact absurd ho id
    exact ⟨o, hset hne, .refl ho⟩

/-- A socket in a backlog has kept its hop limit. -/
theorem HopsAt.step {a : Action T} {l l' : StcpListener} {h : SocketHandle} {w : Option UInt8}
    (hs : s.Sound) (hs' : s'.Sound) (ha : ∀ j ttl, a ≠ .setTtl j ttl)
    (hstep : s.step cfg a = some s') (hi : s.objects[i]? = some (.listener l))
    (hi' : s'.objects[i]? = some (.listener l')) (hh : h ∈ l.listenHandles.getD [])
    (hh' : h ∈ l'.listenHandles.getD []) (hhop : HopsAt hl s.net.sockets h w) :
    HopsAt hl s'.net.sockets h w := by
  have hheld := mem_flatMap_holdings (List.mem_of_getElem? hi) hh
  have hheld' := mem_flatMap_holdings (List.mem_of_getElem? hi') hh'
  obtain ⟨t', ht'⟩ := hs'.kept.getTcp_isSome hheld' rfl
  obtain ⟨t, ht, hdoes⟩ := does_of_step hs.kept hs'.kept hstep hheld hheld' ht'
  obtain ⟨t₀, ht₀, hw⟩ := hhop
  obtain rfl := Option.some.inj (ht.symm.trans ht₀)
  have hback : T.state t ∈ TcpState.backlog := hs.kept.hasAt h _ hheld t ht
  exact ⟨t', ht', (tcp_of_does ha hdoes hback).trans hw⟩

/-- A step that inherits and does not set hop limits keeps the listener limited. -/
theorem Limited.inherits {a : Action T} {o o' : Object} (hs : s.Sound) (hs' : s'.Sound)
    (ha : ∀ j ttl, a ≠ .setTtl j ttl) (hstep : s.step cfg a = some s')
    (hi : s.objects[i]? = some o) (hi' : s'.objects[i]? = some o') (h : Inherits o o')
    (ho : Limited hl s.net.sockets v W o) : Limited hl s'.net.sockets v W o' := by
  cases h with
  | gone o => trivial
  | listener ttl handles =>
    refine ⟨ttl.trans ho.1, ?_⟩
    intro h hh
    obtain ⟨w, hw, hhop⟩ := ho.2 h (handles hh)
    exact ⟨w, hw, hhop.step hs hs' ha hstep hi hi' (handles hh) hh⟩

/-- What `set_ttl` of another value sets is not of this listener. -/
theorem Limited.of_slots {S S' : SocketSet T} {o : Object} (ho : Limited hl S v W o)
    (hslots : ∀ l h, o = .listener l → h ∈ l.listenHandles.getD [] →
      S'.slots h.index = S.slots h.index) : Limited hl S' v W o := by
  rcases o with l | _ | _ | _ | _
  · refine ⟨ho.1, ?_⟩
    intro h hh
    obtain ⟨w, hw, t, ht, hhop⟩ := ho.2 h hh
    exact ⟨w, hw, t, (getTcp_congr (hslots l h rfl hh)).trans ht, hhop⟩
  · exact ho
  · exact ho
  · exact ho
  · exact ho

theorem Limited.setTtl {o : Object} {j : ℕ} (hs : s.Sound) (hij : i ≠ j)
    (hi : s.objects[i]? = some o) (ho : Limited hl s.net.sockets v W o)
    (h : s.setTtl j ttl = some c) :
    (s.apply cfg c).objects[i]? = some o ∧ Limited hl (s.apply cfg c).net.sockets v W o := by
  rw [sockets_apply]
  obtain ⟨l', S, p, hj, -, hset, rfl⟩ := setTtl_cases h
  refine ⟨?_, ho.of_slots ?_⟩
  · exact (List.getElem?_set_ne hij.symm).trans hi
  · rintro l x rfl hx
    have hfst := congrArg Prod.fst hset
    dsimp only at hfst ⊢
    rw [← hfst]
    refine slots_setHopLimits_of_ne ?_
    intro k hk
    have hmem : (k, .backlog (l'.phase = .waiting)) ∈ holdings (.listener l') :=
      List.mem_append_left _ (List.mem_map_of_mem hk)
    exact index_ne_of_mem_backlog hs.kept hi hx hj hmem hij

theorem Limited.setTtlStream {o : Object} {j : ℕ} (hs : s.Sound)
    (hi : s.objects[i]? = some o) (ho : Limited hl s.net.sockets v W o)
    (h : s.setTtlStream j ttl = some c) :
    (s.apply cfg c).objects[i]? = some o ∧ Limited hl (s.apply cfg c).net.sockets v W o := by
  rw [sockets_apply]
  obtain ⟨x, hj, ⟨-, rfl⟩ | ⟨t, ht, ⟨-, rfl⟩ | ⟨t', -, rfl⟩⟩⟩ := setTtlStream_cases h
  · exact ⟨hi, ho⟩
  · exact ⟨hi, ho⟩
  · refine ⟨hi, ho.of_slots ?_⟩
    rintro l k rfl hk
    have hij : i ≠ j := by
      rintro rfl
      exact absurd (hi.symm.trans hj) (by simp)
    exact slots_setSocket_of_ne
      (index_ne_of_mem_backlog (x := (x, .tcp)) hs.kept hi hk hj List.mem_cons_self hij)

theorem Limited.setTtlUdp {o : Object} {j : ℕ} (hs : s.Sound)
    (hi : s.objects[i]? = some o) (ho : Limited hl s.net.sockets v W o)
    (h : s.setTtlUdp hl j ttl = some c) :
    (s.apply cfg c).objects[i]? = some o ∧ Limited hl (s.apply cfg c).net.sockets v W o := by
  rw [sockets_apply]
  obtain ⟨u, hj, ⟨-, rfl⟩ | ⟨x, hx, ⟨-, rfl⟩ | ⟨t, ht, ⟨-, rfl⟩ | ⟨t', -, rfl⟩⟩⟩⟩ :=
    setTtlUdp_cases h
  · exact ⟨hi, ho⟩
  · exact ⟨hi, ho⟩
  · exact ⟨hi, ho⟩
  · refine ⟨hi, ho.of_slots ?_⟩
    rintro l k rfl hk
    have hij : i ≠ j := by
      rintro rfl
      exact absurd (hi.symm.trans hj) (by simp)
    have hmem : (x, .udp) ∈ holdings (.udp u) := by simp [holdings, hx]
    exact slots_setSocket_of_ne (index_ne_of_mem_backlog hs.kept hi hk hj hmem hij)

theorem getTcp_add {S S' : SocketSet T} {slot : ℕ} {t : T.Tcp} {x : SocketHandle}
    (hadd : S.add slot (.inl t) = some (x, S')) : S'.getTcp x = some t := by
  rw [SocketSet.add] at hadd
  split at hadd
  · simp only [Option.some.injEq, Prod.mk.injEq] at hadd
    obtain ⟨rfl, rfl⟩ := hadd
    simp [getTcp]
  · exact absurd hadd (by simp)

/-- **A socket that `accept` adds has no hop limit**, since it was set before `listen`. -/
theorem acceptReplace_listener (hl : T.HopLimits) {l : StcpListener} {slot : ℕ}
    (hi : s.objects[i]? = some (.listener l))
    (hstep : s.step cfg (.acceptReplace i slot) = some s') :
    ∃ l', s'.objects[i]? = some (.listener l') ∧ l'.ttl = l.ttl ∧
      ((∃ x, l'.listenHandles.getD [] = l.listenHandles.getD [] ++ [x] ∧
        HopsAt hl s'.net.sockets x none) ∨
      (l'.listenHandles = l.listenHandles ∧ l.listenHandles ≠ none ∧
        ((T.setHopLimit (T.newTcp cfg.socketBufferSize) l.ttl).bind
          fun t ↦ T.listen t l.port) = none)) := by
  obtain ⟨c, hc, rfl⟩ := Option.map_eq_some_iff.mp
    (show (s.acceptReplace cfg i slot).map (s.apply cfg) = some s' from hstep)
  obtain ⟨hlt, -⟩ := List.getElem?_eq_some_iff.mp hi
  obtain ⟨l₀, x, peer, handles, hl₀, -, hsome, hc⟩ := acceptReplace_cases hc
  obtain rfl := Object.listener.inj (Option.some.inj (hi.symm.trans hl₀))
  obtain ⟨t, x', S, ht, hadd, rfl⟩ | ⟨x', S, hfails, -, ⟨-, rfl⟩ | ⟨S', -, rfl⟩⟩ := hc
  · obtain ⟨t₀, -, hlisten⟩ := Option.bind_eq_some_iff.mp ht
    refine ⟨_, (List.getElem?_append_left (by rwa [List.length_set])).trans
      (List.getElem?_set_self hlt), rfl, .inl ⟨x', by rw [hsome]; rfl, t, ?_, ?_⟩⟩
    · rw [sockets_apply]
      exact getTcp_add hadd
    · exact hl.tcp_listen _ _ _ hlisten
  · exact ⟨l, hi, rfl, .inr ⟨rfl, by simp [hsome], hfails⟩⟩
  · exact ⟨_, List.getElem?_set_self hlt, rfl, .inr ⟨rfl, by simp [hsome], hfails⟩⟩

theorem Limited.acceptReplace {o : Object} {slot : ℕ} (hs : s.Sound) (hnone : none ∈ W)
    (hi : s.objects[i]? = some o) (ho : Limited hl s.net.sockets v W o)
    (hstep : s.step cfg (.acceptReplace i slot) = some s') :
    ∃ o', s'.objects[i]? = some o' ∧ Limited hl s'.net.sockets v W o' := by
  have hs' := hs.step hl hstep
  have hset : ∀ j ttl, (.acceptReplace i slot : Action T) ≠ .setTtl j ttl := by simp
  obtain ⟨c, hc, -⟩ := Option.map_eq_some_iff.mp
    (show (s.acceptReplace cfg i slot).map (s.apply cfg) = some s' from hstep)
  obtain ⟨l, x, peer, handles, hl', -⟩ := acceptReplace_cases hc
  obtain rfl := Option.some.inj (hi.symm.trans hl')
  obtain ⟨l', hi', httl, ⟨x', hhandles, hhop⟩ | ⟨hhandles, -⟩⟩ := acceptReplace_listener hl hi hstep
  · refine ⟨_, hi', httl.trans ho.1, fun k hk ↦ ?_⟩
    rw [hhandles] at hk
    rcases List.mem_append.mp hk with hold | hnew
    · obtain ⟨w, hw, hk'⟩ := ho.2 k hold
      refine ⟨w, hw, hk'.step hs hs' hset hstep hi hi' hold ?_⟩
      rw [hhandles]
      exact hk
    · rw [List.mem_singleton.mp hnew]
      exact ⟨none, hnone, hhop⟩
  · refine ⟨_, hi', ho.inherits hs hs' hset hstep hi hi' (.listener httl ?_)⟩
    rw [hhandles]
    exact List.Subset.refl _

/-- **A listener keeps the hop limits of its sockets** through every step but a `set_ttl` of its
own, or the end of an `accept`. -/
theorem Limited.ttlStep {o : Object} {a : TtlAction T} (hs : s.Sound)
    (hi : s.objects[i]? = some o) (ho : Limited hl s.net.sockets v W o)
    (ha : ∀ ttl, a ≠ .core (.setTtl i ttl))
    (haccept : none ∈ W ∨ ∀ slot, a ≠ .core (.acceptReplace i slot))
    (h : s.ttlStep cfg hl a = some s') :
    ∃ o', s'.objects[i]? = some o' ∧ Limited hl s'.net.sockets v W o' := by
  rcases a with a | ⟨j, ttl⟩ | ⟨j, ttl⟩
  · by_cases hset : ∃ j ttl, a = .setTtl j ttl
    · obtain ⟨j, ttl, rfl⟩ := hset
      have hij : i ≠ j := by
        rintro rfl
        exact ha ttl rfl
      obtain ⟨c, hc, rfl⟩ := Option.map_eq_some_iff.mp
        (show (s.setTtl j ttl).map (s.apply cfg) = some s' from h)
      obtain ⟨hi', ho'⟩ := ho.setTtl hs hij hi hc
      exact ⟨o, hi', ho'⟩
    · push Not at hset
      by_cases hreplace : ∃ slot, a = .acceptReplace i slot
      · obtain ⟨slot, rfl⟩ := hreplace
        rcases haccept with hnone | haccept
        · exact ho.acceptReplace hs hnone hi h
        · exact absurd rfl (haccept slot)
      · push Not at hreplace
        obtain ⟨o', hi', hinherits⟩ := inherits_of_rearranges hi ho hset hreplace
          (rearranges_of_step h)
        exact ⟨o', hi', ho.inherits hs (hs.step hl h) hset h hi hi' hinherits⟩
  · obtain ⟨c, hc, rfl⟩ := Option.map_eq_some_iff.mp h
    obtain ⟨hi', ho'⟩ := ho.setTtlStream hs hi hc
    exact ⟨o, hi', ho'⟩
  · obtain ⟨c, hc, rfl⟩ := Option.map_eq_some_iff.mp h
    obtain ⟨hi', ho'⟩ := ho.setTtlUdp hs hi hc
    exact ⟨o, hi', ho'⟩

theorem limited_of_run {o : Object} {as : List (TtlAction T)} (hs : s.Sound)
    (hi : s.objects[i]? = some o) (ho : Limited hl s.net.sockets v W o)
    (hno : ∀ ttl, .core (.setTtl i ttl) ∉ as)
    (haccept : none ∈ W ∨ ∀ slot, .core (.acceptReplace i slot) ∉ as)
    (hrun : run (State.ttlStep cfg hl) s as = some s') :
    s'.Sound ∧ ∃ o', s'.objects[i]? = some o' ∧ Limited hl s'.net.sockets v W o' := by
  let I (s : State T) : Prop :=
    s.Sound ∧ ∃ o, s.objects[i]? = some o ∧ Limited hl s.net.sockets v W o
  let C (a : TtlAction T) : Prop :=
    (∀ ttl, a ≠ .core (.setTtl i ttl)) ∧ (none ∈ W ∨ ∀ slot, a ≠ .core (.acceptReplace i slot))
  have hC : ∀ a ∈ as, C a := by
    refine fun a ha ↦ ⟨fun ttl he ↦ hno ttl (he ▸ ha), ?_⟩
    exact haccept.imp_right fun hno' slot he ↦ hno' slot (he ▸ ha)
  refine invariant_of_along (I := I) ?_ ⟨hs, o, hi, ho⟩ (along_of_forall hC s) hrun
  rintro t a t' ⟨ht, o, hi, ho⟩ ⟨hset, haccept⟩ hstep
  exact ⟨ht.ttlStep hstep, ho.ttlStep ht hi hset haccept hstep⟩

/-! ## What `set_ttl` is for -/

theorem toUInt32_toUInt8_eq_iff (t : UInt32) : t.toUInt8.toUInt32 = t ↔ t.toNat ≤ 255 := by
  rw [← UInt32.toNat_inj, UInt8.toNat_toUInt32, UInt32.toNat_toUInt8]
  omega

theorem toUInt8_ne_zero {t : UInt32} (h1 : 1 ≤ t.toNat) (h2 : t.toNat ≤ 255) : t.toUInt8 ≠ 0 := by
  intro h0
  have hnat := congrArg UInt8.toNat h0
  rw [UInt32.toNat_toUInt8, UInt8.toNat_zero] at hnat
  omega

/-- `set_ttl` of a stream does not panic, and returns; then the TTL is what was asked for, both what
`ttl` reports and what the socket sends with. -/
def StreamSetsTtl (hl : T.HopLimits) (s : State T) (i : ℕ) (t : UInt32) : Prop :=
  ∃ c, s.setTtlStream i t = some c ∧ c.fault = false ∧ c.callPanicked = false ∧
    ∀ h, s.objects[i]? = some (.stream h) →
      ∃ v, HopsAt hl c.sockets h v ∧ (effective v).toUInt32 = t

/-- `set_ttl` of a listener does not panic. If the kernel accepts the TTL, then it is what `ttl`
reports, and what all sockets of the backlog send with, at once and after each of the steps that
follow. If not, then nothing has changed. -/
def ListenerSetsTtl (cfg : Config) (hl : T.HopLimits) (kernel : KernelTtl) (s : State T) (i : ℕ)
    (t : UInt32) (as : List (TtlAction T)) : Prop :=
  ∃ c, s.setTtl i t = some c ∧ c.fault = false ∧ c.callPanicked = false ∧
    match kernel t with
    | .ok _ =>
      (∃ l, c.objects[i]? = some (.listener l) ∧ (effective l.ttl).toUInt32 = t) ∧
      ∀ before after s' l, as = before ++ after →
        run (State.ttlStep cfg hl) (s.apply cfg c) before = some s' →
        s'.objects[i]? = some (.listener l) → (effective l.ttl).toUInt32 = t ∧
          ∀ h ∈ l.listenHandles.getD [],
            ∃ v, HopsAt hl s'.net.sockets h v ∧ (effective v).toUInt32 = t
    | .error _ => c.sockets = s.net.sockets ∧ c.objects = s.objects

/-- The same of a UDP socket, whose `ttl` reports what the kernel says. -/
def UdpSetsTtl (hl : T.HopLimits) (kernel : KernelTtl) (s : State T) (i : ℕ) (t : UInt32) : Prop :=
  ∃ c, s.setTtlUdp hl i t = some c ∧ c.fault = false ∧ c.callPanicked = false ∧
    match kernel t with
    | .ok r => r = t ∧ ∀ u h, s.objects[i]? = some (.udp u) → u.socketHandle = some h →
        ∃ x, c.sockets.getUdp h = some x ∧ (effective (hl.udp x)).toUInt32 = t
    | .error _ => c.sockets = s.net.sockets ∧ c.objects = s.objects

theorem streamSetsTtl_iff (hl : T.HopLimits) (hs : s.Sound) {h : SocketHandle}
    (hi : s.objects[i]? = some (.stream h)) (t : UInt32) :
    StreamSetsTtl hl s i t ↔ 1 ≤ t.toNat ∧ t.toNat ≤ 255 := by
  obtain ⟨x, hx⟩ := Owned.getTcp_isSome hs.kept (mem_holdings hi List.mem_cons_self) rfl
  constructor
  · rintro ⟨c, hc, -, hpanic, hall⟩
    obtain ⟨h', hi', ⟨hnone, -⟩ | ⟨x', hx', hcases⟩⟩ := setTtlStream_cases hc
    · obtain rfl : h = h' := by simpa [hi] using hi'
      exact absurd (hx.symm.trans hnone) (by simp)
    · obtain rfl : h = h' := by simpa [hi] using hi'
      obtain ⟨-, rfl⟩ | ⟨y, hset, rfl⟩ := hcases
      · exact absurd hpanic (by simp)
      · obtain ⟨v, ⟨y', hy', hv⟩, hreports⟩ := hall h hi
        obtain rfl := Option.some.inj ((getTcp_setSocket hx' rfl).symm.trans hy')
        rw [hl.tcp_setHopLimit _ _ _ hset] at hv
        rw [← hv] at hreports
        have hle := (toUInt32_toUInt8_eq_iff t).mp hreports
        refine ⟨?_, hle⟩
        by_contra hzero
        have hne : (some t.toUInt8 : Option UInt8) ≠ some 0 :=
          (hl.setHopLimit_isSome x' _).mp (by simp [hset])
        refine hne (congrArg some ?_)
        rw [← UInt8.toNat_inj, UInt32.toNat_toUInt8, UInt8.toNat_zero]
        omega
  · rintro ⟨h1, h2⟩
    have hne : (some t.toUInt8 : Option UInt8) ≠ some 0 := by
      simpa using toUInt8_ne_zero h1 h2
    obtain ⟨y, hy⟩ := Option.isSome_iff_exists.mp ((hl.setHopLimit_isSome x _).mpr hne)
    refine ⟨{ s.same with sockets := s.net.sockets.setSocket h (.inl y) },
      by simp [State.setTtlStream, hi, hx, hy], rfl, rfl, ?_⟩
    intro h' hi'
    obtain rfl : h = h' := by simpa [hi] using hi'
    refine ⟨some t.toUInt8, ⟨y, getTcp_setSocket hx rfl, hl.tcp_setHopLimit _ _ _ hy⟩, ?_⟩
    exact (toUInt32_toUInt8_eq_iff t).mpr h2

/-- When the kernel refuses the TTL, the call is without effect only if it set nothing new. -/
def ListenerUnchanged (hl : T.HopLimits) (S : SocketSet T) (l : StcpListener) (t : UInt32) : Prop :=
  (t.toUInt8 = 0 → l.listenHandles.getD [] = []) ∧ l.ttl = some t.toUInt8 ∧
    ∀ h ∈ l.listenHandles.getD [], HopsAt hl S h (some t.toUInt8)

/-- The same of a UDP socket. -/
def UdpUnchanged (hl : T.HopLimits) (S : SocketSet T) (u : UdpSocket) (t : UInt32) : Prop :=
  ∀ h, u.socketHandle = some h →
    t.toUInt8 ≠ 0 ∧ ∃ x, S.getUdp h = some x ∧ hl.udp x = some t.toUInt8

theorem isErr_eq_true_iff {α : Type} {r : Except IoError α} :
    isErr r = true ↔ ∃ e, r = .error e := by
  rcases r with e | a
  · simp [isErr]
  · simp [isErr]

/-- The call gets through unless it sets the hop limit of a socket to zero. -/
theorem setTtl_of_ne_zero (hl : T.HopLimits) {l : StcpListener} (hs : s.Sound)
    (hi : s.objects[i]? = some (.listener l)) (hidle : l.phase = .idle) {t : UInt32}
    (hzero : t.toUInt8 = 0 → l.listenHandles.getD [] = []) :
    ∃ S, s.setTtl i t = some { s.same with
        sockets := S
        objects := s.objects.set i (.listener { l with ttl := some t.toUInt8 }) } ∧
      setHopLimits (some t.toUInt8) (l.listenHandles.getD []) s.net.sockets = (S, none) ∧
      ∀ h ∈ l.listenHandles.getD [], HopsAt hl S h (some t.toUInt8) := by
  have hloop : ∃ S, setHopLimits (some t.toUInt8) (l.listenHandles.getD []) s.net.sockets =
      (S, none) ∧ ∀ h ∈ l.listenHandles.getD [], HopsAt hl S h (some t.toUInt8) := by
    by_cases h0 : t.toUInt8 = 0
    · rw [hzero h0]
      exact ⟨s.net.sockets, rfl, by simp⟩
    · obtain ⟨S, hS, hall, -⟩ := setHopLimits_of_ne_zero hl (S := s.net.sockets)
        (v := some t.toUInt8) (by simpa using h0)
        (fun h hh ↦ hs.kept.getTcp_isSome (mem_flatMap_holdings (List.mem_of_getElem? hi) hh) rfl)
      exact ⟨S, hS, hall⟩
  obtain ⟨S, hS, hall⟩ := hloop
  refine ⟨S, ?_, hS, hall⟩
  simp [State.setTtl, hi, hidle, hS, State.same]

theorem handles_of_setTtl {l : StcpListener} (hl : T.HopLimits) (hs : s.Sound)
    (hi : s.objects[i]? = some (.listener l)) {t : UInt32} (hc : s.setTtl i t = some c)
    (hpanic : c.callPanicked = false) (h0 : t.toUInt8 = 0) : l.listenHandles.getD [] = [] := by
  obtain ⟨l', S, p, hi', -, hset, rfl⟩ := setTtl_cases hc
  obtain rfl : l = l' := by simpa [hi] using hi'
  rcases hhandles : l.listenHandles.getD [] with - | ⟨k, ks⟩
  · rfl
  · have hk : k ∈ l.listenHandles.getD [] := by simp [hhandles]
    obtain ⟨x, hx⟩ :=
      hs.kept.getTcp_isSome (mem_flatMap_holdings (List.mem_of_getElem? hi) hk) rfl
    rw [hhandles, h0, setHopLimits_zero hl hx, Prod.mk.injEq] at hset
    rw [← hset.2] at hpanic
    exact absurd hpanic (by simp)

/-- After the call, the sockets of the backlog have the hop limit. -/
theorem limited_of_setTtl {l : StcpListener} {t : UInt32} (hs : s.Sound)
    (hset : s.setTtl i t = some c)
    (hi : c.objects[i]? = some (.listener { l with ttl := some t.toUInt8 }))
    (hall : ∀ h ∈ l.listenHandles.getD [], HopsAt hl c.sockets h (some t.toUInt8))
    (hW : some t.toUInt8 ∈ W) :
    (s.apply cfg c).Sound ∧ (s.apply cfg c).objects[i]? =
        some (.listener { l with ttl := some t.toUInt8 }) ∧
      Limited hl (s.apply cfg c).net.sockets t.toUInt8 W
        (.listener { l with ttl := some t.toUInt8 }) := by
  refine ⟨hs.step hl (a := .setTtl i t) (congrArg (Option.map (s.apply cfg)) hset), hi, rfl, ?_⟩
  rw [sockets_apply]
  exact fun h hh ↦ ⟨_, hW, hall h hh⟩

/-- The default is the only TTL that a socket sends with after an `accept` has added it. -/
theorem eq_default_of_acceptReplace {t : UInt32} (h1 : 1 ≤ t.toNat)
    (h2 : t.toNat ≤ 255) {o : Object} {slot : ℕ} (hs : s.Sound) (hi : s.objects[i]? = some o)
    (ho : Limited hl s.net.sockets t.toUInt8 W o)
    (hstep : s.step cfg (.acceptReplace i slot) = some s')
    (hsends : ∀ l, s'.objects[i]? = some (.listener l) → ∀ h ∈ l.listenHandles.getD [],
      ∃ v, HopsAt hl s'.net.sockets h v ∧ (effective v).toUInt32 = t) : t = 64 := by
  obtain ⟨c, hc, -⟩ := Option.map_eq_some_iff.mp
    (show (s.acceptReplace cfg i slot).map (s.apply cfg) = some s' from hstep)
  obtain ⟨l, x, peer, handles, hl', -⟩ := acceptReplace_cases hc
  obtain rfl := Option.some.inj (hi.symm.trans hl')
  obtain ⟨l', hi', -, ⟨k, hhandles, y, hy, hhop⟩ | ⟨-, hsome, hfails⟩⟩ :=
    acceptReplace_listener hl hi hstep
  · obtain ⟨v, ⟨y', hy', hv⟩, hsends⟩ := hsends l' hi' k (by simp [hhandles])
    obtain rfl := Option.some.inj (hy.symm.trans hy')
    obtain rfl := hhop.symm.trans hv
    exact hsends.symm
  · have hport := hs.port_ne_zero l (List.mem_of_getElem? hi) hsome
    have httl : l.ttl ≠ some 0 := by
      rw [ho.1]
      simpa using toUInt8_ne_zero h1 h2
    have hhop : ∀ t ttl, ttl ≠ some 0 → (T.setHopLimit t ttl).isSome :=
      fun t ttl ↦ (hl.setHopLimit_isSome t ttl).mpr
    exact absurd hfails (listens_newTcp hhop httl hport)

/-- A TTL of 1 to 255 is set, and stays as long as no socket is replaced; 64 stays. -/
theorem listenerSetsTtl_of_accepted (hl : T.HopLimits) {kernel : KernelTtl}
    (hkernel : kernel.Lawful) (hs : s.Sound) {l : StcpListener}
    (hi : s.objects[i]? = some (.listener l)) (hidle : l.phase = .idle) {t : UInt32}
    {as : List (TtlAction T)} (hno : ∀ ttl, .core (.setTtl i ttl) ∉ as) (h1 : 1 ≤ t.toNat)
    (h2 : t.toNat ≤ 255) (hcond : t = 64 ∨ ∀ slot, .core (.acceptReplace i slot) ∉ as) :
    ListenerSetsTtl cfg hl kernel s i t as := by
  obtain ⟨hlt, -⟩ := List.getElem?_eq_some_iff.mp hi
  have hne := toUInt8_ne_zero h1 h2
  have hreports := (toUInt32_toUInt8_eq_iff t).mpr h2
  obtain ⟨S, hset, -, hall⟩ := setTtl_of_ne_zero hl hs hi hidle (fun h0 ↦ absurd h0 hne)
  refine ⟨_, hset, rfl, rfl, ?_⟩
  rw [hkernel.accepts t h1 h2]
  refine ⟨⟨_, List.getElem?_set_self hlt, hreports⟩, ?_⟩
  rintro before after s₁ l' rfl hrun₁ hi₁
  -- what the sockets of the listener can have by then
  obtain ⟨W, hW, hsends, haccept⟩ : ∃ W : Set (Option UInt8), some t.toUInt8 ∈ W ∧
      (∀ w ∈ W, (effective w).toUInt32 = t) ∧
      (none ∈ W ∨ ∀ slot, .core (.acceptReplace i slot) ∉ before) := by
    rcases hcond with rfl | haccept
    · exact ⟨{some 64, none}, by simp, by simp [effective], by simp⟩
    · exact ⟨{some t.toUInt8}, rfl, by simpa [effective] using hreports,
        .inr fun slot h ↦ haccept slot (List.mem_append_left _ h)⟩
  obtain ⟨hs₀, hi₀, ho₀⟩ := limited_of_setTtl hs hset (List.getElem?_set_self hlt) hall hW
  obtain ⟨-, o, ho, hlimited⟩ := limited_of_run hs₀ hi₀ ho₀
    (fun ttl h ↦ hno ttl (List.mem_append_left _ h)) haccept hrun₁
  obtain rfl := Option.some.inj (ho.symm.trans hi₁)
  refine ⟨by rw [hlimited.1]; exact hreports, fun h hh ↦ ?_⟩
  obtain ⟨w, hw, hhop⟩ := hlimited.2 h hh
  exact ⟨w, hhop, hsends w hw⟩

/-- A TTL that the kernel refuses changes nothing where it was set already. -/
theorem listenerSetsTtl_of_unchanged (hl : T.HopLimits) {kernel : KernelTtl} (hs : s.Sound)
    {l : StcpListener} (hi : s.objects[i]? = some (.listener l)) (hidle : l.phase = .idle)
    {t : UInt32} (herr : isErr (kernel t) = true)
    (hsame : ListenerUnchanged hl s.net.sockets l t) (as : List (TtlAction T)) :
    ListenerSetsTtl cfg hl kernel s i t as := by
  obtain ⟨hlt, hget⟩ := List.getElem?_eq_some_iff.mp hi
  obtain ⟨hzero, httl, hall⟩ := hsame
  obtain ⟨e, he⟩ := isErr_eq_true_iff.mp herr
  obtain ⟨S, hset, hloop, -⟩ := setTtl_of_ne_zero hl hs hi hidle hzero
  refine ⟨_, hset, rfl, rfl, ?_⟩
  rw [he]
  constructor
  · by_cases h0 : t.toUInt8 = 0
    · rw [hzero h0, setHopLimits, Prod.mk.injEq] at hloop
      exact hloop.1.symm
    · rw [setHopLimits_self (by simpa using h0) hall, Prod.mk.injEq] at hloop
      exact hloop.1.symm
  · dsimp only
    rw [← httl, ← hget]
    exact List.set_getElem_self hlt

theorem listenerSetsTtl_iff (hl : T.HopLimits) {kernel : KernelTtl} (hkernel : kernel.Lawful)
    (hs : s.Sound) {l : StcpListener} (hi : s.objects[i]? = some (.listener l))
    (hidle : l.phase = .idle) {t : UInt32} {as : List (TtlAction T)}
    (hrun : run (State.ttlStep cfg hl) s (.core (.setTtl i t) :: as) = some s')
    (hno : ∀ ttl, .core (.setTtl i ttl) ∉ as) :
    ListenerSetsTtl cfg hl kernel s i t as ↔
      (1 ≤ t.toNat ∧ t.toNat ≤ 255 ∧ (t = 64 ∨ ∀ slot, .core (.acceptReplace i slot) ∉ as)) ∨
      (isErr (kernel t) = true ∧ ListenerUnchanged hl s.net.sockets l t) := by
  obtain ⟨hlt, -⟩ := List.getElem?_eq_some_iff.mp hi
  obtain ⟨u, hu, hrun⟩ := run_cons_eq_some.mp hrun
  constructor
  · rintro ⟨c, hc, -, hpanic, hafter⟩
    have hzero := handles_of_setTtl hl hs hi hc hpanic
    obtain ⟨S, hset, hloop, hall⟩ := setTtl_of_ne_zero hl hs hi hidle hzero
    obtain rfl := Option.some.inj (hset.symm.trans hc)
    obtain rfl : s.apply cfg _ = u := by
      have hu' : (s.setTtl i t).map (s.apply cfg) = some u := hu
      rw [hset] at hu'
      exact Option.some.inj hu'
    rcases hk : kernel t with e | r
    · -- refused: the change must have been none
      rw [hk] at hafter
      obtain ⟨hsockets, hobjects⟩ := hafter
      dsimp only at hsockets hobjects
      have hself : l.ttl = some t.toUInt8 := by
        have hi' := hi
        rw [← hobjects, List.getElem?_set_self hlt, Option.some.injEq, Object.listener.injEq] at hi'
        rw [← hi']
      rw [hsockets] at hall
      exact .inr ⟨rfl, hzero, hself, hall⟩
    · rw [hk] at hafter
      obtain ⟨⟨l', hi', hreports⟩, hafter⟩ := hafter
      dsimp only at hi'
      rw [List.getElem?_set_self hlt, Option.some.injEq, Object.listener.injEq] at hi'
      rw [← hi'] at hreports
      have h1 := hkernel.one_le hk
      have h2 := (toUInt32_toUInt8_eq_iff t).mp hreports
      refine .inl ⟨h1, h2, ?_⟩
      by_contra! hcond
      obtain ⟨hne, slot, hmem⟩ := hcond
      -- the run up to the end of the first `accept`
      obtain ⟨before, after, rfl⟩ := List.append_of_mem hmem
      obtain ⟨s₁, hrun₁, hrun₂⟩ := run_append_eq_some.mp hrun
      obtain ⟨s₂, hstep, -⟩ := run_cons_eq_some.mp hrun₂
      obtain ⟨hs₀, hi₀, ho₀⟩ := limited_of_setTtl (W := Set.univ) hs hset
        (List.getElem?_set_self hlt) hall trivial
      obtain ⟨hs₁, o, hi₁, ho₁⟩ := limited_of_run hs₀ hi₀ ho₀
        (fun ttl h ↦ hno ttl (List.mem_append_left _ h)) (.inl trivial) hrun₁
      refine hne (eq_default_of_acceptReplace h1 h2 hs₁ hi₁ ho₁ hstep fun l' hl' ↦ ?_)
      refine (hafter (before ++ [.core (.acceptReplace i slot)]) after s₂ l' (by simp) ?_ hl').2
      exact run_append_eq_some.mpr ⟨s₁, hrun₁, run_cons_eq_some.mpr ⟨s₂, hstep, rfl⟩⟩
  · rintro (⟨h1, h2, hcond⟩ | ⟨herr, hsame⟩)
    · exact listenerSetsTtl_of_accepted hl hkernel hs hi hidle hno h1 h2 hcond
    · exact listenerSetsTtl_of_unchanged hl hs hi hidle herr hsame as

/-- Without a socket of the stack, only the kernel has a TTL. -/
theorem udpSetsTtl_iff_of_none (hl : T.HopLimits) (kernel : KernelTtl) {u : UdpSocket}
    (hi : s.objects[i]? = some (.udp u)) (hu : u.socketHandle = none) (t : UInt32) :
    UdpSetsTtl hl kernel s i t ↔ kernel t = .ok t ∨ isErr (kernel t) = true := by
  have hset : s.setTtlUdp hl i t = some s.same := by simp [State.setTtlUdp, hi, hu]
  constructor
  · rintro ⟨c, hc, -, -, hafter⟩
    obtain rfl := Option.some.inj (hset.symm.trans hc)
    rcases hk : kernel t with e | r
    · exact .inr rfl
    · rw [hk] at hafter
      exact .inl (by rw [hafter.1])
  · intro hcond
    refine ⟨_, hset, rfl, rfl, ?_⟩
    rcases hk : kernel t with e | r
    · exact ⟨rfl, rfl⟩
    · rw [hk] at hcond
      refine ⟨by simpa [isErr] using hcond, ?_⟩
      intro u' h' hi' hu'
      obtain rfl : u = u' := by simpa [hi] using hi'
      exact absurd (hu.symm.trans hu') (by simp)

section Udp

variable {u : UdpSocket} {h : SocketHandle} {x : T.Udp} {t : UInt32}

/-- Unless it is zero, the socket of the stack gets the hop limit. -/
theorem setTtlUdp_of_ne_zero (hl : T.HopLimits) (hi : s.objects[i]? = some (.udp u))
    (hu : u.socketHandle = some h) (hx : s.net.sockets.getUdp h = some x) (hne : t.toUInt8 ≠ 0) :
    ∃ y, hl.setUdp x (some t.toUInt8) = some y ∧ s.setTtlUdp hl i t =
      some { s.same with sockets := s.net.sockets.setSocket h (.inr y) } := by
  obtain ⟨y, hy⟩ := Option.isSome_iff_exists.mp
    ((hl.setUdp_isSome x (some t.toUInt8)).mpr (by simpa using hne))
  exact ⟨y, hy, by simp [State.setTtlUdp, hi, hu, hx, hy]⟩

theorem ne_zero_of_setTtlUdp (hl : T.HopLimits) (hi : s.objects[i]? = some (.udp u))
    (hu : u.socketHandle = some h) (hx : s.net.sockets.getUdp h = some x)
    (hc : s.setTtlUdp hl i t = some c) (hpanic : c.callPanicked = false) : t.toUInt8 ≠ 0 := by
  intro h0
  have hnone : hl.setUdp x (some 0) = none := by
    rw [← Option.not_isSome_iff_eq_none, hl.setUdp_isSome]
    simp
  simp only [State.setTtlUdp, hi, hu, hx, h0, hnone, Option.some.injEq] at hc
  rw [← hc] at hpanic
  exact absurd hpanic (by simp)

/-- With a socket of the stack, its hop limit has to be right as well. -/
theorem udpSetsTtl_iff_of_some (hl : T.HopLimits) {kernel : KernelTtl} (hkernel : kernel.Lawful)
    (hi : s.objects[i]? = some (.udp u)) (hu : u.socketHandle = some h)
    (hx : s.net.sockets.getUdp h = some x) (t : UInt32) :
    UdpSetsTtl hl kernel s i t ↔
      (kernel t = .ok t ∧ t.toNat ≤ 255) ∨
      (isErr (kernel t) = true ∧ t.toUInt8 ≠ 0 ∧ hl.udp x = some t.toUInt8) := by
  constructor
  · rintro ⟨c, hc, -, hpanic, hafter⟩
    have hne := ne_zero_of_setTtlUdp hl hi hu hx hc hpanic
    obtain ⟨y, hset, hchange⟩ := setTtlUdp_of_ne_zero hl hi hu hx hne
    obtain rfl := Option.some.inj (hchange.symm.trans hc)
    have hhop := hl.udp_setUdp _ _ _ hset
    have hy : (s.net.sockets.setSocket h (.inr y)).getUdp h = some y := getUdp_setSocket hx
    rcases hk : kernel t with e | r
    · rw [hk] at hafter
      dsimp only at hafter
      rw [hafter.1, hx] at hy
      exact .inr ⟨rfl, hne, by rw [Option.some.inj hy, hhop]⟩
    · rw [hk] at hafter
      obtain ⟨rfl, hall⟩ := hafter
      obtain ⟨y', hy', hreports⟩ := hall u h hi hu
      obtain rfl := Option.some.inj (hy.symm.trans hy')
      rw [hhop] at hreports
      exact .inl ⟨rfl, (toUInt32_toUInt8_eq_iff r).mp hreports⟩
  · rintro (⟨hok, hle⟩ | ⟨herr, hne, hhop⟩)
    · obtain ⟨y, hset, hchange⟩ := setTtlUdp_of_ne_zero hl hi hu hx
        (toUInt8_ne_zero (hkernel.one_le hok) hle)
      refine ⟨_, hchange, rfl, rfl, ?_⟩
      rw [hok]
      refine ⟨rfl, ?_⟩
      intro u' h' hi' hu'
      obtain rfl : u = u' := by simpa [hi] using hi'
      obtain rfl := Option.some.inj (hu.symm.trans hu')
      refine ⟨y, getUdp_setSocket hx, ?_⟩
      rw [hl.udp_setUdp _ _ _ hset]
      exact (toUInt32_toUInt8_eq_iff t).mpr hle
    · obtain ⟨y, hset, hchange⟩ := setTtlUdp_of_ne_zero hl hi hu hx hne
      obtain ⟨e, he⟩ := isErr_eq_true_iff.mp herr
      refine ⟨_, hchange, rfl, rfl, ?_⟩
      rw [he]
      -- what is set is what was there
      have hself := hl.setUdp_self x (by rw [hhop]; simpa using hne)
      rw [hhop, hset] at hself
      rw [Option.some.inj hself]
      exact ⟨setSocket_udp_self hx, rfl⟩

theorem udpSetsTtl_iff (hl : T.HopLimits) {kernel : KernelTtl} (hkernel : kernel.Lawful)
    (hs : s.Sound) (hi : s.objects[i]? = some (.udp u)) (t : UInt32) :
    UdpSetsTtl hl kernel s i t ↔
      (kernel t = .ok t ∧ (u.socketHandle ≠ none → t.toNat ≤ 255)) ∨
      (isErr (kernel t) = true ∧ UdpUnchanged hl s.net.sockets u t) := by
  rcases hu : u.socketHandle with - | h
  · rw [udpSetsTtl_iff_of_none hl kernel hi hu]
    simp [UdpUnchanged, hu]
  · have hmem : (h, .udp) ∈ holdings (.udp u) := by simp [holdings, hu]
    obtain ⟨x, hx⟩ := Owned.getUdp_isSome hs.kept (mem_holdings hi hmem) rfl
    rw [udpSetsTtl_iff_of_some hl hkernel hi hu hx]
    simp [UdpUnchanged, hu, hx]

end Udp

/-- **Setting the TTL works for 1 to 255**, for a listener only until the next `accept`, unless it
is the default of 64. Otherwise a stream panics or gets another TTL, and a listener or a UDP socket
either does so as well, or has the kernel refuse the TTL after the sockets of the stack got it;
unless these had that TTL already, or there are none. -/
theorem setTtl_iff (cfg : Config) (hl : T.HopLimits) {kernel : KernelTtl} (hkernel : kernel.Lawful)
    {as : List (TtlAction T)} (hrun : run (ttlStep cfg hl) initial as = some s) (i : ℕ)
    (t : UInt32) :
    (∀ h, s.objects[i]? = some (.stream h) →
      (StreamSetsTtl hl s i t ↔ 1 ≤ t.toNat ∧ t.toNat ≤ 255)) ∧
    (∀ l as' s', s.objects[i]? = some (.listener l) → l.phase = .idle →
      run (ttlStep cfg hl) s (.core (.setTtl i t) :: as') = some s' →
      (∀ ttl, .core (.setTtl i ttl) ∉ as') →
      (ListenerSetsTtl cfg hl kernel s i t as' ↔
        (1 ≤ t.toNat ∧ t.toNat ≤ 255 ∧ (t = 64 ∨ ∀ slot, .core (.acceptReplace i slot) ∉ as')) ∨
        (isErr (kernel t) = true ∧ ListenerUnchanged hl s.net.sockets l t))) ∧
    ∀ u, s.objects[i]? = some (.udp u) →
      (UdpSetsTtl hl kernel s i t ↔
        (kernel t = .ok t ∧ (u.socketHandle ≠ none → t.toNat ≤ 255)) ∨
        (isErr (kernel t) = true ∧ UdpUnchanged hl s.net.sockets u t)) := by
  have hs := sound_of_run hrun
  refine ⟨?_, ?_, ?_⟩
  · intro h hi
    exact streamSetsTtl_iff hl hs hi t
  · intro l as' s' hi hidle hrun' hno
    exact listenerSetsTtl_iff hl hkernel hs hi hidle hrun' hno
  · intro u hi
    exact udpSetsTtl_iff hl hkernel hs hi t

/-- A client connects, and the listener accepts the connection; the new socket gets the slot. -/
def acceptOne (h slot : ℕ) : List (TtlAction Smoltcp.reference.withHops) :=
  [.core (.bgFirst 0), .core (.bgPoll true),
    .core (.bgSecond [(h, .syn ⟨.v4 10 0 0 9, 4000⟩), (h, .ack), (h, .sent)]),
    .core (.accept 0), .core (.acceptCheck 0 false), .core (.acceptReplace 0 slot)]

/-- A listener accepts a connection, and a UDP socket is bound. -/
def acceptAndBindUdp : List (TtlAction Smoltcp.reference.withHops) :=
  [.core (.bind [.granted ⟨.v4 10 0 0 2, 8080⟩ 7] [0]), .core (.setNonblocking 0 true)] ++
    acceptOne 0 1 ++ [.core (.bindUdp [.granted ⟨.v4 10 0 0 2, 53⟩ 8] 2)]

theorem run_acceptAndBindUdp :
    (run (ttlStep .reference Smoltcp.referenceHops) initial acceptAndBindUdp).map
      (fun s ↦ (s.objects, (s.net.sockets.getUdp ⟨2, 2⟩).map Smoltcp.referenceHops.udp)) =
    some ([.listener ⟨some [⟨1, 1⟩], 7, 8080, none, true, .idle⟩, .stream ⟨0, 0⟩,
      .udp ⟨some ⟨2, 2⟩, 8, true⟩], some none) := rfl

/-- After that, a TTL is set and another connection is accepted. -/
theorem exists_run_acceptOne (t : UInt32) (ht : t = 64 ∨ t = 9)
    {s : State Smoltcp.reference.withHops}
    (hrun : run (ttlStep .reference Smoltcp.referenceHops) initial acceptAndBindUdp = some s) :
    ∃ s', run (ttlStep .reference Smoltcp.referenceHops) s
      (.core (.setTtl 0 t) :: acceptOne 1 3) = some s' := by
  have hsome : (run (ttlStep .reference Smoltcp.referenceHops) initial
      (acceptAndBindUdp ++ .core (.setTtl 0 t) :: acceptOne 1 3)).isSome := by
    rcases ht with rfl | rfl <;> rfl
  obtain ⟨s', hs'⟩ := Option.isSome_iff_exists.mp hsome
  obtain ⟨s₁, hrun₁, hrun₂⟩ := run_append_eq_some.mp hs'
  obtain rfl := Option.some.inj (hrun.symm.trans hrun₁)
  exact ⟨s', hrun₂⟩

theorem setTtl_of_acceptAndBindUdp : ∃ s,
    run (ttlStep .reference Smoltcp.referenceHops) initial acceptAndBindUdp = some s ∧
    ListenerSetsTtl .reference Smoltcp.referenceHops .reference s 0 64 (acceptOne 1 3) ∧
    StreamSetsTtl Smoltcp.referenceHops s 1 32 ∧
    UdpSetsTtl Smoltcp.referenceHops .reference s 2 32 := by
  obtain ⟨s, hrun, hs⟩ := Option.map_eq_some_iff.mp run_acceptAndBindUdp
  replace hs := (Prod.mk.inj hs).1
  obtain ⟨s', hrun'⟩ := exists_run_acceptOne 64 (.inl rfl) hrun
  have hset (i : ℕ) (t : UInt32) :=
    setTtl_iff .reference Smoltcp.referenceHops KernelTtl.lawful_reference hrun i t
  refine ⟨s, hrun, ?_, ?_, ?_⟩
  · exact ((hset 0 64).2.1 _ _ _ (by rw [hs]; rfl) rfl hrun' (by simp [acceptOne])).mpr
      (.inl ⟨by decide, by decide, .inl rfl⟩)
  · exact ((hset 1 32).1 _ (by rw [hs]; rfl)).mpr (by decide)
  · exact ((hset 2 32).2.2 _ (by rw [hs]; rfl)).mpr (.inl ⟨rfl, fun _ ↦ by decide⟩)

/-- With 9 the socket that the next `accept` adds sends with 64, and with 256 the listener panics.
With 300 the stream has TTL 44, and so has the UDP socket although the call returns an error. -/
theorem not_setTtl : ∃ s,
    run (ttlStep .reference Smoltcp.referenceHops) initial acceptAndBindUdp = some s ∧
    ¬ListenerSetsTtl .reference Smoltcp.referenceHops .reference s 0 9 (acceptOne 1 3) ∧
    ¬ListenerSetsTtl .reference Smoltcp.referenceHops .reference s 0 256 [] ∧
    ¬StreamSetsTtl Smoltcp.referenceHops s 1 300 ∧
    ¬UdpSetsTtl Smoltcp.referenceHops .reference s 2 300 := by
  obtain ⟨s, hrun, hs⟩ := Option.map_eq_some_iff.mp run_acceptAndBindUdp
  obtain ⟨hs, hudp⟩ := Prod.mk.inj hs
  have hsound := sound_of_run hrun
  refine ⟨s, hrun, ?_, ?_, ?_, ?_⟩
  · obtain ⟨s', hrun'⟩ := exists_run_acceptOne 9 (.inr rfl) hrun
    rw [listenerSetsTtl_iff _ KernelTtl.lawful_reference hsound (by rw [hs]; rfl) rfl hrun'
      (by simp [acceptOne])]
    rintro (⟨-, -, hdefault | hno⟩ | ⟨herr, -⟩)
    · exact absurd hdefault (by decide)
    · exact hno 3 (by simp [acceptOne])
    · exact absurd herr (by decide)
  · rintro ⟨c, hc, -, hpanic, -⟩
    have hempty := handles_of_setTtl Smoltcp.referenceHops hsound (by rw [hs]; rfl) hc hpanic rfl
    exact absurd hempty (by simp)
  · rw [streamSetsTtl_iff _ hsound (by rw [hs]; rfl)]
    decide
  · rw [udpSetsTtl_iff _ KernelTtl.lawful_reference hsound (by rw [hs]; rfl)]
    rintro (⟨hok, -⟩ | ⟨-, hunchanged⟩)
    · exact absurd hok (by simp [KernelTtl.reference])
    · obtain ⟨-, x, hx, hhop⟩ := hunchanged ⟨2, 2⟩ rfl
      rw [hx, Option.map_some, hhop] at hudp
      exact absurd hudp (by simp)

end State

end UsnetSockets
