import UsnetSockets.Net.Evolution

/-!
# Hop limits

Every socket of smoltcp has a hop limit, which is `None` until one is set and is then used for all
that the socket sends. `HopLimits` lists the calls that read and set it, with what is documented of
them: zero panics, and nothing but setting a hop limit changes it, unless the socket is made new.
That is what `listen` does before anything else, and what the end of `TIME-WAIT` does.

So a socket in a backlog keeps its hop limit in all steps but those that set one: it never comes to
`TIME-WAIT`, since nobody closes it.
-/

namespace UsnetSockets

/-- The hop limits of the sockets of smoltcp. -/
structure Smoltcp.HopLimits (T : Smoltcp) where
  tcp : T.Tcp → Option UInt8
  udp : T.Udp → Option UInt8
  /-- `set_hop_limit` of a UDP socket, which panics on `Some(0)`. -/
  setUdp : T.Udp → Option UInt8 → Option T.Udp
  setHopLimit_isSome : ∀ t v, (T.setHopLimit t v).isSome ↔ v ≠ some 0
  tcp_setHopLimit : ∀ t v t', T.setHopLimit t v = some t' → tcp t' = v
  setHopLimit_self : ∀ t, tcp t ≠ some 0 → T.setHopLimit t (tcp t) = some t
  setUdp_isSome : ∀ u v, (setUdp u v).isSome ↔ v ≠ some 0
  udp_setUdp : ∀ u v u', setUdp u v = some u' → udp u' = v
  setUdp_self : ∀ u, udp u ≠ some 0 → setUdp u (udp u) = some u
  tcp_listen : ∀ t port t', T.listen t port = some t' → tcp t' = none
  tcp_close : ∀ t, tcp (T.close t) = tcp t
  tcp_abort : ∀ t, tcp (T.abort t) = tcp t
  tcp_sendSlice : ∀ t buf, tcp (T.sendSlice t buf) = tcp t
  tcp_send : ∀ t f, tcp (T.send t f) = tcp t
  tcp_recvSlice : ∀ t n, tcp (T.recvSlice t n) = tcp t
  tcp_recv : ∀ t f, tcp (T.recv t f) = tcp t
  tcp_process : ∀ e t, T.state t ≠ .timeWait → tcp (T.process e t) = tcp t
  state_process_closed : ∀ e t, T.state t = .closed → T.state (T.process e t) = .closed
  udp_sendUdp : ∀ u buf addr, udp (T.sendUdp u buf addr) = udp u
  udp_recvUdp : ∀ u n, udp (T.recvUdp u n) = udp u
  udp_processUdp : ∀ e u, udp (T.processUdp e u) = udp u

variable {T : Smoltcp}

/-- A stack with hop limits, from one without. -/
def Smoltcp.withHops (T : Smoltcp) : Smoltcp where
  Tcp := T.Tcp × Option UInt8
  Udp := T.Udp × Option UInt8
  Event := T.Event
  newTcp n := (T.newTcp n, none)
  listen t port := (T.listen t.1 port).map (·, none)
  connect t addr port := (T.connect t.1 addr port).map (·, none)
  setHopLimit t v := if v = some 0 then none else some (t.1, v)
  close t := (T.close t.1, t.2)
  abort t := (T.abort t.1, t.2)
  sendSlice t buf := (T.sendSlice t.1 buf, t.2)
  send t f := (T.send t.1 f, t.2)
  recvSlice t n := (T.recvSlice t.1 n, t.2)
  recv t f := (T.recv t.1 f, t.2)
  state t := T.state t.1
  rxLen t := T.rxLen t.1
  segmentDue t := T.segmentDue t.1
  remoteEndpoint t := T.remoteEndpoint t.1
  isActive t := T.isActive t.1
  mayRecv t := T.mayRecv t.1
  maySend t := T.maySend t.1
  canRecv t := T.canRecv t.1
  canSend t := T.canSend t.1
  newUdp n := (T.newUdp n, none)
  bindUdp u port := (T.bindUdp u.1 port).map (·, u.2)
  canSendUdp u := T.canSendUdp u.1
  sendUdp u buf addr := (T.sendUdp u.1 buf addr, u.2)
  canRecvUdp u := T.canRecvUdp u.1
  recvUdp u n := (T.recvUdp u.1 n, u.2)
  process e t := (T.process e t.1, t.2)
  processUdp e u := (T.processUdp e u.1, u.2)
  isRst := T.isRst
  isFin := T.isFin
  pollDelay sockets now := T.pollDelay (sockets.map (Sum.map Prod.fst Prod.fst)) now
  isActive_eq t := T.isActive_eq t.1
  maySend_eq t := T.maySend_eq t.1
  mayRecv_eq t := T.mayRecv_eq t.1
  state_newTcp n := T.state_newTcp n
  listen_isSome t port ht hport := by simpa using T.listen_isSome t.1 port ht hport
  state_listen t port t' h := by
    obtain ⟨t₁, ht₁, rfl⟩ := Option.map_eq_some_iff.mp h
    exact T.state_listen t.1 port t₁ ht₁
  state_connect t addr port t' h := by
    obtain ⟨t₁, ht₁, rfl⟩ := Option.map_eq_some_iff.mp h
    exact T.state_connect t.1 addr port t₁ ht₁
  state_setHopLimit t v t' h := by
    split at h
    · exact absurd h (by simp)
    · rw [← Option.some.inj h]
  rxLen_setHopLimit t v t' h := by
    split at h
    · exact absurd h (by simp)
    · rw [← Option.some.inj h]
  state_close t := T.state_close t.1
  state_abort t := T.state_abort t.1
  state_sendSlice t buf := T.state_sendSlice t.1 buf
  rxLen_sendSlice t buf := T.rxLen_sendSlice t.1 buf
  state_send t f := T.state_send t.1 f
  rxLen_send t f := T.rxLen_send t.1 f
  state_recvSlice t n := T.state_recvSlice t.1 n
  rxLen_recvSlice t n := T.rxLen_recvSlice t.1 n
  state_recv t f := T.state_recv t.1 f
  rxLen_recv t f := T.rxLen_recv t.1 f
  bindUdp_isSome n port hport := by simpa using T.bindUdp_isSome n port hport
  state_process e t := T.state_process e t.1
  rxLen_process e t := T.rxLen_process e t.1
  pollDelay_of_segmentDue sockets now h := by
    obtain ⟨t, ht, hdue⟩ := h
    exact T.pollDelay_of_segmentDue _ now ⟨t.1, List.mem_map.mpr ⟨.inl t, ht, rfl⟩, hdue⟩

/-- Its hop limits. -/
def Smoltcp.hopsOf (T : Smoltcp)
    (hclosed : ∀ e t, T.state t = .closed → T.state (T.process e t) = .closed) :
    T.withHops.HopLimits where
  tcp := Prod.snd
  udp := Prod.snd
  setUdp u v := if v = some 0 then none else some (u.1, v)
  setHopLimit_isSome t v := by
    by_cases hv : v = some 0
    · simp [withHops, hv]
    · simp [withHops, hv]
  tcp_setHopLimit t v t' h := by
    simp only [withHops] at h
    split at h
    · exact absurd h (by simp)
    · rw [← Option.some.inj h]
  setHopLimit_self t ht := if_neg ht
  setUdp_isSome u v := by
    by_cases hv : v = some 0
    · simp [hv]
    · simp only [hv, if_false, ne_eq, not_false_eq_true, iff_true]
      rfl
  udp_setUdp u v u' h := by
    split at h
    · exact absurd h (by simp)
    · rw [← Option.some.inj h]
  setUdp_self u hu := if_neg hu
  tcp_listen t port t' h := by
    obtain ⟨t₁, -, rfl⟩ := Option.map_eq_some_iff.mp h
    rfl
  tcp_close _ := rfl
  tcp_abort _ := rfl
  tcp_sendSlice _ _ := rfl
  tcp_send _ _ := rfl
  tcp_recvSlice _ _ := rfl
  tcp_recv _ _ := rfl
  tcp_process _ _ _ := rfl
  state_process_closed e t := hclosed e t.1
  udp_sendUdp _ _ _ := rfl
  udp_recvUdp _ _ := rfl
  udp_processUdp _ _ := rfl

theorem Smoltcp.reference_process_closed (e : reference.Event) (t : reference.Tcp)
    (ht : reference.state t = .closed) : reference.state (reference.process e t) = .closed := by
  obtain ⟨st, rx, due, port, remote⟩ := t
  obtain rfl : st = .closed := ht
  cases e <;> rfl

/-- The hop limits of `Smoltcp.reference`. -/
def Smoltcp.referenceHops : reference.withHops.HopLimits :=
  reference.hopsOf reference_process_closed

/-- The states of a socket in a backlog: it has been told to listen and nothing else, or its
connection is over. -/
def TcpState.backlog : List TcpState := .closed :: TcpState.passive

namespace Smoltcp.HopLimits

open Relation

variable (hl : T.HopLimits)

/-- What a socket with this hop limit sends with. -/
def effective (v : Option UInt8) : UInt8 := v.getD 64

variable {hl} {a : Action T} {t t' : T.Tcp}

theorem state_process_backlog (hl : T.HopLimits) (e : T.Event)
    (ht : T.state t ∈ TcpState.backlog) : T.state (T.process e t) ∈ TcpState.backlog := by
  rcases List.mem_cons.mp ht with hclosed | hpassive
  · rw [hl.state_process_closed e t hclosed]
    exact List.mem_cons_self
  · have hnext := T.state_process e t hpassive
    have hsub : ∀ st ∈ TcpState.passive, ∀ rst fin, st.passiveNext rst fin ⊆ TcpState.backlog := by
      decide
    exact hsub _ hpassive _ _ hnext

theorem ne_timeWait_of_mem_backlog {st : TcpState} (h : st ∈ TcpState.backlog) :
    st ≠ .timeWait := by
  rintro rfl
  exact absurd h (by decide)

/-- Polling the interface leaves the hop limit of a socket in a backlog alone. -/
theorem tcp_of_does_bgSecond {es : List (ℕ × T.Event)}
    (hdoes : ReflTransGen (Action.bgSecond es).Does (.inl t) (.inl t'))
    (ht : T.state t ∈ TcpState.backlog) : hl.tcp t' = hl.tcp t := by
  let Q (t t' : T.Tcp) : Prop :=
    T.state t ∈ TcpState.backlog → T.state t' ∈ TcpState.backlog ∧ hl.tcp t' = hl.tcp t
  obtain ⟨t₀, ht₀, hQ⟩ : ∃ t₀, (Sum.inl t : T.Tcp ⊕ T.Udp) = .inl t₀ ∧ Q t₀ t' := by
    refine Action.Does.of_reflTransGen (fun _ h ↦ ⟨h, rfl⟩) ?_ ?_ hdoes rfl
    · intro t₁ t₂ t₃ h₁ h₂ hback
      obtain ⟨hback₂, he₂⟩ := h₁ hback
      exact ⟨(h₂ hback₂).1, (h₂ hback₂).2.trans he₂⟩
    · intro t₁ t₂ h hback
      cases h with
      | close ha => exact absurd rfl (ha es)
      | abort ha => exact absurd rfl (ha es)
      | process _ e =>
        exact ⟨hl.state_process_backlog e hback,
          hl.tcp_process e t₁ (ne_timeWait_of_mem_backlog hback)⟩
      | setHopLimit ha | sendSlice ha | send ha | recvSlice ha | recv ha => nomatch ha
  obtain rfl := Sum.inl.inj ht₀
  exact (hQ ht).2

/-- **Only `set_ttl` changes the hop limit** of a socket that may be in a backlog. -/
theorem tcp_of_does (ha : ∀ i ttl, a ≠ .setTtl i ttl)
    (hdoes : ReflTransGen a.Does (.inl t) (.inl t')) (ht : T.state t ∈ TcpState.backlog) :
    hl.tcp t' = hl.tcp t := by
  by_cases hpoll : ∃ es, a = .bgSecond es
  · obtain ⟨es, rfl⟩ := hpoll
    exact tcp_of_does_bgSecond hdoes ht
  · push Not at hpoll
    have hone (t₁ t₂ : T.Tcp) (h : a.Does (.inl t₁) (.inl t₂)) : hl.tcp t₂ = hl.tcp t₁ := by
      cases h with
      | close => exact hl.tcp_close t₁
      | abort => exact hl.tcp_abort t₁
      | setHopLimit h => exact absurd h (ha _ _)
      | sendSlice => exact hl.tcp_sendSlice t₁ _
      | send => exact hl.tcp_send t₁ _
      | recvSlice => exact hl.tcp_recvSlice t₁ _
      | recv => exact hl.tcp_recv t₁ _
      | process h => exact absurd h (hpoll _)
    obtain ⟨t₀, ht₀, he⟩ := Action.Does.of_reflTransGen (Q := fun t t' ↦ hl.tcp t' = hl.tcp t)
      (fun _ ↦ rfl) (fun _ _ _ h h' ↦ h'.trans h) hone hdoes rfl
    exact Sum.inl.inj ht₀ ▸ he

end Smoltcp.HopLimits

end UsnetSockets
