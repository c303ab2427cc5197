import Mathlib.Data.List.Nodup
import UsnetSockets.Net.Evolution

/-!
# The backlog of a listener

`bind` fills `listen_handles` with as many listening sockets as the backlog has, and `accept` puts a
new one in the place of each that it returns. So between the operations a listener has exactly its
backlog, all of it listening on its own port, and no socket is returned twice, whatever else happens
in between and however slots are used again.

One invariant counts numbers of sockets: those in a backlog, those that a call of `accept` has
taken, and those that have been returned are all different, and smaller than the number of the next
socket. Another one follows each socket in a backlog back to the call of `listen` that opened it.
-/

namespace UsnetSockets

namespace State

open Transition SocketSet

variable {T : Smoltcp} {cfg : Config} {s s' : State T} {a : Action T}

/-- The sockets that a listener has, or a call of `accept` has taken from it. -/
def tickets : Object → List ℕ
  | .listener l => (l.listenHandles.getD [] ++ phaseHandles l.phase).map SocketHandle.uid
  | _ => []

/-- The number of the socket in the slot of a stream. -/
def streamUid (S : SocketSet T) : Object → Option ℕ
  | .stream h => (S.slots h.index).map Item.uid
  | _ => none

/-- The numbers of the sockets that a call of `accept` returns: those of the streams that the step
adds. -/
def accepted (cfg : Config) (s : State T) (a : Action T) : List ℕ :=
  match a, s.step cfg a with
  | .acceptReplace _ _, some s' =>
    (s'.objects.drop s.objects.length).filterMap (streamUid s'.net.sockets)
  | _, _ => []

/-- What holds of each listener. -/
structure Filed (cfg : Config) (l : StcpListener) : Prop where
  ttl_ne_zero : l.ttl ≠ some 0
  port_ne_zero : ∀ hs, l.listenHandles = some hs → l.port ≠ 0
  length : ∀ hs, l.listenHandles = some hs → (hs ++ phaseHandles l.phase).length = cfg.socketBacklog

/-- All sockets of backlogs and those that have been returned are different, and none is new. -/
structure Ticketed (cfg : Config) (objects : List Object) (added : ℕ) (log : List ℕ) : Prop where
  count_le_one : ∀ u, (objects.flatMap tickets ++ log).count u ≤ 1
  uid_lt : ∀ u ∈ objects.flatMap tickets ++ log, u < added
  filed : ∀ l, .listener l ∈ objects → Filed cfg l

section Ticketed

variable {objects objects' : List Object} {added added' : ℕ} {log log' : List ℕ}
  {o o' : Object} {i : ℕ}

/-- New sockets may be added, and others may be given up or change their places. -/
theorem Ticketed.of_count (h : Ticketed cfg objects added log) (fresh : List ℕ)
    (hnodup : fresh.Nodup) (hfresh : ∀ u ∈ fresh, added ≤ u ∧ u < added') (hle : added ≤ added')
    (hcount : ∀ u, (objects'.flatMap tickets ++ log').count u ≤
      (objects.flatMap tickets ++ log).count u + fresh.count u)
    (hfiled : ∀ l, .listener l ∈ objects' → Filed cfg l) :
    Ticketed cfg objects' added' log' where
  count_le_one u := by
    have hu := hcount u
    by_cases hmem : u ∈ fresh
    · have hone := List.nodup_iff_count_le_one.mp hnodup u
      have hnew : u ∉ objects.flatMap tickets ++ log := fun hold ↦
        absurd (h.uid_lt u hold) (Nat.not_lt.mpr (hfresh u hmem).1)
      rw [List.count_eq_zero_of_not_mem hnew] at hu
      omega
    · have hone := h.count_le_one u
      rw [List.count_eq_zero_of_not_mem hmem] at hu
      omega
  uid_lt u hu := by
    have hpos : 0 < (objects.flatMap tickets ++ log).count u + fresh.count u :=
      (List.count_pos_iff.mpr hu).trans_le (hcount u)
    rcases Nat.add_pos_iff_pos_or_pos.mp hpos with hold | hnew
    · exact (h.uid_lt u (List.count_pos_iff.mp hold)).trans_le hle
    · exact (hfresh u (List.count_pos_iff.mp hnew)).2
  filed := hfiled

/-- No new sockets of listeners. -/
theorem Ticketed.of_count_le (h : Ticketed cfg objects added log) (hle : added ≤ added')
    (hcount : ∀ u, (objects'.flatMap tickets ++ log').count u ≤
      (objects.flatMap tickets ++ log).count u)
    (hfiled : ∀ l, .listener l ∈ objects' → Filed cfg l) :
    Ticketed cfg objects' added' log' :=
  h.of_count [] List.nodup_nil (by simp) hle hcount hfiled

/-- A value is replaced by one with no other sockets in its backlog. -/
theorem Ticketed.set (h : Ticketed cfg objects added log) (hi : objects[i]? = some o)
    (hle : added ≤ added') (hcount : ∀ u, (tickets o').count u ≤ (tickets o).count u)
    (hfiled : ∀ l, o' = .listener l → Filed cfg l) :
    Ticketed cfg (objects.set i o') added' log := by
  refine h.of_count_le hle ?_ ?_
  · intro u
    have hset := count_flatMap_set tickets hi o' u
    have hu := hcount u
    rw [List.count_append, List.count_append]
    omega
  · intro l hl
    rcases List.mem_or_eq_of_mem_set hl with hl | hl
    · exact h.filed l hl
    · exact hfiled l hl.symm

theorem Ticketed.append (h : Ticketed cfg objects added log) (hle : added ≤ added')
    (ho : tickets o = []) (hfiled : ∀ l, o = .listener l → Filed cfg l) :
    Ticketed cfg (objects ++ [o]) added' log := by
  refine h.of_count_le hle ?_ ?_
  · intro u
    simp [ho]
  · intro l hl
    rcases List.mem_append.mp hl with hl | hl
    · exact h.filed l hl
    · exact hfiled l (List.mem_singleton.mp hl).symm

end Ticketed

/-! ## One step -/

variable {log : List ℕ} {objects : List Object} {added : ℕ}

theorem tickets_wakeAccept (o : Object) : tickets (wakeAccept o) = tickets o := by
  cases o with
  | listener l =>
    simp only [wakeAccept]
    split
    · rename_i hw
      simp [tickets, hw, phaseHandles]
    · rfl
  | _ => rfl

theorem Ticketed.wakes (h : Ticketed cfg objects added log) :
    Ticketed cfg (objects.map wakeAccept) added log := by
  refine h.of_count_le le_rfl ?_ ?_
  · intro u
    simp only [List.flatMap_map, tickets_wakeAccept, le_refl]
  · intro l' hl'
    obtain ⟨o, ho, hwake⟩ := List.mem_map.mp hl'
    cases o with
    | listener l =>
      have hl := h.filed l ho
      simp only [wakeAccept, Object.listener.injEq] at hwake
      split at hwake
      · rename_i hw
        subst hwake
        exact ⟨hl.ttl_ne_zero, hl.port_ne_zero, by simpa [hw, phaseHandles] using hl.length⟩
      · exact hwake ▸ hl
    | _ => exact absurd hwake (by simp [wakeAccept])

/-- A call of `accept` moves a socket from the backlog into its own hands. -/
theorem Filed.turns {l l' : StcpListener} (h : Filed cfg l) (hturns : ListenerTurns a l l')
    (httl : ∀ i ttl, a = .setTtl i ttl → ttl.toUInt8 ≠ 0) :
    Filed cfg l' ∧ ∀ u, (tickets (.listener l')).count u ≤ (tickets (.listener l)).count u := by
  cases hturns with
  | keeps handles port phase ttl =>
    refine ⟨⟨?_, ?_, ?_⟩, ?_⟩
    · rcases ttl with ttl | ⟨i, t, ha, ttl⟩
      · exact ttl ▸ h.ttl_ne_zero
      · rw [ttl]
        exact fun h0 ↦ httl i t ha (Option.some.inj h0)
    · rw [handles, port]
      exact h.port_ne_zero
    · rw [handles, phase]
      exact h.length
    · intro u
      rw [tickets, tickets, handles, phase]
  | takes peer handles found phase =>
    rename_i hs k x
    obtain ⟨hlt, rfl⟩ := List.getElem?_eq_some_iff.mp found
    have hperm := (List.perm_append_singleton hs[k] (hs.eraseIdx k)).trans
      (List.getElem_cons_eraseIdx_perm hlt)
    refine ⟨⟨h.ttl_ne_zero, fun _ _ ↦ h.port_ne_zero hs handles, ?_⟩, ?_⟩
    · rintro _ ⟨⟩
      rw [phaseHandles, hperm.length_eq, ← h.length hs handles, phase, List.append_nil]
    · intro u
      have hold : tickets (.listener l) = hs.map SocketHandle.uid := by
        rw [tickets, handles, phase, Option.getD_some, List.append_nil]
      rw [hold]
      exact ((hperm.map _).count_eq u).le

/-- The sockets of a new listener are new. -/
theorem Ticketed.binds (h : Ticketed cfg objects added log) {hs : List SocketHandle} {lo : Fd}
    {port : UInt16} (hport : port ≠ 0)
    (huids : hs.map SocketHandle.uid = List.range' added cfg.socketBacklog) :
    Ticketed cfg (objects ++ [.listener ⟨some hs, lo, port, none, false, .idle⟩])
      (added + cfg.socketBacklog) log := by
  refine h.of_count (List.range' added cfg.socketBacklog) List.nodup_range' (fun u hu ↦ ?_)
    (Nat.le_add_right ..) (fun u ↦ ?_) fun l hl ↦ ?_
  · rw [List.mem_range'_1] at hu
    exact hu
  · simp only [List.flatMap_append, List.flatMap_cons, List.flatMap_nil, List.append_nil, tickets,
      Option.getD_some, phaseHandles, huids, List.count_append]
    omega
  · rcases List.mem_append.mp hl with hl | hl
    · exact h.filed l hl
    · obtain rfl := Object.listener.inj (List.mem_singleton.mp hl)
      refine ⟨by simp, fun _ _ ↦ hport, ?_⟩
      rintro _ ⟨⟩
      simpa [phaseHandles] using congrArg List.length huids

/-- A new socket takes the place of the one that is returned. -/
theorem Ticketed.accepts (h : Ticketed cfg objects added log) {i : ℕ} {l : StcpListener}
    {x : SocketHandle} {peer : SocketAddr} {hs : List SocketHandle} (slot : ℕ)
    (hi : objects[i]? = some (.listener l)) (hphase : l.phase = .taken x peer)
    (hhandles : l.listenHandles = some hs) :
    Ticketed cfg (objects.set i (.listener { l with
        listenHandles := some (hs ++ [⟨slot, added⟩])
        phase := .idle }) ++ [.stream x])
      (added + 1) (log ++ [x.uid]) := by
  have hl := h.filed l (List.mem_of_getElem? hi)
  refine h.of_count [added] (List.nodup_singleton _) (by simp) (Nat.le_succ _) (fun u ↦ ?_)
    fun l' hl' ↦ ?_
  · have hset := count_flatMap_set tickets hi (.listener { l with
      listenHandles := some (hs ++ [⟨slot, added⟩])
      phase := .idle }) u
    simp only [tickets, hhandles, hphase, phaseHandles, Option.getD_some, List.map_append,
      List.map_cons, List.map_nil, List.append_nil, List.count_append] at hset
    simp only [List.flatMap_append, List.flatMap_cons, List.flatMap_nil, List.append_nil, tickets,
      List.count_append]
    omega
  · rcases List.mem_append.mp hl' with hl' | hl'
    · rcases List.mem_or_eq_of_mem_set hl' with hl' | hl'
      · exact h.filed l' hl'
      · obtain rfl := Object.listener.inj hl'
        refine ⟨hl.ttl_ne_zero, fun _ _ ↦ hl.port_ne_zero hs hhandles, ?_⟩
        rintro _ ⟨⟩
        rw [← hl.length hs hhandles, hphase]
        simp [phaseHandles]
    · exact absurd (List.mem_singleton.mp hl') (by simp)

/-- The new socket of `accept` can be told to listen. -/
theorem listens_newTcp (hhop : ∀ t ttl, ttl ≠ some 0 → (T.setHopLimit t ttl).isSome)
    {l : StcpListener} (httl : l.ttl ≠ some 0) (hport : l.port ≠ 0) :
    ((T.setHopLimit (T.newTcp cfg.socketBufferSize) l.ttl).bind fun t ↦ T.listen t l.port) ≠
      none := by
  obtain ⟨t, ht⟩ := Option.isSome_iff_exists.mp (hhop (T.newTcp cfg.socketBufferSize) l.ttl httl)
  have hclosed : T.state t = .closed := (T.state_setHopLimit _ _ _ ht).trans (T.state_newTcp _)
  rw [ht, Option.bind_some, ← Option.isSome_iff_ne_none]
  exact T.listen_isSome t l.port hclosed hport

theorem Ticketed.connects (h : Ticketed cfg objects added log) {i : ℕ} {k : Connecting}
    {x : SocketHandle} {o : Object} (hi : objects[i]? = some (.connecting k))
    (ho : Connects x o) : Ticketed cfg (objects.set i o) (added + 1) log := by
  cases ho with
  | gone => exact h.set hi (Nat.le_succ _) (fun u ↦ le_rfl) (by simp)
  | stream => exact h.set hi (Nat.le_succ _) (fun u ↦ le_rfl) (by simp)
  | connecting hk => exact h.set hi (Nat.le_succ _) (fun u ↦ le_rfl) (by simp)

/-- A step that adds no value, or is not the end of a call of `accept`, returns no socket. -/
theorem accepted_eq_nil (hstep : s.step cfg a = some s')
    (h : s'.objects.length ≤ s.objects.length ∨ ∀ i slot, a ≠ .acceptReplace i slot) :
    accepted cfg s a = [] := by
  rcases a with _ | _ | _ | _ | _ | _ | _ | _ | _ | _ | _ | _ | _ | ⟨i, slot⟩ | _ | _ | _ | _ | _ |
    _ | _ | _ | _ | _ | _ | _ | _
  case acceptReplace =>
    rcases h with h | h
    · simp only [accepted, hstep, List.drop_eq_nil_of_le h, List.filterMap_nil]
    · exact absurd rfl (h i slot)
  all_goals rfl

/-- The stream that is added has the socket that was taken. -/
theorem accepted_eq_singleton {i slot : ℕ} (hstep : s.step cfg (.acceptReplace i slot) = some s')
    {objects : List Object} {x : SocketHandle} (hobjects : s'.objects = objects ++ [.stream x])
    (hlen : objects.length = s.objects.length)
    (hkept : Kept (fun _ _ _ ↦ True) s'.net.sockets s'.objects) :
    accepted cfg s (.acceptReplace i slot) = [x.uid] := by
  have hmem : (x, .tcp) ∈ s'.objects.flatMap holdings :=
    List.mem_flatMap.mpr ⟨.stream x, by simp [hobjects], List.mem_cons_self⟩
  obtain ⟨item, hslot, huid, -⟩ := hkept.backs _ hmem
  have hdrop : s'.objects.drop s.objects.length = [.stream x] := by
    rw [hobjects, ← hlen, List.drop_left]
  simp only [accepted, hstep, hdrop, List.filterMap_cons, List.filterMap_nil, streamUid, hslot,
    Option.map_some, huid]

/-- **One step**, if smoltcp sets every hop limit but zero, and the application does not ask for
zero. -/
theorem Ticketed.step (hhop : ∀ t ttl, ttl ≠ some 0 → (T.setHopLimit t ttl).isSome)
    (h : Ticketed cfg s.objects s.net.sockets.added log) (hstep : s.step cfg a = some s')
    (hkept : Kept (fun _ _ _ ↦ True) s'.net.sockets s'.objects)
    (httl : ∀ i ttl, a = .setTtl i ttl → ttl.toUInt8 ≠ 0) :
    Ticketed cfg s'.objects s'.net.sockets.added (log ++ accepted cfg s a) := by
  have hquiet (hno : s'.objects.length ≤ s.objects.length ∨ ∀ i slot, a ≠ .acceptReplace i slot)
      (h : Ticketed cfg s'.objects s'.net.sockets.added log) :
      Ticketed cfg s'.objects s'.net.sockets.added (log ++ accepted cfg s a) := by
    rwa [accepted_eq_nil hstep hno, List.append_nil]
  have hr := rearranges_of_step hstep
  generalize hobjects : s'.objects = objects at hr hquiet ⊢
  generalize s'.net.sockets.added = added at hr hquiet ⊢
  cases hr with
  | same a => exact hquiet (.inl le_rfl) h
  | wakes events => exact hquiet (.inl (by simp)) h.wakes
  | turns hi hturns =>
    refine hquiet (.inl (by simp)) ?_
    cases hturns with
    | gone o => exact h.set hi le_rfl (fun u ↦ Nat.zero_le _) (by simp)
    | listener hl =>
      obtain ⟨hfiled, hcount⟩ := (h.filed _ (List.mem_of_getElem? hi)).turns hl httl
      refine h.set hi le_rfl hcount fun l' hl' ↦ ?_
      exact Object.listener.inj hl' ▸ hfiled
    | connecting hk => exact h.set hi le_rfl (fun u ↦ le_rfl) (by simp)
    | connected hk => exact h.set hi le_rfl (fun u ↦ le_rfl) (by simp)
  | adds ha hadds =>
    refine hquiet (.inr ha) ?_
    cases hadds with
    | listener lo port =>
      refine h.append le_rfl rfl fun l hl ↦ ?_
      obtain rfl := Object.listener.inj hl
      exact ⟨by simp, by simp, by simp⟩
    | stream hx => exact h.append le_rfl rfl (by simp)
    | udp hu => exact h.append le_rfl rfl (by simp)
    | connecting hk => exact h.append le_rfl rfl (by simp)
  | binds hresult huids =>
    exact hquiet (.inr (by simp)) (h.binds (port_ne_zero_of_bindAddrs hresult) huids)
  | bindsUdp => exact hquiet (.inr (by simp)) (h.append (Nat.le_succ _) rfl (by simp))
  | accepts hi hphase hhandles hlistens =>
    rw [accepted_eq_singleton hstep hobjects (List.length_set ..) hkept]
    exact h.accepts _ hi hphase hhandles
  | loses hi hhandles hfails =>
    have hl := h.filed _ (List.mem_of_getElem? hi)
    exact absurd hfails (listens_newTcp hhop hl.ttl_ne_zero (hl.port_ne_zero _ hhandles))
  | connects hi hconnects => exact hquiet (.inl (by simp)) (h.connects hi hconnects)

/-! ## Sockets that have been told to listen -/

/-- The socket has been told to listen on the port, and calls have been made on it since. -/
inductive Opened (port : UInt16) : T.Tcp → Prop
  | listen {t t' : T.Tcp} (h : T.listen t port = some t') : Opened port t'
  | does {a : Action T} {t t' : T.Tcp} (h : Opened port t) (hdoes : a.Does (.inl t) (.inl t')) :
      Opened port t'

/-- The sockets in the backlogs have been told to listen on the ports of their listeners. -/
def BacklogsOpened (s : State T) : Prop :=
  ∀ l h, .listener l ∈ s.objects → h ∈ l.listenHandles.getD [] →
    ∃ t, s.net.sockets.getTcp h = some t ∧ Opened l.port t

/-- A socket that `bind` makes has been told to listen on its port. -/
theorem Makes.listen_of_bind {addrs : List BindAddr} {slots : List ℕ} {x : T.Tcp ⊕ T.Udp}
    {port : UInt16} {lo : Fd} (hx : s.Makes cfg (.bind addrs slots) x)
    (hresult : bindAddrs addrs emptyAddrs = some (.registered port lo)) :
    ∃ t t', x = .inl t' ∧ T.listen t port = some t' := by
  rcases hx with ⟨ha, hresult', hlisten⟩ | ⟨ha, _⟩ | ⟨ha, _, _⟩ | ⟨ha, _, _⟩ |
    ⟨ha, _, _, _, _, _⟩ | ⟨ha⟩
  · obtain ⟨rfl, -⟩ := Action.bind.inj ha
    obtain ⟨rfl, -⟩ := BindResult.registered.inj (Option.some.inj (hresult.symm.trans hresult'))
    exact ⟨_, _, rfl, hlisten⟩
  all_goals exact absurd ha (by simp)

/-- So has one that `accept` makes, on the port of the listener, if that can be done. -/
theorem Makes.listen_of_acceptReplace {i slot : ℕ} {l : StcpListener} {t : T.Tcp}
    {x : T.Tcp ⊕ T.Udp} (hx : s.Makes cfg (.acceptReplace i slot) x)
    (hi : s.objects[i]? = some (.listener l))
    (hlistens : ((T.setHopLimit (T.newTcp cfg.socketBufferSize) l.ttl).bind
      fun t ↦ T.listen t l.port) = some t) :
    ∃ t t', x = .inl t' ∧ T.listen t l.port = some t' := by
  rcases hx with ⟨ha, _, _⟩ | ⟨ha, _⟩ | ⟨ha, hi', hlistens'⟩ | ⟨ha, hi', hfails⟩ |
    ⟨ha, _, _, _, _, _⟩ | ⟨ha⟩
  · exact absurd ha (by simp)
  · exact absurd ha (by simp)
  · obtain ⟨rfl, -⟩ := Action.acceptReplace.inj ha
    obtain rfl := Object.listener.inj (Option.some.inj (hi.symm.trans hi'))
    obtain ⟨t₀, -, hlisten⟩ := Option.bind_eq_some_iff.mp hlistens'
    exact ⟨t₀, _, rfl, hlisten⟩
  · obtain ⟨rfl, -⟩ := Action.acceptReplace.inj ha
    obtain rfl := Object.listener.inj (Option.some.inj (hi.symm.trans hi'))
    exact absurd (hlistens.symm.trans hfails) (by simp)
  · exact absurd ha (by simp)
  · exact absurd ha (by simp)

/-- A handle in a backlog was in that of a listener with the same port before, or is one of a new
socket, which the step has made by `listen` on that port. -/
theorem Rearranges.backlog (hr : Rearranges cfg s a objects added) {l' : StcpListener}
    (hl' : .listener l' ∈ objects) {h : SocketHandle} (hh : h ∈ l'.listenHandles.getD []) :
    (∃ l, .listener l ∈ s.objects ∧ h ∈ l.listenHandles.getD [] ∧ l.port = l'.port) ∨
    (s.net.sockets.added ≤ h.uid ∧
      ∀ x, s.Makes cfg a x → ∃ t t', x = .inl t' ∧ T.listen t l'.port = some t') := by
  cases hr with
  | same a => exact .inl ⟨l', hl', hh, rfl⟩
  | wakes events =>
    obtain ⟨o, ho, hwake⟩ := List.mem_map.mp hl'
    rcases o with l | _ | _ | _ | _
    · simp only [wakeAccept, Object.listener.injEq] at hwake
      refine .inl ⟨l, ho, ?_, ?_⟩
      · rw [← hwake] at hh
        split at hh <;> exact hh
      · rw [← hwake]
        split <;> rfl
    all_goals exact absurd hwake (by simp [wakeAccept])
  | turns hi hturns =>
    rcases List.mem_or_eq_of_mem_set hl' with hl' | rfl
    · exact .inl ⟨l', hl', hh, rfl⟩
    · rcases hturns with _ | hl
      refine .inl ⟨_, List.mem_of_getElem? hi, ?_⟩
      cases hl with
      | keeps handles port phase ttl => exact ⟨handles ▸ hh, port.symm⟩
      | takes peer handles found phase =>
        rw [handles]
        exact ⟨List.mem_of_mem_eraseIdx hh, rfl⟩
  | adds ha hadds =>
    rcases List.mem_append.mp hl' with hl' | hl'
    · exact .inl ⟨l', hl', hh, rfl⟩
    · obtain rfl := List.mem_singleton.mp hl'
      rcases hadds with ⟨lo, port⟩
      exact absurd hh (by simp)
  | binds hresult huids =>
    rcases List.mem_append.mp hl' with hl' | hl'
    · exact .inl ⟨l', hl', hh, rfl⟩
    · obtain rfl := Object.listener.inj (List.mem_singleton.mp hl')
      have huid := List.mem_map_of_mem (f := SocketHandle.uid) hh
      rw [Option.getD_some, huids, List.mem_range'_1] at huid
      exact .inr ⟨huid.1, fun x hx ↦ hx.listen_of_bind hresult⟩
  | bindsUdp =>
    rcases List.mem_append.mp hl' with hl' | hl'
    · exact .inl ⟨l', hl', hh, rfl⟩
    · exact absurd (List.mem_singleton.mp hl') (by simp)
  | accepts hi hphase hhandles hlistens =>
    rcases List.mem_append.mp hl' with hl' | hl'
    · rcases List.mem_or_eq_of_mem_set hl' with hl' | hl'
      · exact .inl ⟨l', hl', hh, rfl⟩
      · obtain rfl := Object.listener.inj hl'
        rcases List.mem_append.mp hh with hh | hh
        · exact .inl ⟨_, List.mem_of_getElem? hi, by rwa [hhandles], rfl⟩
        · refine .inr ⟨by rw [List.mem_singleton.mp hh], fun x hx ↦ ?_⟩
          obtain ⟨t, t', ht', hlisten⟩ := hx.listen_of_acceptReplace hi hlistens
          exact ⟨t, t', ht', hlisten⟩
    · exact absurd (List.mem_singleton.mp hl') (by simp)
  | loses hi hhandles hfails hobjects =>
    rcases hobjects with rfl | rfl
    · exact .inl ⟨l', hl', hh, rfl⟩
    · rcases List.mem_or_eq_of_mem_set hl' with hl' | hl'
      · exact .inl ⟨l', hl', hh, rfl⟩
      · obtain rfl := Object.listener.inj hl'
        exact .inl ⟨_, List.mem_of_getElem? hi, hh, rfl⟩
  | connects hi hconnects =>
    rcases List.mem_or_eq_of_mem_set hl' with hl' | rfl
    · exact .inl ⟨l', hl', hh, rfl⟩
    · cases hconnects

/-- Calls leave a socket one that has been told to listen. -/
theorem Opened.of_does (port : UInt16) {x : T.Tcp ⊕ T.Udp} {t' : T.Tcp}
    (h : Relation.ReflTransGen a.Does x (.inl t')) :
    ∃ t, x = .inl t ∧ (Opened port t → Opened port t') :=
  Action.Does.of_reflTransGen (Q := fun t t' ↦ Opened port t → Opened port t') (fun _ ↦ id)
    (fun _ _ _ h h' ↦ h' ∘ h) (fun _ _ hdoes h ↦ .does h hdoes) h rfl

/-- The handle of a backlog is held. -/
theorem mem_flatMap_holdings {l : StcpListener} {h : SocketHandle} (hl : .listener l ∈ objects)
    (hh : h ∈ l.listenHandles.getD []) :
    (h, .backlog (l.phase = .waiting)) ∈ objects.flatMap holdings :=
  List.mem_flatMap.mpr ⟨_, hl, List.mem_append_left _ (List.mem_map_of_mem hh)⟩

theorem BacklogsOpened.step (hopened : BacklogsOpened s)
    (hs : Kept (fun _ _ _ ↦ True) s.net.sockets s.objects)
    (hs' : Kept (fun _ _ _ ↦ True) s'.net.sockets s'.objects) (hstep : s.step cfg a = some s') :
    BacklogsOpened s' := by
  intro l' h hl' hh
  have hheld := mem_flatMap_holdings hl' hh
  obtain ⟨t', ht'⟩ := hs'.getTcp_isSome hheld rfl
  refine ⟨t', ht', ?_⟩
  obtain ⟨l, hl, hh₀, hport⟩ | ⟨hnew, hmakes⟩ := (rearranges_of_step hstep).backlog hl' hh
  · obtain ⟨t, ht, hdoes⟩ := does_of_step hs hs' hstep (mem_flatMap_holdings hl hh₀) hheld ht'
    obtain ⟨t₀, ht₀, hopen⟩ := hopened l h hl hh₀
    obtain rfl := Option.some.inj (ht.symm.trans ht₀)
    obtain ⟨t₁, ht₁, hkeeps⟩ := Opened.of_does l.port hdoes
    obtain rfl := Sum.inl.inj ht₁
    exact hport ▸ hkeeps hopen
  · obtain ⟨t₁, hmade, hdoes⟩ := makes_of_step hs hs' hstep hheld ht' hnew
    obtain ⟨t₂, ht₂, hkeeps⟩ := Opened.of_does l'.port hdoes
    obtain rfl := Sum.inl.inj ht₂
    obtain ⟨t, t₃, ht₃, hlisten⟩ := hmakes _ hmade
    obtain rfl := Sum.inl.inj ht₃
    exact hkeeps (.listen hlisten)

/-! ## Whole runs -/

theorem ticketed_of_run {as : List (Action T)}
    (hhop : ∀ t ttl, ttl ≠ some 0 → (T.setHopLimit t ttl).isSome)
    (httl : ∀ i ttl, .setTtl i ttl ∈ as → ttl.toUInt8 ≠ 0)
    (hrun : run (logged (step cfg) (accepted cfg)) (initial, []) as = some (s, log)) :
    Ticketed cfg s.objects s.net.sockets.added log := by
  let I (x : State T × List ℕ) : Prop :=
    Kept (fun _ _ _ ↦ True) x.1.net.sockets x.1.objects ∧
      Ticketed cfg x.1.objects x.1.net.sockets.added x.2
  let C (a : Action T) : Prop := ∀ i ttl, a = .setTtl i ttl → ttl.toUInt8 ≠ 0
  have hinit : I (initial, []) :=
    ⟨kept_initial, by simp [initial], by simp [initial], by simp [initial]⟩
  have hC : ∀ a ∈ as, C a := fun a ha i ttl he ↦ httl i ttl (he ▸ ha)
  refine (invariant_of_along (I := I) (fun x a y hx ha hstep ↦ ?_) hinit
    (along_of_forall hC _) hrun).2
  obtain ⟨s', hs', rfl⟩ := logged_eq_some.mp hstep
  have hkept := hx.1.counted hs'
  exact ⟨hkept, hx.2.step hhop hs' hkept ha⟩

theorem backlogsOpened_of_run {as : List (Action T)} (hrun : run (step cfg) initial as = some s) :
    BacklogsOpened s := by
  refine (invariant_of_run (I := fun s : State T ↦
    Kept (fun _ _ _ ↦ True) s.net.sockets s.objects ∧ BacklogsOpened s)
    (fun s a s' hs h ↦ ?_) ⟨kept_initial, fun l h hl ↦ absurd hl (by simp [initial])⟩ hrun).2
  have hkept := hs.1.counted h
  exact ⟨hkept, hs.2.step hs.1 hkept h⟩

/-- A socket in the backlog of one listener is nowhere else: its slot is that of no other handle of
a listener or a stream. -/
theorem index_ne_of_mem_backlog {P : Bool → TcpState → ℕ → Prop} {S : SocketSet T} {i j : ℕ}
    {l : StcpListener} {o : Object} {h : SocketHandle} {x : Holding} (hkept : Kept P S objects)
    (hi : objects[i]? = some (.listener l)) (hh : h ∈ l.listenHandles.getD [])
    (hj : objects[j]? = some o) (hx : x ∈ holdings o) (hij : i ≠ j) : h.index ≠ x.1.index := by
  intro he
  have hb : (h, .backlog (l.phase = .waiting)) ∈ holdings (.listener l) :=
    List.mem_append_left _ (List.mem_map_of_mem hh)
  obtain rfl : h = x.1 := hkept.eq_of_index_eq (mem_holdings hi hb) (mem_holdings hj hx) he
  have hone := hkept.alone _ _ (mem_holdings hi hb)
  -- the two values are two holders
  have hset := holders_flatMap_set hi .gone x.1
  have hj' : (objects.set i .gone)[j]? = some o := by rw [List.getElem?_set_ne hij, hj]
  have hpos₁ := holders_pos hb
  have hpos₂ := holders_pos (mem_holdings hj' hx)
  rw [show holdings .gone = [] from rfl, holders_nil] at hset
  dsimp only at hpos₁
  omega

/-- The handles of one backlog have different slots. -/
theorem nodup_index_backlog {P : Bool → TcpState → ℕ → Prop} {S : SocketSet T} {i : ℕ}
    {l : StcpListener} {hs : List SocketHandle} (hkept : Kept P S objects)
    (hi : objects[i]? = some (.listener l)) (hhs : l.listenHandles = some hs) :
    (hs.map SocketHandle.index).Nodup := by
  have hmem (h : SocketHandle) (hh : h ∈ hs) :
      (h, .backlog (l.phase = .waiting)) ∈ objects.flatMap holdings := by
    refine mem_holdings hi (List.mem_append_left _ (List.mem_map_of_mem ?_))
    rwa [hhs]
  have hnodup : hs.Nodup := by
    refine List.nodup_iff_count_le_one.mpr fun h ↦ ?_
    by_cases hh : h ∈ hs
    · have hone := hkept.alone _ _ (hmem h hh)
      have hset := holders_flatMap_set hi .gone h
      simp only [holdings, hhs, Option.getD_some, holders_append, holders_map, holders_nil] at hset
      omega
    · rw [List.count_eq_zero_of_not_mem hh]
      exact Nat.zero_le 1
  refine hnodup.map_on fun x hx y hy he ↦ ?_
  exact hkept.eq_of_index_eq (hmem x hx) (hmem y hy) he

/-! ## Calls of `accept` that take no socket -/

/-- A listener that has the given handles as long as no call of `accept` has taken one of them, or
has been dropped. -/
inductive Untouched (handles : Option (List SocketHandle)) : Object → Prop
  | gone : Untouched handles .gone
  | listener {l : StcpListener} (h : phaseHandles l.phase = [] → l.listenHandles = handles) :
      Untouched handles (.listener l)

variable {handles : Option (List SocketHandle)} {o o' : Object}

theorem Untouched.turns (h : Untouched handles o) (hturns : Turns a o o') :
    Untouched handles o' := by
  cases hturns with
  | gone o => exact .gone
  | listener hl =>
    obtain _ | h := h
    refine .listener fun hphase ↦ ?_
    cases hl with
    | keeps hhandles hport hphase' httl => exact hhandles.trans (h (hphase'.symm.trans hphase))
    | takes peer hhandles hfound hphase' => exact absurd hphase (by simp [phaseHandles])
  | connecting hk => cases h
  | connected hk => cases h

theorem Untouched.wakeAccept (h : Untouched handles o) : Untouched handles (wakeAccept o) := by
  cases h with
  | gone => exact .gone
  | listener h =>
    refine .listener fun hphase ↦ ?_
    split at hphase
    · rename_i hw
      rw [if_pos hw]
      exact h (by rw [hw]; rfl)
    · rename_i hw
      rw [if_neg hw]
      exact h hphase

/-- Nobody but the call itself touches the handles of its listener. -/
theorem Untouched.step {i : ℕ} (hi : s.objects[i]? = some o) (h : Untouched handles o)
    (hr : Rearranges cfg s a objects added) (ha : ∀ slot, a ≠ .acceptReplace i slot) :
    ∃ o', objects[i]? = some o' ∧ Untouched handles o' := by
  obtain ⟨hlt, -⟩ := List.getElem?_eq_some_iff.mp hi
  have hset {j : ℕ} {o' : Object} (hne : j ≠ i) : (s.objects.set j o')[i]? = some o := by
    rw [List.getElem?_set_ne hne, hi]
  have happend (x : Object) : (s.objects ++ [x])[i]? = some o := by
    rw [List.getElem?_append_left hlt, hi]
  cases hr with
  | same a => exact ⟨o, hi, h⟩
  | wakes events => exact ⟨_, by rw [List.getElem?_map, hi]; rfl, h.wakeAccept⟩
  | turns hj hturns =>
    rename_i j oj oj'
    by_cases hne : j = i
    · subst hne
      obtain rfl := Option.some.inj (hi.symm.trans hj)
      exact ⟨oj', List.getElem?_set_self hlt, h.turns hturns⟩
    · exact ⟨o, hset hne, h⟩
  | adds ha' hadds => exact ⟨o, happend _, h⟩
  | binds hresult huids => exact ⟨o, happend _, h⟩
  | bindsUdp => exact ⟨o, happend _, h⟩
  | accepts hj hphase hhandles hlistens =>
    rename_i j slot l x peer hs t
    have hne : j ≠ i := fun he ↦ ha slot (by rw [he])
    refine ⟨o, ?_, h⟩
    rw [List.getElem?_append_left (by rwa [List.length_set]), hset hne]
  | loses hj hhandles hfails hobjects =>
    rename_i j slot l hs
    have hne : j ≠ i := fun he ↦ ha slot (by rw [he])
    rcases hobjects with rfl | rfl
    · exact ⟨o, hi, h⟩
    · exact ⟨o, hset hne, h⟩
  | connects hj hconnects =>
    rename_i j slot draws system k o'
    have hne : j ≠ i := by
      rintro rfl
      obtain rfl := Option.some.inj (hi.symm.trans hj)
      exact absurd h nofun
    exact ⟨o, hset hne, h⟩

/-- **Calls that take nothing leave the handles alone.** While no call of `accept` on the listener
replaces a socket, the calls on it end with the handles that they began with. -/
theorem listenHandles_of_run {as : List (Action T)} {i : ℕ} {l l' : StcpListener}
    (hi : s.objects[i]? = some (.listener l)) (hno : ∀ slot, .acceptReplace i slot ∉ as)
    (hrun : run (step cfg) s as = some s') (hi' : s'.objects[i]? = some (.listener l'))
    (hidle : l'.phase = .idle) : l'.listenHandles = l.listenHandles := by
  let I (s : State T) : Prop := ∃ o, s.objects[i]? = some o ∧ Untouched l.listenHandles o
  let C (a : Action T) : Prop := ∀ slot, a ≠ .acceptReplace i slot
  have hC : ∀ a ∈ as, C a := fun a ha slot he ↦ hno slot (he ▸ ha)
  obtain ⟨o, ho, huntouched⟩ : I s' := by
    refine invariant_of_along (I := I) ?_ ⟨_, hi, .listener fun _ ↦ rfl⟩ (along_of_forall hC s) hrun
    rintro t a t' ⟨o, ho, huntouched⟩ ha hstep
    exact huntouched.step ho (rearranges_of_step hstep) ha
  obtain rfl := Option.some.inj (hi'.symm.trans ho)
  obtain _ | h := huntouched
  exact h (by rw [hidle]; rfl)

/-! ## The backlog -/

/-- The handles of the listener at place `i`: as many as the backlog has, unless a call of `accept`
is about to replace one; all with different slots, which no other listener and no stream has; and
all of sockets that have been told to listen on the port of the listener. -/
structure HasBacklog (cfg : Config) (s : State T) (i : ℕ) (l : StcpListener)
    (hs : List SocketHandle) : Prop where
  length : (∀ h peer, l.phase ≠ .taken h peer) → hs.length = cfg.socketBacklog
  nodup : (hs.map SocketHandle.index).Nodup
  apart : ∀ j l' hs', i ≠ j → s.objects[j]? = some (.listener l') → l'.listenHandles = some hs' →
    ∀ h ∈ hs, ∀ h' ∈ hs', h.index ≠ h'.index
  not_stream : ∀ h', .stream h' ∈ s.objects → ∀ h ∈ hs, h.index ≠ h'.index
  opened : ∀ h ∈ hs, ∃ t, s.net.sockets.getTcp h = some t ∧ Opened l.port t

theorem hasBacklog_of_run {as : List (Action T)}
    (hhop : ∀ t ttl, ttl ≠ some 0 → (T.setHopLimit t ttl).isSome)
    (httl : ∀ i ttl, .setTtl i ttl ∈ as → ttl.toUInt8 ≠ 0)
    (hrun : run (logged (step cfg) (accepted cfg)) (initial, []) as = some (s, log)) {i : ℕ}
    {l : StcpListener} {hs : List SocketHandle} (hi : s.objects[i]? = some (.listener l))
    (hhs : l.listenHandles = some hs) : HasBacklog cfg s i l hs := by
  have hrun' : run (step cfg) initial as = some s := exists_run_logged_iff.mp ⟨log, hrun⟩
  have hkept := (kept_of_run hrun').1
  have hl := (ticketed_of_run hhop httl hrun).filed l (List.mem_of_getElem? hi)
  have hmem (h : SocketHandle) (hh : h ∈ hs) : h ∈ l.listenHandles.getD [] := by rwa [hhs]
  refine ⟨?_, nodup_index_backlog hkept hi hhs, ?_, ?_, ?_⟩
  · intro hphase
    have hnone : phaseHandles l.phase = [] := by
      cases hp : l.phase with
      | taken h peer => exact absurd hp (hphase h peer)
      | _ => rfl
    rw [← hl.length hs hhs, hnone, List.append_nil]
  · intro j l' hs' hij hj hhs' h hh h' hh'
    have hx : (h', .backlog (l'.phase = .waiting)) ∈ holdings (.listener l') := by
      refine List.mem_append_left _ (List.mem_map_of_mem ?_)
      rwa [hhs']
    exact index_ne_of_mem_backlog hkept hi (hmem h hh) hj hx hij
  · intro h' hstream h hh
    obtain ⟨j, hj⟩ := List.mem_iff_getElem?.mp hstream
    have hij : i ≠ j := by
      rintro rfl
      exact absurd (hi.symm.trans hj) (by simp)
    exact index_ne_of_mem_backlog hkept hi (hmem h hh) hj List.mem_cons_self hij
  · intro h hh
    exact backlogsOpened_of_run hrun' l h (List.mem_of_getElem? hi) (hmem h hh)

/-- **Accepting conserves the backlog and returns each connection once.** In every state of a run,
every listener has its backlog, and no socket has been returned by two calls of `accept`. From
there, calls of `accept` on a listener that end without having replaced a socket, which is how they
end with `WouldBlock` or with a connection of the kernel, leave its handles as they were. -/
theorem accept_conserves {as : List (Action T)}
    (hhop : ∀ t ttl, ttl ≠ some 0 → (T.setHopLimit t ttl).isSome)
    (httl : ∀ i ttl, .setTtl i ttl ∈ as → ttl.toUInt8 ≠ 0)
    (hrun : run (logged (step cfg) (accepted cfg)) (initial, []) as = some (s, log)) :
    (∀ i l hs, s.objects[i]? = some (.listener l) → l.listenHandles = some hs →
      HasBacklog cfg s i l hs) ∧
    log.Nodup ∧
    ∀ i l as' s' l', s.objects[i]? = some (.listener l) → run (step cfg) s as' = some s' →
      (∀ slot, .acceptReplace i slot ∉ as') → s'.objects[i]? = some (.listener l') →
      l'.phase = .idle → l'.listenHandles = l.listenHandles := by
  refine ⟨fun i l hs hi hhs ↦ hasBacklog_of_run hhop httl hrun hi hhs, ?_, ?_⟩
  · refine List.nodup_iff_count_le_one.mpr fun u ↦ ?_
    have hcount := (ticketed_of_run hhop httl hrun).count_le_one u
    rw [List.count_append] at hcount
    omega
  · intro i l as' s' l' hi hrun' hno hi' hidle
    exact listenHandles_of_run hi hno hrun' hi' hidle

theorem accept_conserves_acceptAndClone : ∃ s log,
    run (logged (step .reference) (accepted .reference)) (initial, []) acceptAndClone =
      some (s, log) ∧
    log = [0] ∧ log.Nodup ∧ ∃ l, s.objects[0]? = some (.listener l) ∧
      l.listenHandles = some [⟨1, 1⟩] ∧ HasBacklog .reference s 0 l [⟨1, 1⟩] := by
  obtain ⟨x, hrun, hx⟩ := Option.map_eq_some_iff.mp (show (run (logged (step .reference)
    (accepted .reference)) (initial, []) acceptAndClone).map (fun x ↦ (x.2, x.1.objects[0]?)) =
      some ([0], some (.listener ⟨some [⟨1, 1⟩], 7, 8080, none, true, .idle⟩)) from rfl)
  obtain ⟨hlog, hi⟩ := Prod.mk.inj hx
  have hhop (t : Smoltcp.reference.Tcp) (ttl : Option UInt8) (h : ttl ≠ some 0) :
      (Smoltcp.reference.setHopLimit t ttl).isSome := by
    have hset : Smoltcp.reference.setHopLimit t ttl = some t := if_neg h
    rw [hset]
    rfl
  obtain ⟨hbacklog, hnodup, -⟩ :=
    accept_conserves hhop (by simp [acceptAndClone, bindListener]) hrun
  exact ⟨x.1, x.2, hrun, hlog, hnodup, _, hi, rfl, hbacklog 0 _ _ hi rfl⟩

end State

end UsnetSockets
