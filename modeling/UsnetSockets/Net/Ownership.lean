import Mathlib.Data.List.Perm.Basic
import UsnetSockets.Net.Ledger
import UsnetSockets.Net.Registry

/-!
# The owners of the sockets

Handles are held by streams, UDP sockets, the `listen_handles` of listeners, calls of `connect` that
wait for their connection, and calls of `accept` between taking a connection and returning it. Each
critical section keeps the reference counts right for these holders, moves handles between them
included. So no call on the `SocketSet` panics or reaches the socket of another connection, whatever
the order of the operations.

The same step lemma keeps a property `P` of the sockets in the backlogs, as long as it holds of
listening sockets and does not get lost when threads are woken up. The section that puts a call of
`accept` to sleep is the only one that needs more.
-/

namespace UsnetSockets

namespace State

open Transition SocketSet

variable {T : Smoltcp} {cfg : Config} {s s' : State T} {c : Change T} {a : Action T}
  {P : Bool → TcpState → ℕ → Prop}

/-- The handle that a call of `accept` has taken from the listener. -/
def phaseHandles : AcceptPhase → List SocketHandle
  | .taken h _ => [h]
  | _ => []

/-- The handles that a value holds. -/
def holdings : Object → List Holding
  | .listener l =>
    (l.listenHandles.getD []).map (·, .backlog (l.phase = .waiting)) ++
      (phaseHandles l.phase).map (·, .tcp)
  | .stream h => [(h, .tcp)]
  | .udp u => u.socketHandle.toList.map (·, .udp)
  | .connecting k => k.handle.toList.map (·, .tcp)
  | .gone => []

/-- The reference counts are right for everything that is held. -/
def Kept (P : Bool → TcpState → ℕ → Prop) (sockets : SocketSet T) (objects : List Object) : Prop :=
  sockets.Owned P (objects.flatMap holdings)

section Objects

variable {S : SocketSet T} {objects : List Object} {i : ℕ} {o o' : Object}

theorem mem_holdings (hi : objects[i]? = some o) {x : Holding} (hx : x ∈ holdings o) :
    x ∈ objects.flatMap holdings :=
  List.mem_flatMap.mpr ⟨o, List.mem_of_getElem? hi, hx⟩

theorem holders_flatMap_set (hi : objects[i]? = some o) (o' : Object) (h : SocketHandle) :
    holders ((objects.set i o').flatMap holdings) h + holders (holdings o) h =
      holders (objects.flatMap holdings) h + holders (holdings o') h := by
  simp only [holders, List.map_flatMap]
  exact count_flatMap_set (fun o ↦ (holdings o).map Prod.fst) hi o' h

/-- A value is replaced. What the replacement holds, and what can be released, comes from what the
value held or from what is new. -/
theorem owned_set (new rel : List Holding) (hi : objects[i]? = some o)
    (h : S.Owned P (new ++ objects.flatMap holdings))
    (hle : ∀ k, holders rel k + holders (holdings o') k ≤ holders new k + holders (holdings o) k)
    (hpass : ∀ k r', (k, r') ∈ rel ++ holdings o' →
      ∃ r, (k, r) ∈ new ++ holdings o ∧ Passes P S k r r') :
    S.Owned P (rel ++ (objects.set i o').flatMap holdings) := by
  have hold {x : Holding} (hx : x ∈ new ++ holdings o) : x ∈ new ++ objects.flatMap holdings :=
    List.mem_append.mpr ((List.mem_append.mp hx).imp_right (mem_holdings hi))
  refine h.mono ?_ ?_
  · intro k
    have hset := holders_flatMap_set hi o' k
    have hk := hle k
    rw [holders_append, holders_append]
    omega
  · intro k r' hk
    have hcases : (k, r') ∈ rel ++ holdings o' ∨ (k, r') ∈ objects.flatMap holdings := by
      rcases List.mem_append.mp hk with hk | hk
      · exact Or.inl (List.mem_append_left _ hk)
      · obtain ⟨x, hx, hxk⟩ := List.mem_flatMap.mp hk
        rcases List.mem_or_eq_of_mem_set hx with hx | rfl
        · exact Or.inr (List.mem_flatMap.mpr ⟨x, hx, hxk⟩)
        · exact Or.inl (List.mem_append_right _ hxk)
    rcases hcases with hk | hk
    · obtain ⟨r, hr, hp⟩ := hpass k r' hk
      exact ⟨r, hold hr, hp⟩
    · exact ⟨r', List.mem_append_right _ hk, .same r'⟩

/-- The common case: the replacement holds and releases a part of what there was. -/
theorem owned_set_of_subset (new rel : List Holding) (hi : objects[i]? = some o)
    (h : S.Owned P (new ++ objects.flatMap holdings))
    (hle : ∀ k, holders rel k + holders (holdings o') k ≤ holders new k + holders (holdings o) k)
    (hsub : rel ++ holdings o' ⊆ new ++ holdings o) :
    S.Owned P (rel ++ (objects.set i o').flatMap holdings) :=
  owned_set new rel hi h hle fun _ _ hk ↦ ⟨_, hsub hk, .same _⟩

/-- The replacement holds the same. -/
theorem Kept.set (hi : objects[i]? = some o) (h : Kept P S objects)
    (he : holdings o' = holdings o) : Kept P S (objects.set i o') := by
  rw [Kept, flatMap_set_of_eq hi he]
  exact h

theorem kept_append (h : S.Owned P (holdings o ++ objects.flatMap holdings)) :
    Kept P S (objects ++ [o]) := by
  refine h.of_subset ?_ ?_
  · intro k
    simp only [List.flatMap_append, List.flatMap_cons, List.flatMap_nil, List.append_nil,
      holders_append]
    omega
  · simp

end Objects

/-- The property of the sockets in the backlogs has to hold of sockets that listen, and must not
depend on a thread waiting for them. -/
structure Stable (P : Bool → TcpState → ℕ → Prop) : Prop where
  listen : ∀ b n, P b .listen n
  woken : ∀ st n, P true st n → P false st n

/-- A call of `accept` is put to sleep only if the sockets it is going to wait for have the
property that is asked of these. -/
def MayWait (P : Bool → TcpState → ℕ → Prop) (s : State T) (a : Action T) : Prop :=
  ∀ i l, a = .acceptWait i → s.objects[i]? = some (.listener l) →
    ∀ h ∈ l.listenHandles.getD [], s.net.sockets.HasAt P h true

/-- The counts are right after the change, and nothing has panicked. -/
def Keeps (P : Bool → TcpState → ℕ → Prop) (c : Change T) : Prop :=
  Kept P c.sockets c.objects ∧ c.fault = false

/-! ## Listeners -/

theorem owned_addBacklog (hP : Stable P) {socket : T.Tcp} (hl : T.state socket = .listen) :
    ∀ {slots : List ℕ} {S S' : SocketSet T} {hs : List SocketHandle} {os : List Holding},
    S.Owned P os → S.addBacklog socket slots = some (hs, S') →
    S'.Owned P (hs.map (·, .backlog false) ++ os)
  | [], S, S', hs, os, h, hadd => by
    rw [addBacklog, Option.some_inj, Prod.mk.injEq] at hadd
    obtain ⟨rfl, rfl⟩ := hadd
    exact h
  | slot :: slots, S, S', hs, os, h, hadd => by
    rw [addBacklog] at hadd
    split at hadd
    · exact absurd hadd (by simp)
    · rename_i k S₁ hslot
      split at hadd
      · exact absurd hadd (by simp)
      · rename_i hs' S₂ hrest
        rw [Option.some_inj, Prod.mk.injEq] at hadd
        obtain ⟨rfl, rfl⟩ := hadd
        have hadded := h.add (r := .backlog false) hslot rfl fun t b ht _ ↦ by
          obtain rfl := Sum.inl.inj ht
          rw [hl]
          exact hP.listen b _
        exact (owned_addBacklog hP hl hadded hrest).perm List.perm_middle

private theorem keeps_bind {addrs : List BindAddr} {slots : List ℕ} (hP : Stable P)
    (hs : Kept P s.net.sockets s.objects) (h : s.bind cfg addrs slots = some c) : Keeps P c := by
  obtain ⟨-, -, rfl⟩ | ⟨port, lo, -, -, rfl⟩ |
    ⟨port, lo, socket, hs', S, -, -, -, hlisten, hadd, rfl⟩ := bind_cases h
  · exact ⟨hs, rfl⟩
  · exact ⟨kept_append hs, rfl⟩
  · have hadded := owned_addBacklog hP (T.state_listen _ _ _ hlisten) hs hadd
    exact ⟨kept_append (by simpa [holdings, phaseHandles] using hadded), rfl⟩

/-- The destructors: the handles of the value are released. -/
private theorem kept_gone {i : ℕ} {o : Object} {hs : List SocketHandle} {r : Role}
    (h : Kept P s.net.sockets s.objects) (hi : s.objects[i]? = some o)
    (ho : holdings o = hs.map (·, r)) :
    ∃ S, releaseAll hs s.net.sockets = some S ∧ Kept P S (s.objects.set i .gone) := by
  refine Owned.releaseAll (r := r) (owned_set_of_subset [] (hs.map (·, r)) hi h ?_ ?_)
  · intro k
    rw [ho, show holdings .gone = [] from rfl]
    simp
  · rw [ho, show holdings .gone = [] from rfl]
    simp

private theorem keeps_dropListener {i : ℕ} (hs : Kept P s.net.sockets s.objects)
    (h : s.dropListener i = some c) : Keeps P c := by
  obtain ⟨l, hi, hidle, ⟨hnone, rfl⟩ | ⟨hs', hsome, hrel⟩⟩ := dropListener_cases h
  · exact ⟨hs.set hi (by simp [holdings, hnone, hidle, phaseHandles]), rfl⟩
  · have ho : holdings (.listener l) = hs'.map (·, .backlog false) := by
      simp [holdings, hsome, hidle, phaseHandles]
    obtain ⟨S, hS, hkept⟩ := kept_gone hs hi ho
    obtain ⟨hnone, -⟩ | ⟨S', hS', rfl⟩ := hrel
    · exact absurd (hnone.symm.trans hS) (by simp)
    · obtain rfl := Option.some.inj (hS.symm.trans hS')
      exact ⟨hkept, rfl⟩

/-- Setting the hop limit does not touch what matters of a socket. -/
theorem owned_setHopLimits {ttl : Option UInt8} : ∀ {hs : List SocketHandle} {S S' : SocketSet T}
    {os : List Holding} {p : Option Panic}, S.Owned P os →
    (∀ h ∈ hs, ∃ r, (h, r) ∈ os ∧ r.kind = .tcp) → setHopLimits ttl hs S = (S', p) →
    S'.Owned P os ∧ (p matches some .socketSet) = false
  | [], S, S', os, p, h, hmem, hset => by
    rw [setHopLimits, Prod.mk.injEq] at hset
    obtain ⟨rfl, rfl⟩ := hset
    exact ⟨h, rfl⟩
  | k :: hs, S, S', os, p, h, hmem, hset => by
    rw [List.forall_mem_cons] at hmem
    obtain ⟨⟨r, hr, hkind⟩, hmem⟩ := hmem
    obtain ⟨t, ht⟩ := h.getTcp_isSome hr hkind
    rw [setHopLimits, ht] at hset
    dsimp only at hset
    split at hset
    · rw [Prod.mk.injEq] at hset
      obtain ⟨rfl, rfl⟩ := hset
      exact ⟨h, rfl⟩
    · rename_i t' ht'
      refine owned_setHopLimits (h.setTcp ht fun _ b _ _ hold ↦ ?_) hmem hset
      rwa [T.state_setHopLimit _ _ _ ht', T.rxLen_setHopLimit _ _ _ ht']

private theorem keeps_setTtl {i : ℕ} {ttl : UInt32} (hs : Kept P s.net.sockets s.objects)
    (h : s.setTtl i ttl = some c) : Keeps P c := by
  obtain ⟨l, S, p, hi, -, hset, rfl⟩ := setTtl_cases h
  have hmem (k : SocketHandle) (hk : k ∈ l.listenHandles.getD []) :
      (k, .backlog (l.phase = .waiting)) ∈ s.objects.flatMap holdings :=
    mem_holdings hi (List.mem_append_left _ (List.mem_map_of_mem hk))
  obtain ⟨hS, hp⟩ := owned_setHopLimits hs (fun k hk ↦ ⟨_, hmem k hk, rfl⟩) hset
  exact ⟨Kept.set hi hS rfl, hp⟩

private theorem keeps_setNonblocking {i : ℕ} {nonblocking : Bool}
    (hs : Kept P s.net.sockets s.objects) (h : s.setNonblocking i nonblocking = some c) :
    Keeps P c := by
  obtain ⟨l, hi, -, rfl⟩ := setNonblocking_cases h
  exact ⟨hs.set hi rfl, rfl⟩

/-! ## `accept` -/

private theorem keeps_accept {i : ℕ} (hs : Kept P s.net.sockets s.objects)
    (h : s.accept i = some c) : Keeps P c := by
  obtain ⟨l, hi, hidle, ⟨-, rfl⟩ | ⟨_, -, rfl⟩⟩ := accept_cases h
  · exact ⟨hs, rfl⟩
  · exact ⟨hs.set hi (by simp [holdings, hidle, phaseHandles]), rfl⟩

private theorem keeps_acceptWait {i : ℕ} (hs : Kept P s.net.sockets s.objects)
    (hw : MayWait P s (.acceptWait i)) (h : s.acceptWait i = some c) : Keeps P c := by
  obtain ⟨l, hi, hlocked, -, rfl⟩ := acceptWait_cases h
  refine ⟨owned_set [] [] hi hs ?_ ?_, rfl⟩
  · intro k
    simp only [holdings, hlocked, phaseHandles, List.map_nil, List.append_nil]
    rw [holders_map, holders_map]
  · intro k r hk
    simp only [holdings, phaseHandles, List.map_nil, List.append_nil, List.nil_append,
      List.mem_map, decide_true] at hk
    obtain ⟨x, hx, he⟩ := hk
    obtain ⟨rfl, rfl⟩ := Prod.mk.inj he
    exact ⟨.backlog false, by simp [holdings, hlocked, hx], .retag fun _ ↦ hw i l rfl hi x hx⟩

/-- The scan finds a handle of the list, with a socket that can be accepted. -/
theorem scanHandles_eq_found {S : SocketSet T} {hs : List SocketHandle} {k : ℕ} {h : SocketHandle}
    {t : T.Tcp} (hscan : scanHandles S hs = some (some (k, h, t))) :
    hs[k]? = some h ∧ S.getTcp h = some t ∧ T.acceptable t := by
  induction hs generalizing k with
  | nil => exact absurd hscan (by simp [scanHandles])
  | cons x hs ih =>
    rw [scanHandles] at hscan
    split at hscan
    · exact absurd hscan (by simp)
    · rename_i t' ht'
      split at hscan
      · rename_i hacc
        simp only [Option.some_inj, Prod.mk.injEq] at hscan
        obtain ⟨rfl, rfl, rfl⟩ := hscan
        exact ⟨rfl, ht', hacc⟩
      · split at hscan
        · rename_i k' found hrest
          simp only [Option.some_inj, Prod.mk.injEq] at hscan
          obtain ⟨rfl, rfl⟩ := hscan
          simpa using ih hrest
        · rename_i hres
          exact absurd hscan (hres k (h, t))

/-- The scan panics only on a handle without a socket. -/
theorem scanHandles_isSome {S : SocketSet T} {hs : List SocketHandle}
    (h : ∀ k ∈ hs, ∃ t, S.getTcp k = some t) : ∃ res, scanHandles S hs = some res := by
  induction hs with
  | nil => exact ⟨none, rfl⟩
  | cons x hs ih =>
    rw [List.forall_mem_cons] at h
    obtain ⟨⟨t, ht⟩, hrest⟩ := h
    obtain ⟨res, hres⟩ := ih hrest
    rw [scanHandles, ht]
    dsimp only
    split
    · exact ⟨_, rfl⟩
    · rw [hres]
      rcases res with _ | ⟨k, found⟩ <;> exact ⟨_, rfl⟩

private theorem keeps_acceptCheck {i : ℕ} {lo : Bool} (hs : Kept P s.net.sockets s.objects)
    (h : s.acceptCheck i lo = some c) : Keeps P c := by
  obtain ⟨l, hs', hi, hsome, hphase, hc⟩ := acceptCheck_cases h
  have hold : holdings (.listener l) = hs'.map (·, .backlog false) := by
    rcases hphase with hphase | ⟨hphase, -⟩ <;> simp [holdings, hsome, hphase, phaseHandles]
  obtain ⟨-, rfl⟩ | ⟨-, hnone, -⟩ | ⟨-, -, rfl⟩ | ⟨k, x, t, -, hfound, rfl⟩ := hc
  · exact ⟨hs.set hi (by rw [hold]; simp [holdings, hsome, phaseHandles]), rfl⟩
  · obtain ⟨res, hres⟩ := scanHandles_isSome fun k hk ↦ Owned.getTcp_isSome hs
      (mem_holdings hi (hold ▸ List.mem_map_of_mem hk)) rfl
    exact absurd (hnone.symm.trans hres) (by simp)
  · refine ⟨hs.set hi ?_, rfl⟩
    rw [hold]
    cases l.nonblocking <;> simp [holdings, hsome, phaseHandles]
  · -- the handle moves from the backlog to the call
    obtain ⟨hk, -⟩ := scanHandles_eq_found hfound
    refine ⟨owned_set [] [] hi hs ?_ ?_, rfl⟩
    · intro y
      obtain ⟨hlt, rfl⟩ := List.getElem?_eq_some_iff.mp hk
      have hcount := (List.getElem_cons_eraseIdx_perm hlt).count_eq y
      rw [hold, List.count_cons] at *
      simp only [holdings, phaseHandles, Option.getD_some, holders_append, holders_map,
        holders_nil, List.count_singleton]
      omega
    · intro y r hy
      have hy' : y ∈ hs'.eraseIdx k ∧ Role.backlog false = r ∨ y = x ∧ r = .tcp := by
        simpa [holdings, phaseHandles] using hy
      rw [hold]
      rcases hy' with ⟨hy', rfl⟩ | ⟨rfl, rfl⟩
      · exact ⟨_, List.mem_map_of_mem (List.mem_of_mem_eraseIdx hy'), .same _⟩
      · exact ⟨.backlog false, List.mem_map_of_mem (List.mem_of_getElem? hk), .taken false⟩

private theorem keeps_acceptReplace {i slot : ℕ} (hP : Stable P)
    (hs : Kept P s.net.sockets s.objects) (h : s.acceptReplace cfg i slot = some c) :
    Keeps P c := by
  obtain ⟨l, x, peer, hs', hi, hphase, hsome, hc⟩ := acceptReplace_cases h
  have hold : holdings (.listener l) = hs'.map (·, .backlog false) ++ [(x, .tcp)] := by
    simp [holdings, hsome, hphase, phaseHandles]
  obtain ⟨t, x', S, ht, hadd, rfl⟩ | ⟨x', S, -, hadd, hrel⟩ := hc
  · -- the new socket joins the backlog, and the one taken becomes a stream
    obtain ⟨t₀, -, hlisten⟩ := Option.bind_eq_some_iff.mp ht
    have hadded := hs.add (r := .backlog false) hadd rfl fun t' b ht' _ ↦ by
      obtain rfl := Sum.inl.inj ht'
      rw [T.state_listen _ _ _ hlisten]
      exact hP.listen b _
    refine ⟨kept_append (owned_set_of_subset [(x', .backlog false)] (holdings (.stream x)) hi
      hadded (fun y ↦ ?_) ?_), rfl⟩
    · rw [hold]
      simp only [holdings, phaseHandles, Option.getD_some, List.map_nil, List.append_nil,
        holders_append, holders_map, holders_singleton, List.count_append]
      omega
    · rw [hold]
      simp [holdings, phaseHandles]
  · -- the new socket has no owner, and the one taken is released
    have hadded := hs.add (r := .tcp) hadd rfl (by simp)
    have howned : S.Owned P ([x].map (·, .tcp) ++
        (s.objects.set i (.listener { l with phase := .idle })).flatMap holdings) := by
      refine owned_set_of_subset [(x', .tcp)] [(x, .tcp)] hi hadded ?_ ?_
      · intro y
        rw [hold]
        simp only [holdings, hsome, phaseHandles, Option.getD_some, List.map_nil,
          List.append_nil, holders_append, holders_map, holders_singleton]
        omega
      · rw [hold]
        simp [holdings, hsome, phaseHandles]
    obtain ⟨S₁, hS₁, hkept⟩ := Owned.releaseAll howned
    obtain ⟨hnone, -⟩ | ⟨S₂, hS₂, rfl⟩ := hrel
    · exact absurd (hnone.symm.trans hS₁) (by simp)
    · obtain rfl := Option.some.inj (hS₁.symm.trans hS₂)
      exact ⟨hkept, rfl⟩

/-! ## `connect` -/

/-- A call of `connect` that has the handle in its hands may drop it. -/
private theorem keeps_connectFailed {S : SocketSet T} {i : ℕ} {k : Connecting} {x : SocketHandle}
    (hi : i < s.objects.length)
    (hs : S.Owned P ((x, .tcp) :: (s.objects.set i .gone).flatMap holdings))
    (h : s.connectFailed S i k x = c) : Keeps P c := by
  obtain ⟨S₁, hS₁, hkept⟩ :=
    Owned.releaseAll (show S.Owned P ([x].map (·, .tcp) ++ _) from hs)
  obtain ⟨hnone, -⟩ | ⟨S₂, hS₂, rfl⟩ := connectFailed_cases h
  · exact absurd (hnone.symm.trans hS₁) (by simp)
  · obtain rfl := Option.some.inj (hS₁.symm.trans hS₂)
    refine ⟨?_, rfl⟩
    dsimp only
    rw [← List.set_set Object.gone]
    exact Kept.set (List.getElem?_set_self hi) hkept rfl

private theorem keeps_connectCheck {S : SocketSet T} {i : ℕ} {k : Connecting} {x : SocketHandle}
    (hi : i < s.objects.length)
    (hs : S.Owned P ((x, .tcp) :: (s.objects.set i .gone).flatMap holdings))
    (h : s.connectCheck S i k x = c) : Keeps P c := by
  have hset (o : Object) (ho : holdings o = [(x, .tcp)]) : Kept P S (s.objects.set i o) := by
    rw [← List.set_set Object.gone]
    exact owned_set_of_subset [(x, .tcp)] [] (List.getElem?_set_self hi) hs
      (by simp [ho]) (by simp [ho])
  obtain ⟨hnone, -⟩ | ⟨t, -, -, h⟩ | ⟨t, -, -, -, rfl⟩ | ⟨t, -, -, -, rfl⟩ := connectCheck_cases h
  · obtain ⟨t, ht⟩ := hs.getTcp_isSome List.mem_cons_self rfl
    exact absurd (hnone.symm.trans ht) (by simp)
  · exact keeps_connectFailed hi hs h
  · exact ⟨hset _ rfl, rfl⟩
  · exact ⟨hset _ rfl, rfl⟩

/-- A call of `connect` takes the handle of its value into its hands. -/
private theorem owned_connecting {i : ℕ} {k : Connecting} {h : SocketHandle}
    (hs : Kept P s.net.sockets s.objects) (hi : s.objects[i]? = some (.connecting k))
    (hk : k.handle = some h) :
    s.net.sockets.Owned P ((h, .tcp) :: (s.objects.set i .gone).flatMap holdings) :=
  owned_set_of_subset [] [(h, .tcp)] hi hs (by simp [holdings, hk]) (by simp [holdings, hk])

private theorem keeps_connectNext {i slot : ℕ} {draws : List PortDraw}
    {system : Except IoError Unit} (hs : Kept P s.net.sockets s.objects)
    (h : s.connectNext cfg i draws slot system = some c) : Keeps P c := by
  obtain ⟨k, hi, hnone, hc⟩ := connectNext_cases h
  have hold : holdings (.connecting k) = [] := by simp [holdings, hnone]
  have hset {o : Object} (ho : holdings o = []) : Kept P s.net.sockets (s.objects.set i o) :=
    hs.set hi (ho.trans hold.symm)
  -- a new socket whose handle is not in any value yet, or never will be
  have hnew {S : SocketSet T} {t : T.Tcp} {x : SocketHandle}
      (hadd : s.net.sockets.add slot (.inl t) = some (x, S)) :
      S.Owned P ((x, .tcp) :: (s.objects.set i .gone).flatMap holdings) :=
    owned_set_of_subset [(x, .tcp)] [(x, .tcp)] hi (hs.add (r := .tcp) hadd rfl (by simp))
      (by simp [hold, show holdings .gone = [] from rfl])
      (by simp [hold, show holdings .gone = [] from rfl])
  have hlost {S : SocketSet T} {t : T.Tcp} {x : SocketHandle}
      (hadd : s.net.sockets.add slot (.inl t) = some (x, S)) : Kept P S (s.objects.set i .gone) :=
    (hnew hadd).of_subset (fun _ ↦ List.count_le_count_cons) (List.subset_cons_self ..)
  obtain ⟨-, rfl⟩ | ⟨addr, addrs, -, hc⟩ := hc
  · exact ⟨hset rfl, rfl⟩
  obtain ⟨-, -, rfl⟩ | ⟨-, e, -, rfl⟩ | ⟨-, -, rfl⟩ | ⟨-, -, _, x, S, -, -, hadd, rfl⟩ |
    ⟨-, -, _, t, x, S, -, -, hadd, hc⟩ := hc
  · exact ⟨hset rfl, rfl⟩
  · exact ⟨hset (by simp [holdings, hnone]), rfl⟩
  · exact ⟨hset (by simp [holdings, hnone]), rfl⟩
  · exact ⟨hlost hadd, rfl⟩
  · obtain ⟨-, rfl⟩ | ⟨-, rfl⟩ := hc
    · exact ⟨hlost hadd, rfl⟩
    · have hcheck : Keeps P (s.connectCheck S i { k with addrs := addrs } x) :=
        keeps_connectCheck (List.getElem?_eq_some_iff.mp hi).1 (hnew hadd) rfl
      exact hcheck

private theorem keeps_connectWake {i : ℕ} (hs : Kept P s.net.sockets s.objects)
    (h : s.connectWake i = some c) : Keeps P c := by
  obtain ⟨k, x, hi, hx, h⟩ := connectWake_cases h
  exact keeps_connectCheck (List.getElem?_eq_some_iff.mp hi).1 (owned_connecting hs hi hx) h

private theorem keeps_connectTimeout {i : ℕ} (hs : Kept P s.net.sockets s.objects)
    (h : s.connectTimeout i = some c) : Keeps P c := by
  obtain ⟨k, x, hi, hx, -, hc⟩ := connectTimeout_cases h
  have hown := owned_connecting hs hi hx
  obtain ⟨hnone, -⟩ | ⟨t, ht, h⟩ := hc
  · obtain ⟨t, ht⟩ := hown.getTcp_isSome List.mem_cons_self rfl
    exact absurd (hnone.symm.trans ht) (by simp)
  · exact keeps_connectFailed (List.getElem?_eq_some_iff.mp hi).1
      (hown.setTcp_of_mem List.mem_cons_self ht) h

/-! ## Streams -/

/-- A stream finds its socket, and may change it. -/
private theorem stream_socket {i : ℕ} {x : SocketHandle} (hs : Kept P s.net.sockets s.objects)
    (hi : s.objects[i]? = some (.stream x)) : s.net.sockets.getTcp x ≠ none ∧
      ∀ t t', s.net.sockets.getTcp x = some t →
        Kept P (s.net.sockets.setSocket x (.inl t')) s.objects := by
  have hmem := mem_holdings hi List.mem_cons_self
  obtain ⟨t, ht⟩ := Owned.getTcp_isSome hs hmem rfl
  exact ⟨by simp [ht], fun _ _ ht ↦ Owned.setTcp_of_mem hs hmem ht⟩

private theorem keeps_writeWith {i : ℕ} {send : T.Tcp → T.Tcp}
    (hs : Kept P s.net.sockets s.objects) (h : s.writeWith i send = some c) : Keeps P c := by
  obtain ⟨x, hi, hc⟩ := writeWith_cases h
  obtain ⟨hfound, hset⟩ := stream_socket hs hi
  obtain ⟨hnone, -⟩ | ⟨t, ht, ⟨-, rfl⟩ | ⟨-, rfl⟩⟩ := hc
  · exact absurd hnone hfound
  · exact ⟨hset t _ ht, rfl⟩
  · exact ⟨hs, rfl⟩

private theorem keeps_readWith {i : ℕ} {recv : T.Tcp → T.Tcp}
    (hs : Kept P s.net.sockets s.objects) (h : s.readWith i recv = some c) : Keeps P c := by
  obtain ⟨x, hi, hc⟩ := readWith_cases h
  obtain ⟨hfound, hset⟩ := stream_socket hs hi
  obtain ⟨hnone, -⟩ | ⟨t, ht, ⟨-, rfl⟩ | ⟨-, rfl⟩⟩ := hc
  · exact absurd hnone hfound
  · exact ⟨hset t _ ht, rfl⟩
  · exact ⟨hs, rfl⟩

private theorem keeps_shutdown {i : ℕ} {how : Shutdown} (hs : Kept P s.net.sockets s.objects)
    (h : s.shutdown i how = some c) : Keeps P c := by
  obtain ⟨x, hi, hc⟩ := shutdown_cases h
  obtain ⟨hfound, hset⟩ := stream_socket hs hi
  obtain ⟨hnone, -⟩ | ⟨t, ht, ⟨-, rfl⟩ | ⟨-, rfl⟩ | ⟨-, rfl⟩⟩ := hc
  · exact absurd hnone hfound
  · exact ⟨hs, rfl⟩
  · exact ⟨hset t _ ht, rfl⟩
  · exact ⟨hset t _ ht, rfl⟩

private theorem keeps_tryClone {i : ℕ} (hs : Kept P s.net.sockets s.objects)
    (h : s.tryClone i = some c) : Keeps P c := by
  obtain ⟨x, hi, hc⟩ := tryClone_cases h
  obtain ⟨S, hS, howned⟩ := Owned.retain hs (mem_holdings hi List.mem_cons_self) (by simp)
  obtain ⟨hnone, -⟩ | ⟨S', hS', rfl⟩ := hc
  · exact absurd (hnone.symm.trans hS) (by simp)
  · obtain rfl := Option.some.inj (hS.symm.trans hS')
    exact ⟨kept_append howned, rfl⟩

private theorem keeps_dropStream {i : ℕ} (hs : Kept P s.net.sockets s.objects)
    (h : s.dropStream i = some c) : Keeps P c := by
  obtain ⟨x, hi, hc⟩ := dropStream_cases h
  obtain ⟨S, hS, hkept⟩ := kept_gone hs hi (show holdings (.stream x) = [x].map _ from rfl)
  obtain ⟨hnone, -⟩ | ⟨S', hS', rfl⟩ := hc
  · exact absurd (hnone.symm.trans hS) (by simp)
  · obtain rfl := Option.some.inj (hS.symm.trans hS')
    exact ⟨hkept, rfl⟩

/-! ## UDP sockets -/

private theorem keeps_bindUdp {addrs : List BindAddr} {slot : ℕ}
    (hs : Kept P s.net.sockets s.objects) (h : s.bindUdp cfg addrs slot = some c) : Keeps P c := by
  obtain rfl | ⟨port, lo, -, -, rfl⟩ | ⟨port, lo, _, x, S, -, -, -, hadd, rfl⟩ := bindUdp_cases h
  · exact ⟨hs, rfl⟩
  · exact ⟨kept_append hs, rfl⟩
  · exact ⟨kept_append (hs.add (r := .udp) hadd rfl (by simp)), rfl⟩

private theorem keeps_tryCloneUdp {i : ℕ} {dup : Except IoError Fd}
    (hs : Kept P s.net.sockets s.objects) (h : s.tryCloneUdp cfg i dup = some c) : Keeps P c := by
  obtain ⟨u, hi, hc⟩ := tryCloneUdp_cases h
  -- the counts are right with the clone, whether or not the clone is made
  have hclone : ∃ S, retainSome s.net.sockets u.socketHandle = some S ∧
      S.Owned P (u.socketHandle.toList.map (·, .udp) ++ s.objects.flatMap holdings) := by
    cases hu : u.socketHandle with
    | none => exact ⟨s.net.sockets, rfl, hs⟩
    | some x =>
      exact Owned.retain hs (o := (x, .udp)) (mem_holdings hi (by simp [holdings, hu])) (by simp)
  obtain ⟨S, hS, howned⟩ := hclone
  obtain ⟨hnone, -⟩ | ⟨S', hS', hc⟩ := hc
  · exact absurd (hnone.symm.trans hS) (by simp)
  · obtain rfl := Option.some.inj (hS.symm.trans hS')
    obtain ⟨e, -, rfl⟩ | ⟨lo, -, -, rfl⟩ := hc
    · refine ⟨howned.of_subset (fun k ↦ ?_) (List.subset_append_right ..), rfl⟩
      rw [holders_append]
      exact Nat.le_add_left _ _
    · exact ⟨kept_append howned, rfl⟩

private theorem keeps_dropUdp {i : ℕ} (hs : Kept P s.net.sockets s.objects)
    (h : s.dropUdp i = some c) : Keeps P c := by
  obtain ⟨u, hi, hc⟩ := dropUdp_cases h
  obtain ⟨S, hS, hkept⟩ := kept_gone hs hi (show holdings (.udp u) = _ from rfl)
  obtain ⟨hnone, -⟩ | ⟨S', hS', rfl⟩ := hc
  · exact absurd (hnone.symm.trans hS) (by simp)
  · obtain rfl := Option.some.inj (hS.symm.trans hS')
    exact ⟨hkept, rfl⟩

/-- A UDP socket finds its socket, and may change it. -/
private theorem udp_socket {i : ℕ} {u : UdpSocket} {x : SocketHandle}
    (hs : Kept P s.net.sockets s.objects) (hi : s.objects[i]? = some (.udp u))
    (hu : u.socketHandle = some x) : s.net.sockets.getUdp x ≠ none ∧
      ∀ t t', s.net.sockets.getUdp x = some t →
        Kept P (s.net.sockets.setSocket x (.inr t')) s.objects := by
  have hmem : (x, .udp) ∈ holdings (.udp u) := by simp [holdings, hu]
  obtain ⟨t, ht⟩ := Owned.getUdp_isSome hs (mem_holdings hi hmem) rfl
  exact ⟨by simp [ht], fun _ _ ht ↦ Owned.setUdp hs ht⟩

private theorem keeps_sendTo {i : ℕ} {buf : List UInt8} {addr : SocketAddr}
    (hs : Kept P s.net.sockets s.objects) (h : s.sendTo i buf addr = some c) : Keeps P c := by
  obtain ⟨u, hi, ⟨-, rfl⟩ | ⟨x, hx, -, hc⟩⟩ := sendTo_cases h
  · exact ⟨hs, rfl⟩
  obtain ⟨hfound, hset⟩ := udp_socket hs hi hx
  obtain ⟨hnone, -⟩ | ⟨t, ht, ⟨-, rfl⟩ | ⟨-, rfl⟩⟩ := hc
  · exact absurd hnone hfound
  · exact ⟨hset t _ ht, rfl⟩
  · exact ⟨hs, rfl⟩

private theorem keeps_recvFrom {i len : ℕ} (hs : Kept P s.net.sockets s.objects)
    (h : s.recvFrom i len = some c) : Keeps P c := by
  obtain ⟨u, hi, ⟨-, rfl⟩ | ⟨x, hx, hc⟩⟩ := recvFrom_cases h
  · exact ⟨hs, rfl⟩
  obtain ⟨hfound, hset⟩ := udp_socket hs hi hx
  obtain ⟨hnone, -⟩ | ⟨t, ht, ⟨-, rfl⟩ | ⟨-, rfl⟩⟩ := hc
  · exact absurd hnone hfound
  · exact ⟨hset t _ ht, rfl⟩
  · exact ⟨hs, rfl⟩

/-! ## Whole runs -/

/-- **Every critical section of the application keeps the counts.** -/
theorem keeps_of_change (hP : Stable P) (hs : Kept P s.net.sockets s.objects) (hw : MayWait P s a)
    (h : s.change cfg a = some c) : Keeps P c := by
  cases a with
  | bgFirst now => exact absurd h (by simp [change])
  | bgPoll ok => exact absurd h (by simp [change])
  | bgSecond events => exact absurd h (by simp [change])
  | bind addrs slots => exact keeps_bind hP hs h
  | bindUdp addrs slot => exact keeps_bindUdp hs h
  | dropListener i => exact keeps_dropListener hs h
  | dropStream i => exact keeps_dropStream hs h
  | dropUdp i => exact keeps_dropUdp hs h
  | setTtl i ttl => exact keeps_setTtl hs h
  | setNonblocking i nonblocking => exact keeps_setNonblocking hs h
  | accept i => exact keeps_accept hs h
  | acceptWait i => exact keeps_acceptWait hs hw h
  | acceptCheck i lo => exact keeps_acceptCheck hs h
  | acceptReplace i slot => exact keeps_acceptReplace hP hs h
  | connect addrs hasTimeout =>
    cases h
    exact ⟨kept_append hs, rfl⟩
  | connectNext i draws slot system => exact keeps_connectNext hs h
  | connectWake i => exact keeps_connectWake hs h
  | connectTimeout i => exact keeps_connectTimeout hs h
  | write i buf => exact keeps_writeWith hs h
  | writeNoCopy i f => exact keeps_writeWith hs h
  | read i len => exact keeps_readWith hs h
  | readNoCopy i f => exact keeps_readWith hs h
  | shutdown i how => exact keeps_shutdown hs h
  | tryClone i => exact keeps_tryClone hs h
  | tryCloneUdp i dup => exact keeps_tryCloneUdp hs h
  | sendTo i buf addr => exact keeps_sendTo hs h
  | recvFrom i len => exact keeps_recvFrom hs h

theorem map_fst_holdings_wakeAccept (o : Object) :
    (holdings (wakeAccept o)).map Prod.fst = (holdings o).map Prod.fst := by
  cases o with
  | listener l =>
    simp only [wakeAccept]
    split
    · rename_i hw
      simp [holdings, hw, phaseHandles, Function.comp_def]
    · rfl
  | _ => rfl

/-- A handle that is held after the threads have been woken up was held before. -/
theorem passes_wakeAccept (hP : Stable P) {S : SocketSet T} {o : Object} {k : SocketHandle}
    {r' : Role} (hk : (k, r') ∈ holdings (wakeAccept o)) :
    ∃ r, (k, r) ∈ holdings o ∧ Passes P S k r r' := by
  cases o with
  | listener l =>
    simp only [wakeAccept] at hk
    split at hk
    · rename_i hw
      obtain ⟨hmem, rfl⟩ : k ∈ l.listenHandles.getD [] ∧ Role.backlog false = r' := by
        simpa [holdings, phaseHandles] using hk
      exact ⟨.backlog true, by simp [holdings, hw, hmem], .retag fun h t ht ↦ hP.woken _ _ (h t ht)⟩
    · exact ⟨r', hk, .same r'⟩
  | _ => exact ⟨r', hk, .same r'⟩

theorem Kept.wakeAccept (hP : Stable P) {S : SocketSet T} {objects : List Object}
    (h : Kept P S objects) : Kept P S (objects.map wakeAccept) := by
  refine h.mono ?_ ?_
  · intro k
    simp only [holders, List.map_flatMap, List.flatMap_map, map_fst_holdings_wakeAccept, le_refl]
  · intro k r' hk
    rw [List.flatMap_map] at hk
    obtain ⟨o, ho, hk⟩ := List.mem_flatMap.mp hk
    obtain ⟨r, hr, hp⟩ := passes_wakeAccept hP hk
    exact ⟨r, List.mem_flatMap.mpr ⟨o, ho, hr⟩, hp⟩

/-- The events of one poll of the interface keep the property of the sockets in the backlogs. -/
def PollKeeps (P : Bool → TcpState → ℕ → Prop) (s : State T) (a : Action T) : Prop :=
  ∀ events, a = .bgSecond events →
    EventsKeep P ((s.objects.map wakeAccept).flatMap holdings) s.net.sockets events

/-- **Every step keeps the counts**, and the property of the sockets in the backlogs with them. -/
theorem Kept.step (hP : Stable P) (hs : Kept P s.net.sockets s.objects) (hw : MayWait P s a)
    (he : PollKeeps P s a) (h : s.step cfg a = some s') :
    Kept P s'.net.sockets s'.objects ∧ s'.fault = s.fault := by
  rcases step_cases h with ⟨now, -, h⟩ | ⟨ok, -, h⟩ | ⟨events, rfl, h⟩ | ⟨c, hc, rfl⟩
  · obtain ⟨-, ⟨-, rfl⟩ | ⟨fdsExtra, -, rfl⟩⟩ := bgFirst_cases h <;> exact ⟨hs, rfl⟩
  · obtain ⟨-, rfl⟩ := bgPoll_cases h
    exact ⟨hs, rfl⟩
  · obtain ⟨-, rfl⟩ := bgSecond_cases h
    exact ⟨Owned.process (hs.wakeAccept hP) (he events rfl), rfl⟩
  · obtain ⟨hkept, hfault⟩ := keeps_of_change hP hs hw hc
    rw [sockets_apply]
    exact ⟨hkept, by simp [apply, hfault]⟩

/-- Nothing need be asked of the sockets in the backlogs. -/
theorem Kept.counted (hs : Kept (fun _ _ _ ↦ True) s.net.sockets s.objects)
    (h : s.step cfg a = some s') : Kept (fun _ _ _ ↦ True) s'.net.sockets s'.objects :=
  (hs.step ⟨fun _ _ ↦ trivial, fun _ _ _ ↦ trivial⟩ (fun _ _ _ _ _ _ _ _ ↦ trivial)
    (fun _ _ ↦ .of_forall (fun _ _ _ _ _ ↦ trivial) _ _) h).1

theorem kept_initial : Kept P (initial : State T).net.sockets (initial : State T).objects :=
  Owned.empty

theorem kept_of_run {as : List (Action T)} (hrun : run (step cfg) initial as = some s) :
    Kept (fun _ _ _ ↦ True) s.net.sockets s.objects ∧ s.fault = false := by
  refine invariant_of_run
    (I := fun s : State T ↦ Kept (fun _ _ _ ↦ True) s.net.sockets s.objects ∧ s.fault = false)
    (fun s a s' hs h ↦ ?_) ⟨kept_initial, rfl⟩ hrun
  obtain ⟨hkept, hfault⟩ := hs.1.step ⟨fun _ _ ↦ trivial, fun _ _ _ ↦ trivial⟩
    (fun _ _ _ _ _ _ _ _ ↦ trivial)
    (fun _ _ ↦ .of_forall (fun _ _ _ _ _ ↦ trivial) _ _) h
  exact ⟨hkept, hfault.trans hs.2⟩

/-- **Handles and their owners.** In every state of every run, no call on the `SocketSet` has
panicked, and a handle that a value of the application holds refers to the socket that it was made
for, which is counted at least as often as it is held; so `get`, `retain` and `release` do not
panic on it. -/
theorem handles_owned {as : List (Action T)} (hrun : run (step cfg) initial as = some s) :
    s.fault = false ∧ ∀ h r, (h, r) ∈ s.objects.flatMap holdings →
      s.net.sockets.Backs (h, r) (holders (s.objects.flatMap holdings) h) ∧
      (r.kind = .tcp → (s.net.sockets.getTcp h).isSome) ∧
      (r.kind = .udp → (s.net.sockets.getUdp h).isSome) ∧
      (s.net.sockets.retain h).isSome ∧ (s.net.sockets.release h).isSome := by
  obtain ⟨hkept, hfault⟩ := kept_of_run hrun
  refine ⟨hfault, fun h r ho ↦ ?_⟩
  have hbacks := hkept.backs (h, r) ho
  refine ⟨hbacks, ?_, ?_, ?_⟩
  · intro hr
    exact Option.isSome_iff_exists.mpr (hkept.getTcp_isSome ho hr)
  · intro hr
    exact Option.isSome_iff_exists.mpr (hkept.getUdp_isSome ho hr)
  · obtain ⟨item, hslot, -, -, hrefs⟩ := hbacks
    have hpos : item.refs ≠ 0 := ((holders_pos ho).trans_le hrefs).ne'
    simp [retain, release, hslot, hpos]

/-- A connection is accepted and its stream cloned; one of the two is dropped. -/
def acceptAndClone : List (Action .reference) :=
  [bindListener, .bgFirst 0, .bgPoll true,
    .bgSecond [(0, .syn ⟨.v4 10 0 0 9, 4000⟩), (0, .ack), (0, .sent)],
    .setNonblocking 0 true, .accept 0, .acceptCheck 0 false, .acceptReplace 0 1, .tryClone 1,
    .dropStream 1]

theorem handles_owned_acceptAndClone : ∃ s,
    run (step .reference) initial acceptAndClone = some s ∧
    s.objects.flatMap holdings = [(⟨1, 1⟩, .backlog false), (⟨0, 0⟩, .tcp)] ∧
    s.fault = false ∧ s.net.sockets.Backs (⟨0, 0⟩, .tcp) 1 := by
  obtain ⟨s, hrun, hs⟩ := Option.map_eq_some_iff.mp (show (run (step .reference) initial
    acceptAndClone).map (fun s ↦ s.objects.flatMap holdings) =
      some [(⟨1, 1⟩, .backlog false), (⟨0, 0⟩, .tcp)] from rfl)
  obtain ⟨hfault, hall⟩ := handles_owned hrun
  refine ⟨s, hrun, hs, hfault, ?_⟩
  have hbacks := (hall ⟨0, 0⟩ .tcp (by simp [hs])).1
  rwa [hs] at hbacks

end State

end UsnetSockets
