import Mathlib.Algebra.Order.Ring.Nat
import UsnetSockets.Net.Smoltcp

/-!
# Who holds a handle

The reference counts of the `SocketSet` are right when every handle that somebody holds refers to an
occupied slot with the socket that the handle was made for, and is counted at least as often as it
is held. `Owned P S os` says this of a set `S` and the list `os` of the handles that are held, each
with the role in which its holder has it. Each operation of the set has one rule: what it asks of
the list of holders, and what the list is afterwards.

A socket in the backlog of a listener has no other holder, so that its state changes only with the
network. `P` is a property of these sockets that is kept along with the counts; it may depend on
whether a call of `accept` waits on the listener.

Only the number of times a handle occurs in the list matters, and fewer holders are always fine
(`Owned.mono`).
-/

namespace UsnetSockets

/-- The kind of a socket. -/
inductive Kind where
  | tcp
  | udp
  deriving DecidableEq

/-- What a handle is for its holder: a slot of the backlog of a listener, on which a call of
`accept` may wait, a connection, or a UDP socket. -/
inductive Role where
  | backlog (waiting : Bool)
  | tcp
  | udp
  deriving DecidableEq

def Role.kind : Role → Kind
  | .backlog _ => .tcp
  | .tcp => .tcp
  | .udp => .udp

/-- The handle of a holder, with its role. -/
abbrev Holding := SocketHandle × Role

/-! ## Counting the holders -/

/-- How many hold the handle. -/
def holders (os : List Holding) (h : SocketHandle) : ℕ := (os.map Prod.fst).count h

section Holders

variable {o : Holding} {os os' : List Holding} {h : SocketHandle}

@[simp] theorem holders_nil (h : SocketHandle) : holders [] h = 0 := rfl

@[simp] theorem holders_append (os os' : List Holding) (h : SocketHandle) :
    holders (os ++ os') h = holders os h + holders os' h := by
  rw [holders, List.map_append, List.count_append, holders, holders]

theorem holders_cons_self (o : Holding) (os : List Holding) :
    holders (o :: os) o.1 = holders os o.1 + 1 := List.count_cons_self

theorem holders_cons_of_ne (os : List Holding) (hne : o.1 ≠ h) :
    holders (o :: os) h = holders os h := List.count_cons_of_ne hne

theorem holders_pos (ho : o ∈ os) : 0 < holders os o.1 :=
  List.count_pos_iff.mpr (List.mem_map_of_mem ho)

/-- The role does not count. -/
@[simp] theorem holders_map (hs : List SocketHandle) (r : Role) (h : SocketHandle) :
    holders (hs.map (·, r)) h = hs.count h := by
  rw [holders, List.map_map, show Prod.fst ∘ (·, r) = (id : SocketHandle → _) from rfl, List.map_id]

@[simp] theorem holders_singleton (x : SocketHandle) (r : Role) (h : SocketHandle) :
    holders [(x, r)] h = [x].count h := rfl

/-- Two roles of one handle are two holders. -/
theorem two_le_holders {r r' : Role} (ho : (h, r) ∈ os) (ho' : (h, r') ∈ os) (hne : r ≠ r') :
    2 ≤ holders os h := by
  induction os with
  | nil => exact absurd ho (by simp)
  | cons o os ih =>
    rcases List.mem_cons.mp ho with rfl | hmem
    · have hpos := holders_pos (List.mem_of_ne_of_mem (by simpa using hne.symm) ho')
      rw [holders_cons_self (h, r)]
      exact Nat.succ_le_succ hpos
    · rcases List.mem_cons.mp ho' with rfl | hmem'
      · have hpos := holders_pos hmem
        rw [holders_cons_self (h, r')]
        exact Nat.succ_le_succ hpos
      · exact (ih hmem hmem').trans List.count_le_count_cons

end Holders

variable {T : Smoltcp}

def Kind.of : T.Tcp ⊕ T.Udp → Kind
  | .inl _ => .tcp
  | .inr _ => .udp

def Item.kind (item : Item T) : Kind := .of item.socket

namespace SocketSet

variable {P : Bool → TcpState → ℕ → Prop} {S S' : SocketSet T} {os os' : List Holding}
  {o : Holding}

/-- The slot of the handle has the socket that the handle was made for, and is counted at least `n`
times. -/
def Backs (S : SocketSet T) (o : Holding) (n : ℕ) : Prop :=
  ∃ item, S.slots o.1.index = some item ∧ item.uid = o.1.uid ∧ item.kind = o.2.kind ∧
    n ≤ item.refs

/-- The property of the sockets of a backlog, at one handle. -/
def HasAt (P : Bool → TcpState → ℕ → Prop) (S : SocketSet T) (h : SocketHandle) (b : Bool) : Prop :=
  ∀ t, S.getTcp h = some t → P b (T.state t) (T.rxLen t)

/-- The counts of the set are right for the holders, and the sockets of backlogs have the
property. -/
structure Owned (P : Bool → TcpState → ℕ → Prop) (S : SocketSet T) (os : List Holding) :
    Prop where
  backs : ∀ o ∈ os, S.Backs o (holders os o.1)
  alone : ∀ h b, (h, .backlog b) ∈ os → holders os h ≤ 1
  hasAt : ∀ h b, (h, .backlog b) ∈ os → S.HasAt P h b
  uid_lt : ∀ i item, S.slots i = some item → item.uid < S.added

theorem Owned.empty : Owned P (.empty : SocketSet T) [] :=
  ⟨by simp, by simp, by simp, fun i item h ↦ absurd h (by simp [SocketSet.empty])⟩

/-- How the role of a handle may change. -/
inductive Passes (P : Bool → TcpState → ℕ → Prop) (S : SocketSet T) (h : SocketHandle) :
    Role → Role → Prop
  | same (r : Role) : Passes P S h r r
  | taken (b : Bool) : Passes P S h (.backlog b) .tcp
  | retag {b b' : Bool} (hP : S.HasAt P h b → S.HasAt P h b') :
      Passes P S h (.backlog b) (.backlog b')

theorem Passes.kind_eq {h : SocketHandle} {r r' : Role} (hp : Passes P S h r r') :
    r.kind = r'.kind := by
  cases hp <;> rfl

/-- Handles may be given up and change their roles. -/
theorem Owned.mono (h : S.Owned P os) (hle : ∀ k, holders os' k ≤ holders os k)
    (hpass : ∀ k r', (k, r') ∈ os' → ∃ r, (k, r) ∈ os ∧ Passes P S k r r') : S.Owned P os' := by
  refine ⟨?_, ?_, ?_, h.uid_lt⟩
  · rintro ⟨k, r'⟩ ho
    obtain ⟨r, hr, hp⟩ := hpass k r' ho
    obtain ⟨item, hslot, huid, hkind, hrefs⟩ := h.backs _ hr
    exact ⟨item, hslot, huid, hkind.trans hp.kind_eq, (hle k).trans hrefs⟩
  · intro k b ho
    obtain ⟨r, hr, hp⟩ := hpass k _ ho
    cases hp with
    | same => exact (hle k).trans (h.alone k b hr)
    | retag => exact (hle k).trans (h.alone k _ hr)
  · intro k b ho
    obtain ⟨r, hr, hp⟩ := hpass k _ ho
    cases hp with
    | same => exact h.hasAt k b hr
    | retag hP => exact hP (h.hasAt k _ hr)

/-- Another property may be kept instead. -/
theorem Owned.imp {Q : Bool → TcpState → ℕ → Prop} (h : S.Owned P os)
    (hPQ : ∀ k b, (k, .backlog b) ∈ os → S.HasAt P k b → S.HasAt Q k b) : S.Owned Q os :=
  ⟨h.backs, h.alone, fun k b hk ↦ hPQ k b hk (h.hasAt k b hk), h.uid_lt⟩

/-- Handles that are given up may be forgotten. -/
theorem Owned.of_subset (h : S.Owned P os) (hle : ∀ k, holders os' k ≤ holders os k)
    (hsub : os' ⊆ os) : S.Owned P os' :=
  h.mono hle fun _ _ ho ↦ ⟨_, hsub ho, .same _⟩

theorem Owned.perm (h : S.Owned P os) (hp : os.Perm os') : S.Owned P os' :=
  h.of_subset (fun k ↦ ((hp.map Prod.fst).count_eq k).ge) hp.symm.subset

/-- Two holders of one slot hold the same handle. -/
theorem Owned.eq_of_index_eq {o' : Holding} (h : S.Owned P os) (ho : o ∈ os) (ho' : o' ∈ os)
    (he : o.1.index = o'.1.index) : o.1 = o'.1 := by
  obtain ⟨item, hslot, huid, -⟩ := h.backs o ho
  obtain ⟨item', hslot', huid', -⟩ := h.backs o' ho'
  rw [he, hslot', Option.some_inj] at hslot
  subst hslot
  obtain ⟨⟨i, u⟩, k⟩ := o
  obtain ⟨⟨i', u'⟩, k'⟩ := o'
  simp_all

/-- A handle that is held in another role is not in a backlog. -/
theorem Owned.not_backlog (h : S.Owned P os) (ho : o ∈ os) (hr : ∀ b, o.2 ≠ .backlog b)
    {k : SocketHandle} {b : Bool} (hk : (k, .backlog b) ∈ os) : k.index ≠ o.1.index := by
  intro he
  obtain rfl : k = o.1 := h.eq_of_index_eq hk ho he
  have htwo := two_le_holders (show (o.1, o.2) ∈ os from ho) hk (hr b)
  have hone := h.alone _ b hk
  omega

/-! ## The rules -/

theorem slots_modify (i index : ℕ) (f : Item T → Item T) : (S.modify index f).slots i =
    if i = index then (S.slots i).map f else S.slots i := rfl

theorem getTcp_congr {h : SocketHandle} (he : S'.slots h.index = S.slots h.index) :
    S'.getTcp h = S.getTcp h := by
  rw [getTcp, getTcp, he]

/-- The property at a handle depends on the slot of the handle only. -/
theorem HasAt.congr {h : SocketHandle} {b : Bool} (hP : S.HasAt P h b)
    (he : S'.slots h.index = S.slots h.index) : S'.HasAt P h b := by
  rw [HasAt, getTcp_congr he]
  exact hP

/-- A change of sockets that are not counted and not exchanged. -/
theorem Owned.modify (h : S.Owned P os) {index : ℕ} {f : Item T → Item T}
    (hf : ∀ item, S.slots index = some item →
      (f item).uid = item.uid ∧ (f item).kind = item.kind ∧ (f item).refs = item.refs)
    (hP : ∀ k b, (k, .backlog b) ∈ os → k.index = index → (S.modify index f).HasAt P k b) :
    (S.modify index f).Owned P os := by
  refine ⟨?_, h.alone, ?_, ?_⟩
  · intro o ho
    obtain ⟨item, hslot, huid, hkind, hrefs⟩ := h.backs o ho
    by_cases hi : o.1.index = index
    · obtain ⟨hu, hk, hr⟩ := hf item (hi ▸ hslot)
      refine ⟨f item, ?_, hu.trans huid, hk.trans hkind, hrefs.trans_eq hr.symm⟩
      rw [slots_modify, if_pos hi, hslot, Option.map_some]
    · exact ⟨item, by rw [slots_modify, if_neg hi, hslot], huid, hkind, hrefs⟩
  · intro k b hk
    by_cases hi : k.index = index
    · exact hP k b hk hi
    · exact (h.hasAt k b hk).congr (by rw [slots_modify, if_neg hi])
  · intro i item hi
    rw [slots_modify] at hi
    split at hi
    · rename_i hindex
      obtain ⟨item', hi', rfl⟩ := Option.map_eq_some_iff.mp hi
      rw [(hf item' (hindex ▸ hi')).1]
      exact h.uid_lt i item' hi'
    · exact h.uid_lt i item hi

theorem getTcp_eq_some {h : SocketHandle} {t : T.Tcp} (ht : S.getTcp h = some t) :
    ∃ item, S.slots h.index = some item ∧ item.socket = .inl t := by
  rw [getTcp] at ht
  split at ht
  · rename_i uid refs t' hslot
    rw [Option.some_inj] at ht
    subst ht
    exact ⟨_, hslot, rfl⟩
  · exact absurd ht (by simp)

theorem getTcp_of_slots {h : SocketHandle} {item : Item T} {t : T.Tcp}
    (hslot : S.slots h.index = some item) (hsock : item.socket = .inl t) :
    S.getTcp h = some t := by
  obtain ⟨uid, refs, socket⟩ := item
  subst hsock
  rw [getTcp, hslot]

theorem getUdp_eq_some {h : SocketHandle} {u : T.Udp} (hu : S.getUdp h = some u) :
    ∃ item, S.slots h.index = some item ∧ item.socket = .inr u := by
  rw [getUdp] at hu
  split at hu
  · rename_i uid refs u' hslot
    rw [Option.some_inj] at hu
    subst hu
    exact ⟨_, hslot, rfl⟩
  · exact absurd hu (by simp)

theorem getTcp_setSocket {h k : SocketHandle} {t t' : T.Tcp} (ht : S.getTcp k = some t)
    (he : h.index = k.index) : (S.setSocket k (.inl t')).getTcp h = some t' := by
  obtain ⟨item, hslot, -⟩ := getTcp_eq_some ht
  simp [getTcp, setSocket, slots_modify, he, hslot]

/-- A change of a TCP socket; one in a backlog must keep the property. -/
theorem Owned.setTcp (h : S.Owned P os) {k : SocketHandle} {t t' : T.Tcp}
    (ht : S.getTcp k = some t)
    (hP : ∀ k' b, (k', .backlog b) ∈ os → k'.index = k.index → P b (T.state t) (T.rxLen t) →
      P b (T.state t') (T.rxLen t')) :
    (S.setSocket k (.inl t')).Owned P os := by
  obtain ⟨item, hslot, hsock⟩ := getTcp_eq_some ht
  refine h.modify (fun item' hitem' ↦ ⟨rfl, ?_, rfl⟩) ?_
  · rw [hslot, Option.some_inj] at hitem'
    simp [Item.kind, Kind.of, ← hitem', hsock]
  · intro k' b hk hi t'' ht''
    have hbefore : S.getTcp k' = some t := (getTcp_congr rfl).trans (by rw [getTcp, hi]; exact ht)
    obtain rfl : t' = t'' := Option.some.inj ((getTcp_setSocket ht hi).symm.trans ht'')
    exact hP k' b hk hi (h.hasAt k' b hk t hbefore)

/-- A connection may be changed at will. -/
theorem Owned.setTcp_of_mem (h : S.Owned P os) {k : SocketHandle} {t t' : T.Tcp}
    (hk : (k, .tcp) ∈ os) (ht : S.getTcp k = some t) : (S.setSocket k (.inl t')).Owned P os :=
  h.setTcp ht fun _ _ hk' hi ↦ absurd hi (h.not_backlog hk (by simp) hk')

theorem Owned.setUdp (h : S.Owned P os) {k : SocketHandle} {u u' : T.Udp}
    (hu : S.getUdp k = some u) : (S.setSocket k (.inr u')).Owned P os := by
  obtain ⟨item, hslot, hsock⟩ := getUdp_eq_some hu
  refine h.modify (fun item' hitem' ↦ ⟨rfl, ?_, rfl⟩) ?_
  · rw [hslot, Option.some_inj] at hitem'
    simp [Item.kind, Kind.of, ← hitem', hsock]
  · intro k' b hk hi t ht
    simp [getTcp, slots_modify, hi, hslot] at ht

/-- A holder finds a socket of the kind that it takes it for. -/
theorem Owned.getTcp_isSome {k : SocketHandle} {r : Role} (h : S.Owned P os) (ho : (k, r) ∈ os)
    (hr : r.kind = .tcp) : ∃ t, S.getTcp k = some t := by
  obtain ⟨⟨uid, refs, socket⟩, hslot, -, hkind, -⟩ := h.backs _ ho
  cases socket with
  | inl t => exact ⟨t, getTcp_of_slots hslot rfl⟩
  | inr u => exact absurd (hkind.trans hr) (by simp [Item.kind, Kind.of])

theorem Owned.getUdp_isSome {k : SocketHandle} {r : Role} (h : S.Owned P os) (ho : (k, r) ∈ os)
    (hr : r.kind = .udp) : ∃ u, S.getUdp k = some u := by
  obtain ⟨⟨uid, refs, socket⟩, hslot, -, hkind, -⟩ := h.backs _ ho
  cases socket with
  | inl t => exact absurd (hkind.trans hr) (by simp [Item.kind, Kind.of])
  | inr u => exact ⟨u, by rw [getUdp, hslot]⟩

/-- Adding a socket makes its handle one that is held once. -/
theorem Owned.add (h : S.Owned P os) {slot : ℕ} {x : T.Tcp ⊕ T.Udp} {k : SocketHandle} {r : Role}
    (hadd : S.add slot x = some (k, S')) (hr : r.kind = .of x)
    (hP : ∀ t b, x = .inl t → r = .backlog b → P b (T.state t) (T.rxLen t)) :
    S'.Owned P ((k, r) :: os) := by
  rw [SocketSet.add] at hadd
  split at hadd
  · rename_i hfree
    rw [Option.some_inj, Prod.mk.injEq] at hadd
    obtain ⟨rfl, rfl⟩ := hadd
    -- the slot was empty, so nobody holds a handle with its index
    have hne {o : Holding} (ho : o ∈ os) : o.1.index ≠ slot := by
      intro he
      obtain ⟨item, hslot, -⟩ := h.backs o ho
      rw [he, hfree] at hslot
      exact absurd hslot (by simp)
    have hcons {o : Holding} (ho : o ∈ os) :
        holders ((⟨slot, S.added⟩, r) :: os) o.1 = holders os o.1 :=
      holders_cons_of_ne os fun he ↦ hne ho (by rw [← he])
    have hnew : holders ((⟨slot, S.added⟩, r) :: os) ⟨slot, S.added⟩ = 1 := by
      rw [holders_cons_self (⟨slot, S.added⟩, r), Nat.add_eq_right]
      refine List.count_eq_zero_of_not_mem fun hmem ↦ ?_
      obtain ⟨o, ho, he⟩ := List.mem_map.mp hmem
      exact hne ho (by rw [he])
    refine ⟨?_, ?_, ?_, ?_⟩
    · intro o ho
      rcases List.mem_cons.mp ho with rfl | ho
      · exact ⟨_, Function.update_self .., rfl, hr.symm, hnew.le⟩
      · obtain ⟨item, hslot, huid, hkind, hrefs⟩ := h.backs o ho
        exact ⟨item, (Function.update_of_ne (hne ho) ..).trans hslot, huid, hkind,
          (hcons ho).trans_le hrefs⟩
    · intro k b ho
      rcases List.mem_cons.mp ho with he | ho
      · obtain ⟨rfl, -⟩ := Prod.mk.inj he
        exact hnew.le
      · exact (hcons ho).trans_le (h.alone k b ho)
    · intro k b ho
      rcases List.mem_cons.mp ho with he | ho
      · obtain ⟨rfl, rfl⟩ := Prod.mk.inj he
        intro t ht
        obtain ⟨item, hslot, hsock⟩ := getTcp_eq_some ht
        dsimp only at hslot
        rw [Function.update_self, Option.some_inj] at hslot
        exact hP t b (by rw [← hsock, ← hslot]) rfl
      · exact (h.hasAt k b ho).congr (Function.update_of_ne (hne ho) ..)
    · intro i item hi
      dsimp only at hi
      by_cases his : i = slot
      · subst his
        rw [Function.update_self, Option.some_inj] at hi
        rw [← hi]
        exact Nat.lt_succ_self _
      · rw [Function.update_of_ne his] at hi
        exact (h.uid_lt i item hi).trans (Nat.lt_succ_self _)
  · exact absurd hadd (by simp)

/-- Retaining a handle that is held makes one more that is. -/
theorem Owned.retain (h : S.Owned P os) (ho : o ∈ os) (hr : ∀ b, o.2 ≠ .backlog b) :
    ∃ S', S.retain o.1 = some S' ∧ S'.Owned P (o :: os) := by
  obtain ⟨item, hslot, -⟩ := h.backs o ho
  have hmem {o' : Holding} (ho' : o' ∈ o :: os) : o' ∈ os := by
    rcases List.mem_cons.mp ho' with rfl | ho'
    · exact ho
    · exact ho'
  have hne {k : SocketHandle} {b : Bool} (hk : (k, .backlog b) ∈ os) : k.index ≠ o.1.index :=
    h.not_backlog ho hr hk
  refine ⟨_, by rw [SocketSet.retain, hslot], fun o' ho' ↦ ?_, fun k b hk ↦ ?_, fun k b hk ↦ ?_,
    fun i item' hi ↦ ?_⟩
  · -- the holders of the slot that is counted up hold the retained handle
    obtain ⟨item', hslot', huid', hkind', hrefs'⟩ := h.backs o' (hmem ho')
    by_cases hi : o'.1.index = o.1.index
    · have he : o'.1 = o.1 := h.eq_of_index_eq (hmem ho') ho hi
      refine ⟨{ item' with refs := item'.refs + 1 }, ?_, huid', hkind', ?_⟩
      · rw [slots_modify, if_pos hi, hslot', Option.map_some]
      · rw [he, holders_cons_self, ← he]
        exact Nat.succ_le_succ hrefs'
    · refine ⟨item', by rw [slots_modify, if_neg hi, hslot'], huid', hkind', ?_⟩
      rwa [holders_cons_of_ne os fun he ↦ hi (by rw [he])]
  · rw [holders_cons_of_ne os fun he ↦ hne (hmem hk) (by rw [he])]
    exact h.alone k b (hmem hk)
  · exact (h.hasAt k b (hmem hk)).congr (by rw [slots_modify, if_neg (hne (hmem hk))])
  · rw [slots_modify] at hi
    split at hi
    · obtain ⟨item'', hi'', rfl⟩ := Option.map_eq_some_iff.mp hi
      exact h.uid_lt i item'' hi''
    · exact h.uid_lt i item' hi

/-- Releasing a handle that is held makes one less that is. -/
theorem Owned.release (h : S.Owned P (o :: os)) :
    ∃ S', S.release o.1 = some S' ∧ S'.Owned P os := by
  obtain ⟨item, hslot, huid, hkind, hrefs⟩ := h.backs o List.mem_cons_self
  rw [holders_cons_self] at hrefs
  have hrel : S.release o.1 = some (S.modify o.1.index fun item ↦
      { item with refs := item.refs - 1 }) := by
    simp only [SocketSet.release, hslot]
    exact if_neg (by omega)
  refine ⟨_, hrel, ?_, ?_, ?_, ?_⟩
  · intro o' ho'
    obtain ⟨item', hslot', huid', hkind', hrefs'⟩ := h.backs o' (List.mem_cons_of_mem _ ho')
    by_cases hi : o'.1.index = o.1.index
    · have he : o'.1 = o.1 :=
        h.eq_of_index_eq (List.mem_cons_of_mem _ ho') List.mem_cons_self hi
      rw [he, hslot, Option.some_inj] at hslot'
      subst hslot'
      refine ⟨{ item with refs := item.refs - 1 }, ?_, huid', hkind', ?_⟩
      · rw [slots_modify, if_pos hi, he, hslot, Option.map_some]
      · rw [he]
        exact Nat.le_sub_one_of_lt hrefs
    · refine ⟨item', by rw [slots_modify, if_neg hi, hslot'], huid', hkind', ?_⟩
      rwa [holders_cons_of_ne os fun he ↦ hi (by rw [he])] at hrefs'
  · intro k b hk
    exact List.count_le_count_cons.trans (h.alone k b (List.mem_cons_of_mem _ hk))
  · intro k b hk
    have hbefore := h.hasAt k b (List.mem_cons_of_mem _ hk)
    by_cases hi : k.index = o.1.index
    · -- only the count changes
      intro t ht
      obtain ⟨item', hslot', hsock⟩ := getTcp_eq_some ht
      rw [slots_modify, if_pos hi, hi, hslot, Option.map_some, Option.some_inj] at hslot'
      exact hbefore t (getTcp_of_slots (hi ▸ hslot) (by rw [← hsock, ← hslot']))
    · exact hbefore.congr (by rw [slots_modify, if_neg hi])
  · intro i item' hi
    rw [slots_modify] at hi
    split at hi
    · obtain ⟨item'', hi'', rfl⟩ := Option.map_eq_some_iff.mp hi
      exact h.uid_lt i item'' hi''
    · exact h.uid_lt i item' hi

theorem pruneItem_of_refs_pos {item : Item T} (h : 0 < item.refs) : pruneItem item = some item := by
  rw [pruneItem, if_neg (by omega)]

/-- What `prune` leaves has kept its number. -/
theorem uid_pruneItem {item item' : Item T} (h : pruneItem item = some item') :
    item'.uid = item.uid := by
  rw [pruneItem] at h
  split at h
  · split at h
    · exact absurd h (by simp)
    · split at h
      · exact absurd h (by simp)
      · rw [← Option.some.inj h]
  · rw [Option.some.inj h]

/-- `prune` does not touch what somebody holds. -/
theorem Owned.slots_prune (h : S.Owned P os) (ho : o ∈ os) :
    S.prune.slots o.1.index = S.slots o.1.index := by
  obtain ⟨item, hslot, -, -, hrefs⟩ := h.backs o ho
  -- what is held is counted, and `prune` leaves alone what is counted
  simp only [SocketSet.prune]
  rw [hslot, Option.bind_some, pruneItem_of_refs_pos ((holders_pos ho).trans_le hrefs)]

theorem Owned.prune (h : S.Owned P os) : S.prune.Owned P os := by
  refine ⟨?_, h.alone, ?_, ?_⟩
  · intro o ho
    rw [Backs, h.slots_prune ho]
    exact h.backs o ho
  · intro k b hk
    exact (h.hasAt k b hk).congr (h.slots_prune hk)
  · intro i item hi
    obtain ⟨item', hi', hp⟩ := Option.bind_eq_some_iff.mp hi
    rw [uid_pruneItem hp]
    exact h.uid_lt i item' hi'

/-- The destructors release what their value holds. -/
theorem Owned.releaseAll {r : Role} : ∀ {hs : List SocketHandle} {S : SocketSet T},
    S.Owned P (hs.map (·, r) ++ os) → ∃ S', releaseAll hs S = some S' ∧ S'.Owned P os
  | [], S, h => ⟨S, rfl, h⟩
  | x :: hs, S, h => by
    obtain ⟨S₁, hrel, h₁⟩ := Owned.release h
    obtain ⟨S₂, hrest, h₂⟩ := Owned.releaseAll h₁.prune
    exact ⟨S₂, by rw [SocketSet.releaseAll, hrel]; exact hrest, h₂⟩

/-- Each event for the socket of a backlog keeps the property. -/
def EventsKeep (P : Bool → TcpState → ℕ → Prop) (os : List Holding) :
    SocketSet T → List (ℕ × T.Event) → Prop
  | _, [] => True
  | S, e :: events =>
    (∀ k b t, (k, .backlog b) ∈ os → k.index = e.1 → S.getTcp k = some t →
      P b (T.state t) (T.rxLen t) →
      P b (T.state (T.process e.2 t)) (T.rxLen (T.process e.2 t))) ∧
    EventsKeep P os (S.modify e.1 (processItem e.2)) events

theorem EventsKeep.of_forall (h : ∀ k b, (k, .backlog b) ∈ os → ∀ st n, P b st n) :
    ∀ (S : SocketSet T) (events : List (ℕ × T.Event)), EventsKeep P os S events
  | _, [] => trivial
  | _, _ :: events => ⟨fun k b _ hk _ _ _ ↦ h k b hk _ _, EventsKeep.of_forall h _ events⟩

theorem getTcp_processItem {k : SocketHandle} {e : T.Event} {t : T.Tcp}
    (ht : (S.modify k.index (processItem e)).getTcp k = some t) :
    ∃ t', S.getTcp k = some t' ∧ t = T.process e t' := by
  obtain ⟨item, hslot, hsock⟩ := getTcp_eq_some ht
  rw [slots_modify, if_pos rfl] at hslot
  obtain ⟨⟨uid, refs, socket⟩, hitem, rfl⟩ := Option.map_eq_some_iff.mp hslot
  cases socket with
  | inl t' => exact ⟨t', getTcp_of_slots hitem rfl, (Sum.inl.inj hsock).symm⟩
  | inr u => exact absurd hsock (by simp [processItem])

/-- Polling the interface does not count. -/
theorem Owned.process {events : List (ℕ × T.Event)} (h : S.Owned P os)
    (hP : EventsKeep P os S events) : (S.process events).Owned P os := by
  induction events generalizing S with
  | nil => exact h
  | cons e events ih =>
    refine ih (h.modify (fun item _ ↦ ⟨rfl, ?_, rfl⟩) ?_) hP.2
    · simp only [Item.kind, processItem]
      cases item.socket <;> rfl
    · intro k b hk hi t ht
      obtain ⟨i, e⟩ := e
      subst hi
      obtain ⟨t', ht', rfl⟩ := getTcp_processItem ht
      exact hP.1 k b t' hk rfl ht' (h.hasAt k b hk t' ht')

end SocketSet

end UsnetSockets
