import Mathlib.Algebra.Order.Ring.Nat
import UsnetSockets.Locks.Calls

/-!
# Deadlocks of the socket operations

Calls that overlap can deadlock in two ways only. `Compatible` excludes both: no `connect` overlaps
with a `send` on the same socket, and no timeout is set while two calls on its socket may sleep
with it. Then there is no cycle of threads that wait for each other, whatever the order in which the
threads run.

The proof follows a cycle. Who waits for `connected` has no successor on it. Who waits for the mutex
is followed by its holder, who waits to read a timeout; this one is followed by somebody who sets
the timeout, and this one by somebody who sleeps with it.
-/

namespace UsnetSockets

namespace Locks

variable {threads threads' : List (Thread Call LockId)} {t u : Thread Call LockId}

/-! ## Calls that may overlap -/

/-- How many of the threads are in a call with the property. -/
def running (threads : List (Thread Call LockId)) (p : Call → Bool) : ℕ :=
  threads.countP fun t ↦ p t.call && !t.rest.isEmpty

/-- The calls under way do not deadlock. -/
structure Compatible (threads : List (Thread Call LockId)) : Prop where
  connected : ∀ n, 0 < running threads (·.connects = some n) →
    running threads (·.keepsConnected = some n) = 0
  timeout : ∀ l, 0 < running threads (·.sets = some l) → running threads (·.sleepsWith = some l) ≤ 1

/-- A call starts only if it may overlap with those under way. -/
def StartsCompatible (threads : List (Thread Call LockId)) (a : Action Call) : Prop :=
  ∀ k, a = .start k → Compatible (threads ++ [⟨k, [], k.path, .ready⟩])

/-- A thread that is in a call was in it before. -/
theorem running_le_of_moves {p : Call → Bool} (h : List.Forall₂ Moves threads threads') :
    running threads' p ≤ running threads p := by
  induction h with
  | nil => exact le_rfl
  | @cons t t' threads threads' hm _ ih =>
    have hle : (p t'.call && !t'.rest.isEmpty) = true → (p t.call && !t.rest.isEmpty) = true := by
      rw [hm.call_eq]
      cases hm with
      | stay _ _ hr => rw [hr]; exact id
      | acquire _ _ hr => simp +contextual [hr]
      | release _ _ hr => simp +contextual [hr]
      | sleep _ _ hr => simp +contextual [hr]
      | notifyAll _ _ hr => simp +contextual [hr]
    simp only [running, List.countP_cons] at ih ⊢
    split
    · rename_i ht'
      rw [if_pos (hle ht')]
      exact Nat.succ_le_succ ih
    · exact ih.trans (Nat.le_add_right _ _)

theorem Compatible.moves (h : Compatible threads) (hm : List.Forall₂ Moves threads threads') :
    Compatible threads' := by
  constructor
  · intro n hn
    exact Nat.le_zero.mp ((running_le_of_moves hm).trans_eq
      (h.connected n (hn.trans_le (running_le_of_moves hm))))
  · intro l hl
    exact (running_le_of_moves hm).trans (h.timeout l (hl.trans_le (running_le_of_moves hm)))

theorem compatible_of_run {as : List (Action Call)}
    (hrun : Transition.run (step Call.path) [] as = some threads)
    (hstarts : Transition.Along (step Call.path) StartsCompatible [] as) : Compatible threads := by
  refine Transition.invariant_of_along (fun threads a threads' hs ha h ↦ ?_)
    ⟨fun _ h ↦ absurd h (by simp [running]), fun _ h ↦ absurd h (by simp [running])⟩ hstarts hrun
  rcases step_cases h with ⟨k, rfl, rfl⟩ | hmoves
  · exact ha k rfl
  · exact hs.moves hmoves

section Counting

variable {α : Type*} {p : α → Bool} {l : List α} {i j : ℕ} {x y : α}

theorem two_le_countP (hij : i ≠ j) (hi : l[i]? = some x) (hj : l[j]? = some y) (hx : p x)
    (hy : p y) : 2 ≤ l.countP p := by
  have hpos {l : List α} {i : ℕ} {x : α} (hi : l[i]? = some x) (hx : p x) : 0 < l.countP p :=
    List.countP_pos_iff.mpr ⟨x, List.mem_of_getElem? hi, hx⟩
  induction l generalizing i j with
  | nil => exact absurd hi (by simp)
  | cons z l ih =>
    rw [List.countP_cons]
    cases i with
    | zero =>
      obtain ⟨j, rfl⟩ := Nat.exists_eq_succ_of_ne_zero hij.symm
      obtain rfl : z = x := by simpa using hi
      rw [if_pos hx]
      exact Nat.succ_le_succ (hpos (by simpa using hj) hy)
    | succ i =>
      cases j with
      | zero =>
        obtain rfl : z = y := by simpa using hj
        rw [if_pos hy]
        exact Nat.succ_le_succ (hpos (by simpa using hi) hx)
      | succ j =>
        exact (ih (by simpa using hij) (by simpa using hi) (by simpa using hj)).trans
          (Nat.le_add_right _ _)

end Counting

/-! ## Following a cycle -/

section Cycle

variable (hd : ∀ t ∈ threads, Disciplined (Allowed t.call) t.held t.rest)
  (hc : Compatible threads)

include hd in
theorem OnCycle.allowed {i : ℕ} {x : LockId × Mode} (h : OnCycle threads i t x) :
    Allowed t.call t.held x :=
  (hd t (List.mem_of_getElem? h.getElem?)).of_waitsFor h.waitsFor

/-- A thread that waits is in a call. -/
theorem OnCycle.in_call {i : ℕ} {x : LockId × Mode} (h : OnCycle threads i t x)
    {p : Call → Bool} (hp : p t.call) : (p t.call && !t.rest.isEmpty) = true := by
  obtain ⟨rest, hrest⟩ := waits_cases h.waitsFor
  simp [hp, hrest]

theorem OnCycle.running_pos {i : ℕ} {x : LockId × Mode} (h : OnCycle threads i t x)
    {p : Call → Bool} (hp : p t.call) : 0 < running threads p :=
  List.countP_pos_iff.mpr ⟨t, List.mem_of_getElem? h.getElem?, h.in_call hp⟩

include hd hc

theorem not_onCycle_connected_write {i n : ℕ} (h : OnCycle threads i t (.connected n, .write)) :
    False := by
  obtain ⟨j, u, y, hj, hblocks⟩ := h.next
  rcases blocks_cases hblocks with ⟨m, hm, -⟩ | ⟨hr, -⟩
  · have hconnects : t.call.connects = some n := ((h.allowed hd).write rfl).1 n rfl
    have hkeeps := ((hj.allowed hd).connected n m hm).2
    have hzero := hc.connected n (h.running_pos (by simpa using hconnects))
    have hpos := hj.running_pos (p := (·.keepsConnected = some n)) (by simpa using hkeeps)
    exact absurd hzero hpos.ne'
  · exact absurd hr (by simp)

/-- Nobody on a cycle waits for `connected`. -/
theorem not_onCycle_connected {i n : ℕ} {m : Mode} (h : OnCycle threads i t (.connected n, m)) :
    False := by
  cases m with
  | write => exact not_onCycle_connected_write hd hc h
  | read =>
    obtain ⟨j, u, y, hj, hblocks⟩ := h.next
    rcases blocks_cases hblocks with ⟨m, hm, hw⟩ | ⟨-, hw⟩
    · have hread := ((hj.allowed hd).connected n m hm).1
      exact absurd (hread.symm.trans (hw rfl)) (by simp)
    · exact not_onCycle_connected_write hd hc ⟨hj.getElem?, hw, hj.cycle⟩

omit hc in
/-- Who waits to set a timeout is followed by somebody who sleeps with it. -/
theorem OnCycle.next_of_sets {i : ℕ} {l : LockId} (h : OnCycle threads i t (l, .write))
    (hl : l.isTimeout) :
    ∃ j u m, OnCycle threads j u (.stcpNet, m) ∧ u.call.sleepsWith = some l := by
  obtain ⟨j, u, ⟨l', m'⟩, hj, hblocks⟩ := h.next
  rcases blocks_cases hblocks with ⟨m, hm, -⟩ | ⟨hr, -⟩
  · obtain ⟨-, rfl, hs⟩ := (hj.allowed hd).timeout l m hm hl
    exact ⟨j, u, m', hj, hs⟩
  · exact absurd hr (by simp)

omit hc in
/-- Who waits to read a timeout is followed by somebody who sets it. -/
theorem OnCycle.next_of_reads {i : ℕ} {l : LockId} (h : OnCycle threads i t (l, .read))
    (hl : l.isTimeout) :
    ∃ j u, OnCycle threads j u (l, .write) ∧ u.call.sets = some l := by
  obtain ⟨j, u, y, hj, hblocks⟩ := h.next
  rcases blocks_cases hblocks with ⟨m, hm, hw⟩ | ⟨-, hw⟩
  · have hread := ((hj.allowed hd).timeout l m hm hl).1
    exact absurd (hread.symm.trans (hw rfl)) (by simp)
  · have hu : OnCycle threads j u (l, .write) := ⟨hj.getElem?, hw, hj.cycle⟩
    exact ⟨j, u, hu, ((hu.allowed hd).write rfl).2 hl⟩

/-- Nobody on a cycle waits for the mutex. -/
theorem not_onCycle_stcpNet {i : ℕ} {m : Mode} (h : OnCycle threads i t (.stcpNet, m)) :
    False := by
  obtain ⟨j, u, ⟨l, m'⟩, hj, hblocks⟩ := h.next
  have hheld : ∃ m, (.stcpNet, m) ∈ u.held := by
    rcases blocks_cases hblocks with ⟨m, hm, -⟩ | ⟨hr, hw⟩
    · exact ⟨m, hm⟩
    · exact absurd (hr.symm.trans ((h.allowed hd).mutex rfl)) (by simp)
  obtain ⟨m, hm⟩ := hheld
  obtain ⟨hne, htimeout⟩ := (hj.allowed hd).stcpNet m hm
  cases hl : l.isTimeout with
  | false =>
    cases l with
    | stcpNet => exact hne rfl
    | connected n => exact not_onCycle_connected hd hc hj
    | readTimeout s => simp [LockId.isTimeout] at hl
    | writeTimeout s => simp [LockId.isTimeout] at hl
  | true =>
    obtain ⟨hread, hsleeps⟩ := htimeout hl
    obtain rfl : m' = .read := hread
    obtain ⟨k, v, hk, hsets⟩ := hj.next_of_reads hd hl
    obtain ⟨r, w, m'', hr, hsleeps'⟩ := hk.next_of_sets hd hl
    -- the holder of the mutex and the sleeper are two threads, since they wait for two locks
    have hjr : j ≠ r := by
      rintro rfl
      have huw : u = w := Option.some.inj (hj.getElem?.symm.trans hr.getElem?)
      subst huw
      have hx := Option.some.inj (hj.waitsFor.symm.trans hr.waitsFor)
      exact hne (Prod.mk.inj hx).1
    have htwo : 2 ≤ running threads (·.sleepsWith = some l) :=
      two_le_countP hjr hj.getElem? hr.getElem?
        (hj.in_call (p := (·.sleepsWith = some l)) (by simpa using hsleeps))
        (hr.in_call (p := (·.sleepsWith = some l)) (by simpa using hsleeps'))
    have hone := hc.timeout l (hk.running_pos (by simpa using hsets))
    omega

end Cycle

/-- **No deadlock.** In every run in which calls start only if they may overlap with those under
way, there is no cycle of threads each of which waits for a lock that the next one holds or
blocks. -/
theorem no_deadlock {as : List (Action Call)}
    (hrun : Transition.run (step Call.path) [] as = some threads)
    (hstarts : Transition.Along (step Call.path) StartsCompatible [] as) : ¬Deadlock threads := by
  have hd := disciplined_of_run disciplined_path hrun
  have hc := compatible_of_run hrun hstarts
  rintro ⟨i, hi⟩
  obtain ⟨t, ⟨l, m⟩, h⟩ := exists_onCycle hi
  cases hl : l.isTimeout with
  | false =>
    cases l with
    | stcpNet => exact not_onCycle_stcpNet hd hc h
    | connected n => exact not_onCycle_connected hd hc h
    | readTimeout s => simp [LockId.isTimeout] at hl
    | writeTimeout s => simp [LockId.isTimeout] at hl
  | true =>
    have hwrite {j : ℕ} {u : Thread Call LockId} (hj : OnCycle threads j u (l, .write)) :
        False := by
      obtain ⟨_, _, _, hk, -⟩ := hj.next_of_sets hd hl
      exact not_onCycle_stcpNet hd hc hk
    cases m with
    | write => exact hwrite h
    | read =>
      obtain ⟨_, _, hj, -⟩ := h.next_of_reads hd hl
      exact hwrite hj

/-- A thread sleeps in `read`, and another waits to set the timeout with which it sleeps. -/
def setDuringRead : List (Action Call) :=
  [.start (.read 0 1), .start (.setReadTimeout (.tcp 0)), .run 0, .run 0, .run 0, .run 1]

theorem no_deadlock_setDuringRead : ∃ threads,
    Transition.run (step Call.path) [] setDuringRead = some threads ∧ Waits threads 1 0 ∧
    ¬Deadlock threads := by
  have hother {threads : List (Thread Call LockId)} (i : ℕ) : StartsCompatible threads (.run i) :=
    fun k h ↦ absurd h (by simp)
  have hstarts : Transition.Along (step Call.path) StartsCompatible [] setDuringRead := by
    refine (Transition.along_cons_of_step rfl).mpr ⟨?_, ?_⟩
    · rintro k ⟨⟩
      constructor <;> simp [running, Call.connects, Call.sets]
    refine (Transition.along_cons_of_step rfl).mpr ⟨?_, ?_⟩
    · rintro k ⟨⟩
      refine ⟨by simp [running, Call.connects], fun l _ ↦ ?_⟩
      simp only [running, List.nil_append, List.singleton_append, List.countP_cons,
        List.countP_nil, Call.sleepsWith, reduceCtorEq, decide_false, Bool.false_and,
        Bool.false_eq_true, if_false]
      split <;> decide
    refine (Transition.along_cons_of_step rfl).mpr ⟨hother 0, ?_⟩
    refine (Transition.along_cons_of_step rfl).mpr ⟨hother 0, ?_⟩
    refine (Transition.along_cons_of_step rfl).mpr ⟨hother 0, ?_⟩
    exact (Transition.along_cons_of_step rfl).mpr ⟨hother 1, trivial⟩
  exact ⟨_, rfl, ⟨_, _, _, rfl, rfl, rfl, rfl⟩, no_deadlock rfl hstarts⟩

/-- `send` locks `connected` and `connect` the mutex, and each then asks for the other. -/
def connectDuringSend : List (Action Call) :=
  [.start (.send 0 (some (.stack 0))), .start (.connect 0), .run 0, .run 1, .run 1, .run 0]

theorem deadlock_connectDuringSend : ∃ threads,
    Transition.run (step Call.path) [] connectDuringSend = some threads ∧ Deadlock threads :=
  ⟨_, rfl, 0, .head (b := 1) ⟨_, _, _, rfl, rfl, rfl, rfl⟩
    (.single ⟨_, _, _, rfl, rfl, rfl, rfl⟩)⟩

/-- Two threads read from one socket while a third sets the timeout. -/
def setDuringTwoReads : List (Action Call) :=
  [.start (.read 0 1), .start (.read 0 1), .start (.setReadTimeout (.tcp 0)), .run 0, .run 0,
    .run 0, .run 2, .run 1, .run 1, .timeout 0, .run 0]

theorem deadlock_setDuringTwoReads : ∃ threads,
    Transition.run (step Call.path) [] setDuringTwoReads = some threads ∧ Deadlock threads :=
  ⟨_, rfl, 0, .head (b := 1) ⟨_, _, _, rfl, rfl, rfl, rfl⟩
    (.head (b := 2) ⟨_, _, _, rfl, rfl, rfl, rfl⟩ (.single ⟨_, _, _, rfl, rfl, rfl, rfl⟩))⟩

end Locks

end UsnetSockets
