import Mathlib.Data.List.Forall2
import UsnetSockets.Transition.Run

/-!
# Threads that take locks

A call is the sequence of what it does with locks: it acquires and releases them, goes to sleep on a
condition variable, which releases a lock, and wakes all sleepers. A lock is taken for reading or
for writing; a mutex is one that is only taken for writing. A thread executes one call.

Locks are *task-fair*: a thread that wants to read does not get the lock while another is blocked on
writing. So a thread is held up by the holders of what it wants, and if it wants to read also by
those that are blocked on writing (`Thread.blocks`). `Waits` is the resulting relation between
threads, and a deadlock is a cycle of it.

What keeps calls from deadlock is usually visible in the calls themselves: whenever a call acquires
a lock, what it holds at this point is of a certain form. `Disciplined` says this of the rest of a
call, and `disciplined_of_run` carries it to all threads of all runs.
-/

namespace UsnetSockets

namespace Locks

/-- How a lock is taken. -/
inductive Mode where
  | read
  | write
  deriving DecidableEq

/-- What a call does with locks. -/
inductive Instr (L : Type*) where
  | acquire (x : L × Mode)
  | release (x : L × Mode)
  /-- Releases the lock, which is held for writing, and waits to be notified. -/
  | sleep (l : L)
  | notifyAll

/-- To wait on the condition variable with a lock is to sleep and to take the lock again. -/
def wait {L : Type*} (l : L) : List (Instr L) := [.sleep l, .acquire (l, .write)]

inductive Status where
  | ready
  /-- Has asked for a lock and not got it. -/
  | blocked
  | asleep
  deriving DecidableEq

/-- A thread: its call, what it holds, and the rest of the call. -/
structure Thread (K L : Type*) where
  call : K
  held : List (L × Mode)
  rest : List (Instr L)
  status : Status

section Defs

variable {K L : Type*} [DecidableEq L]

/-- The lock that the thread acquires next. -/
def Thread.wants (t : Thread K L) : Option (L × Mode) :=
  match t.rest with
  | .acquire x :: _ => some x
  | _ => none

/-- The lock that the thread waits for. A sleeping thread waits for the lock to be handed back. -/
def Thread.waitsFor (t : Thread K L) : Option (L × Mode) :=
  if t.status = .ready then none else t.wants

/-- The two cannot be held at the same time. -/
def conflict (x y : L × Mode) : Bool := x.1 = y.1 && !(x.2 = .read && y.2 = .read)

/-- The thread keeps others from acquiring the lock. -/
def Thread.blocks (t : Thread K L) (x : L × Mode) : Bool :=
  t.held.any (conflict x) ||
    (x.2 = .read && t.status = .blocked && t.wants = some (x.1, .write))

def Thread.wake (t : Thread K L) : Thread K L :=
  if t.status = .asleep then { t with status := .ready } else t

inductive Action (K : Type*) where
  /-- A new thread makes a call. -/
  | start (call : K)
  /-- A thread goes on with its call. -/
  | run (i : ℕ)
  /-- The wait of a sleeping thread times out. -/
  | timeout (i : ℕ)

/-- What a thread does next. -/
def exec (threads : List (Thread K L)) (i : ℕ) (t : Thread K L) : Option (List (Thread K L)) :=
  match t.rest with
  | [] => none
  -- a thread that does not get the lock will try again, and counts as blocked until then
  | .acquire x :: rest => some (threads.set i
      (if threads.any (·.blocks x) then { t with status := .blocked }
      else { t with held := x :: t.held, rest := rest, status := .ready }))
  | .release x :: rest => some (threads.set i { t with held := t.held.erase x, rest := rest })
  | .sleep l :: rest => some (threads.set i
      { t with held := t.held.erase (l, .write), rest := rest, status := .asleep })
  | .notifyAll :: rest => some ((threads.map Thread.wake).set i { t with rest := rest })

/-- One step of the threads. `path` is what each call does. -/
def step (path : K → List (Instr L)) (threads : List (Thread K L)) (a : Action K) :
    Option (List (Thread K L)) :=
  match a with
  | .start call => some (threads ++ [⟨call, [], path call, .ready⟩])
  | .run i =>
    match threads[i]? with
    | none => none
    | some t => if t.status = .asleep then none else exec threads i t
  | .timeout i =>
    match threads[i]? with
    | none => none
    | some t =>
      if t.status = .asleep then some (threads.set i { t with status := .ready }) else none

/-- The first thread waits for a lock that the second holds or blocks. -/
def Waits (threads : List (Thread K L)) (i j : ℕ) : Prop :=
  ∃ t u x, threads[i]? = some t ∧ threads[j]? = some u ∧ t.waitsFor = some x ∧ u.blocks x = true

/-- A cycle of threads that wait for each other. -/
def Deadlock (threads : List (Thread K L)) : Prop := ∃ i, Relation.TransGen (Waits threads) i i

end Defs

/-! ## What the threads do -/

variable {K L : Type*} [DecidableEq L] {path : K → List (Instr L)}
  {threads threads' : List (Thread K L)} {t u : Thread K L} {x : L × Mode}

/-- The thread `t` with index `i` waits for `x` and is part of a deadlock. -/
structure OnCycle (threads : List (Thread K L)) (i : ℕ) (t : Thread K L) (x : L × Mode) :
    Prop where
  getElem? : threads[i]? = some t
  waitsFor : t.waitsFor = some x
  cycle : Relation.TransGen (Waits threads) i i

theorem exists_onCycle {i : ℕ} (h : Relation.TransGen (Waits threads) i i) :
    ∃ t x, OnCycle threads i t x := by
  obtain ⟨j, ⟨t, u, x, hi, -, hx, -⟩, -⟩ := Relation.TransGen.head'_iff.mp h
  exact ⟨t, x, hi, hx, h⟩

/-- What a thread of a deadlock waits for is blocked by another one, which waits too. -/
theorem OnCycle.next {i : ℕ} (h : OnCycle threads i t x) :
    ∃ j u y, OnCycle threads j u y ∧ u.blocks x = true := by
  obtain ⟨j, hij, hji⟩ := Relation.TransGen.head'_iff.mp h.cycle
  obtain ⟨u', y, hj⟩ := exists_onCycle (Relation.TransGen.tail' hji hij)
  obtain ⟨t', u, x', hi, hju, hx, hblocks⟩ := hij
  rw [h.getElem?, Option.some_inj] at hi
  subst hi
  rw [h.waitsFor, Option.some_inj] at hx
  subst hx
  rw [hj.getElem?, Option.some_inj] at hju
  subst hju
  exact ⟨j, u', y, hj, hblocks⟩

omit [DecidableEq L] in
theorem waits_cases (h : t.waitsFor = some x) : ∃ rest, t.rest = .acquire x :: rest := by
  rw [Thread.waitsFor] at h
  split at h
  · exact absurd h (by simp)
  · rw [Thread.wants] at h
    split at h
    · rename_i y rest hrest
      exact ⟨rest, by rw [hrest, Option.some.inj h]⟩
    · exact absurd h (by simp)

/-- A thread that keeps another from a lock holds it, or is blocked on writing it. -/
theorem blocks_cases (h : t.blocks x = true) :
    (∃ m, (x.1, m) ∈ t.held ∧ (x.2 = .read → m = .write)) ∨
    (x.2 = .read ∧ t.waitsFor = some (x.1, .write)) := by
  rw [Thread.blocks, Bool.or_eq_true] at h
  rcases h with h | h
  · obtain ⟨⟨l, m⟩, hy, hc⟩ := List.any_eq_true.mp h
    simp only [conflict, Bool.and_eq_true, decide_eq_true_eq] at hc
    obtain ⟨rfl, hc⟩ := hc
    refine Or.inl ⟨m, hy, fun hr ↦ ?_⟩
    cases m with
    | read => simp [hr] at hc
    | write => rfl
  · simp only [Bool.and_eq_true, decide_eq_true_eq] at h
    obtain ⟨⟨hr, hb⟩, hw⟩ := h
    exact Or.inr ⟨hr, by rw [Thread.waitsFor, if_neg (by simp [hb]), hw]⟩

/-- What one step may do to a thread. -/
inductive Moves (t t' : Thread K L) : Prop
  | stay (hc : t'.call = t.call) (hh : t'.held = t.held) (hr : t'.rest = t.rest)
  | acquire {x : L × Mode} (hc : t'.call = t.call) (hh : t'.held = x :: t.held)
      (hr : t.rest = .acquire x :: t'.rest)
  | release {x : L × Mode} (hc : t'.call = t.call) (hh : t'.held = t.held.erase x)
      (hr : t.rest = .release x :: t'.rest)
  | sleep {l : L} (hc : t'.call = t.call) (hh : t'.held = t.held.erase (l, .write))
      (hr : t.rest = .sleep l :: t'.rest)
  | notifyAll (hc : t'.call = t.call) (hh : t'.held = t.held) (hr : t.rest = .notifyAll :: t'.rest)

theorem Moves.refl (t : Thread K L) : Moves t t := .stay rfl rfl rfl

theorem Moves.wake (t : Thread K L) : Moves t t.wake := by
  rw [Thread.wake]
  split
  · exact .stay rfl rfl rfl
  · exact .refl t

theorem Moves.call_eq {t t' : Thread K L} (h : Moves t t') : t'.call = t.call := by
  cases h <;> assumption

/-- One element of a list is replaced, and all others may change in the same way. -/
theorem forall₂_set_map {α : Type*} {R : α → α → Prop} {f : α → α} (hf : ∀ x, R x (f x))
    {l : List α} {i : ℕ} {x y : α} (hi : l[i]? = some x) (hxy : R x y) :
    List.Forall₂ R l ((l.map f).set i y) := by
  induction l generalizing i with
  | nil => exact absurd hi (by simp)
  | cons z l ih =>
    cases i with
    | zero =>
      obtain rfl : z = x := by simpa using hi
      refine .cons hxy ?_
      exact List.forall₂_map_right_iff.mpr (List.forall₂_same.mpr fun x _ ↦ hf x)
    | succ i => exact .cons (hf z) (ih (by simpa using hi))

/-- What each element keeps on its way is kept by all. -/
theorem forall_mem_of_forall₂ {α : Type*} {R : α → α → Prop} {p : α → Prop} {l l' : List α}
    (h : List.Forall₂ R l l') (hR : ∀ x y, R x y → p x → p y) (hp : ∀ x ∈ l, p x) :
    ∀ y ∈ l', p y := by
  induction h with
  | nil => exact hp
  | cons hxy _ ih =>
    rw [List.forall_mem_cons] at hp ⊢
    exact ⟨hR _ _ hxy hp.1, ih hp.2⟩

theorem forall₂_set {i : ℕ} {t' : Thread K L} (hi : threads[i]? = some t) (h : Moves t t') :
    List.Forall₂ Moves threads (threads.set i t') := by
  have hset := forall₂_set_map (f := id) Moves.refl hi h
  rwa [List.map_id] at hset

theorem moves_of_exec {i : ℕ} (hi : threads[i]? = some t) (h : exec threads i t = some threads') :
    List.Forall₂ Moves threads threads' := by
  rw [exec] at h
  split at h
  · exact absurd h (by simp)
  · rename_i x rest hrest
    cases h
    refine forall₂_set hi ?_
    split
    · exact .stay rfl rfl rfl
    · exact .acquire rfl rfl hrest
  · rename_i x rest hrest
    cases h
    exact forall₂_set hi (.release rfl rfl hrest)
  · rename_i l rest hrest
    cases h
    exact forall₂_set hi (.sleep rfl rfl hrest)
  · rename_i rest hrest
    cases h
    exact forall₂_set_map Moves.wake hi (.notifyAll rfl rfl hrest)

/-- **What a step does to the threads.** A new thread starts, or each thread makes a move. -/
theorem step_cases {a : Action K} (h : step path threads a = some threads') :
    (∃ call, a = .start call ∧ threads' = threads ++ [⟨call, [], path call, .ready⟩]) ∨
    List.Forall₂ Moves threads threads' := by
  cases a with
  | start call => exact Or.inl ⟨call, rfl, (Option.some.inj h).symm⟩
  | run i =>
    rw [step] at h
    split at h
    · exact absurd h (by simp)
    · rename_i t hi
      split at h
      · exact absurd h (by simp)
      · exact Or.inr (moves_of_exec hi h)
  | timeout i =>
    rw [step] at h
    split at h
    · exact absurd h (by simp)
    · rename_i t hi
      split at h
      · cases h
        exact Or.inr (forall₂_set hi (.stay rfl rfl rfl))
      · exact absurd h (by simp)

/-! ## Discipline -/

/-- Whenever the rest of a call acquires a lock, it does so holding what is allowed, and in the end
it holds nothing. -/
def Disciplined (ok : List (L × Mode) → L × Mode → Prop) :
    List (L × Mode) → List (Instr L) → Prop
  | held, [] => held = []
  | held, .acquire x :: rest => ok held x ∧ Disciplined ok (x :: held) rest
  | held, .release x :: rest => Disciplined ok (held.erase x) rest
  | held, .sleep l :: rest => Disciplined ok (held.erase (l, .write)) rest
  | held, .notifyAll :: rest => Disciplined ok held rest

theorem Disciplined.move {ok : List (L × Mode) → L × Mode → Prop} {t t' : Thread K L}
    (h : Disciplined ok t.held t.rest) (hm : Moves t t') : Disciplined ok t'.held t'.rest := by
  cases hm with
  | stay _ hh hr => rwa [hh, hr]
  | acquire _ hh hr =>
    rw [hr, Disciplined] at h
    rw [hh]
    exact h.2
  | release _ hh hr =>
    rw [hr, Disciplined] at h
    rwa [hh]
  | sleep _ hh hr =>
    rw [hr, Disciplined] at h
    rwa [hh]
  | notifyAll _ hh hr =>
    rw [hr, Disciplined] at h
    rwa [hh]

/-- **Discipline is kept.** If all calls are disciplined, then so are the rests of all threads in
every run. -/
theorem disciplined_of_run {ok : K → List (L × Mode) → L × Mode → Prop}
    (hpath : ∀ k, Disciplined (ok k) [] (path k)) {as : List (Action K)}
    (hrun : Transition.run (step path) [] as = some threads) :
    ∀ t ∈ threads, Disciplined (ok t.call) t.held t.rest := by
  refine Transition.invariant_of_run
    (I := fun threads ↦ ∀ t ∈ threads, Disciplined (ok t.call) t.held t.rest)
    (fun threads a threads' hs h ↦ ?_) (by simp) hrun
  rcases step_cases h with ⟨call, -, rfl⟩ | hmoves
  · intro t ht
    rcases List.mem_append.mp ht with ht | ht
    · exact hs t ht
    · rw [List.mem_singleton.mp ht]
      exact hpath call
  · refine forall_mem_of_forall₂ hmoves (fun t t' hm ht ↦ ?_) hs
    rw [hm.call_eq]
    exact ht.move hm

/-- A thread that waits holds what is allowed. -/
theorem Disciplined.of_waitsFor {ok : List (L × Mode) → L × Mode → Prop}
    (h : Disciplined ok t.held t.rest) (hw : t.waitsFor = some x) : ok t.held x := by
  obtain ⟨rest, hrest⟩ := waits_cases hw
  rw [hrest] at h
  exact h.1

end Locks

end UsnetSockets
