import Mathlib.Logic.Relation

/-!
# Runs of a partial step function

A system is given by a step function `σ → α → Option σ`: the state after an action, or `none` when
the action is not possible. A run is the result of a list of actions. Since every prefix of a run is
a run, a statement about the state after an arbitrary run is one about every state reached.

Invariants are proved for one step and hold for runs. Where the step preserves a property only under
a condition, the condition is imposed on every step of the run (`Along`).
-/

namespace UsnetSockets

namespace Transition

variable {σ α : Type*} {step : σ → α → Option σ}

/-- The state after the actions, if each of them is possible in its turn. -/
def run (step : σ → α → Option σ) : σ → List α → Option σ
  | s, [] => some s
  | s, a :: as => (step s a).bind fun s' ↦ run step s' as

/-- Each action of the run meets the condition in the state in which it is taken. -/
def Along (step : σ → α → Option σ) (C : σ → α → Prop) : σ → List α → Prop
  | _, [] => True
  | s, a :: as => C s a ∧ ∀ s', step s a = some s' → Along step C s' as

@[simp] theorem run_nil (s : σ) : run step s [] = some s := rfl

@[simp] theorem along_nil {C : σ → α → Prop} (s : σ) : Along step C s [] := trivial

theorem run_cons_eq_some {s s' : σ} {a : α} {as : List α} :
    run step s (a :: as) = some s' ↔ ∃ t, step s a = some t ∧ run step t as = some s' :=
  Option.bind_eq_some_iff

theorem run_append_eq_some {s s' : σ} {as bs : List α} :
    run step s (as ++ bs) = some s' ↔ ∃ t, run step s as = some t ∧ run step t bs = some s' := by
  induction as generalizing s with
  | nil => simp
  | cons a as ih =>
    simp only [List.cons_append, run_cons_eq_some, ih]
    constructor
    · rintro ⟨u, hu, t, ht, hrest⟩
      exact ⟨t, ⟨u, hu, ht⟩, hrest⟩
    · rintro ⟨t, ⟨u, hu, ht⟩, hrest⟩
      exact ⟨u, hu, t, ht, hrest⟩

theorem run_snoc_eq_some {s s' : σ} {as : List α} {a : α} :
    run step s (as ++ [a]) = some s' ↔ ∃ t, run step s as = some t ∧ step t a = some s' := by
  rw [run_append_eq_some]
  simp [run_cons_eq_some]

theorem along_cons_of_step {C : σ → α → Prop} {s t : σ} {a : α} {as : List α}
    (h : step s a = some t) : Along step C s (a :: as) ↔ C s a ∧ Along step C t as := by
  rw [Along, h]
  simp

theorem along_of_forall {C : α → Prop} {as : List α} (h : ∀ a ∈ as, C a) :
    ∀ s, Along step (fun _ ↦ C) s as := by
  induction as with
  | nil => exact fun _ ↦ trivial
  | cons a as ih =>
    rw [List.forall_mem_cons] at h
    exact fun s ↦ ⟨h.1, fun s' _ ↦ ih h.2 s'⟩

/-- An invariant of the actions of the run that gives the condition for each of them. -/
theorem along_of_invariant {I : σ → Prop} {C : σ → α → Prop} {s : σ} {as : List α} (hs : I s)
    (hC : ∀ s, ∀ a ∈ as, I s → C s a)
    (hstep : ∀ s a s', a ∈ as → I s → step s a = some s' → I s') : Along step C s as := by
  induction as generalizing s with
  | nil => exact trivial
  | cons a as ih =>
    refine ⟨hC s a List.mem_cons_self hs, fun s' hs' ↦ ih ?_ ?_ ?_⟩
    · exact hstep s a s' List.mem_cons_self hs hs'
    · exact fun t b hb ↦ hC t b (List.mem_cons_of_mem a hb)
    · exact fun t b t' hb ↦ hstep t b t' (List.mem_cons_of_mem a hb)

/-- A condition on every step is one on every state from which the run takes a step. -/
theorem along_iff_forall {C : σ → α → Prop} {s : σ} {as : List α} : Along step C s as ↔
    ∀ before a after t, as = before ++ a :: after → run step s before = some t → C t a := by
  induction as generalizing s with
  | nil => simp
  | cons b as ih =>
    constructor
    · rintro ⟨hb, hrest⟩ before a after t he ht
      cases before with
      | nil =>
        obtain ⟨rfl, -⟩ := List.cons.inj he
        rw [run_nil, Option.some_inj] at ht
        rwa [← ht]
      | cons b' before =>
        obtain ⟨rfl, hrest'⟩ := List.cons.inj he
        obtain ⟨u, hu, ht⟩ := run_cons_eq_some.mp ht
        exact ih.mp (hrest u hu) before a after t hrest' ht
    · intro h
      refine ⟨h [] b as s rfl rfl, fun u hu ↦ ih.mpr fun before a after t he ht ↦ ?_⟩
      exact h (b :: before) a after t (by rw [he]; rfl) (run_cons_eq_some.mpr ⟨u, hu, ht⟩)

/-- **Invariants under a condition.** What each step keeps when it meets the condition is kept by a
run all of whose steps meet it. -/
theorem invariant_of_along {I : σ → Prop} {C : σ → α → Prop}
    (hstep : ∀ s a s', I s → C s a → step s a = some s' → I s') {s s' : σ} {as : List α}
    (hs : I s) (hC : Along step C s as) (hrun : run step s as = some s') : I s' := by
  induction as generalizing s with
  | nil =>
    rw [run_nil, Option.some_inj] at hrun
    rwa [← hrun]
  | cons a as ih =>
    obtain ⟨t, ht, hrun⟩ := run_cons_eq_some.mp hrun
    exact ih (hstep s a t hs hC.1 ht) (hC.2 t ht) hrun

/-- **Invariants.** What each step keeps is kept by every run. -/
theorem invariant_of_run {I : σ → Prop} (hstep : ∀ s a s', I s → step s a = some s' → I s')
    {s s' : σ} {as : List α} (hs : I s) (hrun : run step s as = some s') : I s' := by
  induction as generalizing s with
  | nil =>
    rw [run_nil, Option.some_inj] at hrun
    rwa [← hrun]
  | cons a as ih =>
    obtain ⟨t, ht, hrun⟩ := run_cons_eq_some.mp hrun
    exact ih (hstep s a t hs ht) hrun

/-- A property that a step keeps exactly when it meets a condition holds after a run exactly when it
held before and all steps meet the condition. -/
theorem iff_along_of_run {P : σ → Prop} {C : σ → α → Prop}
    (hstep : ∀ s a s', step s a = some s' → (P s' ↔ P s ∧ C s a)) {s s' : σ} {as : List α}
    (hrun : run step s as = some s') : P s' ↔ P s ∧ Along step C s as := by
  induction as generalizing s with
  | nil =>
    rw [run_nil, Option.some_inj] at hrun
    simp [← hrun]
  | cons a as ih =>
    obtain ⟨t, ht, hrun⟩ := run_cons_eq_some.mp hrun
    rw [ih hrun, hstep s a t ht, Along, and_assoc]
    refine and_congr_right fun _ ↦ and_congr_right fun _ ↦ ⟨fun h s' hs' ↦ ?_, fun h ↦ h t ht⟩
    rw [ht, Option.some_inj] at hs'
    rwa [← hs']

/-- A property that a step keeps exactly when it meets a condition holds in all states of a run that
begins with it exactly when all steps meet the condition. -/
theorem forall_prefix_iff_along {I : σ → Prop} {C : σ → α → Prop}
    (hstep : ∀ s a s', I s → step s a = some s' → (I s' ↔ C s a)) {s s' : σ} {as : List α}
    (hs : I s) (hrun : run step s as = some s') :
    (∀ before after t, as = before ++ after → run step s before = some t → I t) ↔
      Along step C s as := by
  induction as generalizing s with
  | nil =>
    refine ⟨fun _ ↦ trivial, fun _ before after t he ht ↦ ?_⟩
    rw [(List.append_eq_nil_iff.mp he.symm).1, run_nil, Option.some_inj] at ht
    rwa [← ht]
  | cons a as ih =>
    obtain ⟨u, hu, hrun⟩ := run_cons_eq_some.mp hrun
    rw [along_cons_of_step hu]
    constructor
    · intro h
      have hIu : I u := h [a] as u rfl (run_cons_eq_some.mpr ⟨u, hu, rfl⟩)
      refine ⟨(hstep s a u hs hu).mp hIu, (ih hIu hrun).mp fun before after t he ht ↦ ?_⟩
      exact h (a :: before) after t (by rw [he]; rfl) (run_cons_eq_some.mpr ⟨u, hu, ht⟩)
    · rintro ⟨hC, hrest⟩ before after t he ht
      cases before with
      | nil =>
        rw [run_nil, Option.some_inj] at ht
        rwa [← ht]
      | cons b before =>
        obtain ⟨rfl, hrest'⟩ := List.cons.inj he
        obtain ⟨u', hu', ht⟩ := run_cons_eq_some.mp ht
        obtain rfl := Option.some.inj (hu.symm.trans hu')
        have hIu : I u := (hstep s a u hs hu).mpr hC
        exact (ih hIu hrun).mpr hrest before after t hrest' ht

/-! ## Runs with a log -/

section Logged

variable {β : Type*} {f : σ → α → List β}

/-- The system with a log next to its state, to which each step adds what `f` says about it. -/
def logged (step : σ → α → Option σ) (f : σ → α → List β) (x : σ × List β) (a : α) :
    Option (σ × List β) :=
  (step x.1 a).map fun s ↦ (s, x.2 ++ f x.1 a)

theorem logged_eq_some {x y : σ × List β} {a : α} :
    logged step f x a = some y ↔ ∃ s, step x.1 a = some s ∧ y = (s, x.2 ++ f x.1 a) := by
  rw [logged, Option.map_eq_some_iff]
  exact exists_congr fun s ↦ and_congr_right fun _ ↦ eq_comm

/-- The log does not get in the way of the system. -/
theorem exists_run_logged_iff {x : σ × List β} {s' : σ} {as : List α} :
    (∃ log, run (logged step f) x as = some (s', log)) ↔ run step x.1 as = some s' := by
  induction as generalizing x with
  | nil =>
    obtain ⟨s, log⟩ := x
    simp
  | cons a as ih =>
    simp only [run_cons_eq_some, logged_eq_some]
    constructor
    · rintro ⟨log, y, ⟨t, ht, rfl⟩, hrest⟩
      exact ⟨t, ht, ih.mp ⟨log, hrest⟩⟩
    · rintro ⟨t, ht, hrest⟩
      obtain ⟨log, hlog⟩ := ih (x := (t, x.2 ++ f x.1 a)).mpr hrest
      exact ⟨log, _, ⟨t, ht, rfl⟩, hlog⟩

end Logged

end Transition

end UsnetSockets
