import Mathlib.Data.Finset.Card
import Mathlib.Data.Fintype.Pigeonhole

/-!
# Outcomes of a program, and loops

A fallible program ends with a value, with an error of its own, or in a panic. A loop may also not
end at all, so loops are run on fuel and a run that is cut short is the fourth outcome,
`outOfFuel`. More fuel never changes a finished run, so a loop *halts* when some fuel finishes it.
Programs with loops inside are functions of the fuel; what a sequence of two such programs returns,
and whether it ends or panics, is determined by its parts.

The last part is about the orbits of a partial function whose values lie in a finite set: such an
orbit stops, or it runs into a cycle. This is what decides whether a loop that only jumps between
finitely many places halts.
-/

namespace UsnetSockets

/-- How a run ends: `ok` and `err` are the two results the program returns, `panic` aborts it, and
`outOfFuel` says that the run was cut short. -/
inductive Outcome (ε α : Type) where
  | ok (a : α)
  | err (e : ε)
  | panic
  | outOfFuel
  deriving DecidableEq

namespace Outcome

variable {ε α β σ : Type}

/-- Go on with the value, and leave on everything else. -/
protected def bind : Outcome ε α → (α → Outcome ε β) → Outcome ε β
  | ok a, f => f a
  | err e, _ => err e
  | panic, _ => panic
  | outOfFuel, _ => outOfFuel

instance : Monad (Outcome ε) where
  pure := ok
  bind := Outcome.bind

@[simp] theorem pure_eq (a : α) : (pure a : Outcome ε α) = ok a := rfl

@[simp] theorem ok_bind (a : α) (f : α → Outcome ε β) : (ok a >>= f) = f a := rfl

@[simp] theorem err_bind (e : ε) (f : α → Outcome ε β) : (err e >>= f) = err e := rfl

@[simp] theorem panic_bind (f : α → Outcome ε β) : ((panic : Outcome ε α) >>= f) = panic := rfl

@[simp] theorem outOfFuel_bind (f : α → Outcome ε β) :
    ((outOfFuel : Outcome ε α) >>= f) = outOfFuel := rfl

theorem bind_bind {γ : Type} (x : Outcome ε α) (f : α → Outcome ε β) (g : β → Outcome ε γ) :
    (x >>= f >>= g) = x >>= fun a ↦ f a >>= g := by
  cases x <;> rfl

theorem bind_eq_ok {x : Outcome ε α} {f : α → Outcome ε β} {b : β} :
    (x >>= f) = ok b ↔ ∃ a, x = ok a ∧ f a = ok b := by
  cases x <;> simp

theorem bind_eq_panic {x : Outcome ε α} {f : α → Outcome ε β} :
    (x >>= f) = panic ↔ x = panic ∨ ∃ a, x = ok a ∧ f a = panic := by
  cases x <;> simp

theorem bind_eq_outOfFuel {x : Outcome ε α} {f : α → Outcome ε β} :
    (x >>= f) = outOfFuel ↔ x = outOfFuel ∨ ∃ a, x = ok a ∧ f a = outOfFuel := by
  cases x <;> simp

theorem bind_ne_panic {x : Outcome ε α} {f : α → Outcome ε β} (hx : x ≠ panic)
    (hf : ∀ a, x = ok a → f a ≠ panic) : (x >>= f) ≠ panic := by
  rw [Ne, bind_eq_panic]
  rintro (h | ⟨a, ha, h⟩)
  · exact hx h
  · exact hf a ha h

theorem bind_ne_outOfFuel {x : Outcome ε α} {f : α → Outcome ε β} (hx : x ≠ outOfFuel)
    (hf : ∀ a, x = ok a → f a ≠ outOfFuel) : (x >>= f) ≠ outOfFuel := by
  rw [Ne, bind_eq_outOfFuel]
  rintro (h | ⟨a, ha, h⟩)
  · exact hx h
  · exact hf a ha h

/-- Another type of errors, by which a program is left when it calls one with errors of its own. -/
def mapErr {ε' : Type} (f : ε → ε') : Outcome ε α → Outcome ε' α
  | ok a => ok a
  | err e => err (f e)
  | panic => panic
  | outOfFuel => outOfFuel

@[simp] theorem mapErr_eq_ok {ε' : Type} {f : ε → ε'} {x : Outcome ε α} {a : α} :
    x.mapErr f = ok a ↔ x = ok a := by
  cases x <;> simp [mapErr]

/-! ## Loops

The body of a loop either goes on with a new state (`inl`), breaks with a result (`inr`), or leaves
the program by an error or a panic. -/

/-- Run the loop with the given body for at most `n` passes. -/
def loop (body : σ → Outcome ε (σ ⊕ β)) : ℕ → σ → Outcome ε β
  | 0, _ => outOfFuel
  | n + 1, s => body s >>= fun
    | .inl s' => loop body n s'
    | .inr b => ok b

variable {body : σ → Outcome ε (σ ⊕ β)}

@[simp] theorem loop_zero (s : σ) : loop body 0 s = outOfFuel := rfl

theorem loop_of_continue {s s' : σ} (h : body s = ok (.inl s')) (n : ℕ) :
    loop body (n + 1) s = loop body n s' := by
  rw [loop, h, ok_bind]

/-- More fuel does not change a run that has finished. -/
theorem loop_mono {n m : ℕ} (hnm : n ≤ m) {s : σ} (h : loop body n s ≠ outOfFuel) :
    loop body m s = loop body n s := by
  induction n generalizing m s with
  | zero => exact absurd rfl h
  | succ n ih =>
    obtain ⟨m, rfl⟩ : ∃ k, m = k + 1 := ⟨m - 1, by omega⟩
    rw [loop, loop] at *
    cases hb : body s with
    | ok r =>
      rw [hb] at h
      cases r with
      | inl s' =>
        rw [ok_bind] at h
        simp only [ok_bind]
        exact ih (by omega) h
      | inr b => rfl
    | err e => rfl
    | panic => rfl
    | outOfFuel => rfl

/-- A loop halts when some amount of fuel finishes it. -/
def Halts (body : σ → Outcome ε (σ ⊕ β)) (s : σ) : Prop := ∃ n, loop body n s ≠ outOfFuel

/-- One pass neither makes nor breaks halting. -/
theorem halts_iff_of_continue {s s' : σ} (h : body s = ok (.inl s')) :
    Halts body s ↔ Halts body s' := by
  constructor
  · rintro ⟨n, hn⟩
    cases n with
    | zero => exact absurd rfl hn
    | succ n => exact ⟨n, by rwa [loop_of_continue h] at hn⟩
  · rintro ⟨n, hn⟩
    exact ⟨n + 1, by rwa [loop_of_continue h]⟩

/-- A body that does not go on, and does not itself run out of fuel, ends the loop. -/
theorem halts_of_not_continue {s : σ} (hfuel : body s ≠ outOfFuel)
    (h : ∀ s', body s ≠ ok (.inl s')) : Halts body s := by
  refine ⟨1, ?_⟩
  rw [loop]
  refine bind_ne_outOfFuel hfuel fun r hr ↦ ?_
  cases r with
  | inl s' => exact absurd hr (h s')
  | inr b => simp

/-- A set of states in which the loop always goes on is never left. -/
theorem not_halts_of_invariant {I : σ → Prop}
    (hI : ∀ s, I s → ∃ s', body s = ok (.inl s') ∧ I s') {s : σ} (hs : I s) :
    ¬Halts body s := by
  rintro ⟨n, hn⟩
  induction n generalizing s with
  | zero => exact hn rfl
  | succ n ih =>
    obtain ⟨s', hb, hs'⟩ := hI s hs
    rw [loop_of_continue hb] at hn
    exact ih hs' hn

/-- What holds before every pass and what a break then gives holds of the result. -/
theorem loop_ok_of_invariant {I : σ → Prop} {J : β → Prop}
    (hcont : ∀ s s', I s → body s = ok (.inl s') → I s')
    (hbreak : ∀ s b, I s → body s = ok (.inr b) → J b) :
    ∀ {n : ℕ} {s : σ} {b : β}, I s → loop body n s = ok b → J b := by
  intro n
  induction n with
  | zero => intro s b _ h; exact absurd h (by simp)
  | succ n ih =>
    intro s b hs h
    rw [loop, bind_eq_ok] at h
    obtain ⟨x, hx, h⟩ := h
    cases x with
    | inl s' => exact ih (hcont s s' hs hx) h
    | inr b' =>
      cases h
      exact hbreak s b hs hx

/-- A loop whose passes do not panic does not panic. -/
theorem loop_ne_panic (hbody : ∀ s, body s ≠ panic) : ∀ {n : ℕ} {s : σ}, loop body n s ≠ panic := by
  intro n
  induction n with
  | zero => intro s; simp
  | succ n ih =>
    intro s
    rw [loop]
    refine bind_ne_panic (hbody s) fun x _ ↦ ?_
    cases x with
    | inl s' => exact ih
    | inr b => simp

/-! ## Programs on fuel

A program with loops inside is a function of the fuel that its loops are given. It is *stable* when
more fuel does not change a finished run; then it makes sense to say what the program does without
naming the fuel, and what a sequence of two programs does follows from what each does. -/

/-- More fuel does not change a finished run. -/
def Stable (c : ℕ → Outcome ε α) : Prop :=
  ∀ ⦃n m : ℕ⦄, n ≤ m → c n ≠ outOfFuel → c m = c n

/-- The two ways in which a program on fuel fails to give a result. -/
inductive Failure where
  | panics
  | diverges

/-- The program panics with enough fuel, or no fuel is enough for it. -/
def Fails : Failure → (ℕ → Outcome ε α) → Prop
  | .panics, c => ∃ n, c n = panic
  | .diverges, c => ∀ n, c n = outOfFuel

/-- With enough fuel the program returns the value. -/
def Returns (c : ℕ → Outcome ε α) (a : α) : Prop := ∃ n, c n = ok a

theorem stable_const (x : Outcome ε α) : Stable fun _ ↦ x := fun _ _ _ _ ↦ rfl

theorem stable_loop (s : σ) : Stable fun n ↦ loop body n s := fun _ _ hnm h ↦ loop_mono hnm h

@[simp] theorem returns_const_iff {x : Outcome ε α} {a : α} :
    Returns (fun _ ↦ x) a ↔ x = ok a := exists_const ℕ

/-- A pass that goes on does not change what the loop returns. -/
theorem returns_loop_iff_of_continue {s s' : σ} {b : β} (h : body s = ok (.inl s')) :
    Returns (fun n ↦ loop body n s) b ↔ Returns (fun n ↦ loop body n s') b := by
  constructor
  · rintro ⟨n, hn⟩
    cases n with
    | zero => exact absurd hn (by simp)
    | succ n => exact ⟨n, (loop_of_continue h n).symm.trans hn⟩
  · rintro ⟨n, hn⟩
    exact ⟨n + 1, (loop_of_continue h n).trans hn⟩

/-- A pass that breaks gives the result of the loop. -/
theorem returns_loop_iff_of_break {s : σ} {b b' : β} (h : body s = ok (.inr b)) :
    Returns (fun n ↦ loop body n s) b' ↔ b = b' := by
  have hloop (n : ℕ) : loop body (n + 1) s = ok b := by rw [loop, h, ok_bind]
  constructor
  · rintro ⟨n, hn⟩
    cases n with
    | zero => exact absurd hn (by simp)
    | succ n => exact ok.inj ((hloop n).symm.trans hn)
  · rintro rfl
    exact ⟨1, hloop 0⟩

@[simp] theorem not_fails_ok (F : Failure) (a : α) :
    ¬Fails F (fun _ ↦ (ok a : Outcome ε α)) := by
  cases F <;> simp [Fails]

variable {c : ℕ → Outcome ε α} {k : ℕ → α → Outcome ε β}

theorem returns_map_iff {h : α → β} {b : β} :
    Returns (fun n ↦ c n >>= fun a ↦ ok (h a)) b ↔ ∃ a, Returns c a ∧ h a = b := by
  constructor
  · rintro ⟨n, hn⟩
    obtain ⟨a, ha, hb⟩ := bind_eq_ok.mp hn
    exact ⟨a, ⟨n, ha⟩, ok.inj hb⟩
  · rintro ⟨a, ⟨n, hn⟩, rfl⟩
    exact ⟨n, by simp only [hn, ok_bind]⟩

/-- What is done to the value at the end does not matter for failing. -/
theorem fails_map_iff (F : Failure) {h : α → β} :
    Fails F (fun n ↦ c n >>= fun a ↦ ok (h a)) ↔ Fails F c := by
  cases F <;> simp [Fails, bind_eq_panic, bind_eq_outOfFuel]

/-- A sequence whose second part needs no fuel diverges exactly when its first part does. -/
theorem diverges_bind_iff (hk : ∀ n a, k n a ≠ outOfFuel) :
    Fails .diverges (fun n ↦ c n >>= k n) ↔ Fails .diverges c := by
  refine forall_congr' fun n ↦ ?_
  rw [bind_eq_outOfFuel]
  refine ⟨?_, Or.inl⟩
  rintro (h | ⟨a, -, h⟩)
  · exact h
  · exact absurd h (hk n a)

theorem Stable.eq_of_ne (hc : Stable c) {n m : ℕ} (hn : c n ≠ outOfFuel) (hm : c m ≠ outOfFuel) :
    c n = c m :=
  (hc (le_max_left n m) hn).symm.trans (hc (le_max_right n m) hm)

/-- A program returns at most one value. -/
theorem Stable.returns_unique (hc : Stable c) {a b : α} (ha : Returns c a) (hb : Returns c b) :
    a = b := by
  obtain ⟨n, hn⟩ := ha
  obtain ⟨m, hm⟩ := hb
  have he := hc.eq_of_ne (n := n) (m := m) (by simp [hn]) (by simp [hm])
  rw [hn, hm] at he
  exact ok.inj he

theorem Stable.bind (hc : Stable c) (hk : ∀ a, Stable fun n ↦ k n a) :
    Stable fun n ↦ c n >>= k n := by
  intro n m hnm h
  have hcn : c n ≠ outOfFuel := fun h0 ↦ h (by simp only [h0, outOfFuel_bind])
  simp only [hc hnm hcn]
  cases hx : c n with
  | ok a =>
    simp only [hx, ok_bind] at h ⊢
    exact hk a hnm h
  | err e => rfl
  | panic => rfl
  | outOfFuel => rfl

/-- Whatever handles the outcome of a program has to pass on that it was cut short. -/
theorem Stable.comp {ε' : Type} {g : Outcome ε α → Outcome ε' β} (hc : Stable c)
    (hg : g outOfFuel = outOfFuel) : Stable fun n ↦ g (c n) := by
  intro n m hnm h
  have hcn : c n ≠ outOfFuel := fun h0 ↦ h (by simp only [h0, hg])
  simp only [hc hnm hcn]

/-- Once the first program has returned `a` at some fuel, any run of the second can be run behind
it. -/
private theorem Stable.exists_bind_eq (hc : Stable c) (hk : ∀ a, Stable fun n ↦ k n a) {a : α}
    (hret : Returns c a) {x : Outcome ε β} (hx : x ≠ outOfFuel) (hrun : ∃ m, k m a = x) :
    ∃ n, (c n >>= k n) = x := by
  obtain ⟨n, hn⟩ := hret
  obtain ⟨m, rfl⟩ := hrun
  refine ⟨max n m, ?_⟩
  rw [hc (le_max_left n m) (by simp [hn]), hn, ok_bind]
  exact hk a (le_max_right n m) hx

theorem returns_bind_iff (hc : Stable c) (hk : ∀ a, Stable fun n ↦ k n a) {b : β} :
    Returns (fun n ↦ c n >>= k n) b ↔ ∃ a, Returns c a ∧ Returns (fun n ↦ k n a) b := by
  constructor
  · rintro ⟨n, hn⟩
    obtain ⟨a, ha, hb⟩ := bind_eq_ok.mp hn
    exact ⟨a, ⟨n, ha⟩, n, hb⟩
  · rintro ⟨a, ha, hb⟩
    exact hc.exists_bind_eq hk ha (by simp) hb

/-- A sequence fails when its first part does, or when the first part returns a value that the
second one fails on. -/
theorem fails_bind_iff (F : Failure) (hc : Stable c) (hk : ∀ a, Stable fun n ↦ k n a) :
    Fails F (fun n ↦ c n >>= k n) ↔ Fails F c ∨ ∃ a, Returns c a ∧ Fails F fun n ↦ k n a := by
  cases F with
  | panics =>
    constructor
    · rintro ⟨n, hn⟩
      rcases bind_eq_panic.mp hn with h | ⟨a, ha, h⟩
      · exact Or.inl ⟨n, h⟩
      · exact Or.inr ⟨a, ⟨n, ha⟩, n, h⟩
    · rintro (⟨n, hn⟩ | ⟨a, ha, h⟩)
      · exact ⟨n, by simp only [hn, panic_bind]⟩
      · exact hc.exists_bind_eq hk ha (by simp) h
  | diverges =>
    constructor
    · intro h
      by_contra hno
      push Not at hno
      obtain ⟨hfirst, hsecond⟩ := hno
      simp only [Fails, not_forall] at hfirst
      obtain ⟨n, hn⟩ := hfirst
      rcases bind_eq_outOfFuel.mp (h n) with h0 | ⟨a, ha, -⟩
      · exact hn h0
      · have hm := hsecond a ⟨n, ha⟩
        simp only [Fails, not_forall] at hm
        obtain ⟨m, hm⟩ := hm
        obtain ⟨l, hl⟩ := hc.exists_bind_eq hk ⟨n, ha⟩ hm ⟨m, rfl⟩
        exact hm (hl.symm.trans (h l))
    · rintro (h | ⟨a, ⟨m, hm⟩, h⟩) n
      · simp only [h n, outOfFuel_bind]
      · by_cases hn : c n = outOfFuel
        · simp only [hn, outOfFuel_bind]
        · simp only [hc.eq_of_ne hn (m := m) (by simp [hm]), hm, ok_bind]
          exact h n

/-! ## Loops with programs on fuel inside

The body of such a loop is a program on fuel itself. The states that the loop gets to do not depend
on the fuel, as long as there is enough of it for each pass. -/

/-- The states that a loop gets to. -/
inductive Reaches (body : ℕ → σ → Outcome ε (σ ⊕ β)) (s₀ : σ) : σ → Prop
  | start : Reaches body s₀ s₀
  | again {s s' : σ} (h : Reaches body s₀ s) (hbody : Returns (fun n ↦ body n s) (.inl s')) :
      Reaches body s₀ s'

section Reaches

variable {body : ℕ → σ → Outcome ε (σ ⊕ β)} {s₀ s : σ}

/-- The passes so far can be left out. -/
theorem Reaches.exists_loop_eq (hbody : ∀ s, Stable fun n ↦ body n s) (h : Reaches body s₀ s) :
    ∃ m k, ∀ n ≥ m, ∀ j, loop (body n) (j + k) s₀ = loop (body n) j s := by
  induction h with
  | start => exact ⟨0, 0, fun _ _ _ ↦ rfl⟩
  | again h hpass ih =>
    obtain ⟨m, k, hloop⟩ := ih
    obtain ⟨m', hm'⟩ := hpass
    refine ⟨max m m', k + 1, ?_⟩
    intro n hn j
    have hcontinue := (hbody _ (le_of_max_le_right hn) (by simp [hm'])).trans hm'
    rw [← Nat.add_assoc, Nat.add_right_comm, hloop n (le_of_max_le_left hn)]
    exact loop_of_continue hcontinue j

/-- With enough fuel a loop ends as its last pass does. -/
theorem Reaches.exists_loop_eq_of_ne (hbody : ∀ s, Stable fun n ↦ body n s)
    (h : Reaches body s₀ s) (n₀ : ℕ) (hfuel : body n₀ s ≠ outOfFuel)
    (hlast : ∀ s', body n₀ s ≠ ok (.inl s')) :
    ∃ m, ∀ n ≥ m, loop (body n) n s₀ = loop (body n₀) 1 s := by
  obtain ⟨m, k, hloop⟩ := h.exists_loop_eq hbody
  refine ⟨max (max m n₀) (k + 1), ?_⟩
  intro n hn
  obtain ⟨j, rfl⟩ : ∃ j, n = j + 1 + k := ⟨n - (k + 1), by omega⟩
  have hpass : body (j + 1 + k) s = body n₀ s := hbody s (by omega) hfuel
  rw [hloop _ (by omega), loop, loop, hpass]
  cases hx : body n₀ s with
  | ok x =>
    cases x with
    | inl s' => exact absurd hx (hlast s')
    | inr b => rfl
  | err e => rfl
  | panic => rfl
  | outOfFuel => rfl

end Reaches

end Outcome

/-! ## Orbits of a partial function -/

namespace Orbit

variable {α : Type} {f : α → Option α}

/-- The point `k` steps along, if the orbit gets that far. -/
def iter (f : α → Option α) : ℕ → α → Option α
  | 0, a => some a
  | k + 1, a => (iter f k a).bind f

@[simp] theorem iter_zero (a : α) : iter f 0 a = some a := rfl

theorem iter_succ (k : ℕ) (a : α) : iter f (k + 1) a = (iter f k a).bind f := rfl

theorem iter_add (j k : ℕ) (a : α) : iter f (j + k) a = (iter f j a).bind (iter f k) := by
  induction k with
  | zero => simp [iter]
  | succ k ih =>
    rw [← Nat.add_assoc, iter_succ, ih, Option.bind_assoc]
    rfl

theorem iter_succ' {a b : α} (h : f a = some b) (k : ℕ) : iter f (k + 1) a = iter f k b := by
  rw [Nat.add_comm, iter_add]
  simp [iter_succ, h]

/-- The point comes back to itself. -/
def OnCycle (f : α → Option α) (a : α) : Prop := ∃ k, iter f (k + 1) a = some a

/-- The successor of a point on a cycle is defined and again on a cycle. -/
theorem OnCycle.next {a : α} (h : OnCycle f a) : ∃ b, f a = some b ∧ OnCycle f b := by
  obtain ⟨k, hk⟩ := h
  cases hb : f a with
  | none =>
    rw [Nat.add_comm, iter_add] at hk
    simp [iter_succ, hb] at hk
  | some b =>
    rw [iter_succ' hb] at hk
    refine ⟨b, rfl, k, ?_⟩
    rw [iter_succ, hk, Option.bind_some, hb]

/-- **Stop or cycle.** An orbit of a function with finitely many values stops, or one of its points
is on a cycle. -/
theorem exists_stop_or_cycle (S : Finset α) (hS : ∀ a b, f a = some b → b ∈ S) (a : α) :
    (∃ k, iter f k a = none) ∨ ∃ k b, iter f k a = some b ∧ OnCycle f b := by
  by_cases hstop : ∃ k, iter f k a = none
  · exact Or.inl hstop
  · push Not at hstop
    right
    have hsome : ∀ k, ∃ b, iter f k a = some b := fun k ↦ Option.ne_none_iff_exists'.mp (hstop k)
    choose g hg using hsome
    have hmem : ∀ k, g (k + 1) ∈ S := by
      intro k
      have h := hg (k + 1)
      rw [iter_succ, hg k, Option.bind_some] at h
      exact hS _ _ h
    -- infinitely many points in a finite set: two of them coincide
    obtain ⟨i, j, hne, hij⟩ :=
      Finite.exists_ne_map_eq_of_infinite fun k : ℕ ↦ (⟨g (k + 1), hmem k⟩ : S)
    have hij' : g (i + 1) = g (j + 1) := congrArg Subtype.val hij
    have hback : ∀ {i j : ℕ}, i < j → g (i + 1) = g (j + 1) → OnCycle f (g (i + 1)) := by
      intro i j hlt he
      refine ⟨j - i - 1, ?_⟩
      have h := hg (j + 1)
      rw [show j + 1 = i + 1 + (j - i - 1 + 1) from by omega, iter_add, hg (i + 1),
        Option.bind_some] at h
      rw [h, he, show i + 1 + (j - i - 1 + 1) = j + 1 from by omega]
    rcases Nat.lt_or_gt_of_ne hne with h | h
    · exact ⟨i + 1, g (i + 1), hg _, hback h hij'⟩
    · exact ⟨j + 1, g (j + 1), hg _, hback h hij'.symm⟩

end Orbit

end UsnetSockets
