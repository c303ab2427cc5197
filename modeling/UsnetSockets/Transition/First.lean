import Mathlib.Data.Nat.Find
import Mathlib.Data.List.Basic

/-!
# The first of its kind

A loop that looks at one thing after another and stops at the first one of some kind is described by
`FirstAt`: which element of the list of looks that is, and where it stands.
-/

namespace UsnetSockets

variable {α : Type*} {p q : α → Prop} {xs : List α} {x y : α} {j k : ℕ}

/-- The element `x` is the first one that has the property `p`, and it has the index `k`. -/
def FirstAt (p : α → Prop) (xs : List α) (k : ℕ) (x : α) : Prop :=
  xs[k]? = some x ∧ p x ∧ ∀ j < k, ∀ y, xs[j]? = some y → ¬p y

namespace FirstAt

theorem not_nil : ¬FirstAt p [] k x := by
  intro h
  exact absurd h.1 (by simp)

theorem cons_zero_iff : FirstAt p (y :: xs) 0 x ↔ y = x ∧ p x := by
  simp [FirstAt]

theorem cons_succ_iff : FirstAt p (y :: xs) (k + 1) x ↔ ¬p y ∧ FirstAt p xs k x := by
  constructor
  · rintro ⟨hx, hp, hbefore⟩
    refine ⟨hbefore 0 k.succ_pos y rfl, hx, hp, ?_⟩
    intro j hj z hz
    exact hbefore (j + 1) (Nat.succ_lt_succ hj) z hz
  · rintro ⟨hy, hx, hp, hbefore⟩
    refine ⟨hx, hp, ?_⟩
    intro j hj z hz
    rcases j with _ | j
    · rw [← Option.some.inj hz]
      exact hy
    · exact hbefore j (Nat.lt_of_succ_lt_succ hj) z hz

theorem eq_of_getElem? (h : FirstAt p xs k x) (hy : xs[k]? = some y) : x = y :=
  Option.some.inj (h.1.symm.trans hy)

/-- Whatever has the property, the first one that has it does not come later. -/
theorem exists_le (hx : xs[k]? = some x) (hp : p x) : ∃ j ≤ k, ∃ y, FirstAt p xs j y := by
  classical
  have hex : ∃ j, ∃ y, xs[j]? = some y ∧ p y := ⟨k, x, hx, hp⟩
  obtain ⟨y, hy, hpy⟩ := Nat.find_spec hex
  refine ⟨Nat.find hex, Nat.find_le ⟨x, hx, hp⟩, y, hy, hpy, ?_⟩
  intro j hj z hz hpz
  exact Nat.find_min hex hj ⟨z, hz, hpz⟩

end FirstAt

/-- The element with the index `n` is the first one of an infinite sequence that has the
property `p`. -/
def FirstIn (p : α → Prop) (f : ℕ → α) (n : ℕ) : Prop :=
  p (f n) ∧ ∀ j < n, ¬p (f j)

theorem FirstIn.exists_le {f : ℕ → α} (hp : p (f k)) : ∃ j ≤ k, FirstIn p f j := by
  classical
  have hex : ∃ j, p (f j) := ⟨k, hp⟩
  exact ⟨Nat.find hex, Nat.find_le hp, Nat.find_spec hex, fun _ hj ↦ Nat.find_min hex hj⟩

/-- A loop that sees the sequence only up to `m` finds the first element if it comes before. -/
theorem firstAt_map_range_iff {f : ℕ → α} {m n : ℕ} :
    FirstAt p ((List.range m).map f) n x ↔ n < m ∧ f n = x ∧ FirstIn p f n := by
  have hget : ∀ i y, ((List.range m).map f)[i]? = some y ↔ i < m ∧ f i = y := by
    intro i y
    by_cases hi : i < m
    · simp [hi]
    · simp [hi]
  constructor
  · rintro ⟨hx, hp, hbefore⟩
    obtain ⟨hn, rfl⟩ := (hget n x).mp hx
    refine ⟨hn, rfl, hp, ?_⟩
    intro j hj
    exact hbefore j hj (f j) ((hget j (f j)).mpr ⟨Nat.lt_trans hj hn, rfl⟩)
  · rintro ⟨hn, rfl, hp, hbefore⟩
    refine ⟨(hget n (f n)).mpr ⟨hn, rfl⟩, hp, ?_⟩
    intro j hj y hy
    obtain ⟨-, rfl⟩ := (hget j y).mp hy
    exact hbefore j hj

end UsnetSockets
