import Mathlib.Data.List.Basic

/-!
# Words and lines

A sequence is cut into words at the elements that separate words. How many separators stand between
two words, or around all of them, is not kept, so the words are the same for every layout
(`Spaced.wordsBy_text`). A text is cut into lines behind each of the elements that end a line; the
last line may lack its end.
-/

namespace UsnetSockets

variable {α : Type*} {p : α → Bool} {xs ys gap w : List α}

/-! ## Words -/

/-- The parts between separators that are not empty. -/
def wordsBy (p : α → Bool) (xs : List α) : List (List α) :=
  (xs.splitOnP p).filter fun w ↦ !w.isEmpty

/-- Words are cut at a separator. -/
theorem wordsBy_append_cons {a : α} (ha : p a = true) (xs ys : List α) :
    wordsBy p (xs ++ a :: ys) = wordsBy p xs ++ wordsBy p ys := by
  rw [wordsBy, List.splitOnP_append_cons xs ys ha, List.filter_append, wordsBy, wordsBy]

theorem wordsBy_cons {a : α} (ha : p a = true) (xs : List α) :
    wordsBy p (a :: xs) = wordsBy p xs := by
  have h := wordsBy_append_cons ha [] xs
  simpa [wordsBy] using h

/-- Separators in front make no difference. -/
theorem wordsBy_append_left (h : ∀ a ∈ gap, p a = true) (xs : List α) :
    wordsBy p (gap ++ xs) = wordsBy p xs := by
  induction gap with
  | nil => rfl
  | cons a gap ih =>
    rw [List.forall_mem_cons] at h
    rw [List.cons_append, wordsBy_cons h.1, ih h.2]

theorem wordsBy_eq_nil (h : ∀ a ∈ xs, p a = true) : wordsBy p xs = [] := by
  have hgap := wordsBy_append_left h []
  rw [List.append_nil] at hgap
  rw [hgap]
  simp [wordsBy]

/-- Separators behind make no difference. -/
theorem wordsBy_append_right (h : ∀ a ∈ gap, p a = true) (xs : List α) :
    wordsBy p (xs ++ gap) = wordsBy p xs := by
  rcases gap with _ | ⟨a, gap⟩
  · rw [List.append_nil]
  · rw [List.forall_mem_cons] at h
    rw [wordsBy_append_cons h.1, wordsBy_eq_nil h.2, List.append_nil]

/-- A word is not empty and has no separator in it. -/
structure IsWord (p : α → Bool) (w : List α) : Prop where
  ne_nil : w ≠ []
  not_sep : ∀ a ∈ w, p a = false

theorem IsWord.wordsBy_eq (h : IsWord p w) : wordsBy p w = [w] := by
  have hsplit : w.splitOnP p = [w] := List.splitOnP_eq_singleton fun a ha ↦ by simp [h.not_sep a ha]
  rw [wordsBy, hsplit]
  simp [h.ne_nil]

/-- A word that is followed by a separator, or by nothing. -/
theorem wordsBy_word_append (hw : IsWord p w) (hxs : ∀ a ∈ xs.head?, p a = true) :
    wordsBy p (w ++ xs) = w :: wordsBy p xs := by
  rcases xs with _ | ⟨a, xs⟩
  · rw [List.append_nil, hw.wordsBy_eq]
    rfl
  · have ha : p a = true := hxs a rfl
    rw [wordsBy_append_cons ha, hw.wordsBy_eq, wordsBy_cons ha]
    rfl

/-- Words with separators around them: each word with what stands before it, and what stands behind
the last one. -/
structure Spaced (α : Type*) where
  parts : List (List α × List α)
  rest : List α

namespace Spaced

variable {s : Spaced α}

def words (s : Spaced α) : List (List α) := s.parts.map Prod.snd

def text (s : Spaced α) : List α := s.parts.flatMap (fun x ↦ x.1 ++ x.2) ++ s.rest

/-- What stands between two words are separators, of which there is at least one. -/
structure Proper (p : α → Bool) (s : Spaced α) : Prop where
  gap : ∀ x ∈ s.parts, ∀ a ∈ x.1, p a = true
  between : ∀ x ∈ s.parts.tail, x.1 ≠ []
  isWord : ∀ x ∈ s.parts, IsWord p x.2
  rest : ∀ a ∈ s.rest, p a = true

/-- **Words are read back** from every layout. -/
theorem wordsBy_text (h : s.Proper p) : wordsBy p s.text = s.words := by
  obtain ⟨parts, rest⟩ := s
  obtain ⟨hgap, hbetween, hword, hrest⟩ := h
  simp only [text, words] at *
  induction parts with
  | nil => exact wordsBy_eq_nil hrest
  | cons x parts ih =>
    rw [List.forall_mem_cons] at hgap hword
    rw [List.tail_cons] at hbetween
    have hnext : ∀ a ∈ (parts.flatMap (fun x ↦ x.1 ++ x.2) ++ rest).head?, p a = true := by
      rcases parts with _ | ⟨y, parts⟩
      · exact fun a ha ↦ hrest a (List.mem_of_mem_head? ha)
      · obtain ⟨c, gap, hc⟩ := List.exists_cons_of_ne_nil (hbetween y List.mem_cons_self)
        intro a ha
        simp only [List.flatMap_cons, hc, List.cons_append, List.head?_cons, Option.mem_def,
          Option.some.injEq] at ha
        exact hgap.2 y List.mem_cons_self a (by rw [hc, ← ha]; exact List.mem_cons_self)
    rw [List.flatMap_cons, List.append_assoc, List.append_assoc, wordsBy_append_left hgap.1,
      wordsBy_word_append hword.1 hnext, List.map_cons,
      ih hgap.2 (fun y hy ↦ hbetween y (List.mem_of_mem_tail hy)) hword.2]

end Spaced

/-! ## Lines -/

/-- Lines that end with the element, and a last one that does not, are what is between the
elements. -/
theorem splitOn_flatMap_append [BEq α] [LawfulBEq α] {a : α} {ls : List (List α)}
    (hls : ∀ l ∈ ls, a ∉ l) {last : List α} (hlast : a ∉ last) :
    (ls.flatMap (· ++ [a]) ++ last).splitOn a = ls ++ [last] := by
  induction ls with
  | nil => exact List.splitOn_eq_singleton hlast
  | cons l ls ih =>
    rw [List.forall_mem_cons] at hls
    rw [List.flatMap_cons, List.append_assoc, List.append_assoc, List.singleton_append,
      List.splitOn_append_cons_self, List.splitOn_eq_singleton hls.1, ih hls.2]
    rfl

end UsnetSockets
