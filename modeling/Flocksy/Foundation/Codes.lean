import Mathlib

/-!
# Words for letters

A code puts a word in the place of each letter. Where all words are equally long and in the order of
their letters, the codes of two lists are in the lexicographic order of the lists.
-/

namespace Codes

variable {α β : Type*} [LT α] [LT β]

theorem append_lt_append_iff {a b : List β} (hlength : a.length = b.length) (s t : List β) :
    a ++ s < b ++ t ↔ a < b ∨ a = b ∧ s < t := by
  induction a generalizing b with
  | nil =>
    obtain rfl := List.length_eq_zero_iff.1 hlength.symm
    simp
  | cons x a ih =>
    cases b with
    | nil => cases hlength
    | cons y b =>
      rw [List.cons_append, List.cons_append, List.cons_lt_cons_iff, List.cons_lt_cons_iff,
        ih (Nat.succ.inj hlength), List.cons.injEq]
      tauto

structure Ordered (f : α → List β) : Prop where
  ne_nil : ∀ a, f a ≠ []
  length_eq : ∀ a b, (f a).length = (f b).length
  injective : Function.Injective f
  lt_iff : ∀ a b, f a < f b ↔ a < b

variable {f : α → List β}

theorem Ordered.flatMap_lt_iff (h : Ordered f) (l m : List α) :
    l.flatMap f < m.flatMap f ↔ l < m := by
  induction l generalizing m with
  | nil =>
    cases m with
    | nil => exact iff_of_false (List.not_lt_nil _) (List.not_lt_nil _)
    | cons b m =>
      obtain ⟨c, word, hword⟩ := List.exists_cons_of_ne_nil (h.ne_nil b)
      rw [List.flatMap_cons, hword]
      exact iff_of_true (List.nil_lt_cons _ _) (List.nil_lt_cons b m)
  | cons a l ih =>
    cases m with
    | nil => exact iff_of_false (List.not_lt_nil _) (List.not_lt_nil _)
    | cons b m =>
      rw [List.flatMap_cons, List.flatMap_cons, append_lt_append_iff (h.length_eq a b), h.lt_iff,
        h.injective.eq_iff, ih, List.cons_lt_cons_iff]

end Codes
