import Mathlib

/-!
# Sorted lists

A set may be kept as a list in strictly ascending order. Such a list comes from one that is sorted
only, by dropping what stands twice in a row, and the symmetric difference of two sets is made in
one pass over both lists.
-/

namespace SortedLists

variable {α : Type*}

theorem mem_destutter [DecidableEq α] {l : List α} {a : α} : a ∈ l.destutter (· ≠ ·) ↔ a ∈ l := by
  have hcons (b : α) (l : List α) : a ∈ l.destutter' (· ≠ ·) b ↔ a = b ∨ a ∈ l := by
    induction l generalizing b with
    | nil => simp
    | cons c l ih =>
      rw [List.destutter'_cons]
      split_ifs with hne
      · simp [ih]
      · rw [not_not] at hne
        simp [ih, hne]
  cases l with
  | nil => simp
  | cons b l =>
    rw [List.destutter_cons', List.mem_cons]
    exact hcons b l

section Order

variable (lt : α → α → Prop)

def symmDiff [DecidableRel lt] : List α → List α → List α
  | [], right => right
  | left, [] => left
  | a :: left, b :: right =>
    if lt a b then a :: symmDiff left (b :: right)
    else if lt b a then b :: symmDiff (a :: left) right
    else symmDiff left right
termination_by left right => left.length + right.length

theorem length_symmDiff_le [DecidableRel lt] (left right : List α) :
    (symmDiff lt left right).length ≤ left.length + right.length := by
  fun_induction symmDiff lt left right with
  | case1 right => simp
  | case2 left => simp
  | case3 a left b right hab ih =>
    simp only [List.length_cons] at ih ⊢
    omega
  | case4 a left b right hab hba ih =>
    simp only [List.length_cons] at ih ⊢
    omega
  | case5 a left b right hab hba ih =>
    simp only [List.length_cons] at ih ⊢
    omega

variable {lt} [IsStrictTotalOrder α lt]

theorem pairwise_destutter [DecidableEq α] {l : List α} (h : l.Pairwise fun a b => ¬ lt b a) :
    (l.destutter (· ≠ ·)).Pairwise lt := by
  have hanti : Std.Antisymm fun a b => ¬ lt b a :=
    ⟨fun a b hab hba => ((trichotomous_of lt a b).resolve_left hba).resolve_right hab⟩
  have hdedup : l.destutter (· ≠ ·) = l.dedup := h.destutter_eq_dedup
  have hsorted : l.dedup.Pairwise fun a b => ¬ lt b a := h.sublist l.dedup_sublist
  rw [hdedup]
  refine (hsorted.and l.nodup_dedup).imp ?_
  rintro a b ⟨hle, hne⟩
  rcases trichotomous_of lt a b with hab | rfl | hba
  · exact hab
  · exact absurd rfl hne
  · exact absurd hba hle

theorem lt_of_mem {a b c : α} {l : List α} (hab : lt a b) (hl : (b :: l).Pairwise lt)
    (hc : c ∈ b :: l) : lt a c := by
  rcases List.mem_cons.1 hc with rfl | hc
  · exact hab
  · exact trans_of lt hab ((List.pairwise_cons.1 hl).1 c hc)

theorem notMem_of_lt {a b : α} {l : List α} (hab : lt a b) (hl : (b :: l).Pairwise lt) :
    a ∉ b :: l := fun hmem => irrefl_of lt a (lt_of_mem hab hl hmem)

theorem notMem_tail {a : α} {l : List α} (hl : (a :: l).Pairwise lt) : a ∉ l :=
  fun hmem => irrefl_of lt a ((List.pairwise_cons.1 hl).1 a hmem)

variable [DecidableRel lt]

theorem mem_symmDiff {left right : List α} (hleft : left.Pairwise lt) (hright : right.Pairwise lt)
    {c : α} : c ∈ symmDiff lt left right ↔ c ∈ left ∧ c ∉ right ∨ c ∈ right ∧ c ∉ left := by
  fun_induction symmDiff lt left right with
  | case1 right => simp
  | case2 left => simp
  | case3 a left b right hab ih =>
    have hother : a ∉ b :: right := notMem_of_lt hab hright
    rw [List.mem_cons, ih hleft.tail hright, List.mem_cons (a := c) (l := left)]
    by_cases hc : c = a
    · subst hc
      simp [hother]
    · simp [hc]
  | case4 a left b right hab hba ih =>
    have hother : b ∉ a :: left := notMem_of_lt hba hleft
    rw [List.mem_cons, ih hleft hright.tail, List.mem_cons (a := c) (l := right)]
    by_cases hc : c = b
    · subst hc
      simp [hother]
    · simp [hc]
  | case5 a left b right hab hba ih =>
    obtain rfl : a = b := ((trichotomous_of lt a b).resolve_left hab).resolve_right hba
    have hleftNot : a ∉ left := notMem_tail hleft
    have hrightNot : a ∉ right := notMem_tail hright
    rw [ih hleft.tail hright.tail, List.mem_cons, List.mem_cons]
    by_cases hc : c = a
    · subst hc
      simp [hleftNot, hrightNot]
    · simp [hc]

theorem pairwise_symmDiff {left right : List α} (hleft : left.Pairwise lt)
    (hright : right.Pairwise lt) : (symmDiff lt left right).Pairwise lt := by
  fun_induction symmDiff lt left right with
  | case1 right => exact hright
  | case2 left => exact hleft
  | case3 a left b right hab ih =>
    refine List.pairwise_cons.2 ⟨fun c hc => ?_, ih hleft.tail hright⟩
    rcases (mem_symmDiff hleft.tail hright).1 hc with ⟨hc, -⟩ | ⟨hc, -⟩
    · exact (List.pairwise_cons.1 hleft).1 c hc
    · exact lt_of_mem hab hright hc
  | case4 a left b right hab hba ih =>
    refine List.pairwise_cons.2 ⟨fun c hc => ?_, ih hleft hright.tail⟩
    rcases (mem_symmDiff hleft hright.tail).1 hc with ⟨hc, -⟩ | ⟨hc, -⟩
    · exact lt_of_mem hba hleft hc
    · exact (List.pairwise_cons.1 hright).1 c hc
  | case5 a left b right hab hba ih => exact ih hleft.tail hright.tail

end Order

end SortedLists
