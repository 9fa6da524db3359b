import Mathlib

/-!
# Senders that begin with a greeting

Messages of many senders arrive in one queue. The messages of each sender keep their order, and
nothing else is known about the order. Every sender begins with a greeting, which it does not send
again. As many messages as there are senders are all greetings if and only if none of the others
comes before the last greeting.
-/

namespace Arrivals

variable {ι μ : Type*} {hello : μ} {arrivals : List (ι × μ)}

def InOrder (hello : μ) (arrivals : List (ι × μ)) : Prop :=
  ∀ before p after, arrivals = before ++ p :: after → p.2 ≠ hello → ∀ i, (i, hello) ∈ before

theorem InOrder.of_greetings {seen unread : List (ι × μ)} (hall : ∀ p ∈ seen, p.2 = hello)
    (hheard : ∀ i, (i, hello) ∈ seen) : InOrder hello (seen ++ unread) := by
  intro before p after hsplit hother i
  obtain ⟨as, hbefore, -⟩ | ⟨as, hseen, hunread⟩ := List.append_eq_append_iff.1 hsplit
  · rw [hbefore]
    exact List.mem_append_left _ (hheard i)
  · cases as with
    | nil => simpa [hseen] using hheard i
    | cons q qs =>
      have hq : p = q := (List.cons.inj hunread).1
      have hmem : p ∈ seen := by simp [hseen, hq]
      exact absurd (hall p hmem) hother

section Senders

variable [DecidableEq ι]

/-- The messages of `i`, the oldest first. -/
def sentBy (arrivals : List (ι × μ)) (i : ι) : List μ :=
  (arrivals.filter (·.1 = i)).map Prod.snd

def Opens (hello : μ) (arrivals : List (ι × μ)) : Prop :=
  ∀ i, ∃ others, sentBy arrivals i = hello :: others ∧ hello ∉ others

theorem sentBy_append (xs ys : List (ι × μ)) (i : ι) :
    sentBy (xs ++ ys) i = sentBy xs i ++ sentBy ys i := by
  simp [sentBy]

theorem mem_sentBy {i : ι} {m : μ} : m ∈ sentBy arrivals i ↔ (i, m) ∈ arrivals := by
  simp [sentBy]

theorem Opens.mem (h : Opens hello arrivals) (i : ι) : (i, hello) ∈ arrivals := by
  obtain ⟨others, hsent, -⟩ := h i
  rw [← mem_sentBy, hsent]
  exact List.mem_cons_self

theorem Opens.nodup (h : Opens hello arrivals) {seen unread : List (ι × μ)}
    (hsplit : arrivals = seen ++ unread) (hall : ∀ p ∈ seen, p.2 = hello) :
    (seen.map Prod.fst).Nodup := by
  rw [List.nodup_iff_count_le_one]
  intro i
  obtain ⟨others, hsent, hnot⟩ := h i
  rw [hsplit, sentBy_append] at hsent
  have hcount : (seen.map Prod.fst).count i = (sentBy seen i).length := by
    rw [sentBy, List.length_map, List.count, List.countP_map, List.countP_eq_length_filter]
    rfl
  have hgreets : ∀ m ∈ sentBy seen i, m = hello := fun m hm => hall _ (mem_sentBy.1 hm)
  rw [hcount]
  cases hseen : sentBy seen i with
  | nil => simp
  | cons m ms =>
    cases ms with
    | nil => simp
    | cons m' ms =>
      rw [hseen] at hsent hgreets
      have hsecond : m' = hello := hgreets m' (by simp)
      have hothers : m' :: ms ++ sentBy unread i = others := (List.cons.inj hsent).2
      exact absurd (hothers ▸ hsecond ▸ List.mem_cons_self) hnot

variable [DecidableEq μ]

theorem InOrder.heard (h : Opens hello arrivals) (horder : InOrder hello arrivals) (i : ι) :
    (i, hello) ∈ arrivals.takeWhile (·.2 = hello) := by
  have hsplit := List.takeWhile_append_dropWhile (p := fun q : ι × μ => decide (q.2 = hello))
    (l := arrivals)
  cases hrest : arrivals.dropWhile (·.2 = hello) with
  | nil =>
    rw [hrest, List.append_nil] at hsplit
    rw [hsplit]
    exact h.mem i
  | cons p after =>
    have hother := List.dropWhile_get_zero_not (fun q : ι × μ => decide (q.2 = hello)) arrivals
      (by rw [hrest]; simp)
    refine horder _ p after (by rw [← hrest, hsplit]) ?_ i
    simpa [hrest] using hother

theorem InOrder.greetings [Fintype ι] (h : Opens hello arrivals) (horder : InOrder hello arrivals) :
    ∃ seen unread, arrivals = seen ++ unread ∧ seen.length = Fintype.card ι ∧
      (∀ p ∈ seen, p.2 = hello) ∧ ∀ i, (i, hello) ∈ seen := by
  have hsplit := (List.takeWhile_append_dropWhile (p := fun q : ι × μ => decide (q.2 = hello))
    (l := arrivals)).symm
  have hall : ∀ p ∈ arrivals.takeWhile (·.2 = hello), p.2 = hello := by
    intro p hp
    simpa using List.mem_takeWhile_imp hp
  have hnodup := h.nodup hsplit hall
  have hheard := InOrder.heard h horder
  refine ⟨_, _, hsplit, ?_, hall, hheard⟩
  have huniv : ((arrivals.takeWhile (·.2 = hello)).map Prod.fst).toFinset = Finset.univ := by
    refine Finset.eq_univ_iff_forall.2 fun i => List.mem_toFinset.2 ?_
    exact List.mem_map_of_mem (hheard i)
  calc (arrivals.takeWhile (·.2 = hello)).length
      = ((arrivals.takeWhile (·.2 = hello)).map Prod.fst).toFinset.card := by
        rw [List.toFinset_card_of_nodup hnodup, List.length_map]
    _ = Fintype.card ι := by rw [huniv, Finset.card_univ]

end Senders

end Arrivals
