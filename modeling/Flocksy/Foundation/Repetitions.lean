import Flocksy.Foundation.SortedLists

/-!
# Dropping repetitions

A member that stands twice in a row can be dropped without a look at the rest of the list. When the
members are then mapped, each image is left once, in the order of first occurrence, if and only if
members with the same image are one member that is repeated in a row.
-/

namespace Repetitions

open SortedLists

variable {α β : Type*} [DecidableEq α] [BEq β] [LawfulBEq β]

omit [DecidableEq α] in
theorem nodup_eraseDups (l : List β) : l.eraseDups.Nodup := by
  induction h : l.length using Nat.strong_induction_on generalizing l with
  | h n ih =>
    cases l with
    | nil => simp
    | cons b l =>
      have hlen : (l.filter fun c => !c == b).length < n := by
        rw [← h]
        exact Nat.lt_succ_of_le (List.length_filter_le _ _)
      rw [List.eraseDups_cons, List.nodup_cons]
      exact ⟨by simp [List.mem_eraseDups], ih _ hlen _ rfl⟩

theorem eraseDups_of_nodup {l : List β} (h : l.Nodup) : l.eraseDups = l := by
  induction l with
  | nil => rfl
  | cons b l ih =>
    obtain ⟨hb, hl⟩ := List.nodup_cons.1 h
    have hall : l.filter (fun c => !c == b) = l := by
      rw [List.filter_eq_self]
      intro c hc
      rw [Bool.not_eq_true', beq_eq_false_iff_ne]
      rintro rfl
      exact hb hc
    rw [List.eraseDups_cons, hall, ih hl]

theorem destutter_cons_cons (a b : α) (l : List α) :
    (a :: b :: l).destutter (· ≠ ·) =
      if a = b then (b :: l).destutter (· ≠ ·) else a :: (b :: l).destutter (· ≠ ·) := by
  by_cases h : a = b
  · subst h
    rw [if_pos rfl, List.destutter_cons_cons, if_neg (not_not.2 rfl), List.destutter_cons']
  · rw [if_neg h, List.destutter_cons_cons, if_pos h, List.destutter_cons']

variable (f : α → β)

def Together (l : List α) : Prop :=
  ∀ before x between y after, l = before ++ x :: (between ++ y :: after) → f x = f y →
    ∀ z ∈ between ++ [y], z = x

variable {f} {l : List α}

omit [DecidableEq α] [BEq β] [LawfulBEq β] in
theorem Together.tail {x : α} (h : Together f (x :: l)) : Together f l :=
  fun before y between z after hl => h (x :: before) y between z after (by rw [hl]; rfl)

omit [DecidableEq α] [BEq β] [LawfulBEq β] in
theorem together_cons_cons (x y : α) (l : List α) :
    Together f (x :: y :: l) ↔ Together f (y :: l) ∧ (x ≠ y → f x ∉ (y :: l).map f) := by
  constructor
  · refine fun h => ⟨h.tail, fun hne hmem => hne ?_⟩
    obtain ⟨z, hz, heq⟩ := List.mem_map.1 hmem
    obtain ⟨between, after, hsplit⟩ := List.append_of_mem hz
    have hsame := h [] x between z after (by rw [hsplit]; rfl) heq.symm
    cases between with
    | nil =>
      obtain ⟨rfl, -⟩ := List.cons.inj hsplit
      exact (hsame y (by simp)).symm
    | cons c between =>
      obtain ⟨rfl, -⟩ := List.cons.inj hsplit
      exact (hsame y (by simp)).symm
  · rintro ⟨htail, hnew⟩ before w between z after hl heq
    cases before with
    | cons a before =>
      obtain ⟨-, hrest⟩ := List.cons.inj hl
      exact htail before w between z after hrest heq
    | nil =>
      obtain ⟨rfl, hrest⟩ := List.cons.inj hl
      have hz : z ∈ y :: l := by
        rw [hrest]
        simp
      have hxy : x = y := by
        by_contra hne
        exact hnew hne (heq ▸ List.mem_map_of_mem hz)
      cases between with
      | nil =>
        obtain ⟨hyz, -⟩ := List.cons.inj hrest
        simp [hxy, hyz]
      | cons c between =>
        obtain ⟨hyc, hrest⟩ := List.cons.inj hrest
        have hsame := htail [] y between z after (by rw [hrest]; rfl) (hxy ▸ heq)
        intro u hu
        rcases List.mem_cons.1 hu with rfl | hu
        · rw [hxy, hyc]
        · rw [hxy]
          exact hsame u hu

omit [BEq β] [LawfulBEq β] in
theorem nodup_map_destutter_iff : ((l.destutter (· ≠ ·)).map f).Nodup ↔ Together f l := by
  induction l with
  | nil => simp [Together]
  | cons x l ih =>
    cases l with
    | nil => simp [Together, List.singleton_eq_append_iff]
    | cons y l =>
      rw [destutter_cons_cons, together_cons_cons, ← ih]
      split_ifs with heq
      · simp [heq]
      · have hmem : f x ∈ ((y :: l).destutter (· ≠ ·)).map f ↔ f x ∈ (y :: l).map f := by
          simp only [List.mem_map, mem_destutter]
        rw [List.map_cons, List.nodup_cons, hmem, and_comm]
        simp [heq]

omit [DecidableEq α] in
theorem eraseDups_filter (p : β → Bool) (l : List β) :
    (l.filter p).eraseDups = l.eraseDups.filter p := by
  induction h : l.length using Nat.strong_induction_on generalizing l with
  | h n ih =>
    cases l with
    | nil => rfl
    | cons b l =>
      have hlen : (l.filter fun c => !c == b).length < n := by
        rw [← h]
        exact Nat.lt_succ_of_le (List.length_filter_le _ _)
      rw [List.eraseDups_cons]
      by_cases hb : p b = true
      · rw [List.filter_cons_of_pos hb, List.filter_cons_of_pos hb, List.eraseDups_cons,
          List.filter_comm, ih _ hlen _ rfl]
      · have hall : (l.filter fun c => !c == b).filter p = l.filter p := by
          rw [List.filter_filter]
          refine List.filter_congr fun c _ => ?_
          by_cases hc : c = b
          · simp [hc, hb]
          · simp [hc]
        rw [List.filter_cons_of_neg hb, List.filter_cons_of_neg hb, ← ih _ hlen _ rfl, hall]

theorem eraseDups_map_destutter (l : List α) :
    ((l.destutter (· ≠ ·)).map f).eraseDups = (l.map f).eraseDups := by
  induction l with
  | nil => rfl
  | cons x l ih =>
    cases l with
    | nil => rfl
    | cons y l =>
      rw [destutter_cons_cons]
      split_ifs with heq
      · rw [ih, heq]
        simp [List.eraseDups_cons]
      · rw [List.map_cons, List.eraseDups_cons, eraseDups_filter, ih, ← eraseDups_filter,
          List.map_cons (a := x), List.eraseDups_cons]

/-- Each image is left once, where it occurs first, if and only if equal images stand together. -/
theorem map_destutter_iff :
    (l.destutter (· ≠ ·)).map f = (l.map f).eraseDups ↔ Together f l := by
  rw [← nodup_map_destutter_iff]
  constructor
  · intro h
    rw [h]
    exact nodup_eraseDups _
  · intro h
    rw [← eraseDups_map_destutter, eraseDups_of_nodup h]

end Repetitions
