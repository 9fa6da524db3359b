import Mathlib

/-!
# Trees of digests

A level of a tree is made from the level below it: neighbours are joined and hashed, and the last
node of an odd level is joined with itself. The digests of the leaves of two trees with the same
root are the same, whatever the sizes of the trees are, as long as the hash does not collide on what
is hashed for the two trees and no leaf is hashed from a join. The proof goes down the levels of both
trees at once.
-/

namespace MerkleTree

variable {α β : Type*}

def pairs : List α → List (α × α)
  | [] => []
  | [a] => [(a, a)]
  | a :: b :: level => (a, b) :: pairs level

theorem length_pairs (level : List α) : (pairs level).length = (level.length + 1) / 2 := by
  induction level using pairs.induct with
  | case1 => simp [pairs]
  | case2 a => simp [pairs]
  | case3 a b level ih =>
    simp only [pairs, List.length_cons, ih]
    omega

theorem getElem?_pairs (level : List α) (j : ℕ) :
    (pairs level)[j]? = level[2 * j]?.map fun a => (a, level[2 * j + 1]?.getD a) := by
  induction level using pairs.induct generalizing j with
  | case1 => simp [pairs]
  | case2 a =>
    cases j with
    | zero => simp [pairs]
    | succ j => simp [pairs, Nat.mul_succ]
  | case3 a b level ih =>
    cases j with
    | zero => simp [pairs]
    | succ j => simp [pairs, Nat.mul_succ, ih]

theorem mem_of_mem_pairs {level : List α} {p : α × α} (h : p ∈ pairs level) :
    p.1 ∈ level ∧ p.2 ∈ level := by
  induction level using pairs.induct with
  | case1 => simp [pairs] at h
  | case2 a =>
    obtain rfl : p = (a, a) := by simpa [pairs] using h
    simp
  | case3 a b level ih =>
    rcases List.mem_cons.1 h with rfl | h
    · simp
    · obtain ⟨hfst, hsnd⟩ := ih h
      simp [hfst, hsnd]

theorem exists_pair {level : List α} {a : α} (h : a ∈ level) :
    ∃ p ∈ pairs level, a = p.1 ∨ a = p.2 := by
  induction level using pairs.induct with
  | case1 => simp at h
  | case2 b =>
    obtain rfl : a = b := by simpa using h
    exact ⟨(a, a), by simp [pairs], .inl rfl⟩
  | case3 b c level ih =>
    rw [List.mem_cons, List.mem_cons] at h
    rcases h with rfl | rfl | h
    · exact ⟨(a, c), by simp [pairs], .inl rfl⟩
    · exact ⟨(b, a), by simp [pairs], .inr rfl⟩
    · obtain ⟨p, hp, ha⟩ := ih h
      exact ⟨p, by simp [pairs, hp], ha⟩

section Levels

variable (hash : β → α) (join : α → α → β)

def joins (level : List α) : List β := (pairs level).map fun p => join p.1 p.2

def parents (level : List α) : List α := (joins join level).map hash

/-- The level `n` above the leaves. -/
def above : ℕ → List α → List α
  | 0, leaves => leaves
  | n + 1, leaves => parents hash join (above n leaves)

/-- What is hashed for the `n` levels above the leaves. -/
def joinsAbove : ℕ → List α → List β
  | 0, _ => []
  | n + 1, leaves => joinsAbove n leaves ++ joins join (above hash join n leaves)

variable {hash join}

theorem length_parents (level : List α) :
    (parents hash join level).length = (level.length + 1) / 2 := by
  simp [parents, joins, length_pairs]

theorem above_parents (n : ℕ) (leaves : List α) :
    above hash join n (parents hash join leaves) = above hash join (n + 1) leaves := by
  induction n with
  | zero => rfl
  | succ n ih =>
    rw [above, ih]
    rfl

theorem joinsAbove_parents (n : ℕ) (leaves : List α) :
    joins join leaves ++ joinsAbove hash join n (parents hash join leaves) =
      joinsAbove hash join (n + 1) leaves := by
  induction n with
  | zero => simp [joinsAbove, above]
  | succ n ih =>
    rw [joinsAbove, ← List.append_assoc, ih, above_parents]
    rfl

theorem getElem?_parents (level : List α) (j : ℕ) : (parents hash join level)[j]? =
    level[2 * j]?.map fun a => hash (join a (level[2 * j + 1]?.getD a)) := by
  simp [parents, joins, getElem?_pairs, Function.comp_def]

theorem length_above_eq (n : ℕ) (leaves : List α) :
    (above hash join n leaves).length = leaves.length ⌈/⌉ 2 ^ n := by
  induction n with
  | zero => simp [above]
  | succ n ih =>
    have hpos : 0 < 2 ^ n := Nat.two_pow_pos n
    have hnext : leaves.length + 2 ^ (n + 1) - 1 = leaves.length + 2 ^ n - 1 + 2 ^ n := by
      rw [pow_succ]
      omega
    rw [above, length_parents, ih, Nat.ceilDiv_eq_add_pred_div, Nat.ceilDiv_eq_add_pred_div, hnext,
      ← Nat.add_div_right _ hpos, Nat.div_div_eq_div_mul, ← pow_succ]

theorem length_above {n : ℕ} {leaves : List α} (hpos : 0 < leaves.length)
    (hle : leaves.length ≤ 2 ^ n) : (above hash join n leaves).length = 1 := by
  induction n generalizing leaves with
  | zero =>
    rw [above]
    omega
  | succ n ih =>
    rw [pow_succ] at hle
    rw [← above_parents]
    apply ih <;> rw [length_parents] <;> omega

theorem mem_parents {level : List α} {a : α} :
    a ∈ parents hash join level ↔ ∃ p ∈ pairs level, hash (join p.1 p.2) = a := by
  simp [parents, joins]

def Agree (xs ys : List α) : Prop := ∀ a, a ∈ xs ↔ a ∈ ys

theorem Agree.symm {xs ys : List α} (h : Agree xs ys) : Agree ys xs := fun a => (h a).symm

section Binding

variable {strings : Set β} (hhash : Set.InjOn hash strings) (hjoin : Function.Injective2 join)
include hhash hjoin

theorem mem_of_mem_parents {xs ys : List α} (hxs : ∀ s ∈ joins join xs, s ∈ strings)
    (hys : ∀ s ∈ joins join ys, s ∈ strings)
    (hsub : ∀ a ∈ parents hash join xs, a ∈ parents hash join ys) {a : α} (ha : a ∈ xs) :
    a ∈ ys := by
  obtain ⟨p, hp, hap⟩ := exists_pair ha
  obtain ⟨q, hq, heq⟩ := mem_parents.1 (hsub _ (mem_parents.2 ⟨p, hp, rfl⟩))
  have hpS : join p.1 p.2 ∈ strings := hxs _ (List.mem_map_of_mem hp)
  have hqS : join q.1 q.2 ∈ strings := hys _ (List.mem_map_of_mem hq)
  obtain ⟨hfst, hsnd⟩ := hjoin (hhash hqS hpS heq)
  obtain ⟨hq₁, hq₂⟩ := mem_of_mem_pairs hq
  rcases hap with rfl | rfl
  · exact hfst ▸ hq₁
  · exact hsnd ▸ hq₂

theorem Agree.below {xs ys : List α} (hxs : ∀ s ∈ joins join xs, s ∈ strings)
    (hys : ∀ s ∈ joins join ys, s ∈ strings)
    (h : Agree (parents hash join xs) (parents hash join ys)) : Agree xs ys := by
  intro a
  constructor
  · exact mem_of_mem_parents hhash hjoin hxs hys fun b => (h b).1
  · exact mem_of_mem_parents hhash hjoin hys hxs fun b => (h b).2

/-- The digest of a string that is no join. -/
def IsLeaf (hash : β → α) (join : α → α → β) (strings : Set β) (a : α) : Prop :=
  ∃ s ∈ strings, hash s = a ∧ ∀ b c, s ≠ join b c

omit hjoin in
theorem IsLeaf.not_mem_parents {a : α} (ha : IsLeaf hash join strings a) {ys : List α}
    (hys : ∀ t ∈ joins join ys, t ∈ strings) : a ∉ parents hash join ys := by
  intro hmem
  obtain ⟨s, hs, rfl, hleaf⟩ := ha
  obtain ⟨p, hp, heq⟩ := mem_parents.1 hmem
  have hpS : join p.1 p.2 ∈ strings := hys _ (List.mem_map_of_mem hp)
  exact hleaf _ _ (hhash hs hpS heq.symm)

theorem Agree.leaves {xs ys : List α} (hx : xs ≠ []) (hy : ys ≠ [])
    (hxleaf : ∀ a ∈ xs, IsLeaf hash join strings a)
    (hyleaf : ∀ a ∈ ys, IsLeaf hash join strings a) {n m : ℕ}
    (hxs : ∀ t ∈ joinsAbove hash join n xs, t ∈ strings)
    (hys : ∀ t ∈ joinsAbove hash join m ys, t ∈ strings)
    (h : Agree (above hash join n xs) (above hash join m ys)) : Agree xs ys := by
  induction n generalizing m with
  | zero =>
    cases m with
    | zero => exact h
    | succ m =>
      obtain ⟨a, ha⟩ := List.exists_mem_of_ne_nil xs hx
      have hnot := (hxleaf a ha).not_mem_parents hhash fun t ht =>
        hys t (List.mem_append_right _ ht)
      exact absurd ((h a).1 ha) hnot
  | succ n ih =>
    cases m with
    | zero =>
      obtain ⟨a, ha⟩ := List.exists_mem_of_ne_nil ys hy
      have hnot := (hyleaf a ha).not_mem_parents hhash fun t ht =>
        hxs t (List.mem_append_right _ ht)
      exact absurd ((h a).2 ha) hnot
    | succ m =>
      have hbelow := h.below hhash hjoin (fun t ht => hxs t (List.mem_append_right _ ht))
        fun t ht => hys t (List.mem_append_right _ ht)
      exact ih (fun t ht => hxs t (List.mem_append_left _ ht))
        (fun t ht => hys t (List.mem_append_left _ ht)) hbelow

theorem leaves_of_root {xs ys : List α} (hx : xs ≠ []) (hy : ys ≠ [])
    (hxleaf : ∀ a ∈ xs, IsLeaf hash join strings a)
    (hyleaf : ∀ a ∈ ys, IsLeaf hash join strings a) {n m : ℕ}
    (hxs : ∀ t ∈ joinsAbove hash join n xs, t ∈ strings)
    (hys : ∀ t ∈ joinsAbove hash join m ys, t ∈ strings) {root : α}
    (hxroot : above hash join n xs = [root]) (hyroot : above hash join m ys = [root]) :
    Agree xs ys := by
  refine Agree.leaves hhash hjoin hx hy hxleaf hyleaf hxs hys fun a => ?_
  rw [hxroot, hyroot]

end Binding

end Levels

end MerkleTree
