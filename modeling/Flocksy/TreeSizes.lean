import Flocksy.TreeLevels

/-!
# The sizes of the hash tree

The arithmetic of `makeHashTree` by itself: its loops, without the vector of the hashes. For up to
2^29 hashes every expression has a value, so 65535 is no limit.
-/

namespace Flocksy

open ByteStream SignedInts MerkleTree

namespace LevelLoop

def skipNode (_ : Unit) (_ : ℕ × ℕ) : Option Unit := some ()

variable {σ : Type} {push : σ → ℕ × ℕ → Option σ} {b b' : LevelLoop σ}

def forget (b : LevelLoop σ) : LevelLoop Unit := ⟨(), b.nodeCount, b.elementsPerLevel⟩

theorem nodes_forget {nodeCount back count count' : ℕ} {js : List ℕ} {hashes hashes' : σ}
    (h : nodes push nodeCount back js (hashes, count) = some (hashes', count')) :
    nodes skipNode nodeCount back js ((), count) = some ((), count') := by
  induction js generalizing hashes count with
  | nil =>
    obtain ⟨-, rfl⟩ := Prod.mk.inj (Option.some.inj h)
    rfl
  | cons j js ih =>
    rw [nodes, Option.bind_eq_bind, Option.bind_eq_some_iff] at h
    obtain ⟨places, hplaces, h⟩ := h
    rw [nodes, hplaces, Option.bind_eq_bind, Option.bind_some]
    cases places with
    | none => exact ih h
    | some places =>
      simp only [Option.bind_eq_bind, Option.bind_eq_some_iff] at h
      obtain ⟨pushed, -, next, hnext, h⟩ := h
      simp only [skipNode, Option.bind_eq_bind, Option.bind_some, hnext]
      exact ih h

theorem turn_forget {i : ℕ} (h : b.turn push i = some b') :
    b.forget.turn skipNode i = some b'.forget := by
  simp only [turn, Option.bind_eq_bind, Option.bind_eq_some_iff] at h
  obtain ⟨back, hback, width, hwidth, ⟨hashes, count⟩, hnodes, nodeCount, hcount, h⟩ := h
  obtain rfl := Option.some.inj h
  simp only [turn, forget, hback, hwidth, nodes_forget hnodes, hcount, Option.bind_eq_bind,
    Option.bind_some]

/-- The loop counts the same with any vector, where it comes to its end. -/
theorem turns_forget {i : ℕ} (h : b.turns push i = some b') :
    b.forget.turns skipNode i = some b'.forget := by
  induction i generalizing b with
  | zero =>
    obtain rfl := Option.some.inj h
    rfl
  | succ i ih =>
    rw [turns, Option.bind_eq_bind, Option.bind_eq_some_iff] at h
    obtain ⟨next, hturn, h⟩ := h
    rw [turns, turn_forget hturn, Option.bind_eq_bind, Option.bind_some]
    exact ih h

end LevelLoop

/-- The arithmetic of `makeHashTree`: the sizes, and `elements_per_level_`. -/
def treeArithmetic (hashCount : ℤ) : Option (Sizes × List ℤ) := do
  let s ← sizeLoop hashCount (hashCount.toNat + 1) ⟨1, 1, 0⟩
  if hashCount > 0 then
    let _ ← int32 (s.treeSize + 1)
    let b ← LevelLoop.turns LevelLoop.skipNode ⟨(), 0, [hashCount.toNat]⟩ s.treeDepth.toNat
    some (s, b.elementsPerLevel.map Nat.cast)
  else some (s, [])

/-- The sizes with a depth are those of the smallest power of two that has room for the leaves. -/
structure Sizes.Least (s : Sizes) (n depth : ℕ) : Prop where
  exponent : s.treeDepth = depth
  leafCount : s.treeLeafCount = 2 ^ depth
  least : IsLeast {p : ℕ | (∃ k, p = 2 ^ k) ∧ max n 1 ≤ p} (2 ^ depth)
  size : s.treeSize = 2 * s.treeLeafCount - 1

theorem least_ofDepth (n : ℕ) : (Sizes.ofDepth (Nat.clog 2 n)).Least n (Nat.clog 2 n) := by
  refine ⟨rfl, by simp [Sizes.ofDepth], ⟨⟨⟨_, rfl⟩, ?_⟩, ?_⟩, ?_⟩
  · exact max_le (Nat.le_pow_clog Nat.one_lt_two n) Nat.one_le_two_pow
  · rintro p ⟨⟨k, rfl⟩, hle⟩
    exact Nat.pow_le_pow_right (by decide) (Nat.clog_le_of_le_pow ((le_max_left n 1).trans hle))
  · have hpos : 0 < 2 ^ Nat.clog 2 n := Nat.two_pow_pos _
    have htwice : 2 ^ (Nat.clog 2 n + 1) = 2 * 2 ^ Nat.clog 2 n := by ring
    rw [Sizes.ofDepth_treeSize, Sizes.ofDepth_treeLeafCount]
    omega

def levelCounts (n : ℕ) : List ℕ :=
  if n = 0 then [] else (List.range (Nat.clog 2 n + 1)).map fun k => n ⌈/⌉ 2 ^ k

theorem countLevels_eq {n depth : ℕ} (hle : n ≤ 2 ^ depth) (hsize : 2 ^ (depth + 1) ≤ 2 ^ 31) :
    ∃ b, LevelLoop.turns LevelLoop.skipNode ⟨(), 0, [n]⟩ depth = some b ∧
      b.elementsPerLevel = (List.range (depth + 1)).map fun k => n ⌈/⌉ 2 ^ k := by
  have hlength : (List.replicate n (default : Hash)).length = n := List.length_replicate
  have hholds : (⟨List.replicate n default, 0, [n]⟩ : Building).Holds (List.replicate n default) :=
    ⟨[], rfl, rfl, by simp [Building.back]⟩
  have hturns := LevelLoop.turns_eq (H := fun _ => default) (i := depth) hholds (by simp)
    (by rwa [hlength]) (by simpa using hsize)
  obtain ⟨-, hcounts⟩ := hholds.vectors (H := fun _ => default) (i := depth) (by rwa [hlength])
  refine ⟨_, LevelLoop.turns_forget hturns, hcounts.trans ?_⟩
  simp only [length_above_eq, hlength]
  rw [List.range_succ_eq_map, List.map_cons, List.map_map, pow_zero, ceilDiv_one]
  rfl

theorem treeArithmetic_some {n : ℕ} (hn : n ≤ 2 ^ 29) :
    treeArithmetic n = some (Sizes.ofDepth (Nat.clog 2 n), (levelCounts n).map Nat.cast) := by
  have hclog : Nat.clog 2 n ≤ 29 := Nat.clog_le_of_le_pow hn
  have hpow : 2 ^ (Nat.clog 2 n + 1) ≤ 2 ^ 30 := Nat.pow_le_pow_right (by decide) (by omega)
  have hsizes : sizeLoop n (n + 1) ⟨1, 1, 0⟩ = _ :=
    sizeLoop_eq hn (n + 1) 0 (Nat.zero_le _) (Nat.lt_succ_of_le (clog_le_self n))
  rw [treeArithmetic, Int.toNat_natCast, hsizes, Option.bind_eq_bind, Option.bind_some, levelCounts]
  by_cases hzero : n = 0
  · subst hzero
    rfl
  · obtain ⟨b, hturns, hcounts⟩ := countLevels_eq (Nat.le_pow_clog Nat.one_lt_two n)
      (hpow.trans (by norm_num))
    rw [if_pos (by omega), ofDepth_treeSize_succ, int32_natCast (by omega), Option.bind_eq_bind,
      Option.bind_some, Sizes.ofDepth_treeDepth, Int.toNat_natCast, hturns, Option.bind_eq_bind,
      Option.bind_some, hcounts, if_neg hzero]

theorem elementsPerLevel_eq (t : HashTree) (H : Bytes → Hash) (xs : List HashPtr)
    (hsize : (leafHashes xs).length ≤ 2 ^ 29) : ∃ t', t.makeHashTree H xs = some t' ∧
      t'.elementsPerLevel = levelCounts (leafHashes xs).length := by
  obtain ⟨t', heq, hlayered, hempty⟩ := makeHashTree_structure H t xs hsize
  refine ⟨t', heq, ?_⟩
  by_cases hnil : leafHashes xs = []
  · rw [(hempty hnil).2, hnil]
    rfl
  · obtain ⟨levels, hlevels⟩ := hlayered hnil
    rw [hlevels.elementsPerLevel, levelCounts, if_neg (by simpa using hnil)]

/-- Up to 2^29 leaves all expressions have a value, and the sizes are the least ones. The numbers of
nodes are those of the tree that is built of any hashes with so many values. -/
theorem treeArithmetic_eq (n : ℕ) (hn : n ≤ 2 ^ 29) :
    ∃ s elements depth, treeArithmetic n = some (s, elements) ∧ s.Least n depth ∧
      ∀ (t : HashTree) (H : Bytes → Hash) (xs : List HashPtr), (leafHashes xs).length = n →
        ∃ t', t.makeHashTree H xs = some t' ∧ elements = t'.elementsPerLevel.map Nat.cast := by
  refine ⟨_, _, _, treeArithmetic_some hn, least_ofDepth n, fun t H xs hlength => ?_⟩
  obtain ⟨t', heq, helements⟩ := elementsPerLevel_eq t H xs (hlength ▸ hn)
  exact ⟨t', heq, by rw [helements, hlength]⟩

theorem treeArithmetic_many : ∃ s elements depth, treeArithmetic ((65536 : ℕ) : ℤ) =
    some (s, elements) ∧ s.Least 65536 depth := by
  obtain ⟨s, elements, depth, heq, hleast, -⟩ := treeArithmetic_eq 65536 (by norm_num)
  exact ⟨s, elements, depth, heq, hleast⟩

end Flocksy
