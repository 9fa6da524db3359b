import Flocksy.Foundation.SignedInts
import Flocksy.HashTree

/-!
# The levels of the hash tree

`makeHashTree` here is the method of an object that may have a tree already, with its `int`
variables and its accesses to vectors: an overflow, a shift that is undefined, an index out of range
or the back of an empty vector is `none`. Up to 2^29 leaves none of them happens, and the two
vectors hold the levels of the tree, each node the hash of the digits of its two children.
-/

namespace Flocksy

open ByteStream SignedInts MerkleTree

/-- An `int` that is not negative; an overflow is undefined. -/
def int (n : ℕ) : Option ℕ := if n < 2 ^ 31 then some n else none

def int32 (x : ℤ) : Option ℤ := fit 32 x

structure Sizes where
  treeLeafCount : ℤ
  treeSize : ℤ
  treeDepth : ℤ
  deriving DecidableEq

/-- `(1 + ((hash_count - 1) / tree_leaf_count)) > 1`. -/
def exceeds (hashCount treeLeafCount : ℤ) : Option Bool := do
  let last ← int32 (hashCount - 1)
  let full ← quotient 32 last treeLeafCount
  let needed ← int32 (1 + full)
  some (decide (needed > 1))

def sizeLoop (hashCount : ℤ) : ℕ → Sizes → Option Sizes
  | 0, _ => none
  | fuel + 1, s => do
    if ← exceeds hashCount s.treeLeafCount then
      let treeLeafCount ← shiftLeft 32 s.treeLeafCount 1
      let treeSize ← int32 (s.treeSize + treeLeafCount)
      let treeDepth ← int32 (s.treeDepth + 1)
      sizeLoop hashCount fuel ⟨treeLeafCount, treeSize, treeDepth⟩
    else some s

/-- The variables of the loop over the levels, whatever stands for the vector of the hashes. -/
structure LevelLoop (σ : Type) where
  hashes : σ
  nodeCount : ℕ
  elementsPerLevel : List ℕ

namespace LevelLoop

def children (nodeCount back j : ℕ) : Option (Option (ℕ × ℕ)) := do
  let offset ← int (2 * j)
  let currItem ← int (nodeCount + offset)
  let behind ← int (offset + 2)
  let left ← int32 ((back : ℤ) - behind)
  if left ≥ 0 then
    let next ← int (currItem + 1)
    some (some (currItem, next))
  else
    let missing ← int32 ((behind : ℤ) - back)
    if missing = 1 then some (some (currItem, currItem)) else some none

variable {σ : Type} (push : σ → ℕ × ℕ → Option σ)

/-- The loop over the nodes of a level: `hashes` and `temp_node_count`. -/
def nodes (nodeCount back : ℕ) : List ℕ → σ × ℕ → Option (σ × ℕ)
  | [], (hashes, tempNodeCount) => some (hashes, tempNodeCount)
  | j :: js, (hashes, tempNodeCount) => do
    match ← children nodeCount back j with
    | some places =>
      let hashes ← push hashes places
      let tempNodeCount ← int (tempNodeCount + 1)
      nodes nodeCount back js (hashes, tempNodeCount)
    | none => nodes nodeCount back js (hashes, tempNodeCount)

def turn (b : LevelLoop σ) (i : ℕ) : Option (LevelLoop σ) := do
  let back ← b.elementsPerLevel.getLast?
  let width ← int (1 <<< i)
  let (hashes, tempNodeCount) ← nodes push b.nodeCount back (List.range width) (b.hashes, 0)
  let nodeCount ← int (b.nodeCount + back)
  some ⟨hashes, nodeCount, b.elementsPerLevel ++ [tempNodeCount]⟩

/-- The turns for the levels from `i - 1` down to 0. -/
def turns (b : LevelLoop σ) : ℕ → Option (LevelLoop σ)
  | 0 => some b
  | i + 1 => do
    let b ← b.turn push i
    b.turns i

/-- `hashes.push_back` of the hash of a node. -/
def pushNode (H : Bytes → Hash) (hashes : List Hash) (places : ℕ × ℕ) : Option (List Hash) := do
  let left ← hashes[places.1]?
  let right ← hashes[places.2]?
  some (hashes ++ [H (left.getString ++ right.getString)])

end LevelLoop

/-- `HashTree::makeHashTree`, on an object that may have a tree already. -/
def HashTree.makeHashTree (t : HashTree) (H : Bytes → Hash) (tempHashes : List HashPtr) :
    Option HashTree := do
  let t : HashTree := { t with hashes := [], elementsPerLevel := [] }
  let hashCount ← int (leafHashes tempHashes).length
  let s ← sizeLoop hashCount (hashCount + 1) ⟨1, 1, 0⟩
  if hashCount > 0 then
    let _ ← int32 (s.treeSize + 1)
    let b ← LevelLoop.turns (LevelLoop.pushNode H)
      ⟨leafHashes tempHashes, 0, t.elementsPerLevel ++ [hashCount]⟩ s.treeDepth.toNat
    some ⟨b.hashes, b.elementsPerLevel⟩
  else some { t with hashes := [] }

theorem int_eq {n : ℕ} (h : n < 2 ^ 31) : int n = some n := if_pos h

theorem int32_eq {x : ℤ} (hlow : -2 ^ 31 ≤ x) (hhigh : x < 2 ^ 31) : int32 x = some x :=
  fit_eq hlow hhigh

theorem int32_natCast {n : ℕ} (h : n < 2 ^ 31) : int32 n = some (n : ℤ) := fit_natCast h

def Sizes.ofDepth (depth : ℕ) : Sizes where
  treeLeafCount := ((2 ^ depth : ℕ) : ℤ)
  treeSize := ((2 ^ (depth + 1) - 1 : ℕ) : ℤ)
  treeDepth := depth

namespace Sizes

@[simp] theorem ofDepth_treeLeafCount (depth : ℕ) :
    (ofDepth depth).treeLeafCount = ((2 ^ depth : ℕ) : ℤ) := rfl

@[simp] theorem ofDepth_treeSize (depth : ℕ) :
    (ofDepth depth).treeSize = ((2 ^ (depth + 1) - 1 : ℕ) : ℤ) := rfl

@[simp] theorem ofDepth_treeDepth (depth : ℕ) : (ofDepth depth).treeDepth = depth := rfl

end Sizes

/-- With no leaf the dividend is negative, and the quotient by one is so too. -/
theorem exceeds_eq {n depth : ℕ} (hn : n < 2 ^ 31) (hdepth : depth ≤ Nat.clog 2 n) :
    exceeds n ((2 ^ depth : ℕ) : ℤ) = some (decide (depth < Nat.clog 2 n)) := by
  have hpos : 0 < 2 ^ depth := Nat.two_pow_pos depth
  by_cases hzero : n = 0
  · subst hzero
    obtain rfl : depth = 0 := by simpa using hdepth
    rfl
  · have hlast : ((n : ℤ) - 1) = ((n - 1 : ℕ) : ℤ) := by omega
    have hneeded : (1 : ℤ) + (((n - 1) / 2 ^ depth : ℕ) : ℤ) =
        ((1 + (n - 1) / 2 ^ depth : ℕ) : ℤ) := (Nat.cast_add 1 _).symm
    have hle : (n - 1) / 2 ^ depth ≤ n - 1 := Nat.div_le_self _ _
    have hiff : ((1 + (n - 1) / 2 ^ depth : ℕ) : ℤ) > 1 ↔ depth < Nat.clog 2 n := by
      rw [← growsOn_iff]
      exact Nat.one_lt_cast
    rw [exceeds, hlast, int32_natCast (by omega)]
    simp only [Option.bind_eq_bind, Option.bind_some]
    rw [quotient_natCast hpos (show n - 1 < 2 ^ 31 by omega), Option.bind_some, hneeded,
      int32_natCast (by omega), Option.bind_some, decide_eq_decide.2 hiff]

theorem sizeLoop_eq {n : ℕ} (hn : n ≤ 2 ^ 29) (fuel depth : ℕ) (hle : depth ≤ Nat.clog 2 n)
    (hfuel : Nat.clog 2 n < fuel + depth) :
    sizeLoop n fuel (Sizes.ofDepth depth) = some (Sizes.ofDepth (Nat.clog 2 n)) := by
  have hclog : Nat.clog 2 n ≤ 29 := Nat.clog_le_of_le_pow hn
  induction fuel generalizing depth with
  | zero => omega
  | succ fuel ih =>
    rw [sizeLoop, Sizes.ofDepth, exceeds_eq (by omega) hle]
    simp only [Option.bind_eq_bind, Option.bind_some]
    by_cases hmore : depth < Nat.clog 2 n
    · have hpow : 2 ^ (depth + 1) ≤ 2 ^ 29 := Nat.pow_le_pow_right (by decide) (by omega)
      have hpos : 0 < 2 ^ depth := Nat.two_pow_pos depth
      have htwice : 2 ^ (depth + 1) = 2 * 2 ^ depth := by ring
      have hfour : 2 ^ (depth + 1 + 1) = 4 * 2 ^ depth := by ring
      have hshift : shiftLeft 32 ((2 ^ depth : ℕ) : ℤ) 1 = some ((2 ^ (depth + 1) : ℕ) : ℤ) := by
        rw [pow_succ]
        exact shiftLeft_natCast (by decide) (show 2 ^ depth * 2 ^ 1 < 2 ^ 31 by omega)
      have hsize : ((2 ^ (depth + 1) - 1 : ℕ) : ℤ) + ((2 ^ (depth + 1) : ℕ) : ℤ) =
          ((2 ^ (depth + 1 + 1) - 1 : ℕ) : ℤ) := by omega
      have hdepth : (depth : ℤ) + 1 = ((depth + 1 : ℕ) : ℤ) := by omega
      rw [decide_eq_true hmore, if_pos rfl, hshift, Option.bind_some, hsize,
        int32_natCast (by omega), Option.bind_some, hdepth, int32_natCast (by omega),
        Option.bind_some]
      exact ih (depth + 1) hmore (by omega)
    · obtain rfl : depth = Nat.clog 2 n := by omega
      rw [decide_eq_false hmore]
      rfl

theorem ofDepth_treeSize_succ (depth : ℕ) :
    (Sizes.ofDepth depth).treeSize + 1 = ((2 ^ (depth + 1) : ℕ) : ℤ) := by
  have hpos : 0 < 2 ^ (depth + 1) := Nat.two_pow_pos _
  rw [Sizes.ofDepth_treeSize]
  omega

namespace LevelLoop

theorem children_eq {nodeCount back j : ℕ} (hback : back < 2 ^ 31)
    (hj : nodeCount + 2 * j + 2 < 2 ^ 31) : children nodeCount back j =
      some (if 2 * j + 2 ≤ back then some (nodeCount + 2 * j, nodeCount + 2 * j + 1)
        else if 2 * j + 2 - back = 1 then some (nodeCount + 2 * j, nodeCount + 2 * j) else none) := by
  have hoffset : int (2 * j) = some (2 * j) := int_eq (by omega)
  have hitem : int (nodeCount + 2 * j) = some (nodeCount + 2 * j) := int_eq (by omega)
  have hbehind : int (2 * j + 2) = some (2 * j + 2) := int_eq (by omega)
  have hnext : int (nodeCount + 2 * j + 1) = some (nodeCount + 2 * j + 1) := int_eq (by omega)
  have hleft : int32 ((back : ℤ) - ((2 * j + 2 : ℕ) : ℤ)) =
      some ((back : ℤ) - ((2 * j + 2 : ℕ) : ℤ)) := int32_eq (by omega) (by omega)
  have hmissing : int32 (((2 * j + 2 : ℕ) : ℤ) - (back : ℤ)) =
      some (((2 * j + 2 : ℕ) : ℤ) - (back : ℤ)) := int32_eq (by omega) (by omega)
  simp only [children, Option.bind_eq_bind, hoffset, hitem, hbehind, hleft, hnext, hmissing,
    Option.bind_some]
  by_cases htwo : 2 * j + 2 ≤ back
  · rw [if_pos (by omega), if_pos htwo]
  · by_cases hone : 2 * j + 2 - back = 1
    · rw [if_neg (by omega), if_pos (by omega), if_neg htwo, if_pos hone]
    · rw [if_neg (by omega), if_neg (by omega), if_neg htwo, if_neg hone]

variable {H : Bytes → Hash} {before level done : List Hash}

theorem getElem?_level {k : ℕ} (hk : k < level.length) :
    (before ++ level ++ done)[before.length + k]? = some (level.getD k default) := by
  rw [List.append_assoc, List.getElem?_append_right (by omega), Nat.add_sub_cancel_left,
    List.getElem?_append_left hk, List.getD_eq_getElem _ _ hk, List.getElem?_eq_getElem hk]

section Nodes

variable {j count : ℕ} {js : List ℕ} (hlevel : level.length < 2 ^ 31)
  (hj : before.length + 2 * j + 2 < 2 ^ 31)
include hlevel hj

theorem nodes_of_none (hnone : Building.nodeString level 0 level.length j = none)
    (hashes : List Hash) :
    nodes (pushNode H) before.length level.length (j :: js) (hashes, count) =
      nodes (pushNode H) before.length level.length js (hashes, count) := by
  simp only [Building.nodeString] at hnone
  split_ifs at hnone with htwo hone
  rw [nodes, children_eq hlevel hj, if_neg htwo, if_neg hone]
  rfl

theorem nodes_of_some {string : Bytes} (hcount : count + 1 < 2 ^ 31)
    (hstring : Building.nodeString level 0 level.length j = some string) :
    nodes (pushNode H) before.length level.length (j :: js) (before ++ level ++ done, count) =
      nodes (pushNode H) before.length level.length js
        (before ++ level ++ (done ++ [H string]), count + 1) := by
  simp only [Building.nodeString, Nat.zero_add] at hstring
  rw [nodes, children_eq hlevel hj]
  split_ifs at hstring with htwo hone
  · obtain rfl := Option.some.inj hstring
    simp only [if_pos htwo, pushNode, Nat.add_assoc, Option.bind_eq_bind, Option.bind_some]
    rw [getElem?_level (by omega), getElem?_level (by omega), Option.bind_some, Option.bind_some,
      Option.bind_some, int_eq hcount, Option.bind_some, List.append_assoc]
  · obtain rfl := Option.some.inj hstring
    simp only [if_neg htwo, if_pos hone, pushNode, Option.bind_eq_bind, Option.bind_some]
    rw [getElem?_level (by omega), Option.bind_some, Option.bind_some, Option.bind_some,
      int_eq hcount, Option.bind_some, List.append_assoc]

end Nodes

theorem nodes_eq (hlevel : level.length < 2 ^ 31) (js : List ℕ) (count : ℕ)
    (hjs : ∀ j ∈ js, before.length + 2 * j + 2 < 2 ^ 31) (hcount : count + js.length < 2 ^ 31) :
    nodes (pushNode H) before.length level.length js (before ++ level ++ done, count) =
      some (before ++ level ++ done ++
          (js.filterMap (Building.nodeString level 0 level.length)).map H,
        count + (js.filterMap (Building.nodeString level 0 level.length)).length) := by
  induction js generalizing done count with
  | nil => simp [nodes]
  | cons j js ih =>
    have hrest : ∀ k ∈ js, before.length + 2 * k + 2 < 2 ^ 31 := fun k hk =>
      hjs k (List.mem_cons_of_mem _ hk)
    have hj := hjs j List.mem_cons_self
    rw [List.length_cons] at hcount
    cases hstring : Building.nodeString level 0 level.length j with
    | none =>
      rw [nodes_of_none hlevel hj hstring, List.filterMap_cons_none hstring]
      exact ih count hrest (by omega)
    | some string =>
      rw [nodes_of_some hlevel hj (by omega) hstring, List.filterMap_cons_some hstring,
        ih (count + 1) hrest (by omega)]
      simp only [List.map_cons, List.append_assoc, List.cons_append, List.nil_append,
        List.length_cons, Option.some.injEq, Prod.mk.injEq, true_and]
      omega

def ofBuilding (b : Building) : LevelLoop (List Hash) := ⟨b.hashes, b.nodeCount, b.elementsPerLevel⟩

variable {b : Building} {i : ℕ}

theorem turn_eq (h : b.Holds level) (hne : b.elementsPerLevel ≠ [])
    (hle : level.length ≤ 2 ^ (i + 1)) (hsize : b.nodeCount + 2 ^ (i + 2) ≤ 2 ^ 31) :
    (ofBuilding b).turn (pushNode H) i = some (ofBuilding (b.level H i)) := by
  have hstrings : b.levelStrings i =
      (List.range (1 <<< i)).filterMap (Building.nodeString level 0 level.length) := by
    rw [h.levelStrings hle, Building.filterMap_nodeString _ _ (by rw [Nat.one_shiftLeft]; omega)]
  obtain ⟨before, hhashes, hcount, hback⟩ := h
  have hlast : b.elementsPerLevel.getLast? = some level.length := by
    rw [Building.back] at hback
    rw [List.getLast?_eq_some_getLast hne] at hback ⊢
    exact congrArg some hback
  have hpow : 2 ^ (i + 1) = 2 * 2 ^ i ∧ 2 ^ (i + 2) = 4 * 2 ^ i := by
    constructor <;> ring
  have hpos : 0 < 2 ^ i := Nat.two_pow_pos i
  have hbounds : ∀ j ∈ List.range (1 <<< i), before.length + 2 * j + 2 < 2 ^ 31 := by
    intro j hj
    rw [List.mem_range, Nat.one_shiftLeft] at hj
    omega
  have hnodes : nodes (pushNode H) before.length level.length (List.range (1 <<< i))
      (before ++ level ++ [], 0) = _ := nodes_eq (by omega) _ 0 hbounds (by
    rw [List.length_range, Nat.one_shiftLeft]
    omega)
  rw [List.append_nil, ← hhashes, ← hcount, ← hstrings] at hnodes
  simp only [turn, ofBuilding, hlast, Option.bind_eq_bind, Option.bind_some]
  rw [int_eq (by rw [Nat.one_shiftLeft]; omega), Option.bind_some, hnodes, Option.bind_some,
    int_eq (by omega), Option.bind_some, Building.level, hback, Nat.zero_add]

theorem turns_eq (h : b.Holds level) (hne : b.elementsPerLevel ≠ []) (hle : level.length ≤ 2 ^ i)
    (hsize : b.nodeCount + 2 ^ (i + 1) ≤ 2 ^ 31) :
    (ofBuilding b).turns (pushNode H) i = some (ofBuilding (b.levels H i)) := by
  induction i generalizing b level with
  | zero => rfl
  | succ i ih =>
    rw [turns, turn_eq h hne hle hsize, Option.bind_eq_bind, Option.bind_some, Building.levels]
    refine ih (h.level hle) (by simp [Building.level]) ?_ ?_
    · rw [length_parents]
      rw [pow_succ] at hle
      omega
    · obtain ⟨before, -, -, hback⟩ := h
      rw [Building.level, hback]
      rw [pow_succ 2 (i + 1)] at hsize
      simp only
      omega

end LevelLoop

theorem Building.Holds.vectors {H : Bytes → Hash} {level : List Hash} {b : Building} {i : ℕ}
    (h : b.Holds level) (hle : level.length ≤ 2 ^ i) :
    (b.levels H i).hashes = b.hashes ++
        ((List.range i).map fun k => above H Hash.concat (k + 1) level).flatten ∧
      (b.levels H i).elementsPerLevel = b.elementsPerLevel ++
        (List.range i).map fun k => (above H Hash.concat (k + 1) level).length := by
  induction i generalizing b level with
  | zero => simp [Building.levels]
  | succ i ih =>
    have hstrings := h.levelStrings hle
    have hparents : (parents H Hash.concat level).length ≤ 2 ^ i := by
      rw [length_parents]
      rw [pow_succ] at hle
      omega
    obtain ⟨hhashes, hcounts⟩ := ih (h.level (H := H) hle) hparents
    rw [Building.levels, hhashes, hcounts, List.range_succ_eq_map]
    simp only [above_parents, Building.level, hstrings, List.map_cons, List.map_map,
      List.flatten_cons, List.append_assoc]
    exact ⟨rfl, by simp [above, parents, Function.comp_def]⟩

/-- The vectors are made up of levels from the leaves up to one node; a node of an upper level is
the hash of the digits of the nodes `2 * j` and `2 * j + 1` below it, of the first one twice where
there is no second one. -/
structure HashTree.Layered (H : Bytes → Hash) (leaves : List Hash) (t : HashTree)
    (levels : ℕ → List Hash) : Prop where
  lowest : levels 0 = leaves
  length : ∀ k, (levels k).length = leaves.length ⌈/⌉ 2 ^ k
  node : ∀ k j, (levels (k + 1))[j]? = (levels k)[2 * j]?.map fun left =>
    H (left.getString ++ ((levels k)[2 * j + 1]?.getD left).getString)
  elementsPerLevel : t.elementsPerLevel =
    (List.range (Nat.clog 2 leaves.length + 1)).map fun k => leaves.length ⌈/⌉ 2 ^ k
  hashes : t.hashes = ((List.range (Nat.clog 2 leaves.length + 1)).map levels).flatten
  top : ∃ top, levels (Nat.clog 2 leaves.length) = [top] ∧ t.getTopHash = some top

section Structure

variable (H : Bytes → Hash) {xs : List HashPtr}

theorem start_holds (xs : List HashPtr) : (Building.start xs).Holds (leafHashes xs) :=
  ⟨[], rfl, rfl, rfl⟩

theorem makeHashTree_layered (hne : leafHashes xs ≠ []) :
    (makeHashTree H xs).Layered H (leafHashes xs) fun k =>
      above H Hash.concat k (leafHashes xs) := by
  have hpos : 0 < (leafHashes xs).length := List.length_pos_of_ne_nil hne
  have hle : (leafHashes xs).length ≤ 2 ^ Nat.clog 2 (leafHashes xs).length :=
    Nat.le_pow_clog Nat.one_lt_two _
  obtain ⟨hhashes, hcounts⟩ := (start_holds xs).vectors (H := H) hle
  have htree : makeHashTree H xs =
      ⟨((Building.start xs).levels H (Nat.clog 2 (leafHashes xs).length)).hashes,
        ((Building.start xs).levels H (Nat.clog 2 (leafHashes xs).length)).elementsPerLevel⟩ := by
    rw [makeHashTree, if_pos hpos, treeDepth_eq]
  have hone : (above H Hash.concat (Nat.clog 2 (leafHashes xs).length) (leafHashes xs)).length = 1 :=
    length_above hpos hle
  obtain ⟨root, hroot⟩ := List.length_eq_one_iff.1 hone
  have hflat : (makeHashTree H xs).hashes = ((List.range (Nat.clog 2 (leafHashes xs).length + 1)).map
      fun k => above H Hash.concat k (leafHashes xs)).flatten := by
    rw [htree, List.range_succ_eq_map, List.map_cons, List.flatten_cons, List.map_map]
    exact hhashes
  refine ⟨rfl, fun k => length_above_eq k _, fun k j => getElem?_parents _ _, ?_, hflat, root, hroot,
    ?_⟩
  · rw [htree, List.range_succ_eq_map, List.map_cons, List.map_map]
    simp only [hcounts, length_above_eq]
    simp [Building.start, Function.comp_def]
  · rw [HashTree.getTopHash, hflat, List.range_succ, List.map_append, List.flatten_append]
    simp [hroot]

theorem HashTree.makeHashTree_eq (t : HashTree) (hsize : (leafHashes xs).length ≤ 2 ^ 29) :
    t.makeHashTree H xs = some (Flocksy.makeHashTree H xs) := by
  have hclog : Nat.clog 2 (leafHashes xs).length ≤ 29 := Nat.clog_le_of_le_pow hsize
  have hpow : 2 ^ (Nat.clog 2 (leafHashes xs).length + 1) ≤ 2 ^ 30 :=
    Nat.pow_le_pow_right (by decide) (by omega)
  have hsizes : sizeLoop ((leafHashes xs).length : ℕ) ((leafHashes xs).length + 1) ⟨1, 1, 0⟩ = _ :=
    sizeLoop_eq hsize ((leafHashes xs).length + 1) 0 (Nat.zero_le _)
      (Nat.lt_succ_of_le (clog_le_self _))
  rw [HashTree.makeHashTree, int_eq (by omega)]
  simp only [Option.bind_eq_bind, Option.bind_some]
  rw [hsizes, Option.bind_some, Flocksy.makeHashTree]
  split_ifs with hpos
  · have hturns := LevelLoop.turns_eq (H := H) (start_holds xs) (by simp [Building.start])
      (Nat.le_pow_clog Nat.one_lt_two _) (by simp only [Building.start]; omega)
    rw [ofDepth_treeSize_succ, int32_natCast (by omega), Option.bind_some,
      Sizes.ofDepth_treeDepth, Int.toNat_natCast, List.nil_append]
    simp only [LevelLoop.ofBuilding, Building.start] at hturns
    rw [hturns, treeDepth_eq]
    rfl
  · rfl

/-- The method builds the levels of the tree, for any number of leaves up to 2^29 and whatever the
object held before: `elements_per_level_` are the leaves, halved and rounded up down to one, and no
access is out of range. Without leaves both vectors are empty. -/
theorem makeHashTree_structure (t : HashTree) (xs : List HashPtr)
    (hsize : (leafHashes xs).length ≤ 2 ^ 29) : ∃ t', t.makeHashTree H xs = some t' ∧
      (leafHashes xs ≠ [] → ∃ levels, t'.Layered H (leafHashes xs) levels) ∧
      (leafHashes xs = [] → t'.hashes = [] ∧ t'.elementsPerLevel = []) := by
  refine ⟨makeHashTree H xs, t.makeHashTree_eq H hsize, fun hne => ⟨_, makeHashTree_layered H hne⟩,
    fun hnil => ?_⟩
  rw [Flocksy.makeHashTree, hnil]
  exact ⟨rfl, rfl⟩

end Structure

theorem makeHashTree_structure_sample : ∃ t',
    (⟨[], [7]⟩ : HashTree).makeHashTree Sample.generichash
      (hashAll Sample.generichash [(0, Sample.leafA), (1, Sample.leafB)]) = some t' ∧
      ∃ levels, t'.Layered Sample.generichash
        (leafHashes (hashAll Sample.generichash [(0, Sample.leafA), (1, Sample.leafB)])) levels := by
  obtain ⟨t', heq, hlayered, -⟩ := makeHashTree_structure Sample.generichash ⟨[], [7]⟩
    (hashAll Sample.generichash [(0, Sample.leafA), (1, Sample.leafB)]) (by decide +kernel)
  exact ⟨t', heq, hlayered (leafHashes_ne_nil (by decide))⟩

end Flocksy
