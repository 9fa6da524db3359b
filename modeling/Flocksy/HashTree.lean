import Flocksy.Foundation.MerkleTree
import Flocksy.Foundation.SortedLists
import Flocksy.FileRecord

/-!
# The hash tree

`makeHashTree` sorts the hashes it is given and lays the levels of the tree behind each other, the
leaves first. What is hashed for a node are the hexadecimal digits of its children. The hash
function is that of the library, and a parameter here; the sizes stay so small that the counters of
the source do not overflow.
-/

namespace Flocksy

open ByteStream MerkleTree SortedLists

/-- A digit as `std::hex` writes it. -/
def hexDigit (n : ℕ) : UInt8 := UInt8.ofNat (if n < 10 then 48 + n else 87 + n)

def hexByte (b : UInt8) : Bytes := [hexDigit (b.toNat / 16), hexDigit (b.toNat % 16)]

namespace Hash

/-- `Hash::getString` of a hash that is not empty. -/
def getString (h : Hash) : Bytes := h.bytes.flatMap hexByte

theorem getString_length (h : Hash) : h.getString.length = 128 := by
  have hbytes (bs : Bytes) : (bs.flatMap hexByte).length = 2 * bs.length := by
    induction bs with
    | nil => rfl
    | cons b bs ih =>
      simp only [List.flatMap_cons, List.length_append, List.length_cons, ih, hexByte]
      simp only [List.length_nil]
      omega
  rw [getString, hbytes, h.length_eq]
  rfl

theorem hexDigit_inj {m n : ℕ} (hm : m < 16) (hn : n < 16) (h : hexDigit m = hexDigit n) :
    m = n := by
  rw [hexDigit, hexDigit, ← UInt8.toNat_inj, UInt8.toNat_ofNat', UInt8.toNat_ofNat'] at h
  split_ifs at h <;> omega

theorem hexByte_inj {b c : UInt8} (h : hexByte b = hexByte c) : b = c := by
  have hb := b.toNat_lt
  have hc := c.toNat_lt
  simp only [hexByte, List.cons.injEq, and_true] at h
  have hhigh := hexDigit_inj (by omega) (by omega) h.1
  have hlow := hexDigit_inj (by omega) (by omega) h.2
  rw [← UInt8.toNat_inj]
  omega

theorem flatMap_hexByte_inj {bs cs : Bytes} (h : bs.flatMap hexByte = cs.flatMap hexByte) :
    bs = cs := by
  induction bs generalizing cs with
  | nil =>
    cases cs with
    | nil => rfl
    | cons c cs => simp [hexByte] at h
  | cons b bs ih =>
    cases cs with
    | nil => simp [hexByte] at h
    | cons c cs =>
      rw [List.flatMap_cons, List.flatMap_cons] at h
      obtain ⟨hhead, htail⟩ := List.append_inj h rfl
      rw [hexByte_inj hhead, ih htail]

theorem getString_injective : Function.Injective getString := by
  intro a b h
  have hbytes := flatMap_hexByte_inj h
  cases a
  cases b
  simpa using hbytes

theorem slash_notMem_getString (h : Hash) : slash ∉ h.getString := by
  intro hmem
  obtain ⟨b, -, hb⟩ := List.mem_flatMap.1 hmem
  have hdigit (n : ℕ) (hn : n < 16) : slash ≠ hexDigit n := by
    intro h
    rw [hexDigit, ← UInt8.toNat_inj, UInt8.toNat_ofNat'] at h
    have hslash : slash.toNat = 47 := rfl
    split_ifs at h <;> omega
  have hlt := b.toNat_lt
  simp only [hexByte, List.mem_cons, List.not_mem_nil, or_false] at hb
  rcases hb with hb | hb
  · exact hdigit _ (by omega) hb
  · exact hdigit _ (by omega) hb

def concat (a b : Hash) : Bytes := a.getString ++ b.getString

theorem concat_injective : Function.Injective2 concat := by
  intro a a' b b' h
  obtain ⟨ha, hb⟩ := List.append_inj h (by rw [getString_length, getString_length])
  exact ⟨getString_injective ha, getString_injective hb⟩

theorem slash_notMem_concat (a b : Hash) : slash ∉ concat a b := by
  rw [concat, List.mem_append]
  exact not_or.2 ⟨slash_notMem_getString a, slash_notMem_getString b⟩

end Hash

/-- `std::shared_ptr<Hash>`. `std::unique` compares the pointers. -/
structure HashPtr where
  addr : ℕ
  hash : Hash
  deriving DecidableEq

/-- The hashes of the lowest level: sorted, and without the pointers that stand twice in a row. -/
def leafHashes (tempHashes : List HashPtr) : List Hash :=
  ((tempHashes.insertionSort fun p q => p.hash.bytes ≤ q.hash.bytes).destutter (· ≠ ·)).map (·.hash)

/-- `while ( (1 + ((hash_count - 1) / tree_leaf_count)) > 1 )`. -/
def growDepth (hashCount : ℕ) : ℕ → ℕ → ℕ → ℕ
  | 0, _, treeDepth => treeDepth
  | fuel + 1, treeLeafCount, treeDepth =>
    if 1 + (hashCount - 1) / treeLeafCount > 1 then
      growDepth hashCount fuel (treeLeafCount <<< 1) (treeDepth + 1)
    else treeDepth

def treeDepth (hashCount : ℕ) : ℕ := growDepth hashCount hashCount 1 0

structure Building where
  hashes : List Hash
  nodeCount : ℕ
  elementsPerLevel : List ℕ

namespace Building

/-- `elements_per_level_.back()`. -/
def back (b : Building) : ℕ := b.elementsPerLevel.getLast?.getD 0

/-- What is hashed for the node `j` of the next level. -/
def nodeString (hashes : List Hash) (nodeCount back j : ℕ) : Option Bytes :=
  let offset := 2 * j
  let currItem := nodeCount + offset
  if offset + 2 ≤ back then
    some ((hashes.getD currItem default).getString ++ (hashes.getD (currItem + 1) default).getString)
  else if offset + 2 - back = 1 then
    let string := (hashes.getD currItem default).getString
    some (string ++ string)
  else none

def levelStrings (b : Building) (i : ℕ) : List Bytes :=
  (List.range (1 <<< i)).filterMap (nodeString b.hashes b.nodeCount b.back)

variable (H : Bytes → Hash)

def level (b : Building) (i : ℕ) : Building :=
  let strings := b.levelStrings i
  { hashes := b.hashes ++ strings.map H
    nodeCount := b.nodeCount + b.back
    elementsPerLevel := b.elementsPerLevel ++ [strings.length] }

/-- The turns for the levels from `i - 1` down to 0. -/
def levels (b : Building) : ℕ → Building
  | 0 => b
  | i + 1 => (b.level H i).levels i

def concatenations (b : Building) : ℕ → List Bytes
  | 0 => []
  | i + 1 => b.levelStrings i ++ (b.level H i).concatenations i

end Building

structure HashTree where
  hashes : List Hash
  elementsPerLevel : List ℕ

def Building.start (tempHashes : List HashPtr) : Building :=
  ⟨leafHashes tempHashes, 0, [(leafHashes tempHashes).length]⟩

def makeHashTree (H : Bytes → Hash) (tempHashes : List HashPtr) : HashTree :=
  let hashCount := (leafHashes tempHashes).length
  if hashCount > 0 then
    let b := (Building.start tempHashes).levels H (treeDepth hashCount)
    ⟨b.hashes, b.elementsPerLevel⟩
  else ⟨[], []⟩

/-- What is hashed by `makeHashTree`. -/
def treeStrings (H : Bytes → Hash) (tempHashes : List HashPtr) : List Bytes :=
  (Building.start tempHashes).concatenations H (treeDepth (leafHashes tempHashes).length)

namespace HashTree

/-- `getTopHash`; `none` is the empty hash. -/
def getTopHash (t : HashTree) : Option Hash := t.hashes.getLast?

/-- `getTopHash()->getString()`. -/
def topString (t : HashTree) : Bytes := (t.getTopHash.map Hash.getString).getD []

/-- `checkHashTreeChange`; `none` stands for `back()` of an empty vector. -/
def checkHashTreeChange (t lhs : HashTree) : Option Bool :=
  t.hashes.getLast?.map fun back => decide (lhs.topString ≠ back.getString)

def uniqueLeaves (t : HashTree) (count : ℕ) : List Hash :=
  ((t.hashes.take count).insertionSort fun a b => a.bytes ≤ b.bytes).destutter (· ≠ ·)

/-- `std::set_symmetric_difference`. -/
def setSymmetricDifference : List Hash → List Hash → List Hash
  | [], right => right
  | left, [] => left
  | a :: left, b :: right =>
    if a.bytes < b.bytes then a :: setSymmetricDifference left (b :: right)
    else if b.bytes < a.bytes then b :: setSymmetricDifference (a :: left) right
    else setSymmetricDifference left right
termination_by left right => left.length + right.length

/-- `getChangedHashes`: what it returns, and `changed_hashes`; `none` stands for `back()` or
`front()` of an empty vector. -/
def getChangedHashes (t : HashTree) (changedHashes : List Hash) (lhs : HashTree) :
    Option (Bool × List Hash) := do
  if ← t.checkHashTreeChange lhs then
    let leftCount ← lhs.elementsPerLevel.head?
    let rightCount ← t.elementsPerLevel.head?
    some (true, setSymmetricDifference (lhs.uniqueLeaves leftCount) (t.uniqueLeaves rightCount))
  else some (false, changedHashes)

end HashTree

theorem mem_leafHashes {tempHashes : List HashPtr} {h : Hash} :
    h ∈ leafHashes tempHashes ↔ ∃ p ∈ tempHashes, p.hash = h := by
  simp only [leafHashes, List.mem_map, mem_destutter, List.mem_insertionSort]

theorem leafHashes_ne_nil {tempHashes : List HashPtr} (h : tempHashes ≠ []) :
    leafHashes tempHashes ≠ [] := by
  obtain ⟨p, hp⟩ := List.exists_mem_of_ne_nil _ h
  exact List.ne_nil_of_mem (mem_leafHashes.2 ⟨p, hp, rfl⟩)

theorem growsOn_iff (hashCount depth : ℕ) :
    1 + (hashCount - 1) / 2 ^ depth > 1 ↔ depth < Nat.clog 2 hashCount := by
  have hpos : 0 < 2 ^ depth := Nat.two_pow_pos depth
  rw [← not_le, Nat.clog_le_iff_le_pow Nat.one_lt_two, gt_iff_lt, Nat.lt_add_right_iff_pos,
    Nat.div_pos_iff]
  omega

theorem growDepth_eq {hashCount : ℕ} (fuel depth : ℕ) (hle : depth ≤ Nat.clog 2 hashCount)
    (hfuel : Nat.clog 2 hashCount ≤ fuel + depth) :
    growDepth hashCount fuel (2 ^ depth) depth = Nat.clog 2 hashCount := by
  induction fuel generalizing depth with
  | zero =>
    rw [growDepth]
    omega
  | succ fuel ih =>
    have hdouble : 2 ^ depth <<< 1 = 2 ^ (depth + 1) := by
      rw [Nat.shiftLeft_eq, pow_one, pow_succ]
    rw [growDepth, hdouble]
    by_cases hmore : depth < Nat.clog 2 hashCount
    · rw [if_pos ((growsOn_iff _ _).2 hmore)]
      exact ih (depth + 1) hmore (by omega)
    · rw [if_neg fun h => hmore ((growsOn_iff _ _).1 h)]
      omega

theorem clog_le_self (hashCount : ℕ) : Nat.clog 2 hashCount ≤ hashCount :=
  Nat.clog_le_of_le_pow Nat.lt_two_pow_self.le

theorem treeDepth_eq (hashCount : ℕ) : treeDepth hashCount = Nat.clog 2 hashCount :=
  growDepth_eq hashCount 0 (Nat.zero_le _) (clog_le_self hashCount)

theorem le_two_pow_treeDepth (hashCount : ℕ) : hashCount ≤ 2 ^ treeDepth hashCount := by
  rw [treeDepth_eq]
  exact Nat.le_pow_clog Nat.one_lt_two _

namespace Building

theorem nodeString_append (before level : List Hash) (back j : ℕ) :
    nodeString (before ++ level) before.length back j = nodeString level 0 back j := by
  have hget (k : ℕ) : (before ++ level).getD (before.length + k) default = level.getD k default := by
    simp [List.getD, List.getElem?_append_right]
  simp only [nodeString, Nat.add_assoc, hget, Nat.zero_add]

theorem nodeString_cons_cons (a b : Hash) (level : List Hash) (j : ℕ) :
    nodeString (a :: b :: level) 0 (a :: b :: level).length (j + 1) =
      nodeString level 0 level.length j := by
  have hoffset : 2 * (j + 1) = 2 * j + 2 := by ring
  have hle : 2 * j + 2 + 2 ≤ level.length + 1 + 1 ↔ 2 * j + 2 ≤ level.length := by omega
  have hone : 2 * j + 2 + 2 - (level.length + 1 + 1) = 1 ↔ 2 * j + 2 - level.length = 1 := by omega
  simp only [nodeString, hoffset, List.length_cons, hle, hone, Nat.zero_add]
  rfl

/-- The nodes of the next level are those of the library. -/
theorem filterMap_nodeString (level : List Hash) (m : ℕ) (hle : level.length ≤ 2 * m) :
    (List.range m).filterMap (nodeString level 0 level.length) = joins Hash.concat level := by
  induction level using pairs.induct generalizing m with
  | case1 =>
    have hnone : ∀ j ∈ List.range m, nodeString [] 0 0 j = none := by
      intro j _
      simp [nodeString]
    rw [List.length_nil, List.filterMap_eq_nil_iff.2 hnone]
    simp [joins, pairs]
  | case2 a =>
    obtain ⟨m, rfl⟩ : ∃ k, m = k + 1 := ⟨m - 1, by simp at hle; omega⟩
    have hnone : ∀ j ∈ (List.range m).map Nat.succ, nodeString [a] 0 1 j = none := by
      intro j hj
      obtain ⟨k, -, rfl⟩ := List.mem_map.1 hj
      have htwo : ¬ 2 * (k + 1) + 2 ≤ 1 := by omega
      have hone : ¬ 2 * (k + 1) + 2 - 1 = 1 := by omega
      simp only [nodeString, Nat.succ_eq_add_one, if_neg htwo, if_neg hone]
    rw [List.length_singleton, List.range_succ_eq_map, List.filterMap_cons,
      List.filterMap_eq_nil_iff.2 hnone]
    simp [nodeString, joins, pairs, Hash.concat]
  | case3 a b level ih =>
    simp only [List.length_cons] at hle
    obtain ⟨m, rfl⟩ : ∃ k, m = k + 1 := ⟨m - 1, by omega⟩
    have hrest : (nodeString (a :: b :: level) 0 (a :: b :: level).length) ∘ Nat.succ =
        nodeString level 0 level.length := by
      funext j
      exact nodeString_cons_cons a b level j
    have hfirst : nodeString (a :: b :: level) 0 (a :: b :: level).length 0 =
        some (Hash.concat a b) := by
      simp [nodeString, Hash.concat]
    rw [List.range_succ_eq_map, List.filterMap_cons, hfirst, List.filterMap_map, hrest,
      ih m (by omega)]
    simp [joins, pairs]

/-- `level` is the level that was built last. -/
def Holds (b : Building) (level : List Hash) : Prop :=
  ∃ before, b.hashes = before ++ level ∧ b.nodeCount = before.length ∧ b.back = level.length

variable {H : Bytes → Hash} {b : Building} {nodes : List Hash} {i : ℕ}

theorem Holds.levelStrings (h : b.Holds nodes) (hle : nodes.length ≤ 2 ^ (i + 1)) :
    b.levelStrings i = joins Hash.concat nodes := by
  obtain ⟨before, hhashes, hcount, hback⟩ := h
  have hnode : nodeString b.hashes b.nodeCount b.back = nodeString nodes 0 nodes.length := by
    funext j
    rw [hhashes, hcount, hback, nodeString_append]
  rw [Building.levelStrings, hnode, Nat.shiftLeft_eq, Nat.one_mul]
  apply filterMap_nodeString
  rw [pow_succ] at hle
  omega

theorem Holds.level (h : b.Holds nodes) (hle : nodes.length ≤ 2 ^ (i + 1)) :
    (b.level H i).Holds (parents H Hash.concat nodes) := by
  have hstrings := h.levelStrings hle
  obtain ⟨before, hhashes, hcount, hback⟩ := h
  refine ⟨before ++ nodes, ?_, ?_, ?_⟩
  · simp only [Building.level, hstrings, hhashes, parents]
  · simp only [Building.level, hcount, hback, List.length_append]
  · simp [Building.level, back, hstrings, parents]

theorem Holds.levels (h : b.Holds nodes) (hle : nodes.length ≤ 2 ^ i) :
    (b.levels H i).Holds (above H Hash.concat i nodes) ∧
      b.concatenations H i = joinsAbove H Hash.concat i nodes := by
  induction i generalizing b nodes with
  | zero => exact ⟨h, rfl⟩
  | succ i ih =>
    have hparents : (parents H Hash.concat nodes).length ≤ 2 ^ i := by
      rw [length_parents]
      rw [pow_succ] at hle
      omega
    obtain ⟨hlevels, hstrings⟩ := ih (h.level (H := H) hle) hparents
    rw [Building.levels, concatenations, hstrings, h.levelStrings hle, ← above_parents,
      joinsAbove_parents]
    exact ⟨hlevels, rfl⟩

end Building

section Top

variable {H : Bytes → Hash} {xs ys : List HashPtr}

theorem makeHashTree_top (hx : xs ≠ []) : ∃ root depth,
    (makeHashTree H xs).getTopHash = some root ∧
      above H Hash.concat depth (leafHashes xs) = [root] ∧
      treeStrings H xs = joinsAbove H Hash.concat depth (leafHashes xs) := by
  have hpos : 0 < (leafHashes xs).length := List.length_pos_of_ne_nil (leafHashes_ne_nil hx)
  have hle := le_two_pow_treeDepth (leafHashes xs).length
  have hstart : (Building.start xs).Holds (leafHashes xs) :=
    ⟨[], rfl, rfl, rfl⟩
  obtain ⟨⟨before, hhashes, -, -⟩, hstrings⟩ := hstart.levels (H := H) hle
  have hone : (above H Hash.concat (treeDepth (leafHashes xs).length) (leafHashes xs)).length = 1 :=
    length_above hpos hle
  obtain ⟨root, hroot⟩ := List.length_eq_one_iff.1 hone
  refine ⟨root, _, ?_, hroot, hstrings⟩
  rw [HashTree.getTopHash, makeHashTree]
  simp only [if_pos hpos, hhashes, hroot, List.getLast?_concat]

theorem topString_of_top {t : HashTree} {root : Hash} (h : t.getTopHash = some root) :
    t.topString = root.getString := by
  rw [HashTree.topString, h]
  rfl

theorem topString_length (hx : xs ≠ []) : (makeHashTree H xs).topString.length = 128 := by
  obtain ⟨root, -, htop, -⟩ := makeHashTree_top (H := H) hx
  rw [topString_of_top htop, Hash.getString_length]

theorem leaves_of_topString {strings : Set Bytes} (hH : Set.InjOn H strings) (hx : xs ≠ [])
    (hy : ys ≠ []) (hxleaf : ∀ p ∈ xs, IsLeaf H Hash.concat strings p.hash)
    (hyleaf : ∀ p ∈ ys, IsLeaf H Hash.concat strings p.hash)
    (hxs : ∀ t ∈ treeStrings H xs, t ∈ strings) (hys : ∀ t ∈ treeStrings H ys, t ∈ strings)
    (htop : (makeHashTree H xs).topString = (makeHashTree H ys).topString) (h : Hash) :
    (∃ p ∈ xs, p.hash = h) ↔ ∃ p ∈ ys, p.hash = h := by
  obtain ⟨xroot, n, hxtop, hxroot, hxjoins⟩ := makeHashTree_top (H := H) hx
  obtain ⟨yroot, m, hytop, hyroot, hyjoins⟩ := makeHashTree_top (H := H) hy
  rw [topString_of_top hxtop, topString_of_top hytop] at htop
  obtain rfl := Hash.getString_injective htop
  rw [hxjoins] at hxs
  rw [hyjoins] at hys
  have hxleaves : ∀ a ∈ leafHashes xs, IsLeaf H Hash.concat strings a := by
    intro a ha
    obtain ⟨p, hp, rfl⟩ := mem_leafHashes.1 ha
    exact hxleaf p hp
  have hyleaves : ∀ a ∈ leafHashes ys, IsLeaf H Hash.concat strings a := by
    intro a ha
    obtain ⟨p, hp, rfl⟩ := mem_leafHashes.1 ha
    exact hyleaf p hp
  have hagree := leaves_of_root hH Hash.concat_injective (leafHashes_ne_nil hx)
    (leafHashes_ne_nil hy) hxleaves hyleaves hxs hys hxroot hyroot
  rw [← mem_leafHashes, ← mem_leafHashes]
  exact hagree h

end Top

theorem insertionSort_sorted (xs : List HashPtr) :
    (xs.insertionSort fun p q => p.hash.bytes ≤ q.hash.bytes).Pairwise
      fun p q => p.hash.bytes ≤ q.hash.bytes := by
  have htotal : Std.Total fun p q : HashPtr => p.hash.bytes ≤ q.hash.bytes :=
    ⟨fun p q => List.le_total p.hash.bytes q.hash.bytes⟩
  have htrans : IsTrans HashPtr fun p q => p.hash.bytes ≤ q.hash.bytes :=
    ⟨fun _ _ _ => List.le_trans⟩
  exact List.pairwise_insertionSort _ xs

theorem leafHashes_sorted (xs : List HashPtr) :
    (leafHashes xs).Pairwise fun a b => a.bytes ≤ b.bytes := by
  rw [leafHashes, List.pairwise_map]
  exact (insertionSort_sorted xs).sublist (List.destutter_sublist _ _)

theorem leafHashes_perm {xs : List HashPtr} (hx : xs.Nodup) :
    (leafHashes xs).Perm (xs.map (·.hash)) := by
  have hsort := xs.perm_insertionSort fun p q => p.hash.bytes ≤ q.hash.bytes
  rw [leafHashes, List.destutter_of_isChain _ _ (hsort.nodup_iff.2 hx).isChain]
  exact hsort.map _

theorem leafHashes_of_perm (hx : xs.Nodup) (hy : ys.Nodup)
    (hperm : (xs.map (·.hash)).Perm (ys.map (·.hash))) : leafHashes xs = leafHashes ys := by
  have hle : (leafHashes xs).Perm (leafHashes ys) :=
    (leafHashes_perm hx).trans (hperm.trans (leafHashes_perm hy).symm)
  refine hle.eq_of_pairwise (fun a b _ _ hab hba => ?_) (leafHashes_sorted xs) (leafHashes_sorted ys)
  have hbytes : a.bytes = b.bytes := List.le_antisymm hab hba
  cases a
  cases b
  simpa using hbytes

theorem isLeaf_of_slash {H : Bytes → Hash} {strings : Set Bytes} {s : Bytes} (hs : s ∈ strings)
    (hslash : slash ∈ s) : IsLeaf H Hash.concat strings (H s) := by
  refine ⟨s, hs, rfl, ?_⟩
  rintro a b rfl
  exact Hash.slash_notMem_concat a b hslash

/-- Each string is hashed into a `Hash` of its own. -/
def hashAll (H : Bytes → Hash) (xs : List (ℕ × Bytes)) : List HashPtr :=
  xs.map fun p => ⟨p.1, H p.2⟩

def hashedStrings (H : Bytes → Hash) (xs : List (ℕ × Bytes)) : Set Bytes :=
  {s | s ∈ xs.map Prod.snd ∨ s ∈ treeStrings H (hashAll H xs)}

/-- Two trees over hashes of strings with a slash have the same top hash only when they have the
same leaves. -/
theorem makeHashTree_binds (H : Bytes → Hash) {xs ys : List (ℕ × Bytes)} (hx : xs ≠ [])
    (hy : ys ≠ []) (hslash : ∀ p ∈ xs ++ ys, slash ∈ p.2)
    (hH : Set.InjOn H (hashedStrings H xs ∪ hashedStrings H ys))
    (htop : (makeHashTree H (hashAll H xs)).topString =
      (makeHashTree H (hashAll H ys)).topString) (h : Hash) :
    h ∈ (hashAll H xs).map (·.hash) ↔ h ∈ (hashAll H ys).map (·.hash) := by
  have hleaf (zs : List (ℕ × Bytes)) (hzs : ∀ p ∈ zs, slash ∈ p.2)
      (hsub : hashedStrings H zs ⊆ hashedStrings H xs ∪ hashedStrings H ys) :
      ∀ p ∈ hashAll H zs,
        IsLeaf H Hash.concat (hashedStrings H xs ∪ hashedStrings H ys) p.hash := by
    intro p hp
    obtain ⟨q, hq, rfl⟩ := List.mem_map.1 hp
    exact isLeaf_of_slash (hsub (.inl (List.mem_map_of_mem hq))) (hzs q hq)
  have hxne : hashAll H xs ≠ [] := by simpa [hashAll] using hx
  have hyne : hashAll H ys ≠ [] := by simpa [hashAll] using hy
  rw [List.mem_map, List.mem_map]
  exact leaves_of_topString hH hxne hyne
    (hleaf xs (fun p hp => hslash p (List.mem_append_left _ hp)) Set.subset_union_left)
    (hleaf ys (fun p hp => hslash p (List.mem_append_right _ hp)) Set.subset_union_right)
    (fun t ht => .inl (.inr ht)) (fun t ht => .inr (.inr ht)) htop h

namespace Sample

/-- What is hashed for a file `a` or `b` with the time 1. -/
def leafA : Bytes := ascii ['a', '/', '1']
def leafB : Bytes := ascii ['b', '/', '1']

def digest (high low : ℕ) : Hash := Hash.ofBytes (toBigEndian 32 high ++ toBigEndian 32 low)

def digestA : Hash := digest
  0x05d4a6dd00ceb7db5ed2f69d1c8703152c0daad22265e867b4440f1e3efc5c3f
  0xd4a1375112e078734e056ff37f03483a4764dc51bfa754a37eeb3620a31f7c25
def digestB : Hash := digest
  0xdf78540f1ee19dbdecd476a08dc2b7267f54861ece3ed5dc27be8733350a60ca
  0x1bc978d31feca354636c73b8e4f3eb6935b83d60dded512c08791d2bc7b58415
def digestAB : Hash := digest
  0xc2544dace2dd57b0a6d78501517928571f4ad47cb7795c90f48da5b85bcdf9e2
  0xf5683ef9741e5e557b6f5064051f77271b7471be3ad8d05aca13935a7c281775

/-- The hashes of the names `a`, `b` and `c`. -/
def dirA : Hash := digest
  0x333fcb4ee1aa7c115355ec66ceac917c8bfd815bf7587d325aec1864edd24e34
  0xd5abe2c6b1b5ee3face62fed78dbef802f2a85cb91d455a8f5249d330853cb3c
def dirB : Hash := digest
  0xc029c24b2c89db037fbf8b04930569fd8422f7c0d62f36c8dae35d03332139e5
  0x46a1126f6c75be43685598f48cefff1d05a3c74d804fcd5c0a53734cfb0bb862
def dirC : Hash := digest
  0x437f3ef49ef1381c1dcb18dbc11ee6efba9b74591da881fb9a7895aa70f14056
  0x3cfdd2b308beb05211ead01871c8de33efc566fcfea887377129d2a1aeadfd3e

def generichash (s : Bytes) : Hash :=
  if s = leafA then digestA
  else if s = leafB then digestB
  else if s = Hash.concat digestA digestB then digestAB
  else default

theorem generichash_injOn : Set.InjOn generichash
    (hashedStrings generichash [(0, leafA), (1, leafB)] ∪
      hashedStrings generichash [(0, leafB), (1, leafA)]) := by
  have hnodup : ([leafA, leafB, Hash.concat digestA digestB].map generichash).Nodup := by
    decide +kernel
  have hsub : ∀ s ∈ hashedStrings generichash [(0, leafA), (1, leafB)] ∪
      hashedStrings generichash [(0, leafB), (1, leafA)],
      s ∈ [leafA, leafB, Hash.concat digestA digestB] := by
    have hstrings : treeStrings generichash (hashAll generichash [(0, leafA), (1, leafB)]) =
          [Hash.concat digestA digestB] ∧
        treeStrings generichash (hashAll generichash [(0, leafB), (1, leafA)]) =
          [Hash.concat digestA digestB] := by
      decide +kernel
    rintro s ((h | h) | (h | h))
    · exact List.mem_append_left [Hash.concat digestA digestB] h
    · rw [hstrings.1] at h
      exact List.mem_append_right [leafA, leafB] h
    · exact List.mem_append_left [Hash.concat digestA digestB]
        ((List.Perm.swap leafA leafB []).mem_iff.1 h)
    · rw [hstrings.2] at h
      exact List.mem_append_right [leafA, leafB] h
  intro s hs t ht
  exact List.inj_on_of_nodup_map hnodup (hsub s hs) (hsub t ht)

end Sample

theorem makeHashTree_binds_sample :
    Sample.digestA ∈ (hashAll Sample.generichash [(0, Sample.leafA), (1, Sample.leafB)]).map (·.hash) ↔
      Sample.digestA ∈
        (hashAll Sample.generichash [(0, Sample.leafB), (1, Sample.leafA)]).map (·.hash) :=
  makeHashTree_binds Sample.generichash (by decide) (by decide) (by decide) Sample.generichash_injOn
    (by decide +kernel) Sample.digestA

end Flocksy
