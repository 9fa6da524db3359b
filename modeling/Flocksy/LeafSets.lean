import Flocksy.TreeLevels

/-!
# The leaves of a tree as a set

The lowest level of a tree is sorted by the bytes of the hashes, but what is dropped from it are
pointers that stand twice in a row, not values. The comparison of two trees drops values and merges
what is left, and it reaches into both trees for the size of their lowest level.
-/

namespace Flocksy

open ByteStream MerkleTree SortedLists

namespace Hash

/-- `hashSharedPointerLessThanFunctor`. -/
abbrev lt (a b : Hash) : Prop := a.bytes < b.bytes

theorem eq_of_bytes {a b : Hash} (h : a.bytes = b.bytes) : a = b := by
  cases a
  cases b
  simpa using h

theorem not_lt {a b : Hash} : ¬ lt a b ↔ b.bytes ≤ a.bytes := List.not_lt

instance : IsStrictTotalOrder Hash lt where
  trichotomous := fun _ _ hab hba =>
    eq_of_bytes (List.le_antisymm (not_lt.1 hba) (not_lt.1 hab))
  irrefl := fun a => List.lt_irrefl a.bytes
  trans := fun _ _ _ => List.lt_trans

end Hash

def HashTree.lowestLevel (t : HashTree) : List Hash := t.hashes.take (t.elementsPerLevel.headD 0)

section Leaves

variable (H : Bytes → Hash) {xs ys : List HashPtr}

theorem elementsPerLevel_head (hx : xs ≠ []) :
    (makeHashTree H xs).elementsPerLevel.head? = some (leafHashes xs).length := by
  rw [(makeHashTree_layered H (leafHashes_ne_nil hx)).elementsPerLevel, List.range_succ_eq_map]
  simp

theorem take_hashes (hx : xs ≠ []) :
    (makeHashTree H xs).hashes.take (leafHashes xs).length = leafHashes xs := by
  rw [(makeHashTree_layered H (leafHashes_ne_nil hx)).hashes, List.range_succ_eq_map,
    List.map_cons, List.flatten_cons]
  exact List.take_left

theorem makeHashTree_nil : makeHashTree H [] = ⟨[], []⟩ := rfl

theorem lowestLevel_eq (xs : List HashPtr) : (makeHashTree H xs).lowestLevel = leafHashes xs := by
  by_cases hx : xs = []
  · rw [hx]
    rfl
  · rw [HashTree.lowestLevel, List.headD_eq_head?_getD, elementsPerLevel_head H hx]
    exact take_hashes H hx

theorem mem_lowestLevel {h : Hash} :
    h ∈ (makeHashTree H xs).lowestLevel ↔ ∃ p ∈ xs, p.hash = h := by
  rw [lowestLevel_eq, mem_leafHashes]

end Leaves

theorem leafHashes_ascending_iff {xs : List HashPtr} :
    (leafHashes xs).Pairwise Hash.lt ↔ Set.InjOn HashPtr.hash {p | p ∈ xs} := by
  constructor
  · intro hsorted p hp q hq heq
    rw [leafHashes] at hsorted
    exact List.inj_on_of_nodup_map hsorted.nodup (mem_destutter.2 ((List.mem_insertionSort _).2 hp))
      (mem_destutter.2 ((List.mem_insertionSort _).2 hq)) heq
  · intro hinj
    have hdrop : leafHashes xs =
        ((xs.insertionSort fun p q => p.hash.bytes ≤ q.hash.bytes).map (·.hash)).destutter
          (· ≠ ·) := by
      refine List.map_destutter fun p hp q hq => not_congr ?_
      exact (hinj.eq_iff ((List.mem_insertionSort _).1 hp) ((List.mem_insertionSort _).1 hq)).symm
    rw [hdrop]
    refine pairwise_destutter ?_
    rw [List.pairwise_map]
    exact (insertionSort_sorted xs).imp Hash.not_lt.2

theorem leafHashes_of_values {xs ys : List HashPtr} (hx : Set.InjOn HashPtr.hash {p | p ∈ xs})
    (hy : Set.InjOn HashPtr.hash {p | p ∈ ys})
    (hset : ∀ h, (∃ p ∈ xs, p.hash = h) ↔ ∃ p ∈ ys, p.hash = h) :
    leafHashes xs = leafHashes ys := by
  refine (leafHashes_ascending_iff.2 hx).eq_of_mem_iff (leafHashes_ascending_iff.2 hy) fun h => ?_
  rw [mem_leafHashes, mem_leafHashes]
  exact hset h

theorem makeHashTree_congr {H : Bytes → Hash} {xs ys : List HashPtr}
    (h : leafHashes xs = leafHashes ys) : makeHashTree H xs = makeHashTree H ys := by
  rw [makeHashTree, makeHashTree, Building.start, Building.start, h]

def SameSet (H : Bytes → Hash) (xs ys : List HashPtr) : Prop :=
  (makeHashTree H xs).elementsPerLevel = (makeHashTree H ys).elementsPerLevel ∧
    (makeHashTree H xs).hashes = (makeHashTree H ys).hashes ∧
    (makeHashTree H xs).lowestLevel.Pairwise Hash.lt ∧
    ∀ h, h ∈ (makeHashTree H xs).lowestLevel ↔ ∃ p ∈ xs, p.hash = h

/-- The tree over a vector is one of its values if and only if no two pointers of it have the same
value. The order of the pointers is any that the sorting may leave: a vector that is sorted stays
as it is. -/
theorem makeHashTree_set_iff (H : Bytes → Hash) (xs ys : List HashPtr)
    (hset : ∀ h, (∃ p ∈ xs, p.hash = h) ↔ ∃ p ∈ ys, p.hash = h) :
    SameSet H xs ys ↔
      Set.InjOn HashPtr.hash {p | p ∈ xs} ∧ Set.InjOn HashPtr.hash {p | p ∈ ys} := by
  constructor
  · rintro ⟨hcounts, hhashes, hsorted, -⟩
    have hlowest : (makeHashTree H xs).lowestLevel = (makeHashTree H ys).lowestLevel := by
      rw [HashTree.lowestLevel, HashTree.lowestLevel, hcounts, hhashes]
    have hysorted := hlowest ▸ hsorted
    rw [lowestLevel_eq] at hsorted hysorted
    exact ⟨leafHashes_ascending_iff.1 hsorted, leafHashes_ascending_iff.1 hysorted⟩
  · rintro ⟨hx, hy⟩
    have hsame := makeHashTree_congr (H := H) (leafHashes_of_values hx hy hset)
    refine ⟨by rw [hsame], by rw [hsame], ?_, fun h => mem_lowestLevel H⟩
    rw [lowestLevel_eq]
    exact leafHashes_ascending_iff.2 hx

namespace Sample

def single : List HashPtr := [⟨0, digestA⟩]
def double : List HashPtr := [⟨0, digestA⟩, ⟨1, digestA⟩]

def pair : List HashPtr := [⟨0, digestA⟩, ⟨1, digestB⟩]
def swapped : List HashPtr := [⟨2, digestB⟩, ⟨3, digestA⟩]

theorem swapped_values (h : Hash) : (∃ p ∈ pair, p.hash = h) ↔ ∃ p ∈ swapped, p.hash = h := by
  simp [pair, swapped, or_comm]

theorem injOn_pair : ∀ xs ∈ [pair, swapped], ∀ p ∈ xs, ∀ q ∈ xs, p.hash = q.hash → p = q := by
  decide

theorem double_values (h : Hash) : (∃ p ∈ double, p.hash = h) ↔ ∃ p ∈ single, p.hash = h := by
  simp [double, single]

end Sample

theorem makeHashTree_set_iff_swapped :
    SameSet Sample.generichash Sample.pair Sample.swapped :=
  (makeHashTree_set_iff Sample.generichash Sample.pair Sample.swapped Sample.swapped_values).2
    ⟨fun p hp q hq => Sample.injOn_pair _ (by simp) p hp q hq,
      fun p hp q hq => Sample.injOn_pair _ (by simp) p hp q hq⟩

/-- A value in two objects stands twice in the tree. -/
theorem makeHashTree_set_fails :
    ¬ ∀ (H : Bytes → Hash) (xs ys : List HashPtr),
      (∀ h, (∃ p ∈ xs, p.hash = h) ↔ ∃ p ∈ ys, p.hash = h) → SameSet H xs ys := by
  intro h
  obtain ⟨hcounts, -⟩ := h Sample.generichash Sample.double Sample.single Sample.double_values
  have hne : (makeHashTree Sample.generichash Sample.double).elementsPerLevel ≠
      (makeHashTree Sample.generichash Sample.single).elementsPerLevel := by
    decide
  exact hne hcounts

theorem setSymmetricDifference_eq (left right : List Hash) :
    HashTree.setSymmetricDifference left right = symmDiff Hash.lt left right := by
  fun_induction symmDiff Hash.lt left right with
  | case1 right => rw [HashTree.setSymmetricDifference]
  | case2 left hleft => rw [HashTree.setSymmetricDifference]; exact hleft
  | case3 a left b right hab ih => rw [HashTree.setSymmetricDifference, if_pos hab, ih]
  | case4 a left b right hab hba ih =>
    rw [HashTree.setSymmetricDifference, if_neg hab, if_pos hba, ih]
  | case5 a left b right hab hba ih =>
    rw [HashTree.setSymmetricDifference, if_neg hab, if_neg hba, ih]

theorem mem_uniqueLeaves {t : HashTree} {count : ℕ} {h : Hash} :
    h ∈ t.uniqueLeaves count ↔ h ∈ t.hashes.take count := by
  rw [HashTree.uniqueLeaves, mem_destutter, List.mem_insertionSort]

theorem uniqueLeaves_ascending (t : HashTree) (count : ℕ) :
    (t.uniqueLeaves count).Pairwise Hash.lt := by
  have htotal : Std.Total fun a b : Hash => a.bytes ≤ b.bytes :=
    ⟨fun a b => List.le_total a.bytes b.bytes⟩
  have htrans : IsTrans Hash fun a b => a.bytes ≤ b.bytes := ⟨fun _ _ _ => List.le_trans⟩
  exact pairwise_destutter ((List.pairwise_insertionSort _ _).imp Hash.not_lt.2)

theorem length_uniqueLeaves_le (t : HashTree) (count : ℕ) :
    (t.uniqueLeaves count).length ≤ count := by
  have hdrop := (List.destutter_sublist (· ≠ ·)
    ((t.hashes.take count).insertionSort fun a b => a.bytes ≤ b.bytes)).length_le
  rw [List.length_insertionSort] at hdrop
  exact hdrop.trans (List.length_take_le _ _)

section Comparison

variable (H : Bytes → Hash) {xs ys : List HashPtr}

theorem checkHashTreeChange_eq (hx : xs ≠ []) (lhs : HashTree) :
    (makeHashTree H xs).checkHashTreeChange lhs =
      some (decide (lhs.topString ≠ (makeHashTree H xs).topString)) := by
  obtain ⟨root, -, htop, -⟩ := makeHashTree_top (H := H) hx
  have hlast : (makeHashTree H xs).hashes.getLast? = some root := htop
  rw [HashTree.checkHashTreeChange, hlast, topString_of_top htop]
  rfl

theorem getChangedHashes_eq (hx : xs ≠ []) (hy : ys ≠ []) (changedHashes : List Hash) :
    (makeHashTree H xs).getChangedHashes changedHashes (makeHashTree H ys) =
      if (makeHashTree H ys).topString ≠ (makeHashTree H xs).topString then
        some (true, symmDiff Hash.lt
          ((makeHashTree H ys).uniqueLeaves (leafHashes ys).length)
          ((makeHashTree H xs).uniqueLeaves (leafHashes xs).length))
      else some (false, changedHashes) := by
  rw [HashTree.getChangedHashes, checkHashTreeChange_eq H hx, elementsPerLevel_head H hx,
    elementsPerLevel_head H hy]
  simp only [Option.bind_eq_bind, Option.bind_some, setSymmetricDifference_eq, decide_eq_true_eq]

/-- Two trees with different top hashes: the changed hashes are those that are a leaf of one tree
only, in ascending order, and the vector that is made for them is large enough. -/
theorem getChangedHashes_symmDiff (hx : xs ≠ []) (hy : ys ≠ []) (changedHashes : List Hash) :
    ((makeHashTree H xs).topString ≠ (makeHashTree H ys).topString → ∃ changed,
      (makeHashTree H xs).getChangedHashes changedHashes (makeHashTree H ys) =
        some (true, changed) ∧
      (∀ h, h ∈ changed ↔ Xor (h ∈ (makeHashTree H xs).lowestLevel)
        (h ∈ (makeHashTree H ys).lowestLevel)) ∧
      changed.Pairwise Hash.lt ∧
      changed.length ≤ (makeHashTree H xs).lowestLevel.length +
        (makeHashTree H ys).lowestLevel.length) ∧
    ((makeHashTree H xs).topString = (makeHashTree H ys).topString →
      (makeHashTree H xs).getChangedHashes changedHashes (makeHashTree H ys) =
        some (false, changedHashes)) := by
  rw [getChangedHashes_eq H hx hy]
  constructor
  · intro hne
    refine ⟨_, if_pos hne.symm, fun h => ?_, ?_, ?_⟩
    · rw [mem_symmDiff (uniqueLeaves_ascending _ _) (uniqueLeaves_ascending _ _),
        mem_uniqueLeaves, mem_uniqueLeaves, take_hashes H hx, take_hashes H hy, lowestLevel_eq,
        lowestLevel_eq, Xor, or_comm]
    · exact pairwise_symmDiff (uniqueLeaves_ascending _ _) (uniqueLeaves_ascending _ _)
    · rw [lowestLevel_eq, lowestLevel_eq]
      have hlength := length_symmDiff_le Hash.lt
        ((makeHashTree H ys).uniqueLeaves (leafHashes ys).length)
        ((makeHashTree H xs).uniqueLeaves (leafHashes xs).length)
      have hyle := length_uniqueLeaves_le (makeHashTree H ys) (leafHashes ys).length
      have hxle := length_uniqueLeaves_le (makeHashTree H xs) (leafHashes xs).length
      omega
  · intro heq
    rw [if_neg (not_not.2 heq.symm)]

theorem getChangedHashes_nil (hx : xs ≠ []) (changedHashes : List Hash) :
    (makeHashTree H xs).getChangedHashes changedHashes (makeHashTree H []) = none := by
  have hlength := topString_length (H := H) hx
  have hchange : (makeHashTree H []).topString ≠ (makeHashTree H xs).topString := by
    intro h
    rw [← h] at hlength
    exact absurd hlength (by simp [makeHashTree_nil, HashTree.topString, HashTree.getTopHash])
  rw [HashTree.getChangedHashes, checkHashTreeChange_eq H hx, decide_eq_true hchange]
  rfl

/-- Two trees are compared without a look at the ends of an empty vector, and beside a tree without
leaves all leaves of the other one have changed. -/
def Comparable (xs ys : List HashPtr) : Prop :=
  (makeHashTree H xs).checkHashTreeChange (makeHashTree H ys) ≠ none ∧
    ∀ changedHashes,
      (makeHashTree H xs).getChangedHashes changedHashes (makeHashTree H ys) ≠ none ∧
      (xs = [] → ys = [] → ∃ changed,
        (makeHashTree H xs).getChangedHashes changedHashes (makeHashTree H ys) =
          some (false, changed)) ∧
      (xs ≠ [] → ys = [] → ∃ changed,
        (makeHashTree H xs).getChangedHashes changedHashes (makeHashTree H ys) =
          some (true, changed) ∧ changed.Nodup ∧ ∀ h, h ∈ changed ↔ ∃ p ∈ xs, p.hash = h) ∧
      (xs = [] → ys ≠ [] → ∃ changed,
        (makeHashTree H xs).getChangedHashes changedHashes (makeHashTree H ys) =
          some (true, changed) ∧ changed.Nodup ∧ ∀ h, h ∈ changed ↔ ∃ p ∈ ys, p.hash = h)

/-- Only trees that both have leaves can be compared. -/
theorem comparable_iff (xs ys : List HashPtr) : Comparable H xs ys ↔ xs ≠ [] ∧ ys ≠ [] := by
  constructor
  · rintro ⟨hcheck, hchanged⟩
    have hx : xs ≠ [] := by
      rintro rfl
      exact hcheck rfl
    refine ⟨hx, ?_⟩
    rintro rfl
    exact (hchanged []).1 (getChangedHashes_nil H hx [])
  · rintro ⟨hx, hy⟩
    refine ⟨by simp [checkHashTreeChange_eq H hx], fun changedHashes => ⟨?_, ?_, ?_, ?_⟩⟩
    · rw [getChangedHashes_eq H hx hy]
      split_ifs <;> simp
    · exact fun hnil => absurd hnil hx
    · exact fun _ hnil => absurd hnil hy
    · exact fun hnil => absurd hnil hx

/-- A directory without files has a tree without leaves. -/
theorem comparable_fails : ¬ ∀ xs ys : List HashPtr, Comparable Sample.generichash xs ys := by
  intro h
  exact (h [] []).1 rfl

end Comparison

theorem getChangedHashes_symmDiff_sample : ∃ changed,
    (makeHashTree Sample.generichash (hashAll Sample.generichash [(0, Sample.leafA)])).getChangedHashes
      [] (makeHashTree Sample.generichash
        (hashAll Sample.generichash [(0, Sample.leafA), (1, Sample.leafB)])) = some (true, changed) ∧
      changed.Pairwise Hash.lt := by
  obtain ⟨hdiffer, -⟩ := @getChangedHashes_symmDiff Sample.generichash
    (hashAll Sample.generichash [(0, Sample.leafA)])
    (hashAll Sample.generichash [(0, Sample.leafA), (1, Sample.leafB)])
    (by decide) (by decide) []
  obtain ⟨changed, heq, -, hsorted, -⟩ := hdiffer (by decide +kernel)
  exact ⟨changed, heq, hsorted⟩

end Flocksy
