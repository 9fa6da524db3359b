import Flocksy.Boxes
import Flocksy.LeafSets

/-!
# Two ways to compare boxes

`getChangedDirHashes` compares the top hashes of two boxes by what they are, `checkBoxChange` by
where they are. The constructor makes a `Hash` of its own for each directory and each node, so here
every `Hash` gets a number when it comes into being, and boxes are built one after another.
-/

namespace Flocksy

open ByteStream SortedLists

/-- Objects with the numbers from `next` on. -/
def newHashes (next : ℕ) (hashes : List Hash) : List HashPtr :=
  (hashes.zipIdx next).map fun p => ⟨p.2, p.1⟩

def leafPtrs (tempHashes : List HashPtr) : List HashPtr :=
  (tempHashes.insertionSort fun p q => p.hash.bytes ≤ q.hash.bytes).destutter (· ≠ ·)

/-- `hashes_` with its pointers: those of the leaves, and a new object for each node above them. -/
def treePtrs (H : Bytes → Hash) (next : ℕ) (tempHashes : List HashPtr) : List HashPtr :=
  leafPtrs tempHashes ++
    newHashes next ((makeHashTree H tempHashes).hashes.drop (leafPtrs tempHashes).length)

structure BoxObject where
  box : Box
  treeHashes : List HashPtr

def BoxObject.create (H : Bytes → Hash) (next : ℕ) (t : Tree) : BoxObject × ℕ :=
  let hashes := newHashes next (t.directoryHashes H)
  let treeHashes := treePtrs H (next + hashes.length) hashes
  (⟨t.box H, treeHashes⟩, next + hashes.length + treeHashes.length)

def BoxObject.createAll (H : Bytes → Hash) (next : ℕ) : List Tree → List BoxObject
  | [] => []
  | t :: ts => (create H next t).1 :: createAll H (create H next t).2 ts

/-- `Box::checkBoxChange`. An empty tree makes a new object for its top hash with each call. -/
def BoxObject.checkBoxChange (b left : BoxObject) : Bool :=
  match left.treeHashes.getLast?, b.treeHashes.getLast? with
  | some p, some q => if p.addr = q.addr then false else true
  | _, _ => true

theorem newHashes_hash (next : ℕ) (hashes : List Hash) :
    (newHashes next hashes).map (·.hash) = hashes := by
  rw [newHashes, List.map_map]
  exact List.zipIdx_map_fst next hashes

theorem newHashes_addr (next : ℕ) (hashes : List Hash) :
    (newHashes next hashes).map (·.addr) = List.range' next hashes.length := by
  rw [newHashes, List.map_map]
  exact List.zipIdx_map_snd next hashes

theorem length_newHashes (next : ℕ) (hashes : List Hash) :
    (newHashes next hashes).length = hashes.length := by
  rw [← List.length_map (·.hash), newHashes_hash]

theorem newHashes_nodup (next : ℕ) (hashes : List Hash) : (newHashes next hashes).Nodup := by
  refine List.Nodup.of_map (·.addr) ?_
  rw [newHashes_addr]
  exact List.nodup_range'

theorem addr_of_mem {next : ℕ} {hashes : List Hash} {p : HashPtr} (hp : p ∈ newHashes next hashes) :
    next ≤ p.addr ∧ p.addr < next + hashes.length := by
  have haddr : p.addr ∈ (newHashes next hashes).map (·.addr) := List.mem_map_of_mem hp
  rw [newHashes_addr, List.mem_range'_1] at haddr
  exact haddr

section Tree

variable (H : Bytes → Hash)

theorem hashes_eq_append {xs : List HashPtr} (hx : xs ≠ []) :
    (makeHashTree H xs).hashes =
      leafHashes xs ++ (makeHashTree H xs).hashes.drop (leafHashes xs).length := by
  nth_rewrite 1 [← List.take_append_drop (leafHashes xs).length (makeHashTree H xs).hashes]
  rw [take_hashes H hx]

theorem treePtrs_hash {xs : List HashPtr} (hx : xs ≠ []) (next : ℕ) :
    (treePtrs H next xs).map (·.hash) = (makeHashTree H xs).hashes := by
  have hlength : (leafPtrs xs).length = (leafHashes xs).length := (List.length_map _).symm
  rw [treePtrs, List.map_append, newHashes_hash, hlength, hashes_eq_append H hx]
  simp only [List.drop_left]
  rfl

end Tree

theorem mem_of_mem_leafPtrs {xs : List HashPtr} {p : HashPtr} (hp : p ∈ leafPtrs xs) : p ∈ xs := by
  rwa [leafPtrs, mem_destutter, List.mem_insertionSort] at hp

namespace BoxObject

variable (H : Bytes → Hash)

theorem addr_create (next : ℕ) (t : Tree) {p : HashPtr}
    (hp : p ∈ (create H next t).1.treeHashes) : next ≤ p.addr ∧ p.addr < (create H next t).2 := by
  have hnext : (create H next t).2 =
      next + (newHashes next (t.directoryHashes H)).length +
        (create H next t).1.treeHashes.length := rfl
  rw [create, treePtrs, List.mem_append] at hp
  rw [hnext, length_newHashes]
  rcases hp with hp | hp
  · obtain ⟨hlow, hhigh⟩ := addr_of_mem (mem_of_mem_leafPtrs hp)
    omega
  · obtain ⟨hlow, hhigh⟩ := addr_of_mem hp
    have hlength : (create H next t).1.treeHashes.length = _ := List.length_append
    rw [length_newHashes] at hlow hhigh hlength
    omega

theorem directoryHashes_ne_nil (next : ℕ) (t : Tree) :
    newHashes next (t.directoryHashes H) ≠ [] := by
  simp [newHashes, Tree.directoryHashes, Tree.places]

theorem create_hash (next : ℕ) (t : Tree) :
    (create H next t).1.treeHashes.map (·.hash) = (t.box H).hashTree.hashes := by
  have hleaves : leafHashes (newHashes next (t.directoryHashes H)) =
      leafHashes (hashPtrs (t.directoryHashes H)) := by
    refine leafHashes_of_perm (newHashes_nodup _ _) (newHashes_nodup 0 _) ?_
    rw [newHashes_hash, Tree.hashPtrs_hash]
  rw [t.box_hashTree, ← makeHashTree_congr hleaves]
  exact treePtrs_hash H (directoryHashes_ne_nil H next t) _

theorem create_top (next : ℕ) (t : Tree) : ∃ p,
    (create H next t).1.treeHashes.getLast? = some p ∧
      (t.box H).hashTree.getTopHash = some p.hash ∧
      next ≤ p.addr ∧ p.addr < (create H next t).2 := by
  have hhash := create_hash H next t
  have hne : (create H next t).1.treeHashes ≠ [] := by
    intro hnil
    obtain ⟨root, -, htop, -⟩ := makeHashTree_top (H := H) t.hashPtrs_ne_nil
    rw [hnil, List.map_nil, t.box_hashTree] at hhash
    rw [HashTree.getTopHash, ← hhash] at htop
    simp at htop
  have hlast := List.getLast?_eq_some_getLast hne
  refine ⟨_, hlast, ?_, addr_create H next t (List.getLast_mem hne)⟩
  rw [HashTree.getTopHash, ← hhash, List.getLast?_map, hlast]
  rfl

theorem createAll_top {next : ℕ} {ts : List Tree} {b : BoxObject} (hb : b ∈ createAll H next ts) :
    ∃ t p, b.box = Tree.box H t ∧ b.treeHashes.getLast? = some p ∧
      b.box.hashTree.getTopHash = some p.hash ∧ next ≤ p.addr := by
  induction ts generalizing next with
  | nil => simp [createAll] at hb
  | cons t ts ih =>
    obtain ⟨q, hlast, htop, hlow, hhigh⟩ := create_top H next t
    rcases List.mem_cons.1 hb with rfl | hb
    · exact ⟨t, q, rfl, hlast, htop, hlow⟩
    · obtain ⟨u, p, hbox, hlastb, htopb, hle⟩ := ih hb
      exact ⟨u, p, hbox, hlastb, htopb, by omega⟩

theorem createAll_apart (next : ℕ) (ts : List Tree) :
    (createAll H next ts).Pairwise fun b c => ∀ p q, b.treeHashes.getLast? = some p →
      c.treeHashes.getLast? = some q → p.addr < q.addr := by
  induction ts generalizing next with
  | nil => exact List.Pairwise.nil
  | cons t ts ih =>
    refine List.pairwise_cons.2 ⟨fun c hc p q hp hq => ?_, ih _⟩
    obtain ⟨p', hlast, -, -, hhigh⟩ := create_top H next t
    obtain ⟨-, q', -, hlastc, -, hle⟩ := createAll_top H hc
    rw [hlast] at hp
    rw [hlastc] at hq
    cases hp
    cases hq
    omega

theorem checkBoxChange_iff (next : ℕ) (ts : List Tree) (i j : Fin (createAll H next ts).length) :
    ((createAll H next ts).get i).checkBoxChange ((createAll H next ts).get j) = true ↔ i ≠ j := by
  obtain ⟨-, p, -, hp, -, -⟩ := createAll_top H ((createAll H next ts).get_mem i)
  obtain ⟨-, q, -, hq, -, -⟩ := createAll_top H ((createAll H next ts).get_mem j)
  have hapart := List.pairwise_iff_get.1 (createAll_apart H next ts)
  simp only [checkBoxChange, hp, hq]
  rcases lt_trichotomy i j with hij | rfl | hji
  · have hlt := hapart i j hij p q hp hq
    rw [if_neg (by omega)]
    simpa using hij.ne
  · rw [hp] at hq
    cases hq
    simp
  · have hlt := hapart j i hji q p hq hp
    rw [if_neg (by omega)]
    simpa using hji.ne'

theorem getChangedDirHashes_verdict (t u : Tree) (changed : List Hash) : ∃ changed',
    (t.box H).getChangedDirHashes changed (u.box H) =
      some (decide ((u.box H).hashTree.topString ≠ (t.box H).hashTree.topString), changed') := by
  rw [Box.getChangedDirHashes, t.box_hashTree, u.box_hashTree,
    getChangedHashes_eq H t.hashPtrs_ne_nil u.hashPtrs_ne_nil]
  split_ifs with hne
  · exact ⟨_, by rw [decide_eq_true hne]⟩
  · exact ⟨_, by rw [decide_eq_false hne]⟩

/-- Both comparisons tell that the top hashes differ, or that they do not. -/
def ComparisonsAgree (b left : BoxObject) : Prop :=
  ∀ changed, ∃ changed', b.box.getChangedDirHashes changed left.box =
      some (b.checkBoxChange left, changed') ∧
    (b.checkBoxChange left = true ↔ b.box.hashTree.topString ≠ left.box.hashTree.topString)

/-- Two boxes with the same top hash are told to be different, unless they are one box. -/
theorem comparisonsAgree_iff (next : ℕ) (ts : List Tree) (i j : Fin (createAll H next ts).length) :
    ((createAll H next ts).get i).ComparisonsAgree ((createAll H next ts).get j) ↔
      i = j ∨ ((createAll H next ts).get i).box.hashTree.topString ≠
        ((createAll H next ts).get j).box.hashTree.topString := by
  have hcheck := checkBoxChange_iff H next ts i j
  constructor
  · intro h
    obtain ⟨-, -, hverdict⟩ := h []
    by_cases hij : i = j
    · exact .inl hij
    · exact .inr (hverdict.1 (hcheck.2 hij))
  · intro h changed
    have hverdict : ((createAll H next ts).get i).checkBoxChange ((createAll H next ts).get j) =
        true ↔ ((createAll H next ts).get i).box.hashTree.topString ≠
          ((createAll H next ts).get j).box.hashTree.topString := by
      rw [hcheck]
      rcases h with rfl | hne
      · simp
      · refine ⟨fun _ => hne, fun _ hij => hne (by rw [hij])⟩
    obtain ⟨t, -, ht, -⟩ := createAll_top H ((createAll H next ts).get_mem i)
    obtain ⟨u, -, hu, -⟩ := createAll_top H ((createAll H next ts).get_mem j)
    obtain ⟨changed', hchanged⟩ := getChangedDirHashes_verdict H t u changed
    refine ⟨changed', ?_, hverdict⟩
    rw [ht, hu] at hverdict ⊢
    rw [hchanged, Option.some.injEq, Prod.mk.injEq, Bool.eq_iff_iff, decide_eq_true_eq, hverdict]
    exact ⟨ne_comm, rfl⟩

end BoxObject

/-- Two boxes over one directory that did not change. -/
theorem comparisonsAgree_fails :
    ¬ ∀ (H : Bytes → Hash) (next : ℕ) (ts : List Tree)
      (i j : Fin (BoxObject.createAll H next ts).length),
      ((BoxObject.createAll H next ts).get i).ComparisonsAgree
        ((BoxObject.createAll H next ts).get j) := by
  intro h
  obtain ⟨-, -, hverdict⟩ := h Sample.boxhash 0 [Sample.beside, Sample.beside] ⟨0, by decide⟩
    ⟨1, by decide⟩ []
  have hfirst : ((BoxObject.createAll Sample.boxhash 0 [Sample.beside, Sample.beside]).get
      ⟨0, by decide⟩).checkBoxChange ((BoxObject.createAll Sample.boxhash 0
        [Sample.beside, Sample.beside]).get ⟨1, by decide⟩) = true := by
    decide +kernel
  exact hverdict.1 hfirst rfl

end Flocksy
