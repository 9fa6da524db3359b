import Flocksy.Directories

/-!
# Boxes

The constructor of a box goes through the directories below its path, depth first, and keeps each of
them under its hash. Directories with the same hash take one entry together, and only the first of
them gets a watch. The hashes of all of them are the leaves of the hash tree of the box, and what
two boxes are compared by.
-/

namespace Flocksy

open ByteStream MerkleTree

/-- `entries_`, and the vector of the hashes. -/
structure Filling where
  entries : List (Bytes × Directory)
  hashes : List Hash

namespace Filling

/-- `entries_.insert` does not replace an entry. -/
def add (b : Filling) (d : Directory) : Filling where
  entries :=
    if b.entries.any (·.1 = d.directoryHash.getString) then b.entries
    else b.entries ++ [(d.directoryHash.getString, d)]
  hashes := b.hashes ++ [d.directoryHash]

end Filling

/-- `Box::recursiveDirectoryFill`, for the directories of a listing. -/
def recursiveDirectoryFill (H : Bytes → Hash) (path : Bytes) : Listing → Filling → Filling
  | .nil, b => b
  | .regular _ _ rest, b => recursiveDirectoryFill H path rest b
  | .directory name content rest, b =>
    let child : Place := (childPath path name.bytes, content)
    let b := b.add (child.fillDirectory H)
    recursiveDirectoryFill H path rest (recursiveDirectoryFill H child.1 content b)
  | .special _ rest, b => recursiveDirectoryFill H path rest b

structure Box where
  path : Bytes
  entries : List (Bytes × Directory)
  hashTree : HashTree

/-- The pointers of the vector; each directory has a `Hash` of its own. -/
def hashPtrs (hashes : List Hash) : List HashPtr := hashes.zipIdx.map fun p => ⟨p.2, p.1⟩

def Box.create (H : Bytes → Hash) (path : Bytes) (content : Listing) : Box :=
  let baseDir := Place.fillDirectory H (path, content)
  let b := recursiveDirectoryFill H path content
    ⟨[(baseDir.directoryHash.getString, baseDir)], [baseDir.directoryHash]⟩
  ⟨path, b.entries, makeHashTree H (hashPtrs b.hashes)⟩

/-- The directories that `Box::run` adds a watch for. -/
def Box.watches (b : Box) : List Bytes := b.entries.map (·.2.path)

/-- `Box::getChangedDirHashes`. -/
def Box.getChangedDirHashes (b : Box) (changedHashes : List Hash) (left : Box) :
    Option (Bool × List Hash) :=
  b.hashTree.getChangedHashes changedHashes left.hashTree

def Listing.directories (path : Bytes) : Listing → List Place
  | .nil => []
  | .regular _ _ rest => rest.directories path
  | .directory name content rest =>
    let child := childPath path name.bytes
    (child, content) :: (content.directories child ++ rest.directories path)
  | .special _ rest => rest.directories path

def Listing.names : Listing → List FileName
  | .nil => []
  | .regular name _ rest => name :: rest.names
  | .directory name _ rest => name :: rest.names
  | .special name rest => name :: rest.names

def Listing.Distinct : Listing → Prop
  | .nil => True
  | .regular name _ rest => name ∉ rest.names ∧ rest.Distinct
  | .directory name content rest => name ∉ rest.names ∧ content.Distinct ∧ rest.Distinct
  | .special name rest => name ∉ rest.names ∧ rest.Distinct

structure Tree where
  path : Bytes
  content : Listing
  distinct : content.Distinct

namespace Tree

def places (t : Tree) : List Place := (t.path, t.content) :: t.content.directories t.path

variable (H : Bytes → Hash)

def box (t : Tree) : Box := Box.create H t.path t.content

def directoryStrings (t : Tree) : Set Bytes := {s | ∃ d ∈ t.places, s ∈ d.strings H}

def directoryHashes (t : Tree) : List Hash := t.places.map fun d => H (d.hashString H)

def boxStrings (t : Tree) : Set Bytes :=
  {s | s ∈ t.directoryStrings H ∨ s ∈ treeStrings H (hashPtrs (t.directoryHashes H))}

end Tree

theorem recursiveDirectoryFill_eq (H : Bytes → Hash) (path : Bytes) (content : Listing)
    (b : Filling) : recursiveDirectoryFill H path content b =
      ((content.directories path).map (Place.fillDirectory H)).foldl Filling.add b := by
  induction content generalizing path b with
  | nil => rfl
  | regular name t rest ih => exact ih path b
  | directory name content rest ihcontent ihrest =>
    simp only [recursiveDirectoryFill, Listing.directories, List.map_cons, List.map_append,
      List.foldl_cons, List.foldl_append]
    rw [ihrest, ihcontent]
  | special name rest ih => exact ih path b

namespace Filling

theorem hashes_foldl (b : Filling) (ds : List Directory) :
    (ds.foldl add b).hashes = b.hashes ++ ds.map (·.directoryHash) := by
  induction ds generalizing b with
  | nil => simp
  | cons d ds ih => simp [ih, add]

def key (d : Directory) : Bytes × Directory := (d.directoryHash.getString, d)

theorem entries_foldl (b : Filling) (ds : List Directory) (hb : (b.entries.map Prod.fst).Nodup) :
    ((ds.foldl add b).entries.map Prod.fst).Nodup ∧
      (ds.foldl add b).entries.Sublist (b.entries ++ ds.map key) := by
  induction ds generalizing b with
  | nil => simpa using hb
  | cons d ds ih =>
    by_cases htaken : b.entries.any (·.1 = d.directoryHash.getString) = true
    · have hentries : (b.add d).entries = b.entries := if_pos htaken
      obtain ⟨hnodup, hsub⟩ := ih (b.add d) (by rwa [hentries])
      rw [hentries] at hsub
      refine ⟨hnodup, hsub.trans ?_⟩
      exact (List.sublist_cons_self _ _).append_left _
    · have hentries : (b.add d).entries = b.entries ++ [key d] := if_neg htaken
      have hnew : d.directoryHash.getString ∉ b.entries.map Prod.fst := by
        simpa using htaken
      obtain ⟨hnodup, hsub⟩ := ih (b.add d) (by
        rw [hentries, List.map_append, List.map_singleton, ← List.concat_eq_append]
        exact hb.concat hnew)
      rw [hentries, List.append_assoc] at hsub
      exact ⟨hnodup, hsub⟩

theorem entries_foldl_of_nodup (b : Filling) (ds : List Directory)
    (hnodup : ((b.entries ++ ds.map key).map Prod.fst).Nodup) :
    (ds.foldl add b).entries = b.entries ++ ds.map key := by
  induction ds generalizing b with
  | nil => simp
  | cons d ds ih =>
    have hsplit : b.entries ++ (d :: ds).map key = (b.entries ++ [key d]) ++ ds.map key := by simp
    have hentries : (b.add d).entries = b.entries ++ [key d] := by
      refine if_neg fun htaken => ?_
      rw [hsplit, List.map_append, List.map_append] at hnodup
      obtain ⟨e, he, hkey⟩ := List.any_eq_true.1 htaken
      have hdisjoint := List.disjoint_of_nodup_append hnodup.of_append_left
      have hmem : e.1 ∈ b.entries.map Prod.fst := List.mem_map_of_mem he
      rw [decide_eq_true_eq] at hkey
      exact hdisjoint hmem (by simp [key, hkey])
    rw [List.foldl_cons, ih (b.add d) (by rw [hentries, ← hsplit]; exact hnodup), hentries, ← hsplit]

end Filling

namespace Tree

variable {H : Bytes → Hash} (t : Tree)

theorem filling_eq : recursiveDirectoryFill H t.path t.content
    ⟨[Filling.key (Place.fillDirectory H (t.path, t.content))],
      [(Place.fillDirectory H (t.path, t.content)).directoryHash]⟩ =
    (t.places.map (Place.fillDirectory H)).foldl Filling.add ⟨[], []⟩ := by
  rw [recursiveDirectoryFill_eq, places, List.map_cons, List.foldl_cons]
  rfl

theorem box_entries : (t.box H).entries =
    ((t.places.map (Place.fillDirectory H)).foldl Filling.add ⟨[], []⟩).entries := by
  rw [← filling_eq]
  rfl

theorem box_hashTree : (t.box H).hashTree = makeHashTree H (hashPtrs (t.directoryHashes H)) := by
  have hhashes := Filling.hashes_foldl ⟨[], []⟩ (t.places.map (Place.fillDirectory H))
  rw [← filling_eq, List.nil_append, List.map_map] at hhashes
  exact congrArg (fun hashes => makeHashTree H (hashPtrs hashes)) hhashes

theorem distinct_files {content : Listing} (h : content.Distinct) : content.files.Nodup := by
  have hnames (l : Listing) (f : FileName × ℤ) (hf : f ∈ l.files) : f.1 ∈ l.names := by
    induction l with
    | nil => simp [Listing.files] at hf
    | regular name t rest ih =>
      rcases List.mem_cons.1 hf with rfl | hf
      · exact List.mem_cons_self
      · exact List.mem_cons_of_mem _ (ih hf)
    | directory name content rest _ ih => exact List.mem_cons_of_mem _ (ih hf)
    | special name rest ih => exact List.mem_cons_of_mem _ (ih hf)
  induction content with
  | nil => exact List.nodup_nil
  | regular name t rest ih =>
    exact List.nodup_cons.2 ⟨fun hmem => h.1 (hnames rest _ hmem), ih h.2⟩
  | directory name content rest _ ih => exact ih h.2.2
  | special name rest ih => exact ih h.2

theorem distinct_of_mem {path : Bytes} {content : Listing} (h : content.Distinct) {d : Place}
    (hd : d ∈ content.directories path) : d.2.Distinct := by
  induction content generalizing path with
  | nil => simp [Listing.directories] at hd
  | regular name t rest ih => exact ih h.2 hd
  | directory name content rest ihcontent ihrest =>
    obtain ⟨-, hcontent, hrest⟩ := h
    rw [Listing.directories, List.mem_cons, List.mem_append] at hd
    rcases hd with rfl | hd | hd
    · exact hcontent
    · exact ihcontent hcontent hd
    · exact ihrest hrest hd
  | special name rest ih => exact ih h.2 hd

theorem child_of_mem {path : Bytes} {content : Listing} {d : Place}
    (hd : d ∈ content.directories path) :
    ∃ parent, ∃ name : FileName, d.1 = childPath parent name.bytes := by
  induction content generalizing path with
  | nil => simp [Listing.directories] at hd
  | regular name t rest ih => exact ih hd
  | directory name content rest ihcontent ihrest =>
    rw [Listing.directories, List.mem_cons, List.mem_append] at hd
    rcases hd with rfl | hd | hd
    · exact ⟨path, name, rfl⟩
    · exact ihcontent hd
    · exact ihrest hd
  | special name rest ih => exact ih hd

theorem files_nodup {d : Place} (hd : d ∈ t.places) : d.2.files.Nodup := by
  rcases List.mem_cons.1 hd with rfl | hd
  · exact distinct_files t.distinct
  · exact distinct_files (distinct_of_mem t.distinct hd)

theorem closed_of_mem {path : Bytes} {content : Listing} {d : Place}
    (hd : d ∈ content.directories path) : Closed d.1 := by
  obtain ⟨parent, name, hpath⟩ := child_of_mem hd
  exact hpath ▸ closed_child parent name

theorem places_comparable : t.places.Pairwise Place.Comparable := by
  rw [places, List.pairwise_cons]
  constructor
  · intro e he hname
    by_cases hbase : Closed t.path
    · exact ⟨hbase, closed_of_mem he⟩
    · obtain ⟨parent, name, hpath⟩ := child_of_mem he
      rw [hpath] at hname
      exact absurd hname (filename_ne_child hbase parent name)
  · exact List.pairwise_of_forall_mem_list fun d hd e he _ =>
      ⟨closed_of_mem hd, closed_of_mem he⟩

theorem keys_nodup_iff (hH : Set.InjOn H (t.directoryStrings H)) :
    (t.places.map fun d => (d.fillDirectory H).directoryHash.getString).Nodup ↔
      t.places.Pairwise fun d e => ¬ d.Confused H e := by
  have hstrings {d : Place} (hd : d ∈ t.places) : d.strings H ⊆ t.directoryStrings H :=
    fun s hs => ⟨d, hd, hs⟩
  rw [List.Nodup, List.pairwise_map]
  constructor
  · intro hkeys
    refine (hkeys.and t.places_comparable).imp_of_mem fun {d e} hd he h hconfused => h.1 ?_
    have hsame := Place.hashString_of_confused (t.files_nodup hd) (t.files_nodup he) h.2 hconfused
    simp only [Place.fillDirectory, hsame]
  · intro hapart
    refine (hapart.and t.places_comparable).imp_of_mem fun {d e} hd he h hkeys => h.1 ?_
    have hhash : H (d.hashString H) = H (e.hashString H) := Hash.getString_injective hkeys
    have hsame := hH ⟨d, hd, .inr rfl⟩ ⟨e, he, .inr rfl⟩ hhash
    exact Place.confused_of_hashString hH (hstrings hd) (hstrings he) h.2 hsame

/-- Every directory of the tree gets one entry, and so its watch, if and only if no two of them
are confused. -/
theorem watches_iff (hH : Set.InjOn H (t.directoryStrings H)) :
    (t.box H).watches.Perm (t.places.map Prod.fst) ↔
      t.places.Pairwise fun d e => ¬ d.Confused H e := by
  have hkeys : ((t.places.map (Place.fillDirectory H)).map Filling.key).map Prod.fst =
      t.places.map fun d => (d.fillDirectory H).directoryHash.getString := by
    rw [List.map_map, List.map_map]
    rfl
  have hpaths : ((t.places.map (Place.fillDirectory H)).map Filling.key).map (·.2.path) =
      t.places.map Prod.fst := by
    rw [List.map_map, List.map_map]
    rfl
  rw [← keys_nodup_iff t hH, ← hkeys, ← hpaths, Box.watches, box_entries]
  obtain ⟨hnodup, hsub⟩ := Filling.entries_foldl ⟨[], []⟩ (t.places.map (Place.fillDirectory H))
    (by simp)
  rw [List.nil_append] at hsub
  constructor
  · intro hperm
    have hlen := hperm.length_eq
    rw [List.length_map, List.length_map] at hlen
    rwa [hsub.eq_of_length hlen] at hnodup
  · intro hall
    rw [Filling.entries_foldl_of_nodup _ _ (by rwa [List.nil_append]), List.nil_append]

theorem boxStrings_subset {H : Bytes → Hash} {t : Tree} {table : List Bytes}
    (hplaces : ∀ d ∈ t.places, (∀ s ∈ d.leafStrings, s ∈ table) ∧
      (∀ s ∈ treeStrings H (d.tempHashes H), s ∈ table) ∧ d.hashString H ∈ table)
    (htree : ∀ s ∈ treeStrings H (hashPtrs (t.directoryHashes H)), s ∈ table) :
    t.boxStrings H ⊆ {s | s ∈ table} := by
  rintro s (⟨d, hd, hs⟩ | hs)
  · obtain ⟨hleaves, hnodes, hself⟩ := hplaces d hd
    rcases hs with (hs | hs) | rfl
    · exact hleaves s (by rwa [Place.leaves_snd] at hs)
    · exact hnodes s hs
    · exact hself
  · exact htree s hs

end Tree

def Tree.relativePaths (t : Tree) : List Bytes := t.places.map fun d => d.1.drop t.path.length

def Tree.HasFile (t : Tree) (path : Bytes) (f : FileName × ℤ) : Prop :=
  ∃ d ∈ t.places, d.1.drop t.path.length = path ∧ f ∈ d.2.files

/-- The digits of a hash stand at the front or at the end of the name. -/
def HashLike (name : Bytes) : Prop := ∃ h : Hash, h.getString <+: name ∨ h.getString <:+ name

theorem not_hashLike_of_short {name : Bytes} (h : name.length < 128) : ¬ HashLike name := by
  rintro ⟨hash, hprefix | hsuffix⟩
  · have hle := hprefix.length_le
    rw [Hash.getString_length] at hle
    omega
  · have hle := hsuffix.length_le
    rw [Hash.getString_length] at hle
    omega

namespace Place

variable {H : Bytes → Hash} {d e : Place}

theorem topString_of_nonempty (h : d.2.files ≠ []) :
    ∃ root : Hash, (d.hashTree H).topString = root.getString := by
  obtain ⟨root, -, htop, -⟩ := makeHashTree_top (H := H) fun hnil => h (tempHashes_eq_nil.1 hnil)
  exact ⟨root, topString_of_top htop⟩

theorem not_poses (hd : ¬ HashLike (filename d.1)) : ¬ d.Poses H e := by
  rintro ⟨-, hfiles, hname⟩
  obtain ⟨root, hroot⟩ := topString_of_nonempty (H := H) hfiles
  exact hd ⟨root, .inl ⟨filename e.1, by rw [hname, hroot]⟩⟩

/-- What is hashed for a directory is not hashed for an inner node. -/
theorem hashString_ne_concat (hd : ¬ HashLike (filename d.1)) (a b : Hash) :
    d.hashString H ≠ Hash.concat a b := by
  intro h
  rw [hashString, Hash.concat] at h
  by_cases hfiles : d.2.files = []
  · rw [topString_of_empty hfiles, List.nil_append] at h
    exact hd ⟨a, .inl ⟨b.getString, h.symm⟩⟩
  · obtain ⟨-, hname⟩ := List.append_inj h
      ((topString_of_files hfiles).trans a.getString_length.symm)
    exact hd ⟨b, .inr (hname ▸ List.suffix_refl _)⟩

end Place

namespace Tree

variable {H : Bytes → Hash} {t u : Tree}

theorem hashPtrs_hash (hashes : List Hash) : (hashPtrs hashes).map (·.hash) = hashes := by
  rw [hashPtrs, List.map_map]
  exact List.zipIdx_map_fst 0 hashes

theorem mem_hashPtrs {hash : Hash} :
    (∃ p ∈ hashPtrs (t.directoryHashes H), p.hash = hash) ↔
      ∃ d ∈ t.places, H (d.hashString H) = hash := by
  rw [← List.mem_map, hashPtrs_hash, directoryHashes, List.mem_map]

theorem hashPtrs_ne_nil (t : Tree) : hashPtrs (t.directoryHashes H) ≠ [] := by
  simp [hashPtrs, directoryHashes, places]

theorem closed_of_mem_places (ht : Closed t.path) {d : Place} (hd : d ∈ t.places) :
    Closed d.1 := by
  rcases List.mem_cons.1 hd with rfl | hd
  · exact ht
  · exact closed_of_mem hd

theorem topString_of_unchanged {changed changed' : List Hash}
    (h : (t.box H).getChangedDirHashes changed (u.box H) = some (false, changed')) :
    (t.box H).hashTree.topString = (u.box H).hashTree.topString := by
  rw [Box.getChangedDirHashes, HashTree.getChangedHashes, Option.bind_eq_bind,
    Option.bind_eq_some_iff] at h
  obtain ⟨changes, hcheck, h⟩ := h
  cases changes with
  | true =>
    simp only [if_true, Option.bind_eq_bind, Option.bind_eq_some_iff] at h
    obtain ⟨_, -, _, -, h⟩ := h
    simp at h
  | false =>
    rw [HashTree.checkHashTreeChange, Option.map_eq_some_iff] at hcheck
    obtain ⟨back, hback, hsame⟩ := hcheck
    rw [decide_eq_false_iff_not, not_not] at hsame
    rw [hsame]
    exact topString_of_top hback

theorem alike_of_unchanged (ht : Closed t.path) (hu : Closed u.path)
    (htnames : ∀ d ∈ t.places, ¬ HashLike (filename d.1))
    (hunames : ∀ e ∈ u.places, ¬ HashLike (filename e.1)) {strings : Set Bytes}
    (hH : Set.InjOn H strings) (htstrings : t.boxStrings H ⊆ strings)
    (hustrings : u.boxStrings H ⊆ strings)
    (htop : (t.box H).hashTree.topString = (u.box H).hashTree.topString) {d : Place}
    (hd : d ∈ t.places) : ∃ e ∈ u.places, d.Alike e := by
  have hleaf (v : Tree) (hnames : ∀ d ∈ v.places, ¬ HashLike (filename d.1))
      (hv : v.boxStrings H ⊆ strings) :
      ∀ p ∈ hashPtrs (v.directoryHashes H), IsLeaf H Hash.concat strings p.hash := by
    intro p hp
    obtain ⟨e, he, hash⟩ := mem_hashPtrs.1 ⟨p, hp, rfl⟩
    exact ⟨e.hashString H, hv (.inl ⟨e, he, .inr rfl⟩), hash,
      Place.hashString_ne_concat (hnames e he)⟩
  rw [box_hashTree, box_hashTree] at htop
  have hleaves := leaves_of_topString hH t.hashPtrs_ne_nil u.hashPtrs_ne_nil
    (hleaf t htnames htstrings) (hleaf u hunames hustrings)
    (fun s hs => htstrings (.inr hs)) (fun s hs => hustrings (.inr hs)) htop (H (d.hashString H))
  obtain ⟨e, he, heq⟩ := mem_hashPtrs.1 (hleaves.1 (mem_hashPtrs.2 ⟨d, hd, rfl⟩))
  have hsame := hH (hustrings (.inl ⟨e, he, .inr rfl⟩)) (htstrings (.inl ⟨d, hd, .inr rfl⟩)) heq
  have hconfused := Place.confused_of_hashString hH
    (fun s hs => htstrings (.inl ⟨d, hd, hs⟩)) (fun s hs => hustrings (.inl ⟨e, he, hs⟩))
    (fun _ => ⟨closed_of_mem_places ht hd, closed_of_mem_places hu he⟩) hsame.symm
  rcases hconfused with halike | hposes | hposes
  · exact ⟨e, he, halike⟩
  · exact absurd hposes (Place.not_poses (htnames d hd))
  · exact absurd hposes (Place.not_poses (hunames e he))

/-- Two boxes that are told to be the same have the same directories, up to where in the tree
they are. -/
theorem unchanged_sound (ht : Closed t.path) (hu : Closed u.path)
    (hnames : ∀ d ∈ t.places ++ u.places, ¬ HashLike (filename d.1))
    (hH : Set.InjOn H (t.boxStrings H ∪ u.boxStrings H)) {changed changed' : List Hash}
    (h : (t.box H).getChangedDirHashes changed (u.box H) = some (false, changed')) :
    (∀ d ∈ t.places, ∃ e ∈ u.places, d.Alike e) ∧ ∀ e ∈ u.places, ∃ d ∈ t.places, e.Alike d := by
  have htop := topString_of_unchanged h
  have htnames : ∀ d ∈ t.places, ¬ HashLike (filename d.1) :=
    fun d hd => hnames d (List.mem_append_left _ hd)
  have hunames : ∀ e ∈ u.places, ¬ HashLike (filename e.1) :=
    fun e he => hnames e (List.mem_append_right _ he)
  constructor
  · intro d hd
    exact alike_of_unchanged ht hu htnames hunames hH Set.subset_union_left Set.subset_union_right
      htop hd
  · intro e he
    exact alike_of_unchanged hu ht hunames htnames hH Set.subset_union_right Set.subset_union_left
      htop.symm he

end Tree

namespace Sample

def named (c : Char) (h : ascii [c] ≠ [] ∧ slash ∉ ascii [c] ∧ 0 ∉ ascii [c] ∧
    ascii [c] ≠ [dot] ∧ ascii [c] ≠ [dot, dot]) : FileName :=
  ⟨ascii [c], h.1, h.2.1, h.2.2.1, h.2.2.2⟩

def longNamed (bytes : Bytes) (h : bytes ≠ [] ∧ slash ∉ bytes ∧ 0 ∉ bytes ∧ bytes ≠ [dot] ∧
    bytes ≠ [dot, dot]) : FileName :=
  ⟨bytes, h.1, h.2.1, h.2.2.1, h.2.2.2⟩

def a : FileName := named 'a' (by decide)
def c : FileName := named 'c' (by decide)

def nested : Tree where
  path := ascii ['/', 'b']
  content := .directory a (.directory c .nil .nil) .nil
  distinct := by simp [Listing.Distinct, Listing.names]

def beside : Tree where
  path := ascii ['/', 'b']
  content := .directory a .nil (.directory c .nil .nil)
  distinct := by simp [Listing.Distinct, Listing.names, a, c, named, ascii]

def twice : Tree where
  path := ascii ['/', 'b']
  content := .directory a (.directory a .nil .nil) .nil
  distinct := by simp [Listing.Distinct, Listing.names]

theorem a1_name : ascii ['a', '1'] ≠ [] ∧ slash ∉ ascii ['a', '1'] ∧ 0 ∉ ascii ['a', '1'] ∧
    ascii ['a', '1'] ≠ [dot] ∧ ascii ['a', '1'] ≠ [dot, dot] := by decide

/-- The file `a` with the time 12, and the file `a1` with the time 2. -/
def opened : Tree where
  path := ascii ['/', 'b', '/']
  content := .regular a 12 .nil
  distinct := by simp [Listing.Distinct, Listing.names]

def reopened : Tree where
  path := ascii ['/', 'b', '/']
  content := .regular (longNamed (ascii ['a', '1']) a1_name) 2 .nil
  distinct := by simp [Listing.Distinct, Listing.names]

/-- The hashes of `a12`, and of this hash and a dot. -/
def leafA12 : Hash := digest
  0x69ce2dda52cfdf2e280275bb532ce1d1cb6012a3dd7f0dcb0c3d0b0570732900
  0x04888c0ae7f2bbfd50c56b5370369280676b0a729f9add7c38428c647030c278
def dirDot : Hash := digest
  0x72fbcc1806db6ba3f82af61006b8c69244d10726c2abae943a5d4fb3554f03b6
  0x88c7299e5c361ce8ee0c79c0b73e5dd40dbce0e4715962cbdf5e1999c3a1531a

/-- The hashes of `c/1`, of this hash and `a`, and of the node over it. -/
def leafC : Hash := digest
  0xd910e9715390df440a95e801bdba640da3282dc81895f8b97fb332f831dee4c0
  0xdf37533eaa6835dae9dce3acd10a131d6a0c248e07f38793efe33e8243682526
def dirFilled : Hash := digest
  0x3b2fd2babf885c46c98b8d0c12a9a3f9f338c51106a1eb3c6c7a6943f8d5dbff
  0x00a4375edd79a4a2f3834cb1a9b2e29f2871be3d9d37c27b5617dcd2b9376162
def nodeFilled : Hash := digest
  0xadb26c49eed6a94013a0e58b7c19cd059eddd82546d168c5a8f70452757ca1f4
  0x5ec4a890f9d89f9667782271c0c1d4904e20be47546a479ea1da05377e599a0e

theorem posing_name : leafC.getString ++ ascii ['a'] ≠ [] ∧ slash ∉ leafC.getString ++ ascii ['a'] ∧
    0 ∉ leafC.getString ++ ascii ['a'] ∧ leafC.getString ++ ascii ['a'] ≠ [dot] ∧
    leafC.getString ++ ascii ['a'] ≠ [dot, dot] := by
  decide

/-- A file in the directory `a`, and an empty directory whose name is hashed for that one. -/
def filled : Tree where
  path := ascii ['/', 'b']
  content := .directory a (.regular c 1 .nil) .nil
  distinct := by simp [Listing.Distinct, Listing.names]

def posing : Tree where
  path := ascii ['/', 'b']
  content := .directory (longNamed (leafC.getString ++ ascii ['a']) posing_name) .nil .nil
  distinct := by simp [Listing.Distinct, Listing.names]

def nodeAC : Hash := digest
  0x25c74f18bafd344d005238c935c33ca329f01f38e28bf3fb86d1837a83966405
  0x347df8e715ee8d9035b72253ca715a0e1d9e48c3b2acdccefd4e37f9a36d1302
def nodeAA : Hash := digest
  0xca27b011d474a57e164dd6b01829c0b9932d461e9bc9c567fca8a0e107f970b3
  0x5916039ea37cfece9f8828dbf5249b3fb0043ff7185889dc165584f5de303b42
def nodeBB : Hash := digest
  0x8f6e720b10dbbac9d5044d5bed2cdf9929405d86001c865528adbb65dba21e5a
  0xa3fd009093241d1e99ec31f15ef77b33d8d3c717bd33a19beaa9c8e8e8c829a9
def topTwo : Hash := digest
  0x3f1060bf79edc541a1332770493c0534e35b3ce97f2f201d795e3c4141b2a780
  0xce779ad52161a4accaeb5cf9de523396573a933dd74397efb4332e4765691d06
def topTwice : Hash := digest
  0x36fef3a97e812742aeef2899343213fa136a4ef49528de57f29b982952e97285
  0x2f66c02acfa34d00fa5f10513e47604d8462500326e9e5df812f444075467c68

def boxTable : List (Bytes × Hash) :=
  [(ascii ['a'], dirA), (ascii ['b'], dirB), (ascii ['c'], dirC),
    (Hash.concat dirA dirC, nodeAC), (Hash.concat dirA dirA, nodeAA),
    (Hash.concat dirB dirB, nodeBB), (Hash.concat nodeAC nodeBB, topTwo),
    (Hash.concat nodeAA nodeBB, topTwice), (ascii ['a', '1', '2'], leafA12),
    (leafA12.getString ++ [dot], dirDot), (ascii ['c', '/', '1'], leafC),
    (leafC.getString ++ ascii ['a'], dirFilled), (Hash.concat dirFilled dirB, nodeFilled)]

def boxhash (s : Bytes) : Hash := (boxTable.lookup s).getD default

theorem boxhash_injOn : Set.InjOn boxhash {s | s ∈ boxTable.map Prod.fst} := by
  have hnodup : ((boxTable.map Prod.fst).map boxhash).Nodup := by
    decide +kernel
  intro s hs t ht
  exact List.inj_on_of_nodup_map hnodup hs ht

theorem boxes_strings : ∀ t ∈ [nested, beside, twice, opened, reopened, filled, posing],
    t.boxStrings boxhash ⊆ {s | s ∈ boxTable.map Prod.fst} := by
  have htable : ∀ t ∈ [nested, beside, twice, opened, reopened, filled, posing],
      (∀ d ∈ t.places, (∀ s ∈ d.leafStrings, s ∈ boxTable.map Prod.fst) ∧
        (∀ s ∈ treeStrings boxhash (d.tempHashes boxhash), s ∈ boxTable.map Prod.fst) ∧
        d.hashString boxhash ∈ boxTable.map Prod.fst) ∧
      ∀ s ∈ treeStrings boxhash (hashPtrs (t.directoryHashes boxhash)),
        s ∈ boxTable.map Prod.fst := by
    decide +kernel
  intro t ht
  obtain ⟨hplaces, htree⟩ := htable t ht
  exact Tree.boxStrings_subset hplaces htree

theorem boxes_injOn {t u : Tree}
    (ht : t ∈ [nested, beside, twice, opened, reopened, filled, posing])
    (hu : u ∈ [nested, beside, twice, opened, reopened, filled, posing]) :
    Set.InjOn boxhash (t.boxStrings boxhash ∪ u.boxStrings boxhash) :=
  boxhash_injOn.mono (Set.union_subset (boxes_strings t ht) (boxes_strings u hu))

theorem beside_strings : beside.boxStrings boxhash ⊆ {s | s ∈ boxTable.map Prod.fst} :=
  boxes_strings _ (List.mem_cons_of_mem _ List.mem_cons_self)

theorem twice_strings : twice.boxStrings boxhash ⊆ {s | s ∈ boxTable.map Prod.fst} :=
  boxes_strings _ (by simp)

end Sample

theorem watches_iff_beside :
    (Sample.beside.box Sample.boxhash).watches.Perm (Sample.beside.places.map Prod.fst) ↔
      Sample.beside.places.Pairwise fun d e => ¬ d.Confused Sample.boxhash e :=
  Tree.watches_iff Sample.beside
    (Sample.boxhash_injOn.mono fun _ hs => Sample.beside_strings (.inl hs))

/-- The second directory of a name gets no watch. -/
theorem watches_fails :
    ¬ ∀ (H : Bytes → Hash) (t : Tree), Set.InjOn H (t.boxStrings H) →
      (t.box H).watches.Perm (t.places.map Prod.fst) := by
  intro h
  have hperm := h Sample.boxhash Sample.twice (Sample.boxhash_injOn.mono Sample.twice_strings)
  have hlen : (Sample.twice.box Sample.boxhash).watches.length ≠
      (Sample.twice.places.map Prod.fst).length := by
    decide
  exact hlen hperm.length_eq

theorem boxes_unchanged :
    (Sample.nested.box Sample.boxhash).getChangedDirHashes [] (Sample.beside.box Sample.boxhash) =
        some (false, []) ∧
      (Sample.opened.box Sample.boxhash).getChangedDirHashes []
        (Sample.reopened.box Sample.boxhash) = some (false, []) ∧
      (Sample.filled.box Sample.boxhash).getChangedDirHashes [] (Sample.posing.box Sample.boxhash) =
        some (false, []) := by
  decide +kernel

theorem moved_injOn : Set.InjOn Sample.boxhash
    (Sample.nested.boxStrings Sample.boxhash ∪ Sample.beside.boxStrings Sample.boxhash) :=
  Sample.boxes_injOn (by simp) (by simp)

theorem unchanged_sound_moved :
    (∀ d ∈ Sample.nested.places, ∃ e ∈ Sample.beside.places, d.Alike e) ∧
      ∀ e ∈ Sample.beside.places, ∃ d ∈ Sample.nested.places, e.Alike d :=
  Tree.unchanged_sound ⟨by decide, by decide⟩ ⟨by decide, by decide⟩
    (fun d hd => not_hashLike_of_short (by revert d; decide)) moved_injOn
    boxes_unchanged.1

/-- A directory that is moved to another one is not noticed. -/
theorem unchanged_fails :
    ¬ ∀ (H : Bytes → Hash) (t u : Tree) (changed changed' : List Hash),
      filename t.path = filename u.path → Set.InjOn H (t.boxStrings H ∪ u.boxStrings H) →
      (t.box H).getChangedDirHashes changed (u.box H) = some (false, changed') →
      (∀ path, path ∈ t.relativePaths ↔ path ∈ u.relativePaths) ∧
        ∀ path f, t.HasFile path f ↔ u.HasFile path f := by
  intro h
  obtain ⟨hpaths, -⟩ := h Sample.boxhash Sample.nested Sample.beside [] [] rfl moved_injOn
    boxes_unchanged.1
  have hmoved : ascii ['/', 'a', '/', 'c'] ∈ Sample.nested.relativePaths ∧
      ascii ['/', 'a', '/', 'c'] ∉ Sample.beside.relativePaths := by
    decide
  exact hmoved.2 ((hpaths _).1 hmoved.1)

/-- Below a path with a slash at its end the name of a file runs into its time. -/
theorem unchanged_open_fails :
    ¬ ∀ (H : Bytes → Hash) (t u : Tree) (changed changed' : List Hash),
      (∀ d ∈ t.places ++ u.places, ¬ HashLike (filename d.1)) →
      Set.InjOn H (t.boxStrings H ∪ u.boxStrings H) →
      (t.box H).getChangedDirHashes changed (u.box H) = some (false, changed') →
      ∀ d ∈ t.places, ∃ e ∈ u.places, d.Alike e := by
  intro h
  obtain ⟨e, he, -, hfiles⟩ := h Sample.boxhash Sample.opened Sample.reopened [] []
    (fun d hd => not_hashLike_of_short (by revert d; decide))
    (Sample.boxes_injOn (by simp) (by simp)) boxes_unchanged.2.1 _ List.mem_cons_self
  have hother : ∀ e ∈ Sample.reopened.places, (Sample.a, 12) ∉ e.2.files := by decide
  exact hother e he ((hfiles _).1 List.mem_cons_self)

/-- A directory may have the name that is hashed for another one with its files. -/
theorem unchanged_hashLike_fails :
    ¬ ∀ (H : Bytes → Hash) (t u : Tree) (changed changed' : List Hash),
      Closed t.path → Closed u.path → Set.InjOn H (t.boxStrings H ∪ u.boxStrings H) →
      (t.box H).getChangedDirHashes changed (u.box H) = some (false, changed') →
      ∀ d ∈ t.places, ∃ e ∈ u.places, d.Alike e := by
  intro h
  obtain ⟨e, he, -, hfiles⟩ := h Sample.boxhash Sample.filled Sample.posing [] []
    ⟨by decide, by decide⟩ ⟨by decide, by decide⟩ (Sample.boxes_injOn (by simp) (by simp))
    boxes_unchanged.2.2 _ (List.mem_cons_of_mem _ List.mem_cons_self)
  have hother : ∀ e ∈ Sample.posing.places, e.2.files = [] := by decide
  have hfile := (hfiles (Sample.c, 1)).1 List.mem_cons_self
  rw [hother e he] at hfile
  simp at hfile

end Flocksy
