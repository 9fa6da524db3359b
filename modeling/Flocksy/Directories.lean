import Flocksy.HashTree

/-!
# Directories

A directory hashes each of its files by name, relative path and time, makes a tree of these hashes,
and hashes the top of the tree and its own name for itself. Neither the directories in it nor the
way to it take part in the hash. So two directories have the same hash when they have the same name
and the same files.
-/

namespace Flocksy

open ByteStream MerkleTree

def dot : UInt8 := 46

structure FileName where
  bytes : Bytes
  ne_nil : bytes ≠ []
  noSlash : slash ∉ bytes
  noNul : 0 ∉ bytes
  noDots : bytes ≠ [dot] ∧ bytes ≠ [dot, dot]
  deriving DecidableEq

/-- `path / name`. -/
def childPath (path name : Bytes) : Bytes :=
  if path = [] ∨ path.getLast? = some slash then path ++ name else path ++ slash :: name

/-- Two slashes at the front and no other one: this is the name of a host. -/
def isNetName (path : Bytes) : Bool :=
  match path with
  | a :: b :: rest => a == slash && b == slash && !rest.contains slash
  | _ => false

/-- `boost::filesystem::path::filename`. -/
def filename (path : Bytes) : Bytes :=
  if isNetName path then path
  else if path.getLast? = some slash then
    let stem := path.rdropWhile (· = slash)
    if stem = [] ∨ isNetName stem then [slash] else [dot]
  else path.rtakeWhile (· ≠ slash)

/-- A path that ends with a name. -/
def Closed (path : Bytes) : Prop := path ≠ [] ∧ path.getLast? ≠ some slash

theorem getLast?_child (path : Bytes) (name : FileName) :
    (childPath path name.bytes).getLast? = name.bytes.getLast? := by
  rw [childPath]
  split_ifs
  · rw [List.getLast?_append_of_ne_nil _ name.ne_nil]
  · rw [← List.singleton_append, ← List.append_assoc, List.getLast?_append_of_ne_nil _ name.ne_nil]

theorem closed_child (path : Bytes) (name : FileName) : Closed (childPath path name.bytes) := by
  have hlast := getLast?_child path name
  constructor
  · intro h
    rw [h] at hlast
    exact name.ne_nil (List.getLast?_eq_none_iff.1 hlast.symm)
  · rw [hlast]
    intro h
    exact name.noSlash (List.mem_of_getLast? h)

theorem rtakeWhile_append_slash {path name : Bytes} (hname : slash ∉ name)
    (hpath : path = [] ∨ path.getLast? = some slash) :
    (path ++ name).rtakeWhile (· ≠ slash) = name := by
  have hall : ∀ b ∈ name.reverse, decide (b ≠ slash) = true := by
    intro b hb
    simp only [decide_eq_true_eq]
    rintro rfl
    exact hname (List.mem_reverse.1 hb)
  rw [List.rtakeWhile, List.reverse_append, List.takeWhile_append_of_pos hall]
  rcases hpath with rfl | hpath
  · simp
  · rw [← List.head?_reverse] at hpath
    cases hrev : path.reverse with
    | nil => simp
    | cons b bs =>
      rw [hrev] at hpath
      obtain rfl : b = slash := by simpa using hpath
      simp

theorem filename_child_cases (path : Bytes) (name : FileName) :
    filename (childPath path name.bytes) = name.bytes ∨
      isNetName (childPath path name.bytes) = true ∧
        filename (childPath path name.bytes) = childPath path name.bytes := by
  have hlast := (closed_child path name).2
  by_cases hnet : isNetName (childPath path name.bytes) = true
  · exact .inr ⟨hnet, if_pos hnet⟩
  · left
    rw [filename, if_neg hnet, if_neg hlast, childPath]
    split_ifs with hopen
    · exact rtakeWhile_append_slash name.noSlash hopen
    · rw [← List.singleton_append, ← List.append_assoc]
      exact rtakeWhile_append_slash name.noSlash (.inr (by simp))

theorem filename_child {path : Bytes} (hpath : Closed path) (name : FileName) :
    filename (childPath path name.bytes) = name.bytes := by
  obtain ⟨hne, hslash⟩ := hpath
  refine (filename_child_cases path name).resolve_right fun h => ?_
  obtain ⟨hnet, -⟩ := h
  rw [childPath, if_neg (not_or.2 ⟨hne, hslash⟩)] at hnet
  cases path with
  | nil => exact hne rfl
  | cons a path =>
    cases path with
    | nil =>
      have ha : a ≠ slash := fun h => hslash (by rw [h]; rfl)
      simp [isNetName, ha] at hnet
    | cons b rest => simp [isNetName] at hnet

theorem filename_ne_child {base : Bytes} (hbase : ¬ Closed base) (path : Bytes) (name : FileName) :
    filename base ≠ filename (childPath path name.bytes) := by
  have hlong {p : Bytes} (h : isNetName p = true) : 2 ≤ p.length := by
    match p with
    | [] => simp [isNetName] at h
    | [_] => simp [isNetName] at h
    | _ :: _ :: _ => simp
  have hchild : filename (childPath path name.bytes) ≠ [dot] ∧
      Closed (filename (childPath path name.bytes)) := by
    rcases filename_child_cases path name with h | ⟨hnet, h⟩
    · rw [h]
      exact ⟨name.noDots.1, name.ne_nil, fun hlast => name.noSlash (List.mem_of_getLast? hlast)⟩
    · rw [h]
      refine ⟨fun hdot => ?_, closed_child path name⟩
      have hlen := hlong hnet
      simp [hdot] at hlen
  intro heq
  rw [← heq] at hchild
  obtain ⟨hdot, hclosed⟩ := hchild
  by_cases hnet : isNetName base = true
  · rw [filename, if_pos hnet] at hclosed
    exact hbase hclosed
  · by_cases hlast : base.getLast? = some slash
    · rw [filename, if_neg hnet, if_pos hlast] at hdot hclosed
      simp only at hdot hclosed
      split_ifs at hdot hclosed
      · exact hclosed.2 rfl
      · exact hdot rfl
    · rw [Closed, not_and_or, not_not, not_not] at hbase
      obtain rfl := hbase.resolve_right hlast
      exact hclosed.1 rfl

/-- What `directory_iterator` finds in a directory without symbolic links, in its order. -/
inductive Listing where
  | nil
  | regular (name : FileName) (lastWriteTime : ℤ) (rest : Listing)
  | directory (name : FileName) (content rest : Listing)
  | special (name : FileName) (rest : Listing)

/-- The entries that `processRegularFileEntry` is called for. -/
def Listing.files : Listing → List (FileName × ℤ)
  | .nil => []
  | .regular name lastWriteTime rest => (name, lastWriteTime) :: rest.files
  | .directory _ _ rest => rest.files
  | .special _ rest => rest.files

/-- `std::string::substr`. A negative count becomes one that is larger than any string. -/
def substrAt (s : Bytes) (pos : ℕ) (count : ℤ) : Bytes :=
  if count < 0 then s.drop pos else (s.drop pos).take count.toNat

/-- What `processRegularFileEntry` hashes. -/
def leafString (path : Bytes) (name : FileName) (lastWriteTime : ℤ) : Bytes :=
  let file := childPath path name.bytes
  let relativeFilePath := substrAt file path.length
    ((file.length : ℤ) - (filename file).length - path.length)
  filename file ++ relativeFilePath ++ decimalInt lastWriteTime

theorem leafString_of_closed {path : Bytes} (hpath : Closed path) (name : FileName) (t : ℤ) :
    leafString path name t = name.bytes ++ slash :: decimalInt t := by
  have hchild : childPath path name.bytes = path ++ slash :: name.bytes := by
    rw [childPath, if_neg (not_or.2 hpath)]
  have hcount : ((childPath path name.bytes).length : ℤ) - name.bytes.length - path.length = 1 := by
    rw [hchild, List.length_append, List.length_cons]
    omega
  have hname := filename_child hpath name
  simp only [leafString, hname, hcount, substrAt]
  rw [hchild, List.drop_left]
  simp

/-- The name ends at the first slash. -/
theorem leafString_inj {name name' : FileName} {t t' : ℤ}
    (h : name.bytes ++ slash :: decimalInt t = name'.bytes ++ slash :: decimalInt t') :
    name = name' ∧ t = t' := by
  have hname (n : FileName) (u : ℤ) :
      (n.bytes ++ slash :: decimalInt u).takeWhile (· ≠ slash) = n.bytes := by
    refine Stream.takeWhile_run (fun b hb => ?_) (by simp)
    simp only [decide_eq_true_eq]
    rintro rfl
    exact n.noSlash hb
  have hbytes : name.bytes = name'.bytes := by rw [← hname name t, h, hname]
  have htime : decimalInt t = decimalInt t' := by
    rw [hbytes] at h
    exact (List.cons.inj (List.append_cancel_left h)).2
  refine ⟨?_, decimalInt_injective htime⟩
  cases name
  cases name'
  simpa using hbytes

structure Directory where
  path : Bytes
  hashTree : HashTree
  directoryHash : Hash

/-- A directory on the disk: its path, and what is found in it. -/
abbrev Place := Bytes × Listing

namespace Place

def leafStrings (d : Place) : List Bytes := d.2.files.map fun f => leafString d.1 f.1 f.2

/-- Each file has a `Hash` of its own. -/
def leaves (d : Place) : List (ℕ × Bytes) := d.leafStrings.zipIdx.map Prod.swap

variable (H : Bytes → Hash)

def tempHashes (d : Place) : List HashPtr := hashAll H d.leaves

def hashTree (d : Place) : HashTree := makeHashTree H (d.tempHashes H)

/-- What `makeDirectoryHash` hashes. -/
def hashString (d : Place) : Bytes := (d.hashTree H).topString ++ filename d.1

/-- `Directory::fillDirectory`. -/
def fillDirectory (d : Place) : Directory := ⟨d.1, d.hashTree H, H (d.hashString H)⟩

def strings (d : Place) : Set Bytes := {s | s ∈ hashedStrings H d.leaves ∨ s = d.hashString H}

/-- The same name, and the same files with the same times. -/
def Alike (d e : Place) : Prop :=
  filename d.1 = filename e.1 ∧ ∀ f, f ∈ d.2.files ↔ f ∈ e.2.files

/-- A directory without files has the top hash of the other one at the front of its name. -/
def Poses (d e : Place) : Prop :=
  d.2.files = [] ∧ e.2.files ≠ [] ∧ filename d.1 = (e.hashTree H).topString ++ filename e.1

def Confused (d e : Place) : Prop := d.Alike e ∨ d.Poses H e ∨ e.Poses H d

variable {H} {d e : Place}

theorem leaves_snd (d : Place) : d.leaves.map Prod.snd = d.leafStrings := by
  rw [leaves, List.map_map]
  exact List.zipIdx_map_fst 0 d.leafStrings

theorem tempHashes_hash (d : Place) : (d.tempHashes H).map (·.hash) = d.leafStrings.map H := by
  rw [← leaves_snd, tempHashes, hashAll, List.map_map, List.map_map]
  rfl

theorem tempHashes_nodup (d : Place) : (d.tempHashes H).Nodup := by
  refine List.Nodup.of_map (·.addr) ?_
  have haddr : (d.tempHashes H).map (·.addr) = d.leafStrings.zipIdx.map Prod.snd := by
    rw [tempHashes, hashAll, leaves, List.map_map, List.map_map]
    rfl
  rw [haddr, List.zipIdx_map_snd]
  exact List.nodup_range'

theorem tempHashes_eq_nil : d.tempHashes H = [] ↔ d.2.files = [] := by
  simp [tempHashes, hashAll, leaves, leafStrings]

theorem topString_of_empty (h : d.2.files = []) : (d.hashTree H).topString = [] := by
  rw [hashTree, tempHashes_eq_nil.2 h]
  rfl

theorem topString_of_files (h : d.2.files ≠ []) : (d.hashTree H).topString.length = 128 :=
  topString_length fun hnil => h (tempHashes_eq_nil.1 hnil)

theorem mem_leafStrings {s : Bytes} :
    s ∈ d.leafStrings ↔ ∃ f ∈ d.2.files, leafString d.1 f.1 f.2 = s := by
  simp [leafStrings]

theorem files_of_topString {strings : Set Bytes} (hH : Set.InjOn H strings)
    (hd : d.strings H ⊆ strings) (he : e.strings H ⊆ strings) (hdpath : Closed d.1)
    (hepath : Closed e.1) (hdne : d.2.files ≠ []) (hene : e.2.files ≠ [])
    (htop : (d.hashTree H).topString = (e.hashTree H).topString) {f : FileName × ℤ}
    (hf : f ∈ d.2.files) : f ∈ e.2.files := by
  have hleaf (g : Place) (hg : g.strings H ⊆ strings) (hgpath : Closed g.1) :
      ∀ p ∈ g.tempHashes H, IsLeaf H Hash.concat strings p.hash := by
    intro p hp
    have hhash : p.hash ∈ (g.tempHashes H).map (·.hash) := List.mem_map_of_mem hp
    rw [tempHashes_hash] at hhash
    obtain ⟨s, hs, heq⟩ := List.mem_map.1 hhash
    rw [← heq]
    refine isLeaf_of_slash (hg (.inl (.inl (by rwa [leaves_snd])))) ?_
    obtain ⟨x, -, rfl⟩ := mem_leafStrings.1 hs
    rw [leafString_of_closed hgpath]
    simp
  have hleaves := leaves_of_topString hH (fun h => hdne (tempHashes_eq_nil.1 h))
    (fun h => hene (tempHashes_eq_nil.1 h)) (hleaf d hd hdpath) (hleaf e he hepath)
    (fun t ht => hd (.inl (.inr ht))) (fun t ht => he (.inl (.inr ht))) htop
    (H (leafString d.1 f.1 f.2))
  have hfstring : leafString d.1 f.1 f.2 ∈ d.leafStrings := mem_leafStrings.2 ⟨f, hf, rfl⟩
  have hmem : H (leafString d.1 f.1 f.2) ∈ (e.tempHashes H).map (·.hash) := by
    rw [List.mem_map]
    refine hleaves.1 (List.mem_map.1 ?_)
    rw [tempHashes_hash]
    exact List.mem_map_of_mem hfstring
  rw [tempHashes_hash] at hmem
  obtain ⟨s, hs, heq⟩ := List.mem_map.1 hmem
  have hsame := hH (he (.inl (.inl (by rwa [leaves_snd]))))
    (hd (.inl (.inl (by rwa [leaves_snd])))) heq
  obtain ⟨g, hg, rfl⟩ := mem_leafStrings.1 hs
  rw [leafString_of_closed hepath, leafString_of_closed hdpath] at hsame
  obtain ⟨hname, htime⟩ := leafString_inj hsame
  rwa [← Prod.ext hname htime]

def Comparable (d e : Place) : Prop := filename d.1 = filename e.1 → Closed d.1 ∧ Closed e.1

theorem confused_of_hashString {strings : Set Bytes} (hH : Set.InjOn H strings)
    (hd : d.strings H ⊆ strings) (he : e.strings H ⊆ strings) (hpaths : d.Comparable e)
    (h : d.hashString H = e.hashString H) : d.Confused H e := by
  rw [hashString, hashString] at h
  by_cases hdfiles : d.2.files = []
  · by_cases hefiles : e.2.files = []
    · rw [topString_of_empty hdfiles, topString_of_empty hefiles] at h
      exact .inl ⟨by simpa using h, by simp [hdfiles, hefiles]⟩
    · rw [topString_of_empty hdfiles, List.nil_append] at h
      exact .inr (.inl ⟨hdfiles, hefiles, h⟩)
  · by_cases hefiles : e.2.files = []
    · rw [topString_of_empty hefiles, List.nil_append] at h
      exact .inr (.inr ⟨hefiles, hdfiles, h.symm⟩)
    · obtain ⟨htop, hname⟩ := List.append_inj h
        ((topString_of_files hdfiles).trans (topString_of_files hefiles).symm)
      obtain ⟨hdpath, hepath⟩ := hpaths hname
      refine .inl ⟨hname, fun f => ⟨?_, ?_⟩⟩
      · exact files_of_topString hH hd he hdpath hepath hdfiles hefiles htop
      · exact files_of_topString hH he hd hepath hdpath hefiles hdfiles htop.symm

theorem hashString_of_confused (hd : d.2.files.Nodup) (he : e.2.files.Nodup)
    (hpaths : d.Comparable e) (h : d.Confused H e) : d.hashString H = e.hashString H := by
  rcases h with ⟨hname, hfiles⟩ | ⟨hdfiles, -, hname⟩ | ⟨hefiles, -, hname⟩
  · obtain ⟨hdpath, hepath⟩ := hpaths hname
    have hperm : d.2.files.Perm e.2.files := (List.perm_ext_iff_of_nodup hd he).2 hfiles
    have hstrings : d.leafStrings.Perm e.leafStrings := by
      have hsame (g : Place) (hg : Closed g.1) :
          g.leafStrings = g.2.files.map fun f => f.1.bytes ++ slash :: decimalInt f.2 := by
        exact List.map_congr_left fun f _ => leafString_of_closed hg f.1 f.2
      rw [hsame d hdpath, hsame e hepath]
      exact hperm.map _
    have hleaves : leafHashes (d.tempHashes H) = leafHashes (e.tempHashes H) := by
      refine leafHashes_of_perm (tempHashes_nodup d) (tempHashes_nodup e) ?_
      rw [tempHashes_hash, tempHashes_hash]
      exact hstrings.map H
    have htree : d.hashTree H = e.hashTree H := by
      rw [hashTree, hashTree, makeHashTree, makeHashTree, Building.start, Building.start, hleaves]
    rw [hashString, hashString, htree, hname]
  · rw [hashString, hashString, topString_of_empty hdfiles, List.nil_append, hname]
  · rw [hashString, hashString, topString_of_empty hefiles, List.nil_append, hname]

end Place

end Flocksy
