import Flocksy.Foundation.Chains
import Flocksy.Directories

/-!
# The entries of a directory

A regular file is hashed as its name, the way to it from the path of the directory, and its time,
without anything between them. Which files are hashed depends on what is done with symbolic links;
when they are followed, an entry is processed as what its link names, and this again, as long as
links are found.
-/

namespace Flocksy

open ByteStream

theorem leafString_of_open {path : Bytes} (hpath : ¬ Closed path) {name : FileName}
    (hname : filename (childPath path name.bytes) = name.bytes) (t : ℤ) :
    leafString path name t = name.bytes ++ decimalInt t := by
  have hopen : path = [] ∨ path.getLast? = some slash := by
    rwa [Closed, not_and_or, not_not, not_not] at hpath
  have hchild : childPath path name.bytes = path ++ name.bytes := by
    rw [childPath, if_pos hopen]
  have hcount : ((childPath path name.bytes).length : ℤ) - name.bytes.length - path.length = 0 := by
    rw [hchild, List.length_append]
    omega
  simp only [leafString, hname, hcount, substrAt]
  simp

theorem exists_of_isNetName {path : Bytes} (h : isNetName path = true) :
    ∃ rest, path = slash :: slash :: rest ∧ slash ∉ rest := by
  unfold isNetName at h
  split at h
  · next a b rest =>
    simp only [Bool.and_eq_true, beq_iff_eq, Bool.not_eq_true', List.contains_eq_mem,
      decide_eq_false_iff_not] at h
    obtain ⟨⟨rfl, rfl⟩, hrest⟩ := h
    exact ⟨rest, rfl, hrest⟩
  · simp at h

theorem eq_of_isNetName {path : Bytes} (hpath : path = [] ∨ path.getLast? = some slash)
    {name : FileName} (hnet : isNetName (path ++ name.bytes) = true) : path = [slash, slash] := by
  obtain ⟨rest, hbytes, hrest⟩ := exists_of_isNetName hnet
  have hnot (after : Bytes) : name.bytes ≠ slash :: after := fun h =>
    name.noSlash (h ▸ List.mem_cons_self)
  cases path with
  | nil => exact absurd hbytes (hnot _)
  | cons a path =>
    obtain ⟨rfl, htail⟩ := List.cons.inj hbytes
    cases path with
    | nil => exact absurd htail (hnot _)
    | cons b path =>
      obtain ⟨rfl, rfl⟩ := List.cons.inj htail
      cases path with
      | nil => rfl
      | cons c path =>
        have hlast : (c :: path).getLast? = some slash := by simpa using hpath
        exact absurd (List.mem_append_left _ (List.mem_of_getLast? hlast)) hrest

/-- Below a path that ends with a slash the file name is the name, unless the path is taken for the
front of the name of a host. -/
theorem filename_child_open {path : Bytes} (hpath : ¬ Closed path) (hhost : path ≠ [slash, slash])
    (name : FileName) : filename (childPath path name.bytes) = name.bytes := by
  refine (filename_child_cases path name).resolve_right fun h => hhost ?_
  obtain ⟨hnet, -⟩ := h
  have hopen : path = [] ∨ path.getLast? = some slash := by
    rwa [Closed, not_and_or, not_not, not_not] at hpath
  rw [childPath, if_pos hopen] at hnet
  exact eq_of_isNetName hopen hnet

namespace Sample

theorem ones_valid (n : ℕ) : List.replicate (n + 1) (49 : UInt8) ≠ [] ∧
    slash ∉ List.replicate (n + 1) (49 : UInt8) ∧ 0 ∉ List.replicate (n + 1) (49 : UInt8) ∧
    List.replicate (n + 1) (49 : UInt8) ≠ [dot] ∧
    List.replicate (n + 1) (49 : UInt8) ≠ [dot, dot] := by
  refine ⟨by simp, by simp [slash], by simp, ?_, ?_⟩
  · intro h
    rw [List.replicate_succ, List.cons.injEq] at h
    exact absurd h.1 (by decide)
  · intro h
    rw [List.replicate_succ, List.cons.injEq] at h
    exact absurd h.1 (by decide)

/-- A name that is a digit `1`, and so many more of them. -/
def ones (n : ℕ) : FileName where
  bytes := List.replicate (n + 1) 49
  ne_nil := (ones_valid n).1
  noSlash := (ones_valid n).2.1
  noNul := (ones_valid n).2.2.1
  noDots := (ones_valid n).2.2.2

end Sample

/-- Two files are hashed as the same string only when they have the same name and time, if and only
if the path of the directory ends with a name. The slash between name and time is the one that
`path / name` puts in. -/
theorem leafString_injective_iff (path : Bytes) :
    (∀ name name' t t', leafString path name t = leafString path name' t' ↔
      name = name' ∧ t = t') ↔ Closed path := by
  constructor
  · intro h
    by_contra hpath
    by_cases hhost : path = [slash, slash]
    · have hsame : leafString [slash, slash] (Sample.ones 0) 112 =
          leafString [slash, slash] (Sample.ones 1) 2 := by
        rfl
      rw [← hhost, h] at hsame
      exact absurd hsame.2 (by decide)
    · have hsame : leafString path (Sample.ones 0) 12 = leafString path (Sample.ones 1) 2 := by
        rw [leafString_of_open hpath (filename_child_open hpath hhost _),
          leafString_of_open hpath (filename_child_open hpath hhost _)]
        rfl
      rw [h] at hsame
      exact absurd hsame.2 (by decide)
  · intro hpath name name' t t'
    rw [leafString_of_closed hpath, leafString_of_closed hpath]
    refine ⟨leafString_inj, ?_⟩
    rintro ⟨rfl, rfl⟩
    rfl

theorem leafString_injective_fails :
    ¬ ∀ path name name' t t', leafString path name t = leafString path name' t' ↔
      name = name' ∧ t = t' := by
  intro h
  have hsame : leafString [slash] (Sample.ones 0) 12 = leafString [slash] (Sample.ones 1) 2 := by
    rfl
  rw [h] at hsame
  exact absurd hsame.2 (by decide)

inductive SymlinkHandling where
  | follow
  | ignore
  | copy

/-- What `symlink_status` and `read_symlink` tell about a path. -/
inductive EntryStatus where
  | error
  | notFound
  | regular
  | directory
  | symlink (target : Bytes)
  | other

/-- A file system, as the library of the source sees it. `status` follows links, and a time of
`none` is an error. -/
structure Disk where
  symlinkStatus : Bytes → EntryStatus
  status : Bytes → EntryStatus
  lastWriteTime : Bytes → Option ℤ
  /-- The targets of all its links. -/
  targets : List Bytes
  target_mem : ∀ path target, symlinkStatus path = .symlink target → target ∈ targets
  target_absolute : ∀ target ∈ targets, target.head? = some slash

/-- `temp_hashes`, `dirs` and `entries_`. -/
structure Entries where
  tempHashes : List Hash
  dirs : List Bytes
  entries : List (Bytes × Bytes)

inductive Ending (α : Type) where
  | returned (a : α)
  | thrown

section Process

variable (disk : Disk) (H : Bytes → Hash) (symlinks : SymlinkHandling) (path : Bytes)

/-- What `processRegularFileEntry` hashes for the path of a file; `substr` throws behind the end of
the string. -/
def entryString (file : Bytes) (lastWriteTime : ℤ) : Option Bytes :=
  if file.length < path.length then none
  else
    let relativeFilePath := substrAt file path.length
      ((file.length : ℤ) - (filename file).length - path.length)
    some (filename file ++ relativeFilePath ++ decimalInt lastWriteTime)

/-- `entries_.insert` does not replace an entry. -/
def Entries.add (d : Entries) (hash : Hash) (entry : Bytes) : Entries where
  tempHashes := d.tempHashes ++ [hash]
  dirs := d.dirs
  entries :=
    if d.entries.any (·.1 = hash.getString) then d.entries
    else d.entries ++ [(hash.getString, entry)]

def processRegularFileEntry (entry : Bytes) (d : Entries) : Ending Entries :=
  match (disk.lastWriteTime entry).bind (entryString path entry) with
  | some string => .returned (d.add (H string) entry)
  | none => .thrown

/-- `processDirectoryEntry`, with a bound on the depth of its recursion. -/
def processDirectoryEntry : ℕ → Bytes → Entries → Option (Ending Entries)
  | 0, _, _ => none
  | fuel + 1, entry, d =>
    match disk.symlinkStatus entry, symlinks with
    | .error, _ => some .thrown
    | .symlink target, .follow => processDirectoryEntry fuel target d
    | .symlink _, .copy => some (processRegularFileEntry disk H path entry d)
    | .symlink _, .ignore =>
      match disk.status entry with
      | .error => some .thrown
      | _ => some (.returned d)
    | .directory, _ => some (.returned { d with dirs := d.dirs ++ [entry] })
    | .regular, _ => some (processRegularFileEntry disk H path entry d)
    | .notFound, _ => some (.returned d)
    | .other, _ => some (.returned d)

/-- The loop of `fillDirectory`. -/
def fillEntries (fuel : ℕ) : List Bytes → Entries → Option (Ending Entries)
  | [], d => some (.returned d)
  | entry :: rest, d =>
    match processDirectoryEntry disk H symlinks path fuel entry d with
    | some (.returned d) => fillEntries fuel rest d
    | some .thrown => some .thrown
    | none => none

end Process

theorem entryString_child (path : Bytes) (name : FileName) (t : ℤ) :
    entryString path (childPath path name.bytes) t = some (leafString path name t) := by
  have hlength : path.length ≤ (childPath path name.bytes).length := by
    rw [childPath]
    split_ifs <;> simp
  rw [entryString, if_neg (by omega)]
  rfl

def Disk.Shows (disk : Disk) (path : Bytes) : Listing → Prop
  | .nil => True
  | .regular name lastWriteTime rest =>
    disk.symlinkStatus (childPath path name.bytes) = .regular ∧
      disk.lastWriteTime (childPath path name.bytes) = some lastWriteTime ∧ disk.Shows path rest
  | .directory name _ rest =>
    disk.symlinkStatus (childPath path name.bytes) = .directory ∧ disk.Shows path rest
  | .special name rest =>
    disk.symlinkStatus (childPath path name.bytes) = .other ∧ disk.Shows path rest

def Listing.paths (path : Bytes) : Listing → List Bytes
  | .nil => []
  | .regular name _ rest => childPath path name.bytes :: rest.paths path
  | .directory name _ rest => childPath path name.bytes :: rest.paths path
  | .special name rest => childPath path name.bytes :: rest.paths path

theorem fillEntries_shows {disk : Disk} {H : Bytes → Hash} {symlinks : SymlinkHandling}
    {path : Bytes} {content : Listing} (hshows : disk.Shows path content) (fuel : ℕ) (d : Entries) :
    ∃ d', fillEntries disk H symlinks path (fuel + 1) (content.paths path) d =
        some (.returned d') ∧
      d'.tempHashes = d.tempHashes ++ (Place.leafStrings (path, content)).map H := by
  induction content generalizing d with
  | nil => exact ⟨d, rfl, by simp [Place.leafStrings, Listing.files]⟩
  | regular name t rest ih =>
    obtain ⟨hstatus, htime, hrest⟩ := hshows
    have hentry : processDirectoryEntry disk H symlinks path (fuel + 1)
        (childPath path name.bytes) d =
          some (.returned (d.add (H (leafString path name t)) (childPath path name.bytes))) := by
      simp only [processDirectoryEntry, hstatus, processRegularFileEntry, htime, Option.bind_some,
        entryString_child]
    obtain ⟨d', hfill, hhashes⟩ := ih hrest (d.add (H (leafString path name t))
      (childPath path name.bytes))
    refine ⟨d', ?_, ?_⟩
    · rw [Listing.paths, fillEntries, hentry]
      exact hfill
    · rw [hhashes]
      simp [Entries.add, Place.leafStrings, Listing.files]
  | directory name content rest _ ih =>
    obtain ⟨hstatus, hrest⟩ := hshows
    obtain ⟨d', hfill, hhashes⟩ := ih hrest { d with
      dirs := d.dirs ++ [childPath path name.bytes] }
    refine ⟨d', ?_, hhashes⟩
    simp only [Listing.paths, fillEntries, processDirectoryEntry, hstatus]
    exact hfill
  | special name rest ih =>
    obtain ⟨hstatus, hrest⟩ := hshows
    obtain ⟨d', hfill, hhashes⟩ := ih hrest d
    refine ⟨d', ?_, hhashes⟩
    simp only [Listing.paths, fillEntries, processDirectoryEntry, hstatus]
    exact hfill

namespace Disk

variable (disk : Disk)

def target (path : Bytes) : Option Bytes :=
  match disk.symlinkStatus path with
  | .symlink target => some target
  | _ => none

theorem target_eq_some {path target : Bytes} :
    disk.target path = some target ↔ disk.symlinkStatus path = .symlink target := by
  rw [Disk.target]
  split <;> simp_all

theorem targets_finite : {b | ∃ a, Chains.Link disk.target a b}.Finite := by
  refine disk.targets.finite_toSet.subset ?_
  rintro target ⟨path, hlink⟩
  exact disk.target_mem path target ((disk.target_eq_some).1 hlink)

def Circular (entry : Bytes) : Prop := Chains.Circles disk.target entry

end Disk

section Follow

variable (disk : Disk) (H : Bytes → Hash) (path : Bytes)

theorem processDirectoryEntry_link {entry target : Bytes} (fuel : ℕ) (d : Entries)
    (hlink : disk.target entry = some target) :
    processDirectoryEntry disk H .follow path (fuel + 1) entry d =
      processDirectoryEntry disk H .follow path fuel target d := by
  simp only [processDirectoryEntry, disk.target_eq_some.1 hlink]

theorem processDirectoryEntry_last {entry : Bytes} (fuel : ℕ) (d : Entries)
    (hlast : disk.target entry = none) :
    (processDirectoryEntry disk H .follow path (fuel + 1) entry d).isSome := by
  cases hstatus : disk.symlinkStatus entry with
  | symlink target =>
    rw [disk.target_eq_some.2 hstatus] at hlast
    cases hlast
  | error => simp [processDirectoryEntry, hstatus]
  | notFound => simp [processDirectoryEntry, hstatus]
  | regular => simp [processDirectoryEntry, hstatus]
  | directory => simp [processDirectoryEntry, hstatus]
  | other => simp [processDirectoryEntry, hstatus]

/-- The call returns or throws when the chain of links has ended before the depth is used up. -/
theorem processDirectoryEntry_isSome_iff (fuel : ℕ) (entry : Bytes) (d : Entries) :
    (processDirectoryEntry disk H .follow path fuel entry d).isSome ↔
      ∃ last, ∃ n < fuel, Chains.EndsAt disk.target last n entry := by
  induction fuel generalizing entry with
  | zero => simp [processDirectoryEntry]
  | succ fuel ih =>
    cases hlink : disk.target entry with
    | none =>
      have hsome := processDirectoryEntry_last disk H path fuel d hlink
      exact iff_of_true hsome ⟨entry, 0, Nat.succ_pos fuel, rfl, hlink⟩
    | some target =>
      rw [processDirectoryEntry_link disk H path fuel d hlink, ih]
      constructor
      · rintro ⟨last, n, hn, hends⟩
        exact ⟨last, n + 1, by omega, target, hlink, hends⟩
      · rintro ⟨last, n, hn, hends⟩
        obtain ⟨m, hm, hends⟩ := hends.link hlink
        exact ⟨last, m, by omega, hends⟩

/-- Links are followed to an end, if and only if they do not come to a cycle. -/
theorem processDirectoryEntry_ends_iff (entry : Bytes) (d : Entries) :
    (∃ fuel ending, processDirectoryEntry disk H .follow path fuel entry d = some ending) ↔
      ¬ disk.Circular entry := by
  rw [Disk.Circular, ← Chains.endsAt_iff disk.targets_finite]
  constructor
  · rintro ⟨fuel, ending, heq⟩
    have hsome : (processDirectoryEntry disk H .follow path fuel entry d).isSome := by
      rw [heq]
      rfl
    obtain ⟨last, n, -, hends⟩ := (processDirectoryEntry_isSome_iff disk H path fuel entry d).1 hsome
    exact ⟨last, n, hends⟩
  · rintro ⟨last, n, hends⟩
    have hsome := (processDirectoryEntry_isSome_iff disk H path (n + 1) entry d).2
      ⟨last, n, Nat.lt_succ_self n, hends⟩
    obtain ⟨ending, heq⟩ := Option.isSome_iff_exists.1 hsome
    exact ⟨n + 1, ending, heq⟩

end Follow

namespace Sample

def knot : Bytes := ascii ['/', 'b', '/', 'l']

theorem knot_absolute : ∀ target ∈ [knot], target.head? = some slash := by decide

def knotStatus (path : Bytes) : EntryStatus := if path = knot then .symlink knot else .notFound

theorem knotStatus_mem (path target : Bytes) (h : knotStatus path = .symlink target) :
    target ∈ [knot] := by
  rw [knotStatus] at h
  split_ifs at h
  cases h
  exact List.mem_singleton_self knot

def knotDisk : Disk where
  symlinkStatus := knotStatus
  status := fun _ => .error
  lastWriteTime := fun _ => none
  targets := [knot]
  target_mem := knotStatus_mem
  target_absolute := knot_absolute

end Sample

/-- A link to itself is followed without end. -/
theorem processDirectoryEntry_fails :
    ¬ ∀ (disk : Disk) (H : Bytes → Hash) (path entry : Bytes) (d : Entries),
      ∃ fuel ending, processDirectoryEntry disk H .follow path fuel entry d = some ending := by
  intro h
  obtain ⟨fuel, ending, heq⟩ := h Sample.knotDisk (fun _ => default) (ascii ['/', 'b']) Sample.knot
    ⟨[], [], []⟩
  have hlink : Sample.knotDisk.target Sample.knot = some Sample.knot := by decide
  induction fuel with
  | zero => cases heq
  | succ fuel ih =>
    rw [processDirectoryEntry_link _ _ _ fuel _ hlink] at heq
    exact ih heq

end Flocksy
