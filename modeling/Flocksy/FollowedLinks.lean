import Flocksy.DirectoryEntries

/-!
# Followed links

When links are followed, a file is hashed wherever it lies, but its relative path is cut at the
length of the path of the directory. A file whose path is shorter than that ends `fillDirectory`
with an exception. The length of the cut is inside the path of the file only where the directory of
the file has a path at least as long.
-/

namespace Flocksy

open ByteStream

/-- The length for `substr`, which is then taken for an unsigned number; the start is the length of
the path of the directory. -/
def relativeLength (path file : Bytes) : ℤ :=
  (file.length : ℤ) - (filename file).length - path.length

theorem entryString_eq (path file : Bytes) (lastWriteTime : ℤ) :
    entryString path file lastWriteTime =
      if file.length < path.length then none
      else some (filename file ++ substrAt file path.length (relativeLength path file) ++
        decimalInt lastWriteTime) := rfl

structure InBounds (path file : Bytes) : Prop where
  start : path.length ≤ file.length
  nonneg : 0 ≤ relativeLength path file
  inside : path.length + relativeLength path file ≤ file.length

theorem inBounds_iff {path file : Bytes} :
    InBounds path file ↔ path.length + (filename file).length ≤ file.length := by
  constructor
  · intro h
    have hnonneg := h.nonneg
    rw [relativeLength] at hnonneg
    omega
  · intro h
    refine ⟨by omega, ?_, ?_⟩
    · rw [relativeLength]
      omega
    · rw [relativeLength]
      omega

theorem length_filename_le (file : Bytes) : (filename file).length ≤ file.length := by
  rw [filename]
  split_ifs with hnet hslash
  · exact le_rfl
  · have hpos : 0 < file.length := List.length_pos_of_mem (List.mem_of_getLast? hslash)
    dsimp only
    split_ifs
    · exact hpos
    · exact hpos
  · exact (List.rtakeWhile_suffix _ _).length_le

/-- A negative length is out of bounds as an unsigned number, too. -/
theorem inBounds_iff_unsigned {path file : Bytes} (hpath : path.length < 2 ^ 64)
    (hfile : file.length < 2 ^ 64) :
    InBounds path file ↔ path.length + relativeLength path file % 2 ^ 64 ≤ file.length := by
  have hname := length_filename_le file
  rw [inBounds_iff, relativeLength]
  omega

def Disk.Leads (disk : Disk) (entry last : Bytes) : Prop :=
  ∃ n, Chains.EndsAt disk.target last n entry

def Disk.Intact (disk : Disk) (last : Bytes) : Prop :=
  disk.symlinkStatus last ≠ .error ∧
    (disk.symlinkStatus last = .regular → (disk.lastWriteTime last).isSome = true)

structure Disk.Lists (disk : Disk) (path : Bytes) (entries : List Bytes) : Prop where
  child : ∀ entry ∈ entries, ∃ name : FileName, entry = childPath path name.bytes
  leads : ∀ entry ∈ entries, ∃ last, disk.Leads entry last ∧ disk.Intact last

def Disk.Followed (disk : Disk) (entries : List Bytes) (file : Bytes) : Prop :=
  disk.symlinkStatus file = .regular ∧
    ∃ entry ∈ entries, disk.target entry ≠ none ∧ disk.Leads entry file

section Follow

variable {disk : Disk} {H : Bytes → Hash} {path entry last : Bytes} {entries : List Bytes}

theorem processDirectoryEntry_leads {n fuel : ℕ} (h : Chains.EndsAt disk.target last n entry)
    (hfuel : n < fuel) (d : Entries) :
    processDirectoryEntry disk H .follow path fuel entry d =
      processDirectoryEntry disk H .follow path 1 last d := by
  induction n generalizing entry fuel with
  | zero =>
    obtain ⟨rfl, hnone⟩ := h
    obtain ⟨fuel, rfl⟩ : ∃ k, fuel = k + 1 := ⟨fuel - 1, by omega⟩
    cases hstatus : disk.symlinkStatus entry with
    | symlink target =>
      rw [disk.target_eq_some.2 hstatus] at hnone
      cases hnone
    | _ => simp only [processDirectoryEntry, hstatus]
  | succ n ih =>
    obtain ⟨target, hlink, hends⟩ := h
    obtain ⟨fuel, rfl⟩ : ∃ k, fuel = k + 1 := ⟨fuel - 1, by omega⟩
    rw [processDirectoryEntry_link disk H path fuel d hlink]
    exact ih hends (by omega)

theorem processDirectoryEntry_returned_iff (hlast : disk.target last = none)
    (hintact : disk.Intact last) (d : Entries) :
    (∃ d', processDirectoryEntry disk H .follow path 1 last d = some (.returned d')) ↔
      (disk.symlinkStatus last = .regular → path.length ≤ last.length) := by
  obtain ⟨herror, htime⟩ := hintact
  cases hstatus : disk.symlinkStatus last with
  | error => exact absurd hstatus herror
  | symlink target =>
    rw [disk.target_eq_some.2 hstatus] at hlast
    cases hlast
  | regular =>
    obtain ⟨t, ht⟩ := Option.isSome_iff_exists.1 (htime hstatus)
    simp only [processDirectoryEntry, hstatus, processRegularFileEntry, ht, Option.bind_some,
      entryString_eq]
    by_cases hshort : last.length < path.length
    · rw [if_pos hshort]
      simp [hshort]
    · rw [if_neg hshort]
      simp [not_lt.1 hshort]
  | notFound => simp [processDirectoryEntry, hstatus]
  | directory => simp [processDirectoryEntry, hstatus]
  | other => simp [processDirectoryEntry, hstatus]

/-- There is a depth at which all links end. -/
theorem exists_depth (h : ∀ entry ∈ entries, ∃ last, disk.Leads entry last ∧ disk.Intact last) :
    ∃ fuel, ∀ entry ∈ entries, ∃ last, ∃ n < fuel, Chains.EndsAt disk.target last n entry ∧
      disk.Intact last := by
  induction entries with
  | nil => exact ⟨0, nofun⟩
  | cons entry rest ih =>
    obtain ⟨last, ⟨n, hends⟩, hintact⟩ := h entry List.mem_cons_self
    obtain ⟨fuel, hrest⟩ := ih fun e he => h e (List.mem_cons_of_mem _ he)
    refine ⟨max (n + 1) fuel, fun e he => ?_⟩
    rcases List.mem_cons.1 he with rfl | he
    · exact ⟨last, n, by omega, hends, hintact⟩
    · obtain ⟨last', m, hm, hends', hintact'⟩ := hrest e he
      exact ⟨last', m, by omega, hends', hintact'⟩

theorem fillEntries_returned_iff_of_depth {fuel : ℕ}
    (h : ∀ entry ∈ entries, ∃ last, ∃ n < fuel, Chains.EndsAt disk.target last n entry ∧
      disk.Intact last) (d : Entries) :
    (∃ d', fillEntries disk H .follow path fuel entries d = some (.returned d')) ↔
      ∀ entry ∈ entries, ∀ last, disk.Leads entry last → disk.symlinkStatus last = .regular →
        path.length ≤ last.length := by
  induction entries generalizing d with
  | nil => exact iff_of_true ⟨d, rfl⟩ nofun
  | cons entry rest ih =>
    have hrest := ih fun e he => h e (List.mem_cons_of_mem _ he)
    obtain ⟨last, n, hn, hends, hintact⟩ := h entry List.mem_cons_self
    have hfirst : (∃ d', processDirectoryEntry disk H .follow path 1 last d = some (.returned d')) ↔
        ∀ last', disk.Leads entry last' → disk.symlinkStatus last' = .regular →
          path.length ≤ last'.length := by
      rw [processDirectoryEntry_returned_iff hends.next_last hintact]
      constructor
      · rintro hlast last' ⟨m, hends'⟩
        rwa [← hends.last_eq hends']
      · exact fun hall => hall last ⟨n, hends⟩
    rw [List.forall_mem_cons, ← hfirst, fillEntries, processDirectoryEntry_leads hends hn]
    obtain ⟨ending, hending⟩ := Option.isSome_iff_exists.1
      (processDirectoryEntry_last disk H path 0 d hends.next_last)
    simp only [Nat.zero_add] at hending
    rw [hending]
    cases ending with
    | returned d₁ =>
      rw [hrest d₁]
      exact (and_iff_right ⟨d₁, rfl⟩).symm
    | thrown =>
      refine iff_of_false ?_ fun h => ?_
      · rintro ⟨d', heq⟩
        cases heq
      · obtain ⟨⟨d', heq⟩, -⟩ := h
        cases heq

theorem depth_of_returned {fuel : ℕ} {d d' : Entries}
    (h : fillEntries disk H .follow path fuel entries d = some (.returned d')) :
    ∀ entry ∈ entries, ∃ last, ∃ n < fuel, Chains.EndsAt disk.target last n entry := by
  induction entries generalizing d with
  | nil => exact nofun
  | cons entry rest ih =>
    rw [fillEntries] at h
    split at h
    · rename_i d₁ hentry
      have hsome : (processDirectoryEntry disk H .follow path fuel entry d).isSome := by
        rw [hentry]
        rfl
      exact List.forall_mem_cons.2
        ⟨(processDirectoryEntry_isSome_iff disk H path fuel entry d).1 hsome, ih h⟩
    · cases h
    · cases h

theorem fillEntries_returned_iff
    (h : ∀ entry ∈ entries, ∃ last, disk.Leads entry last ∧ disk.Intact last) (d : Entries) :
    (∃ fuel d', fillEntries disk H .follow path fuel entries d = some (.returned d')) ↔
      ∀ entry ∈ entries, ∀ last, disk.Leads entry last → disk.symlinkStatus last = .regular →
        path.length ≤ last.length := by
  constructor
  · rintro ⟨fuel, d', heq⟩
    refine (fillEntries_returned_iff_of_depth (fun entry hentry => ?_) d).1 ⟨d', heq⟩
    obtain ⟨last, n, hn, hends⟩ := depth_of_returned heq entry hentry
    obtain ⟨last', ⟨m, hends'⟩, hintact⟩ := h entry hentry
    exact ⟨last, n, hn, hends, hends.last_eq hends' ▸ hintact⟩
  · intro hlong
    obtain ⟨fuel, hdepth⟩ := exists_depth h
    exact ⟨fuel, (fillEntries_returned_iff_of_depth hdepth d).2 hlong⟩

theorem length_le_child (path : Bytes) (name : FileName) :
    path.length ≤ (childPath path name.bytes).length := by
  rw [childPath]
  split_ifs <;> simp

end Follow

/-- The relative paths are cut inside the paths of the files that are followed, and the loop ends
without an exception, if and only if the path of the directory is never longer than what stands in
front of the name of such a file. -/
theorem followedLinks_iff (disk : Disk) (H : Bytes → Hash) (path : Bytes) (entries : List Bytes)
    (d : Entries) (hlists : disk.Lists path entries) :
    ((∀ file, disk.Followed entries file → InBounds path file) ∧
        ∃ fuel d', fillEntries disk H .follow path fuel entries d = some (.returned d')) ↔
      ∀ file, disk.Followed entries file → path.length + (filename file).length ≤ file.length := by
  simp only [inBounds_iff]
  refine and_iff_left_of_imp fun hbounds => ?_
  refine (fillEntries_returned_iff hlists.leads d).2 fun entry hentry last hleads hregular => ?_
  by_cases hlink : disk.target entry = none
  · obtain ⟨n, hends⟩ := hleads
    have hself : Chains.EndsAt disk.target entry 0 entry := ⟨rfl, hlink⟩
    obtain rfl : last = entry := hends.last_eq hself
    obtain ⟨name, rfl⟩ := hlists.child last hentry
    exact length_le_child path name
  · have hfile := hbounds last ⟨hregular, entry, hentry, hlink, hleads⟩
    omega

namespace Sample

def linkStatus (link target path : Bytes) : EntryStatus :=
  if path = link then .symlink target else if path = target then .regular else .notFound

theorem linkStatus_mem {link target : Bytes} (path target' : Bytes)
    (h : linkStatus link target path = .symlink target') : target' ∈ [target] := by
  rw [linkStatus] at h
  split_ifs at h
  cases h
  exact List.mem_singleton_self _

def linkDisk (link target : Bytes) (habsolute : ∀ t ∈ [target], t.head? = some slash) : Disk where
  symlinkStatus := linkStatus link target
  status := fun _ => .regular
  lastWriteTime := fun _ => some 0
  targets := [target]
  target_mem := linkStatus_mem
  target_absolute := habsolute

def home : Bytes := ascii ['/', 'h', 'o', 'm', 'e', '/', 'u']
def homeLink : Bytes := childPath home (ones 0).bytes

theorem linkDisk_target {target : Bytes} (habsolute : ∀ t ∈ [target], t.head? = some slash)
    (hne : target ≠ homeLink) :
    Chains.EndsAt (linkDisk homeLink target habsolute).target target 1 homeLink := by
  have hlink : (linkDisk homeLink target habsolute).symlinkStatus homeLink = .symlink target := by
    simp [linkDisk, linkStatus]
  refine ⟨target, (Disk.target_eq_some _).2 hlink, rfl, ?_⟩
  simp [Disk.target, linkDisk, linkStatus, hne]

theorem linkDisk_regular {target : Bytes} (habsolute : ∀ t ∈ [target], t.head? = some slash)
    (hne : target ≠ homeLink) :
    (linkDisk homeLink target habsolute).symlinkStatus target = .regular := by
  simp [linkDisk, linkStatus, hne]

theorem linkDisk_lists {target : Bytes} (habsolute : ∀ t ∈ [target], t.head? = some slash)
    (hne : target ≠ homeLink) : (linkDisk homeLink target habsolute).Lists home [homeLink] := by
  refine ⟨fun entry hentry => ⟨ones 0, List.mem_singleton.1 hentry⟩, fun entry hentry => ?_⟩
  obtain rfl := List.mem_singleton.1 hentry
  refine ⟨target, ⟨1, linkDisk_target habsolute hne⟩, ?_, fun _ => rfl⟩
  rw [linkDisk_regular habsolute hne]
  exact nofun

def farFile : Bytes := ascii ['/', 'h', 'o', 'm', 'e', '/', 'v', '/', 'w']
def nearFile : Bytes := ascii ['/', 'e', '/', 'p']

theorem farFile_absolute : ∀ t ∈ [farFile], t.head? = some slash := by decide
theorem nearFile_absolute : ∀ t ∈ [nearFile], t.head? = some slash := by decide

end Sample

theorem followedLinks_far : ∃ fuel d', fillEntries
    (Sample.linkDisk Sample.homeLink Sample.farFile Sample.farFile_absolute) (fun _ => default)
    .follow Sample.home fuel [Sample.homeLink] ⟨[], [], []⟩ = some (.returned d') := by
  have hne : Sample.farFile ≠ Sample.homeLink := by decide
  refine ((followedLinks_iff _ _ _ _ _ (Sample.linkDisk_lists Sample.farFile_absolute hne)).2 ?_).2
  rintro file ⟨-, entry, hentry, -, n, hends⟩
  obtain rfl := List.mem_singleton.1 hentry
  obtain rfl := hends.last_eq (Sample.linkDisk_target Sample.farFile_absolute hne)
  decide

theorem followedLinks_fails :
    ¬ ∀ (disk : Disk) (H : Bytes → Hash) (path : Bytes) (entries : List Bytes) (d : Entries),
      disk.Lists path entries →
      (∀ file, disk.Followed entries file → InBounds path file) ∧
        ∃ fuel d', fillEntries disk H .follow path fuel entries d = some (.returned d') := by
  intro h
  have hne : Sample.nearFile ≠ Sample.homeLink := by decide
  obtain ⟨-, hreturned⟩ := h _ (fun _ => default) _ _ ⟨[], [], []⟩
    (Sample.linkDisk_lists Sample.nearFile_absolute hne)
  have hlong := (fillEntries_returned_iff
    (Sample.linkDisk_lists Sample.nearFile_absolute hne).leads _).1 hreturned Sample.homeLink
      List.mem_cons_self Sample.nearFile ⟨1, Sample.linkDisk_target Sample.nearFile_absolute hne⟩
      (Sample.linkDisk_regular Sample.nearFile_absolute hne)
  exact absurd hlong (by decide)

end Flocksy
