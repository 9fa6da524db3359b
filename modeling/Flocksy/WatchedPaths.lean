import Flocksy.Foundation.PathNames
import Flocksy.Boxes
import Flocksy.InotifyMessages

/-!
# The paths of events

`Box::run` cuts the base directory off the path of a watched directory and puts the name of the
file behind what is left; a `File` puts this behind the base directory of its own node. Which of the
two has a slash at its end makes no difference: the same names are gone through on both nodes.
-/

namespace Flocksy

open ByteStream PathNames

/-- `inotify_add_watch`; `watch_descriptors_.insert` does not replace an entry. -/
def addWatch (inotifyAddWatch : Bytes → ℤ) (watches : List (ℤ × Directory)) (dir : Directory) :
    List (ℤ × Directory) :=
  if watches.any (·.1 = inotifyAddWatch dir.path) then watches
  else watches ++ [(inotifyAddWatch dir.path, dir)]

/-- `watch_descriptors_`, made from the entries in the order in which the map gives them. -/
def watchDescriptors (inotifyAddWatch : Bytes → ℤ) (entries : List Directory) :
    List (ℤ × Directory) :=
  entries.foldl (addWatch inotifyAddWatch) []

/-- `Box::getPathOfDirectory`; `at` and `substr` throw. -/
def Box.getPathOfDirectory (b : Box) (watches : List (ℤ × Directory)) (wd : ℤ) : Option Bytes := do
  let dir ← watches.lookup wd
  if dir.path.length < b.path.length then none else some (dir.path.drop b.path.length)

theorem mem_addWatch {inotifyAddWatch : Bytes → ℤ} {watches : List (ℤ × Directory)}
    {dir : Directory} {p : ℤ × Directory} (hp : p ∈ addWatch inotifyAddWatch watches dir) :
    p ∈ watches ∨ p.2 = dir := by
  rw [addWatch] at hp
  split_ifs at hp
  · exact .inl hp
  · rcases List.mem_append.1 hp with hp | hp
    · exact .inl hp
    · rw [List.mem_singleton.1 hp]
      exact .inr rfl

theorem mem_of_watch {inotifyAddWatch : Bytes → ℤ} {entries : List Directory} {wd : ℤ}
    {dir : Directory} (h : (watchDescriptors inotifyAddWatch entries).lookup wd = some dir) :
    dir ∈ entries := by
  have hall : ∀ p ∈ watchDescriptors inotifyAddWatch entries, p.2 ∈ entries := by
    refine List.foldlRecOn
      (motive := fun watches : List (ℤ × Directory) => ∀ p ∈ watches, p.2 ∈ entries) entries _
      (by simp) ?_
    intro watches ih dir hdir p hp
    rcases mem_addWatch hp with hp | hp
    · exact ih p hp
    · exact hp ▸ hdir
  obtain ⟨before, after, heq, -⟩ := List.lookup_eq_some_iff.1 h
  exact hall (wd, dir) (by simp [heq])

def AtOrBelow (base path : Bytes) : Prop :=
  ∃ rest, path = base ++ rest ∧
    (rest = [] ∨ base.getLast? = some slash ∨ rest.head? = some slash)

theorem AtOrBelow.refl (base : Bytes) : AtOrBelow base base :=
  ⟨[], (List.append_nil base).symm, .inl rfl⟩

theorem way_append {base rest : Bytes} (hbase : base ≠ [])
    (hrest : rest = [] ∨ base.getLast? = some slash ∨ rest.head? = some slash) :
    way slash (base ++ rest) = (way slash base).below (names slash rest) := by
  rcases hrest with rfl | hlast | hhead
  · simp [Way.below]
  · exact way_append_of_last hlast rest
  · obtain ⟨after, rfl⟩ := List.head?_eq_some_iff.1 hhead
    rw [way_append_sep hbase, names_sep_cons]

theorem AtOrBelow.child {base path : Bytes} (hbase : base ≠ []) (h : AtOrBelow base path)
    (name : FileName) : AtOrBelow base (childPath path name.bytes) := by
  obtain ⟨rest, rfl, hrest⟩ := h
  by_cases hopen : (base ++ rest).getLast? = some slash
  · rw [childPath, if_pos (.inr hopen)]
    refine ⟨rest ++ name.bytes, List.append_assoc _ _ _, .inr ?_⟩
    rcases hrest with rfl | hlast | hhead
    · exact .inl (by rwa [List.append_nil] at hopen)
    · exact .inl hlast
    · exact .inr (by rw [List.head?_append, hhead]; rfl)
  · have hne : base ++ rest ≠ [] := by simp [hbase]
    rw [childPath, if_neg (not_or.2 ⟨hne, hopen⟩)]
    refine ⟨rest ++ slash :: name.bytes, List.append_assoc _ _ _, .inr ?_⟩
    rcases hrest with rfl | hlast | hhead
    · exact .inr rfl
    · exact .inl hlast
    · exact .inr (by rw [List.head?_append, hhead]; rfl)

theorem atOrBelow_of_mem {base path : Bytes} {content : Listing} {d : Place} (hbase : base ≠ [])
    (h : AtOrBelow base path) (hd : d ∈ content.directories path) : AtOrBelow base d.1 := by
  induction content generalizing path with
  | nil => simp [Listing.directories] at hd
  | regular name t after ih => exact ih h hd
  | directory name content after ihcontent ihafter =>
    rw [Listing.directories, List.mem_cons, List.mem_append] at hd
    rcases hd with rfl | hd | hd
    · exact h.child hbase name
    · exact ihcontent (h.child hbase name) hd
    · exact ihafter h hd
  | special name after ih => exact ih h hd

theorem Tree.atOrBelow_of_watch {H : Bytes → Hash} {t : Tree} (hbase : t.path ≠ [])
    {inotifyAddWatch : Bytes → ℤ} {order : List Directory}
    (horder : order.Perm ((t.box H).entries.map Prod.snd)) {wd : ℤ} {dir : Directory}
    (hwatch : (watchDescriptors inotifyAddWatch order).lookup wd = some dir) :
    AtOrBelow t.path dir.path := by
  obtain ⟨e, he, rfl⟩ := List.mem_map.1 (horder.mem_iff.1 (mem_of_watch hwatch))
  rw [box_entries] at he
  obtain ⟨-, hsub⟩ := Filling.entries_foldl ⟨[], []⟩ (t.places.map (Place.fillDirectory H))
    (by simp)
  have hmem := hsub.subset he
  rw [List.nil_append, List.map_map] at hmem
  obtain ⟨d, hd, rfl⟩ := List.mem_map.1 hmem
  rcases List.mem_cons.1 hd with rfl | hd
  · exact .refl t.path
  · exact atOrBelow_of_mem hbase (.refl t.path) hd

theorem way_constructPath {boxPath : Bytes} (hbox : boxPath ≠ []) (path : Bytes) :
    way slash (constructPath boxPath path) = (way slash boxPath).below (names slash path) := by
  by_cases hlast : boxPath.getLast? = some slash
  · by_cases hhead : path.head? = some slash
    · obtain ⟨after, rfl⟩ := List.head?_eq_some_iff.1 hhead
      have hstem : boxPath = boxPath.dropLast ++ [slash] :=
        (List.dropLast_append_getLast? slash hlast).symm
      rw [constructPath, if_neg (by simp [hlast]), if_pos ⟨hlast, hhead⟩, way_stem_append, ← hstem,
        names_sep_cons]
    · rw [constructPath, if_neg (by simp [hlast]), if_neg fun h => hhead h.2]
      exact way_append_of_last hlast path
  · by_cases hhead : path.head? = some slash
    · rw [constructPath, if_neg (by simp [hhead]), if_neg fun h => hlast h.1]
      exact way_append hbox (.inr (.inr hhead))
    · rw [constructPath, if_pos ⟨hlast, hhead⟩]
      exact way_append_sep hbox path

/-- A record holds the path with zero bytes behind it, and the system calls do not see them. -/
theorem cPath_constructPath_padTo {boxPath path : Bytes} (hbox : 0 ∉ boxPath) (hpath : 0 ∉ path)
    (hne : path ≠ []) (hlen : path.length ≤ maximumPathLength) :
    cPath (constructPath boxPath (padTo maximumPathLength path)) = constructPath boxPath path := by
  have hpad : padTo maximumPathLength path =
      path ++ List.replicate (maximumPathLength - path.length) 0 := by
    rw [padTo, List.take_append, List.take_of_length_le hlen, List.take_replicate,
      min_eq_left (by omega)]
  have hcut {xs : Bytes} (hxs : 0 ∉ xs) :
      cPath (xs ++ List.replicate (maximumPathLength - path.length) 0) = xs := by
    refine Stream.takeWhile_run (fun b hb => ?_) (fun b hb => ?_)
    · rw [bne_iff_ne]
      rintro rfl
      exact hxs hb
    · rw [List.eq_of_mem_replicate (List.mem_of_mem_head? hb)]
      rfl
  have hslash : (0 : UInt8) ≠ slash := by decide
  have hhead : (path ++ List.replicate (maximumPathLength - path.length) 0).head? = path.head? :=
    List.head?_append_of_ne_nil _ hne
  rw [hpad, constructPath, constructPath, hhead]
  split_ifs
  · rw [← List.cons_append, ← List.append_assoc]
    exact hcut (by simp [hbox, hpath, hslash])
  · have hstem : 0 ∉ boxPath.dropLast := fun h => hbox (List.dropLast_subset _ h)
    rw [← List.append_assoc]
    exact hcut (by simp [hstem, hpath])
  · rw [← List.append_assoc]
    exact hcut (by simp [hbox, hpath])

/-- The path of an event names the file in the watched directory on the node that sends it, and on
the node that receives it the file at the same place below the base directory of that node; there
it is read from a record that pads it. -/
theorem eventPath_sameFile (b : Box) (watches : List (ℤ × Directory)) (wd : ℤ) (dir : Directory)
    (hbase : b.path ≠ []) (hwatch : watches.lookup wd = some dir)
    (hbelow : AtOrBelow b.path dir.path) (name : Bytes) (hname : name ≠ []) (hslash : slash ∉ name)
    (hnul : 0 ∉ name) (receiver : Bytes) (hreceiver : receiver ≠ []) :
    ∃ dirPath, b.getPathOfDirectory watches wd = some dirPath ∧
      ∃ relative, way slash dir.path = (way slash b.path).below relative ∧
        way slash (constructPath b.path (dirPath ++ slash :: cPath name)) =
          (way slash dir.path).below [name] ∧
        way slash (constructPath receiver (dirPath ++ slash :: cPath name)) =
          ((way slash receiver).below relative).below [name] ∧
        (0 ∉ receiver → 0 ∉ dir.path →
          (dirPath ++ slash :: cPath name).length ≤ maximumPathLength →
          cPath (constructPath receiver
              (padTo maximumPathLength (dirPath ++ slash :: cPath name))) =
            constructPath receiver (dirPath ++ slash :: cPath name)) := by
  obtain ⟨rest, hpath, hrest⟩ := hbelow
  have hcut : b.getPathOfDirectory watches wd = some rest := by
    have hlen : ¬ (b.path ++ rest).length < b.path.length := by simp
    simp only [Box.getPathOfDirectory, hwatch, Option.bind_eq_bind, Option.bind_some, hpath,
      if_neg hlen, List.drop_left]
  have hdir : way slash dir.path = (way slash b.path).below (names slash rest) :=
    hpath ▸ way_append hbase hrest
  have hnames : names slash (rest ++ slash :: name) = names slash rest ++ [name] := by
    rw [names_append_sep, names_name hname hslash]
  refine ⟨rest, hcut, names slash rest, hdir, ?_⟩
  rw [cPath_of_noNul hnul]
  refine ⟨?_, ?_, fun hbox hdirNul hlen => ?_⟩
  · rw [way_constructPath hbase, hnames, hdir, Way.below_below]
  · rw [way_constructPath hreceiver, hnames, Way.below_below]
  · rw [hpath, List.mem_append, not_or] at hdirNul
    have hnulPath : 0 ∉ rest ++ slash :: name := by
      have hzero : (0 : UInt8) ≠ slash := by decide
      simp [hdirNul.2, hnul, hzero]
    exact cPath_constructPath_padTo hbox hnulPath (by simp) hlen

namespace Sample

def slashBox : Box := ⟨ascii ['/', 'b', '/'], [], ⟨[], []⟩⟩
def slashDir : Directory := ⟨ascii ['/', 'b', '/', 'a'], ⟨[], []⟩, default⟩

end Sample

/-- The base path of the receiver has no slash at its end. -/
theorem eventPath_sameFile_slash : ∃ dirPath,
    Sample.slashBox.getPathOfDirectory [(1, Sample.slashDir)] 1 = some dirPath ∧
      way slash (constructPath (ascii ['/', 'x']) (dirPath ++ slash :: cPath (ascii ['f']))) =
        ((way slash (ascii ['/', 'x'])).below [ascii ['a']]).below [ascii ['f']] := by
  obtain ⟨dirPath, hdirPath, relative, hdir, -, hreceiver, -⟩ := eventPath_sameFile
    Sample.slashBox [(1, Sample.slashDir)] 1 Sample.slashDir (by decide) rfl
    ⟨ascii ['a'], rfl, .inr (.inl rfl)⟩ (ascii ['f']) (by decide) (by decide) (by decide)
    (ascii ['/', 'x']) (by decide)
  obtain rfl : relative = [ascii ['a']] := by
    have hnames : [ascii ['b']] ++ [ascii ['a']] = [ascii ['b']] ++ relative :=
      congrArg Way.names hdir
    exact (List.append_cancel_left hnames).symm
  exact ⟨dirPath, hdirPath, hreceiver⟩

end Flocksy
