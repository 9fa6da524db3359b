import Flocksy.Config

/-!
# The table of boxes

Boxes are declared one after the other, by blocks and by arguments. `updateBoxMap` looks for the
name of a box by the digits of its hash, under which no box is kept, so a name that is taken is not
found. What the loop does find is a path that is mapped already. The paths stay distinct, but a box
that is declared again under another path is replaced.
-/

namespace Flocksy

open ByteStream

inductive DeclarationSource where
  | block (boxName boxConfigString : Bytes)
  | argument (boxString : Bytes)

structure BoxConfig where
  basePath : Bytes
  symlinks : ℤ

def DeclarationSource.read (reader : JsonReader) : DeclarationSource → Option (Bytes × BoxConfig)
  | .block boxName boxConfigString =>
    match reader boxConfigString with
    | some ⟨.returned boxPath, .returned symlinks⟩ => some (boxName, ⟨boxPath, symlinks⟩)
    | _ => none
  | .argument boxString => (parseBoxString boxString).map fun p => (p.1, ⟨p.2, symlinkDefault⟩)

structure Declaration (isDirectory : Bytes → Bool) (reader : JsonReader) where
  source : DeclarationSource
  boxName : Bytes
  config : BoxConfig
  reads : source.read reader = some (boxName, config)
  existing : config.basePath = [] ∨ isDirectory config.basePath = true

section Table

variable (H : Bytes → Hash) {isDirectory : Bytes → Bool} {reader : JsonReader}

def declare (boxes : Boxes) (d : Declaration isDirectory reader) : Boxes :=
  match d.source with
  | .block boxName boxConfigString =>
    match parseBoxConfiguration H isDirectory reader boxName boxConfigString boxes with
    | .returned (_, boxes) => boxes
    | .thrown => boxes
  | .argument boxString => (checkBoxes H isDirectory [boxString] boxes).getD boxes

def declareAll (ds : List (Declaration isDirectory reader)) : Boxes :=
  ds.foldl (declare H) OrderedTable.empty

def Declaration.box (d : Declaration isDirectory reader) : BoxT :=
  ⟨H d.boxName, d.config.basePath, d.config.symlinks⟩

def Mapped (boxes : Boxes) (path : Bytes) : Prop := ∃ e ∈ boxes.entries, e.2.basePath = path

def DeclaredWithout (ds : List (Declaration isDirectory reader)) (boxName : Bytes)
    (first : Declaration isDirectory reader) : Prop :=
  (ds.filter fun d => d.boxName = boxName).head? = some first ∧
    ∀ d ∈ ds, d.boxName = boxName → d.config.basePath = []

/-- What is to hold of the table when `d` is declared after `earlier`. -/
structure TableLaw (earlier : List (Declaration isDirectory reader))
    (d : Declaration isDirectory reader) : Prop where
  distinct : ((declareAll H (earlier ++ [d])).entries.map fun e => e.2.basePath).Nodup
  kept : ∀ box, (declareAll H earlier).find d.boxName = some box → box.basePath ≠ [] →
    (declareAll H (earlier ++ [d])).find d.boxName = some box
  filled : ∀ first, DeclaredWithout earlier d.boxName first → d.config.basePath ≠ [] →
    (declareAll H (earlier ++ [d])).find d.boxName =
      some ⟨H d.boxName, d.config.basePath, first.config.symlinks⟩

/-- A box that has a path is declared again only with a path that is mapped; one that has none,
with a path that is not, and with its symlink setting. -/
structure Regular (earlier : List (Declaration isDirectory reader))
    (d : Declaration isDirectory reader) : Prop where
  again : ∀ box, (declareAll H earlier).find d.boxName = some box → box.basePath ≠ [] →
    Mapped (declareAll H earlier) d.config.basePath
  late : ∀ first, DeclaredWithout earlier d.boxName first → d.config.basePath ≠ [] →
    ¬ Mapped (declareAll H earlier) d.config.basePath ∧ d.config.symlinks = first.config.symlinks

instance (earlier : List (Declaration isDirectory reader)) (d : Declaration isDirectory reader) :
    Decidable (Regular H earlier d) :=
  decidable_of_iff
    ((∀ box ∈ (declareAll H earlier).find d.boxName, box.basePath ≠ [] →
      ∃ e ∈ (declareAll H earlier).entries, e.2.basePath = d.config.basePath) ∧
    ∀ first ∈ (earlier.filter fun e : Declaration isDirectory reader => e.boxName = d.boxName).head?,
      (∀ e ∈ earlier, e.boxName = d.boxName → e.config.basePath = []) → d.config.basePath ≠ [] →
        (¬ ∃ e ∈ (declareAll H earlier).entries, e.2.basePath = d.config.basePath) ∧
          d.config.symlinks = first.config.symlinks)
    ⟨fun h => ⟨h.1, fun first hfirst => h.2 first hfirst.1 hfirst.2⟩,
      fun h => ⟨h.again, fun first hhead hempty => h.late first ⟨hhead, hempty⟩⟩⟩

/-- No name is made up of the digits of the hash of another one, or of its own. -/
def NoAlias (ds : List (Declaration isDirectory reader)) : Prop :=
  ∀ d ∈ ds, ∀ e ∈ ds, (H d.boxName).getString ≠ e.boxName

def Throughout {α : Type*} (P : List α → α → Prop) (ds : List α) : Prop :=
  ∀ earlier d later, ds = earlier ++ d :: later → P earlier d

theorem throughout_iff {α : Type*} {P : List α → α → Prop} {ds : List α} :
    Throughout P ds ↔ ∀ n : Fin ds.length, P (ds.take n) ds[n] := by
  constructor
  · intro h n
    exact h _ _ (ds.drop (n + 1)) (by simp)
  · rintro h earlier d later rfl
    simpa using h ⟨earlier.length, by simp⟩

variable {H} {ds earlier : List (Declaration isDirectory reader)}
  {d : Declaration isDirectory reader} {boxes : Boxes}

theorem declare_eq (boxes : Boxes) (d : Declaration isDirectory reader) :
    declare H boxes d =
      addBox H isDirectory d.boxName d.config.basePath d.config.symlinks boxes := by
  have hreads := d.reads
  rw [declare]
  cases hsource : d.source with
  | block boxName boxConfigString =>
    rw [hsource, DeclarationSource.read] at hreads
    split at hreads
    · rename_i boxPath symlinks hreader
      obtain ⟨hname, hconfig⟩ := Prod.mk.inj (Option.some.inj hreads)
      simp only [parseBoxConfiguration_eq hreader]
      rw [← hname, ← hconfig]
    · cases hreads
  | argument boxString =>
    rw [hsource, DeclarationSource.read, Option.map_eq_some_iff] at hreads
    obtain ⟨p, hparse, hp⟩ := hreads
    obtain ⟨hname, hconfig⟩ := Prod.mk.inj hp
    simp only [checkBoxes, hparse, Option.bind_eq_bind, Option.bind_some, Option.getD_some]
    rw [← hname, ← hconfig]

theorem scanBoxes_eq {hashString boxPath : Bytes} {l : List (Bytes × BoxT)} (boxes : Boxes)
    (hl : ∀ e ∈ l, hashString ≠ e.1) :
    scanBoxes hashString boxPath l boxes =
      (if ∃ e ∈ l, e.2.basePath = boxPath then 1 else 0, boxes) := by
  induction l with
  | nil => simp [scanBoxes]
  | cons e l ih =>
    rw [scanBoxes, if_neg (hl e List.mem_cons_self)]
    by_cases hpath : boxPath = e.2.basePath
    · rw [if_pos hpath, if_pos ⟨e, List.mem_cons_self, hpath.symm⟩]
    · have hiff : (∃ e' ∈ e :: l, e'.2.basePath = boxPath) ↔ ∃ e' ∈ l, e'.2.basePath = boxPath := by
        rw [List.exists_mem_cons_iff, or_iff_right (Ne.symm hpath)]
      rw [if_neg hpath, ih fun e' he' => hl e' (List.mem_cons_of_mem _ he'), if_congr hiff rfl rfl]

instance (boxes : Boxes) (path : Bytes) : Decidable (Mapped boxes path) :=
  inferInstanceAs (Decidable (∃ e ∈ boxes.entries, e.2.basePath = path))

theorem declare_of_noAlias (hnew : ∀ e ∈ boxes.entries, (H d.boxName).getString ≠ e.1) :
    declare H boxes d =
      if Mapped boxes d.config.basePath then boxes else boxes.set d.boxName (d.box H) := by
  have hexists : ¬ (d.config.basePath ≠ [] ∧ isDirectory d.config.basePath = false) := by
    rintro ⟨hne, hfalse⟩
    rcases d.existing with hnil | htrue
    · exact hne hnil
    · rw [hfalse] at htrue
      cases htrue
  rw [declare_eq, addBox, updateBoxMap, if_neg hexists, scanBoxes_eq boxes hnew]
  by_cases hmapped : Mapped boxes d.config.basePath
  · rw [if_pos hmapped]
    simp only [if_pos (show ∃ e ∈ boxes.entries, e.2.basePath = d.config.basePath from hmapped)]
    rfl
  · rw [if_neg hmapped]
    simp only [if_neg (show ¬ ∃ e ∈ boxes.entries, e.2.basePath = d.config.basePath from hmapped)]
    rfl

theorem declareAll_concat (earlier : List (Declaration isDirectory reader))
    (d : Declaration isDirectory reader) :
    declareAll H (earlier ++ [d]) = declare H (declareAll H earlier) d := by
  rw [declareAll, List.foldl_append]
  rfl

theorem NoAlias.front {later : List (Declaration isDirectory reader)}
    (h : NoAlias H (earlier ++ later)) : NoAlias H earlier := fun d hd e he =>
  h d (List.mem_append_left _ hd) e (List.mem_append_left _ he)

theorem declared_of_mem (h : NoAlias H ds) :
    ∀ e ∈ (declareAll H ds).entries, ∃ d ∈ ds, e = (d.boxName, d.box H) := by
  induction ds using List.reverseRecOn with
  | nil => simp [declareAll, OrderedTable.empty]
  | append_singleton earlier d ih =>
    have hnew : ∀ e ∈ (declareAll H earlier).entries, (H d.boxName).getString ≠ e.1 := by
      intro e he
      obtain ⟨d', hd', rfl⟩ := ih h.front e he
      exact h d (by simp) d' (List.mem_append_left _ hd')
    rw [declareAll_concat, declare_of_noAlias hnew]
    intro e he
    split_ifs at he
    · obtain ⟨d', hd', heq⟩ := ih h.front e he
      exact ⟨d', List.mem_append_left _ hd', heq⟩
    · rcases OrderedTable.mem_set.1 he with rfl | ⟨he, -⟩
      · exact ⟨d, by simp, rfl⟩
      · obtain ⟨d', hd', heq⟩ := ih h.front e he
        exact ⟨d', List.mem_append_left _ hd', heq⟩

theorem declareAll_step (h : NoAlias H (earlier ++ [d])) :
    declareAll H (earlier ++ [d]) =
      if Mapped (declareAll H earlier) d.config.basePath then declareAll H earlier
      else (declareAll H earlier).set d.boxName (d.box H) := by
  rw [declareAll_concat]
  refine declare_of_noAlias fun e he => ?_
  obtain ⟨d', hd', rfl⟩ := declared_of_mem h.front e he
  exact h d (by simp) d' (List.mem_append_left _ hd')

theorem distinct_of_noAlias (h : NoAlias H ds) :
    ((declareAll H ds).entries.map fun e => e.2.basePath).Nodup := by
  induction ds using List.reverseRecOn with
  | nil => simp [declareAll, OrderedTable.empty]
  | append_singleton earlier d ih =>
    rw [declareAll_step h]
    split_ifs with hmapped
    · exact ih h.front
    · refine OrderedTable.nodup_map_set (ih h.front) fun e he heq => hmapped ⟨e, he, heq⟩

theorem kept_iff (h : NoAlias H (earlier ++ [d])) {box : BoxT}
    (hbox : (declareAll H earlier).find d.boxName = some box) :
    (declareAll H (earlier ++ [d])).find d.boxName = some box ↔
      Mapped (declareAll H earlier) d.config.basePath := by
  rw [declareAll_step h]
  split_ifs with hmapped
  · exact iff_of_true hbox hmapped
  · refine iff_of_false (fun hkept => hmapped ?_) hmapped
    rw [OrderedTable.find_set, if_pos rfl, Option.some.injEq] at hkept
    exact ⟨_, OrderedTable.find_eq_some_iff.1 hbox, by rw [← hkept]; rfl⟩

theorem filled_iff (h : NoAlias H (earlier ++ [d])) {first : Declaration isDirectory reader}
    (hfirst : DeclaredWithout earlier d.boxName first) (hpath : d.config.basePath ≠ []) :
    (declareAll H (earlier ++ [d])).find d.boxName =
        some ⟨H d.boxName, d.config.basePath, first.config.symlinks⟩ ↔
      ¬ Mapped (declareAll H earlier) d.config.basePath ∧
        d.config.symlinks = first.config.symlinks := by
  rw [declareAll_step h]
  split_ifs with hmapped
  · -- the box of this name, if there is one, has no path
    refine iff_of_false (fun hfind => ?_) fun h => h.1 hmapped
    obtain ⟨e, he, heq⟩ := declared_of_mem h.front _ (OrderedTable.find_eq_some_iff.1 hfind)
    obtain ⟨hname, hbox⟩ := Prod.mk.inj heq
    have hempty := hfirst.2 e he hname.symm
    exact hpath ((congrArg BoxT.basePath hbox).trans hempty)
  · rw [OrderedTable.find_set, if_pos rfl, Option.some.injEq, Declaration.box, BoxT.mk.injEq]
    simp [hmapped]

theorem tableLaw_iff (h : NoAlias H (earlier ++ [d])) :
    TableLaw H earlier d ↔ Regular H earlier d := by
  constructor
  · intro hlaw
    exact ⟨fun box hbox hne => (kept_iff h hbox).1 (hlaw.kept box hbox hne),
      fun first hfirst hne => (filled_iff h hfirst hne).1 (hlaw.filled first hfirst hne)⟩
  · intro hregular
    exact ⟨distinct_of_noAlias h, fun box hbox hne => (kept_iff h hbox).2 (hregular.again box hbox hne),
      fun first hfirst hne => (filled_iff h hfirst hne).2 (hregular.late first hfirst hne)⟩

/-- Where no name is a hash string, the table keeps its law from one declaration to the next if and
only if each declaration is regular. -/
theorem boxTable_lawful_iff (ds : List (Declaration isDirectory reader)) (h : NoAlias H ds) :
    Throughout (TableLaw H) ds ↔ Throughout (Regular H) ds := by
  have hfront (earlier : List (Declaration isDirectory reader)) (d) (later)
      (hds : ds = earlier ++ d :: later) : NoAlias H (earlier ++ [d]) := by
    rw [hds, ← List.singleton_append, ← List.append_assoc] at h
    exact h.front
  constructor
  · intro hlaw earlier d later hds
    exact (tableLaw_iff (hfront earlier d later hds)).1 (hlaw earlier d later hds)
  · intro hregular earlier d later hds
    exact (tableLaw_iff (hfront earlier d later hds)).2 (hregular earlier d later hds)

end Table

theorem argument_reads {reader : JsonReader} {boxString name path : Bytes}
    (h : parseBoxString boxString = some (name, path)) :
    (DeclarationSource.argument boxString).read reader = some (name, ⟨path, symlinkDefault⟩) := by
  rw [DeclarationSource.read, h]
  rfl

namespace Sample

theorem boxArgument (name : Char) (hname : atSign ∉ ascii [name]) (path : Bytes)
    (hpath : atSign ∉ path) :
    parseBoxString (ascii [name] ++ atSign :: path) = some (ascii [name], path) := by
  rw [parseBoxString_eq hname, trimLast_of_notMem hpath]

def boxAt (name : Char) (hname : atSign ∉ ascii [name]) (path : Bytes) (hpath : atSign ∉ path) :
    Declaration (fun _ => true) fun _ => none where
  source := .argument (ascii [name] ++ atSign :: path)
  boxName := ascii [name]
  config := ⟨path, symlinkDefault⟩
  reads := argument_reads (boxArgument name hname path hpath)
  existing := .inr rfl

def namehash (name : Bytes) : Hash :=
  if name = ascii ['b'] then dirB else if name = ascii ['c'] then dirC else default

theorem name_b : atSign ∉ ascii ['b'] := by decide
theorem name_c : atSign ∉ ascii ['c'] := by decide
theorem no_path : atSign ∉ ([] : Bytes) := List.not_mem_nil
theorem path_x : atSign ∉ ascii ['/', 'x'] := by decide
theorem path_y : atSign ∉ ascii ['/', 'y'] := by decide

/-- The box `b` without a path and then with one, another box, and the box `b` again. -/
def declarations : List (Declaration (fun _ => true) fun _ => none) :=
  [boxAt 'b' name_b [] no_path, boxAt 'b' name_b (ascii ['/', 'x']) path_x,
    boxAt 'c' name_c (ascii ['/', 'y']) path_y, boxAt 'b' name_b (ascii ['/', 'x']) path_x]

theorem declarations_noAlias : NoAlias namehash declarations := by
  unfold NoAlias
  decide

theorem declarations_regular : Throughout (Regular namehash) declarations := by
  rw [throughout_iff]
  decide

end Sample

theorem boxTable_lawful_declarations : Throughout (TableLaw Sample.namehash) Sample.declarations :=
  (boxTable_lawful_iff _ Sample.declarations_noAlias).2 Sample.declarations_regular

theorem boxTable_lawful_fails :
    ¬ ∀ (H : Bytes → Hash) (isDirectory : Bytes → Bool) (reader : JsonReader)
      (ds : List (Declaration isDirectory reader)), Throughout (TableLaw H) ds := by
  intro h
  have hlaw := h Sample.namehash _ _ [Sample.boxAt 'b' Sample.name_b _ Sample.path_x,
    Sample.boxAt 'b' Sample.name_b _ Sample.path_y] [_] _ [] rfl
  have hkept := hlaw.kept ⟨Sample.dirB, ascii ['/', 'x'], symlinkDefault⟩ (by decide)
    (by decide)
  exact absurd hkept (by decide)

end Flocksy
