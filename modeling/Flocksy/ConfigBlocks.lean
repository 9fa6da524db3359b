import Flocksy.Config

/-!
# The blocks of the configuration file

A block is a name in brackets and the lines up to the next one. The block `program` is left for the
options of the program, every other block declares a box. The blocks are kept under their names, so
a second block of a name takes the place of the first, and they are handed over in the order of the
names, where each result replaces the one before.
-/

namespace Flocksy

open ByteStream

/-- `#`, `[` and `]`. -/
def numberSign : UInt8 := 35
def leftBracket : UInt8 := 91
def rightBracket : UInt8 := 93

def programBlock : Bytes := ascii ['p', 'r', 'o', 'g', 'r', 'a', 'm']

def isRelevant (line : Bytes) : Bool := line ≠ [] ∧ line.take 1 ≠ [numberSign]

def isHeader (line : Bytes) : Bool := line.take 1 = [leftBracket]

/-- Without a `]` the length that `substr` is given is `npos - 1`, which is the rest of the line. -/
def headerName (line : Bytes) : Bytes := (line.drop 1).take (line.idxOf rightBracket - 1)

structure BlockReader where
  block : OrderedTable Bytes Bytes
  firstBlockInitialized : Bool
  currentBlock : Bytes

def readLine (s : BlockReader) (line : Bytes) : BlockReader :=
  if isRelevant line then
    if isHeader line then ⟨s.block.set (headerName line) [], true, headerName line⟩
    else if s.firstBlockInitialized then
      let text := (s.block.find s.currentBlock).getD [] ++ (line ++ [newline])
      { s with block := s.block.set s.currentBlock text }
    else s
  else s

/-- A call of `parseBoxConfiguration` and its result. -/
structure BlockCall where
  boxName : Bytes
  boxConfigString : Bytes
  result : ℤ
  deriving DecidableEq

structure ConfigRead where
  returnVal : ℤ
  configfile : Bytes
  boxes : Boxes
  calls : List BlockCall

section Read

variable (H : Bytes → Hash) (isDirectory : Bytes → Bool) (reader : JsonReader)

def handBlocks : List (Bytes × Bytes) → ConfigRead → Ending ConfigRead
  | [], r => .returned r
  | (name, text) :: rest, r =>
    if name = programBlock then handBlocks rest { r with configfile := text }
    else
      match parseBoxConfiguration H isDirectory reader name text r.boxes with
      | .returned (result, boxes) =>
        handBlocks rest { r with
          returnVal := result, boxes := boxes, calls := r.calls ++ [⟨name, text, result⟩] }
      | .thrown => .thrown

/-- `Config::readConfigFile`; `none` would be a loop that does not end. -/
def readConfigFile (configfile : Bytes) (boxes : Boxes) : Option (Ending ConfigRead) := do
  let lines ← (Stream.ofBytes configfile).pieces newline (configfile.length + 1)
  let s := lines.foldl readLine ⟨OrderedTable.empty, false, []⟩
  some (handBlocks H isDirectory reader s.block.entries ⟨0, configfile, boxes, []⟩)

def configLines (configfile : Bytes) : List Bytes := (fields newline configfile).filter isRelevant

def blocksOf : List Bytes → List (Bytes × List Bytes)
  | [] => []
  | line :: rest =>
    if isHeader line then
      (headerName line, rest.takeWhile fun line => !isHeader line) :: blocksOf rest
    else blocksOf rest

def unlines (lines : List Bytes) : Bytes := lines.flatMap (· ++ [newline])

def linesOf (blocks : List (Bytes × List Bytes)) (name : Bytes) : List Bytes :=
  (blocks.filter (·.1 = name)).flatMap (·.2)

def gather (blocks : List (Bytes × List Bytes)) : OrderedTable Bytes Bytes :=
  blocks.foldl (fun t b => t.set b.1 ((t.find b.1).getD [] ++ unlines b.2)) OrderedTable.empty

def boxTexts (t : OrderedTable Bytes Bytes) : List (Bytes × Bytes) :=
  t.entries.filter (·.1 ≠ programBlock)

structure BlocksHanded (blocks : List (Bytes × List Bytes)) (r : ConfigRead) : Prop where
  handed : ∀ name ≠ programBlock,
    (r.calls.filter (·.boxName = name)).flatMap (·.boxConfigString) = unlines (linesOf blocks name)
  program : programBlock ∈ blocks.map Prod.fst →
    r.configfile = unlines (linesOf blocks programBlock)
  failed : r.returnVal ≠ 0 ↔ ∃ call ∈ r.calls, call.result ≠ 0

def BlocksReadable : List (Bytes × Bytes) → Boxes → Prop
  | [], _ => True
  | (name, text) :: rest, boxes => ∃ result boxes',
    parseBoxConfiguration H isDirectory reader name text boxes = .returned (result, boxes') ∧
      BlocksReadable rest boxes'

/-- Of the blocks with one name only the last has lines, and if the text of a box does not parse,
neither does that of the last box. -/
structure BlocksRegular (blocks : List (Bytes × List Bytes)) (boxes : Boxes) : Prop where
  kept : ∀ name, ∀ b ∈ (blocks.filter (·.1 = name)).dropLast, b.2 = []
  readable : BlocksReadable H isDirectory reader (boxTexts (gather blocks)) boxes
  last : ∀ e ∈ boxTexts (gather blocks), reader e.2 = none →
    ∀ e' ∈ (boxTexts (gather blocks)).getLast?, reader e'.2 = none

section Gather

variable {blocks : List (Bytes × List Bytes)} {name : Bytes}

theorem unlines_append (ls ms : List Bytes) : unlines (ls ++ ms) = unlines ls ++ unlines ms :=
  List.flatMap_append

theorem unlines_eq_nil_iff {ls : List Bytes} : unlines ls = [] ↔ ls = [] := by
  cases ls <;> simp [unlines]

def lastBlocks (blocks : List (Bytes × List Bytes)) (t : OrderedTable Bytes Bytes) :
    OrderedTable Bytes Bytes :=
  blocks.foldl (fun t b => t.set b.1 (unlines b.2)) t

def BlockReader.goOn (s : BlockReader) (lines : List Bytes) : OrderedTable Bytes Bytes :=
  if s.firstBlockInitialized then
    s.block.set s.currentBlock ((s.block.find s.currentBlock).getD [] ++ unlines lines)
  else s.block

def BlockReader.Open (s : BlockReader) : Prop :=
  s.firstBlockInitialized = true → (s.block.find s.currentBlock).isSome = true

theorem BlockReader.goOn_nil {s : BlockReader} (hs : s.Open) : s.goOn [] = s.block := by
  rw [goOn]
  split_ifs with hfirst
  · obtain ⟨text, htext⟩ := Option.isSome_iff_exists.1 (hs hfirst)
    refine OrderedTable.set_of_find ?_
    rw [htext]
    simp [unlines]
  · rfl

theorem readLine_open {s : BlockReader} (hs : s.Open) (line : Bytes) : (readLine s line).Open := by
  rw [readLine]
  split_ifs with hrelevant hheader hfirst
  · intro _
    simp
  · intro _
    simp
  · exact hs
  · exact hs

theorem foldl_readLine {lines : List Bytes} (hlines : ∀ line ∈ lines, isRelevant line = true)
    (s : BlockReader) (hs : s.Open) :
    (lines.foldl readLine s).block =
      lastBlocks (blocksOf lines) (s.goOn (lines.takeWhile fun line => !isHeader line)) := by
  induction lines generalizing s with
  | nil => exact (BlockReader.goOn_nil hs).symm
  | cons line rest ih =>
    have hrest : ∀ line ∈ rest, isRelevant line = true := fun l hl =>
      hlines l (List.mem_cons_of_mem _ hl)
    rw [List.foldl_cons, ih hrest _ (readLine_open hs line), readLine,
      if_pos (hlines line List.mem_cons_self), blocksOf]
    by_cases hheader : isHeader line = true
    · rw [if_pos hheader, if_pos hheader, List.takeWhile_cons_of_neg (by simpa using hheader),
        BlockReader.goOn_nil hs, lastBlocks, lastBlocks, List.foldl_cons]
      simp [BlockReader.goOn, OrderedTable.set_set]
    · rw [if_neg hheader, if_neg hheader, List.takeWhile_cons_of_pos (by simpa using hheader)]
      congr 1
      by_cases hfirst : s.firstBlockInitialized = true
      · simp [BlockReader.goOn, hfirst, OrderedTable.set_set, unlines]
      · simp [BlockReader.goOn, hfirst]

theorem readConfigFile_eq (configfile : Bytes) (boxes : Boxes) :
    readConfigFile H isDirectory reader configfile boxes =
      some (handBlocks H isDirectory reader
        (lastBlocks (blocksOf (configLines configfile)) OrderedTable.empty).entries
        ⟨0, configfile, boxes, []⟩) := by
  have hskip (s : BlockReader) (line : Bytes) :
      (if isRelevant line then readLine s line else s) = readLine s line := by
    split_ifs with hrelevant
    · rfl
    · rw [readLine, if_neg hrelevant]
  have hrelevant : ∀ line ∈ configLines configfile, isRelevant line = true := fun line hline =>
    (List.mem_filter.1 hline).2
  have hblock := foldl_readLine hrelevant ⟨OrderedTable.empty, false, []⟩ nofun
  rw [configLines, List.foldl_filter] at hblock
  simp only [hskip] at hblock
  rw [readConfigFile, Stream.ofBytes_eq_cursor, pieces_cursor newline (Nat.lt_succ_self _)]
  simp only [Option.bind_eq_bind, Option.bind_some, hblock]
  rfl

theorem filter_eq_nil (h : name ∉ blocks.map Prod.fst) : blocks.filter (·.1 = name) = [] :=
  List.filter_eq_nil_iff.2 fun b hb hname =>
    h (List.mem_map.2 ⟨b, hb, of_decide_eq_true hname⟩)

theorem linesOf_append (bs bs' : List (Bytes × List Bytes)) (name : Bytes) :
    linesOf (bs ++ bs') name = linesOf bs name ++ linesOf bs' name := by
  rw [linesOf, List.filter_append, List.flatMap_append]
  rfl

theorem find_gather (blocks : List (Bytes × List Bytes)) (name : Bytes) :
    (gather blocks).find name =
      if name ∈ blocks.map Prod.fst then some (unlines (linesOf blocks name)) else none := by
  induction blocks using List.reverseRecOn generalizing name with
  | nil => rfl
  | append_singleton bs b ih =>
    have hstep : gather (bs ++ [b]) =
        (gather bs).set b.1 (((gather bs).find b.1).getD [] ++ unlines b.2) := by
      rw [gather, List.foldl_append]
      rfl
    have hbefore : ((gather bs).find b.1).getD [] = unlines (linesOf bs b.1) := by
      rw [ih]
      split_ifs with hmem
      · rfl
      · rw [linesOf, filter_eq_nil hmem]
        rfl
    rw [hstep, OrderedTable.find_set, hbefore, linesOf_append]
    by_cases hname : name = b.1
    · subst hname
      simp [linesOf, unlines_append]
    · have hmem : name ∈ (bs ++ [b]).map Prod.fst ↔ name ∈ bs.map Prod.fst := by simp [hname]
      have hnone : linesOf [b] name = [] := by simp [linesOf, Ne.symm hname]
      rw [if_neg hname, ih, if_congr hmem rfl rfl, hnone, List.append_nil]

theorem find_lastBlocks (blocks : List (Bytes × List Bytes)) (name : Bytes) :
    (lastBlocks blocks OrderedTable.empty).find name =
      (blocks.filter (·.1 = name)).getLast?.map fun b => unlines b.2 := by
  induction blocks using List.reverseRecOn with
  | nil => rfl
  | append_singleton bs b ih =>
    rw [lastBlocks] at ih ⊢
    rw [List.foldl_append, List.foldl_cons, List.foldl_nil, OrderedTable.find_set, ih,
      List.filter_append]
    by_cases hname : name = b.1
    · subst hname
      simp
    · simp [hname, Ne.symm hname]

theorem find_lastBlocks_of_mem (h : name ∈ blocks.map Prod.fst) :
    ∃ text, (lastBlocks blocks OrderedTable.empty).find name = some text := by
  obtain ⟨b, hb, hname⟩ := List.mem_map.1 h
  have hne : blocks.filter (·.1 = name) ≠ [] :=
    List.ne_nil_of_mem (List.mem_filter.2 ⟨hb, decide_eq_true hname⟩)
  rw [find_lastBlocks, List.getLast?_eq_some_getLast hne]
  exact ⟨_, rfl⟩

theorem unlines_last_iff {bs : List (Bytes × List Bytes)} {b : Bytes × List Bytes}
    (hlast : bs.getLast? = some b) :
    unlines b.2 = unlines (bs.flatMap (·.2)) ↔ ∀ b' ∈ bs.dropLast, b'.2 = [] := by
  obtain ⟨front, rfl⟩ := List.getLast?_eq_some_iff.1 hlast
  rw [List.flatMap_append, unlines_append, List.flatMap_singleton, List.self_eq_append_left,
    unlines_eq_nil_iff, List.flatMap_eq_nil_iff, List.dropLast_concat]

theorem find_eq_iff :
    ((lastBlocks blocks OrderedTable.empty).find name).getD [] = unlines (linesOf blocks name) ↔
      ∀ b ∈ (blocks.filter (·.1 = name)).dropLast, b.2 = [] := by
  rw [find_lastBlocks, linesOf]
  cases hlast : (blocks.filter (·.1 = name)).getLast? with
  | none =>
    rw [List.getLast?_eq_none_iff.1 hlast]
    simp [unlines]
  | some b => exact unlines_last_iff hlast

theorem lastBlocks_eq_gather
    (h : ∀ name, ∀ b ∈ (blocks.filter (·.1 = name)).dropLast, b.2 = []) :
    lastBlocks blocks OrderedTable.empty = gather blocks := by
  refine OrderedTable.ext_find fun name => ?_
  have hname := find_eq_iff.2 (h name)
  rw [find_gather, ← hname]
  split_ifs with hmem
  · obtain ⟨text, htext⟩ := find_lastBlocks_of_mem hmem
    rw [htext]
    rfl
  · rw [find_lastBlocks, filter_eq_nil hmem]
    rfl

end Gather

section Hand

variable {H isDirectory reader}

def callOf (reader : JsonReader) (e : Bytes × Bytes) : BlockCall :=
  ⟨e.1, e.2, if (reader e.2).isNone then 1 else 0⟩

def lastResult (calls : List BlockCall) : ℤ := (calls.getLast?.map (·.result)).getD 0

theorem parseBoxConfiguration_result {name text : Bytes} {boxes boxes' : Boxes} {result : ℤ}
    (h : parseBoxConfiguration H isDirectory reader name text boxes = .returned (result, boxes')) :
    (⟨name, text, result⟩ : BlockCall) = callOf reader (name, text) := by
  rw [parseBoxConfiguration] at h
  rw [callOf]
  cases hreader : reader text with
  | none =>
    simp only [hreader, Ending.returned.injEq, Prod.mk.injEq] at h
    simp [h.1]
  | some json =>
    have hresult : result = 0 := by
      simp only [hreader] at h
      split at h
      · cases h
      · split_ifs at h
        · split at h
          · cases h
          · exact (Prod.mk.inj (Ending.returned.inj h)).1.symm
        · exact (Prod.mk.inj (Ending.returned.inj h)).1.symm
    simp [hresult]

structure HandedOver (reader : JsonReader) (entries : List (Bytes × Bytes)) (r r' : ConfigRead) :
    Prop where
  calls : r'.calls = r.calls ++ (entries.filter (·.1 ≠ programBlock)).map (callOf reader)
  returnVal : r.returnVal = lastResult r.calls → r'.returnVal = lastResult r'.calls
  configfile : r'.configfile =
    ((entries.filter (·.1 = programBlock)).getLast?.map Prod.snd).getD r.configfile

theorem handBlocks_spec {entries : List (Bytes × Bytes)} {r r' : ConfigRead}
    (h : handBlocks H isDirectory reader entries r = .returned r') :
    HandedOver reader entries r r' := by
  induction entries generalizing r with
  | nil =>
    obtain rfl := Ending.returned.inj h
    exact ⟨(List.append_nil _).symm, id, rfl⟩
  | cons e entries ih =>
    obtain ⟨name, text⟩ := e
    rw [handBlocks] at h
    split_ifs at h with hname
    · obtain ⟨hcalls, hreturnVal, hconfigfile⟩ := ih h
      refine ⟨by rw [hcalls]; simp [hname], hreturnVal, ?_⟩
      rw [hconfigfile, List.filter_cons_of_pos (by simpa using hname), List.getLast?_cons]
      cases (entries.filter (·.1 = programBlock)).getLast? <;> rfl
    · split at h
      · rename_i result boxes hparse
        obtain ⟨hcalls, hreturnVal, hconfigfile⟩ := ih h
        rw [parseBoxConfiguration_result hparse] at hcalls
        refine ⟨by rw [hcalls]; simp [hname], fun _ => hreturnVal (by simp [lastResult]), ?_⟩
        rw [hconfigfile, List.filter_cons_of_neg (by simpa using hname)]
      · cases h

theorem handBlocks_returned_iff {entries : List (Bytes × Bytes)} {r : ConfigRead} :
    (∃ r', handBlocks H isDirectory reader entries r = .returned r') ↔
      BlocksReadable H isDirectory reader (entries.filter (·.1 ≠ programBlock)) r.boxes := by
  induction entries generalizing r with
  | nil => exact iff_of_true ⟨r, rfl⟩ trivial
  | cons e entries ih =>
    obtain ⟨name, text⟩ := e
    rw [handBlocks]
    split_ifs with hname
    · rw [ih, List.filter_cons_of_neg (by simpa using hname)]
    · rw [List.filter_cons_of_pos (by simpa using hname), BlocksReadable]
      cases hparse : parseBoxConfiguration H isDirectory reader name text r.boxes with
      | thrown => simp
      | returned p => simp [ih, Prod.ext_iff]

theorem lastResult_iff {texts : List (Bytes × Bytes)} :
    (lastResult (texts.map (callOf reader)) ≠ 0 ↔
        ∃ call ∈ texts.map (callOf reader), call.result ≠ 0) ↔
      ∀ e ∈ texts, reader e.2 = none → ∀ e' ∈ texts.getLast?, reader e'.2 = none := by
  have hresult (e : Bytes × Bytes) : (callOf reader e).result ≠ 0 ↔ reader e.2 = none := by
    rw [callOf]
    cases reader e.2 <;> simp
  have hexists : (∃ call ∈ texts.map (callOf reader), call.result ≠ 0) ↔
      ∃ e ∈ texts, reader e.2 = none := by
    simp only [List.mem_map, exists_exists_and_eq_and, hresult]
  rw [hexists, lastResult, List.getLast?_map]
  cases hlast : texts.getLast? with
  | none => simp [List.getLast?_eq_none_iff.1 hlast]
  | some e' =>
    have hmem := List.mem_of_getLast? hlast
    simp only [Option.map_some, Option.getD_some, hresult, Option.mem_some_iff, forall_eq']
    constructor
    · exact fun h e he hnone => h.2 ⟨e, he, hnone⟩
    · exact fun h => ⟨fun hnone => ⟨e', hmem, hnone⟩, fun ⟨e, he, hnone⟩ => h e he hnone⟩

theorem configfile_eq {t : OrderedTable Bytes Bytes} {r r' : ConfigRead}
    (h : HandedOver reader t.entries r r') :
    r'.configfile = (t.find programBlock).getD r.configfile := by
  rw [h.configfile, t.filter_key]
  cases t.find programBlock <;> rfl

theorem handed_eq {t : OrderedTable Bytes Bytes} {name : Bytes} (hname : name ≠ programBlock) :
    (((boxTexts t).map (callOf reader)).filter (·.boxName = name)).flatMap (·.boxConfigString) =
      (t.find name).getD [] := by
  have hfilter : (boxTexts t).filter (·.1 = name) = t.entries.filter (·.1 = name) := by
    rw [boxTexts, List.filter_filter]
    refine List.filter_congr fun e _ => ?_
    by_cases he : e.1 = name
    · simp [he, hname]
    · simp [he]
  have hcalls : ((boxTexts t).map (callOf reader)).filter (·.boxName = name) =
      ((boxTexts t).filter (·.1 = name)).map (callOf reader) := List.filter_map
  rw [hcalls, hfilter, t.filter_key]
  cases t.find name <;> simp [callOf]

end Hand

end Read

/-- The blocks are handed over if and only if they are regular. -/
theorem readConfigFile_handed_iff (H : Bytes → Hash) (isDirectory : Bytes → Bool)
    (reader : JsonReader) (configfile : Bytes) (boxes : Boxes) :
    (∃ r, readConfigFile H isDirectory reader configfile boxes = some (.returned r) ∧
        BlocksHanded (blocksOf (configLines configfile)) r) ↔
      BlocksRegular H isDirectory reader (blocksOf (configLines configfile)) boxes := by
  simp only [readConfigFile_eq, Option.some.injEq]
  generalize blocksOf (configLines configfile) = blocks
  constructor
  · rintro ⟨r, hr, hhanded⟩
    have hover := handBlocks_spec hr
    have hcalls : r.calls = (boxTexts (lastBlocks blocks OrderedTable.empty)).map (callOf reader) :=
      hover.calls
    have hkept : ∀ name, ∀ b ∈ (blocks.filter (·.1 = name)).dropLast, b.2 = [] := by
      intro name
      rw [← find_eq_iff]
      by_cases hname : name = programBlock
      · subst hname
        by_cases hmem : programBlock ∈ blocks.map Prod.fst
        · obtain ⟨text, htext⟩ := find_lastBlocks_of_mem hmem
          rw [← hhanded.program hmem, configfile_eq hover, htext]
          rfl
        · rw [find_lastBlocks, linesOf, filter_eq_nil hmem]
          rfl
      · rw [← hhanded.handed name hname, hcalls, handed_eq hname]
    have hreadable := handBlocks_returned_iff.1 ⟨r, hr⟩
    have hfailed := hhanded.failed
    rw [hover.returnVal rfl, hcalls, lastResult_iff] at hfailed
    rw [lastBlocks_eq_gather hkept] at hreadable hfailed
    exact ⟨hkept, hreadable, hfailed⟩
  · rintro ⟨hkept, hreadable, hlast⟩
    rw [lastBlocks_eq_gather hkept]
    have hreturned : ∃ r, handBlocks H isDirectory reader (gather blocks).entries
        ⟨0, configfile, boxes, []⟩ = .returned r := handBlocks_returned_iff.2 hreadable
    obtain ⟨r, hr⟩ := hreturned
    have hover := handBlocks_spec hr
    have hcalls : r.calls = (boxTexts (gather blocks)).map (callOf reader) := hover.calls
    refine ⟨r, hr, fun name hname => ?_, fun hmem => ?_, ?_⟩
    · rw [hcalls, handed_eq hname, ← lastBlocks_eq_gather hkept]
      exact find_eq_iff.2 (hkept name)
    · rw [configfile_eq hover, find_gather, if_pos hmem]
      rfl
    · rw [hover.returnVal rfl, hcalls]
      exact lastResult_iff.2 hlast

namespace Sample

def bracesReader : JsonReader := fun text =>
  if text = unlines [ascii ['{', '}']] then some ⟨.returned [], .returned symlinkDefault⟩ else none

/-- A block `a` that does not parse before a block `b` that does. -/
def twoBlocks : Bytes :=
  unlines [ascii ['[', 'a', ']'], ascii ['{'], ascii ['[', 'b', ']'], ascii ['{', '}']]

end Sample

theorem readConfigFile_handed_fails :
    ¬ ∀ (H : Bytes → Hash) (isDirectory : Bytes → Bool) (reader : JsonReader) (configfile : Bytes)
      (boxes : Boxes), blocksOf (configLines configfile) ≠ [] →
      ∃ r, readConfigFile H isDirectory reader configfile boxes = some (.returned r) ∧
        BlocksHanded (blocksOf (configLines configfile)) r := by
  intro h
  obtain ⟨r, hr, hhanded⟩ := h (fun _ => default) (fun _ => true) Sample.bracesReader
    Sample.twoBlocks OrderedTable.empty (by decide)
  have hread : ∃ r', readConfigFile (fun _ => default) (fun _ => true) Sample.bracesReader
      Sample.twoBlocks OrderedTable.empty = some (.returned r') ∧ r'.returnVal = 0 ∧
        ∃ call ∈ r'.calls, call.result ≠ 0 := ⟨_, rfl, rfl, by decide⟩
  obtain ⟨r', hr', hzero, hcall⟩ := hread
  obtain rfl := Ending.returned.inj (Option.some.inj (hr.symm.trans hr'))
  exact hhanded.failed.2 hcall hzero

end Flocksy
