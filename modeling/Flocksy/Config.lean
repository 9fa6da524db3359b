import Flocksy.Foundation.OrderedTable
import Flocksy.DirectoryEntries

/-!
# The configuration

The entries of the configuration, and how boxes get into it: as blocks of the configuration file,
whose text the JSON library reads, and as arguments of the command line, a name and a path with an
`@` between them. Whether a path is a directory and what the library makes of a text are parameters.
-/

namespace Flocksy

open ByteStream

/-- `node_t`. -/
structure NodeT where
  endpoint : Bytes
  subtype : ℕ
  lastTimestamp : ℤ
  offset : ℤ
  publicKey : Bytes
  uid : Option Hash
  deriving DecidableEq

structure Keypair where
  publicKey : Bytes
  secretKey : Bytes
  deriving DecidableEq

/-- `host_t`. -/
structure HostT where
  endpoint : Bytes
  keypair : Keypair
  uid : Bytes
  deriving DecidableEq

/-- `box_t`. -/
structure BoxT where
  uid : Hash
  basePath : Bytes
  symlinks : ℤ
  deriving DecidableEq

instance : IsStrictTotalOrder Bytes (· < ·) where
  trichotomous := fun _ _ hab hba => List.le_antisymm (List.not_lt.1 hba) (List.not_lt.1 hab)
  irrefl := List.lt_irrefl
  trans := fun _ _ _ => List.lt_trans

/-- `boxes_`. -/
abbrev Boxes := OrderedTable Bytes BoxT

structure Config where
  nodesVec : List NodeT
  nodes : List (Hash × NodeT)
  hosts : List HostT
  boxes : Boxes

/-- `F_SYMLINK_DEFAULT`. -/
def symlinkDefault : ℤ := 0

section Boxes

variable (H : Bytes → Hash) (isDirectory : Bytes → Bool)

/-- The loop of `updateBoxMap` over the boxes. An entry is changed when the loop is at it. -/
def scanBoxes (hashString boxPath : Bytes) : List (Bytes × BoxT) → Boxes → ℤ × Boxes
  | [], boxes => (0, boxes)
  | (name, box) :: rest, boxes =>
    if hashString = name then
      if box.basePath = [] ∧ boxPath = [] then (1, boxes)
      else if box.basePath = [] ∧ boxPath ≠ [] then
        scanBoxes hashString boxPath rest (boxes.set name { box with basePath := boxPath })
      else scanBoxes hashString boxPath rest boxes
    else if boxPath = box.basePath then (1, boxes)
    else scanBoxes hashString boxPath rest boxes

def updateBoxMap (boxHash : Hash) (boxPath : Bytes) (boxes : Boxes) : ℤ × Boxes :=
  if boxPath ≠ [] ∧ isDirectory boxPath = false then (1, boxes)
  else scanBoxes boxHash.getString boxPath boxes.entries boxes

/-- What is asked of the JSON value of a block; `asString` and `asInt` throw when it is of another
type. -/
structure JsonBox where
  basePath : Ending Bytes
  symlinks : Ending ℤ

abbrev JsonReader := Bytes → Option JsonBox

def parseBoxConfiguration (reader : JsonReader) (boxName boxConfigString : Bytes) (boxes : Boxes) :
    Ending (ℤ × Boxes) :=
  match reader boxConfigString with
  | none => .returned (1, boxes)
  | some boxConfig =>
    match boxConfig.basePath with
    | .thrown => .thrown
    | .returned boxPath =>
      let (result, boxes) := updateBoxMap isDirectory (H boxName) boxPath boxes
      if result = 0 then
        match boxConfig.symlinks with
        | .thrown => .thrown
        | .returned symlinks => .returned (0, boxes.set boxName ⟨H boxName, boxPath, symlinks⟩)
      else .returned (0, boxes)

/-- `@`. -/
def atSign : UInt8 := 64

/-- Name and path of an argument; `none` would be a loop that does not end. -/
def parseBoxString (boxString : Bytes) : Option (Bytes × Bytes) := do
  let stream := Stream.ofBytes boxString
  let (boxNameString, stream) := stream.getlineTo atSign []
  let (boxPathTemp, stream) := stream.getlineTo atSign []
  let pieces ← stream.pieces atSign (boxString.length + 1)
  some (boxNameString, boxPathTemp ++ pieces.flatMap (atSign :: ·))

/-- A box is added if `updateBoxMap` agrees. -/
def addBox (boxName boxPath : Bytes) (symlinks : ℤ) (boxes : Boxes) : Boxes :=
  let (result, boxes) := updateBoxMap isDirectory (H boxName) boxPath boxes
  if result = 0 then boxes.set boxName ⟨H boxName, boxPath, symlinks⟩ else boxes

/-- The loop of `doSanityCheck` over the boxes. -/
def checkBoxes : List Bytes → Boxes → Option Boxes
  | [], boxes => some boxes
  | boxString :: rest, boxes => do
    let (boxName, boxPath) ← parseBoxString boxString
    checkBoxes rest (addBox H isDirectory boxName boxPath symlinkDefault boxes)

end Boxes

theorem parseBoxConfiguration_eq {H : Bytes → Hash} {isDirectory : Bytes → Bool}
    {reader : JsonReader} {text boxPath : Bytes} {symlinks : ℤ}
    (h : reader text = some ⟨.returned boxPath, .returned symlinks⟩) (boxName : Bytes)
    (boxes : Boxes) :
    parseBoxConfiguration H isDirectory reader boxName text boxes =
      .returned (0, addBox H isDirectory boxName boxPath symlinks boxes) := by
  simp only [parseBoxConfiguration, h, addBox]
  split_ifs with hresult
  · rfl
  · rfl

theorem parseBoxString_eq {name : Bytes} (hname : atSign ∉ name) (path : Bytes) :
    parseBoxString (name ++ atSign :: path) = some (name, trimLast atSign path) := by
  have hbox (old : Bytes) : (Stream.cursor [] (name ++ atSign :: path)).getlineTo atSign old =
      (name, Stream.cursor (name ++ [atSign]) path) := Stream.getlineTo_cursor hname old [] path
  simp only [parseBoxString, Stream.ofBytes_eq_cursor, hbox]
  by_cases hpath : atSign ∈ path
  · obtain ⟨piece, rest, rfl, hpiece⟩ := List.eq_append_cons_of_mem hpath
    have hfuel : rest.length < (name ++ atSign :: (piece ++ atSign :: rest)).length + 1 := by
      simp only [List.length_append, List.length_cons]
      omega
    rw [Stream.getlineTo_cursor hpiece]
    simp only [pieces_cursor atSign hfuel, Option.bind_eq_bind, Option.bind_some]
    by_cases hrest : rest = []
    · subst hrest
      simp [fields, trimLast]
    · rw [flatMap_fields hrest, trimLast_append _ (by simp), trimLast_cons _ hrest]
  · simp only [Stream.getlineTo_last hpath, Option.bind_eq_bind]
    rw [Stream.pieces_of_end atSign _ rfl, Option.bind_some, trimLast_of_notMem hpath,
      List.flatMap_nil, List.append_nil]

/-- Name and path of an argument are read back if and only if there is no `@` at the end of the
path. -/
theorem parseBoxString_iff (name : Bytes) (hname : atSign ∉ name) (path : Bytes) :
    parseBoxString (name ++ atSign :: path) = some (name, path) ↔ path.getLast? ≠ some atSign := by
  rw [parseBoxString_eq hname, Option.some.injEq, Prod.mk.injEq, trimLast_eq_iff]
  exact and_iff_right rfl

theorem parseBoxString_inner :
    parseBoxString (ascii ['b', '@', '/', '@', '@', 'x']) =
      some (ascii ['b'], ascii ['/', '@', '@', 'x']) :=
  (parseBoxString_iff (ascii ['b']) (by decide) (ascii ['/', '@', '@', 'x'])).2 (by decide)

theorem parseBoxString_fails :
    ¬ ∀ name path : Bytes, atSign ∉ name →
      parseBoxString (name ++ atSign :: path) = some (name, path) := by
  intro h
  have hlost := h (ascii ['b']) (ascii ['/', 'x', '@']) (by decide)
  exact absurd hlost (by decide)

end Flocksy
