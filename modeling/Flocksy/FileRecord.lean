import Flocksy.Foundation.ByteStream

/-!
# Hashes, files and the file record

A `Hash` is 64 bytes by construction and the path array of a `File` 128 bytes.
`File.write` is `operator<<` and `File.read` is `operator>>`. Reading a record
touches the disk: it removes the file of an `IN_DELETE` record and creates a
file that is missing. The disk is what `boost::filesystem` answers about a
path, and the operations the code performs on it are returned as a list.
Operations the code does not check are taken to succeed; an exception that the
code throws is `none`.
-/

namespace Flocksy

open ByteStream

def genericHashLen : ℕ := 64
def maximumPathLength : ℕ := 128
def maximumFilePackageSize : ℕ := 4096

structure Hash where
  bytes : Bytes
  length_eq : bytes.length = genericHashLen
  deriving DecidableEq

namespace Hash

def ofBytes (bs : Bytes) : Hash := ⟨padTo genericHashLen bs, padTo_length _ _⟩

instance : Inhabited Hash := ⟨ofBytes []⟩

def fill (b : UInt8) : Hash := ⟨List.replicate genericHashLen b, List.length_replicate⟩

@[simp] theorem ofBytes_bytes (h : Hash) : ofBytes h.bytes = h := by
  cases h with
  | mk bs hbs => simp [ofBytes, padTo_of_length hbs]

end Hash

/-- `boost::filesystem::file_type`, as the byte the record holds. -/
abbrev FileType := UInt8
def regularFile : FileType := 2
def directoryFile : FileType := 3

structure FileStatus where
  permissions : UInt16
  type : FileType
  lastWriteTime : UInt32
  fileSize : UInt64
  deriving DecidableEq

/-- A path as the system calls see it ends at its first NUL. -/
def cPath (path : Bytes) : Bytes := path.takeWhile (· != 0)

abbrev FileSystem := Bytes → Option FileStatus

namespace FileSystem

def stat (fs : FileSystem) (path : Bytes) : Option FileStatus := fs (cPath path)
def exist (fs : FileSystem) (path : Bytes) : Bool := (fs.stat path).isSome

def set (fs : FileSystem) (path : Bytes) (st : Option FileStatus) : FileSystem :=
  fun p => if p = cPath path then st else fs p

end FileSystem

/-- `std::to_string` of an `int`. -/
def decimalInt (n : ℤ) : Bytes := if n < 0 then 45 :: decimal n.natAbs else decimal n.natAbs

@[simp] theorem decimalInt_natCast (n : ℕ) : decimalInt n = decimal n := by
  rw [decimalInt, if_neg (by omega), Int.natAbs_natCast]

theorem decimal_injective {m n : ℕ} (h : decimal m = decimal n) : m = n := by
  rw [← digitsValue_decimal m, h, digitsValue_decimal]

theorem decimalInt_injective {m n : ℤ} (h : decimalInt m = decimalInt n) : m = n := by
  have hsign (k : ℕ) (bs : Bytes) : decimal k ≠ 45 :: bs := by
    intro h
    have hdigit := isDigit_of_mem_decimal (n := k) (b := 45) (by simp [h])
    exact absurd hdigit (by decide)
  rw [decimalInt, decimalInt] at h
  split_ifs at h with hm hn hn
  · have habs := decimal_injective (List.cons.inj h).2
    omega
  · exact absurd h.symm (hsign _ _)
  · exact absurd h (hsign _ _)
  · have habs := decimal_injective h
    omega

def slash : UInt8 := 47

def parentPath (path : Bytes) : Bytes :=
  ((path.reverse.dropWhile (· != slash)).drop 1).reverse

def constructPath (boxPath path : Bytes) : Bytes :=
  if boxPath.getLast? ≠ some slash ∧ path.head? ≠ some slash then boxPath ++ slash :: path
  else if boxPath.getLast? = some slash ∧ path.head? = some slash then boxPath.dropLast ++ path
  else boxPath ++ path

structure File where
  boxPath : Bytes
  boxHash : Hash
  bpath : Bytes
  path : Bytes
  path_length : path.length = maximumPathLength
  mode : UInt16
  mtime : UInt32
  type : FileType
  size : UInt64
  deletedFile : Bool
  deriving DecidableEq

inductive FileOp where
  | remove (path : Bytes)
  | createRegular (path : Bytes)
  | createDirectory (path : Bytes)
  | storeMetadata (f : File)
  | resize (f : File)
  | create (f : File)
  | storeFileData (f : File) (data : Bytes) (size offset : ℕ)
  deriving DecidableEq

namespace File

/-- `File(box_path, box_hash)`. -/
def blank (boxPath : Bytes) (boxHash : Hash) : File :=
  ⟨boxPath, boxHash, [], padTo maximumPathLength [], padTo_length _ _, 0, 0, 0, 0, false⟩

/-- `File(box_path, box_hash, path)`, for a path that fits the array: the file
must exist. -/
def ofPath (fs : FileSystem) (boxPath : Bytes) (boxHash : Hash) (path : Bytes) : Option File :=
  let bpath := constructPath boxPath path
  (fs.stat bpath).map fun st =>
    ⟨boxPath, boxHash, bpath, padTo maximumPathLength path, padTo_length _ _,
      st.permissions, st.lastWriteTime, st.type,
      if st.type = regularFile then st.fileSize else 0, false⟩

/-- `File(box_path, box_hash, path, create, deleted_file)`, for a path that fits
the array. -/
def ofDeleted (boxPath : Bytes) (boxHash : Hash) (path : Bytes) (deletedFile : Bool) : File :=
  ⟨boxPath, boxHash, [], padTo maximumPathLength path, padTo_length _ _, 0, 0, 0, 0, deletedFile⟩

def inDelete : Bytes := ascii ['I', 'N', '_', 'D', 'E', 'L', 'E', 'T', 'E']

/-- What `operator<<` writes behind the box hash. -/
def body (f : File) : Bytes :=
  f.path ++
    if f.deletedFile then inDelete
    else toBigEndian 2 f.mode.toNat ++ [f.type] ++ toBigEndian 4 f.mtime.toNat ++
      toBigEndian 8 (if f.type = regularFile then f.size.toNat else 0)

def write (f : File) : Bytes := f.boxHash.bytes ++ f.body

/-- `checkArguments(path, type, true)`, for a path of the length of the array. -/
def checkArguments (fs : FileSystem) (bpath path : Bytes) (type : FileType) :
    Option (FileSystem × List FileOp) :=
  if fs.exist bpath then some (fs, []) else
  let parent := if path.getLast? = some slash then parentPath (parentPath bpath)
    else parentPath bpath
  if !fs.exist parent then none
  else if type = regularFile then
    some (fs.set bpath (some ⟨0, regularFile, 0, 0⟩), [.createRegular bpath])
  else if type = directoryFile then
    some (fs.set bpath (some ⟨0, directoryFile, 0, 0⟩), [.createDirectory bpath])
  else none

structure Extraction where
  file : File
  sstream : Stream
  fs : FileSystem
  ops : List FileOp

/-- `istream >> f`. -/
def read (f : File) (s : Stream) (fs : FileSystem) : Option Extraction :=
  if f.boxPath = [] then none else
  let (pathC, s) := s.read maximumPathLength
  let path := padTo maximumPathLength pathC
  let (deleted, s) := s.extractWord
  let bpath := constructPath f.boxPath path
  let f := { f with path := path, path_length := padTo_length _ _, bpath := bpath }
  if deleted = inDelete then
    let f := { f with deletedFile := true }
    if fs.exist bpath then some ⟨f, s, fs.set bpath none, [.remove bpath]⟩
    else some ⟨f, s, fs, []⟩
  else
    let s := s.seekCur (-deleted.length)
    let (modeC, s) := s.read 2
    let (typeC, s) := s.read 1
    let (mtimeC, s) := s.read 4
    let type := UInt8.ofNat (ofBigEndian (padTo 1 typeC))
    let f := { f with
      mode := UInt16.ofNat (ofBigEndian (padTo 2 modeC))
      type := type
      mtime := UInt32.ofNat (ofBigEndian (padTo 4 mtimeC)) }
    match checkArguments fs bpath path type with
    | none => none
    | some (fs, ops) =>
      if type = regularFile then
        let (sizeC, s) := s.read 8
        some ⟨{ f with size := UInt64.ofNat (ofBigEndian (padTo 8 sizeC)) }, s, fs, ops⟩
      else some ⟨f, s, fs, ops⟩

def exist (f : File) (fs : FileSystem) : Bool := fs.exist f.bpath

/-- `resize()` throws where something else has the path of a regular file. -/
def resizes (f : File) (fs : FileSystem) : Bool :=
  f.type != regularFile || (fs.stat f.bpath).any (·.type == regularFile)

/-- `create()` throws for what is neither a regular file nor a directory. -/
def create (f : File) : Option FileOp :=
  if f.type = regularFile ∨ f.type = directoryFile then some (.create f) else none

end File

end Flocksy
