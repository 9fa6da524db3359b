import Flocksy.Transmission

/-!
# Reading and storing a file's data

`readFileData` and `storeFileData` with their offsets, sizes and `more`. Chunks that are read
one behind the other, until no more are left, make up the content, and may be stored in any
order. The dispatcher goes on by the size of a package, not by what it has read, and ends its
loop only when `more` becomes false.
-/

namespace Flocksy

open ByteStream

/-- An open `std::fstream`: the bytes on the disk, and its fail bit. -/
structure OpenFile where
  disk : Bytes
  fail : Bool

/-- `seekg` and `read`. An offset from `2 ^ 63` on is negative, and a stream that has failed
neither seeks nor reads. -/
def OpenFile.readAt (s : OpenFile) (offset : UInt64) (count : ℕ) : Bytes × OpenFile :=
  if s.fail = true ∨ 2 ^ 63 ≤ offset.toNat then ([], { s with fail := true })
  else
    let got := (s.disk.drop offset.toNat).take count
    (got, { s with fail := decide (got.length < count) })

def File.readCount (f : File) (size : UInt64) : ℕ :=
  if f.size.toNat ≤ maximumFilePackageSize ∧ f.size ≤ size then f.size.toNat
  else if size.toNat < maximumFilePackageSize then size.toNat
  else maximumFilePackageSize

/-- `File::readFileData`: the bytes, `more`, and the stream. Nothing is written to `more` for a
file that is marked as deleted. -/
def File.readFileData (f : File) (s : OpenFile) (size offset : UInt64) (more : Bool) :
    Bytes × Bool × OpenFile :=
  if f.deletedFile then ([], more, s)
  else
    let (data, s) := s.readAt offset (f.readCount size)
    (data, decide (offset + UInt64.ofNat data.length < f.size), s)

/-- `File::storeFileData`. -/
def File.storeFileData (f : File) (disk data : Bytes) (offset : UInt64) : Bytes :=
  if f.deletedFile then disk
  else Flocksy.storeFileData f.size.toNat disk ⟨offset.toNat, data.length, false, data⟩

def File.storeChunks (f : File) (disk : Bytes) (chunks : List (UInt64 × Bytes)) : Bytes :=
  chunks.foldl (fun disk chunk => f.storeFileData disk chunk.2 chunk.1) disk

/-- Calls of `readFileData`, each at the offset behind the bytes that were read, until `more` is
false. -/
def File.readChunks (f : File) (size : UInt64) :
    ℕ → OpenFile → UInt64 → Option (List (UInt64 × Bytes))
  | 0, _, _ => none
  | fuel + 1, s, offset =>
    let (data, more, s) := f.readFileData s size offset true
    if more then
      (f.readChunks size fuel s (offset + UInt64.ofNat data.length)).map ((offset, data) :: ·)
    else some [(offset, data)]

theorem File.readCount_le (f : File) (size : UInt64) :
    f.readCount size ≤ min size.toNat maximumFilePackageSize := by
  unfold readCount
  split_ifs with hwhole hshort
  · have hle := UInt64.le_iff_toNat_le.1 hwhole.2
    omega
  · omega
  · omega

theorem File.readCount_pos (f : File) {size : UInt64} (hsize : 0 < size.toNat) :
    0 < f.readCount size ∨ f.size.toNat = 0 := by
  unfold readCount
  split_ifs
  · omega
  · omega
  · exact .inl (by decide)

/-- The chunks lie one behind the other and make up the content from an offset on. -/
def Consecutive (content : Bytes) : ℕ → List (UInt64 × Bytes) → Prop
  | offset, [] => offset = content.length
  | offset, chunk :: chunks => chunk.1.toNat = offset ∧
      chunk.2 = (content.drop offset).take chunk.2.length ∧
      offset + chunk.2.length ≤ content.length ∧
      Consecutive content (offset + chunk.2.length) chunks

theorem Consecutive.flatten {content : Bytes} {offset : ℕ} {chunks : List (UInt64 × Bytes)}
    (h : Consecutive content offset chunks) :
    (chunks.map Prod.snd).flatten = content.drop offset := by
  induction chunks generalizing offset with
  | nil =>
    obtain rfl : offset = content.length := h
    simp
  | cons chunk chunks ih =>
    obtain ⟨-, hpiece, -, hrest⟩ := h
    calc ((chunk :: chunks).map Prod.snd).flatten
        = chunk.2 ++ (chunks.map Prod.snd).flatten := rfl
      _ = (content.drop offset).take chunk.2.length ++ content.drop (offset + chunk.2.length) := by
        rw [ih hrest, ← hpiece]
      _ = content.drop offset := by rw [← List.drop_drop, List.take_append_drop]

section Read

variable {f : File} (hkept : f.deletedFile = false) {content : Bytes}
  (hlen : content.length = f.size.toNat) (hmax : f.size.toNat < 2 ^ 63)
include hkept hlen hmax

theorem readFileData_inside (size : UInt64) {offset : UInt64} (hin : offset.toNat ≤ content.length)
    (more : Bool) :
    ∃ data fail, f.readFileData ⟨content, false⟩ size offset more =
        (data, decide (offset.toNat + data.length < content.length), ⟨content, fail⟩) ∧
      data = (content.drop offset.toNat).take (f.readCount size) ∧
      (offset + UInt64.ofNat data.length).toNat = offset.toNat + data.length ∧
      (offset.toNat + data.length < content.length → fail = false) := by
  have hseek : ¬ (false = true ∨ 2 ^ 63 ≤ offset.toNat) := by
    simp only [Bool.false_eq_true, false_or]
    omega
  have hread : f.readFileData ⟨content, false⟩ size offset more = _ := rfl
  simp only [File.readFileData, hkept, OpenFile.readAt, if_neg hseek] at hread
  generalize hdata : (content.drop offset.toNat).take (f.readCount size) = data at hread
  have hget : data.length = min (f.readCount size) (content.length - offset.toNat) := by
    rw [← hdata, List.length_take, List.length_drop]
  have hsum : (offset + UInt64.ofNat data.length).toNat = offset.toNat + data.length := by
    rw [UInt64.toNat_add, UInt64.toNat_ofNat']
    omega
  refine ⟨data, decide (data.length < f.readCount size), ?_, rfl, hsum, fun hless => ?_⟩
  · simp only [File.readFileData, hkept, OpenFile.readAt, if_neg hseek, hdata,
      UInt64.lt_iff_toNat_lt, hsum, hlen]
    rfl
  · apply decide_eq_false
    omega

theorem readChunks_consecutive {size : UInt64} (hpos : 0 < size.toNat) (n : ℕ) {offset : UInt64}
    (hin : offset.toNat ≤ content.length) (hn : content.length - offset.toNat ≤ n) :
    ∃ chunks, f.readChunks size (n + 1) ⟨content, false⟩ offset = some chunks ∧
      Consecutive content offset.toNat chunks ∧
      ∀ chunk ∈ chunks, chunk.2.length ≤ min size.toNat maximumFilePackageSize := by
  induction n generalizing offset with
  | zero =>
    obtain ⟨data, fail, hread, hdata, -, -⟩ := readFileData_inside hkept hlen hmax size hin true
    have hend : offset.toNat = content.length := by omega
    have hnil : data = [] := by rw [hdata, hend, List.drop_length, List.take_nil]
    refine ⟨[(offset, [])], ?_, ⟨rfl, by simp, by simp [hend], by simp [Consecutive, hend]⟩, by simp⟩
    rw [hnil, hend] at hread
    simp [File.readChunks, hread]
  | succ n ih =>
    obtain ⟨data, fail, hread, hdata, hsum, hfail⟩ :=
      readFileData_inside hkept hlen hmax size hin true
    have hget : data.length = min (f.readCount size) (content.length - offset.toNat) := by
      rw [hdata, List.length_take, List.length_drop]
    have hle := f.readCount_le size
    have hpiece : data = (content.drop offset.toNat).take data.length := by
      rw [hget, ← List.length_drop, ← List.take_eq_take_min]
      exact hdata
    by_cases hmore : offset.toNat + data.length < content.length
    · have hcount : 0 < f.readCount size := by
        rcases f.readCount_pos hpos with h | h
        · exact h
        · omega
      obtain ⟨chunks, hchunks, hconsecutive, hsizes⟩ :=
        @ih (offset + UInt64.ofNat data.length) (by omega) (by omega)
      rw [hsum] at hconsecutive
      refine ⟨(offset, data) :: chunks, ?_, ⟨rfl, hpiece, hmore.le, hconsecutive⟩, ?_⟩
      · rw [File.readChunks, hread, hfail hmore]
        simp [hmore, hchunks]
      · rw [List.forall_mem_cons]
        exact ⟨by simp only; omega, hsizes⟩
    · have hend : offset.toNat + data.length = content.length := by omega
      refine ⟨[(offset, data)], ?_, ⟨rfl, hpiece, hend.le, hend⟩, ?_⟩
      · rw [File.readChunks, hread]
        simp [hmore]
      · intro chunk hchunk
        obtain rfl := List.mem_singleton.1 hchunk
        simp only
        omega

end Read

theorem length_writeAt {disk data : Bytes} {offset : ℕ}
    (hin : offset + data.length ≤ disk.length) :
    (writeAt disk offset data).length = disk.length := by
  simp only [writeAt, List.length_append, padTo_length, List.length_drop]
  omega

theorem getElem?_writeAt {disk data : Bytes} {offset : ℕ}
    (hin : offset + data.length ≤ disk.length) (p : ℕ) : (writeAt disk offset data)[p]? =
      if offset ≤ p ∧ p < offset + data.length then data[p - offset]? else disk[p]? := by
  have hpad : padTo offset disk = disk.take offset := padTo_of_le (by omega)
  have htake : (disk.take offset).length = offset := by
    rw [List.length_take]
    omega
  rw [writeAt, hpad, List.append_assoc]
  by_cases hbefore : p < offset
  · rw [List.getElem?_append_left (by omega), List.getElem?_take_of_lt hbefore, if_neg (by omega)]
  · rw [List.getElem?_append_right (by omega), htake]
    by_cases hdata : p < offset + data.length
    · rw [List.getElem?_append_left (by omega), if_pos (by omega)]
    · rw [List.getElem?_append_right (by omega), List.getElem?_drop, if_neg (by omega)]
      congr 1
      omega

def PieceOf (content : Bytes) (chunk : UInt64 × Bytes) : Prop :=
  chunk.2 = (content.drop chunk.1.toNat).take chunk.2.length ∧
    chunk.1.toNat + chunk.2.length ≤ content.length

def Covers (chunk : UInt64 × Bytes) (p : ℕ) : Prop :=
  chunk.1.toNat ≤ p ∧ p < chunk.1.toNat + chunk.2.length

theorem Consecutive.pieces {content : Bytes} {offset : ℕ} {chunks : List (UInt64 × Bytes)}
    (h : Consecutive content offset chunks) : ∀ chunk ∈ chunks, PieceOf content chunk := by
  induction chunks generalizing offset with
  | nil => simp
  | cons chunk chunks ih =>
    obtain ⟨rfl, hpiece, hle, hrest⟩ := h
    exact List.forall_mem_cons.2 ⟨⟨hpiece, hle⟩, ih hrest⟩

theorem Consecutive.covers {content : Bytes} {offset : ℕ} {chunks : List (UInt64 × Bytes)}
    (h : Consecutive content offset chunks) {p : ℕ} (hp : offset ≤ p) (hin : p < content.length) :
    ∃ chunk ∈ chunks, Covers chunk p := by
  induction chunks generalizing offset with
  | nil =>
    obtain rfl : offset = content.length := h
    omega
  | cons chunk chunks ih =>
    obtain ⟨rfl, -, -, hrest⟩ := h
    by_cases hhere : p < chunk.1.toNat + chunk.2.length
    · exact ⟨chunk, List.mem_cons_self, hp, hhere⟩
    · obtain ⟨later, hlater, hcovers⟩ := ih hrest (not_lt.1 hhere)
      exact ⟨later, List.mem_cons_of_mem _ hlater, hcovers⟩

section Store

variable {f : File} (hkept : f.deletedFile = false) {content : Bytes}
  (hlen : content.length = f.size.toNat)
include hkept hlen

theorem storeFileData_piece {chunk : UInt64 × Bytes} (hpiece : PieceOf content chunk)
    (hmax : chunk.2.length ≤ maximumFilePackageSize) {disk : Bytes}
    (hdisk : disk.length = content.length) :
    (f.storeFileData disk chunk.2 chunk.1).length = content.length ∧
      ∀ p, Covers chunk p ∨ disk[p]? = content[p]? →
        (f.storeFileData disk chunk.2 chunk.1)[p]? = content[p]? := by
  obtain ⟨hslice, hle⟩ := hpiece
  have hstore : f.storeFileData disk chunk.2 chunk.1 =
      writeAt disk chunk.1.toNat chunk.2 := by
    rw [File.storeFileData, hkept, if_neg (by simp)]
    exact storeFileData_eq rfl hmax (by simp only; omega)
  rw [hstore, length_writeAt (by omega)]
  refine ⟨hdisk, fun p hp => ?_⟩
  rw [getElem?_writeAt (by omega)]
  split_ifs with hcovers
  · have hplace : chunk.1.toNat + (p - chunk.1.toNat) = p := by omega
    rw [hslice, List.getElem?_take_of_lt (by omega), List.getElem?_drop, hplace]
  · exact hp.resolve_left hcovers

theorem store_pieces {order : List (UInt64 × Bytes)} (hpieces : ∀ chunk ∈ order,
    PieceOf content chunk ∧ chunk.2.length ≤ maximumFilePackageSize) {disk : Bytes}
    (hdisk : disk.length = content.length) (p : ℕ)
    (hp : (∃ chunk ∈ order, Covers chunk p) ∨ disk[p]? = content[p]?) :
    (f.storeChunks disk order)[p]? = content[p]? := by
  induction order generalizing disk with
  | nil => simpa [File.storeChunks] using hp
  | cons chunk order ih =>
    rw [List.forall_mem_cons] at hpieces
    obtain ⟨hstored, hplaces⟩ :=
      storeFileData_piece hkept hlen hpieces.1.1 hpieces.1.2 hdisk
    apply ih hpieces.2 hstored
    rcases hp with ⟨covering, hmem, hcovers⟩ | hsame
    · rcases List.mem_cons.1 hmem with rfl | hlater
      · exact .inr (hplaces p (.inl hcovers))
      · exact .inl ⟨covering, hlater, hcovers⟩
    · exact .inr (hplaces p (.inr hsame))

end Store

/-- A content is read in finitely many chunks, none larger than asked for or than a package;
they make it up, and storing them in any order, each at least once, leaves it in a file of its
size. -/
theorem readChunks_store (f : File) (hkept : f.deletedFile = false) (content : Bytes)
    (hlen : content.length = f.size.toNat) (hmax : f.size.toNat < 2 ^ 63) (size : UInt64)
    (hpos : 1 ≤ size.toNat) :
    ∃ fuel chunks, f.readChunks size fuel ⟨content, false⟩ 0 = some chunks ∧
      (∀ chunk ∈ chunks, chunk.2.length ≤ min size.toNat maximumFilePackageSize) ∧
      (chunks.map Prod.snd).flatten = content ∧
      ∀ order, (∀ chunk, chunk ∈ order ↔ chunk ∈ chunks) → ∀ disk : Bytes,
        disk.length = content.length → f.storeChunks disk order = content := by
  have hzero : (0 : UInt64).toNat ≤ content.length := by simp
  obtain ⟨chunks, hchunks, hconsecutive, hsizes⟩ :=
    readChunks_consecutive hkept hlen hmax hpos content.length hzero (by simp)
  refine ⟨content.length + 1, chunks, hchunks, hsizes, hconsecutive.flatten,
    fun order horder disk hdisk => ?_⟩
  have hpieces : ∀ chunk ∈ order,
      PieceOf content chunk ∧ chunk.2.length ≤ maximumFilePackageSize := by
    intro chunk hchunk
    have hmem := (horder chunk).1 hchunk
    exact ⟨hconsecutive.pieces chunk hmem, (hsizes chunk hmem).trans (min_le_right _ _)⟩
  apply List.ext_getElem?
  intro p
  apply store_pieces hkept hlen hpieces hdisk
  by_cases hin : p < content.length
  · obtain ⟨chunk, hchunk, hcovers⟩ := hconsecutive.covers (Nat.zero_le p) hin
    exact .inl ⟨chunk, (horder chunk).2 hchunk, hcovers⟩
  · right
    rw [List.getElem?_eq_none (by omega), List.getElem?_eq_none (by omega)]

namespace Sample

def fiveBytes : File := { File.blank dir box with type := regularFile, size := 5 }

end Sample

theorem readChunks_store_fiveBytes :
    ∃ fuel chunks, Sample.fiveBytes.readChunks 2 fuel ⟨[1, 2, 3, 4, 5], false⟩ 0 = some chunks ∧
      (∀ chunk ∈ chunks, chunk.2.length ≤ min (2 : UInt64).toNat maximumFilePackageSize) ∧
      (chunks.map Prod.snd).flatten = [1, 2, 3, 4, 5] ∧
      ∀ order, (∀ chunk, chunk ∈ order ↔ chunk ∈ chunks) → ∀ disk : Bytes,
        disk.length = 5 → Sample.fiveBytes.storeChunks disk order = [1, 2, 3, 4, 5] :=
  readChunks_store Sample.fiveBytes rfl [1, 2, 3, 4, 5] rfl (by decide) 2 (by decide)

example : Sample.fiveBytes.readChunks 2 9 ⟨[1, 2, 3, 4, 5], false⟩ 0 =
    some [(0, [1, 2]), (2, [3, 4]), (4, [5])] := by
  decide

theorem readFileData_package {f : File} (hkept : f.deletedFile = false) {content : Bytes}
    (hlen : content.length = f.size.toNat) (hmax : f.size.toNat < 2 ^ 63) {offset : UInt64}
    (hin : offset.toNat ≤ content.length) (more : Bool) :
    ∃ fail, f.readFileData ⟨content, false⟩ 4096 offset more =
      ((Flocksy.readFileData content f.size.toNat offset.toNat).1,
        (Flocksy.readFileData content f.size.toNat offset.toNat).2, ⟨content, fail⟩) := by
  obtain ⟨data, fail, hread, hdata, -, -⟩ := readFileData_inside hkept hlen hmax 4096 hin more
  have hcount : f.readCount 4096 = if f.size.toNat ≤ maximumFilePackageSize then f.size.toNat
      else maximumFilePackageSize := by
    have hle : f.size ≤ 4096 ↔ f.size.toNat ≤ maximumFilePackageSize := UInt64.le_iff_toNat_le
    simp only [File.readCount, hle, and_self]
    rfl
  refine ⟨fail, ?_⟩
  rw [hread, Flocksy.readFileData, ← hcount, ← hdata, hlen]

/-- The variables of the loop in `Dispatcher::run`. -/
structure SendLoop where
  offset : UInt64
  dataSize : UInt64
  more : Bool
  file : OpenFile

def SendLoop.opened (file : OpenFile) : SendLoop := ⟨0, 0, true, file⟩

def SendLoop.start (disk : Bytes) : SendLoop := ⟨0, 0, true, ⟨disk, false⟩⟩

/-- One turn: what it does with the bytes does not matter for how it goes on. -/
def SendLoop.turn (f : File) (l : SendLoop) : SendLoop :=
  let (data, more, file) := f.readFileData l.file 4096 l.offset l.more
  ⟨l.offset + 4096, l.dataSize + UInt64.ofNat data.length, more, file⟩

/-- `while (*more)` comes to an end. -/
def SendLoop.Ends (f : File) (disk : Bytes) : Prop :=
  ∃ turns, ((SendLoop.turn f)^[turns] (.start disk)).more = false

theorem readAt_length_le (s : OpenFile) (offset : UInt64) (count : ℕ) :
    (s.readAt offset count).1.length ≤ count := by
  unfold OpenFile.readAt
  split_ifs
  · exact Nat.zero_le _
  · exact List.length_take_le _ _

theorem readAt_of_negative {offset : UInt64} (h : 2 ^ 63 ≤ offset.toNat) (s : OpenFile)
    (count : ℕ) : (s.readAt offset count).1 = [] := by
  rw [OpenFile.readAt, if_pos (.inr h)]

theorem toNat_readEnd (s : OpenFile) (offset size : UInt64) (f : File) :
    (offset + UInt64.ofNat (s.readAt offset (f.readCount size)).1.length).toNat =
      offset.toNat + (s.readAt offset (f.readCount size)).1.length ∧
    (offset.toNat < 2 ^ 63 ∨ (s.readAt offset (f.readCount size)).1.length = 0) := by
  have hle := readAt_length_le s offset (f.readCount size)
  have hcount := f.readCount_le size
  rw [UInt64.toNat_add, UInt64.toNat_ofNat']
  by_cases hsmall : offset.toNat < 2 ^ 63
  · simp only [maximumFilePackageSize] at hcount
    exact ⟨by omega, .inl hsmall⟩
  · have hnone : (s.readAt offset (f.readCount size)).1.length = 0 := by
      rw [readAt_of_negative (not_lt.1 hsmall), List.length_nil]
    have hlt := offset.toNat_lt
    exact ⟨by omega, .inr hnone⟩

section Turns

variable {f : File}

theorem offset_turns (f : File) (file : OpenFile) (turns : ℕ) :
    ((SendLoop.turn f)^[turns] (.opened file)).offset.toNat = 4096 * turns % 2 ^ 64 := by
  induction turns with
  | zero => rfl
  | succ turns ih =>
    have hturn : ((SendLoop.turn f)^[turns + 1] (.opened file)).offset =
        ((SendLoop.turn f)^[turns] (.opened file)).offset + 4096 := by
      rw [Function.iterate_succ_apply']
      rfl
    have h4096 : (4096 : UInt64).toNat = 4096 := rfl
    rw [hturn, UInt64.toNat_add, ih, h4096]
    omega

theorem more_turn (hkept : f.deletedFile = false) (file : OpenFile) (turns : ℕ) :
    ∃ read, ((SendLoop.turn f)^[turns + 1] (.opened file)).more =
        decide (4096 * turns % 2 ^ 64 + read < f.size.toNat) ∧ read ≤ maximumFilePackageSize ∧
      (4096 * turns % 2 ^ 64 < 2 ^ 63 ∨ read = 0) := by
  have hoffset := offset_turns f file turns
  rw [Function.iterate_succ_apply']
  generalize (SendLoop.turn f)^[turns] (.opened file) = l at hoffset
  obtain ⟨hsum, hsmall⟩ := toNat_readEnd l.file l.offset 4096 f
  rw [hoffset] at hsum hsmall
  refine ⟨(l.file.readAt l.offset (f.readCount 4096)).1.length, ?_, ?_, hsmall⟩
  · simp only [SendLoop.turn, File.readFileData, hkept, UInt64.lt_iff_toNat_lt, ← hsum]
    rfl
  · have hle := readAt_length_le l.file l.offset (f.readCount 4096)
    have hcount := f.readCount_le 4096
    omega

theorem more_of_deleted (hdeleted : f.deletedFile = true) (file : OpenFile) (turns : ℕ) :
    ((SendLoop.turn f)^[turns] (.opened file)).more = true := by
  induction turns with
  | zero => rfl
  | succ turns ih =>
    rw [Function.iterate_succ_apply', SendLoop.turn, File.readFileData, if_pos hdeleted]
    exact ih

theorem more_of_large (hlarge : 2 ^ 64 - maximumFilePackageSize < f.size.toNat) (file : OpenFile)
    (turns : ℕ) : ((SendLoop.turn f)^[turns] (.opened file)).more = true := by
  by_cases hkept : f.deletedFile = false
  · cases turns with
    | zero => rfl
    | succ turns =>
      obtain ⟨read, hmore, hle, hsmall⟩ := more_turn hkept file turns
      rw [hmore, decide_eq_true_iff]
      simp only [maximumFilePackageSize] at *
      omega
  · exact more_of_deleted (by simpa using hkept) file turns

/-- The loop of the dispatcher ends exactly for files that are not marked as deleted and whose
size can be reached in steps of a package. -/
theorem sendLoop_ends_iff (f : File) (disk : Bytes) : SendLoop.Ends f disk ↔
    f.deletedFile = false ∧ f.size.toNat ≤ 2 ^ 64 - maximumFilePackageSize := by
  constructor
  · rintro ⟨turns, hends⟩
    constructor
    · by_contra hdeleted
      have hmore := more_of_deleted (by simpa using hdeleted) ⟨disk, false⟩ turns
      exact absurd (hmore.symm.trans hends) (by decide)
    · by_contra hlarge
      have hmore := more_of_large (not_le.1 hlarge) ⟨disk, false⟩ turns
      exact absurd (hmore.symm.trans hends) (by decide)
  · rintro ⟨hkept, hsize⟩
    obtain ⟨read, hmore, -, -⟩ := more_turn hkept ⟨disk, false⟩ (f.size.toNat / 4096 +
      if f.size.toNat % 4096 = 0 then 0 else 1)
    refine ⟨_, hmore.trans (decide_eq_false ?_)⟩
    simp only [maximumFilePackageSize] at hsize
    split_ifs <;> omega

end Turns

/-- A deleted file, as its record is read. -/
theorem sendLoop_ends_fails : ∃ x, (File.blank Sample.dir Sample.box).read (Stream.ofBytes
    (padTo maximumPathLength (ascii ['/', 'a']) ++ File.inDelete)) (fun _ => none) = some x ∧
      ¬ SendLoop.Ends x.file [] := by
  have hread : ((File.blank Sample.dir Sample.box).read (Stream.ofBytes
      (padTo maximumPathLength (ascii ['/', 'a']) ++ File.inDelete)) (fun _ => none)).map
        (fun x => x.file.deletedFile) = some true := by
    decide +kernel
  obtain ⟨x, hx, hdeleted⟩ := Option.map_eq_some_iff.1 hread
  refine ⟨x, hx, fun ⟨turns, hends⟩ => ?_⟩
  have hmore := more_of_deleted hdeleted ⟨[], false⟩ turns
  exact absurd (hmore.symm.trans hends) (by decide)

end Flocksy
