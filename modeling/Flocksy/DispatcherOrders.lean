import Flocksy.CurrentFile
import Flocksy.HeartbeatTransport
import Flocksy.MetadataSessions

/-!
# Telling the dispatcher to send a file

At the end of a round the boxoffice tells the dispatcher when to send a file, in which box
and directory it lies, and which file it is. The directory is read as a word, and the
file as a record whose hash was to be cut off; half of the hash is still there and moves
everything behind it.
-/

namespace Flocksy

open ByteStream Fsm Runs

/-- What `processEvent` sends to the dispatcher behind the status. -/
def orderPayload (timing : UInt64) (box : Hash) (dir : Bytes) (f : File) : Bytes :=
  timingBytes timing ++ box.bytes ++ dir ++ space :: f.write.drop 32

theorem Taken.order {bo : Boxoffice} {inp : Input} {fr : Frame} {t : Transition}
    (ht : Taken bo inp fr t) (hnotifies : notifies t.status = true) :
    ∃ p ps dir, bo.fileListData = p :: ps ∧ bo.baseDir bo.currentBox = some dir ∧
      fr.out = [.dispatcher t.status
        (orderPayload fr.bo.currentTimingOffset bo.currentBox dir p.file)] := by
  have hend : t.status ∈ roundEnds := by
    have hcases : t.status = .s122 ∨ t.status = .s177 := by simpa [notifies] using hnotifies
    rcases hcases with h | h <;> simp [h, roundEnds]
  obtain ⟨-, -, hnotified, -⟩ := ht.completes hend
  rw [Notified, ← ht.status, if_pos hnotifies] at hnotified
  exact hnotified

/-- What `Dispatcher::run` reads from an order. -/
structure Order where
  timingOffset : UInt64
  boxHash : Hash
  boxDir : Bytes
  file : File.Extraction

/-- A message as `Dispatcher::run` reads it when its status, or the one before, is 122 or 177. -/
def dispatcherOrder (currentStatus : Status) (old : ℤ × ℤ) (text : Bytes) (fs : FileSystem) :
    Option Order :=
  let (msgType, msgSignal, s) := readSignal old text
  if interrupts msgType msgSignal then none else
  let status := if msgType = sigtypeFsm then statusOfInt msgSignal else currentStatus
  if status = .s122 ∨ status = .s177 then
    let (timing, s) := (s.seekCur 1).read 8
    let (boxHash, s) := s.read genericHashLen
    let (boxDir, s) := s.extractWord
    ((File.blank boxDir (Hash.ofBytes boxHash)).read (s.seekCur 1) fs).map fun x =>
      ⟨UInt64.ofNat (ofBigEndian (padTo 8 timing)), Hash.ofBytes boxHash, boxDir, x⟩
  else none

structure Order.Tells (o : Order) (timing : UInt64) (box : Hash) (dir : Bytes) (f : File) :
    Prop where
  timing : o.timingOffset = timing
  box : o.boxHash = box
  dir : o.boxDir = dir
  file : o.file.ReadsAs f
  ends : o.file.sstream.rest = []

namespace File

variable {f : File} {dir : Bytes} {fs : FileSystem}

theorem tail_eq (hkept : f.deletedFile = false) :
    f.tail = toBigEndian 2 f.mode.toNat ++ ([f.type] ++ (toBigEndian 4 f.mtime.toNat ++
      toBigEndian 8 (if f.type = regularFile then f.size.toNat else 0))) := by
  rw [tail_eq_ite, hkept]
  simp

theorem length_le_dropWhile (before : Bytes) {after : Bytes}
    (h : ∀ b ∈ after.head?, isSpace b = false) :
    after.length ≤ ((before ++ after).dropWhile isSpace).length := by
  induction before with
  | nil =>
    cases after with
    | nil => simp
    | cons b bs => simp [h b rfl]
  | cons b before ih =>
    rw [List.cons_append, List.dropWhile_cons]
    split_ifs
    · exact ih
    · simp only [List.length_cons, List.length_append]
      omega

theorem regular_of_dropWhile (hkept : f.deletedFile = false) {path : Bytes}
    (h : (path ++ f.tail).dropWhile isSpace = f.fieldBytes) : f.type = regularFile := by
  by_contra hregular
  have hlen : f.fieldBytes.length = 7 := by simp [fieldBytes, hregular]
  have hzero : ∀ b ∈ (toBigEndian 8 0).head?, isSpace b = false := by
    simp [toBigEndian]
    decide
  have hle := length_le_dropWhile (path ++ (toBigEndian 2 f.mode.toNat ++ ([f.type] ++
    toBigEndian 4 f.mtime.toNat))) hzero
  have hsame : path ++ (toBigEndian 2 f.mode.toNat ++ ([f.type] ++
      toBigEndian 4 f.mtime.toNat)) ++ toBigEndian 8 0 = path ++ f.tail := by
    simp [tail_eq hkept, hregular]
  rw [hsame, h, hlen, toBigEndian_length] at hle
  omega

theorem tail_eq_fieldBytes (hkept : f.deletedFile = false) (hregular : f.type = regularFile) :
    f.tail = f.fieldBytes := by
  rw [tail_eq hkept, fieldBytes, if_pos hregular, if_pos hregular]

theorem dropWhile_ne_inDelete (hkept : f.deletedFile = false) (htype : f.type = 0) (path : Bytes) :
    (path ++ f.tail).dropWhile isSpace ≠ inDelete := by
  intro h
  have hle := List.dropWhile_suffix isSpace (l := path ++ f.tail)
  obtain ⟨before, hbefore⟩ := hle
  have hlast := congrArg List.getLast? hbefore
  rw [h, tail_eq hkept, htype, if_neg (by decide)] at hlast
  simp [toBigEndian, inDelete, ascii] at hlast

theorem follows_nil_iff (hkept : f.deletedFile = false) (path : Bytes) :
    f.Follows dir fs (path ++ f.tail) [] ↔ f.type = regularFile ∧ (∀ b ∈ path, isSpace b = true) ∧
      (∀ b ∈ f.tail.head?, isSpace b = false) ∧
      (checkArguments fs (constructPath dir f.path) f.path f.type).isSome = true := by
  have hsplit := List.takeWhile_append_dropWhile (p := isSpace) (l := path ++ f.tail)
  constructor
  · intro h
    unfold Follows at h
    split_ifs at h with hword
    · obtain ⟨-, htype, -, -, hdrop⟩ := h
      refine absurd ?_ (dropWhile_ne_inDelete hkept htype path)
      have hrest := List.takeWhile_append_dropWhile (p := (!isSpace ·))
        (l := (path ++ f.tail).dropWhile isSpace)
      rw [← hword, firstWord, Stream.drop_takeWhile] at hdrop
      rw [hdrop, List.append_nil, ← firstWord, hword] at hrest
      exact hrest.symm
    · obtain ⟨hfields, -, hargs⟩ := h
      rw [List.append_nil] at hfields
      have hregular := regular_of_dropWhile hkept hfields
      rw [hfields, ← tail_eq_fieldBytes hkept hregular] at hsplit
      have hpath : (path ++ f.tail).takeWhile isSpace = path := List.append_cancel_right hsplit
      refine ⟨hregular, fun b hb => ?_, ?_, hargs⟩
      · rw [← hpath] at hb
        exact List.mem_takeWhile_imp hb
      · rw [tail_eq_fieldBytes hkept hregular, ← hfields]
        intro b hb
        have hhead := List.head?_dropWhile_not isSpace (path ++ f.tail)
        rw [hb] at hhead
        exact hhead
  · rintro ⟨hregular, hpath, hhead, hargs⟩
    have hfields : (path ++ f.tail).dropWhile isSpace = f.tail := by
      rw [List.dropWhile_append_of_pos hpath]
      cases htail : f.tail with
      | nil => rfl
      | cons b bs => simp [hhead b (by simp [htail])]
    have hword : firstWord (path ++ f.tail) ≠ inDelete := by
      rw [firstWord, hfields]
      intro h
      have htail := List.takeWhile_append_dropWhile (p := (!isSpace ·)) (l := f.tail)
      rw [h, tail_eq hkept, hregular] at htail
      simp [toBigEndian, inDelete, ascii, regularFile] at htail
    rw [Follows, if_neg hword, hfields, tail_eq_fieldBytes hkept hregular, List.append_nil]
    exact ⟨rfl, .inl hregular, hargs⟩

end File

section Order

variable {timing : UInt64} {box : Hash} {dir : Bytes} {f : File} {fs : FileSystem}
  {status : Status}

theorem dispatcherOrder_order (timing : UInt64) (box : Hash) (dir : Bytes) (f : File)
    (fs : FileSystem) (currentStatus : Status) (old : ℤ × ℤ) (hstatus : notifies status = true) :
    ∃ before : Bytes,
    dispatcherOrder currentStatus old (fsmMessage status (orderPayload timing box dir f)) fs =
      let word := (Stream.cursor before (dir ++ space :: f.write.drop 32)).extractWord
      ((File.blank word.1 box).read (word.2.seekCur 1) fs).map fun x =>
        ⟨timing, box, word.1, x⟩ := by
  have hcond : status = .s122 ∨ status = .s177 := by simpa [notifies] using hstatus
  refine ⟨signalPrefix sigtypeFsm status.toNat ++ [space] ++ timingBytes timing ++ box.bytes, ?_⟩
  have htext : fsmMessage status (orderPayload timing box dir f) =
      signalPrefix sigtypeFsm status.toNat ++ (space :: (timingBytes timing ++ (box.bytes ++
        (dir ++ space :: f.write.drop 32)))) := by
    simp [fsmMessage, orderPayload, signalPrefix]
  generalize dir ++ space :: f.write.drop 32 = rest at htext ⊢
  have hread : readSignal old (signalPrefix sigtypeFsm status.toNat ++
      (space :: (timingBytes timing ++ (box.bytes ++ rest)))) = _ :=
    readSignal_prefix old (by decide) (toNat_le_intMax status) (by simp) (by simp; decide)
  have hseek : (Stream.cursor (signalPrefix sigtypeFsm status.toNat)
      (space :: (timingBytes timing ++ (box.bytes ++ rest)))).seekCur 1 =
      Stream.cursor (signalPrefix sigtypeFsm status.toNat ++ [space])
        (timingBytes timing ++ (box.bytes ++ rest)) :=
    Stream.seekCur_cursor (show [space].length = 1 from rfl) _ _
  simp only [dispatcherOrder, htext, hread]
  rw [if_neg (by simp [interrupts, sigtypeFsm, sigtypeLife])]
  simp only [↓reduceIte, statusOfInt_toNat, if_pos hcond, hseek,
    Stream.read_cursor (timingBytes_length timing), Stream.read_cursor box.length_eq,
    Hash.ofBytes_bytes, ofBigEndian_timingBytes]

theorem noSpace_of_extractWord {before after : Bytes}
    (hword : (Stream.cursor before (dir ++ space :: after)).extractWord.1 = dir) :
    ∀ b ∈ dir, isSpace b = false := by
  intro b hb
  rw [← hword, Stream.extractWord_good (Stream.cursor_good _ _)] at hb
  simpa using List.mem_takeWhile_imp hb

theorem extractWord_seek (before after : Bytes) (hdir : dir ≠ [])
    (hspace : ∀ b ∈ dir, isSpace b = false) :
    (Stream.cursor before (dir ++ space :: after)).extractWord.1 = dir ∧
      (Stream.cursor before (dir ++ space :: after)).extractWord.2.seekCur 1 =
        Stream.cursor (before ++ dir ++ [space]) after := by
  have hword : (Stream.cursor before ([] ++ (dir ++ space :: after))).extractWord = _ :=
    Stream.extractWord_cursor (by simp) hspace hdir (by simp; decide) before
  rw [List.nil_append, List.append_nil] at hword
  rw [hword]
  exact ⟨rfl, Stream.seekCur_cursor (show [space].length = 1 from rfl) _ _⟩

/-- The directory is one word, and the file a regular one whose path is the rest of the hash
over and over, ends in white space, and is not taken for longer than it is. -/
structure OrderFits (dir : Bytes) (f : File) : Prop where
  dir : ∀ b ∈ dir, isSpace b = false
  regular : f.type = regularFile
  path : File.hashRest f.boxHash ++ f.path.take 96 = f.path
  blank : ∀ b ∈ f.path.drop 96, isSpace b = true
  mode : ∀ b ∈ f.tail.head?, isSpace b = false

/-- The order is read as it was written if and only if what was left of the hash does no harm. -/
theorem dispatcherOrder_iff (currentStatus : Status) (old : ℤ × ℤ)
    (hstatus : notifies status = true) (hdir : dir ≠ []) (hkept : f.deletedFile = false)
    (hfs : (File.checkArguments fs (constructPath dir f.path) f.path f.type).isSome = true) :
    (∃ o, dispatcherOrder currentStatus old (fsmMessage status (orderPayload timing box dir f)) fs =
      some o ∧ o.Tells timing box dir f) ↔ OrderFits dir f := by
  obtain ⟨before, horder⟩ := dispatcherOrder_order timing box dir f fs currentStatus old hstatus
  rw [horder]
  have hfollows : f.Follows dir fs (f.path.drop 96 ++ f.tail) [] ↔ _ :=
    File.follows_nil_iff hkept (f.path.drop 96)
  have hread (front : Bytes) : (∃ x, (File.blank dir box).read
      (Stream.cursor front ((File.hashRest f.boxHash ++ f.path.take 96) ++
        (f.path.drop 96 ++ f.tail))) fs = some x ∧ x.ReadsAs f ∧ x.sstream.rest = []) ↔ _ :=
    File.read_iff hdir f.cutPath_length
  simp only
  constructor
  · rintro ⟨o, ho, htells⟩
    obtain ⟨x, hx, rfl⟩ := Option.map_eq_some_iff.1 ho
    have hspace := noSpace_of_extractWord htells.dir
    obtain ⟨hword, hseek⟩ := extractWord_seek before (f.write.drop 32) hdir hspace
    rw [hword, hseek, f.write_drop] at hx
    obtain ⟨hpath, hnil⟩ := (hread _).1 ⟨x, hx, htells.file, htells.ends⟩
    obtain ⟨hregular, hblank, hmode, -⟩ := hfollows.1 hnil
    exact ⟨hspace, hregular, hpath, hblank, hmode⟩
  · rintro ⟨hspace, hregular, hpath, hblank, hmode⟩
    obtain ⟨hword, hseek⟩ := extractWord_seek before (f.write.drop 32) hdir hspace
    obtain ⟨x, hx, hreads, hends⟩ :=
      (hread (before ++ dir ++ [space])).2 ⟨hpath, hfollows.2 ⟨hregular, hblank, hmode, hfs⟩⟩
    rw [hword, hseek, f.write_drop, hx]
    exact ⟨_, rfl, rfl, rfl, rfl, hreads, hends⟩

end Order

def Sample.blanks : File :=
  { (File.blank dir (.fill space)).withPath (List.replicate maximumPathLength space) with
    mode := 0o644, type := regularFile }

theorem dispatcherOrder_iff_blanks :
    ∃ o, dispatcherOrder .s100 (0, 0)
      (fsmMessage .s122 (orderPayload 5000 Sample.box Sample.dir Sample.blanks)) Sample.env.fs =
        some o ∧ o.Tells 5000 Sample.box Sample.dir Sample.blanks := by
  have hfacts : File.hashRest Sample.blanks.boxHash ++ Sample.blanks.path.take 96 =
      Sample.blanks.path ∧ (∀ b ∈ Sample.blanks.path.drop 96, isSpace b = true) ∧
      (∀ b ∈ Sample.blanks.tail.head?, isSpace b = false) ∧
      (File.checkArguments Sample.env.fs (constructPath Sample.dir Sample.blanks.path)
        Sample.blanks.path Sample.blanks.type).isSome = true ∧
      ∀ b ∈ Sample.dir, isSpace b = false := by
    decide +kernel
  obtain ⟨hpath, hblank, hmode, hfs, hword⟩ := hfacts
  have hkept : Sample.blanks.deletedFile = false := rfl
  have hregular : Sample.blanks.type = regularFile := rfl
  have hfits : OrderFits Sample.dir Sample.blanks := ⟨hword, hregular, hpath, hblank, hmode⟩
  exact (dispatcherOrder_iff .s100 (0, 0) (by decide) (by decide) hkept hfs).2 hfits

/-- Where every path can be used the dispatcher still reads another one. -/
theorem dispatcherOrder_fails :
    ¬ ∀ (currentStatus status : Status) (old : ℤ × ℤ) (timing : UInt64) (box : Hash) (dir : Bytes)
      (f : File) (fs : FileSystem), notifies status = true → dir ≠ [] → f.deletedFile = false →
      (∀ path, fs.exist path = true) → ∃ o, dispatcherOrder currentStatus old
        (fsmMessage status (orderPayload timing box dir f)) fs = some o ∧
          o.file.file.path = f.path := by
  intro h
  obtain ⟨o, ho, hpath⟩ := h .s100 .s122 (0, 0) 5000 Sample.box Sample.dir (Sample.file 'f')
    Sample.env.fs (by decide) (by decide) rfl fun path => rfl
  have hother : (dispatcherOrder .s100 (0, 0) (fsmMessage .s122
      (orderPayload 5000 Sample.box Sample.dir (Sample.file 'f'))) Sample.env.fs).map
        (·.file.file.path) ≠ some (Sample.file 'f').path := by
    decide +kernel
  rw [ho, Option.map_some, hpath] at hother
  exact hother rfl

end Flocksy
