import Flocksy.CurrentFile

/-!
# A record and what follows it

`operator>>` first extracts a word, to find out whether the file is to be deleted, and then seeks
back by the length of the word, without the white space that was skipped in front of it. So the
fields are read from where they stand if and only if the mode does not begin with white space. The
size of a directory is written and not read, and the word behind the path of a file to be deleted
ends only where white space follows.
-/

namespace Flocksy

open ByteStream Fsm

namespace File

variable {f g : File} {fs : FileSystem}

def modeByte (f : File) : UInt8 := UInt8.ofNat (f.mode.toNat / 256)

theorem tail_of_deleted (hdeleted : f.deletedFile = true) : f.tail = inDelete := by
  rw [tail_eq_ite, if_pos hdeleted]

theorem tail_of_kept (hkept : f.deletedFile = false) :
    f.tail = f.modeByte :: UInt8.ofNat f.mode.toNat :: f.type :: (toBigEndian 4 f.mtime.toNat ++
      toBigEndian 8 (if f.type = regularFile then f.size.toNat else 0)) := by
  rw [tail_eq_ite, hkept]
  simp [toBigEndian, modeByte]

/-- The type is that of a file that the boxoffice sends. -/
def Plain (f : File) : Prop := f.type = regularFile ∨ f.type = directoryFile

theorem Plain.not_space (h : f.Plain) : isSpace f.type = false := by
  rcases h with h | h <;> rw [h] <;> decide

theorem Plain.firstWord_ne (h : f.Plain) (hkept : f.deletedFile = false) (after : Bytes) :
    firstWord (f.tail ++ after) ≠ inDelete := by
  have hspace := h.not_space
  have hne : ∀ b ∈ inDelete, f.type ≠ b := by
    rcases h with h | h <;> rw [h] <;> decide +kernel
  rw [tail_of_kept hkept, firstWord]
  generalize UInt8.ofNat f.mode.toNat = low
  intro hword
  cases hhigh : isSpace f.modeByte <;> cases hlow : isSpace low <;>
    simp [hhigh, hlow, hspace, inDelete, ascii] at hword
  · exact hne _ (by decide) hword.2.2.1
  · exact hne _ (by decide) hword.2.1
  · exact hne _ (by decide) hword.1

theorem Plain.dropWhile_append (h : f.Plain) (hkept : f.deletedFile = false) (after : Bytes) :
    (f.tail ++ after).dropWhile isSpace = f.tail.dropWhile isSpace ++ after := by
  have hspace := h.not_space
  rw [tail_of_kept hkept]
  generalize UInt8.ofNat f.mode.toNat = low
  cases hhigh : isSpace f.modeByte <;> cases hlow : isSpace low <;> simp [hhigh, hlow, hspace]

theorem Plain.dropWhile_tail (h : f.Plain) (hkept : f.deletedFile = false) :
    ∃ b c bs, f.tail.dropWhile isSpace = b :: c :: bs ∧ isSpace b = false := by
  have hspace := h.not_space
  rw [tail_of_kept hkept]
  generalize UInt8.ofNat f.mode.toNat = low
  cases hhigh : isSpace f.modeByte <;> cases hlow : isSpace low <;>
    simp [hhigh, hlow, hspace, toBigEndian]

/-- The fields that are read into `g`. A directory leaves the size as it is. -/
def readInto (f g : File) : File :=
  { g.withPath f.path with
    mode := f.mode
    type := f.type
    mtime := f.mtime
    size := if f.type = regularFile then f.size else g.size }

section Read

variable (hbox : g.boxPath ≠ [])
include hbox

theorem read_body (before after : Bytes) :
    g.read (Stream.cursor before (f.body ++ after)) fs =
      let word := (Stream.cursor (before ++ f.path) (f.tail ++ after)).extractWord
      if firstWord (f.tail ++ after) = inDelete then
        some ((g.withPath f.path).readDeleted word.2 fs)
      else (g.withPath f.path).readFields (word.2.seekCur (-word.1.length)) fs := by
  rw [body_eq, List.append_assoc, read_cursor_eq hbox f.path_length]

theorem read_of_kept (hplain : f.Plain) (hkept : f.deletedFile = false) (before after : Bytes) :
    g.read (Stream.cursor before (f.body ++ after)) fs =
      (g.withPath f.path).readFields
        (Stream.cursor (before ++ f.path ++ (f.tail ++ after).takeWhile isSpace)
          (f.tail.dropWhile isSpace ++ after)) fs := by
  have hne : (f.tail ++ after).dropWhile isSpace ≠ [] := by
    obtain ⟨b, c, bs, hleft, -⟩ := hplain.dropWhile_tail hkept
    rw [hplain.dropWhile_append hkept, hleft]
    simp
  rw [read_body hbox]
  simp only [if_neg (hplain.firstWord_ne hkept after)]
  rw [Stream.extractWord_seekBack hne, hplain.dropWhile_append hkept]

theorem read_of_deleted (hdeleted : f.deletedFile = true) (before : Bytes) {after : Bytes}
    (hne : after ≠ []) (hspace : ∀ b ∈ after.head?, isSpace b = true) :
    g.read (Stream.cursor before (f.body ++ after)) fs =
      some ((g.withPath f.path).readDeleted (Stream.cursor (before ++ f.body) after) fs) := by
  have hletters : ∀ b ∈ inDelete, isSpace b = false := by decide +kernel
  have hword : (Stream.cursor (before ++ f.path) (inDelete ++ after)).extractWord =
      (inDelete, Stream.cursor (before ++ f.path ++ inDelete) after) := by
    have h := @Stream.extractWord_cursor inDelete [] after (by simp) hletters (by decide) hspace
      (before ++ f.path)
    simpa [hne, Stream.cursor] using h
  have hfirst : firstWord (inDelete ++ after) = inDelete := by
    rw [firstWord, ← Stream.cursor_rest (before ++ f.path) (inDelete ++ after),
      ← Stream.extractWord_good (Stream.cursor_good _ _), hword]
  rw [read_body hbox, tail_of_deleted hdeleted, body_eq, tail_of_deleted hdeleted]
  simp only [if_pos hfirst, hword, List.append_assoc]

/-- Where the mode does not begin with white space the fields are read. The bytes of the size of a
directory are left in the stream. -/
theorem read_of_mode (hplain : f.Plain) (hkept : f.deletedFile = false)
    (hmode : isSpace f.modeByte = false) {fs' : FileSystem} {ops : List FileOp}
    (hargs : checkArguments fs (constructPath g.boxPath f.path) f.path f.type = some (fs', ops))
    (before after : Bytes) :
    g.read (Stream.cursor before (f.body ++ after)) fs =
      some ⟨f.readInto g, Stream.cursor (before ++ f.path ++ (f.readInto g).fieldBytes)
        ((if f.type = regularFile then [] else toBigEndian 8 0) ++ after), fs', ops⟩ := by
  have hpath := withPath_path f.path_length g
  have hbpath : (g.withPath f.path).bpath = constructPath g.boxPath f.path :=
    congrArg (constructPath g.boxPath) hpath
  have hfields : f.tail = (f.readInto g).fieldBytes ++
      if f.type = regularFile then [] else toBigEndian 8 0 := by
    rw [tail_eq_ite, hkept, fieldBytes]
    by_cases hregular : f.type = regularFile <;> simp [readInto, hregular]
  have hwhole : f.tail.dropWhile isSpace = f.tail := by
    rw [tail_of_kept hkept]
    simp [hmode]
  have hskipped : (f.tail ++ after).takeWhile isSpace = [] := by
    rw [tail_of_kept hkept]
    simp [hmode]
  rw [read_of_kept hbox hplain hkept, hwhole, hskipped, List.append_nil, hfields,
    List.append_assoc]
  refine readFields_fieldBytes (g := f.readInto g) _ _ (by rw [hbpath, hpath]; exact hargs) ?_
  by_cases hregular : f.type = regularFile
  · exact .inl hregular
  · exact .inr (if_neg hregular)

end Read

theorem readFields_unchanged {s : Stream} {x : Extraction} (h : f.readFields s fs = some x) :
    x.file.path = f.path ∧ x.file.deletedFile = f.deletedFile := by
  simp only [readFields] at h
  split at h
  · simp at h
  · split_ifs at h
    · obtain rfl := Option.some.inj h
      exact ⟨rfl, rfl⟩
    · obtain rfl := Option.some.inj h
      exact ⟨rfl, rfl⟩

theorem readFields_modeByte {before : Bytes} {b c : UInt8} {bs : Bytes} {x : Extraction}
    (h : f.readFields (Stream.cursor before (b :: c :: bs)) fs = some x) :
    x.file.modeByte = b := by
  have hread : (Stream.cursor before (b :: c :: bs)).read 2 =
      ([b, c], Stream.cursor (before ++ [b, c]) bs) :=
    Stream.read_cursor (show [b, c].length = 2 from rfl) before bs
  have hmode : x.file.mode = UInt16.ofNat (ofBigEndian (padTo 2 [b, c])) := by
    simp only [readFields, hread] at h
    split at h
    · simp at h
    · split_ifs at h <;> exact Option.some.inj h ▸ rfl
  have hbytes := ofNat_mode (show [b, c].length = 2 from rfl)
  rw [← hmode] at hbytes
  have hhead := congrArg List.head? hbytes
  simpa [toBigEndian, modeByte] using hhead

/-- The fields of a file that are read are those that were written, the size where the file has
one. -/
structure Extraction.SameAs (x : Extraction) (f : File) : Prop where
  path : x.file.path = f.path
  deleted : x.file.deletedFile = f.deletedFile
  fields : f.deletedFile = false →
    x.file.mode = f.mode ∧ x.file.type = f.type ∧ x.file.mtime = f.mtime
  size : f.deletedFile = false → f.type = regularFile → x.file.size = f.size

/-- The record without the hash, with white space behind it, is read as the file that was
written. -/
def RoundTrips (f g : File) (fs : FileSystem) (blanks : ℕ) : Prop :=
  ∃ x, g.read (Stream.ofBytes (f.write.drop genericHashLen ++ List.replicate blanks space)) fs =
    some x ∧ x.SameAs f

theorem write_drop_hash (f : File) : f.write.drop genericHashLen = f.body := by
  rw [write, ← f.boxHash.length_eq, List.drop_left]

section RoundTrips

variable {blanks : ℕ} (hbox : g.boxPath ≠ [])
include hbox

theorem roundTrips_of_deleted (hdeleted : f.deletedFile = true) (hblanks : 0 < blanks) :
    f.RoundTrips g fs blanks := by
  obtain ⟨n, rfl⟩ := Nat.exists_eq_succ_of_ne_zero hblanks.ne'
  have hspace : ∀ b ∈ (space :: List.replicate n space).head?, isSpace b = true := by
    simp
    decide
  rw [RoundTrips, write_drop_hash, Stream.ofBytes_eq_cursor, List.replicate_succ,
    read_of_deleted hbox hdeleted [] (List.cons_ne_nil _ _) hspace]
  refine ⟨_, rfl, ?_⟩
  obtain ⟨hfile, -⟩ := readDeleted_spec (g.withPath f.path)
    (Stream.cursor ([] ++ f.body) (space :: List.replicate n space)) fs
  refine ⟨?_, ?_, ?_, ?_⟩
  · rw [hfile]
    exact withPath_path f.path_length g
  · rw [hfile, hdeleted]
  · intro hkept
    simp [hdeleted] at hkept
  · intro hkept
    simp [hdeleted] at hkept

theorem roundTrips_of_kept (hplain : f.Plain) (hkept : f.deletedFile = false)
    (hmode : isSpace f.modeByte = false) (htarget : g.deletedFile = false)
    (hargs : (checkArguments fs (constructPath g.boxPath f.path) f.path f.type).isSome = true) :
    f.RoundTrips g fs blanks := by
  obtain ⟨⟨fs', ops⟩, hargs⟩ := Option.isSome_iff_exists.1 hargs
  rw [RoundTrips, write_drop_hash, Stream.ofBytes_eq_cursor,
    read_of_mode hbox hplain hkept hmode hargs]
  exact ⟨_, rfl, withPath_path f.path_length g, htarget.trans hkept.symm,
    fun _ => ⟨rfl, rfl, rfl⟩, fun _ h => if_pos h⟩

theorem modeByte_of_roundTrips (hplain : f.Plain) (hkept : f.deletedFile = false)
    (h : f.RoundTrips g fs blanks) : isSpace f.modeByte = false ∧ g.deletedFile = false := by
  obtain ⟨x, hx, hsame⟩ := h
  rw [write_drop_hash, Stream.ofBytes_eq_cursor, read_of_kept hbox hplain hkept] at hx
  obtain ⟨-, hdeleted⟩ := readFields_unchanged hx
  obtain ⟨b, c, bs, hleft, hspace⟩ := hplain.dropWhile_tail hkept
  rw [hleft, List.cons_append, List.cons_append] at hx
  have hread := readFields_modeByte hx
  rw [modeByte, (hsame.fields hkept).1, ← modeByte] at hread
  exact ⟨hread ▸ hspace, (hdeleted.symm.trans hsame.deleted).trans hkept⟩

/-- The record of a file is read back if and only if the file is to be deleted, or its mode does
not begin with white space and the target is not to be deleted. -/
theorem record_roundTrips_iff (hplain : f.deletedFile = false → f.Plain) (hblanks : 0 < blanks)
    (hargs : f.deletedFile = false →
      (checkArguments fs (constructPath g.boxPath f.path) f.path f.type).isSome = true) :
    f.RoundTrips g fs blanks ↔
      f.deletedFile = true ∨ isSpace f.modeByte = false ∧ g.deletedFile = false := by
  cases hkept : f.deletedFile with
  | true => simp [roundTrips_of_deleted hbox hkept hblanks]
  | false =>
    simp only [Bool.false_eq_true, false_or]
    constructor
    · exact modeByte_of_roundTrips hbox (hplain hkept) hkept
    · intro h
      exact roundTrips_of_kept hbox (hplain hkept) hkept h.1 h.2 (hargs hkept)

end RoundTrips

end File

namespace Sample

def setuid : File := { file 'f' with mode := 0o4644, mtime := 1, size := 5 }

def everywhere : FileSystem := fun _ => some ⟨0o644, regularFile, 0, 0⟩

end Sample

theorem record_roundTrips_iff_sample :
    (Sample.file 'f').RoundTrips (File.blank Sample.dir Sample.box) Sample.everywhere 1 ↔
      (Sample.file 'f').deletedFile = true ∨ isSpace (Sample.file 'f').modeByte = false ∧
        (File.blank Sample.dir Sample.box).deletedFile = false :=
  File.record_roundTrips_iff (by decide) (fun _ => .inl rfl) (by decide)
    (fun _ => by decide +kernel)

theorem record_roundTrips_fails :
    ¬ ∀ (f g : File) (fs : FileSystem) (blanks : ℕ), g.boxPath ≠ [] → g.boxPath = f.boxPath →
      g.boxHash = f.boxHash → f.Plain → f.mode < 0o10000 → 0 < blanks →
      (f.deletedFile = false →
        (File.checkArguments fs (constructPath g.boxPath f.path) f.path f.type).isSome = true) →
      f.RoundTrips g fs blanks := by
  intro h
  have hround := h Sample.setuid (File.blank Sample.dir Sample.box) Sample.everywhere 1 (by decide)
    rfl rfl (.inl rfl) (by decide) (by decide) (fun _ => by decide +kernel)
  have hmode := (File.modeByte_of_roundTrips (by decide) (.inl rfl) rfl hround).1
  exact absurd hmode (by decide)

namespace File

variable {f g : File} {fs : FileSystem} {before after : Bytes}

/-- The file is read, and then the stream stands at what follows the record. -/
def Framed (f g : File) (fs : FileSystem) (before after : Bytes) : Prop :=
  ∃ x, g.read (Stream.cursor before (f.body ++ after)) fs = some x ∧
    x.sstream = Stream.cursor (before ++ f.body) after

/-- The records at whose end the reader stops. -/
def Stops (f g : File) (fs : FileSystem) (after : Bytes) : Prop :=
  if f.deletedFile then ∀ b ∈ after.head?, isSpace b = true
  else f.type = regularFile ∧ isSpace f.modeByte = false ∧
    (checkArguments fs (constructPath g.boxPath f.path) f.path f.type).isSome = true

theorem length_fieldBytes (f : File) :
    f.fieldBytes.length = if f.type = regularFile then 15 else 7 := by
  rw [fieldBytes]
  split_ifs <;> simp

theorem Plain.length_dropWhile (h : f.Plain) (hkept : f.deletedFile = false) :
    13 ≤ (f.tail.dropWhile isSpace).length := by
  have hspace := h.not_space
  rw [tail_of_kept hkept]
  generalize UInt8.ofNat f.mode.toNat = low
  cases hhigh : isSpace f.modeByte <;> cases hlow : isSpace low <;> simp [hhigh, hlow, hspace]

theorem length_tail (hkept : f.deletedFile = false) : f.tail.length = 15 := by
  simp [tail_of_kept hkept]

theorem fieldBytes_of_readFields {e : File} {s : Stream} {x : Extraction} {bs : Bytes}
    (hx : e.readFields s fs = some x) (hs : s.rest = bs ++ after)
    (hstands : x.sstream = Stream.cursor (before ++ f.body) after) :
    bs = x.file.fieldBytes := by
  obtain ⟨-, hrest, -⟩ := readFields_whole hx (by rw [hstands]; rfl)
  rw [hstands, Stream.cursor_rest, hs] at hrest
  exact List.append_cancel_right hrest

section Framed

variable (hbox : g.boxPath ≠ [])
include hbox

theorem framed_of_kept (hplain : f.Plain) (hkept : f.deletedFile = false)
    (hregular : f.type = regularFile) (hmode : isSpace f.modeByte = false)
    (hargs : (checkArguments fs (constructPath g.boxPath f.path) f.path f.type).isSome = true) :
    f.Framed g fs before after := by
  obtain ⟨⟨fs', ops⟩, hargs⟩ := Option.isSome_iff_exists.1 hargs
  have hbody : f.body = f.path ++ (f.readInto g).fieldBytes := by
    rw [body, hkept, fieldBytes]
    simp [readInto, hregular]
  rw [Framed, read_of_mode hbox hplain hkept hmode hargs]
  refine ⟨_, rfl, ?_⟩
  simp only [if_pos hregular, List.nil_append, hbody, List.append_assoc]

theorem framed_of_deleted (hdeleted : f.deletedFile = true) (hne : after ≠ [])
    (hspace : ∀ b ∈ after.head?, isSpace b = true) : f.Framed g fs before after := by
  refine ⟨_, read_of_deleted hbox hdeleted before hne hspace, ?_⟩
  exact (readDeleted_spec _ _ _).2

theorem kept_of_framed (hplain : f.Plain) (hkept : f.deletedFile = false)
    (h : f.Framed g fs before after) :
    f.type = regularFile ∧ isSpace f.modeByte = false ∧
      (checkArguments fs (constructPath g.boxPath f.path) f.path f.type).isSome = true := by
  obtain ⟨x, hx, hstands⟩ := h
  rw [read_of_kept hbox hplain hkept] at hx
  obtain ⟨-, -, -, hargs, -⟩ := readFields_whole hx (by rw [hstands]; rfl)
  have hbytes := fieldBytes_of_readFields hx (Stream.cursor_rest _ _) hstands
  have hlong := hplain.length_dropWhile hkept
  have hlen := length_fieldBytes x.file
  rw [← hbytes] at hlen
  have hregular : x.file.type = regularFile := by
    by_contra hother
    rw [if_neg hother] at hlen
    omega
  rw [if_pos hregular] at hlen
  have hwhole : f.tail.dropWhile isSpace = f.tail :=
    (List.dropWhile_suffix isSpace).eq_of_length (hlen.trans (length_tail hkept).symm)
  rw [hwhole, tail_of_kept hkept, fieldBytes] at hbytes
  have htype : f.type = x.file.type := by
    simp only [toBigEndian, List.cons_append, List.nil_append, List.cons.injEq] at hbytes
    exact hbytes.2.2.1
  obtain ⟨b, c, bs, hleft, hspace⟩ := hplain.dropWhile_tail hkept
  have hsplit := tail_of_kept hkept
  rw [← hwhole, hleft, List.cons.injEq] at hsplit
  refine ⟨htype.trans hregular, hsplit.1 ▸ hspace, ?_⟩
  have hpath := withPath_path f.path_length g
  have hbpath : (g.withPath f.path).bpath = constructPath g.boxPath f.path :=
    congrArg (constructPath g.boxPath) hpath
  rwa [hpath, hbpath, ← htype] at hargs

theorem space_of_framed (hdeleted : f.deletedFile = true) (h : f.Framed g fs before after) :
    ∀ b ∈ after.head?, isSpace b = true := by
  intro b hb
  by_contra hspace
  rw [Bool.not_eq_true] at hspace
  obtain ⟨bs, rfl⟩ : ∃ bs, after = b :: bs := by
    cases after with
    | nil => simp at hb
    | cons c cs => exact ⟨cs, by rw [Option.some.inj hb]⟩
  obtain ⟨x, hx, hstands⟩ := h
  have hstart : (inDelete ++ b :: bs).dropWhile isSpace = inDelete ++ b :: bs := by
    simp [inDelete, ascii, isSpace]
  have hword : firstWord (inDelete ++ b :: bs) ≠ inDelete := by
    have hletters : ∀ c ∈ inDelete, (!isSpace c) = true := by decide +kernel
    rw [firstWord, hstart, List.takeWhile_append_of_pos hletters]
    simp [hspace]
  have hleft : (inDelete ++ b :: bs).dropWhile isSpace ≠ [] := by
    rw [hstart]
    simp
  have hseek := Stream.extractWord_seekBack hleft (before ++ f.path)
  rw [read_body hbox, tail_of_deleted hdeleted] at hx
  simp only [if_neg hword] at hx
  rw [hseek, hstart] at hx
  have hbytes := fieldBytes_of_readFields hx (Stream.cursor_rest _ _) hstands
  have hlen := length_fieldBytes x.file
  rw [← hbytes] at hlen
  split_ifs at hlen
  · simp [inDelete, ascii] at hlen
  · simp [inDelete, ascii] at hlen

theorem framed_iff (hplain : f.deletedFile = false → f.Plain) (hne : after ≠ []) :
    f.Framed g fs before after ↔ f.Stops g fs after := by
  rw [Stops]
  split_ifs with hdeleted
  · exact ⟨space_of_framed hbox hdeleted, framed_of_deleted hbox hdeleted hne⟩
  · rw [Bool.not_eq_true] at hdeleted
    constructor
    · exact kept_of_framed hbox (hplain hdeleted) hdeleted
    · rintro ⟨hregular, hmode, hargs⟩
      exact framed_of_kept hbox (hplain hdeleted) hdeleted hregular hmode hargs

end Framed

end File

namespace File

variable {f g : File} {fs : FileSystem} {before after : Bytes} {x : Extraction}

/-- The record leaves a file whose mode and size can be set. -/
def Writes (f g : File) (fs : FileSystem) : Prop :=
  f.deletedFile = false ∧
    ∀ st ∈ fs.stat (constructPath g.boxPath f.path), st.type = regularFile

theorem readDeleted_not_exist (e : File) (s : Stream) (fs : FileSystem) :
    (e.readDeleted s fs).file.exist (e.readDeleted s fs).fs = false := by
  unfold readDeleted
  split_ifs with hexist
  · simp [exist, FileSystem.exist, FileSystem.stat, FileSystem.set]
  · simpa [exist] using hexist

/-- A regular file is there behind `checkArguments`, unless something else had the path. -/
theorem writes_of_checkArguments {fs' : FileSystem} {ops : List FileOp} {bpath path : Bytes}
    (h : checkArguments fs bpath path regularFile = some (fs', ops)) :
    fs'.exist bpath = true ∧ ((fs'.stat bpath).any (·.type == regularFile) = true ↔
      ∀ st ∈ fs.stat bpath, st.type = regularFile) := by
  unfold checkArguments at h
  simp only at h
  split_ifs at h with hexist hparent hparent
  · obtain ⟨rfl, -⟩ := Prod.mk.inj (Option.some.inj h)
    obtain ⟨st, hst⟩ := Option.isSome_iff_exists.1 hexist
    exact ⟨hexist, by simp [hst]⟩
  all_goals
    obtain ⟨rfl, -⟩ := Prod.mk.inj (Option.some.inj h)
    have hnone : fs.stat bpath = none := by simpa [FileSystem.exist] using hexist
    rw [hnone]
    simp [FileSystem.exist, FileSystem.stat, FileSystem.set]

section Writes

variable (hbox : g.boxPath ≠ [])
include hbox

theorem writes_iff (hplain : f.deletedFile = false → f.Plain) (hstops : f.Stops g fs after)
    (hne : after ≠ []) (hx : g.read (Stream.cursor before (f.body ++ after)) fs = some x) :
    x.file.exist x.fs = true ∧ x.file.resizes x.fs = true ↔ f.Writes g fs := by
  rw [Stops] at hstops
  rw [Writes]
  cases hdeleted : f.deletedFile with
  | true =>
    rw [if_pos hdeleted] at hstops
    rw [read_of_deleted hbox hdeleted before hne hstops] at hx
    obtain rfl := Option.some.inj hx
    simp [readDeleted_not_exist]
  | false =>
    rw [if_neg (by simp [hdeleted])] at hstops
    obtain ⟨hregular, hmode, hargs⟩ := hstops
    obtain ⟨⟨fs', ops⟩, hargs⟩ := Option.isSome_iff_exists.1 hargs
    rw [read_of_mode hbox (hplain hdeleted) hdeleted hmode hargs] at hx
    obtain rfl := Option.some.inj hx
    rw [hregular] at hargs
    obtain ⟨hexist, hresizes⟩ := writes_of_checkArguments hargs
    have hbpath : (f.readInto g).bpath = constructPath g.boxPath f.path :=
      congrArg (constructPath g.boxPath) (withPath_path f.path_length g)
    have htype : (f.readInto g).type = regularFile := hregular
    simp only [exist, resizes, hbpath, htype, hexist, bne_self_eq_false, Bool.false_or, hresizes,
      true_and]

end Writes

end File

theorem writeMetadata_isOk (newFile : File) (fr : Frame) :
    (∃ fr', writeMetadata newFile fr = .ok fr') ↔ fr.bo.fileMetadataWritten = true ∨
      newFile.exist fr.fs = true ∧ newFile.resizes fr.fs = true := by
  unfold writeMetadata
  cases fr.bo.fileMetadataWritten with
  | true => simp
  | false =>
    by_cases h : newFile.exist fr.fs = true ∧ newFile.resizes fr.fs = true
    · simp [h]
    · simp [h]

/-- The 130 is forwarded with the offset that the stream stands at, if the metadata is written or
need not be. -/
theorem announcement_forwards_iff {fr : Frame} {f : File} {dir before after : Bytes}
    {offset : UInt64} {b : UInt8} {x : File.Extraction}
    (hstate : fr.bo.state = .promotingNewFileMetadata)
    (hnotified : fr.bo.notifiedDispatch = false) (hdir : fr.bo.baseDir f.boxHash = some dir)
    (hstream : fr.sstream =
      Stream.cursor before (b :: (f.write ++ (timingBytes offset ++ after))))
    (hx : (File.blank dir f.boxHash).read (Stream.cursor (before ++ b :: f.boxHash.bytes)
      (f.body ++ (timingBytes offset ++ after))) fr.fs = some x)
    (hstands : x.sstream = Stream.cursor ((before ++ b :: f.boxHash.bytes) ++ f.body)
      (timingBytes offset ++ after)) :
    (∃ fr', receivedNewFileMetadata fr = .next fr' ∧
      fr'.out.getLast? = some (.dispatcher .s130 (timingBytes offset))) ↔
    fr.bo.fileMetadataWritten = true ∨
      x.file.exist x.fs = true ∧ x.file.resizes x.fs = true := by
  have hseek : (fr.sstream.seekCur 1) =
      Stream.cursor (before ++ [b])
        (f.boxHash.bytes ++ (f.body ++ (timingBytes offset ++ after))) := by
    have hone : [b].length = 1 := rfl
    rw [hstream, File.write, List.append_assoc]
    exact Stream.seekCur_cursor hone before _
  have hhash := Stream.read_cursor f.boxHash.length_eq (before ++ [b])
    (f.body ++ (timingBytes offset ++ after))
  have hread : announcedFile fr = .ok (x.file, { fr with
      sstream := x.sstream, fs := x.fs, out := fr.out ++ x.ops.map .disk }) := by
    have hbefore : before ++ [b] ++ f.boxHash.bytes = before ++ b :: f.boxHash.bytes := by simp
    simp only [announcedFile, hseek, hhash, Hash.ofBytes_bytes, hdir, hbefore, hx]
  have htiming : (x.sstream.read 8).1 = timingBytes offset := by
    rw [hstands, Stream.read_cursor (timingBytes_length offset)]
  rw [receivedNewFileMetadata, if_pos ⟨hstate, by simp [hnotified]⟩]
  simp only [hread]
  set fr₁ : Frame := { fr with
    sstream := x.sstream, fs := x.fs, out := fr.out ++ x.ops.map .disk } with hfr₁
  have hwritten := writeMetadata_isOk x.file fr₁
  have hpad := padTo_of_length (timingBytes_length offset)
  cases hwrite : writeMetadata x.file fr₁ with
  | error e =>
    rw [hwrite] at hwritten
    simpa using hwritten
  | ok fr₂ =>
    have hstream₂ : fr₂.sstream = x.sstream := by
      rcases writeMetadata_ok hwrite with ⟨-, rfl⟩ | ⟨-, -, rfl⟩
      · rfl
      · rfl
    rw [hwrite] at hwritten
    refine iff_of_true ⟨_, rfl, ?_⟩ (hwritten.1 ⟨fr₂, rfl⟩)
    simp [Frame.send, hstream₂, htiming, hpad]

/-- The heartbeat with the file at the front of the deque: when it arrives behind one byte, with
anything behind it, the reader stops at the offset, and the offset is forwarded, if and only if the
record is one of those at whose end the reader stops, and its metadata has been written or can
be. -/
theorem announced_offset_iff {sender sent fr : Frame} {newState : State} {payload : Bytes}
    {p : FilePtr} {ps : List FilePtr} {dir before trail : Bytes} {b : UInt8}
    (hsends : newState = .sendingNewFileMetadata ∨ newState = .sendingNewFileMetadataWithMore)
    (hfront : sender.bo.fileListData = p :: ps)
    (hprepare : prepareHeartbeatMessage sender newState = .ok (payload, sent))
    (hplain : p.file.deletedFile = false → p.file.Plain)
    (hstate : fr.bo.state = .promotingNewFileMetadata) (hnotified : fr.bo.notifiedDispatch = false)
    (hdir : fr.bo.baseDir p.file.boxHash = some dir) (hbox : dir ≠ [])
    (hstream : fr.sstream = Stream.cursor before (b :: (payload ++ trail))) :
    let offset := timingBytes sender.bo.currentTimingOffset
    let target := File.blank dir p.file.boxHash
    (p.file.Framed target fr.fs (before ++ b :: p.file.boxHash.bytes) (offset ++ trail) ∧
        ∃ fr', receivedNewFileMetadata fr = .next fr' ∧
          fr'.out.getLast? = some (.dispatcher .s130 offset)) ↔
      p.file.Stops target fr.fs offset ∧
        (fr.bo.fileMetadataWritten = true ∨ p.file.Writes target fr.fs) := by
  intro offset target
  have hpayload : payload = p.file.write ++ offset := by
    simp only [prepareHeartbeatMessage, if_pos hsends, hfront] at hprepare
    exact (Prod.mk.inj (Except.ok.inj hprepare)).1.symm
  have hhead : (offset ++ trail).head? = offset.head? := by
    simp [offset, timingBytes, toBigEndian]
  have hne : offset ++ trail ≠ [] := by
    simp [offset, timingBytes, toBigEndian]
  have hframed : p.file.Framed target fr.fs (before ++ b :: p.file.boxHash.bytes)
      (offset ++ trail) ↔ p.file.Stops target fr.fs (offset ++ trail) :=
    File.framed_iff hbox hplain hne
  have hstops : p.file.Stops target fr.fs (offset ++ trail) ↔ p.file.Stops target fr.fs offset := by
    rw [File.Stops, File.Stops, hhead]
  rw [← hstops]
  have hforwards (h : p.file.Stops target fr.fs (offset ++ trail)) :
      (∃ fr', receivedNewFileMetadata fr = .next fr' ∧
        fr'.out.getLast? = some (.dispatcher .s130 offset)) ↔
      fr.bo.fileMetadataWritten = true ∨ p.file.Writes target fr.fs := by
    obtain ⟨x, hx, hstands⟩ := hframed.2 h
    rw [← File.writes_iff hbox hplain h hne hx]
    refine announcement_forwards_iff hstate hnotified hdir ?_ hx hstands
    rw [hstream, hpayload, List.append_assoc]
  constructor
  · rintro ⟨hf, hforwarded⟩
    have h := hframed.1 hf
    exact ⟨h, (hforwards h).1 hforwarded⟩
  · rintro ⟨h, hwrites⟩
    exact ⟨hframed.2 h, (hforwards h).2 hwrites⟩

namespace Sample

def sender (f : File) : Frame :=
  queueFile (Frame.start (start []) .s300 (Stream.ofBytes []) env) f

def receiver (f : File) (trail : Bytes) : Frame :=
  Frame.start { start [] with state := .promotingNewFileMetadata } .s130
    (Stream.cursor [] (space :: (f.write ++ timingBytes (sender f).bo.currentTimingOffset ++ trail)))
    env

end Sample

theorem announced_offset_iff_sample :
    let f := Sample.file 'f'
    let offset := timingBytes (Sample.sender f).bo.currentTimingOffset
    let fr := Sample.receiver f [space]
    let target := File.blank Sample.dir Sample.box
    (f.Framed target fr.fs (space :: Sample.box.bytes) (offset ++ [space]) ∧
        ∃ fr', receivedNewFileMetadata fr = .next fr' ∧
          fr'.out.getLast? = some (.dispatcher .s130 offset)) ↔
      f.Stops target fr.fs offset ∧
        (fr.bo.fileMetadataWritten = true ∨ f.Writes target fr.fs) :=
  @announced_offset_iff (Sample.sender (Sample.file 'f')) _
    (Sample.receiver (Sample.file 'f') [space]) _ _ ⟨0, Sample.file 'f'⟩ [] Sample.dir [] [space]
    space (.inl rfl) rfl rfl (fun _ => .inl rfl) rfl rfl rfl (by decide) rfl

/-- A mode that begins with a tab moves the reader one byte on. -/
theorem announced_offset_fails :
    ¬ ∀ (sender sent fr : Frame) (payload : Bytes) (p : FilePtr) (ps : List FilePtr)
      (dir before trail : Bytes) (b : UInt8), sender.bo.fileListData = p :: ps →
      prepareHeartbeatMessage sender .sendingNewFileMetadata = .ok (payload, sent) →
      p.file.Plain → fr.bo.state = .promotingNewFileMetadata → fr.bo.notifiedDispatch = false →
      fr.bo.baseDir p.file.boxHash = some dir → dir ≠ [] →
      fr.sstream = Stream.cursor before (b :: (payload ++ trail)) →
      p.file.Framed (File.blank dir p.file.boxHash) fr.fs (before ++ b :: p.file.boxHash.bytes)
        (timingBytes sender.bo.currentTimingOffset ++ trail) := by
  intro h
  have hframed := h (Sample.sender Sample.setuid) _ (Sample.receiver Sample.setuid [space])
    (Sample.setuid.write ++ timingBytes (Sample.sender Sample.setuid).bo.currentTimingOffset)
    ⟨0, Sample.setuid⟩ [] Sample.dir [] [space] space rfl rfl (.inl rfl) rfl rfl rfl (by decide) rfl
  have hmode := (File.kept_of_framed (by decide) (.inl rfl) rfl hframed).2.1
  exact absurd hmode (by decide)

end Flocksy
