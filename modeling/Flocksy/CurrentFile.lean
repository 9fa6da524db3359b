import Flocksy.LocalNotifications
import Flocksy.ReceivedMetadata

/-!
# Files that are handed on

A file goes from one part of the program to another as the text of `operator<<` without
its first 32 bytes. The text begins with a hash of 64 bytes, so what is cut off is one half of
it, and the reader takes the other half for the beginning of the path. This holds for the
file that the boxoffice keeps for the data packages and for the one that it sends to the
dispatcher; the records that are read as they were written are those that happen to repeat
themselves.
-/

namespace Flocksy

open ByteStream Fsm Runs

namespace File

def withPath (f : File) (path : Bytes) : File :=
  { f with
    path := padTo maximumPathLength path
    path_length := padTo_length _ _
    bpath := constructPath f.boxPath (padTo maximumPathLength path) }

/-- What `istream >> f` reads behind the path of a file that stays. -/
def readFields (f : File) (s : Stream) (fs : FileSystem) : Option Extraction :=
  let (modeC, s) := s.read 2
  let (typeC, s) := s.read 1
  let (mtimeC, s) := s.read 4
  let type := UInt8.ofNat (ofBigEndian (padTo 1 typeC))
  let f := { f with
    mode := UInt16.ofNat (ofBigEndian (padTo 2 modeC))
    type := type
    mtime := UInt32.ofNat (ofBigEndian (padTo 4 mtimeC)) }
  match checkArguments fs f.bpath f.path type with
  | none => none
  | some (fs, ops) =>
    if type = regularFile then
      let (sizeC, s) := s.read 8
      some ⟨{ f with size := UInt64.ofNat (ofBigEndian (padTo 8 sizeC)) }, s, fs, ops⟩
    else some ⟨f, s, fs, ops⟩

/-- The file that `istream >> f` reads when the record says so is to be deleted. -/
def readDeleted (f : File) (s : Stream) (fs : FileSystem) : Extraction :=
  if fs.exist f.bpath then
    ⟨{ f with deletedFile := true }, s, fs.set f.bpath none, [.remove f.bpath]⟩
  else ⟨{ f with deletedFile := true }, s, fs, []⟩

theorem read_eq {f : File} (hbox : f.boxPath ≠ []) (s : Stream) (fs : FileSystem) :
    f.read s fs =
      let path := s.read maximumPathLength
      let word := path.2.extractWord
      if word.1 = inDelete then some ((f.withPath path.1).readDeleted word.2 fs)
      else (f.withPath path.1).readFields (word.2.seekCur (-word.1.length)) fs := by
  unfold File.read
  rw [if_neg hbox]
  by_cases hdeleted : (s.read maximumPathLength).2.extractWord.1 = inDelete
  · simp only [if_pos hdeleted]
    split_ifs with hexist
    · exact congrArg some (if_pos hexist).symm
    · exact congrArg some (if_neg hexist).symm
  · simp only [if_neg hdeleted]
    rfl

def fieldBytes (f : File) : Bytes :=
  toBigEndian 2 f.mode.toNat ++ ([f.type] ++ (toBigEndian 4 f.mtime.toNat ++
    if f.type = regularFile then toBigEndian 8 f.size.toNat else []))

/-- The record was read to its end and says of the file what it is. When a read falls short the
source takes the rest from memory that it has not set. -/
structure Extraction.ReadsAs (x : Extraction) (f : File) : Prop where
  path : x.file.path = f.path
  mode : x.file.mode = f.mode
  type : x.file.type = f.type
  mtime : x.file.mtime = f.mtime
  size : x.file.size = f.size
  whole : x.sstream.fail = false

theorem Extraction.ReadsAs.fieldBytes_eq {x : Extraction} {f : File} (h : x.ReadsAs f) :
    x.file.fieldBytes = f.fieldBytes := by
  simp only [fieldBytes, h.mode, h.type, h.mtime, h.size]

theorem ofNat_byte {bs : Bytes} (h : bs.length = 1) :
    [UInt8.ofNat (ofBigEndian (padTo 1 bs))] = bs := by
  obtain ⟨b, rfl⟩ := List.length_eq_one_iff.1 h
  simp [padTo_of_length h, ofBigEndian]

theorem ofNat_mode {bs : Bytes} (h : bs.length = 2) :
    toBigEndian 2 (UInt16.ofNat (ofBigEndian (padTo 2 bs))).toNat = bs := by
  have hlt := ofBigEndian_lt bs
  rw [h] at hlt
  rw [padTo_of_length h, UInt16.toNat_ofNat', Nat.mod_eq_of_lt (hlt.trans_eq (by norm_num))]
  exact (eq_toBigEndian h rfl).symm

theorem ofNat_mtime {bs : Bytes} (h : bs.length = 4) :
    toBigEndian 4 (UInt32.ofNat (ofBigEndian (padTo 4 bs))).toNat = bs := by
  have hlt := ofBigEndian_lt bs
  rw [h] at hlt
  rw [padTo_of_length h, UInt32.toNat_ofNat', Nat.mod_eq_of_lt (hlt.trans_eq (by norm_num))]
  exact (eq_toBigEndian h rfl).symm

theorem ofNat_size {bs : Bytes} (h : bs.length = 8) :
    toBigEndian 8 (UInt64.ofNat (ofBigEndian (padTo 8 bs))).toNat = bs := by
  have hlt := ofBigEndian_lt bs
  rw [h] at hlt
  rw [padTo_of_length h, UInt64.toNat_ofNat', Nat.mod_eq_of_lt (hlt.trans_eq (by norm_num))]
  exact (eq_toBigEndian h rfl).symm

theorem readFields_whole {f : File} {s : Stream} {fs : FileSystem} {x : Extraction}
    (h : f.readFields s fs = some x) (hfail : x.sstream.fail = false) :
    s.good = true ∧ s.rest = x.file.fieldBytes ++ x.sstream.rest ∧ x.file.path = f.path ∧
      (checkArguments fs f.bpath f.path x.file.type).isSome = true ∧
      (x.file.type = regularFile ∨ x.file.size = f.size) := by
  rcases hmode : s.read 2 with ⟨modeC, s₁⟩
  rcases htype : s₁.read 1 with ⟨typeC, s₂⟩
  rcases hmtime : s₂.read 4 with ⟨mtimeC, s₃⟩
  rcases hsize : s₃.read 8 with ⟨sizeC, s₄⟩
  simp only [readFields, hmode, htype, hmtime, hsize] at h
  cases hargs : checkArguments fs f.bpath f.path (UInt8.ofNat (ofBigEndian (padTo 1 typeC))) with
  | none => simp [hargs] at h
  | some args =>
    simp only [hargs] at h
    have hfields (hfail₃ : s₃.fail = false) : s.good = true ∧
        s.rest = modeC ++ (typeC ++ (mtimeC ++ s₃.rest)) ∧ modeC.length = 2 ∧
        typeC.length = 1 ∧ mtimeC.length = 4 := by
      obtain ⟨hgood₂, -, hlen₃, hrest₂⟩ := Stream.read_whole hmtime hfail₃
      obtain ⟨hgood₁, -, hlen₂, hrest₁⟩ := Stream.read_whole htype (Stream.fail_of_good hgood₂)
      obtain ⟨hgood, -, hlen₁, hrest⟩ := Stream.read_whole hmode (Stream.fail_of_good hgood₁)
      exact ⟨hgood, by rw [hrest, hrest₁, hrest₂], hlen₁, hlen₂, hlen₃⟩
    by_cases hregular : UInt8.ofNat (ofBigEndian (padTo 1 typeC)) = regularFile
    · rw [if_pos hregular] at h
      obtain rfl := Option.some.inj h
      obtain ⟨hgood₃, -, hlen₄, hrest₃⟩ := Stream.read_whole hsize hfail
      obtain ⟨hgood, hrest, hlen₁, hlen₂, hlen₃⟩ := hfields (Stream.fail_of_good hgood₃)
      refine ⟨hgood, ?_, rfl, by simp [hargs], .inl hregular⟩
      simp only [fieldBytes, if_pos hregular, ofNat_mode hlen₁, ofNat_byte hlen₂,
        ofNat_mtime hlen₃, ofNat_size hlen₄, hrest, hrest₃, List.append_assoc]
    · rw [if_neg hregular] at h
      obtain rfl := Option.some.inj h
      obtain ⟨hgood, hrest, hlen₁, hlen₂, hlen₃⟩ := hfields hfail
      refine ⟨hgood, ?_, rfl, by simp [hargs], .inr rfl⟩
      simp only [fieldBytes, if_neg hregular, ofNat_mode hlen₁, ofNat_byte hlen₂,
        ofNat_mtime hlen₃, hrest, List.append_assoc, List.nil_append]

theorem readFields_fieldBytes {f g : File} {fs fs' : FileSystem} {ops : List FileOp}
    (before after : Bytes) (hargs : checkArguments fs f.bpath f.path g.type = some (fs', ops))
    (hsize : g.type = regularFile ∨ g.size = f.size) :
    f.readFields (Stream.cursor before (g.fieldBytes ++ after)) fs =
      some ⟨{ f with mode := g.mode, type := g.type, mtime := g.mtime, size := g.size },
        Stream.cursor (before ++ g.fieldBytes) after, fs', ops⟩ := by
  have hmode : UInt16.ofNat (ofBigEndian (padTo 2 (toBigEndian 2 g.mode.toNat))) = g.mode := by
    rw [padTo_of_length (toBigEndian_length 2 _), ofBigEndian_toBigEndian,
      Nat.mod_eq_of_lt (by simpa using g.mode.toNat_lt), UInt16.ofNat_toNat]
  have htype : UInt8.ofNat (ofBigEndian (padTo 1 [g.type])) = g.type := by
    simp [padTo_of_length (show [g.type].length = 1 from rfl), ofBigEndian]
  have hmtime : UInt32.ofNat (ofBigEndian (padTo 4 (toBigEndian 4 g.mtime.toNat))) = g.mtime := by
    rw [padTo_of_length (toBigEndian_length 4 _), ofBigEndian_toBigEndian,
      Nat.mod_eq_of_lt (by simpa using g.mtime.toNat_lt), UInt32.ofNat_toNat]
  have hsize' : UInt64.ofNat (ofBigEndian (padTo 8 (toBigEndian 8 g.size.toNat))) = g.size := by
    rw [padTo_of_length (toBigEndian_length 8 _), ofBigEndian_toBigEndian,
      Nat.mod_eq_of_lt (by simpa using g.size.toNat_lt), UInt64.ofNat_toNat]
  simp only [readFields, fieldBytes, List.append_assoc]
  rw [Stream.read_cursor (toBigEndian_length 2 _)]
  simp only
  rw [Stream.read_cursor (show [g.type].length = 1 from rfl)]
  simp only
  rw [Stream.read_cursor (toBigEndian_length 4 _)]
  simp only [htype, hargs, hmode, hmtime]
  by_cases hregular : g.type = regularFile
  · simp only [if_pos hregular]
    rw [Stream.read_cursor (toBigEndian_length 8 _)]
    simp only [hsize', List.append_assoc]
  · simp only [if_neg hregular, hsize.resolve_left hregular, List.nil_append, List.append_nil,
      List.append_assoc]

theorem readDeleted_spec (g : File) (s : Stream) (fs : FileSystem) :
    (g.readDeleted s fs).file = { g with deletedFile := true } ∧
      (g.readDeleted s fs).sstream = s := by
  unfold readDeleted
  split_ifs <;> exact ⟨rfl, rfl⟩

theorem extractWord_rest {before after word : Bytes} (hword : firstWord after = word) :
    (Stream.cursor before after).extractWord.2.rest =
      (after.dropWhile isSpace).drop word.length := by
  have hsplit : (before ++ after).drop (before.length + (after.takeWhile isSpace).length) =
      after.dropWhile isSpace := by
    rw [← List.drop_drop, List.drop_left, Stream.drop_takeWhile]
  rw [Stream.extractWord_cursor_eq, ← hword, firstWord, ← hsplit, List.drop_drop]
  rfl

theorem read_cursor_eq {g : File} (hbox : g.boxPath ≠ []) {path : Bytes}
    (hpath : path.length = maximumPathLength) (fs : FileSystem) (before after : Bytes) :
    g.read (Stream.cursor before (path ++ after)) fs =
      let word := (Stream.cursor (before ++ path) after).extractWord
      if firstWord after = inDelete then some ((g.withPath path).readDeleted word.2 fs)
      else (g.withPath path).readFields (word.2.seekCur (-word.1.length)) fs := by
  have hword : (Stream.cursor (before ++ path) after).extractWord.1 = firstWord after := by
    rw [Stream.extractWord_good (Stream.cursor_good _ _), Stream.cursor_rest, firstWord]
  rw [read_eq hbox, Stream.read_cursor hpath]
  simp only [hword]

section Read

variable {f : File} {dir : Bytes} {hash : Hash} {fs : FileSystem} {path : Bytes}
  (hdir : dir ≠ []) (hpath : path.length = maximumPathLength)
include hdir hpath

omit hdir in
theorem withPath_path (g : File) : (g.withPath path).path = path := padTo_of_length hpath

/-- The bytes that are read behind the path are those of the file, and `left` comes after them. -/
def Follows (f : File) (dir : Bytes) (fs : FileSystem) (after left : Bytes) : Prop :=
  if firstWord after = inDelete then
    f.mode = 0 ∧ f.type = 0 ∧ f.mtime = 0 ∧ f.size = 0 ∧
      (after.dropWhile isSpace).drop inDelete.length = left
  else
    after.dropWhile isSpace = f.fieldBytes ++ left ∧ (f.type = regularFile ∨ f.size = 0) ∧
      (checkArguments fs (constructPath dir f.path) f.path f.type).isSome = true

theorem readDeleted_iff {before after left : Bytes} (hword : firstWord after = inDelete) :
    (∃ x, (blank dir hash).read (Stream.cursor before (path ++ after)) fs = some x ∧
      x.ReadsAs f ∧ x.sstream.rest = left) ↔
    path = f.path ∧ f.Follows dir fs after left := by
  have hwith := withPath_path hpath (blank dir hash)
  obtain ⟨hfile, hstream⟩ := readDeleted_spec ((blank dir hash).withPath path)
    (Stream.cursor (before ++ path) after).extractWord.2 fs
  rw [read_cursor_eq (g := blank dir hash) hdir hpath, Follows, if_pos hword, if_pos hword]
  constructor
  · rintro ⟨x, hx, hreads, hleft⟩
    obtain rfl := Option.some.inj hx
    obtain ⟨hfpath, hmode, htype, hmtime, hsize, -⟩ := hreads
    rw [hfile] at hfpath hmode htype hmtime hsize
    rw [hstream, extractWord_rest hword] at hleft
    exact ⟨hwith.symm.trans hfpath, hmode.symm, htype.symm, hmtime.symm, hsize.symm, hleft⟩
  · rintro ⟨hsame, hmode, htype, hmtime, hsize, hleft⟩
    refine ⟨_, rfl, ⟨?_, ?_, ?_, ?_, ?_, ?_⟩, ?_⟩
    · rw [hfile]
      exact hwith.trans hsame
    · rw [hfile, hmode]
      rfl
    · rw [hfile, htype]
      rfl
    · rw [hfile, hmtime]
      rfl
    · rw [hfile, hsize]
      rfl
    · rw [hstream, Stream.extractWord_cursor_eq]
      have hne : (after.dropWhile isSpace).takeWhile (!isSpace ·) ≠ [] := by
        rw [← firstWord, hword]
        decide
      simpa using hne
    · rw [hstream, extractWord_rest hword, hleft]

theorem read_iff {before after left : Bytes} :
    (∃ x, (blank dir hash).read (Stream.cursor before (path ++ after)) fs = some x ∧
      x.ReadsAs f ∧ x.sstream.rest = left) ↔
    path = f.path ∧ f.Follows dir fs after left := by
  by_cases hdeleted : firstWord after = inDelete
  · exact readDeleted_iff hdir hpath hdeleted
  have hwith := withPath_path hpath (blank dir hash)
  have hbpath : ((blank dir hash).withPath path).bpath = constructPath dir path :=
    congrArg (constructPath dir) (padTo_of_length hpath)
  rw [read_cursor_eq (g := blank dir hash) hdir hpath, Follows, if_neg hdeleted, if_neg hdeleted]
  constructor
  · rintro ⟨x, hx, hreads, hleft⟩
    obtain ⟨hgood, hrest, hxpath, hargs, hsize⟩ := readFields_whole hx hreads.whole
    have hne : after.dropWhile isSpace ≠ [] := by
      intro hblank
      obtain ⟨-, hfail⟩ := Stream.extractWord_blank hblank (before ++ path)
      have hgo := Stream.fail_of_good hgood
      rw [Stream.seekCur_of_fail _ hfail] at hgo
      exact absurd hgo (by decide)
    rw [Stream.extractWord_seekBack hne, Stream.cursor_rest, hreads.fieldBytes_eq, hleft] at hrest
    have hsame : path = f.path := by rw [← hreads.path, hxpath, hwith]
    rw [hbpath, hwith, hreads.type, hsame] at hargs
    rw [hreads.type, hreads.size] at hsize
    exact ⟨hsame, hrest, hsize, hargs⟩
  · rintro ⟨rfl, hrest, hsize, hargs⟩
    obtain ⟨⟨fs', ops⟩, hargs⟩ := Option.isSome_iff_exists.1 hargs
    have hne : after.dropWhile isSpace ≠ [] := by
      rw [hrest, fieldBytes]
      simp [toBigEndian]
    have hargs' : checkArguments fs ((blank dir hash).withPath f.path).bpath
        ((blank dir hash).withPath f.path).path f.type = some (fs', ops) := by rwa [hbpath, hwith]
    have hx := readFields_fieldBytes (before ++ f.path ++ after.takeWhile isSpace) left hargs' hsize
    rw [← hrest, ← Stream.extractWord_seekBack hne] at hx
    exact ⟨_, hx, ⟨hwith, rfl, rfl, rfl, rfl, rfl⟩, Stream.cursor_rest _ _⟩

end Read

def hashRest (hash : Hash) : Bytes := hash.bytes.drop 32

def tail (f : File) : Bytes := f.body.drop maximumPathLength

theorem tail_eq_ite (f : File) : f.tail =
    if f.deletedFile then inDelete
    else toBigEndian 2 f.mode.toNat ++ [f.type] ++ toBigEndian 4 f.mtime.toNat ++
      toBigEndian 8 (if f.type = regularFile then f.size.toNat else 0) := by
  rw [tail, body, ← f.path_length, List.drop_left]

theorem body_eq (f : File) : f.body = f.path ++ f.tail := by
  rw [tail_eq_ite, body]

/-- The path begins with what is left of the hash, and the fields are found behind its last
32 bytes. -/
def Repeats (f : File) (dir : Bytes) (fs : FileSystem) : Prop :=
  hashRest f.boxHash ++ f.path.take 96 = f.path ∧
    ∃ left, f.Follows dir fs (f.path.drop 96 ++ f.tail) left

theorem cutPath_length (f : File) :
    (hashRest f.boxHash ++ f.path.take 96).length = maximumPathLength := by
  simp only [hashRest, List.length_append, List.length_drop, List.length_take,
    f.boxHash.length_eq, f.path_length]
  decide

theorem write_drop (f : File) :
    f.write.drop 32 = (hashRest f.boxHash ++ f.path.take 96) ++ (f.path.drop 96 ++ f.tail) := by
  have hle : 32 ≤ f.boxHash.bytes.length := by
    rw [f.boxHash.length_eq]
    decide
  rw [write, List.drop_append_of_le_length hle, body_eq, List.append_assoc,
    ← List.append_assoc (f.path.take 96), List.take_append_drop]
  rfl

theorem storedRecord_eq (f : File) : storedRecord f =
    Stream.cursor [] ((hashRest f.boxHash ++ f.path.take 96) ++ (f.path.drop 96 ++ f.tail)) := by
  rw [storedRecord, write_drop, Stream.ofBytes_eq_cursor]

theorem read_storedRecord_iff {f : File} {dir : Bytes} (hash : Hash) {fs : FileSystem}
    (hdir : dir ≠ []) :
    (∃ x, (blank dir hash).read (storedRecord f) fs = some x ∧ x.ReadsAs f) ↔
      f.Repeats dir fs := by
  have hread (left : Bytes) : (∃ x, (blank dir hash).read (Stream.cursor []
      ((hashRest f.boxHash ++ f.path.take 96) ++ (f.path.drop 96 ++ f.tail))) fs = some x ∧
        x.ReadsAs f ∧ x.sstream.rest = left) ↔
      hashRest f.boxHash ++ f.path.take 96 = f.path ∧
        f.Follows dir fs (f.path.drop 96 ++ f.tail) left := read_iff hdir f.cutPath_length
  rw [storedRecord_eq, Repeats]
  constructor
  · rintro ⟨x, hx, hreads⟩
    obtain ⟨hpath, hfollows⟩ := (hread _).1 ⟨x, hx, hreads, rfl⟩
    exact ⟨hpath, _, hfollows⟩
  · rintro ⟨hpath, left, hfollows⟩
    obtain ⟨x, hx, hreads, -⟩ := (hread left).2 ⟨hpath, hfollows⟩
    exact ⟨x, hx, hreads⟩

def Spent (s : Stream) : Prop := s.fail = true ∨ s.rest.length < maximumPathLength

theorem Spent.read {s : Stream} (h : Spent s) (n : ℕ) : Spent (s.read n).2 := by
  rcases hread : s.read n with ⟨bs, s'⟩
  by_cases hfail : s'.fail = true
  · exact .inl hfail
  · obtain ⟨hgood, -, -, hrest⟩ := Stream.read_whole hread (Bool.eq_false_iff.2 hfail)
    refine h.imp (fun h => ?_) fun h => ?_
    · rw [Stream.fail_of_good hgood] at h
      exact absurd h (by decide)
    · rw [hrest, List.length_append] at h
      exact lt_of_le_of_lt (Nat.le_add_left _ _) h

theorem Spent.readFields {f : File} {s : Stream} {fs : FileSystem} {x : Extraction}
    (hs : Spent s) (h : f.readFields s fs = some x) : Spent x.sstream := by
  simp only [File.readFields] at h
  split at h
  · simp at h
  · split_ifs at h
    · obtain rfl := Option.some.inj h
      exact (((hs.read 2).read 1).read 4).read 8
    · obtain rfl := Option.some.inj h
      exact ((hs.read 2).read 1).read 4

theorem boxPath_of_read {f : File} {s : Stream} {fs : FileSystem} {x : Extraction}
    (h : f.read s fs = some x) : f.boxPath ≠ [] := by
  intro hbox
  rw [File.read, if_pos hbox] at h
  exact absurd h (by simp)

theorem fail_of_spent {f : File} {s : Stream} {fs : FileSystem} {x : Extraction}
    (hs : Spent s) (h : f.read s fs = some x) : x.sstream.fail = true := by
  have hpath : (s.read maximumPathLength).2.fail = true :=
    hs.elim (Stream.read_of_fail _) Stream.read_of_short
  have hword := Stream.extractWord_of_fail hpath
  rw [read_eq (boxPath_of_read h)] at h
  simp only [hword] at h
  rw [if_neg (by decide)] at h
  by_contra hfail
  obtain ⟨hgood, -⟩ := readFields_whole h (Bool.eq_false_iff.2 hfail)
  have hgo := Stream.fail_of_good hgood
  rw [Stream.seekCur_of_fail _ rfl] at hgo
  exact absurd hgo (by decide)

theorem spent_of_read {dir : Bytes} {hash : Hash} {fs : FileSystem} {before path after : Bytes}
    {x : Extraction} (hpath : path.length = maximumPathLength)
    (hafter : after.length < maximumPathLength)
    (h : (blank dir hash).read (Stream.cursor before (path ++ after)) fs = some x) :
    Spent x.sstream := by
  have hle := (List.dropWhile_suffix isSpace (l := after)).length_le
  have hdir : dir ≠ [] := boxPath_of_read h
  rw [read_cursor_eq (g := blank dir hash) hdir hpath] at h
  simp only at h
  split_ifs at h with hdeleted
  · obtain rfl := Option.some.inj h
    refine .inr ?_
    rw [(readDeleted_spec _ _ _).2, extractWord_rest hdeleted, List.length_drop]
    omega
  · refine Spent.readFields ?_ h
    by_cases hblank : after.dropWhile isSpace = []
    · exact .inl (Stream.seekCur_of_fail _ (Stream.extractWord_blank hblank _).2)
    · refine .inr ?_
      rw [Stream.extractWord_seekBack hblank, Stream.cursor_rest]
      omega

theorem tail_length_le (f : File) : f.tail.length ≤ 15 := by
  rw [tail_eq_ite]
  split_ifs
  · decide
  all_goals simp

theorem spent_of_storedRecord {f : File} {dir : Bytes} {hash : Hash} {fs : FileSystem}
    {x : Extraction} (h : (blank dir hash).read (storedRecord f) fs = some x) :
    Spent x.sstream := by
  rw [storedRecord_eq] at h
  refine spent_of_read f.cutPath_length ?_ h
  have htail := f.tail_length_le
  simp only [List.length_append, List.length_drop, f.path_length, maximumPathLength]
  omega

end File

def Boxoffice.readBack (bo : Boxoffice) (fs : FileSystem) : Option File.Extraction :=
  (bo.baseDir bo.currentBox).bind fun dir =>
    (File.blank dir bo.currentBox).read bo.currentFile fs

def StoresData (f : File) (out : List Effect) : Prop :=
  ∃ data size offset, .disk (.storeFileData f data size offset) ∈ out

def Boxoffice.TakesPackage (bo : Boxoffice) (inp : Input) : Prop :=
  inp.status = .s200 ∧ checkEvent bo.state .receivedFileData .s200 = true

instance (bo : Boxoffice) (inp : Input) : Decidable (bo.TakesPackage inp) := by
  unfold Boxoffice.TakesPackage
  infer_instance

theorem package_pops_nothing : ∀ state, ∀ t ∈ transitions state, t.status = .s200 ∨
    t.status = .s113 → entersData t.newState = false ∧ entersMetadata t.newState = false := by
  decide +kernel

theorem Moved.keepsFile {fr : Frame} {t : Transition} {bo' : Boxoffice} {out : List Effect}
    (hm : Moved fr t bo' out) (hdata : entersData t.newState = false)
    (hmeta : entersMetadata t.newState = false) : bo'.currentFile = fr.bo.currentFile := by
  cases hm with
  | stay _ hbo => rw [hbo]
  | exit _ _ hbo => rw [hbo]
  | data _ _ _ henters => simp [hdata] at henters
  | metadata _ _ _ henters => simp [hmeta] at henters
  | plain _ _ _ _ _ _ _ hbo => rw [hbo]

section Package

variable {bo : Boxoffice} {inp : Input} (hpkg : bo.TakesPackage inp)
include hpkg

theorem stages_package : stages (Frame.start bo inp.status inp.sstream inp.env) =
    receivedFileData (Frame.start bo inp.status inp.sstream inp.env) := by
  rw [hpkg.1]
  rfl

theorem receivedFileData_stores {x : File.Extraction} (hx : bo.readBack inp.env.fs = some x) :
    ∃ fr, stages (Frame.start bo inp.status inp.sstream inp.env) = .next fr ∧
      (fr.status = .s200 ∨ fr.status = .s113) ∧ fr.bo = { bo with currentFile := x.sstream } ∧
      StoresData x.file fr.out := by
  rw [stages_package hpkg]
  obtain ⟨dir, hdir, hread⟩ := Option.bind_eq_some_iff.1 hx
  have hevent : (Frame.start bo inp.status inp.sstream inp.env).event = .receivedFileData := by
    rw [hpkg.1]
    rfl
  have hrow := fileDataRow _ hpkg.2
  rcases hpackage : readFilePackage inp.sstream with ⟨package, s⟩
  rw [receivedFileData, if_pos hevent]
  simp only [Frame.start, hdir, hread, hpackage]
  have hstores (ops : List Effect) : StoresData x.file (ops ++
      [.disk (.storeFileData x.file package.contents package.dataSize package.offset)]) :=
    ⟨package.contents, package.dataSize, package.offset, List.mem_append_right _ (by simp)⟩
  cases hmore : package.more with
  | false => exact ⟨_, if_pos hrow, .inr rfl, rfl, hstores _⟩
  | true => exact ⟨_, rfl, .inl hpkg.1, rfl, hstores _⟩

theorem package_stores {x : File.Extraction} (hx : bo.readBack inp.env.fs = some x) :
    ∃ bo' out, processEvent bo inp.status inp.sstream inp.env = .returned 0 bo' out ∧
      StoresData x.file out ∧ bo'.currentFile = x.sstream := by
  obtain ⟨fr, hstages, hstatus, hbo, data, size, offset, hmem⟩ := receivedFileData_stores hpkg hx
  have hacc : checkEvent bo.state (getEventByStatusCode inp.status) inp.status = true := by
    rw [hpkg.1]
    exact hpkg.2
  have hpost := stages_post hacc
  rw [hstages] at hpost
  obtain ⟨t, ht⟩ := checkEvent_iff.1 hpost.1.accepted
  rw [← hpost.1.state] at ht
  obtain ⟨hrow, -, hst⟩ := mem_of_transition ht
  obtain ⟨hdata, hmeta⟩ := package_pops_nothing _ t hrow (hst ▸ hstatus)
  have hcall : processEvent bo inp.status inp.sstream inp.env = outcome (fsmContinue fr) := by
    rw [processEvent, if_pos (by exact hacc), hstages]
    rfl
  have hmoved := fsmContinue_post ht
  rw [hcall]
  cases hmove : fsmContinue fr with
  | next fr' =>
    rw [hmove] at hmoved
    have hkeeps := hmoved.keepsFile hdata hmeta
    rw [hbo] at hkeeps
    exact ⟨fr'.bo, fr'.out, rfl, ⟨data, size, offset, hmoved.handed.1 hmem⟩, hkeeps⟩
  | ret code fr' =>
    rw [hmove] at hmoved
    exact hmoved.elim
  | fault f =>
    rw [hmove] at hmoved
    obtain ⟨-, -, ⟨henters, -⟩ | ⟨henters, -⟩⟩ := hmoved
    · simp [hdata] at henters
    · simp [hmeta] at henters

theorem package_fails (hx : bo.readBack inp.env.fs = none) :
    bo.next inp = none := by
  have hevent : (Frame.start bo inp.status inp.sstream inp.env).event = .receivedFileData := by
    rw [hpkg.1]
    rfl
  have hfault : ∃ f, receivedFileData (Frame.start bo inp.status inp.sstream inp.env) =
      .fault f := by
    rw [receivedFileData, if_pos hevent]
    cases hdir : bo.baseDir bo.currentBox with
    | none => exact ⟨.nullBox, by simp [Frame.start, hdir]⟩
    | some dir =>
      rw [Boxoffice.readBack, hdir, Option.bind_some] at hx
      exact ⟨.exception, by simp [Frame.start, hdir, hx]⟩
  obtain ⟨f, hfault⟩ := hfault
  have hacc : checkEvent bo.state (getEventByStatusCode inp.status) inp.status = true := by
    rw [hpkg.1]
    exact hpkg.2
  have hcall : processEvent bo inp.status inp.sstream inp.env = .fault f := by
    rw [processEvent, if_pos (by exact hacc), stages_package hpkg, hfault]
    rfl
  rw [Boxoffice.next, hcall]

end Package

structure Boxoffice.OpensTransfer (bo : Boxoffice) (inp : Input) (f : File) (bo' : Boxoffice) :
    Prop where
  status : inp.status = .s130
  state : bo.state = .promotingNewFileMetadata
  notified : bo.notifiedDispatch = false
  file : bo.heardFile inp = some f
  step : bo.next inp = some bo'

theorem receivedNewFileMetadata_keeps {fr fr₁ : Frame} {f : File}
    (hstate : fr.bo.state = .promotingNewFileMetadata) (hnotified : fr.bo.notifiedDispatch = false)
    (hfile : announcedFile fr = .ok (f, fr₁)) :
    (receivedNewFileMetadata fr).Post (Exec.whenNext fun fr' =>
      fr'.status = fr.status ∧ fr'.event = fr.event ∧ fr'.bo.currentFile = storedRecord f ∧
        fr'.bo.currentBox = f.boxHash) := by
  rw [receivedNewFileMetadata, if_pos ⟨hstate, by simp [hnotified]⟩]
  simp only [hfile]
  cases hwrite : writeMetadata f fr₁ with
  | error _ => trivial
  | ok fr₂ =>
    have hnear := (announcedFile_ok hfile).1.trans (writeMetadata_near hwrite)
    exact ⟨hnear.status, hnear.event, rfl, rfl⟩

theorem promoting_stays : ∀ t ∈ transitions .promotingNewFileMetadata, t.status = .s130 →
    t.newState = .promotingNewFileMetadata := by
  decide +kernel

theorem boxPath_of_announced {fr fr' : Frame} {f : File}
    (h : announcedFile fr = .ok (f, fr')) : f.boxPath ≠ [] := by
  unfold announcedFile at h
  simp only at h
  split at h
  · simp at h
  · split at h
    · simp at h
    · next x hx =>
      obtain ⟨rfl, rfl⟩ := Prod.mk.inj (Except.ok.inj h)
      rw [(File.read_box hx).2]
      exact File.boxPath_of_read hx

section OpensTransfer

variable {bo bo' : Boxoffice} {inp : Input} {f : File} (h : bo.OpensTransfer inp f bo')
include h

theorem Boxoffice.OpensTransfer.announced :
    ∃ fr, announcedFile (receivedFrame bo inp) = .ok (f, fr) := by
  have hfile := h.file
  unfold Boxoffice.heardFile at hfile
  split at hfile
  · next g fr hg => exact ⟨fr, Option.some.inj hfile ▸ hg⟩
  · simp at hfile

theorem Boxoffice.OpensTransfer.staged :
    (stages (Frame.start bo inp.status inp.sstream inp.env)).Post (Exec.whenNext fun fr =>
      fr.status = .s130 ∧ fr.bo.currentFile = storedRecord f ∧ fr.bo.currentBox = f.boxHash) := by
  obtain ⟨fr₁, hok⟩ := h.announced
  have hpost := receivedNewFileMetadata_keeps h.state h.notified hok
  have hbeat : receivedHeartbeat (Frame.start bo inp.status inp.sstream inp.env) =
      receivedNewFileMetadata (receivedFrame bo inp) := by
    rw [receivedFrame, h.status]
    rfl
  rw [stages, hbeat]
  cases hx : receivedNewFileMetadata (receivedFrame bo inp) with
  | fault f => trivial
  | ret code fr => trivial
  | next fr =>
    rw [hx] at hpost
    obtain ⟨hstatus, hevent, hkept, hbox⟩ := hpost
    have hst : fr.status = .s130 := hstatus.trans h.status
    have hremote : isRemote fr.event = true := by
      rw [hevent, receivedFrame_event, h.status]
      rfl
    have hnotifies : notifyDispatcher fr = .next fr := by
      rw [notifyDispatcher, if_neg]
      simp [hst]
    rw [Exec.andThen, hnotifies, Exec.andThen, localFileEvent_of_remote hremote, Exec.andThen,
      receivedFileData_of_remote hremote]
    exact ⟨hst, hkept, hbox⟩

theorem Boxoffice.OpensTransfer.kept :
    bo'.currentFile = storedRecord f ∧ bo'.currentBox = f.boxHash ∧
      bo'.baseDir f.boxHash = some f.boxPath ∧ f.boxPath ≠ [] := by
  obtain ⟨fr', hok⟩ := h.announced
  obtain ⟨hnear, hdir⟩ := announcedFile_ok hok
  have hacc : checkEvent bo.state (getEventByStatusCode inp.status) inp.status = true := by
    rw [h.state, h.status]
    decide
  have hp := processEvent_processed bo inp
  rw [returned_of_next h.step] at hp
  generalize bo.effects inp = out at hp
  cases hp with
  | ignored hno => simp [hacc] at hno
  | stopped _ hstop => cases hstop
  | @moved fr' t _ _ ht hm =>
    obtain ⟨hst, hkept, hbox⟩ := h.staged.of_next ht.staged
    have hstays : t.newState = .promotingNewFileMetadata :=
      promoting_stays t (h.state ▸ ht.row) (ht.status.trans hst)
    have hcurrent := hm.keepsFile (by rw [hstays]; decide) (by rw [hstays]; decide)
    refine ⟨hcurrent.trans hkept, hm.kept.currentBox.trans hbox, ?_, boxPath_of_announced hok⟩
    rw [Boxoffice.baseDir, hnear.boxes] at hdir
    rw [Boxoffice.baseDir, hm.kept.boxes, ht.steady.boxes]
    exact hdir

end OpensTransfer

/-- A step of a transfer is a package or leaves the file that is kept as it is. -/
def Boxoffice.InTransfer (bo : Boxoffice) (inp : Input) : Prop :=
  inp.status = .s200 ∨ ∀ bo' ∈ bo.next inp, bo'.currentFile = bo.currentFile

instance (bo : Boxoffice) (inp : Input) : Decidable (bo.InTransfer inp) := by
  unfold Boxoffice.InTransfer
  infer_instance

theorem Boxoffice.readBack_some {bo : Boxoffice} {fs : FileSystem} {x : File.Extraction}
    (h : bo.readBack fs = some x) : ∃ dir, bo.baseDir bo.currentBox = some dir ∧
      (File.blank dir bo.currentBox).read bo.currentFile fs = some x :=
  Option.bind_eq_some_iff.1 h

theorem next_of_package {bo bo' : Boxoffice} {inp : Input} (hpkg : bo.TakesPackage inp)
    (h : bo.next inp = some bo') :
    ∃ x, bo.readBack inp.env.fs = some x ∧ bo'.currentFile = x.sstream := by
  cases hx : bo.readBack inp.env.fs with
  | none => simp [package_fails hpkg hx] at h
  | some x =>
    obtain ⟨bo₁, out, hreturned, -, hfile⟩ := package_stores hpkg hx
    rw [next_of_returned hreturned] at h
    exact ⟨x, rfl, Option.some.inj h ▸ hfile⟩

theorem InTransfer.keeps {bo bo' : Boxoffice} {inp : Input} (hstep : bo.InTransfer inp)
    (hpkg : ¬ bo.TakesPackage inp) (h : bo.next inp = some bo') :
    bo'.currentFile = bo.currentFile := by
  rcases hstep with h200 | hkeeps
  · have hno : checkEvent bo.state (getEventByStatusCode inp.status) inp.status = false := by
      rw [h200]
      exact Bool.eq_false_iff.2 fun hacc => hpkg ⟨h200, hacc⟩
    rcases next_cases h with rfl | ⟨fr, t, out, ht, -⟩
    · rfl
    · exact absurd ht.accepted (by simp [hno])
  · exact hkeeps bo' h

/-- The first package takes the path out of the stream, and none of the later ones finds one. -/
theorem transfer_file {bo₀ bo : Boxoffice} {tr : List (Boxoffice × Input)} {f : File}
    (hstart : bo₀.currentFile = storedRecord f) (hrun : Run Boxoffice.next bo₀ tr bo)
    (hsteps : ∀ p ∈ tr, p.1.InTransfer p.2) :
    (∀ p ∈ tr, ¬ p.1.TakesPackage p.2) ∧ bo.currentFile = storedRecord f ∨
      (∃ p ∈ tr, p.1.TakesPackage p.2) ∧ File.Spent bo.currentFile := by
  induction hrun with
  | nil => exact .inl ⟨by simp, hstart⟩
  | @snoc tr bo bo' inp hrun hnext ih =>
    rw [List.forall_mem_cons] at hsteps
    have ih := ih hsteps.2
    by_cases hpkg : bo.TakesPackage inp
    · obtain ⟨x, hx, hfile⟩ := next_of_package hpkg hnext
      obtain ⟨dir, -, hread⟩ := Boxoffice.readBack_some hx
      refine .inr ⟨⟨_, List.mem_cons_self, hpkg⟩, ?_⟩
      rw [hfile]
      rcases ih with ⟨-, hkept⟩ | ⟨-, hspent⟩
      · rw [hkept] at hread
        exact File.spent_of_storedRecord hread
      · exact .inl (File.fail_of_spent hspent hread)
    · rw [InTransfer.keeps hsteps.1 hpkg hnext]
      rcases ih with ⟨hnone, hkept⟩ | ⟨⟨p, hp, htakes⟩, hspent⟩
      · exact .inl ⟨List.forall_mem_cons.2 ⟨hpkg, hnone⟩, hkept⟩
      · exact .inr ⟨⟨p, List.mem_cons_of_mem _ hp, htakes⟩, hspent⟩

theorem boxes_of_run {bo₀ bo : Boxoffice} {tr : List (Boxoffice × Input)}
    (hrun : Run Boxoffice.next bo₀ tr bo) : bo.boxes = bo₀.boxes := by
  induction hrun with
  | nil => rfl
  | snoc _ hnext ih =>
    rcases next_cases hnext with rfl | ⟨fr, t, out, ht, hm⟩
    · exact ih
    · exact hm.kept.boxes.trans (ht.steady.boxes.trans ih)

def Boxoffice.StoresAs (bo : Boxoffice) (inp : Input) (f : File) : Prop :=
  ∃ x bo' out, bo.readBack inp.env.fs = some x ∧ x.ReadsAs f ∧ x.file.boxHash = f.boxHash ∧
    processEvent bo inp.status inp.sstream inp.env = .returned 0 bo' out ∧ StoresData x.file out

/-- The package of a transfer is stored in the announced file if and only if it is the first
one, the box is still that of the announcement, and the record of the file repeats itself. -/
theorem package_storesAs_iff {bo bo₀ bo₁ : Boxoffice} {tr : List (Boxoffice × Input)}
    {inp pkg : Input} {f : File} (hopens : bo.OpensTransfer inp f bo₀)
    (hrun : Run Boxoffice.next bo₀ tr bo₁) (hsteps : ∀ p ∈ tr, p.1.InTransfer p.2)
    (hpkg : bo₁.TakesPackage pkg) :
    bo₁.StoresAs pkg f ↔ (∀ p ∈ tr, ¬ p.1.TakesPackage p.2) ∧ bo₁.currentBox = f.boxHash ∧
      f.Repeats f.boxPath pkg.env.fs := by
  obtain ⟨hstart, -, hdir, hbox⟩ := hopens.kept
  have hfile := transfer_file hstart hrun hsteps
  have hbase : bo₁.baseDir f.boxHash = some f.boxPath := by
    rw [Boxoffice.baseDir, boxes_of_run hrun]
    exact hdir
  constructor
  · rintro ⟨x, bo', out, hx, hreads, hhash, -, -⟩
    obtain ⟨dir, hdir₁, hread⟩ := Boxoffice.readBack_some hx
    have hcurrent : bo₁.currentBox = f.boxHash := (File.read_box hread).1.symm.trans hhash
    rw [hcurrent, hbase] at hdir₁
    obtain rfl := Option.some.inj hdir₁
    rcases hfile with ⟨hnone, hkept⟩ | ⟨-, hspent⟩
    · rw [hkept] at hread
      exact ⟨hnone, hcurrent, (File.read_storedRecord_iff _ hbox).1 ⟨x, hread, hreads⟩⟩
    · have hfail := File.fail_of_spent hspent hread
      rw [hreads.whole] at hfail
      exact absurd hfail (by decide)
  · rintro ⟨hnone, hcurrent, hrepeats⟩
    rcases hfile with ⟨-, hkept⟩ | ⟨⟨p, hp, htakes⟩, -⟩
    · obtain ⟨x, hread, hreads⟩ := (File.read_storedRecord_iff f.boxHash hbox).2 hrepeats
      have hx : bo₁.readBack pkg.env.fs = some x := by
        rw [Boxoffice.readBack, hcurrent, hbase, hkept]
        exact hread
      obtain ⟨bo', out, hreturned, hstores, -⟩ := package_stores hpkg hx
      exact ⟨x, bo', out, hx, hreads, (File.read_box hread).1, hreturned, hstores⟩
    · exact absurd htakes (hnone p hp)

namespace Sample

def leading : Bytes :=
  1 :: 164 :: regularFile :: List.replicate 12 1 ++ slash :: List.replicate 16 65

def repeatingBox : Hash := .ofBytes (List.replicate 32 66 ++ leading)

def repeatingDir : Bytes := ascii ['/', 'b', '/']

def repeatingEnv : Env :=
  { env with fs := fun _ => some ⟨0o644, regularFile, 0x01010101, 0x0101010101010101⟩ }

def repeating : File :=
  { (File.blank repeatingDir repeatingBox).withPath (leading ++ leading ++ leading ++ leading) with
    mode := 0o644, type := regularFile, mtime := 0x01010101, size := 0x0101010101010101 }

def startRepeating : Boxoffice :=
  .initial ⟨[.fill 65], fun _ => default⟩ [(repeatingBox, repeatingDir)]

theorem promoted_conforming : Status.s130 ∈ conformingStatuses := by decide

def announcedRepeating : Input :=
  heardWith .s130 promoted_conforming (.fill 65) (repeating.write ++ timingBytes 0)

theorem repeating_repeats {fs : FileSystem}
    (hfs : fs.exist (constructPath repeatingDir repeating.path) = true) :
    repeating.Repeats repeatingDir fs := by
  have hfacts : File.hashRest repeating.boxHash ++ repeating.path.take 96 = repeating.path ∧
      firstWord (repeating.path.drop 96 ++ repeating.tail) ≠ File.inDelete ∧
      (repeating.path.drop 96 ++ repeating.tail).dropWhile isSpace =
        repeating.fieldBytes ++ (leading.drop 15 ++ repeating.tail) := by
    decide +kernel
  obtain ⟨hpath, hword, hfields⟩ := hfacts
  refine ⟨hpath, leading.drop 15 ++ repeating.tail, ?_⟩
  rw [File.Follows, if_neg hword]
  refine ⟨hfields, .inl rfl, ?_⟩
  rw [File.checkArguments, if_pos hfs]
  rfl

end Sample

/-- A node has heard of the file `f`, and the announcement is repeated. -/
def announcement : List Input := [Sample.peerAnnounces, Sample.announced 'f']

def transfer : List Input := [Sample.sendTimeElapsed]

theorem opensTransfer_sample :
    (after Boxoffice.next (Sample.start [.fill 65]) announcement).OpensTransfer
      (Sample.announced 'f') (Sample.file 'f')
      (after Boxoffice.next (Sample.start [.fill 65]) (announcement ++ [Sample.announced 'f'])) :=
  ⟨rfl, by decide +kernel, by decide +kernel, by decide +kernel,
    next_after announcement (by decide +kernel)⟩

theorem package_storesAs_iff_repeating :
    let bo₀ := after Boxoffice.next Sample.startRepeating
      [Sample.peerAnnounces, Sample.announcedRepeating, Sample.announcedRepeating]
    (after Boxoffice.next bo₀ transfer).StoresAs Sample.emptyPackage Sample.repeating := by
  intro bo₀
  let bo := after Boxoffice.next Sample.startRepeating
    [Sample.peerAnnounces, Sample.announcedRepeating]
  have hfacts : (runAll Boxoffice.next Sample.startRepeating
      [Sample.peerAnnounces, Sample.announcedRepeating, Sample.announcedRepeating]).isSome = true ∧
      bo.state = .promotingNewFileMetadata ∧ bo.notifiedDispatch = false ∧
      bo.heardFile Sample.announcedRepeating = some Sample.repeating ∧
      (runAll Boxoffice.next bo₀ transfer).isSome = true ∧
      (∀ p ∈ record Boxoffice.next bo₀ transfer [], p.1.InTransfer p.2 ∧ ¬ p.1.TakesPackage p.2) ∧
      (after Boxoffice.next bo₀ transfer).TakesPackage Sample.emptyPackage ∧
      (after Boxoffice.next bo₀ transfer).currentBox = Sample.repeating.boxHash := by
    decide +kernel
  obtain ⟨hall, hstate, hclear, hfile, hall', hsteps, hpkg, hbox⟩ := hfacts
  have hopens : bo.OpensTransfer Sample.announcedRepeating Sample.repeating bo₀ :=
    ⟨rfl, hstate, hclear, hfile, next_after _ hall⟩
  exact (package_storesAs_iff hopens (run_after hall') (fun p hp => (hsteps p hp).1) hpkg).2
    ⟨fun p hp => (hsteps p hp).2, hbox, Sample.repeating_repeats rfl⟩

/-- The half of a hash is read as the beginning of a path. -/
theorem package_storesAs_fails :
    ¬ ∀ (start bo bo₀ bo₁ : Boxoffice) (before tr : List (Boxoffice × Input)) (inp pkg : Input)
      (f : File), start.state = .ready → Run Boxoffice.next start before bo →
      bo.OpensTransfer inp f bo₀ → Run Boxoffice.next bo₀ tr bo₁ →
      (∀ p ∈ tr, p.1.InTransfer p.2) → bo₁.TakesPackage pkg →
      ∃ x, bo₁.readBack pkg.env.fs = some x ∧ x.file.path = f.path := by
  intro h
  obtain ⟨x, hx, hpath⟩ := h (Sample.start [.fill 65]) _ _ (after Boxoffice.next _ transfer) _ _
    _ Sample.emptyPackage _ rfl (run_after (by decide +kernel)) opensTransfer_sample
    (run_after (by decide +kernel)) (by decide +kernel) (by decide +kernel)
  have hother : ((after Boxoffice.next (after Boxoffice.next (Sample.start [.fill 65])
      (announcement ++ [Sample.announced 'f'])) transfer).readBack Sample.emptyPackage.env.fs).map
        (·.file.path) ≠ some (Sample.file 'f').path := by
    decide +kernel
  rw [hx, Option.map_some, hpath] at hother
  exact hother rfl

end Flocksy
