import Flocksy.LocalQueues

/-!
# Local changes

A box sends the status, the mask, its hash and the path of an inotify event. A file
for the path ends up at the end of its deque if the state has a row for the event
of the status, if the message is read back as it was written, and if the file can be
constructed. The rows of the states of another node's session pair the status of a
metadata change with the event of a new file, and the last state of a session has no
row for local events.
-/

namespace Flocksy

open ByteStream Fsm Runs

def inAttrib : ℕ := 0x4
def inMove : ℕ := 0xc0
def inCreate : ℕ := 0x100
def inDeleteSelf : ℕ := 0x400
def inMoveSelf : ℕ := 0x800

def hasFlags (mask flags : ℕ) : Bool := mask &&& flags = flags

/-- The status that `Box::run` sends; `none` where it sends nothing or has set no status. -/
def boxStatus (mask : ℕ) : Option Status :=
  if hasFlags mask inDeleteSelf then none
  else if hasFlags mask inModify ∨ hasFlags mask inMove ∨ hasFlags mask inMoveSelf then some .s300
  else if hasFlags mask inCreate ∨ hasFlags mask inAttrib ∨ hasFlags mask inDeleteMask then
    some .s320
  else none

structure Notification where
  mask : ℕ
  fits : mask ≤ Stream.intMax
  hash : Hash
  path : Bytes
  status : Status
  sent : boxStatus mask = some status

namespace Notification

variable (n : Notification) (env : Env)

theorem isLocal : isLocal n.status = true := by
  have h := n.sent
  unfold boxStatus at h
  split_ifs at h <;> simp [Flocksy.isLocal, ← Option.some.inj h]

theorem conforming : Conforming n.status := by
  have h := n.isLocal
  simp only [Flocksy.isLocal, decide_eq_true_eq] at h
  exact .inr (.inr (.inr h))

def input : Input := boxInput n.status n.conforming n.mask n.hash n.path env

end Notification

section Digit

variable {status : Status} {hc : Conforming status} {mask : ℕ} {hash : Hash} {path : Bytes}
  {env : Env}

theorem boxInput_extractInt_digits :
    ((boxInput status hc mask hash path env).sstream.extractInt 0).2 =
      { Stream.cursor (signalPrefix sigtypeInotify status.toNat ++ [space] ++
          (decimal mask ++ hash.bytes.takeWhile isDigit))
          (hash.bytes.dropWhile isDigit ++ space :: path) with
        fail := decide (Stream.intMax < digitsValue (decimal mask ++ hash.bytes.takeWhile isDigit)) } := by
  have htext : [space] ++ (path ++ []) = space :: path := by simp
  rw [boxInput, htext, extractInt_hash 0 (by simp; decide)]

/-- A hash that starts with a digit is not read back: its digits go to the mask. -/
theorem boxInput_box_ne (hdigit : ¬ hash.Undigit) :
    (boxInput status hc mask hash path env).box ≠ hash := by
  obtain ⟨d, hd, hdig⟩ : ∃ d ∈ hash.bytes.head?, isDigit d = true := by
    simpa [Hash.Undigit] using hdigit
  intro hbox
  have hbytes : padTo genericHashLen (((boxInput status hc mask hash path env).sstream.extractInt
      0).2.read genericHashLen).1 = hash.bytes := congrArg Hash.bytes hbox
  rw [← hbytes, head?_padTo (by decide), boxInput_extractInt_digits] at hd
  obtain rfl := Option.some.inj hd
  rcases Stream.read_head? { Stream.cursor (signalPrefix sigtypeInotify status.toNat ++ [space] ++
      (decimal mask ++ hash.bytes.takeWhile isDigit))
      (hash.bytes.dropWhile isDigit ++ space :: path) with
      fail := decide (Stream.intMax < digitsValue (decimal mask ++ hash.bytes.takeWhile isDigit)) }
      genericHashLen with hnil | hhead
  · rw [hnil] at hdig
    exact absurd hdig (by decide)
  · rw [hhead, Stream.rest, Stream.cursor, List.drop_left] at hdig
    cases hrest : (hash.bytes.dropWhile isDigit ++ space :: path).head? with
    | none => simp at hrest
    | some b => simp [hrest, head?_dropWhile_digit b hrest] at hdig

theorem boxInput_box_iff (hmask : mask ≤ Stream.intMax) :
    (boxInput status hc mask hash path env).box = hash ↔ hash.Undigit :=
  ⟨fun h => by_contra fun hdigit => boxInput_box_ne hdigit h,
    fun h => boxInput_box hmask h status hc env⟩

end Digit

def firstWord (path : Bytes) : Bytes := (path.dropWhile isSpace).takeWhile (!isSpace ·)

theorem firstWord_of_noSpace {path : Bytes} (h : ∀ b ∈ path, isSpace b = false) :
    firstWord path = path := by
  have hdrop : path.dropWhile isSpace = path := by
    cases path with
    | nil => rfl
    | cons b bs => simp [h b List.mem_cons_self]
  rw [firstWord, hdrop, List.takeWhile_eq_self_iff]
  simpa using h

theorem padTo_firstWord_iff {path : Bytes} {n : ℕ} (hlen : path.length ≤ n) :
    padTo n (firstWord path) = padTo n path ↔ ∀ b ∈ path, isSpace b = false := by
  constructor
  · intro hpad b hb
    have hmem : b ∈ padTo n path := by
      rw [padTo, List.take_append, List.take_of_length_le hlen]
      exact List.mem_append_left _ hb
    rw [← hpad] at hmem
    rcases List.mem_append.1 (List.mem_of_mem_take hmem) with hword | hzero
    · simpa using List.mem_takeWhile_imp hword
    · rw [List.eq_of_mem_replicate hzero]
      decide
  · intro h
    rw [firstWord_of_noSpace h]

namespace Notification

variable {n : Notification} {env : Env}

theorem input_path (hhash : n.hash.Undigit) : (n.input env).path = firstWord n.path := by
  rw [Input.path, input, boxInput_extractInt n.fits hhash, Stream.read_cursor n.hash.length_eq,
    Stream.extractWord_good (by rfl), Stream.cursor_rest, firstWord]
  simp [space, show isSpace 32 = true from by decide]

end Notification

/-- The states whose rows pair the status of a metadata change with another event. -/
def mispairs (state : State) : Bool :=
  state ∈ [.acknowledgingFileMetadataChange, .acknowledgingFileMetadataChangeWithMore,
    .promotingNewFileMetadata, .promotingNewFileMetadataWithMore, .receivingFileMetadataChange,
    .receivingFileMetadataChangeWithMore, .sendingFakeFile, .sendingFakeFileWithMoreAlpha,
    .sendingFakeFileWithMoreBeta, .broadcastingAllReceived, .broadcastingAllReceivedWithMoreAlpha,
    .broadcastingAllReceivedWithMoreBeta, .broadcastingAllMetadataReceived]

def deafTo (status : Status) (state : State) : Bool :=
  state = .syncingStop ∨ status = .s320 ∧ mispairs state

theorem accepts_local_iff : ∀ status, isLocal status = true → ∀ state, state ≠ .null →
    state ≠ .exit →
    (checkEvent state (getEventByStatusCode status) status = true ↔ deafTo status state = false) := by
  decide +kernel

theorem local_pops_nothing : ∀ state, ∀ t ∈ usedTransitions state, isLocal t.status = true →
    t.newState = state ∨ entersData t.newState = false ∧ entersMetadata t.newState = false := by
  decide +kernel

def Boxoffice.Appended (bo bo' : Boxoffice) (status : Status) (p : FilePtr) : Prop :=
  bo'.fileListMetadata = bo.fileListMetadata ++ (if status = .s300 then [] else [p]) ∧
    bo'.fileListData = bo.fileListData ++ if status = .s300 then [p] else []

theorem Boxoffice.not_appended (bo : Boxoffice) (status : Status) (p : FilePtr) :
    ¬ bo.Appended bo status p := by
  rintro ⟨hmeta, hdata⟩
  split_ifs at hmeta hdata <;> simp at hmeta hdata

theorem Boxoffice.Appended.unique {bo bo' : Boxoffice} {status : Status} {p q : FilePtr}
    (h : bo.Appended bo' status p) (h' : bo.Appended bo' status q) : p = q := by
  obtain ⟨hmeta, hdata⟩ := h
  obtain ⟨hmeta', hdata'⟩ := h'
  rw [hmeta] at hmeta'
  rw [hdata] at hdata'
  split_ifs at hmeta' hdata' <;> simp_all

theorem LocalFile.unique {bo : Boxoffice} {inp : Input} {f g : File} (hf : LocalFile bo inp f)
    (hg : LocalFile bo inp g) : f = g := by
  have hdir : f.boxPath = g.boxPath := Option.some.inj (hf.dir.symm.trans hg.dir)
  have hmade := hf.made
  rw [hdir] at hmade
  exact Option.some.inj (hmade.symm.trans hg.made)

section Taken

variable {bo bo' : Boxoffice} {inp : Input} {fr : Frame} {t : Transition} {out : List Effect}
  (ht : Taken bo inp fr t) (hlocal : isLocal inp.status = true)
  (hstate : bo.state ≠ .announcingNewFile)
include ht hlocal hstate

theorem Taken.queued_of_local : t.status = inp.status ∧ ∃ f, LocalFile bo inp f ∧
    bo.Appended fr.bo inp.status (bo.filePtr f) := by
  cases ht.settled with
  | silent _ hno => simp [hlocal] at hno
  | counted hack => simp [isAck_of_local _ hlocal] at hack
  | completed hcomp => exact absurd hcomp.1 (by simp [isAck_of_local _ hlocal])
  | twice _ _ hann => exact absurd hann hstate
  | queued f _ hst _ hfile _ _ hmeta hdata =>
    exact ⟨ht.status.trans hst, f, hfile, hmeta, hdata⟩

theorem Taken.pops_nothing : t.newState = fr.bo.state ∨
    entersData t.newState = false ∧ entersMetadata t.newState = false := by
  have hst := (ht.queued_of_local hlocal hstate).1
  rw [ht.steady.state]
  exact local_pops_nothing _ t ht.mem_usedTransitions (hst ▸ hlocal)

theorem appended_of_taken (hm : Moved fr t bo' out) :
    ∃ f, LocalFile bo inp f ∧ bo.Appended bo' inp.status (bo.filePtr f) := by
  obtain ⟨-, f, hfile, hmeta, hdata⟩ := ht.queued_of_local hlocal hstate
  have hpops := ht.pops_nothing hlocal hstate
  have hkept := hm.kept
  refine ⟨f, hfile, ?_, ?_⟩
  · rw [hkept.metadata, if_neg (by rcases hpops with h | h <;> simp [h]), hmeta]
  · rw [hkept.data, if_neg (by rcases hpops with h | h <;> simp [h]), hdata]

end Taken

theorem appended_iff {bo : Boxoffice} (inp : Input) (hlocal : isLocal inp.status = true)
    (hstate : bo.state ≠ .announcingNewFile) (f : File) :
    (∃ bo' out, processEvent bo inp.status inp.sstream inp.env = .returned 0 bo' out ∧
      bo.Appended bo' inp.status (bo.filePtr f)) ↔
    checkEvent bo.state (getEventByStatusCode inp.status) inp.status = true ∧
      LocalFile bo inp f := by
  have hp := processEvent_processed bo inp
  constructor
  · rintro ⟨bo', out, hreturned, happ⟩
    rw [hreturned] at hp
    cases hp with
    | ignored => exact absurd happ (bo.not_appended _ _)
    | moved ht hm =>
      obtain ⟨g, hfile, happ'⟩ := appended_of_taken ht hlocal hstate hm
      have hsame : f = g := congrArg FilePtr.file (happ.unique happ')
      exact ⟨ht.accepted, hsame ▸ hfile⟩
    | stopped _ hstop => cases hstop
  · rintro ⟨haccepted, hfile⟩
    have hnoround : ¬ bo.Completes inp := by
      rintro ⟨hack, -⟩
      simp [isAck_of_local _ hlocal] at hack
    cases hx : processEvent bo inp.status inp.sstream inp.env with
    | returned code bo' out =>
      rw [hx] at hp
      cases hp with
      | ignored hno => simp [haccepted] at hno
      | moved ht hm =>
        obtain ⟨g, hfile', happ⟩ := appended_of_taken ht hlocal hstate hm
        exact ⟨bo', out, rfl, hfile.unique hfile' ▸ happ⟩
      | stopped _ hstop =>
        cases hstop with
        | round hcomp => exact absurd hcomp hnoround
        | path _ hlong => exact absurd hlong (not_lt.2 hfile.short)
    | fault e =>
      rw [hx] at hp
      cases hp with
      | failed _ hcause =>
        cases hcause with
        | emptyDeque hcomp => exact absurd hcomp hnoround
        | unknownBox hcomp => exact absurd hcomp hnoround
        | localFile _ hnone =>
          have hmade := hfile.made
          simp [hnone _ hfile.dir] at hmade
        | file _ hno => simp [hlocal] at hno
      | front ht hmissing =>
        obtain ⟨hmove, hpop⟩ := hmissing
        rcases ht.pops_nothing hlocal hstate with h | ⟨hdata, hmeta⟩
        · exact absurd h hmove
        · simp [hdata, hmeta] at hpop

theorem newState_ne_null : ∀ state, ∀ t ∈ usedTransitions state, t.newState ≠ .null := by
  decide +kernel

def Boxoffice.Configured (start bo : Boxoffice) : Prop :=
  bo.state ≠ .null ∧ bo.boxes = start.boxes

theorem configured_step {start bo bo' : Boxoffice} {inp : Input} (hinv : start.Configured bo)
    (h : bo.next inp = some bo') : start.Configured bo' := by
  rcases next_cases h with rfl | ⟨fr, t, out, ht, hm⟩
  · exact hinv
  · have hkept := hm.kept
    exact ⟨hkept.state ▸ newState_ne_null _ t ht.mem_usedTransitions,
      hkept.boxes.trans (ht.steady.boxes.trans hinv.2)⟩

theorem configured_of_run {start bo : Boxoffice} {tr : List (Boxoffice × Input)}
    (hready : start.state = .ready) (hrun : Run Boxoffice.next start tr bo) :
    start.Configured bo :=
  hrun.invariant ⟨by simp [hready], rfl⟩ fun _ _ _ hb hn => configured_step hb hn

def Boxoffice.Queues (bo : Boxoffice) (n : Notification) (env : Env) : Prop :=
  ∃ bo' out f, processEvent bo n.status (n.input env).sstream env = .returned 0 bo' out ∧
    f.boxHash = n.hash ∧ f.path = padTo maximumPathLength n.path ∧
    bo.Appended bo' n.status (bo.filePtr f)

structure Notification.Sound (n : Notification) (dir : Bytes) (env : Env) : Prop where
  hash : n.hash.Undigit
  path : ∀ b ∈ n.path, isSpace b = false
  made : masksDelete n.mask = true ∨ env.fs.exist (constructPath dir n.path) = true

theorem newLocalFile_iff {fs : FileSystem} {dir : Bytes} {hash : Hash} {path : Bytes} {mask : ℤ} :
    (∃ f, newLocalFile fs dir hash path mask = some f) ↔
      masksDelete mask = true ∨ fs.exist (constructPath dir path) = true := by
  unfold newLocalFile
  split_ifs with hdelete
  · simp [hdelete]
  · simp [hdelete, File.ofPath, FileSystem.exist, Option.isSome_iff_exists]

/-- A local change is queued if and only if the state is not deaf to it and its message is
sound. -/
theorem localChange_queued {start bo : Boxoffice} {tr : List (Boxoffice × Input)}
    {n : Notification} {env : Env} {dir : Bytes} (hready : start.state = .ready)
    (hrun : Run Boxoffice.next start tr bo) (hbox : start.baseDir n.hash = some dir)
    (hlen : n.path.length ≤ maximumPathLength) (hexit : bo.state ≠ .exit)
    (hstate : bo.state ≠ .announcingNewFile) :
    bo.Queues n env ↔ deafTo n.status bo.state = false ∧ n.Sound dir env := by
  obtain ⟨hnull, hboxes⟩ := configured_of_run hready hrun
  have hdir : bo.baseDir n.hash = some dir := by rwa [Boxoffice.baseDir, hboxes]
  have haccepts := accepts_local_iff _ n.isLocal _ hnull hexit
  have happended := fun f => appended_iff (n.input env) n.isLocal hstate f
  have hread : (n.input env).box = n.hash ↔ n.hash.Undigit := boxInput_box_iff n.fits
  have hmask (hhash : n.hash.Undigit) : (n.input env).mask = n.mask :=
    boxInput_mask n.fits hhash _ _ _
  constructor
  · rintro ⟨bo', out, f, hreturned, hhash, hpath, happ⟩
    obtain ⟨haccepted, hfile⟩ := (happended f).1 ⟨bo', out, hreturned, happ⟩
    have hundigit : n.hash.Undigit := hread.1 (hfile.box.symm.trans hhash)
    obtain ⟨-, -, hname, -⟩ := newLocalFile_some hfile.made
    rw [hpath, Notification.input_path hundigit] at hname
    have hspace := (padTo_firstWord_iff hlen).1 hname.symm
    have hmade := newLocalFile_iff.1 ⟨f, hfile.made⟩
    have hplace := hfile.dir
    rw [hread.2 hundigit, hdir] at hplace
    rw [hmask hundigit, Notification.input_path hundigit, firstWord_of_noSpace hspace,
      ← Option.some.inj hplace] at hmade
    exact ⟨haccepts.1 haccepted, hundigit, hspace, hmade⟩
  · rintro ⟨hhears, hundigit, hspace, hmade⟩
    obtain ⟨f, hf⟩ := newLocalFile_iff.2 hmade
    obtain ⟨hhash, hplace, hname, -⟩ := newLocalFile_some hf
    have hpath : (n.input env).path = n.path := by
      rw [Notification.input_path hundigit, firstWord_of_noSpace hspace]
    have hfile : LocalFile bo (n.input env) f := by
      refine ⟨?_, ?_, ?_, ?_⟩
      · rw [hread.2 hundigit, hhash]
      · rw [hread.2 hundigit, hdir, hplace]
      · rwa [hpath]
      · rwa [hread.2 hundigit, hpath, hmask hundigit, hplace]
    obtain ⟨bo', out, hreturned, happ⟩ := (happended f).2 ⟨haccepts.2 hhears, hfile⟩
    exact ⟨bo', out, f, hreturned, hhash, hname, happ⟩

namespace Sample

def deletion (name : Char) : Notification :=
  ⟨inDeleteMask, by decide, box, ascii ['/', name], .s320, by decide⟩

end Sample

theorem localChange_queued_whileSending :
    let bo := after Boxoffice.next (Sample.start [.fill 65])
      [Sample.modified 'f', Sample.heard .s121 (by decide) (.fill 65)]
    bo.Queues (Sample.deletion 'g') Sample.env ↔
      deafTo .s320 bo.state = false ∧ (Sample.deletion 'g').Sound Sample.dir Sample.env :=
  localChange_queued (by rfl) (run_after (by decide +kernel)) (by decide +kernel) (by decide)
    (by decide +kernel) (by decide +kernel)

/-- The follower of a metadata session does not hear of a deletion. -/
theorem localChange_queued_fails :
    ¬ ∀ (start bo : Boxoffice) (tr : List (Boxoffice × Input)) (n : Notification) (env : Env)
      (dir : Bytes), start.state = .ready → Run Boxoffice.next start tr bo →
      start.baseDir n.hash = some dir → n.path.length ≤ maximumPathLength → bo.state ≠ .exit →
      bo.state ≠ .announcingNewFile → n.Sound dir env → bo.Queues n env := by
  intro h
  obtain ⟨bo', out, f, hreturned, -, -, hmeta, -⟩ := h (Sample.start [.fill 65])
    (after Boxoffice.next _ [Sample.heard .s160 (by decide) (.fill 65)]) _ (Sample.deletion 'f')
    Sample.env Sample.dir rfl (run_after (by decide +kernel)) (by decide +kernel) (by decide)
    (by decide +kernel) (by decide +kernel)
    ⟨by decide +kernel, by decide +kernel, .inl (by decide +kernel)⟩
  have hkept : ((after Boxoffice.next (Sample.start [.fill 65])
      [Sample.heard .s160 (by decide) (.fill 65)]).next ((Sample.deletion 'f').input Sample.env)).map
        (fun b => b.fileListMetadata.length) = some 0 := by decide +kernel
  rw [next_of_returned hreturned] at hkept
  simp [hmeta, Sample.deletion] at hkept

end Flocksy
