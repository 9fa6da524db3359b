import Flocksy.LocalNotifications

/-!
# Reports while a file is announced

While a new file is announced, a file that is reported is looked for in its deque, so that no path is
queued twice. What is compared are the pointers, and the one that is looked for has just been made.
-/

namespace Flocksy

open ByteStream Fsm Runs

structure Report where
  mask : ℤ
  box : Hash
  path : Bytes

def Report.read (s : Stream) : Report × Stream :=
  let (mask, s) := s.extractInt 0
  let (boxHash, s) := s.read genericHashLen
  let (path, s) := s.extractWord
  (⟨mask, Hash.ofBytes boxHash, path⟩, s)

def Report.file (r : Report) (bo : Boxoffice) (fs : FileSystem) : Option File :=
  if r.path.length > maximumPathLength then none
  else (bo.baseDir r.box).bind fun dir => newLocalFile fs dir r.box r.path r.mask

def Report.Listed (r : Report) (bo : Boxoffice) (event : Event) : Prop :=
  ∃ p ∈ bo.fileList event, p.file.path = padTo maximumPathLength r.path

variable {bo : Boxoffice} {status : Status} {sstream : Stream} {env : Env}

theorem plain_of_local : ∀ status, isLocalEvent (getEventByStatusCode status) = true →
    getEventByStatusCode status ≠ .receivedHeartbeat ∧
      getEventByStatusCode status ≠ .allNodesReplied ∧
      getEventByStatusCode status ≠ .allNodesHaveAllMetadataChangesWithMore := by
  decide +kernel

theorem stages_of_local (hlocal : isLocalEvent (getEventByStatusCode status) = true) :
    stages (Frame.start bo status sstream env) =
      (localFileEvent (Frame.start bo status sstream env)).andThen receivedFileData := by
  obtain ⟨hheartbeat, hreplied, hmetadata⟩ := plain_of_local status hlocal
  have hreceived : receivedHeartbeat (Frame.start bo status sstream env) =
      .next (Frame.start bo status sstream env) := if_neg hheartbeat
  have hnotify : notifyDispatcher (Frame.start bo status sstream env) =
      .next (Frame.start bo status sstream env) :=
    if_neg fun h => h.elim (fun h => hreplied h.1) fun h => hmetadata h.1
  rw [stages, hreceived, Exec.andThen, hnotify, Exec.andThen]

def readFrame (bo : Boxoffice) (status : Status) (sstream : Stream) (env : Env) : Frame :=
  { Frame.start bo status sstream env with
    sstream := (Report.read sstream).2
    bo := { bo with currentBox := (Report.read sstream).1.box } }

def repeatedFrame (bo : Boxoffice) (status : Status) (sstream : Stream) (env : Env) : Frame :=
  { readFrame bo status sstream env with
    bo := (readFrame bo status sstream env).bo.allocate.clearReplied }.become .s301

theorem repeatedFrame_fileList (event : Event) :
    (repeatedFrame bo status sstream env).bo.fileList event = bo.fileList event := rfl

theorem localFileEvent_report (hlocal : isLocalEvent (getEventByStatusCode status) = true) :
    localFileEvent (Frame.start bo status sstream env) =
      if (Report.read sstream).1.path.length > maximumPathLength then
        .ret 1 (readFrame bo status sstream env)
      else
        match bo.baseDir (Report.read sstream).1.box with
        | none => .fault .nullBox
        | some dir =>
          match newLocalFile env.fs dir (Report.read sstream).1.box (Report.read sstream).1.path
            (Report.read sstream).1.mask with
          | none => .fault .exception
          | some newFile =>
            .next { queueFile (readFrame bo status sstream env) newFile with
              bo := (queueFile (readFrame bo status sstream env) newFile).bo.clearReplied } := by
  have hstart : isLocalEvent (Frame.start bo status sstream env).event = true := hlocal
  rw [localFileEvent, if_pos hstart]
  rfl

/-- While a file is announced, every report whose file can be made is taken for a repeated one. -/
theorem stages_announcing (hstate : bo.state = .announcingNewFile)
    (hlocal : isLocalEvent (getEventByStatusCode status) = true) {f : File}
    (hfile : (Report.read sstream).1.file bo env.fs = some f) :
    stages (Frame.start bo status sstream env) =
      .next (repeatedFrame bo status sstream env) := by
  rw [Report.file] at hfile
  split_ifs at hfile with hlen
  obtain ⟨dir, hdir, hnew⟩ := Option.bind_eq_some_iff.1 hfile
  have htwice : queueFile (readFrame bo status sstream env) f = _ := queueFile_twice hstate
  have hnot : getEventByStatusCode .s301 ≠ .receivedFileData := by decide
  rw [stages_of_local hlocal, localFileEvent_report hlocal, if_neg hlen, hdir]
  simp only [hnew, htwice, Exec.andThen]
  exact if_neg hnot

theorem stages_unmade (hlocal : isLocalEvent (getEventByStatusCode status) = true)
    (hfile : (Report.read sstream).1.file bo env.fs = none) (fr : Frame) :
    stages (Frame.start bo status sstream env) ≠ .next fr := by
  rw [Report.file] at hfile
  rw [stages_of_local hlocal, localFileEvent_report hlocal]
  split_ifs at hfile ⊢ with hlen
  · exact nofun
  · cases hdir : bo.baseDir (Report.read sstream).1.box with
    | none => exact nofun
    | some dir =>
      rw [hdir, Option.bind_some] at hfile
      simp only [hfile]
      exact nofun

/-- A report of a path that is listed leaves the deque as it is and becomes a file reported twice; a
report of any other path puts its file at the end of the deque and stays what it is. -/
def QueuedOnce (bo : Boxoffice) (status : Status) (sstream : Stream) (env : Env) : Prop :=
  ∃ fr, stages (Frame.start bo status sstream env) = .next fr ∧
    ((Report.read sstream).1.Listed bo (getEventByStatusCode status) →
      fr.bo.fileList (getEventByStatusCode status) = bo.fileList (getEventByStatusCode status) ∧
        fr.status = .s301 ∧ fr.event = getEventByStatusCode .s301) ∧
    (¬ (Report.read sstream).1.Listed bo (getEventByStatusCode status) →
      fr.status = status ∧ fr.event = getEventByStatusCode status ∧
        ∃ p : FilePtr, p.file.path = padTo maximumPathLength (Report.read sstream).1.path ∧
          fr.bo.fileList (getEventByStatusCode status) =
            bo.fileList (getEventByStatusCode status) ++ [p])

/-- Only what is listed already is treated as it should be. -/
theorem queuedOnce_iff (bo : Boxoffice) (hstate : bo.state = .announcingNewFile) (status : Status)
    (hlocal : isLocalEvent (getEventByStatusCode status) = true) (sstream : Stream) (env : Env) :
    QueuedOnce bo status sstream env ↔
      (Report.read sstream).1.Listed bo (getEventByStatusCode status) ∧
        ((Report.read sstream).1.file bo env.fs).isSome := by
  cases hfile : (Report.read sstream).1.file bo env.fs with
  | none =>
    refine iff_of_false ?_ (by simp)
    rintro ⟨fr, hnext, -⟩
    exact stages_unmade hlocal hfile fr hnext
  | some f =>
    have hstages : stages (Frame.start bo status sstream env) = _ :=
      stages_announcing hstate hlocal hfile
    constructor
    · rintro ⟨fr, hnext, -, hother⟩
      refine ⟨?_, rfl⟩
      by_contra hlisted
      obtain ⟨-, -, p, -, hqueue⟩ := hother hlisted
      rw [hstages] at hnext
      cases hnext
      rw [repeatedFrame_fileList] at hqueue
      exact absurd hqueue (by simp)
    · rintro ⟨hlisted, -⟩
      exact ⟨_, hstages, fun _ => ⟨rfl, rfl, rfl⟩, fun hnot => absurd hlisted hnot⟩

theorem queuedOnce_iff_same :
    QueuedOnce Sample.announcing .s300 (Sample.modified 'f').sstream Sample.env ↔
      (Report.read (Sample.modified 'f').sstream).1.Listed Sample.announcing .newLocalFile ∧
        ((Report.read (Sample.modified 'f').sstream).1.file Sample.announcing Sample.env.fs).isSome :=
  queuedOnce_iff Sample.announcing (by decide +kernel) .s300 (by decide) _ _

/-- Another file is not queued. -/
theorem queuedOnce_fails :
    ¬ ∀ (bo : Boxoffice) (status : Status) (sstream : Stream) (env : Env),
      bo.state = .announcingNewFile → isLocalEvent (getEventByStatusCode status) = true →
      ((Report.read sstream).1.file bo env.fs).isSome → QueuedOnce bo status sstream env := by
  intro h
  have hmade : ((Report.read (Sample.modified 'g').sstream).1.file Sample.announcing
      Sample.env.fs).isSome := by
    decide +kernel
  have hstate : Sample.announcing.state = .announcingNewFile := by decide +kernel
  obtain ⟨f, hfile⟩ := Option.isSome_iff_exists.1 hmade
  obtain ⟨fr, hnext, -, hother⟩ := h Sample.announcing .s300 (Sample.modified 'g').sstream
    Sample.env hstate (by decide) hmade
  have hlisted : ¬ (Report.read (Sample.modified 'g').sstream).1.Listed Sample.announcing
      (getEventByStatusCode .s300) := by
    unfold Report.Listed
    decide +kernel
  obtain ⟨-, -, p, -, hqueue⟩ := hother hlisted
  rw [stages_announcing hstate (by decide) hfile] at hnext
  cases hnext
  rw [repeatedFrame_fileList] at hqueue
  exact absurd hqueue (by simp)

end Flocksy
