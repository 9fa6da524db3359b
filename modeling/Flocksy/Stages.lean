import Flocksy.Heartbeats

/-!
# The stages before the transition

`Settled` says what an accepted message leaves when the stages before the
transition are through: the status that the transition is taken with, and what
became of the replied flags, the deques and the message to the dispatcher.
-/

namespace Flocksy

open ByteStream Fsm

def Notified (bo : Boxoffice) (fr : Frame) : Prop :=
  if notifies fr.status then
    ∃ p ps dir, bo.fileListData = p :: ps ∧ bo.baseDir bo.currentBox = some dir ∧
      fr.out = [.dispatcher fr.status (timingBytes fr.bo.currentTimingOffset ++
        bo.currentBox.bytes ++ dir ++ space :: p.file.write.drop 32)]
  else fr.out = []

structure LocalFile (bo : Boxoffice) (inp : Input) (f : File) : Prop where
  box : f.boxHash = inp.box
  dir : bo.baseDir inp.box = some f.boxPath
  short : inp.path.length ≤ maximumPathLength
  made : newLocalFile inp.env.fs f.boxPath inp.box inp.path inp.mask = some f

inductive Settled (bo : Boxoffice) (inp : Input) (fr : Frame) : Prop where
  | silent : isAck inp.status = false → isLocal inp.status = false →
      fr.status ∈ rewordings inp.status → (∀ h, fr.bo.Replied h ↔ bo.Replied h) →
      bo.SameQueues fr.bo → (∀ s payload, .heartbeat s payload ∈ fr.out → s = .s100) →
      Settled bo inp fr
  | counted : isAck inp.status = true → ¬ bo.Completes inp → fr.status = inp.status →
      (∀ h, fr.bo.Replied h ↔ h = inp.sender ∨ bo.Replied h) → bo.SameQueues fr.bo →
      fr.out = [] → Settled bo inp fr
  | completed : bo.Completes inp → fr.status = bo.completion inp.status →
      (∀ h, ¬ fr.bo.Replied h) → bo.SameQueues fr.bo → fr.bo.currentBox = bo.currentBox →
      Notified bo fr → Settled bo inp fr
  | queued (f : File) : isLocal inp.status = true → fr.status = inp.status →
      bo.state ≠ .announcingNewFile → LocalFile bo inp f → (∀ h, ¬ fr.bo.Replied h) →
      fr.bo.nextAddr = bo.nextAddr + 1 →
      fr.bo.fileListMetadata =
        bo.fileListMetadata ++ (if inp.status = .s300 then [] else [bo.filePtr f]) →
      fr.bo.fileListData = bo.fileListData ++ (if inp.status = .s300 then [bo.filePtr f] else []) →
      fr.bo.currentBox = inp.box → fr.out = [] → Settled bo inp fr
  | twice : isLocal inp.status = true → fr.status = .s301 → bo.state = .announcingNewFile →
      (∀ h, ¬ fr.bo.Replied h) → fr.bo.nextAddr = bo.nextAddr + 1 →
      fr.bo.fileListMetadata = bo.fileListMetadata → fr.bo.fileListData = bo.fileListData →
      fr.bo.currentBox = inp.box → fr.out = [] → Settled bo inp fr

abbrev settledPosts (bo : Boxoffice) (inp : Input) : Exec.Posts Frame ℕ Fault :=
  stagePosts bo inp fun fr => Steady bo fr ∧ Settled bo inp fr

theorem Steady.notifies_iff {bo : Boxoffice} {fr : Frame} (hs : Steady bo fr) :
    ((fr.event = .allNodesReplied ∧ fr.status = .s122) ∨
      (fr.event = .allNodesHaveAllMetadataChangesWithMore ∧ fr.status = .s177)) ↔
      notifies fr.status = true := by
  rw [hs.event]
  cases fr.status <;> decide

def isRemote (event : Event) : Bool := !isLocalEvent event && event ≠ .receivedFileData

theorem localFileEvent_of_remote {fr : Frame} (h : isRemote fr.event = true) :
    localFileEvent fr = .next fr := by
  simp only [isRemote, Bool.and_eq_true, Bool.not_eq_true'] at h
  simp [localFileEvent, h.1]

theorem receivedFileData_of_remote {fr : Frame} (h : isRemote fr.event = true) :
    receivedFileData fr = .next fr := by
  simp only [isRemote, Bool.and_eq_true, decide_eq_true_eq] at h
  simp [receivedFileData, h.2]

theorem Steady.notifyDispatcher_eq {bo : Boxoffice} {fr : Frame} (hs : Steady bo fr)
    (h : notifies fr.status = false) : notifyDispatcher fr = .next fr := by
  rw [notifyDispatcher, if_neg]
  rw [hs.notifies_iff, h]
  decide

theorem remote_of_heartbeat : ∀ s ∈ conformingStatuses, isAck s = false →
    getEventByStatusCode s = .receivedHeartbeat → ∀ r ∈ rewordings s,
      notifies r = false ∧ isLocal s = false ∧ isRemote (getEventByStatusCode r) = true := by
  decide +kernel

theorem remote_of_ack : ∀ s, isAck s = true →
    notifies s = false ∧ isRemote (getEventByStatusCode s) = true := by
  decide +kernel

theorem remote_of_completion : ∀ s, ∀ r ∈ completions s,
    isRemote (getEventByStatusCode r) = true := by
  decide +kernel

section Notify

variable {fr : Frame}
  (hcond : (fr.event = .allNodesReplied ∧ fr.status = .s122) ∨
    (fr.event = .allNodesHaveAllMetadataChangesWithMore ∧ fr.status = .s177))
include hcond

theorem notifyDispatcher_unknownBox (hbox : fr.bo.baseDir fr.bo.currentBox = none) :
    notifyDispatcher fr = .fault .nullBox := by
  simp [notifyDispatcher, hcond, hbox]

theorem notifyDispatcher_emptyDeque {dir : Bytes}
    (hbox : fr.bo.baseDir fr.bo.currentBox = some dir) (hdata : fr.bo.fileListData = []) :
    notifyDispatcher fr = .fault .frontOfEmptyDeque := by
  simp [notifyDispatcher, hcond, hbox, hdata]

theorem notifyDispatcher_next {dir : Bytes} {p : FilePtr} {ps : List FilePtr}
    (hbox : fr.bo.baseDir fr.bo.currentBox = some dir) (hdata : fr.bo.fileListData = p :: ps) :
    ∃ s h timing, notifyDispatcher fr = .next ({ fr with
      sstream := s
      bo := { fr.bo with
        subscribers := fr.bo.subscribers.touch h, currentTimingOffset := timing } }.send
          [.dispatcher fr.status (timingBytes timing ++ fr.bo.currentBox.bytes ++ dir ++
            space :: p.file.write.drop 32)]) := by
  rcases hread : (fr.sstream.seekTo 5).read genericHashLen with ⟨nodeHash, s⟩
  refine ⟨s, Hash.ofBytes nodeHash, sendTiming fr (Hash.ofBytes nodeHash), ?_⟩
  simp only [notifyDispatcher, hcond, ↓reduceIte, hread, hbox, hdata]

end Notify

section Stages

variable {bo : Boxoffice} {inp : Input}

theorem notifyDispatcher_post {fr : Frame} (hs : Steady bo fr) (hh : Heard bo inp fr)
    (hev : getEventByStatusCode inp.status = .receivedHeartbeat) :
    (notifyDispatcher fr).Post (stagePosts bo inp fun fr =>
      (Steady bo fr ∧ Settled bo inp fr) ∧ isRemote fr.event = true) := by
  have hevent := hs.event
  cases hh with
  | silent hack hst hrep hq hout =>
    obtain ⟨hno, hloc, hrem⟩ :=
      remote_of_heartbeat _ (conforming_iff.1 inp.conforming) hack hev _ hst
    rw [hs.notifyDispatcher_eq hno]
    exact ⟨⟨hs, .silent hack hloc hst hrep hq hout⟩, hevent ▸ hrem⟩
  | counted hack hnot hst hrep hq hout =>
    obtain ⟨hno, hrem⟩ := remote_of_ack _ hack
    rw [← hst] at hno hrem
    rw [hs.notifyDispatcher_eq hno]
    exact ⟨⟨hs, .counted hack hnot hst hrep hq hout⟩, hevent ▸ hrem⟩
  | completed hcomp hst hrep hq hbox hout =>
    have hrem := remote_of_completion _ _ (bo.completion_mem hcomp.1)
    rw [← hst, ← hevent] at hrem
    cases hno : notifies fr.status with
    | false =>
      rw [hs.notifyDispatcher_eq hno]
      exact ⟨⟨hs, .completed hcomp hst hrep hq hbox (by simpa [Notified, hno] using hout)⟩, hrem⟩
    | true =>
      have hround : bo.RoundAccepted inp := by
        have hacc := hs.accepted
        rwa [hevent, hst] at hacc
      have hcond := hs.notifies_iff.2 hno
      have hdir : fr.bo.baseDir fr.bo.currentBox = bo.baseDir bo.currentBox := by
        rw [hbox, Boxoffice.baseDir, hs.boxes, Boxoffice.baseDir]
      cases hb : bo.baseDir bo.currentBox with
      | none =>
        rw [notifyDispatcher_unknownBox hcond (hdir.trans hb)]
        exact .unknownBox hcomp hround (hst ▸ hno) hb
      | some dir =>
        cases hd : bo.fileListData with
        | nil =>
          rw [notifyDispatcher_emptyDeque hcond (hdir.trans hb) (hq.2.1.trans hd)]
          exact .emptyDeque hcomp hround (hst ▸ hno) hd
        | cons p ps =>
          obtain ⟨s, h, timing, heq⟩ :=
            notifyDispatcher_next hcond (hdir.trans hb) (hq.2.1.trans hd)
          rw [heq]
          refine ⟨⟨⟨hs.state, hs.boxes, hevent, hs.accepted, hs.currentBox⟩,
            .completed hcomp hst (fun h hrepl => hrep h (touch_replied.1 hrepl)) hq hbox ?_⟩, hrem⟩
          simp only [Notified, Frame.send, hno, ↓reduceIte, hout, hbox]
          exact ⟨p, ps, dir, hd, hb, rfl⟩

theorem newLocalFile_some {fs : FileSystem} {dir : Bytes} {hash : Hash} {path : Bytes} {mask : ℤ}
    {f : File} (h : newLocalFile fs dir hash path mask = some f) :
    f.boxHash = hash ∧ f.boxPath = dir ∧ f.path = padTo maximumPathLength path ∧
      f.deletedFile = masksDelete mask := by
  unfold newLocalFile at h
  split_ifs at h with hdel
  · obtain rfl := Option.some.inj h
    exact ⟨rfl, rfl, rfl, hdel.symm⟩
  · obtain ⟨st, -, rfl⟩ := Option.map_eq_some_iff.1 h
    exact ⟨rfl, rfl, rfl, (Bool.eq_false_iff.2 hdel).symm⟩

theorem Boxoffice.not_listed (bo : Boxoffice) (event : Event) :
    (bo.fileList event).any (·.addr = bo.nextAddr) = false := by
  rw [List.any_eq_false]
  intro p hp
  have hmem : p ∈ bo.fileListMetadata ++ bo.fileListData := by
    rw [List.mem_append]
    unfold Boxoffice.fileList at hp
    split_ifs at hp
    · exact .inr hp
    · exact .inl hp
  simpa using (bo.allocated p hmem).ne

def Input.afterPath (inp : Input) : Stream :=
  ((inp.sstream.extractInt 0).2.read genericHashLen).2.extractWord.2

def localFrame (bo : Boxoffice) (inp : Input) : Frame :=
  { Frame.start { bo with currentBox := inp.box } inp.status inp.sstream inp.env with
    sstream := inp.afterPath }

theorem localFileEvent_eq (hevent : isLocalEvent (getEventByStatusCode inp.status) = true) :
    localFileEvent (Frame.start bo inp.status inp.sstream inp.env) =
      if inp.path.length > maximumPathLength then .ret 1 (localFrame bo inp)
      else
        match bo.baseDir inp.box with
        | none => .fault .nullBox
        | some dir =>
          match newLocalFile inp.env.fs dir inp.box inp.path inp.mask with
          | none => .fault .exception
          | some newFile =>
            .next { queueFile (localFrame bo inp) newFile with
              bo := (queueFile (localFrame bo inp) newFile).bo.clearReplied } := by
  have hstart : isLocalEvent (Frame.start bo inp.status inp.sstream inp.env).event = true := hevent
  rw [localFileEvent, if_pos hstart]
  rfl

theorem queueFile_twice {fr : Frame} {f : File} (hstate : fr.bo.state = .announcingNewFile) :
    queueFile fr f = { fr with bo := fr.bo.allocate }.become .s301 := by
  have hnot : ¬ (fr.bo.fileList fr.event).any (·.addr = (fr.bo.filePtr f).addr) = true :=
    Bool.eq_false_iff.1 (fr.bo.not_listed fr.event)
  simp only [queueFile]
  rw [if_pos hstate, if_neg hnot]

theorem queueFile_push {fr : Frame} {f : File} (hstate : fr.bo.state ≠ .announcingNewFile) :
    queueFile fr f = { fr with
      bo := fr.bo.allocate.pushFile fr.event (fr.bo.filePtr f) fr.bo.nextAddr.lt_succ_self } := by
  simp [queueFile, hstate]

theorem localFileEvent_post (hlocal : isLocal inp.status = true)
    (hacc : checkEvent bo.state (getEventByStatusCode inp.status) inp.status = true) :
    (localFileEvent (Frame.start bo inp.status inp.sstream inp.env)).Post
      (stagePosts bo inp fun fr =>
        (Steady bo fr ∧ Settled bo inp fr) ∧ fr.event ≠ .receivedFileData) := by
  have hevent : isLocalEvent (getEventByStatusCode inp.status) = true ∧
      getEventByStatusCode inp.status ≠ .receivedFileData := by
    revert hlocal
    cases inp.status <;> decide
  rw [localFileEvent_eq hevent.1]
  split_ifs with hlen
  · exact .path hlocal hlen
  cases hdir : bo.baseDir inp.box with
  | none => exact .localFile hlocal (fun dir h => by simp [hdir] at h) (by decide)
  | some dir =>
    cases hnew : newLocalFile inp.env.fs dir inp.box inp.path inp.mask with
    | none =>
      simp only [hnew]
      refine .localFile hlocal (fun dir' h => ?_) (by decide)
      rwa [← Option.some.inj (hdir.symm.trans h)]
    | some f =>
      obtain ⟨hhash, hpath, -⟩ := newLocalFile_some hnew
      have hfile : LocalFile bo inp f := ⟨hhash, hpath ▸ hdir, not_lt.1 hlen, hpath ▸ hnew⟩
      simp only [hnew]
      by_cases hstate : bo.state = .announcingNewFile
      · have htwice : checkEvent .announcingNewFile .newLocalFileReportedTwice .s301 = true := by
          decide
        rw [queueFile_twice hstate]
        have hother : Event.newLocalFileReportedTwice ≠ .receivedFileData := by decide
        refine ⟨⟨⟨rfl, rfl, rfl, ?_, .inr ⟨dir, hdir⟩⟩, ?_⟩, hother⟩
        · rw [hstate]
          exact htwice
        · exact .twice hlocal rfl hstate (Boxoffice.clearReplied_replied _) rfl rfl rfl rfl rfl
      · rw [queueFile_push hstate]
        refine ⟨⟨⟨rfl, rfl, rfl, hacc, .inr ⟨dir, hdir⟩⟩, ?_⟩, hevent.2⟩
        have hdata : isDataEvent (getEventByStatusCode inp.status) = true ↔ inp.status = .s300 := by
          revert hlocal
          cases inp.status <;> decide
        refine .queued f hlocal rfl hstate hfile (Boxoffice.clearReplied_replied _) rfl ?_ ?_ rfl rfl
        · exact congrArg (bo.fileListMetadata ++ ·) (if_congr hdata rfl rfl)
        · exact congrArg (bo.fileListData ++ ·) (if_congr hdata rfl rfl)

theorem fileDataRow :
    ∀ state, checkEvent state .receivedFileData .s200 = true →
      checkEvent state .allDataReceived .s113 = true := by
  decide +kernel

theorem receivedFileData_post (hst : inp.status = .s200)
    (hacc : checkEvent bo.state (getEventByStatusCode inp.status) inp.status = true) :
    (receivedFileData (Frame.start bo inp.status inp.sstream inp.env)).Post
      (heardPosts bo inp) := by
  have hack : isAck inp.status = false := by rw [hst]; decide
  have hbegun := start_begun hacc
  have hevent : (Frame.start bo inp.status inp.sstream inp.env).event = .receivedFileData := by
    rw [hst]
    rfl
  rw [receivedFileData, if_pos hevent]
  cases hdir : bo.baseDir bo.currentBox with
  | none =>
    simp only [Frame.start, hdir]
    exact .file hack (by rw [hst]; decide) (by decide)
  | some dir =>
    cases hread : (File.blank dir bo.currentBox).read bo.currentFile inp.env.fs with
    | none =>
      simp only [Frame.start, hdir, hread]
      exact .file hack (by rw [hst]; decide) (by decide)
    | some x =>
      cases hmore : (readFilePackage inp.sstream).1.more with
      | false =>
        simp only [Frame.start, hdir, hread, hmore, Bool.not_false, ↓reduceIte]
        refine hbegun.checked_post (s := .s113)
          ⟨rfl, rfl, rfl, ⟨rfl, rfl, rfl⟩, .inl rfl, rfl, rfl, ?_⟩ hack
          (by simp [hst, rewordings]) (fileDataRow _ (by rw [hst] at hacc; exact hacc))
        exact fun _ _ h => by simp [Frame.send] at h
      | true =>
        simp only [Frame.start, hdir, hread, hmore, Bool.not_true, Bool.false_eq_true, ↓reduceIte]
        refine hbegun.near_post ⟨rfl, rfl, rfl, ⟨rfl, rfl, rfl⟩, .inl rfl, rfl, rfl, ?_⟩ hack
        exact fun _ _ h => by simp [Frame.send] at h

theorem other_of_conforming : ∀ s ∈ conformingStatuses,
    getEventByStatusCode s ≠ .receivedHeartbeat → isLocal s = false →
      isAck s = false ∧ notifies s = false ∧ isLocalEvent (getEventByStatusCode s) = false ∧
        (getEventByStatusCode s = .receivedFileData → s = .s200) := by
  decide +kernel

theorem stages_post
    (hacc : checkEvent bo.state (getEventByStatusCode inp.status) inp.status = true) :
    (stages (Frame.start bo inp.status inp.sstream inp.env)).Post (settledPosts bo inp) := by
  have hbegun := start_begun hacc
  unfold stages
  by_cases hheart : getEventByStatusCode inp.status = .receivedHeartbeat
  · have hreceived : receivedHeartbeat (Frame.start bo inp.status inp.sstream inp.env) =
        heartbeatBranch (updateTimestamp (Frame.start bo inp.status inp.sstream inp.env)) :=
      if_pos hheart
    rw [hreceived]
    refine ((((updateTimestamp_received hacc).heartbeatBranch_post hheart).andThen
      fun fr h => notifyDispatcher_post h.1 h.2 hheart).andThen fun fr h => ?_).andThen
      (P := fun fr => (Steady bo fr ∧ Settled bo inp fr) ∧ isRemote fr.event = true) fun fr h => ?_
    · rw [localFileEvent_of_remote h.2]
      exact h
    · rw [receivedFileData_of_remote h.2]
      exact h.1
  · have hreceived : receivedHeartbeat (Frame.start bo inp.status inp.sstream inp.env) =
        .next (Frame.start bo inp.status inp.sstream inp.env) := if_neg hheart
    cases hlocal : isLocal inp.status with
    | true =>
      have hno : notifies inp.status = false := by
        revert hlocal
        cases inp.status <;> decide
      rw [hreceived, Exec.andThen, hbegun.steady.notifyDispatcher_eq hno, Exec.andThen]
      refine (localFileEvent_post hlocal hacc).andThen fun fr h => ?_
      rw [receivedFileData, if_neg h.2]
      exact h.1
    | false =>
      obtain ⟨hack, hno, hloc, hdata⟩ :=
        other_of_conforming _ (conforming_iff.1 inp.conforming) hheart hlocal
      have hlater : localFileEvent (Frame.start bo inp.status inp.sstream inp.env) =
          .next (Frame.start bo inp.status inp.sstream inp.env) :=
        if_neg (ne_true_of_eq_false hloc)
      rw [hreceived, Exec.andThen, hbegun.steady.notifyDispatcher_eq hno, Exec.andThen, hlater,
        Exec.andThen]
      have hheard : (receivedFileData (Frame.start bo inp.status inp.sstream inp.env)).Post
          (heardPosts bo inp) := by
        by_cases h200 : getEventByStatusCode inp.status = .receivedFileData
        · exact receivedFileData_post (hdata h200) hacc
        · have hskip : receivedFileData (Frame.start bo inp.status inp.sstream inp.env) =
              .next (Frame.start bo inp.status inp.sstream inp.env) := if_neg h200
          rw [hskip]
          exact hbegun.near_post (.refl _) hack
      refine hheard.mono (fun fr h => ⟨h.1, ?_⟩) (fun _ _ h => h) fun _ h => h
      cases h.2 with
      | silent _ hst hrep hq hout => exact .silent hack hlocal hst hrep hq hout
      | counted hack' => simp [hack] at hack'
      | completed hcomp => exact absurd hcomp.1 (by simp [hack])

end Stages

end Flocksy
