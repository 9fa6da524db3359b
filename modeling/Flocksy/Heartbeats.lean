import Flocksy.Foundation.Exec
import Flocksy.Rounds

/-!
# Received heartbeats

What `processEvent` does with a message of a peer before the dispatcher is told:
the branches of the switch over the status. A branch either leaves the flags and
the deques alone and goes on with the status or a rewording of it (`Heard.silent`), or
it counts an acknowledgement that does not end the round, or it ends the round.
-/

namespace Flocksy

open ByteStream Fsm

structure Steady (bo : Boxoffice) (fr : Frame) : Prop where
  state : fr.bo.state = bo.state
  boxes : fr.bo.boxes = bo.boxes
  event : fr.event = getEventByStatusCode fr.status
  accepted : checkEvent bo.state fr.event fr.status = true
  currentBox : fr.bo.currentBox = bo.currentBox ∨ ∃ dir, bo.baseDir fr.bo.currentBox = some dir

inductive Heard (bo : Boxoffice) (inp : Input) (fr : Frame) : Prop where
  | silent : isAck inp.status = false → fr.status ∈ rewordings inp.status →
      (∀ h, fr.bo.Replied h ↔ bo.Replied h) → bo.SameQueues fr.bo →
      (∀ s payload, .heartbeat s payload ∈ fr.out → s = .s100) → Heard bo inp fr
  | counted : isAck inp.status = true → ¬ bo.Completes inp → fr.status = inp.status →
      (∀ h, fr.bo.Replied h ↔ h = inp.sender ∨ bo.Replied h) → bo.SameQueues fr.bo →
      fr.out = [] → Heard bo inp fr
  | completed : bo.Completes inp → fr.status = bo.completion inp.status →
      (∀ h, ¬ fr.bo.Replied h) → bo.SameQueues fr.bo → fr.bo.currentBox = bo.currentBox →
      fr.out = [] → Heard bo inp fr

theorem File.read_box {f : File} {s : Stream} {fs : FileSystem} {x : File.Extraction}
    (h : f.read s fs = some x) : x.file.boxHash = f.boxHash ∧ x.file.boxPath = f.boxPath := by
  unfold File.read at h
  split_ifs at h with hpath
  simp only at h
  split at h
  · split_ifs at h <;> (obtain rfl := Option.some.inj h; exact ⟨rfl, rfl⟩)
  · split at h
    · simp at h
    · split at h <;> (obtain rfl := Option.some.inj h; exact ⟨rfl, rfl⟩)

structure Begun (bo : Boxoffice) (inp : Input) (fr : Frame) : Prop where
  steady : Steady bo fr
  status : fr.status = inp.status
  replied : ∀ h, fr.bo.Replied h ↔ bo.Replied h
  queues : bo.SameQueues fr.bo
  currentBox : fr.bo.currentBox = bo.currentBox
  out : fr.out = []

structure Received (bo : Boxoffice) (inp : Input) (fr : Frame) : Prop extends Begun bo inp fr where
  sender : fr.bo.currentNodeHash = inp.sender
  keys : ∀ h, h ∈ fr.bo.subscribers.keys ↔ h = inp.sender ∨ h ∈ bo.subscribers.keys

section Start

variable {bo : Boxoffice} {inp : Input}
  (hacc : checkEvent bo.state (getEventByStatusCode inp.status) inp.status = true)
include hacc

theorem start_begun : Begun bo inp (Frame.start bo inp.status inp.sstream inp.env) :=
  ⟨⟨rfl, rfl, rfl, hacc, .inl rfl⟩, rfl, fun _ => .rfl, ⟨rfl, rfl, rfl⟩, rfl, rfl⟩

theorem updateTimestamp_received :
    Received bo inp (updateTimestamp (Frame.start bo inp.status inp.sstream inp.env)) where
  steady := ⟨rfl, rfl, rfl, hacc, .inl rfl⟩
  status := rfl
  replied _ := modify_replied fun _ => rfl
  queues := ⟨rfl, rfl, rfl⟩
  currentBox := rfl
  out := rfl
  sender := rfl
  keys _ := KeyedTable.mem_modify_keys

end Start

theorem Received.completes_iff {bo : Boxoffice} {inp : Input} {fr : Frame}
    (hr : Received bo inp fr) (hack : isAck inp.status = true) :
    fr.bo.markReplied.subscribers.all Node.replied = true ↔ bo.Completes inp := by
  rw [Boxoffice.markReplied_all, hr.sender, Boxoffice.Completes]
  simp only [hack, true_and, hr.keys, hr.replied]
  constructor
  · exact fun h k hk => h k (.inr hk)
  · rintro h k (rfl | hk)
    · exact .inl rfl
    · exact h k hk

/-- The later frame differs in the current file and the flags of the session only. -/
structure Near (fr fr' : Frame) : Prop where
  state : fr'.bo.state = fr.bo.state
  boxes : fr'.bo.boxes = fr.bo.boxes
  subscribers : fr'.bo.subscribers = fr.bo.subscribers
  queues : fr.bo.SameQueues fr'.bo
  currentBox :
    fr'.bo.currentBox = fr.bo.currentBox ∨ ∃ dir, fr.bo.baseDir fr'.bo.currentBox = some dir
  status : fr'.status = fr.status
  event : fr'.event = fr.event
  out : ∀ s payload, .heartbeat s payload ∈ fr'.out → .heartbeat s payload ∈ fr.out ∨ s = .s100

namespace Near

theorem refl (fr : Frame) : Near fr fr :=
  ⟨rfl, rfl, rfl, ⟨rfl, rfl, rfl⟩, .inl rfl, rfl, rfl, fun _ _ h => .inl h⟩

theorem trans {fr₁ fr₂ fr₃ : Frame} (h : Near fr₁ fr₂) (h' : Near fr₂ fr₃) : Near fr₁ fr₃ := by
  obtain ⟨hm, hd, ha⟩ := h.queues
  obtain ⟨hm', hd', ha'⟩ := h'.queues
  refine ⟨h'.state.trans h.state, h'.boxes.trans h.boxes, h'.subscribers.trans h.subscribers,
    ⟨hm'.trans hm, hd'.trans hd, ha'.trans ha⟩, ?_, h'.status.trans h.status,
    h'.event.trans h.event,
    fun s payload hs => (h'.out s payload hs).elim (h.out s payload) .inr⟩
  rcases h'.currentBox with hc | ⟨dir, hc⟩
  · rw [hc]
    exact h.currentBox
  · exact .inr ⟨dir, by simpa only [Boxoffice.baseDir, h.boxes] using hc⟩

end Near

theorem announcedFile_ok {fr fr' : Frame} {f : File} (h : announcedFile fr = .ok (f, fr')) :
    Near fr fr' ∧ fr'.bo.baseDir f.boxHash = some f.boxPath := by
  unfold announcedFile at h
  simp only at h
  split at h
  · simp at h
  · next dir hdir =>
    split at h
    · simp at h
    · next x hx =>
      obtain ⟨rfl, rfl⟩ := Prod.mk.inj (Except.ok.inj h)
      obtain ⟨hhash, hpath⟩ := File.read_box hx
      refine ⟨⟨rfl, rfl, rfl, ⟨rfl, rfl, rfl⟩, .inl rfl, rfl, rfl, fun s payload hs => ?_⟩, ?_⟩
      · exact .inl (by simpa using hs)
      · rw [hhash, hpath]
        exact hdir

theorem announcedFile_error {fr : Frame} {f : Fault} (h : announcedFile fr = .error f) :
    f ≠ .frontOfEmptyDeque := by
  unfold announcedFile at h
  simp only at h
  split at h
  · obtain rfl := Except.error.inj h
    decide
  · split at h
    · obtain rfl := Except.error.inj h
      decide
    · simp at h

theorem writeMetadata_ok {newFile : File} {fr fr' : Frame}
    (h : writeMetadata newFile fr = .ok fr') :
    fr.bo.fileMetadataWritten = true ∧ fr' = fr ∨
    fr.bo.fileMetadataWritten = false ∧ (newFile.exist fr.fs = true ∧
      newFile.resizes fr.fs = true) ∧
      fr' = { fr with bo := { fr.bo with fileMetadataWritten := true } }.send
        [.disk (.storeMetadata newFile), .disk (.resize newFile)] := by
  unfold writeMetadata at h
  split_ifs at h with hwritten hexist
  · exact .inr ⟨by simpa using hwritten, hexist, (Except.ok.inj h).symm⟩
  · exact .inl ⟨by simpa using hwritten, (Except.ok.inj h).symm⟩

theorem writeMetadata_near {newFile : File} {fr fr' : Frame}
    (h : writeMetadata newFile fr = .ok fr') : Near fr fr' := by
  rcases writeMetadata_ok h with ⟨-, rfl⟩ | ⟨-, -, rfl⟩
  · exact .refl fr'
  · exact ⟨rfl, rfl, rfl, ⟨rfl, rfl, rfl⟩, .inl rfl, rfl, rfl,
      fun _ _ h => .inl (by simpa [Frame.send] using h)⟩

theorem writeMetadata_error {newFile : File} {fr : Frame} {f : Fault}
    (h : writeMetadata newFile fr = .error f) : f ≠ .frontOfEmptyDeque := by
  unfold writeMetadata at h
  split_ifs at h
  obtain rfl := Except.error.inj h
  decide

theorem applyMetadata_ok {newFile : File} {fr fr' : Frame}
    (h : applyMetadata newFile fr = .ok fr') : Near fr fr' := by
  unfold applyMetadata at h
  simp only at h
  split_ifs at h with hwrite hexist
  · obtain rfl := Except.ok.inj h
    exact ⟨rfl, rfl, rfl, ⟨rfl, rfl, rfl⟩, .inl rfl, rfl, rfl,
      fun _ _ h => .inl (by simpa [Frame.send] using h)⟩
  · split at h
    · simp at h
    · next op hop =>
      obtain rfl := Except.ok.inj h
      exact ⟨rfl, rfl, rfl, ⟨rfl, rfl, rfl⟩, .inl rfl, rfl, rfl,
        fun _ _ h => .inl (by simpa [Frame.send] using h)⟩
  · obtain rfl := Except.ok.inj h
    exact .refl fr

theorem applyMetadata_error {newFile : File} {fr : Frame} {f : Fault}
    (h : applyMetadata newFile fr = .error f) : f ≠ .frontOfEmptyDeque := by
  unfold applyMetadata at h
  simp only at h
  split_ifs at h
  · obtain rfl := Except.error.inj h
    decide
  · split at h
    · obtain rfl := Except.error.inj h
      decide
    · simp at h

theorem Begun.silent {bo : Boxoffice} {inp : Input} {fr fr' : Frame} {s : Status}
    (hr : Begun bo inp fr) (hn : Near fr fr') (hack : isAck inp.status = false)
    (hs : s ∈ rewordings inp.status) (hacc : checkEvent bo.state (getEventByStatusCode s) s = true) :
    Steady bo (fr'.become s) ∧ Heard bo inp (fr'.become s) := by
  obtain ⟨hm, hd, ha⟩ := hr.queues
  obtain ⟨hm', hd', ha'⟩ := hn.queues
  refine ⟨⟨hn.state.trans hr.steady.state, hn.boxes.trans hr.steady.boxes, rfl, hacc, ?_⟩,
    .silent hack hs ?_ ⟨hm'.trans hm, hd'.trans hd, ha'.trans ha⟩ ?_⟩
  · rcases hn.currentBox with h | ⟨dir, h⟩
    · refine Or.imp_left (fun e => h.trans e) ?_
      simpa only [Frame.become, h] using hr.steady.currentBox
    · refine .inr ⟨dir, ?_⟩
      rw [Boxoffice.baseDir, hr.steady.boxes] at h
      exact h
  · intro h
    rw [← hr.replied h]
    simp only [Frame.become, Boxoffice.Replied, hn.subscribers]
  · intro s payload h
    simpa [hr.out] using hn.out s payload h

def stagePosts (bo : Boxoffice) (inp : Input) (P : Frame → Prop) : Exec.Posts Frame ℕ Fault :=
  ⟨P, fun code _ => Stopped bo inp code, FaultCause bo inp⟩

abbrev heardPosts (bo : Boxoffice) (inp : Input) : Exec.Posts Frame ℕ Fault :=
  stagePosts bo inp fun fr => Steady bo fr ∧ Heard bo inp fr

theorem Begun.near_post {bo : Boxoffice} {inp : Input} {fr fr' : Frame} (hr : Begun bo inp fr)
    (hn : Near fr fr') (hack : isAck inp.status = false) :
    (.next fr' : BoExec).Post (heardPosts bo inp) := by
  have hacc := hr.steady.accepted
  rw [hr.steady.event, hr.status] at hacc
  have hsame : fr'.become inp.status = fr' := by
    have hstatus : fr'.status = inp.status := hn.status.trans hr.status
    have hevent : fr'.event = getEventByStatusCode inp.status := by
      rw [hn.event, hr.steady.event, hr.status]
    rw [Frame.become, ← hevent, ← hstatus]
  have h := hr.silent hn hack (mem_rewordings _) hacc
  rwa [hsame] at h

theorem Begun.checked_post {bo : Boxoffice} {inp : Input} {fr fr' : Frame} {s : Status}
    (hr : Begun bo inp fr) (hn : Near fr fr') (hack : isAck inp.status = false)
    (hs : s ∈ rewordings inp.status)
    (hacc : checkEvent fr.bo.state (getEventByStatusCode s) s = true) :
    (checked (fr'.become s)).Post (heardPosts bo inp) := by
  have hlegal : checkEvent (fr'.become s).bo.state (fr'.become s).event
      (fr'.become s).status = true := by
    rw [← hn.state] at hacc
    exact hacc
  rw [checked, Exec.post_require, if_pos hlegal]
  rw [hr.steady.state] at hacc
  exact hr.silent hn hack hs hacc

section Branches

variable {bo : Boxoffice} {inp : Input} {fr : Frame} (hr : Received bo inp fr)
include hr

theorem Received.replyRound_post {complete : Boxoffice → Boxoffice × Status}
    (hack : isAck inp.status = true)
    (hstatus : (complete fr.bo.markReplied.clearReplied).2 = bo.completion inp.status)
    (hkeeps : ∃ written, (complete fr.bo.markReplied.clearReplied).1 =
      { fr.bo.markReplied.clearReplied with fileMetadataWritten := written }) :
    (replyRound complete fr).Post (heardPosts bo inp) := by
  have hsteady := hr.steady
  unfold replyRound
  simp only
  split_ifs with hall
  · have hcomp := (hr.completes_iff hack).1 hall
    obtain ⟨written, hbo⟩ := hkeeps
    rw [hbo, hstatus, checked, Exec.post_require]
    split_ifs with hacc
    · simp only [Frame.become] at hacc
      refine ⟨⟨hsteady.state, hsteady.boxes, rfl, ?_, hsteady.currentBox⟩,
        .completed hcomp rfl (fun h => ?_) hr.queues hr.currentBox hr.out⟩
      · rw [← hsteady.state]
        exact hacc
      · exact fr.bo.markReplied.clearReplied_replied h
    · refine .round hcomp fun h => hacc ?_
      rw [Boxoffice.RoundAccepted, ← hsteady.state] at h
      exact h
  · refine ⟨⟨hsteady.state, hsteady.boxes, hsteady.event, hsteady.accepted, hsteady.currentBox⟩,
      .counted hack (fun h => hall ((hr.completes_iff hack).2 h)) hr.status (fun h => ?_)
        hr.queues hr.out⟩
    rw [← hr.sender, ← hr.replied]
    exact fr.bo.markReplied_replied h

theorem Received.newFileMetadata_post (hst : inp.status = .s130) :
    (receivedNewFileMetadata fr).Post (heardPosts bo inp) := by
  have hack : isAck inp.status = false := by simp [hst, isAck]
  unfold receivedNewFileMetadata
  split_ifs with hpromoting
  · cases hfile : announcedFile fr with
    | error f => exact .file hack (by simp [hst, isLocal]) (announcedFile_error hfile)
    | ok x =>
      obtain ⟨newFile, fr₁⟩ := x
      obtain ⟨hn₁, hbox⟩ := announcedFile_ok hfile
      cases hwrite : writeMetadata newFile fr₁ with
      | error f =>
        simp only [hwrite]
        exact .file hack (by simp [hst, isLocal]) (writeMetadata_error hwrite)
      | ok fr₂ =>
        have hn₂ := writeMetadata_near hwrite
        have hbox₂ : fr₂.bo.baseDir newFile.boxHash = some newFile.boxPath := by
          rwa [Boxoffice.baseDir, hn₂.boxes]
        simp only [hwrite]
        refine hr.toBegun.near_post ((hn₁.trans hn₂).trans
          ⟨rfl, rfl, rfl, ⟨rfl, rfl, rfl⟩, .inr ⟨_, hbox₂⟩, rfl, rfl, fun s payload h => ?_⟩) hack
        exact .inl (by simpa [Frame.send] using h)
  · exact hr.toBegun.near_post (.refl fr) hack

theorem Received.stopTime_post (hst : inp.status = .s155) :
    (receivedStopTime fr).Post (heardPosts bo inp) := by
  have hack : isAck inp.status = false := by simp [hst, isAck]
  unfold receivedStopTime
  split_ifs with hstop
  · refine hr.toBegun.near_post ⟨rfl, rfl, rfl, ⟨rfl, rfl, rfl⟩, .inl rfl, rfl, rfl, ?_⟩ hack
    intro s payload h
    exact .inl (by simpa [Frame.send] using h)
  · exact hr.toBegun.near_post (.refl fr) hack

theorem Received.syncEnd_post (hst : inp.status = .s150) :
    (receivedSyncEnd fr).Post (heardPosts bo inp) := by
  have hack : isAck inp.status = false := by simp [hst, isAck]
  unfold receivedSyncEnd
  split_ifs with hready
  · have hlegal : checkEvent .ready .receivedHeartbeat .s100 = true := by decide
    have hact : getAction .ready .receivedHeartbeat .s100 = .sendHeartbeat := by decide
    simp only [checked, Frame.become, Exec.require, hready, getEventByStatusCode, hlegal, hact,
      ↓reduceIte, Exec.andThen, performAction, updateHeartbeat, prepareHeartbeatMessage]
    have h100 : .s100 ∈ rewordings inp.status := by simp [hst, rewordings]
    have hbeat : getHeartbeatStatus .ready .receivedHeartbeat .s100 = .s100 := by decide
    have hn : Near fr (fr.send [.heartbeat .s100 []]) := by
      refine ⟨rfl, rfl, rfl, ⟨rfl, rfl, rfl⟩, .inl rfl, rfl, rfl, ?_⟩
      intro s payload h
      rcases List.mem_append.1 h with h | h
      · exact .inl h
      · exact .inr (by simp_all)
    rw [hbeat]
    refine hr.toBegun.silent hn hack h100 ?_
    rw [← hr.steady.state, hready]
    exact hlegal
  · exact hr.toBegun.near_post (.refl fr) hack

theorem Received.metadataChange_post (hst : inp.status = .s170) :
    (receivedMetadataChange fr).Post (heardPosts bo inp) := by
  have hack : isAck inp.status = false := by simp [hst, isAck]
  unfold receivedMetadataChange
  split_ifs with hstate
  · cases hfile : announcedFile fr with
    | error f => exact .file hack (by simp [hst, isLocal]) (announcedFile_error hfile)
    | ok x =>
      obtain ⟨newFile, fr₁⟩ := x
      obtain ⟨hn₁, hbox⟩ := announcedFile_ok hfile
      cases happly : applyMetadata newFile fr₁ with
      | error f =>
        simp only [happly]
        exact .file hack (by simp [hst, isLocal]) (applyMetadata_error happly)
      | ok fr₂ =>
        have hn₂ := hn₁.trans (applyMetadata_ok happly)
        simp only [happly]
        have hn : Near fr { fr₂ with bo := { fr₂.bo with fileMetadataWritten := false } } :=
          hn₂.trans ⟨rfl, rfl, rfl, ⟨rfl, rfl, rfl⟩, .inl rfl, rfl, rfl, fun _ _ h => .inl h⟩
        exact hr.checked_post hn hack (by simp [hst, rewordings]) (by rw [hstate]; decide)
  · exact hr.toBegun.near_post (.refl fr) hack

theorem Received.metadataChangeWithMore_post (hst : inp.status = .s174) :
    (receivedMetadataChangeWithMore fr).Post (heardPosts bo inp) := by
  have hack : isAck inp.status = false := by simp [hst, isAck]
  unfold receivedMetadataChangeWithMore
  split_ifs with hstate
  · cases hfile : announcedFile fr with
    | error f => exact .file hack (by simp [hst, isLocal]) (announcedFile_error hfile)
    | ok x =>
      obtain ⟨newFile, fr₁⟩ := x
      obtain ⟨hn₁, hbox⟩ := announcedFile_ok hfile
      cases happly : applyMetadata newFile fr₁ with
      | error f =>
        simp only [happly]
        exact .file hack (by simp [hst, isLocal]) (applyMetadata_error happly)
      | ok fr₂ =>
        have happlied := applyMetadata_ok happly
        have hbox₂ : fr₂.bo.baseDir newFile.boxHash = some newFile.boxPath := by
          rwa [Boxoffice.baseDir, happlied.boxes]
        simp only [happly]
        have hn : Near fr { fr₂ with
            bo := { fr₂.bo.keepFile newFile with notifiedDispatch := false } } :=
          (hn₁.trans happlied).trans
            ⟨rfl, rfl, rfl, ⟨rfl, rfl, rfl⟩, .inr ⟨_, hbox₂⟩, rfl, rfl, fun _ _ h => .inl h⟩
        exact hr.checked_post hn hack (by simp [hst, rewordings]) (by rw [hstate]; decide)
  · exact hr.toBegun.near_post (.refl fr) hack

theorem Received.heartbeatBranch_post (hev : fr.event = .receivedHeartbeat) :
    (heartbeatBranch fr).Post (heardPosts bo inp) := by
  have hst := hr.status
  have hflags : ∀ written notified stop, Near fr { fr with bo := { fr.bo with
      fileMetadataWritten := written, notifiedDispatch := notified
      stopSyncTimeoutReceived := stop } } := fun _ _ _ =>
    ⟨rfl, rfl, rfl, ⟨rfl, rfl, rfl⟩, .inl rfl, rfl, rfl, fun _ _ h => .inl h⟩
  have hround {complete : Boxoffice → Boxoffice × Status} (hack : isAck fr.status = true)
      (hstatus : (complete fr.bo.markReplied.clearReplied).2 = bo.completion fr.status)
      (hkeeps : ∃ written, (complete fr.bo.markReplied.clearReplied).1 =
        { fr.bo.markReplied.clearReplied with fileMetadataWritten := written }) :=
    hr.replyRound_post (hst ▸ hack) (hst ▸ hstatus) hkeeps
  unfold heartbeatBranch
  split
  case h_1 h => exact hr.toBegun.near_post (hflags _ _ false) (by simp [← hst, h, isAck])
  case h_2 h => exact hround (by simp [h, isAck]) (by simp [h, Boxoffice.completion]) ⟨false, rfl⟩
  case h_3 h => exact hround (by simp [h, isAck]) (by simp [h, Boxoffice.completion]) ⟨_, rfl⟩
  case h_4 h => exact hround (by simp [h, isAck]) (by simp [h, Boxoffice.completion]) ⟨_, rfl⟩
  case h_5 h => exact hround (by simp [h, isAck]) (by simp [h, Boxoffice.completion]) ⟨_, rfl⟩
  case h_6 h =>
    refine hround (by simp [h, isAck]) ?_ ⟨_, rfl⟩
    rw [h, Boxoffice.completion, metadataRoundStatus, metadataRoundStatus, ← hr.queues.1,
      ← hr.queues.2.1]
    rfl
  case h_7 h => exact hr.toBegun.near_post (hflags _ false _) (by simp [← hst, h, isAck])
  case h_8 h => exact hr.toBegun.near_post (hflags _ false _) (by simp [← hst, h, isAck])
  case h_9 h => simp [hr.steady.event, h, getEventByStatusCode] at hev
  case h_10 h => exact hr.newFileMetadata_post (hst ▸ h)
  case h_11 h => exact hr.toBegun.near_post (hflags false _ _) (by simp [← hst, h, isAck])
  case h_12 h => exact hr.metadataChange_post (hst ▸ h)
  case h_13 h => exact hr.metadataChangeWithMore_post (hst ▸ h)
  case h_14 h => exact hr.syncEnd_post (hst ▸ h)
  case h_15 h => exact hr.stopTime_post (hst ▸ h)
  case h_16 =>
    refine hr.toBegun.near_post (.refl fr) ?_
    rw [← hst]
    simp_all [isAck]

end Branches

end Flocksy
