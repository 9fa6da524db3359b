import Flocksy.BoxofficeStep
import Flocksy.Messages

/-!
# The metadata of received files

`file_metadata_written_` is to keep a file's metadata from being applied again by every
repetition of its heartbeat. It is set by the first application and cleared when a
change is announced, but not when a new file is announced, nor between the files of a
session. The metadata of a file is applied in the call that hands it over or reports it
as long as the flag was clear when the states were entered in which this is done.
-/

namespace Flocksy

open ByteStream Fsm Runs

def Boxoffice.heardFile (bo : Boxoffice) (inp : Input) : Option File :=
  match announcedFile (updateTimestamp (Frame.start bo inp.status inp.sstream inp.env)) with
  | .ok (f, _) => some f
  | .error _ => none

def Applies (f : File) (out : List Effect) : Prop :=
  .disk (.storeMetadata f) ∈ out ∧ (.disk (.resize f) ∈ out ∨ .disk (.create f) ∈ out)

instance (f : File) (out : List Effect) : Decidable (Applies f out) := by
  unfold Applies
  infer_instance

/-- The conditions under which the branches of 130, 170 and 174 look at the flag. -/
def Boxoffice.Applying (bo : Boxoffice) (inp : Input) : Prop :=
  (inp.status = .s130 ∧ bo.state = .promotingNewFileMetadata ∧ bo.notifiedDispatch = false) ∨
    (inp.status = .s170 ∧ bo.state = .receivingFileMetadataChange) ∨
    (inp.status = .s174 ∧ bo.state = .receivingFileMetadataChangeWithMore)

structure Flagged (bo : Boxoffice) (inp : Input) (fr : Frame) : Prop where
  written : fr.bo.fileMetadataWritten = true →
    bo.fileMetadataWritten = true ∧ inp.status ≠ .s160 ∨ bo.Applying inp ∧ inp.status ≠ .s170
  notified : fr.bo.notifiedDispatch = false →
    bo.notifiedDispatch = false ∧ ¬ (bo.Applying inp ∧ inp.status = .s130) ∨
      inp.status = .s120 ∨ inp.status = .s124 ∨ bo.Applying inp ∧ inp.status = .s174
  handed : ∀ payload, .dispatcher .s130 payload ∈ fr.out → inp.status = .s130 ∧ bo.Applying inp
  reported : bo.Applying inp → inp.status ≠ .s130 → fr.status = .s173
  remote : bo.Applying inp → isRemote fr.event = true
  applied : bo.Applying inp → bo.fileMetadataWritten = false → ∀ f, bo.heardFile inp = some f →
    f.deletedFile = false → Applies f fr.out

theorem Flagged.of_quiet {bo : Boxoffice} {inp : Input} {fr : Frame} (hnot : ¬ bo.Applying inp)
    (hwritten : fr.bo.fileMetadataWritten = true →
      bo.fileMetadataWritten = true ∧ inp.status ≠ .s160)
    (hnotified : fr.bo.notifiedDispatch = false →
      bo.notifiedDispatch = false ∨ inp.status = .s120 ∨ inp.status = .s124)
    (hout : ∀ payload, .dispatcher .s130 payload ∉ fr.out) : Flagged bo inp fr where
  written h := .inl (hwritten h)
  notified h := by
    rcases hnotified h with h | h | h
    · exact .inl ⟨h, fun h => hnot h.1⟩
    · exact .inr (.inl h)
    · exact .inr (.inr (.inl h))
  handed payload h := absurd h (hout payload)
  reported h := absurd h hnot
  remote h := absurd h hnot
  applied h := absurd h hnot

section Branches

variable {bo : Boxoffice} {inp : Input}

def receivedFrame (bo : Boxoffice) (inp : Input) : Frame :=
  updateTimestamp (Frame.start bo inp.status inp.sstream inp.env)

@[simp] theorem receivedFrame_state : (receivedFrame bo inp).bo.state = bo.state := rfl
@[simp] theorem receivedFrame_out : (receivedFrame bo inp).out = [] := rfl
@[simp] theorem receivedFrame_status : (receivedFrame bo inp).status = inp.status := rfl
@[simp] theorem receivedFrame_event :
    (receivedFrame bo inp).event = getEventByStatusCode inp.status := rfl
@[simp] theorem receivedFrame_written :
    (receivedFrame bo inp).bo.fileMetadataWritten = bo.fileMetadataWritten := rfl
@[simp] theorem receivedFrame_notified :
    (receivedFrame bo inp).bo.notifiedDispatch = bo.notifiedDispatch := rfl

theorem replyRound_flagged {complete : Boxoffice → Boxoffice × Status}
    (hack : isAck inp.status = true)
    (hkeeps : ∀ b, ((complete b).1.fileMetadataWritten = true → b.fileMetadataWritten = true) ∧
      (complete b).1.notifiedDispatch = b.notifiedDispatch) :
    (replyRound complete (receivedFrame bo inp)).Post (Exec.whenNext (Flagged bo inp)) := by
  have hnot : ¬ bo.Applying inp := by
    rintro (h | h | h) <;> simp [h.1, isAck] at hack
  have h160 : inp.status ≠ .s160 := by
    intro h
    simp [h, isAck] at hack
  have hk := hkeeps (receivedFrame bo inp).bo.markReplied.clearReplied
  unfold replyRound
  simp only
  split_ifs
  · rw [checked, Exec.post_require]
    split_ifs
    · exact .of_quiet hnot (fun h => ⟨hk.1 h, h160⟩) (fun h => .inl (hk.2.symm.trans h))
        (by simp [Frame.become])
    · trivial
  · exact .of_quiet hnot (fun h => ⟨h, h160⟩) (fun h => .inl h) (by simp)

theorem announcedFile_keeps {fr fr' : Frame} {f : File} (h : announcedFile fr = .ok (f, fr')) :
    fr'.bo = fr.bo ∧ fr'.event = fr.event ∧ ∃ ops : List FileOp, fr'.out = fr.out ++ ops.map .disk := by
  unfold announcedFile at h
  simp only at h
  split at h
  · simp at h
  · split at h
    · simp at h
    · next x hx =>
      obtain ⟨rfl, rfl⟩ := Prod.mk.inj (Except.ok.inj h)
      exact ⟨rfl, rfl, x.ops, rfl⟩

theorem applyMetadata_keeps {newFile : File} {fr fr' : Frame}
    (h : applyMetadata newFile fr = .ok fr') :
    fr'.bo.notifiedDispatch = fr.bo.notifiedDispatch ∧
      (∃ ops : List FileOp, fr'.out = fr.out ++ ops.map .disk) ∧
      (newFile.deletedFile = false → fr.bo.fileMetadataWritten = false →
        Applies newFile fr'.out) := by
  unfold applyMetadata at h
  simp only at h
  split_ifs at h with hwrite hexist
  · obtain rfl := Except.ok.inj h
    exact ⟨rfl, ⟨[.resize newFile, .storeMetadata newFile], rfl⟩, fun _ _ => by
      simp [Applies, Frame.send]⟩
  · split at h
    · simp at h
    · next op hop =>
      obtain rfl := Except.ok.inj h
      have hcreate : op = .create newFile := by
        unfold File.create at hop
        split_ifs at hop
        exact (Option.some.inj hop).symm
      subst hcreate
      exact ⟨rfl, ⟨[.create newFile, .storeMetadata newFile], rfl⟩, fun _ _ => by
        simp [Applies, Frame.send]⟩
  · obtain rfl := Except.ok.inj h
    refine ⟨rfl, ⟨[], by simp⟩, fun hstays hclear => ?_⟩
    simp [hstays, hclear] at hwrite

theorem writeMetadata_keeps {newFile : File} {fr fr' : Frame}
    (h : writeMetadata newFile fr = .ok fr') :
    (∃ ops : List FileOp, fr'.out = fr.out ++ ops.map .disk) ∧
      (fr.bo.fileMetadataWritten = false → Applies newFile fr'.out) := by
  rcases writeMetadata_ok h with ⟨hset, rfl⟩ | ⟨-, -, rfl⟩
  · exact ⟨⟨[], by simp⟩, fun hclear => by simp [hset] at hclear⟩
  · exact ⟨⟨[.storeMetadata newFile, .resize newFile], rfl⟩, fun _ => by
      simp [Applies, Frame.send]⟩

theorem heardFile_of_ok {f : File} {fr : Frame}
    (h : announcedFile (receivedFrame bo inp) = .ok (f, fr)) : bo.heardFile inp = some f := by
  rw [receivedFrame] at h
  rw [Boxoffice.heardFile, h]

theorem receivedNewFileMetadata_flagged (hst : inp.status = .s130) :
    (receivedNewFileMetadata (receivedFrame bo inp)).Post (Exec.whenNext (Flagged bo inp)) := by
  unfold receivedNewFileMetadata
  split_ifs with hcond
  · have happlying : bo.Applying inp := .inl ⟨hst, hcond.1, by simpa using hcond.2⟩
    cases hfile : announcedFile (receivedFrame bo inp) with
    | error f => trivial
    | ok x =>
      obtain ⟨newFile, fr⟩ := x
      obtain ⟨hbo, hevent, ops, hout⟩ := announcedFile_keeps hfile
      have hremote : isRemote fr.event = true := by
        rw [hevent, receivedFrame_event, hst]
        rfl
      cases hwrite : writeMetadata newFile fr with
      | error f =>
        simp only [hwrite]
        trivial
      | ok fr' =>
        obtain ⟨-, happlies⟩ := writeMetadata_keeps hwrite
        simp only [hwrite]
        refine ⟨fun _ => .inr ⟨happlying, by simp [hst]⟩, fun h => by simp [Frame.send] at h,
          fun _ _ => ⟨hst, happlying⟩, fun _ h => absurd hst h, fun _ => ?_,
          fun _ hclear f hf _ => ?_⟩
        · exact (congrArg isRemote (writeMetadata_near hwrite).event).trans hremote
        · obtain rfl := Option.some.inj ((heardFile_of_ok hfile).symm.trans hf)
          exact (happlies (by rwa [hbo])).imp (List.mem_append_left _)
            (Or.imp (List.mem_append_left _) (List.mem_append_left _))
  · have hnot : ¬ bo.Applying inp := by
      rintro (⟨-, hstate, hclear⟩ | ⟨h, -⟩ | ⟨h, -⟩)
      · exact hcond ⟨hstate, by simpa using hclear⟩
      · simp [hst] at h
      · simp [hst] at h
    exact .of_quiet hnot (fun h => ⟨h, by simp [hst]⟩) (fun h => .inl h) (by simp)

theorem receivedMetadataChange_flagged (hst : inp.status = .s170) :
    (receivedMetadataChange (receivedFrame bo inp)).Post (Exec.whenNext (Flagged bo inp)) := by
  unfold receivedMetadataChange
  split_ifs with hstate
  · have happlying : bo.Applying inp := .inr (.inl ⟨hst, hstate⟩)
    cases hfile : announcedFile (receivedFrame bo inp) with
    | error f => trivial
    | ok x =>
      obtain ⟨newFile, fr⟩ := x
      obtain ⟨hbo, hevent, ops, hout⟩ := announcedFile_keeps hfile
      cases happly : applyMetadata newFile fr with
      | error f =>
        simp only [happly]
        trivial
      | ok fr' =>
        obtain ⟨hnotified, ⟨ops', hout'⟩, happlies⟩ := applyMetadata_keeps happly
        simp only [happly, checked, Exec.post_require]
        split_ifs
        · refine ⟨fun h => by simp [Frame.become] at h, fun h => .inl ⟨?_, by simp [hst]⟩, ?_,
            fun _ _ => rfl, fun _ => rfl, fun _ hclear f hf hstays => ?_⟩
          · rwa [Frame.become, hnotified, hbo] at h
          · intro payload h
            simp [Frame.become, hout', hout] at h
          · obtain rfl := Option.some.inj ((heardFile_of_ok hfile).symm.trans hf)
            exact happlies hstays (by rwa [hbo])
        · trivial
  · have hnot : ¬ bo.Applying inp := by
      rintro (⟨h, -⟩ | ⟨-, h⟩ | ⟨h, -⟩)
      · simp [hst] at h
      · exact hstate h
      · simp [hst] at h
    exact .of_quiet hnot (fun h => ⟨h, by simp [hst]⟩) (fun h => .inl h) (by simp)

theorem receivedMetadataChangeWithMore_flagged (hst : inp.status = .s174) :
    (receivedMetadataChangeWithMore (receivedFrame bo inp)).Post
      (Exec.whenNext (Flagged bo inp)) := by
  unfold receivedMetadataChangeWithMore
  split_ifs with hstate
  · have happlying : bo.Applying inp := .inr (.inr ⟨hst, hstate⟩)
    cases hfile : announcedFile (receivedFrame bo inp) with
    | error f => trivial
    | ok x =>
      obtain ⟨newFile, fr⟩ := x
      obtain ⟨hbo, hevent, ops, hout⟩ := announcedFile_keeps hfile
      cases happly : applyMetadata newFile fr with
      | error f =>
        simp only [happly]
        trivial
      | ok fr' =>
        obtain ⟨-, ⟨ops', hout'⟩, happlies⟩ := applyMetadata_keeps happly
        simp only [happly, checked, Exec.post_require]
        split_ifs
        · refine ⟨fun _ => .inr ⟨happlying, by simp [hst]⟩,
            fun _ => .inr (.inr (.inr ⟨happlying, hst⟩)), ?_, fun _ _ => rfl, fun _ => rfl,
            fun _ hclear f hf hstays => ?_⟩
          · intro payload h
            simp [Frame.become, hout', hout] at h
          · obtain rfl := Option.some.inj ((heardFile_of_ok hfile).symm.trans hf)
            exact happlies hstays (by rwa [hbo])
        · trivial
  · have hnot : ¬ bo.Applying inp := by
      rintro (⟨h, -⟩ | ⟨h, -⟩ | ⟨-, h⟩)
      · simp [hst] at h
      · simp [hst] at h
      · exact hstate h
    exact .of_quiet hnot (fun h => ⟨h, by simp [hst]⟩) (fun h => .inl h) (by simp)

theorem receivedSyncEnd_flagged (hst : inp.status = .s150) (hnot : ¬ bo.Applying inp) :
    (receivedSyncEnd (receivedFrame bo inp)).Post (Exec.whenNext (Flagged bo inp)) := by
  unfold receivedSyncEnd
  split_ifs with hready
  · have hlegal : checkEvent .ready .receivedHeartbeat .s100 = true := by decide
    have hact : getAction .ready .receivedHeartbeat .s100 = .sendHeartbeat := by decide
    simp only [checked, Frame.become, Exec.require, hready, getEventByStatusCode, hlegal, hact,
      ↓reduceIte, Exec.andThen, performAction, updateHeartbeat, prepareHeartbeatMessage]
    exact .of_quiet hnot (fun h => ⟨h, by simp [hst]⟩) (fun h => .inl h) (by simp [Frame.send])
  · exact .of_quiet hnot (fun h => ⟨h, by simp [hst]⟩) (fun h => .inl h) (by simp)

theorem receivedStopTime_flagged (hst : inp.status = .s155) (hnot : ¬ bo.Applying inp) :
    (receivedStopTime (receivedFrame bo inp)).Post (Exec.whenNext (Flagged bo inp)) := by
  unfold receivedStopTime
  split_ifs
  · exact .of_quiet hnot (fun h => ⟨h, by simp [hst]⟩) (fun h => .inl h) (by simp [Frame.send])
  · exact .of_quiet hnot (fun h => ⟨h, by simp [hst]⟩) (fun h => .inl h) (by simp)

theorem heartbeatBranch_flagged :
    (heartbeatBranch (receivedFrame bo inp)).Post (Exec.whenNext (Flagged bo inp)) := by
  have hother : ∀ s, inp.status = s → s ≠ .s130 → s ≠ .s170 → s ≠ .s174 → ¬ bo.Applying inp := by
    rintro s hs h130 h170 h174 (⟨h, -⟩ | ⟨h, -⟩ | ⟨h, -⟩)
    · exact h130 (hs.symm.trans h)
    · exact h170 (hs.symm.trans h)
    · exact h174 (hs.symm.trans h)
  unfold heartbeatBranch
  rw [receivedFrame_status]
  split
  case h_1 h =>
    exact .of_quiet (hother _ h (by decide) (by decide) (by decide)) (fun hw => ⟨hw, by simp [h]⟩)
      (fun hn => .inl hn) (by simp)
  case h_2 h => exact replyRound_flagged (by simp [h, isAck]) fun _ => ⟨by simp, rfl⟩
  case h_3 h => exact replyRound_flagged (by simp [h, isAck]) fun _ => ⟨id, rfl⟩
  case h_4 h => exact replyRound_flagged (by simp [h, isAck]) fun _ => ⟨id, rfl⟩
  case h_5 h => exact replyRound_flagged (by simp [h, isAck]) fun _ => ⟨id, rfl⟩
  case h_6 h => exact replyRound_flagged (by simp [h, isAck]) fun _ => ⟨id, rfl⟩
  case h_7 h =>
    exact .of_quiet (hother _ h (by decide) (by decide) (by decide)) (fun hw => ⟨hw, by simp [h]⟩)
      (fun _ => .inr (.inl h)) (by simp)
  case h_8 h =>
    exact .of_quiet (hother _ h (by decide) (by decide) (by decide)) (fun hw => ⟨hw, by simp [h]⟩)
      (fun _ => .inr (.inr h)) (by simp)
  case h_9 h =>
    exact .of_quiet (hother _ h (by decide) (by decide) (by decide)) (fun hw => ⟨hw, by simp [h]⟩)
      (fun hn => .inl hn) (by simp)
  case h_10 h => exact receivedNewFileMetadata_flagged h
  case h_11 h =>
    exact .of_quiet (hother _ h (by decide) (by decide) (by decide)) (fun hw => by simp at hw)
      (fun hn => .inl hn) (by simp)
  case h_12 h => exact receivedMetadataChange_flagged h
  case h_13 h => exact receivedMetadataChangeWithMore_flagged h
  case h_14 h => exact receivedSyncEnd_flagged h (hother _ h (by decide) (by decide) (by decide))
  case h_15 h => exact receivedStopTime_flagged h (hother _ h (by decide) (by decide) (by decide))
  case h_16 =>
    refine .of_quiet (hother _ rfl ?_ ?_ ?_) (fun hw => ⟨hw, ?_⟩) (fun hn => .inl hn) (by simp)
    all_goals assumption

/-- What comes after the heartbeat leaves the flags alone and hands over no heartbeat file. -/
structure Later (fr fr' : Frame) : Prop where
  written : fr'.bo.fileMetadataWritten = fr.bo.fileMetadataWritten
  notified : fr'.bo.notifiedDispatch = fr.bo.notifiedDispatch
  status : isRemote fr.event = true → fr'.status = fr.status ∧ fr'.event = fr.event
  kept : fr.out ⊆ fr'.out
  handed : ∀ payload, .dispatcher .s130 payload ∈ fr'.out → .dispatcher .s130 payload ∈ fr.out

namespace Later

theorem refl (fr : Frame) : Later fr fr :=
  ⟨rfl, rfl, fun _ => ⟨rfl, rfl⟩, fun _ h => h, fun _ h => h⟩

theorem trans {fr₁ fr₂ fr₃ : Frame} (h : Later fr₁ fr₂) (h' : Later fr₂ fr₃) : Later fr₁ fr₃ := by
  refine ⟨h'.written.trans h.written, h'.notified.trans h.notified, fun hremote => ?_,
    fun _ hm => h'.kept (h.kept hm), fun payload hm => h.handed _ (h'.handed _ hm)⟩
  obtain ⟨hst, hev⟩ := h.status hremote
  obtain ⟨hst', hev'⟩ := h'.status (hev ▸ hremote)
  exact ⟨hst'.trans hst, hev'.trans hev⟩

end Later

theorem notifyDispatcher_later (fr : Frame) :
    (notifyDispatcher fr).Post (Exec.whenNext (Later fr)) := by
  by_cases hcond : (fr.event = .allNodesReplied ∧ fr.status = .s122) ∨
      (fr.event = .allNodesHaveAllMetadataChangesWithMore ∧ fr.status = .s177)
  · cases hbox : fr.bo.baseDir fr.bo.currentBox with
    | none =>
      rw [notifyDispatcher_unknownBox hcond hbox]
      trivial
    | some dir =>
      cases hdata : fr.bo.fileListData with
      | nil =>
        rw [notifyDispatcher_emptyDeque hcond hbox hdata]
        trivial
      | cons p ps =>
        obtain ⟨s, h, timing, heq⟩ := notifyDispatcher_next hcond hbox hdata
        rw [heq]
        refine ⟨rfl, rfl, fun _ => ⟨rfl, rfl⟩, fun _ h => List.mem_append_left _ h, ?_⟩
        intro payload h
        rcases List.mem_append.1 h with h | h
        · exact h
        · have hst : .s130 = fr.status := (Effect.dispatcher.inj (List.mem_singleton.1 h)).1
          rcases hcond with ⟨-, h122⟩ | ⟨-, h177⟩
          · simp [h122] at hst
          · simp [h177] at hst
  · rw [notifyDispatcher, if_neg hcond]
    exact .refl fr

theorem queueFile_later {fr : Frame} {f : File} (hlocal : isRemote fr.event = false) :
    Later fr { queueFile fr f with bo := (queueFile fr f).bo.clearReplied } := by
  unfold queueFile
  simp only
  split_ifs
  all_goals exact ⟨rfl, rfl, fun h => by simp [hlocal] at h, fun _ h => h, fun _ h => h⟩

theorem localFileEvent_later (fr : Frame) :
    (localFileEvent fr).Post (Exec.whenNext (Later fr)) := by
  unfold localFileEvent
  split_ifs with hlocal
  · have hremote : isRemote fr.event = false := by simp [isRemote, hlocal]
    simp only
    split_ifs
    · trivial
    · split
      · trivial
      · split
        · trivial
        · have hread : ∀ s hash, Later fr { fr with sstream := s, bo := { fr.bo with currentBox := hash } } :=
            fun _ _ => ⟨rfl, rfl, fun _ => ⟨rfl, rfl⟩, fun _ h => h, fun _ h => h⟩
          exact (hread _ _).trans (queueFile_later hremote)
  · exact .refl fr

theorem receivedFileData_later (fr : Frame) :
    (receivedFileData fr).Post (Exec.whenNext (Later fr)) := by
  unfold receivedFileData
  split_ifs with hdata
  · have hremote : isRemote fr.event = false := by simp [isRemote, hdata]
    have hstored : ∀ s fs currentFile ops store status event,
        Later fr { fr with
          sstream := s, fs := fs, bo := { fr.bo with currentFile := currentFile }
          status := status, event := event
          out := fr.out ++ (List.map Effect.disk ops ++ [Effect.disk store]) } := by
      refine fun s fs currentFile ops store status event => ⟨rfl, rfl, fun h => ?_,
        fun _ h => List.mem_append_left _ h, fun payload h => ?_⟩
      · simp [hremote] at h
      · simpa using h
    split
    · trivial
    · split
      · trivial
      · simp only [checked]
        split_ifs
        · rw [Exec.post_require]
          split_ifs
          · exact hstored _ _ _ _ _ _ _
          · trivial
        · exact hstored _ _ _ _ _ _ _
  · exact .refl fr

theorem Flagged.later {fr fr' : Frame} (h : Flagged bo inp fr) (hl : Later fr fr') :
    Flagged bo inp fr' where
  written hw := h.written (hl.written ▸ hw)
  notified hn := h.notified (hl.notified ▸ hn)
  handed payload hp := h.handed payload (hl.handed payload hp)
  reported ha hne := (hl.status (h.remote ha)).1.trans (h.reported ha hne)
  remote ha := (hl.status (h.remote ha)).2 ▸ h.remote ha
  applied ha hclear f hf hstays := by
    obtain ⟨hstore, hsize⟩ := h.applied ha hclear f hf hstays
    exact ⟨hl.kept hstore, hsize.imp (hl.kept ·) (hl.kept ·)⟩

theorem stages_flagged : (stages (Frame.start bo inp.status inp.sstream inp.env)).Post
    (Exec.whenNext (Flagged bo inp)) := by
  have hheartbeat : (receivedHeartbeat (Frame.start bo inp.status inp.sstream inp.env)).Post
      (Exec.whenNext (Flagged bo inp)) := by
    unfold receivedHeartbeat
    split_ifs with hevent
    · exact heartbeatBranch_flagged
    · have hnot : ¬ bo.Applying inp := by
        rintro (⟨h, -⟩ | ⟨h, -⟩ | ⟨h, -⟩) <;>
          exact hevent (by simp [Frame.start, h, getEventByStatusCode])
      have h160 : inp.status ≠ .s160 := fun h =>
        hevent (by simp [Frame.start, h, getEventByStatusCode])
      exact .of_quiet hnot (fun h => ⟨h, h160⟩) (fun h => .inl h) (by simp [Frame.start])
  unfold stages
  refine ((hheartbeat.thenKeeps fun fr h => ?_).thenKeeps fun fr h => ?_).thenKeeps fun fr h => ?_
  · exact (notifyDispatcher_later fr).mono (fun _ hl => h.later hl) (fun _ _ h => h) fun _ h => h
  · exact (localFileEvent_later fr).mono (fun _ hl => h.later hl) (fun _ _ h => h) fun _ h => h
  · exact (receivedFileData_later fr).mono (fun _ hl => h.later hl) (fun _ _ h => h) fun _ h => h

end Branches

def receivesChange (state : State) : Bool :=
  state = .acknowledgingFileMetadataChange ∨ state = .receivingFileMetadataChange ∨
    state = .receivingFileMetadataChangeWithMore

/-- A state in which a 130 or a 174 will apply metadata is entered with the flag clear. -/
def Boxoffice.Fresh (bo : Boxoffice) (inp : Input) : Prop :=
  inp.status = .s130 ∧ bo.state = .acknowledgingNewFile ∨
    inp.status = .s174 ∧ bo.state = .acknowledgingFileMetadataChangeWithMore →
  bo.fileMetadataWritten = false

instance (bo : Boxoffice) (inp : Input) : Decidable (bo.Fresh inp) := by
  unfold Boxoffice.Fresh
  infer_instance

/-- After the metadata of a 174, which has set the flag, a file is to be received. -/
def Boxoffice.FollowsChange (bo : Boxoffice) (inp : Input) : Prop :=
  inp.status = .s130 ∧ bo.state = .broadcastingAllMetadataReceived ∧ bo.fileMetadataWritten = true

/-- The metadata of the file comes with a 174. -/
def Boxoffice.HearsChange (f : File) (bo : Boxoffice) (inp : Input) : Prop :=
  inp.status = .s174 ∧ bo.state = .receivingFileMetadataChangeWithMore ∧ bo.heardFile inp = some f

instance (bo : Boxoffice) (inp : Input) : Decidable (bo.FollowsChange inp) := by
  unfold Boxoffice.FollowsChange
  infer_instance

instance (f : File) (bo : Boxoffice) (inp : Input) : Decidable (bo.HearsChange f inp) := by
  unfold Boxoffice.HearsChange
  infer_instance

/-- The session goes on with the file of its 174, if it goes on behind one. -/
def SameFile (f : File) (tr : List (Boxoffice × Input)) : Prop :=
  Since (fun bo => bo.state ≠ .ready) Boxoffice.FollowsChange tr →
    Since (fun bo => bo.state ≠ .ready) (Boxoffice.HearsChange f) tr

instance (f : File) (tr : List (Boxoffice × Input)) : Decidable (SameFile f tr) := by
  unfold SameFile
  infer_instance

def AppliedInSession (f : File) (tr : List (Boxoffice × Input)) : Prop :=
  Since (fun bo => bo.state ≠ .ready) (fun bo inp => Applies f (bo.effects inp)) tr

/-- The flag is clear wherever metadata is still to be applied, and set behind a 174 by it. -/
structure FlagClear (tr : List (Boxoffice × Input)) (bo : Boxoffice) : Prop where
  change : receivesChange bo.state = true → bo.fileMetadataWritten = false
  data : bo.state = .promotingNewFileMetadata → bo.notifiedDispatch = false →
    bo.fileMetadataWritten = false ∨ Since (fun bo => bo.state ≠ .ready) Boxoffice.FollowsChange tr
  heard : ∀ f, f.deletedFile = false →
    Since (fun bo => bo.state ≠ .ready) (Boxoffice.HearsChange f) tr → AppliedInSession f tr

theorem enters_receivesChange : ∀ state, ∀ t ∈ usedTransitions state,
    receivesChange t.newState = true → receivesChange state = true ∨ t.status = .s160 ∨
      t.status = .s174 ∧ state = .acknowledgingFileMetadataChangeWithMore := by
  decide +kernel

theorem enters_promoting : ∀ state, ∀ t ∈ usedTransitions state,
    t.newState = .promotingNewFileMetadata → state = .promotingNewFileMetadata ∨
      t.status = .s130 ∧ (state = .acknowledgingNewFile ∨
        state = .broadcastingAllMetadataReceived) := by
  decide +kernel

theorem leaves_applying : ∀ state, ∀ t ∈ usedTransitions state,
    (t.status = .s173 → receivesChange t.newState = false ∧
      t.newState ≠ .promotingNewFileMetadata) ∧
    (t.status = .s130 → receivesChange t.newState = false) := by
  decide +kernel

theorem promoting_rejects : ∀ status, checkEvent .promotingNewFileMetadata
    (getEventByStatusCode status) status = true → status ≠ .s120 ∧ status ≠ .s124 := by
  decide +kernel

theorem rewordings_eq : ∀ s r, r ∈ rewordings s →
    r = .s120 ∨ r = .s130 ∨ r = .s160 ∨ r = .s174 → s = r := by
  decide +kernel

theorem completions_accepted : ∀ s, isAck s = true → .s120 ∉ completions s ∧
    .s130 ∉ completions s ∧ .s160 ∉ completions s ∧ (.s174 ∈ completions s → checkEvent
      .acknowledgingFileMetadataChangeWithMore (getEventByStatusCode s) s = false) := by
  decide +kernel

theorem Taken.heard_status {bo : Boxoffice} {inp : Input} {fr : Frame} {t : Transition}
    (ht : Taken bo inp fr t) (hst : t.status = .s120 ∨ t.status = .s130 ∨ t.status = .s160 ∨
      t.status = .s174 ∧ bo.state = .acknowledgingFileMetadataChangeWithMore) :
    inp.status = t.status := by
  have hstatus := ht.status
  cases ht.settled with
  | silent _ _ hmem => exact rewordings_eq _ _ (hstatus ▸ hmem) (by tauto)
  | counted _ _ hsame => exact (hstatus.trans hsame).symm
  | completed hcomp hsame =>
    have hmem := bo.completion_mem hcomp.1
    rw [← hsame, ← hstatus] at hmem
    obtain ⟨h120, h130, h160, h174⟩ := completions_accepted _ hcomp.1
    rcases hst with h | h | h | ⟨h, hstate⟩
    · exact absurd (h ▸ hmem) h120
    · exact absurd (h ▸ hmem) h130
    · exact absurd (h ▸ hmem) h160
    · have hno := h174 (h ▸ hmem)
      have hyes := ht.accepted
      rw [hstate] at hyes
      simp [hno] at hyes
  | queued f _ hsame => exact (hstatus.trans hsame).symm
  | twice _ hsame =>
    rw [hstatus, hsame] at hst
    simp at hst

theorem Taken.mem_rewordings {bo : Boxoffice} {inp : Input} {fr : Frame} {t : Transition}
    (ht : Taken bo inp fr t) (hack : isAck inp.status = false) (hlocal : isLocal inp.status = false) :
    t.status ∈ rewordings inp.status := by
  rw [ht.status]
  cases ht.settled with
  | silent _ _ hmem => exact hmem
  | counted hyes => simp [hack] at hyes
  | completed hcomp => exact absurd hcomp.1 (by simp [hack])
  | queued f hyes => simp [hlocal] at hyes
  | twice hyes => simp [hlocal] at hyes

theorem Taken.applying_row {bo : Boxoffice} {inp : Input} {fr : Frame} {t : Transition}
    (ht : Taken bo inp fr t) (happlying : bo.Applying inp) :
    inp.status = .s130 ∧ t.status = .s130 ∨ inp.status ≠ .s130 ∧ t.status = .s173 := by
  by_cases h130 : inp.status = .s130
  · have hmem := ht.mem_rewordings (by simp [h130, isAck]) (by simp [h130, isLocal])
    rw [h130] at hmem
    exact .inl ⟨h130, by simpa [rewordings] using hmem⟩
  · have hflag : Flagged bo inp fr := stages_flagged.of_next ht.staged
    exact .inr ⟨h130, ht.status.trans (hflag.reported happlying h130)⟩

theorem Moved.handed {bo' : Boxoffice} {fr : Frame} {t : Transition} {out : List Effect}
    (hm : Moved fr t bo' out) : fr.out ⊆ out ∧
      ∀ payload, .dispatcher .s130 payload ∈ out → .dispatcher .s130 payload ∈ fr.out := by
  cases hm with
  | stay _ _ hout => exact ⟨by simp [hout], fun _ h => hout ▸ h⟩
  | exit _ _ _ hout => exact ⟨by simp [hout], fun _ h => hout ▸ h⟩
  | data p ps _ _ _ _ hout => exact ⟨by simp [hout], fun _ h => by simpa [hout] using h⟩
  | metadata p ps _ _ _ _ hout => exact ⟨by simp [hout], fun _ h => by simpa [hout] using h⟩
  | plain _ _ messages _ _ _ _ _ _ hstop hout =>
    refine ⟨by simp [hout], fun payload h => ?_⟩
    have hmem : .dispatcher .s130 payload ∈ fr.out ∨ .dispatcher .s130 payload ∈ messages := by
      simpa [hout] using h
    exact hmem.resolve_right fun h => by simpa using hstop _ _ h

theorem Boxoffice.Applying.accepted {bo : Boxoffice} {inp : Input} (h : bo.Applying inp) :
    checkEvent bo.state (getEventByStatusCode inp.status) inp.status = true ∧
      bo.state ≠ .ready := by
  rcases h with ⟨hst, hs, -⟩ | ⟨hst, hs⟩ | ⟨hst, hs⟩ <;> rw [hst, hs] <;> decide

theorem applies_of_clear {bo bo' : Boxoffice} {inp : Input} {f : File}
    (happlying : bo.Applying inp) (h : bo.next inp = some bo')
    (hclear : bo.fileMetadataWritten = false) (hf : bo.heardFile inp = some f)
    (hstays : f.deletedFile = false) : Applies f (bo.effects inp) := by
  have hreturns := returned_of_next h
  have hp := processEvent_processed bo inp
  rw [hreturns] at hp
  generalize bo.effects inp = out at hp ⊢
  cases hp with
  | ignored hrejected => simp [happlying.accepted.1] at hrejected
  | stopped _ hstop => cases hstop
  | moved ht hm =>
    have hflag := stages_flagged.of_next ht.staged
    obtain ⟨hstore, hsize⟩ := hflag.applied happlying hclear f hf hstays
    have hkept := hm.handed.1
    exact ⟨hkept hstore, hsize.imp (hkept ·) (hkept ·)⟩

theorem FlagClear.heard_step {tr : List (Boxoffice × Input)} {bo bo' : Boxoffice} {inp : Input}
    (hinv : FlagClear tr bo) (h : bo.next inp = some bo') (f : File)
    (hstays : f.deletedFile = false)
    (hsince : Since (fun bo => bo.state ≠ .ready) (Boxoffice.HearsChange f) ((bo, inp) :: tr)) :
    AppliedInSession f ((bo, inp) :: tr) := by
  obtain ⟨hready, ⟨hst, hs, hf⟩ | hbefore⟩ := hsince
  · have hclear : bo.fileMetadataWritten = false := hinv.change (by simp [hs, receivesChange])
    exact ⟨hready, .inl (applies_of_clear (.inr (.inr ⟨hst, hs⟩)) h hclear hf hstays)⟩
  · exact ⟨hready, .inr (hinv.heard f hstays hbefore)⟩

theorem flagClear_step {tr : List (Boxoffice × Input)} {bo bo' : Boxoffice} {inp : Input}
    (hinv : FlagClear tr bo) (hok : bo.Fresh inp) (h : bo.next inp = some bo') :
    FlagClear ((bo, inp) :: tr) bo' := by
  have hgoes (hpromoting : bo.state = .promotingNewFileMetadata)
      (hsince : Since (fun bo => bo.state ≠ .ready) Boxoffice.FollowsChange tr) :
      Since (fun bo => bo.state ≠ .ready) Boxoffice.FollowsChange ((bo, inp) :: tr) :=
    ⟨by simp [hpromoting], .inr hsince⟩
  rcases next_cases h with rfl | ⟨fr, t, out, ht, hm⟩
  · exact ⟨hinv.change, fun hp hn => (hinv.data hp hn).imp_right (hgoes hp), hinv.heard_step h⟩
  have hused := ht.mem_usedTransitions
  have hkept := hm.kept
  have hflag : Flagged bo inp fr := stages_flagged.of_next ht.staged
  obtain ⟨hreport, hhand⟩ := leaves_applying _ t hused
  refine ⟨fun hchange => ?_, fun hpromoting hnotified => ?_, hinv.heard_step h⟩
  · -- the states of a change
    rw [hkept.state] at hchange
    rw [hkept.written, ← Bool.not_eq_true]
    intro hwritten
    rcases hflag.written hwritten with ⟨hbefore, h160⟩ | happlying
    · have hdirty : ¬ bo.fileMetadataWritten = false := by simp [hbefore]
      rcases enters_receivesChange _ t hused hchange with hstate | hst | ⟨hst, hstate⟩
      · exact hdirty (hinv.change hstate)
      · exact h160 ((ht.heard_status (.inr (.inr (.inl hst)))).trans hst)
      · have hheard := ht.heard_status (.inr (.inr (.inr ⟨hst, hstate⟩)))
        exact hdirty (hok (.inr ⟨hheard.trans hst, hstate⟩))
    · rcases ht.applying_row happlying.1 with ⟨-, h130⟩ | ⟨-, h173⟩
      · simp [hhand h130] at hchange
      · simp [(hreport h173).1] at hchange
  · rw [hkept.state] at hpromoting
    rw [hkept.notified] at hnotified
    rw [hkept.written, ← Bool.not_eq_true, or_iff_not_imp_left, not_not]
    intro hwritten
    rcases hflag.written hwritten with ⟨hbefore, -⟩ | happlying
    · have hdirty : ¬ bo.fileMetadataWritten = false := by simp [hbefore]
      rcases enters_promoting _ t hused hpromoting with hstate | ⟨hst, hstate⟩
      · obtain ⟨h120, h124⟩ := promoting_rejects _ (hstate ▸ ht.accepted)
        rcases hflag.notified hnotified with ⟨hclear, -⟩ | h | h | ⟨happlying, h174⟩
        · exact hgoes hstate ((hinv.data hstate hclear).resolve_left hdirty)
        · exact absurd h h120
        · exact absurd h h124
        · rcases happlying with ⟨h, -⟩ | ⟨h, -⟩ | ⟨-, h⟩
          · simp [h174] at h
          · simp [h174] at h
          · simp [hstate] at h
      · have hheard := (ht.heard_status (.inr (.inl hst))).trans hst
        rcases hstate with hstate | hstate
        · exact absurd (hok (.inl ⟨hheard, hstate⟩)) hdirty
        · exact ⟨by simp [hstate], .inl ⟨hheard, hstate, hbefore⟩⟩
    · rcases ht.applying_row happlying.1 with ⟨h130, -⟩ | ⟨-, h173⟩
      · rcases hflag.notified hnotified with ⟨-, h⟩ | h | h | ⟨-, h⟩
        · exact absurd ⟨happlying.1, h130⟩ h
        all_goals simp [h130] at h
      · exact absurd hpromoting (hreport h173).2

theorem flagClear_of_run {start bo : Boxoffice} {tr : List (Boxoffice × Input)}
    (hready : start.state = .ready) (hrun : Run Boxoffice.next start tr bo)
    (hok : ∀ p ∈ tr, p.1.Fresh p.2) : FlagClear tr bo := by
  induction hrun with
  | nil =>
    exact ⟨fun h => by simp [hready, receivesChange] at h, fun h => by simp [hready] at h,
      fun _ _ h => h.elim⟩
  | snoc _ hs ih =>
    rw [List.forall_mem_cons] at hok
    exact flagClear_step (ih hok.2) hok.1 hs

/-- The file of the heartbeat is handed to the dispatcher or reported as received. -/
def Boxoffice.HandsOver (bo bo' : Boxoffice) (inp : Input) (out : List Effect) (f : File) : Prop :=
  bo.heardFile inp = some f ∧
    (inp.status = .s130 ∧ (∃ timing, .dispatcher .s130 timing ∈ out) ∨
      (inp.status = .s170 ∨ inp.status = .s174) ∧ bo'.state ≠ bo.state ∧
        bo'.state = .broadcastingAllMetadataReceived)

theorem enters_broadcasting : ∀ state, ∀ t ∈ usedTransitions state, t.newState ≠ state →
    t.newState = .broadcastingAllMetadataReceived → state = .receivingFileMetadataChange ∨
      state = .receivingFileMetadataChangeWithMore := by
  decide +kernel

theorem receiving_rejects :
    checkEvent .receivingFileMetadataChange (getEventByStatusCode .s174) .s174 = false ∧
      checkEvent .receivingFileMetadataChangeWithMore (getEventByStatusCode .s170) .s170 = false := by
  decide

theorem HandsOver.applying {bo bo' : Boxoffice} {inp : Input} {fr : Frame} {t : Transition}
    {out : List Effect} {f : File} (ht : Taken bo inp fr t) (hm : Moved fr t bo' out)
    (hover : bo.HandsOver bo' inp out f) : bo.Applying inp := by
  have hflag : Flagged bo inp fr := stages_flagged.of_next ht.staged
  rcases hover.2 with ⟨-, timing, hmem⟩ | ⟨hst, hleave, hstate⟩
  · exact (hflag.handed timing (hm.handed.2 timing hmem)).2
  · rw [hm.kept.state] at hleave hstate
    have haccepted := ht.accepted
    rcases enters_broadcasting _ t ht.mem_usedTransitions hleave hstate with hs | hs
    · refine .inr (.inl ⟨hst.resolve_right fun h => ?_, hs⟩)
      rw [hs, h, receiving_rejects.1] at haccepted
      exact absurd haccepted (by decide)
    · refine .inr (.inr ⟨hst.resolve_left fun h => ?_, hs⟩)
      rw [hs, h, receiving_rejects.2] at haccepted
      exact absurd haccepted (by decide)

/-- Metadata is applied in the call that hands the file over or reports it, or in that of a 174 of
the same session and file. -/
theorem metadata_applied {start bo bo' : Boxoffice} {tr : List (Boxoffice × Input)} {inp : Input}
    {out : List Effect} {f : File} (hready : start.state = .ready)
    (hrun : Run Boxoffice.next start tr bo) (hok : ∀ p ∈ tr, p.1.Fresh p.2)
    (hstep : processEvent bo inp.status inp.sstream inp.env = .returned 0 bo' out)
    (hover : bo.HandsOver bo' inp out f) (hstays : f.deletedFile = false) (hsame : SameFile f tr) :
    AppliedInSession f ((bo, inp) :: tr) := by
  have hinv := flagClear_of_run hready hrun hok
  have happlying : bo.Applying inp := by
    have hp := processEvent_processed bo inp
    rw [hstep] at hp
    cases hp with
    | ignored => rcases hover.2 with ⟨-, timing, h⟩ | ⟨-, h, -⟩ <;> simp at h
    | stopped _ hstop => cases hstop
    | moved ht hm => exact HandsOver.applying ht hm hover
  refine ⟨happlying.accepted.2, ?_⟩
  have happlies (hclear : bo.fileMetadataWritten = false) : Applies f (bo.effects inp) :=
    applies_of_clear happlying (next_of_returned hstep) hclear hover.1 hstays
  rcases happlying with ⟨-, hs, hn⟩ | ⟨-, hs⟩ | ⟨-, hs⟩
  · exact (hinv.data hs hn).imp happlies fun hgoes => hinv.heard f hstays (hsame hgoes)
  · exact .inl (happlies (hinv.change (by simp [hs, receivesChange])))
  · exact .inl (happlies (hinv.change (by simp [hs, receivesChange])))

namespace Sample

def file (name : Char) : File :=
  ⟨dir, box, constructPath dir (padTo maximumPathLength (ascii ['/', name])),
    padTo maximumPathLength (ascii ['/', name]), padTo_length _ _, 0o644, 0, regularFile, 0, false⟩

def announced (name : Char) : Input :=
  heardWith .s130 (by decide) (.fill 65) ((file name).write ++ timingBytes 0)

def changed (name : Char) : Input :=
  heardWith .s174 (by decide) (.fill 65) ((file name).write ++ timingBytes 0)

def emptyPackage : Input :=
  peerInput .s200 (conforming_iff.2 (by decide)) (.fill 65) (List.replicate 17 0) env

end Sample

def changeFirst : List Input :=
  [Sample.heard .s164 (by decide) (.fill 65), Sample.changed 'f', Sample.changed 'f',
    Sample.announced 'f']

theorem metadata_applied_changeFirst :
    let bo := after Boxoffice.next (Sample.start [.fill 65]) changeFirst
    AppliedInSession (Sample.file 'f') ((bo, Sample.announced 'f') ::
      record Boxoffice.next (Sample.start [.fill 65]) changeFirst []) := by
  intro bo
  have hfacts : (runAll Boxoffice.next (Sample.start [.fill 65])
      (changeFirst ++ [Sample.announced 'f'])).isSome = true ∧
      (∀ p ∈ record Boxoffice.next (Sample.start [.fill 65]) changeFirst [], p.1.Fresh p.2) ∧
      bo.heardFile (Sample.announced 'f') = some (Sample.file 'f') ∧
      .dispatcher .s130 (timingBytes 0) ∈ bo.effects (Sample.announced 'f') := by
    decide +kernel
  obtain ⟨hruns, hfresh, hheard, hhanded⟩ := hfacts
  obtain ⟨hrun, hnext⟩ := run_next_after Boxoffice.next (Sample.start [.fill 65]) changeFirst
    (Sample.announced 'f') hruns
  refine metadata_applied rfl hrun hfresh (returned_of_next hnext)
    ⟨hheard, .inl ⟨rfl, timingBytes 0, hhanded⟩⟩ rfl ?_
  decide +kernel

def twoSessions : List Input :=
  [Sample.peerAnnounces, Sample.announced 'f', Sample.announced 'f',
    Sample.sendTimeElapsed, Sample.emptyPackage, Sample.peerStops, Sample.stopTimeElapsed,
    Sample.peerAnnounces, Sample.announced 'g']

theorem metadata_applied_fails :
    ¬ ∀ (start bo bo' : Boxoffice) (tr : List (Boxoffice × Input)) (inp : Input)
      (out : List Effect) (f : File), start.state = .ready → Run Boxoffice.next start tr bo →
      processEvent bo inp.status inp.sstream inp.env = .returned 0 bo' out →
      bo.HandsOver bo' inp out f → f.deletedFile = false →
      AppliedInSession f ((bo, inp) :: tr) := by
  intro h
  obtain ⟨hrun, hnext⟩ := run_next_after Boxoffice.next (Sample.start [.fill 65]) twoSessions
    (Sample.announced 'g') (by decide +kernel)
  have happlied := h _ _ _ _ (Sample.announced 'g') _ (Sample.file 'g') rfl hrun
    (returned_of_next hnext)
    ⟨by decide +kernel, .inl ⟨rfl, timingBytes 0, by decide +kernel⟩⟩ rfl
  revert happlied
  unfold AppliedInSession
  decide +kernel

end Flocksy
