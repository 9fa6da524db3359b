import Flocksy.ReceivedMetadata

/-!
# What the stages keep

No stage before the transition loses a subscriber or chooses a stop time, and the only
heartbeat it tells is a bare 100. The flag of the stop time is touched by a 100 and a 155.
-/

namespace Flocksy

open ByteStream Fsm

def Effect.Quiet : Effect → Prop
  | .heartbeat s payload => s = .s100 ∧ payload = []
  | .dispatcher s _ => s ≠ .s155
  | .disk _ => True

structure Kept (fr fr' : Frame) : Prop where
  keys : ∀ h ∈ fr.bo.subscribers.keys, h ∈ fr'.bo.subscribers.keys
  flag : fr'.bo.stopSyncTimeoutReceived = fr.bo.stopSyncTimeoutReceived
  out : ∃ es, fr'.out = fr.out ++ es ∧ ∀ e ∈ es, e.Quiet

theorem quiet_disk (ops : List FileOp) : ∀ e ∈ ops.map Effect.disk, e.Quiet := by
  intro e he
  obtain ⟨op, -, rfl⟩ := List.mem_map.1 he
  trivial

namespace Kept

variable {fr fr₁ fr₂ : Frame}

theorem of_edit (hkeys : ∀ h ∈ fr.bo.subscribers.keys, h ∈ fr₁.bo.subscribers.keys)
    (hflag : fr₁.bo.stopSyncTimeoutReceived = fr.bo.stopSyncTimeoutReceived)
    (hout : fr₁.out = fr.out) : Kept fr fr₁ :=
  ⟨hkeys, hflag, [], by simp [hout], by simp⟩

theorem refl (fr : Frame) : Kept fr fr := of_edit (fun _ h => h) rfl rfl

theorem trans (h : Kept fr fr₁) (h' : Kept fr₁ fr₂) : Kept fr fr₂ := by
  obtain ⟨es, hes, hquiet⟩ := h.out
  obtain ⟨es', hes', hquiet'⟩ := h'.out
  refine ⟨fun k hk => h'.keys k (h.keys k hk), h'.flag.trans h.flag, es ++ es', ?_, ?_⟩
  · rw [hes', hes, List.append_assoc]
  · intro e he
    rcases List.mem_append.1 he with he | he
    · exact hquiet e he
    · exact hquiet' e he

theorem send (h : Kept fr fr₁) {effects : List Effect} (hquiet : ∀ e ∈ effects, e.Quiet) :
    Kept fr (fr₁.send effects) :=
  h.trans ⟨fun _ hk => hk, rfl, effects, rfl, hquiet⟩

theorem become (h : Kept fr fr₁) (s : Status) : Kept fr (fr₁.become s) :=
  h.trans (of_edit (fun _ hk => hk) rfl rfl)

theorem post_checked (h : Kept fr fr₁) : (checked fr₁).Post (Exec.whenReturned (Kept fr)) := by
  rw [checked, Exec.post_require]
  split_ifs
  all_goals exact h

end Kept

@[simp] theorem updateTimestamp_status (fr : Frame) : (updateTimestamp fr).status = fr.status := rfl

theorem updateTimestamp_kept (fr : Frame) : Kept fr (updateTimestamp fr) :=
  .of_edit (fun _ hk => KeyedTable.mem_modify_keys.2 (.inr hk)) rfl rfl

theorem replyRound_kept {complete : Boxoffice → Boxoffice × Status} (fr : Frame)
    (hkeys : ∀ bo, (complete bo).1.subscribers = bo.subscribers)
    (hflag : ∀ bo, (complete bo).1.stopSyncTimeoutReceived = bo.stopSyncTimeoutReceived) :
    (replyRound complete fr).Post (Exec.whenReturned (Kept fr)) := by
  have hmark : ∀ h ∈ fr.bo.subscribers.keys, h ∈ fr.bo.markReplied.subscribers.keys :=
    fun h hh => KeyedTable.mem_modify_keys.2 (.inr hh)
  unfold replyRound
  simp only
  split_ifs
  · have hedit : Kept fr { fr with bo := (complete fr.bo.markReplied.clearReplied).1 } := by
      refine .of_edit (fun h hh => ?_) ?_ rfl
      · simp only [hkeys]
        exact hmark h hh
      · simp only [hflag]
        rfl
    exact Kept.post_checked (hedit.become _)
  · exact .of_edit hmark rfl rfl

theorem announcedFile_kept {fr fr' : Frame} {f : File} (h : announcedFile fr = .ok (f, fr')) :
    Kept fr fr' := by
  obtain ⟨hbo, -, ops, hout⟩ := announcedFile_keeps h
  exact ⟨by simp [hbo], by rw [hbo], _, hout, quiet_disk ops⟩

theorem applyMetadata_kept {newFile : File} {fr fr' : Frame}
    (h : applyMetadata newFile fr = .ok fr') : Kept fr fr' := by
  obtain ⟨-, ⟨ops, hout⟩, -⟩ := applyMetadata_keeps h
  have hflag : fr'.bo.stopSyncTimeoutReceived = fr.bo.stopSyncTimeoutReceived := by
    unfold applyMetadata at h
    simp only at h
    split_ifs at h
    · obtain rfl := Except.ok.inj h
      rfl
    · split at h
      · simp at h
      · obtain rfl := Except.ok.inj h
        rfl
    · obtain rfl := Except.ok.inj h
      rfl
  exact ⟨by simp [(applyMetadata_ok h).subscribers], hflag, _, hout, quiet_disk ops⟩

theorem writeMetadata_kept {newFile : File} {fr fr' : Frame}
    (h : writeMetadata newFile fr = .ok fr') : Kept fr fr' := by
  rcases writeMetadata_ok h with ⟨-, rfl⟩ | ⟨-, -, rfl⟩
  · exact .refl fr'
  · refine Kept.send ?_ (by simp [Effect.Quiet])
    exact .of_edit (fun _ hk => hk) rfl rfl

theorem receivedNewFileMetadata_kept (fr : Frame) :
    (receivedNewFileMetadata fr).Post (Exec.whenReturned (Kept fr)) := by
  unfold receivedNewFileMetadata
  split_ifs
  · cases hfile : announcedFile fr with
    | error f => trivial
    | ok x =>
      obtain ⟨newFile, fr₁⟩ := x
      simp only
      cases hwrite : writeMetadata newFile fr₁ with
      | error f => trivial
      | ok fr₂ =>
        have hkept := (announcedFile_kept hfile).trans (writeMetadata_kept hwrite)
        refine Kept.send ?_ (by simp [Effect.Quiet])
        exact hkept.trans (.of_edit (fun _ hk => hk) rfl rfl)
  · exact .refl fr

theorem receivedMetadataChange_kept (fr : Frame) :
    (receivedMetadataChange fr).Post (Exec.whenReturned (Kept fr)) := by
  unfold receivedMetadataChange
  split_ifs
  · cases hfile : announcedFile fr with
    | error f => trivial
    | ok x =>
      simp only
      cases happly : applyMetadata x.1 x.2 with
      | error f => trivial
      | ok fr₁ =>
        have hkept := (announcedFile_kept hfile).trans (applyMetadata_kept happly)
        refine Kept.post_checked (Kept.become (hkept.trans ?_) _)
        exact .of_edit (fun _ hk => hk) rfl rfl
  · exact .refl fr

theorem receivedMetadataChangeWithMore_kept (fr : Frame) :
    (receivedMetadataChangeWithMore fr).Post (Exec.whenReturned (Kept fr)) := by
  unfold receivedMetadataChangeWithMore
  split_ifs
  · cases hfile : announcedFile fr with
    | error f => trivial
    | ok x =>
      simp only
      cases happly : applyMetadata x.1 x.2 with
      | error f => trivial
      | ok fr₁ =>
        have hkept := (announcedFile_kept hfile).trans (applyMetadata_kept happly)
        refine Kept.post_checked (Kept.become (hkept.trans ?_) _)
        exact .of_edit (fun _ hk => hk) rfl rfl
  · exact .refl fr

theorem receivedSyncEnd_kept (fr : Frame) :
    (receivedSyncEnd fr).Post (Exec.whenReturned (Kept fr)) := by
  unfold receivedSyncEnd
  split_ifs with hready
  · have hlegal : checkEvent .ready .receivedHeartbeat .s100 = true := by decide
    have hact : getAction .ready .receivedHeartbeat .s100 = .sendHeartbeat := by decide
    have hbeat : getHeartbeatStatus .ready .receivedHeartbeat .s100 = .s100 := by decide
    simp only [checked, Frame.become, Exec.require, hready, getEventByStatusCode, hlegal, hact,
      hbeat, ↓reduceIte, Exec.andThen, performAction, updateHeartbeat, prepareHeartbeatMessage]
    refine Kept.send ?_ (by simp [Effect.Quiet])
    exact .of_edit (fun _ hk => hk) rfl rfl
  · exact .refl fr

theorem heartbeatBranch_kept (fr : Frame) (h100 : fr.status ≠ .s100) (h155 : fr.status ≠ .s155) :
    (heartbeatBranch fr).Post (Exec.whenReturned (Kept fr)) := by
  unfold heartbeatBranch
  split
  case h_1 h => exact absurd h h100
  case h_2 => exact replyRound_kept fr (fun _ => rfl) fun _ => rfl
  case h_3 => exact replyRound_kept fr (fun _ => rfl) fun _ => rfl
  case h_4 => exact replyRound_kept fr (fun _ => rfl) fun _ => rfl
  case h_5 => exact replyRound_kept fr (fun _ => rfl) fun _ => rfl
  case h_6 => exact replyRound_kept fr (fun _ => rfl) fun _ => rfl
  case h_10 => exact receivedNewFileMetadata_kept fr
  case h_12 => exact receivedMetadataChange_kept fr
  case h_13 => exact receivedMetadataChangeWithMore_kept fr
  case h_14 => exact receivedSyncEnd_kept fr
  case h_15 h => exact absurd h h155
  all_goals exact .of_edit (fun _ hk => hk) rfl rfl

theorem notifyDispatcher_kept (fr : Frame) :
    (notifyDispatcher fr).Post (Exec.whenReturned (Kept fr)) := by
  unfold notifyDispatcher
  split_ifs with hcond
  · have hstatus : fr.status ≠ .s155 := by
      rcases hcond with ⟨-, h⟩ | ⟨-, h⟩ <;> simp [h]
    simp only
    split
    · trivial
    · trivial
    · refine Kept.send ?_ (by simpa [Effect.Quiet] using hstatus)
      exact .of_edit (fun _ hk => KeyedTable.mem_touch_keys.2 (.inr hk)) rfl rfl
  · exact .refl fr

theorem queueFile_kept (fr : Frame) (f : File) :
    Kept fr { queueFile fr f with bo := (queueFile fr f).bo.clearReplied } := by
  unfold queueFile
  simp only
  split_ifs
  all_goals exact .of_edit (fun _ hk => hk) rfl rfl

theorem localFileEvent_kept (fr : Frame) :
    (localFileEvent fr).Post (Exec.whenReturned (Kept fr)) := by
  have hread : ∀ s hash,
      Kept fr { fr with sstream := s, bo := { fr.bo with currentBox := hash } } :=
    fun _ _ => .of_edit (fun _ hk => hk) rfl rfl
  unfold localFileEvent
  split_ifs
  · simp only
    split_ifs
    · exact hread _ _
    · split
      · trivial
      · split
        · trivial
        · exact (hread _ _).trans (queueFile_kept _ _)
  · exact .refl fr

theorem receivedFileData_kept (fr : Frame) :
    (receivedFileData fr).Post (Exec.whenReturned (Kept fr)) := by
  unfold receivedFileData
  split_ifs
  · split
    · trivial
    · split
      · trivial
      · next x _ =>
        have hstored (store : FileOp) :
            ∀ e ∈ x.ops.map Effect.disk ++ [Effect.disk store], e.Quiet := by
          intro e he
          rcases List.mem_append.1 he with he | he
          · exact quiet_disk x.ops e he
          · exact quiet_disk [store] e he
        simp only
        split_ifs
        · refine Kept.post_checked (Kept.become (Kept.send ?_ (hstored _)) _)
          exact .of_edit (fun _ hk => hk) rfl rfl
        · refine Kept.send ?_ (hstored _)
          exact .of_edit (fun _ hk => hk) rfl rfl
  · exact .refl fr

theorem stages_keep {P : Frame → Prop} {fr : Frame}
    (hheartbeat : (receivedHeartbeat fr).Post (Exec.whenReturned P))
    (hkeeps : ∀ fr₁ fr₂, P fr₁ → Kept fr₁ fr₂ → P fr₂) :
    (stages fr).Post (Exec.whenReturned P) := by
  have hlater {x : Frame → BoExec} (hx : ∀ fr₁, (x fr₁).Post (Exec.whenReturned (Kept fr₁))) :
      ∀ fr₁, P fr₁ → (x fr₁).Post (Exec.whenReturned P) := fun fr₁ h =>
    (hx fr₁).mono (fun _ hk => hkeeps _ _ h hk) (fun _ _ hk => hkeeps _ _ h hk) fun _ h => h
  unfold stages
  apply Exec.Post.returnedThenKeeps _ (hlater receivedFileData_kept)
  apply Exec.Post.returnedThenKeeps _ (hlater localFileEvent_kept)
  exact hheartbeat.returnedThenKeeps (hlater notifyDispatcher_kept)

end Flocksy
