import Flocksy.DispatcherRuns
import Flocksy.Promotions
import Flocksy.StopTimes

/-!
# What one call tells the dispatcher

A call of `processEvent` sends the dispatcher nothing, or one message: the order of a round that
ends, the start of a file that is followed, or a stop time. With the message the state or
`notified_dispatch_` changes, so the state tells which messages may still follow.
-/

namespace Flocksy

open ByteStream Fsm Runs

def toldStatuses (out : List Effect) : List Status := (dispatcherMessages out).map Prod.fst

theorem dispatcherMessages_append (out out' : List Effect) :
    dispatcherMessages (out ++ out') = dispatcherMessages out ++ dispatcherMessages out' :=
  List.filterMap_append

theorem toldStatuses_append (out out' : List Effect) :
    toldStatuses (out ++ out') = toldStatuses out ++ toldStatuses out' := by
  rw [toldStatuses, dispatcherMessages_append, List.map_append]
  rfl

theorem toldStatuses_disk (ops : List FileOp) : toldStatuses (ops.map Effect.disk) = [] := by
  rw [toldStatuses, List.map_eq_nil_iff, dispatcherMessages, List.filterMap_eq_nil_iff]
  intro e he
  obtain ⟨op, -, rfl⟩ := List.mem_map.1 he
  rfl

def Boxoffice.passedOn (bo : Boxoffice) (status : Status) : List Status :=
  if status = .s130 ∧ bo.state = .promotingNewFileMetadata ∧ bo.notifiedDispatch = false then
    [.s130]
  else if status = .s155 ∧ bo.stopSyncTimeoutReceived = false then [.s155]
  else []

section Stages

variable {bo : Boxoffice} {inp : Input}

theorem replyRound_told {complete : Boxoffice → Boxoffice × Status} (fr : Frame) :
    (replyRound complete fr).Post
      (Exec.whenNext fun fr' => toldStatuses fr'.out = toldStatuses fr.out) := by
  unfold replyRound
  simp only
  split_ifs
  · rw [checked, Exec.post_require]
    split_ifs
    · rfl
    · trivial
  · rfl

theorem announcedFile_told {fr fr' : Frame} {f : File} (h : announcedFile fr = .ok (f, fr')) :
    toldStatuses fr'.out = toldStatuses fr.out := by
  obtain ⟨-, -, ops, hout⟩ := announcedFile_keeps h
  rw [hout, toldStatuses_append, toldStatuses_disk, List.append_nil]

theorem applyMetadata_told {newFile : File} {fr fr' : Frame}
    (h : applyMetadata newFile fr = .ok fr') :
    toldStatuses fr'.out = toldStatuses fr.out := by
  obtain ⟨-, ⟨ops, hout⟩, -⟩ := applyMetadata_keeps h
  rw [hout, toldStatuses_append, toldStatuses_disk, List.append_nil]

theorem writeMetadata_told {newFile : File} {fr fr' : Frame}
    (h : writeMetadata newFile fr = .ok fr') :
    toldStatuses fr'.out = toldStatuses fr.out := by
  obtain ⟨⟨ops, hout⟩, -⟩ := writeMetadata_keeps h
  rw [hout, toldStatuses_append, toldStatuses_disk, List.append_nil]

theorem receivedNewFileMetadata_told (fr : Frame) : (receivedNewFileMetadata fr).Post
    (Exec.whenNext fun fr' => toldStatuses fr'.out = toldStatuses fr.out ++
      if fr.bo.state = .promotingNewFileMetadata ∧ fr.bo.notifiedDispatch = false then [.s130]
      else []) := by
  unfold receivedNewFileMetadata
  simp only [Bool.not_eq_eq_eq_not, Bool.not_true]
  split_ifs with hcond
  · cases hfile : announcedFile fr with
    | error f => trivial
    | ok x =>
      obtain ⟨newFile, fr₁⟩ := x
      simp only
      cases hwrite : writeMetadata newFile fr₁ with
      | error f => trivial
      | ok fr₂ =>
        have hsame := (writeMetadata_told hwrite).trans (announcedFile_told hfile)
        exact (toldStatuses_append _ _).trans (congrArg (· ++ [Status.s130]) hsame)
  · exact (List.append_nil _).symm

theorem receivedMetadataChange_told (fr : Frame) : (receivedMetadataChange fr).Post
    (Exec.whenNext fun fr' => toldStatuses fr'.out = toldStatuses fr.out) := by
  unfold receivedMetadataChange
  split_ifs
  · cases hfile : announcedFile fr with
    | error f => trivial
    | ok x =>
      obtain ⟨newFile, fr₁⟩ := x
      cases happly : applyMetadata newFile fr₁ with
      | error f =>
        simp only [happly]
        trivial
      | ok fr₂ =>
        simp only [happly, checked, Exec.post_require]
        split_ifs
        · exact (applyMetadata_told happly).trans (announcedFile_told hfile)
        · trivial
  · rfl

theorem receivedMetadataChangeWithMore_told (fr : Frame) :
    (receivedMetadataChangeWithMore fr).Post
      (Exec.whenNext fun fr' => toldStatuses fr'.out = toldStatuses fr.out) := by
  unfold receivedMetadataChangeWithMore
  split_ifs
  · cases hfile : announcedFile fr with
    | error f => trivial
    | ok x =>
      obtain ⟨newFile, fr₁⟩ := x
      cases happly : applyMetadata newFile fr₁ with
      | error f =>
        simp only [happly]
        trivial
      | ok fr₂ =>
        simp only [happly, checked, Exec.post_require]
        split_ifs
        · exact (applyMetadata_told happly).trans (announcedFile_told hfile)
        · trivial
  · rfl

theorem receivedSyncEnd_told (fr : Frame) : (receivedSyncEnd fr).Post
    (Exec.whenNext fun fr' => toldStatuses fr'.out = toldStatuses fr.out) := by
  unfold receivedSyncEnd
  split_ifs with hready
  · have hlegal : checkEvent .ready .receivedHeartbeat .s100 = true := by decide
    have hact : getAction .ready .receivedHeartbeat .s100 = .sendHeartbeat := by decide
    simp only [checked, Frame.become, Exec.require, hready, getEventByStatusCode, hlegal, hact,
      ↓reduceIte, Exec.andThen, performAction, updateHeartbeat, prepareHeartbeatMessage]
    exact (toldStatuses_append _ _).trans (List.append_nil _)
  · rfl

theorem receivedStopTime_told (fr : Frame) : (receivedStopTime fr).Post
    (Exec.whenNext fun fr' => toldStatuses fr'.out = toldStatuses fr.out ++
      if fr.bo.stopSyncTimeoutReceived = false then [.s155] else []) := by
  unfold receivedStopTime
  simp only [Bool.not_eq_eq_eq_not, Bool.not_true]
  split_ifs
  · exact toldStatuses_append _ _
  · exact (List.append_nil _).symm

theorem passedOn_of_other (bo : Boxoffice) {status : Status} (h130 : status ≠ .s130)
    (h155 : status ≠ .s155) : bo.passedOn status = [] := by
  rw [Boxoffice.passedOn, if_neg (by simp [h130]), if_neg (by simp [h155])]

theorem heartbeatBranch_told : (heartbeatBranch (receivedFrame bo inp)).Post
    (Exec.whenNext fun fr => toldStatuses fr.out = bo.passedOn inp.status) := by
  have hsame {x : BoExec} (hx : x.Post (Exec.whenNext fun fr' =>
        toldStatuses fr'.out = toldStatuses (receivedFrame bo inp).out))
      (hother : inp.status ≠ .s130 ∧ inp.status ≠ .s155) :
      x.Post (Exec.whenNext fun fr => toldStatuses fr.out = bo.passedOn inp.status) := by
    rw [passedOn_of_other bo hother.1 hother.2]
    exact hx
  unfold heartbeatBranch
  rw [receivedFrame_status]
  split
  case h_2 h => exact hsame (replyRound_told _) (by simp [h])
  case h_3 h => exact hsame (replyRound_told _) (by simp [h])
  case h_4 h => exact hsame (replyRound_told _) (by simp [h])
  case h_5 h => exact hsame (replyRound_told _) (by simp [h])
  case h_6 h => exact hsame (replyRound_told _) (by simp [h])
  case h_10 h =>
    have hpass : bo.passedOn inp.status = [] ++ if bo.state = .promotingNewFileMetadata ∧
        bo.notifiedDispatch = false then [.s130] else [] := by
      simp [Boxoffice.passedOn, h]
    rw [hpass]
    exact receivedNewFileMetadata_told _
  case h_12 h => exact hsame (receivedMetadataChange_told _) (by simp [h])
  case h_13 h => exact hsame (receivedMetadataChangeWithMore_told _) (by simp [h])
  case h_14 h => exact hsame (receivedSyncEnd_told _) (by simp [h])
  case h_15 h =>
    have hpass : bo.passedOn inp.status =
        [] ++ if bo.stopSyncTimeoutReceived = false then [.s155] else [] := by
      simp [Boxoffice.passedOn, h]
    rw [hpass]
    exact receivedStopTime_told _
  case h_16 =>
    refine hsame (by rfl) ⟨?_, ?_⟩
    · assumption
    · assumption
  all_goals
    next h => exact hsame (by rfl) (by simp [h])

theorem receivedFileData_told (fr : Frame) : (receivedFileData fr).Post
    (Exec.whenNext fun fr' => toldStatuses fr'.out = toldStatuses fr.out) := by
  unfold receivedFileData
  split_ifs
  · split
    · trivial
    · split
      · trivial
      · next x _ =>
        have hstored (store : FileOp) : toldStatuses
            (fr.out ++ (x.ops.map Effect.disk ++ [Effect.disk store])) = toldStatuses fr.out := by
          rw [toldStatuses_append, toldStatuses_append, toldStatuses_disk]
          exact List.append_nil _
        simp only
        split_ifs
        · rw [checked, Exec.post_require]
          split_ifs
          · exact hstored _
          · trivial
        · exact hstored _
  · rfl

theorem stages_told {fr : Frame}
    (hacc : checkEvent bo.state (getEventByStatusCode inp.status) inp.status = true)
    (hack : isAck inp.status = false) (hlocal : isLocal inp.status = false)
    (hstaged : stages (Frame.start bo inp.status inp.sstream inp.env) = .next fr) :
    toldStatuses fr.out = bo.passedOn inp.status := by
  unfold stages at hstaged
  by_cases hheart : getEventByStatusCode inp.status = .receivedHeartbeat
  · have hbeat : receivedHeartbeat (Frame.start bo inp.status inp.sstream inp.env) =
        heartbeatBranch (receivedFrame bo inp) := if_pos hheart
    have hheard := (updateTimestamp_received hacc).heartbeatBranch_post hheart
    have htold := @heartbeatBranch_told bo inp
    rw [hbeat] at hstaged
    cases hx : heartbeatBranch (receivedFrame bo inp) with
    | next fr₁ =>
      rw [hx] at hstaged htold
      rw [show updateTimestamp (Frame.start bo inp.status inp.sstream inp.env) =
        receivedFrame bo inp from rfl, hx] at hheard
      obtain ⟨hsteady, hheard⟩ := hheard
      cases hheard with
      | silent _ hmem =>
        -- the later stages have nothing to do
        obtain ⟨hno, -, hremote⟩ :=
          remote_of_heartbeat _ (conforming_iff.1 inp.conforming) hack hheart _ hmem
        rw [← hsteady.event] at hremote
        rw [Exec.andThen, hsteady.notifyDispatcher_eq hno, Exec.andThen,
          localFileEvent_of_remote hremote, Exec.andThen, receivedFileData_of_remote hremote]
          at hstaged
        obtain rfl := Exec.next.inj hstaged
        exact htold
      | counted hyes => simp [hack] at hyes
      | completed hcomp => exact absurd hcomp.1 (by simp [hack])
    | ret code fr₁ =>
      rw [hx] at hstaged
      cases hstaged
    | fault f =>
      rw [hx] at hstaged
      cases hstaged
  · obtain ⟨-, hno, hother, -⟩ :=
      other_of_conforming _ (conforming_iff.1 inp.conforming) hheart hlocal
    have hbeat : receivedHeartbeat (Frame.start bo inp.status inp.sstream inp.env) =
        .next (Frame.start bo inp.status inp.sstream inp.env) := if_neg hheart
    have hlater : localFileEvent (Frame.start bo inp.status inp.sstream inp.env) =
        .next (Frame.start bo inp.status inp.sstream inp.env) := if_neg (ne_true_of_eq_false hother)
    rw [hbeat, Exec.andThen, (start_begun hacc).steady.notifyDispatcher_eq hno, Exec.andThen,
      hlater, Exec.andThen] at hstaged
    have hsame := (receivedFileData_told (Frame.start bo inp.status inp.sstream inp.env)).of_next
      hstaged
    have hplain : inp.status ≠ .s130 ∧ inp.status ≠ .s155 := by
      constructor <;> intro h <;> exact hheart (by rw [h]; rfl)
    rw [hsame, passedOn_of_other bo hplain.1 hplain.2]
    rfl

end Stages

theorem Moved.told {fr : Frame} {t : Transition} {bo' : Boxoffice} {out : List Effect}
    (hm : Moved fr t bo' out) : ∃ n, toldStatuses out = toldStatuses fr.out ++
      List.replicate n .s155 ∧ stopTimes out = stopTimes fr.out + n := by
  cases hm with
  | stay _ _ hout => exact ⟨0, by simp [hout], by simp [hout]⟩
  | exit _ _ _ hout => exact ⟨0, by simp [hout], by simp [hout]⟩
  | data p ps _ _ _ _ hout =>
    refine ⟨0, ?_, ?_⟩
    · rw [hout, toldStatuses_append]
      rfl
    · rw [hout, stopTimes_append]
      rfl
  | metadata p ps _ _ _ _ hout =>
    refine ⟨0, ?_, ?_⟩
    · rw [hout, toldStatuses_append]
      rfl
    · rw [hout, stopTimes_append]
      rfl
  | plain _ _ messages _ _ _ _ _ hbeat hstop hout =>
    refine ⟨stopTimes messages, ?_, ?_⟩
    · rw [hout, toldStatuses_append, toldStatuses_append, List.append_assoc]
      refine congrArg (toldStatuses fr.out ++ ·) ((List.append_nil _).trans ?_)
      clear hout
      induction messages with
      | nil => rfl
      | cons e es ih =>
        have hrest := ih (fun s payload h => hbeat s payload (List.mem_cons_of_mem _ h))
          fun s payload h => hstop s payload (List.mem_cons_of_mem _ h)
        cases e with
        | dispatcher s payload =>
          obtain rfl := hstop s payload List.mem_cons_self
          rw [stopTimes, List.countP_cons_of_pos rfl, List.replicate_succ, ← stopTimes, ← hrest]
          rfl
        | heartbeat s payload => exact absurd List.mem_cons_self (hbeat s payload)
        | disk op =>
          rw [stopTimes, List.countP_cons_of_neg (by simp [isStopTime]), ← stopTimes, ← hrest]
          rfl
    · rw [hout, stopTimes_append, stopTimes_append]
      rfl

section Call

variable {bo bo' : Boxoffice} {inp : Input}

theorem Taken.told {fr : Frame} {t : Transition} (ht : Taken bo inp fr t) : toldStatuses fr.out =
    if notifies t.status = true then [t.status] else bo.passedOn inp.status := by
  have hother : ∀ s, isAck s = true ∨ isLocal s = true → s ≠ .s130 ∧ s ≠ .s155 := by decide +kernel
  have hnone (hplain : isAck inp.status = true ∨ isLocal inp.status = true) (hout : fr.out = [])
      (hno : notifies t.status = false) : toldStatuses fr.out =
        if notifies t.status = true then [t.status] else bo.passedOn inp.status := by
    rw [if_neg (by simp [hno]), hout,
      passedOn_of_other bo (hother _ hplain).1 (hother _ hplain).2]
    rfl
  have hstatus := ht.status
  cases ht.settled with
  | silent hack hlocal hst =>
    have hno := (quietStatuses_plain _ (hstatus ▸ mem_quietStatuses hack hlocal hst)).2
    have hquiet : notifies t.status = false := by
      rw [← Bool.not_eq_true, notifies_iff]
      rintro (h | h) <;> simp [h, roundEnds] at hno
    rw [if_neg (by simp [hquiet])]
    exact stages_told ht.accepted hack hlocal ht.staged
  | counted hack _ hst _ _ hout =>
    refine hnone (.inl hack) hout ?_
    rw [hstatus, hst]
    exact (remote_of_ack _ hack).1
  | completed hcomp _ _ _ _ hnotified =>
    unfold Notified at hnotified
    rw [← hstatus] at hnotified
    split_ifs at hnotified with hnotifies
    · obtain ⟨p, ps, dir, -, -, hout⟩ := hnotified
      rw [if_pos hnotifies, hout]
      rfl
    · exact hnone (.inl hcomp.1) hnotified (Bool.eq_false_iff.2 hnotifies)
  | queued f hlocal hst _ _ _ _ _ _ _ hout =>
    refine hnone (.inr hlocal) hout ?_
    rw [hstatus, hst]
    revert hlocal
    cases inp.status <;> decide
  | twice hlocal hst _ _ _ _ _ _ hout =>
    refine hnone (.inr hlocal) hout ?_
    rw [hstatus, hst]
    decide

inductive Tells (bo bo' : Boxoffice) : List Status → Prop where
  | nothing : (bo'.state = .sendingNewFileMetadata → bo.state = .sendingNewFileMetadata) →
      (bo'.state = .syncingStop → bo.state = .syncingStop ∨ bo.stopSyncTimeoutReceived = true) →
      Tells bo bo' []
  | order {status : Status} : notifies status = true →
      bo.state = .announcingNewFile ∨ entersMetadata bo.state = true →
      bo'.state = .sendingNewFileMetadata → Tells bo bo' [status]
  | follow : bo.state = .promotingNewFileMetadata → bo.notifiedDispatch = false →
      bo'.state = .promotingNewFileMetadata → Tells bo bo' [.s130]
  | stop : bo.state ≠ .syncingStop → bo.stopSyncTimeoutReceived = false →
      bo'.state = .syncingStop → Tells bo bo' [.s155]

theorem order_rows : ∀ state, ∀ t ∈ usedTransitions state,
    (notifies t.status = true → t.newState = .sendingNewFileMetadata ∧
      (state = .announcingNewFile ∨ entersMetadata state = true)) ∧
    (t.newState = .sendingNewFileMetadata →
      state = .sendingNewFileMetadata ∨ notifies t.status = true) := by
  decide +kernel

theorem tells_of_next (hinv : bo.StopTold) (h : bo.next inp = some bo') :
    Tells bo bo' (toldStatuses (bo.effects inp)) := by
  have hstops := (stop_step hinv h).stops
  have hp := processEvent_processed bo inp
  rw [returned_of_next h] at hp
  generalize bo.effects inp = out at hp hstops
  cases hp with
  | ignored => exact .nothing id .inl
  | stopped _ hstop => cases hstop
  | @moved fr t _ _ ht hm =>
    obtain ⟨n, htold, hcount⟩ := hm.told
    obtain ⟨horder, hentry⟩ := order_rows _ t ht.mem_usedTransitions
    have hstate := hm.kept.state
    have hstopping : Stopping bo inp.status fr := stages_stopping.of_next ht.staged
    rw [hcount, hstopping.stops] at hstops
    rw [htold, ht.told]
    by_cases hnotifies : notifies t.status = true
    · obtain ⟨hnew, hold⟩ := horder hnotifies
      rw [hstate, hnew, if_neg (by simp)] at hstops
      obtain rfl : n = 0 := by omega
      rw [if_pos hnotifies]
      exact .order hnotifies hold (hstate.trans hnew)
    rw [if_neg hnotifies]
    have hsame : bo'.state = .sendingNewFileMetadata → bo.state = .sendingNewFileMetadata :=
      fun h => (hentry (hstate.symm.trans h)).resolve_right hnotifies
    by_cases h130 : inp.status = .s130 ∧ bo.state = .promotingNewFileMetadata ∧
        bo.notifiedDispatch = false
    · obtain ⟨hst, hpromoting, hclear⟩ := h130
      have hrow := ht.status_eq hst (by decide)
      have hnew := promoting_stays t (hpromoting ▸ ht.row) hrow
      rw [hstate, hnew, if_neg (by simp)] at hstops
      obtain rfl : n = 0 := by omega
      rw [Boxoffice.passedOn, if_pos ⟨hst, hpromoting, hclear⟩]
      exact .follow hpromoting hclear (hstate.trans hnew)
    rw [Boxoffice.passedOn, if_neg h130]
    -- a stop time is told by the heartbeat that names it or by the transition, and not by both
    by_cases henters : bo.state ≠ .syncingStop ∧ bo'.state = .syncingStop ∧
        bo.stopSyncTimeoutReceived = false
    · rw [if_pos henters] at hstops
      have hone : (if inp.status = .s155 ∧ bo.stopSyncTimeoutReceived = false then [Status.s155]
          else []) ++ List.replicate n .s155 = [.s155] := by
        unfold Boxoffice.passesStop at hstops
        split_ifs at hstops ⊢
        · obtain rfl : n = 0 := by omega
          rfl
        · obtain rfl : n = 1 := by omega
          rfl
      rw [hone]
      exact .stop henters.1 henters.2.2 henters.2.1
    · rw [if_neg henters] at hstops
      have hnone : (if inp.status = .s155 ∧ bo.stopSyncTimeoutReceived = false then [Status.s155]
          else []) ++ List.replicate n .s155 = [] := by
        unfold Boxoffice.passesStop at hstops
        split_ifs at hstops ⊢
        · omega
        · obtain rfl : n = 0 := by omega
          rfl
      rw [hnone]
      refine .nothing hsame fun hnew => ?_
      by_contra hother
      exact henters ⟨fun h => hother (.inl h), hnew, by simpa using fun h => hother (.inr h)⟩

end Call

end Flocksy
