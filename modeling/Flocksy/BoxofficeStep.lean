import Flocksy.Foundation.Runs
import Flocksy.Stages

/-!
# One call of processEvent

`Moved` says what the transition of the state machine does to a settled frame. A
call ignores its message, takes a row of the table, returns early or fails
(`Processed`); a run goes on as long as the calls return zero. The invariants of the
later modules are read off `Settled`, `Moved` and the rows of the table.
-/

namespace Flocksy

open ByteStream Fsm

def entersData (state : State) : Bool :=
  state = .sendingNewFileMetadata ∨ state = .sendingNewFileMetadataWithMore

def entersMetadata (state : State) : Bool :=
  state = .sendingFileMetadataChange ∨ state = .sendingFileMetadataChangeWithMore

/-- The transition out of a settled frame: staying leaves everything, moving on sends
one heartbeat, which takes along the file at the front of the deque of the new state. -/
inductive Moved (fr : Frame) (t : Transition) (bo' : Boxoffice) (out' : List Effect) : Prop where
  | stay : t.newState = fr.bo.state → bo' = fr.bo → out' = fr.out → Moved fr t bo' out'
  | exit : t.newState ≠ fr.bo.state → t.newState = .exit →
      bo' = { fr.bo with state := .exit } → out' = fr.out → Moved fr t bo' out'
  | data (p : FilePtr) (ps : List FilePtr) : t.newState ≠ fr.bo.state →
      entersData t.newState = true → fr.bo.fileListData = p :: ps →
      bo' = { fr.bo.popData with state := t.newState, currentFile := storedRecord p.file } →
      out' = fr.out ++ [.heartbeat t.heartbeat
        (p.file.write ++ timingBytes fr.bo.currentTimingOffset)] → Moved fr t bo' out'
  | metadata (p : FilePtr) (ps : List FilePtr) : t.newState ≠ fr.bo.state →
      entersMetadata t.newState = true → fr.bo.fileListMetadata = p :: ps →
      bo' = { fr.bo.popMetadata with state := t.newState, currentFile := storedRecord p.file } →
      out' = fr.out ++ [.heartbeat t.heartbeat p.file.write] → Moved fr t bo' out'
  | plain (timing : UInt64) (stop : Bool) (messages : List Effect) (payload : Bytes) :
      t.newState ≠ fr.bo.state → entersData t.newState = false →
      entersMetadata t.newState = false →
      bo' = { fr.bo with
        state := t.newState, currentTimingOffset := timing, stopSyncTimeoutReceived := stop } →
      (∀ s payload, Effect.heartbeat s payload ∉ messages) →
      (∀ s payload, Effect.dispatcher s payload ∈ messages → s = .s155) →
      out' = fr.out ++ messages ++ [.heartbeat t.heartbeat payload] → Moved fr t bo' out'

def FrontMissing (fr : Frame) (t : Transition) : Prop :=
  t.newState ≠ fr.bo.state ∧
    ((entersData t.newState = true ∧ fr.bo.fileListData = []) ∨
      (entersMetadata t.newState = true ∧ fr.bo.fileListMetadata = []))

theorem fsmContinue_post {fr : Frame} {t : Transition}
    (ht : transition fr.bo.state fr.event fr.status = some t) :
    (fsmContinue fr).Post ⟨fun fr' => Moved fr t fr'.bo fr'.out, fun _ _ => False,
      fun f => f = .frontOfEmptyDeque ∧ FrontMissing fr t⟩ := by
  obtain ⟨hmem, hev, hst⟩ := mem_of_transition ht
  have hnew : getNewState fr.bo.state fr.event fr.status = t.newState := by
    simp [getNewState, ht]
  have haction : getAction fr.bo.state fr.event fr.status = t.action := by
    simp [getAction, ht]
  have hbeat : getHeartbeatStatus fr.bo.state fr.event fr.status = t.heartbeat := by
    simp [getHeartbeatStatus, ht]
  simp only [fsmContinue, hnew, haction]
  by_cases hstay : t.newState = fr.bo.state
  · rw [if_neg (by simp [hstay])]
    exact .stay hstay rfl rfl
  rw [if_pos (fun h => hstay h.symm)]
  rcases sendHeartbeat_of_leaves _ t hmem hstay with ⟨hsend, -⟩ | ⟨haction, hexit⟩
  · simp only [performAction, hsend, updateHeartbeat, hbeat]
    by_cases hdata : entersData t.newState = true
    · have hcond : t.newState = .sendingNewFileMetadata ∨
          t.newState = .sendingNewFileMetadataWithMore := by simpa [entersData] using hdata
      cases hlist : fr.bo.fileListData with
      | nil =>
        simp only [prepareHeartbeatMessage, if_pos hcond, hlist, Except.map]
        exact ⟨rfl, hstay, .inl ⟨hdata, hlist⟩⟩
      | cons p ps =>
        simp only [prepareHeartbeatMessage, if_pos hcond, hlist, Except.map]
        exact .data p ps hstay hdata hlist rfl rfl
    have hnodata : ¬ (t.newState = .sendingNewFileMetadata ∨
        t.newState = .sendingNewFileMetadataWithMore) := by simpa [entersData] using hdata
    by_cases hmeta : entersMetadata t.newState = true
    · have hcond : t.newState = .sendingFileMetadataChange ∨
          t.newState = .sendingFileMetadataChangeWithMore := by simpa [entersMetadata] using hmeta
      cases hlist : fr.bo.fileListMetadata with
      | nil =>
        simp only [prepareHeartbeatMessage, if_neg hnodata, if_pos hcond, hlist, Except.map]
        exact ⟨rfl, hstay, .inr ⟨hmeta, hlist⟩⟩
      | cons p ps =>
        simp only [prepareHeartbeatMessage, if_neg hnodata, if_pos hcond, hlist, Except.map]
        exact .metadata p ps hstay hmeta hlist rfl rfl
    have hnometa : ¬ (t.newState = .sendingFileMetadataChange ∨
        t.newState = .sendingFileMetadataChangeWithMore) := by simpa [entersMetadata] using hmeta
    have hdata' := Bool.eq_false_iff.2 hdata
    have hmeta' := Bool.eq_false_iff.2 hmeta
    simp only [prepareHeartbeatMessage, if_neg hnodata, if_neg hnometa]
    generalize fr.env.now + (fr.env.randomUniform (maximumStopOffset - minimumStopOffset) +
      minimumStopOffset).toUInt64 = timing
    split_ifs with hstop
    · exact .plain timing true [.dispatcher .s155 _] _ hstay hdata' hmeta' rfl (by simp)
        (by simp +contextual) rfl
    · exact .plain fr.bo.currentTimingOffset fr.bo.stopSyncTimeoutReceived [] [] hstay hdata' hmeta'
        rfl (by simp) (by simp) (by simp [Frame.send])
  · simp only [haction, performAction]
    exact .exit hstay hexit (by rw [hexit]) rfl

structure Taken (bo : Boxoffice) (inp : Input) (fr : Frame) (t : Transition) : Prop where
  accepted : checkEvent bo.state (getEventByStatusCode inp.status) inp.status = true
  staged : stages (Frame.start bo inp.status inp.sstream inp.env) = .next fr
  steady : Steady bo fr
  settled : Settled bo inp fr
  row : t ∈ transitions bo.state
  event : t.event = getEventByStatusCode t.status
  status : t.status = fr.status

inductive Processed (bo : Boxoffice) (inp : Input) : Outcome → Prop where
  | ignored : checkEvent bo.state (getEventByStatusCode inp.status) inp.status = false →
      Processed bo inp (.returned 0 bo [])
  | moved {fr : Frame} {t : Transition} {bo' : Boxoffice} {out : List Effect} :
      Taken bo inp fr t → Moved fr t bo' out → Processed bo inp (.returned 0 bo' out)
  | stopped {code : ℕ} {bo' : Boxoffice} {out : List Effect} :
      checkEvent bo.state (getEventByStatusCode inp.status) inp.status = true →
      Stopped bo inp code → Processed bo inp (.returned code bo' out)
  | failed {f : Fault} :
      checkEvent bo.state (getEventByStatusCode inp.status) inp.status = true →
      FaultCause bo inp f → Processed bo inp (.fault f)
  | front {fr : Frame} {t : Transition} : Taken bo inp fr t → FrontMissing fr t →
      Processed bo inp (.fault .frontOfEmptyDeque)

theorem processEvent_processed (bo : Boxoffice) (inp : Input) :
    Processed bo inp (processEvent bo inp.status inp.sstream inp.env) := by
  unfold processEvent
  simp only
  split_ifs with hacc
  · replace hacc : checkEvent bo.state (getEventByStatusCode inp.status) inp.status = true := hacc
    have hstages := stages_post hacc
    cases hstaged : stages (Frame.start bo inp.status inp.sstream inp.env) with
    | ret code fr =>
      rw [hstaged] at hstages
      exact .stopped hacc hstages
    | fault f =>
      rw [hstaged] at hstages
      exact .failed hacc hstages
    | next fr =>
      rw [hstaged] at hstages
      obtain ⟨hs, hset⟩ := hstages
      obtain ⟨t, ht⟩ := checkEvent_iff.1 hs.accepted
      rw [← hs.state] at ht
      obtain ⟨hmem, hev, hst⟩ := mem_of_transition ht
      have htaken : Taken bo inp fr t :=
        ⟨hacc, hstaged, hs, hset, hs.state ▸ hmem, by rw [hev, hs.event, hst], hst⟩
      have hmoved := fsmContinue_post ht
      rw [Exec.andThen]
      cases hx : fsmContinue fr with
      | next fr' =>
        rw [hx] at hmoved
        exact .moved htaken hmoved
      | ret code fr' =>
        rw [hx] at hmoved
        exact hmoved.elim
      | fault f =>
        rw [hx] at hmoved
        obtain ⟨rfl, hmissing⟩ := hmoved
        exact .front htaken hmissing
  · exact .ignored (Bool.eq_false_iff.2 hacc)

def Boxoffice.next (bo : Boxoffice) (inp : Input) : Option Boxoffice :=
  match processEvent bo inp.status inp.sstream inp.env with
  | .returned 0 bo' _ => some bo'
  | _ => none

def Boxoffice.effects (bo : Boxoffice) (inp : Input) : List Effect :=
  match processEvent bo inp.status inp.sstream inp.env with
  | .returned _ _ out => out
  | .fault _ => []

theorem next_of_returned {bo bo' : Boxoffice} {inp : Input} {out : List Effect}
    (h : processEvent bo inp.status inp.sstream inp.env = .returned 0 bo' out) :
    bo.next inp = some bo' := by
  simp only [Boxoffice.next, h]

theorem returned_of_next {bo bo' : Boxoffice} {inp : Input} (h : bo.next inp = some bo') :
    processEvent bo inp.status inp.sstream inp.env = .returned 0 bo' (bo.effects inp) := by
  unfold Boxoffice.next at h
  unfold Boxoffice.effects
  split at h
  · next hreturned =>
    rw [hreturned, Option.some.inj h]
  · simp at h

section Taken

variable {bo bo' : Boxoffice} {inp : Input} {fr : Frame} {t : Transition} (ht : Taken bo inp fr t)
include ht

theorem Taken.transition_eq : transition fr.bo.state fr.event fr.status = some t := by
  rw [ht.steady.state, ht.steady.event, ← ht.status, ← ht.event]
  exact transition_of_mem _ t ht.row

theorem Taken.continues (h : bo.next inp = some bo') :
    ∃ fr', fsmContinue fr = .next fr' ∧ fr'.bo = bo' ∧ fr'.out = bo.effects inp := by
  have hcall : processEvent bo inp.status inp.sstream inp.env = outcome (fsmContinue fr) := by
    rw [processEvent, if_pos (by exact ht.accepted), ht.staged]
    rfl
  have hpost := fsmContinue_post ht.transition_eq
  have hreturned := returned_of_next h
  rw [hcall] at hreturned
  cases hx : fsmContinue fr with
  | next fr' =>
    rw [hx] at hreturned
    injection hreturned with _ hbo hout
    exact ⟨fr', rfl, hbo, hout⟩
  | ret code fr' =>
    rw [hx] at hpost
    exact hpost.elim
  | fault f =>
    rw [hx] at hreturned
    simp [outcome] at hreturned

end Taken

theorem next_cases {bo bo' : Boxoffice} {inp : Input}
    (h : bo.next inp = some bo') :
    bo' = bo ∨ ∃ fr t out, Taken bo inp fr t ∧ Moved fr t bo' out := by
  unfold Boxoffice.next at h
  have hp := processEvent_processed bo inp
  cases hx : processEvent bo inp.status inp.sstream inp.env with
  | fault f => simp [hx] at h
  | returned code bo₁ out =>
    rw [hx] at h hp
    cases code with
    | succ n => simp at h
    | zero =>
      obtain rfl := Option.some.inj h
      cases hp with
      | ignored => exact .inl rfl
      | moved htaken hmoved => exact .inr ⟨_, _, _, htaken, hmoved⟩
      | stopped _ hstop => cases hstop

section Kept

variable {fr : Frame} {t : Transition} {bo' : Boxoffice} {out : List Effect}

structure KeptByMove (fr : Frame) (t : Transition) (bo' : Boxoffice) : Prop where
  state : bo'.state = t.newState
  boxes : bo'.boxes = fr.bo.boxes
  subscribers : bo'.subscribers = fr.bo.subscribers
  currentBox : bo'.currentBox = fr.bo.currentBox
  written : bo'.fileMetadataWritten = fr.bo.fileMetadataWritten
  notified : bo'.notifiedDispatch = fr.bo.notifiedDispatch
  data : bo'.fileListData = if t.newState ≠ fr.bo.state ∧ entersData t.newState = true
    then fr.bo.fileListData.tail else fr.bo.fileListData
  metadata : bo'.fileListMetadata = if t.newState ≠ fr.bo.state ∧ entersMetadata t.newState = true
    then fr.bo.fileListMetadata.tail else fr.bo.fileListMetadata

theorem entersData_entersMetadata {state : State} (h : entersData state = true) :
    entersMetadata state = false := by
  revert h
  cases state <;> decide

theorem Moved.kept (h : Moved fr t bo' out) : KeptByMove fr t bo' := by
  cases h with
  | stay hstay hbo =>
    subst hbo
    exact ⟨hstay.symm, rfl, rfl, rfl, rfl, rfl, by simp [hstay], by simp [hstay]⟩
  | exit hmove hexit hbo =>
    subst hbo
    exact ⟨hexit.symm, rfl, rfl, rfl, rfl, rfl, by simp [hexit, entersData],
      by simp [hexit, entersMetadata]⟩
  | data p ps hmove henters hlist hbo =>
    subst hbo
    exact ⟨rfl, rfl, rfl, rfl, rfl, rfl, (if_pos ⟨hmove, henters⟩).symm,
      (if_neg (by simp [entersData_entersMetadata henters])).symm⟩
  | metadata p ps hmove henters hlist hbo =>
    subst hbo
    have hnot : entersData t.newState = false := by
      cases h : entersData t.newState with
      | false => rfl
      | true => simp [entersData_entersMetadata h] at henters
    exact ⟨rfl, rfl, rfl, rfl, rfl, rfl, (if_neg (by simp [hnot])).symm,
      (if_pos ⟨hmove, henters⟩).symm⟩
  | plain timing stop messages payload hmove hdata hmeta hbo =>
    subst hbo
    exact ⟨rfl, rfl, rfl, rfl, rfl, rfl, by simp [hdata], by simp [hmeta]⟩

end Kept

def quietStatuses : List Status :=
  (conformingStatuses.filter fun s => !isAck s && !isLocal s).flatMap rewordings

theorem mem_quietStatuses {inp : Input} {s : Status} (hack : isAck inp.status = false)
    (hlocal : isLocal inp.status = false) (hs : s ∈ rewordings inp.status) : s ∈ quietStatuses := by
  refine List.mem_flatMap.2 ⟨inp.status, ?_, hs⟩
  simp [conforming_iff.1 inp.conforming, hack, hlocal]

theorem Taken.inputRow {bo : Boxoffice} {inp : Input} {fr : Frame} {t : Transition}
    (h : Taken bo inp fr t) :
    ∃ r ∈ transitions bo.state, r.event = getEventByStatusCode r.status ∧ r.status = inp.status := by
  obtain ⟨r, hr⟩ := checkEvent_iff.1 h.accepted
  obtain ⟨hmem, hev, hst⟩ := mem_of_transition hr
  exact ⟨r, hmem, by rw [hev, hst], hst⟩

theorem newState_of_ack :
    ∀ state, ∀ t ∈ transitions state, isAck t.status = true → t.newState = state := by
  decide +kernel

def roundEnds : List Status := [.s122, .s126, .s162, .s166, .s142, .s172, .s177, .s178]

theorem quietStatuses_plain : ∀ s ∈ quietStatuses, isLocal s = false ∧ s ∉ roundEnds := by
  decide +kernel

theorem completions_plain : ∀ s, ∀ r ∈ completions s, isLocal r = false := by
  decide +kernel

theorem ack_plain : ∀ s, isAck s = true → isLocal s = false ∧ s ∉ roundEnds := by
  decide +kernel

section Taken

variable {bo : Boxoffice} {inp : Input} {fr : Frame} {t : Transition} (h : Taken bo inp fr t)
include h

theorem Taken.queues :
    (isLocal t.status = false ∧ fr.bo.fileListMetadata = bo.fileListMetadata ∧
      fr.bo.fileListData = bo.fileListData) ∨
    (isLocal t.status = true ∧ inp.status = t.status ∧ bo.state ≠ .announcingNewFile ∧
      ∃ f, LocalFile bo inp f ∧ fr.bo.currentBox = inp.box ∧
        fr.bo.fileListMetadata =
          bo.fileListMetadata ++ (if t.status = .s300 then [] else [bo.filePtr f]) ∧
        fr.bo.fileListData =
          bo.fileListData ++ if t.status = .s300 then [bo.filePtr f] else []) := by
  have hstatus := h.status
  cases h.settled with
  | silent hack hlocal hst _ hq =>
    exact .inl ⟨(quietStatuses_plain _ (hstatus ▸ mem_quietStatuses hack hlocal hst)).1, hq.1,
      hq.2.1⟩
  | counted hack _ hst _ hq =>
    exact .inl ⟨(ack_plain _ (by rwa [hstatus, hst])).1, hq.1, hq.2.1⟩
  | completed hcomp hst _ hq =>
    refine .inl ⟨completions_plain _ _ (?_ : t.status ∈ completions inp.status), hq.1, hq.2.1⟩
    rw [hstatus, hst]
    exact bo.completion_mem hcomp.1
  | queued f hlocal hst hstate hfile _ _ hmeta hdata hbox =>
    have hsame : inp.status = t.status := (hstatus.trans hst).symm
    exact .inr ⟨hsame ▸ hlocal, hsame, hstate, f, hfile, hbox, hsame ▸ hmeta, hsame ▸ hdata⟩
  | twice hlocal hst _ _ _ hmeta hdata =>
    exact .inl ⟨by rw [hstatus, hst]; decide, hmeta, hdata⟩

theorem Taken.completes (hend : t.status ∈ roundEnds) :
    bo.Completes inp ∧ t.status = bo.completion inp.status ∧ Notified bo fr ∧
      fr.bo.currentBox = bo.currentBox := by
  have hstatus := h.status
  cases h.settled with
  | silent hack hlocal hst =>
    exact absurd hend (quietStatuses_plain _ (hstatus ▸ mem_quietStatuses hack hlocal hst)).2
  | counted hack _ hst => exact absurd hend (ack_plain _ (by rwa [hstatus, hst])).2
  | completed hcomp hst _ _ hbox hout => exact ⟨hcomp, hstatus.trans hst, hout, hbox⟩
  | queued f hlocal hst =>
    have hno : ∀ s, isLocal s = true → s ∉ roundEnds := by decide +kernel
    exact absurd hend (hno _ (by rwa [hstatus, hst]))
  | twice _ hst =>
    rw [hstatus, hst] at hend
    exact absurd hend (by decide)

end Taken

def unusedStatuses : List Status := [.s112, .s126, .s136, .s146, .s304, .s324]

def usedTransitions (state : State) : List Transition :=
  (transitions state).filter fun t =>
    t.event = getEventByStatusCode t.status ∧ t.status ∉ unusedStatuses

theorem unusedStatuses_spec : ∀ s ∈ unusedStatuses,
    s ∉ quietStatuses ∧ isAck s = false ∧ isLocal s = false ∧ s ≠ .s301 := by
  decide +kernel

theorem completions_used : ∀ s, ∀ r ∈ completions s, r ∉ unusedStatuses := by
  decide +kernel

theorem Taken.mem_usedTransitions {bo : Boxoffice} {inp : Input} {fr : Frame} {t : Transition}
    (h : Taken bo inp fr t) : t ∈ usedTransitions bo.state := by
  have hstatus := h.status
  suffices hs : t.status ∉ unusedStatuses by
    simp [usedTransitions, h.row, h.event.symm, hs]
  intro hunused
  obtain ⟨hquiet, hack', hlocal', htwice⟩ := unusedStatuses_spec _ hunused
  cases h.settled with
  | silent hack hlocal hst => exact hquiet (hstatus ▸ mem_quietStatuses hack hlocal hst)
  | counted hack _ hst => simp [hstatus, hst, hack] at hack'
  | completed hcomp hst =>
    rw [hstatus, hst] at hunused
    exact completions_used _ _ (bo.completion_mem hcomp.1) hunused
  | queued f hlocal hst => simp [hstatus, hst, hlocal] at hlocal'
  | twice _ hst => exact htwice (hstatus.trans hst)

theorem metadataRoundStatus_cases (bo : Boxoffice) :
    (metadataRoundStatus bo = .s174 ∧ bo.fileListMetadata ≠ []) ∨
    (metadataRoundStatus bo = .s178 ∧ bo.fileListMetadata = [] ∧ 2 ≤ bo.fileListData.length) ∨
    (metadataRoundStatus bo = .s177 ∧ bo.fileListMetadata = [] ∧ bo.fileListData.length = 1) ∨
    (metadataRoundStatus bo = .s172 ∧ bo.fileListMetadata = [] ∧ bo.fileListData = []) := by
  unfold metadataRoundStatus
  split_ifs with hmeta hmany hone
  · exact .inl ⟨rfl, List.ne_nil_of_length_pos hmeta⟩
  all_goals have hnil : bo.fileListMetadata = [] := List.eq_nil_of_length_eq_zero (by omega)
  · exact .inr (.inl ⟨rfl, hnil, hmany⟩)
  · exact .inr (.inr (.inl ⟨rfl, hnil, by omega⟩))
  · exact .inr (.inr (.inr ⟨rfl, hnil, List.eq_nil_of_length_eq_zero (by omega)⟩))

section MetadataRoundStatus

variable {bo : Boxoffice}

theorem metadataRoundStatus_eq_s178 :
    metadataRoundStatus bo = .s178 ↔ bo.fileListMetadata = [] ∧ 2 ≤ bo.fileListData.length := by
  rcases metadataRoundStatus_cases bo with ⟨h, hne⟩ | ⟨h, hnil, hlen⟩ | ⟨h, hnil, hlen⟩ |
    ⟨h, hnil, hnil'⟩ <;> simp [*]

theorem metadataRoundStatus_eq_s177 :
    metadataRoundStatus bo = .s177 ↔ bo.fileListMetadata = [] ∧ bo.fileListData.length = 1 := by
  rcases metadataRoundStatus_cases bo with ⟨h, hne⟩ | ⟨h, hnil, hlen⟩ | ⟨h, hnil, hlen⟩ |
    ⟨h, hnil, hnil'⟩ <;> simp [*]
  omega

theorem metadataRoundStatus_eq_s172 :
    metadataRoundStatus bo = .s172 ↔ bo.fileListMetadata = [] ∧ bo.fileListData = [] := by
  rcases metadataRoundStatus_cases bo with ⟨h, hne⟩ | ⟨h, hnil, hlen⟩ | ⟨h, hnil, hlen⟩ |
    ⟨h, hnil, hnil'⟩ <;> simp [*] <;> exact List.ne_nil_of_length_pos (by omega)

end MetadataRoundStatus

theorem Boxoffice.completion_eq_metadata (bo : Boxoffice) {status : Status}
    (hack : isAck status = true)
    (h : bo.completion status = .s172 ∨ bo.completion status = .s177 ∨
      bo.completion status = .s178) :
    status = .s141 ∧ bo.completion status = metadataRoundStatus bo := by
  cases status <;> simp [isAck] at hack <;> simp [Boxoffice.completion] at h ⊢

theorem Taken.metadataRound {bo : Boxoffice} {inp : Input} {fr : Frame} {t : Transition}
    (h : Taken bo inp fr t) (hst : t.status = .s172 ∨ t.status = .s177 ∨ t.status = .s178) :
    inp.status = .s141 ∧ bo.Completes inp ∧ t.status = metadataRoundStatus bo := by
  have hend : t.status ∈ roundEnds := by
    rcases hst with h | h | h <;> simp [h, roundEnds]
  obtain ⟨hcomp, hstatus, -⟩ := h.completes hend
  obtain ⟨h141, hround⟩ := bo.completion_eq_metadata hcomp.1 (hstatus ▸ hst)
  exact ⟨h141, hcomp, hstatus.trans hround⟩

theorem Taken.of_completes {bo : Boxoffice} {inp : Input} {fr : Frame} {t : Transition}
    (h : Taken bo inp fr t) (hcomp : bo.Completes inp) : t.status = bo.completion inp.status := by
  have hnotlocal : isLocal inp.status = false := (ack_plain _ hcomp.1).1
  cases h.settled with
  | silent hack => simp [hcomp.1] at hack
  | counted _ hnot => exact absurd hcomp hnot
  | completed _ hst => exact h.status.trans hst
  | queued f hlocal => simp [hnotlocal] at hlocal
  | twice hlocal => simp [hnotlocal] at hlocal

end Flocksy
