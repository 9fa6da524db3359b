import Flocksy.HeartbeatTransport
import Flocksy.LocalQueues

/-!
# What a peer can make the boxoffice do

The messages of peers, of the dispatcher and of the boxes come in by one socket, and their
statuses share one number space. The dispatcher looks at the type of a message before it
believes the status; the router does not. A peer that sends the number of a round that is
over, of a timer or of a local change is taken at its word, wherever the state has a row for
that number which does something.
-/

namespace Flocksy

open ByteStream Fsm Runs

def isPeerEvent (event : Event) : Bool :=
  event = .receivedHeartbeat ∨ event = .receivedFileData ∨ event = .receivedFakeFileData

/-- The call handles the message as one of a peer: a round is over only when the message is an
acknowledgement and no other one is missing, a reception ends only with its last package or
with the file that was announced, no timer elapses, and no file is queued. -/
structure Boxoffice.ActsAsPeer (bo : Boxoffice) (inp : Input) (o : Outcome) : Prop where
  event : isPeerEvent (getEventByStatusCode inp.status) = true
  round : ∀ fr t, Taken bo inp fr t → t.status ∈ roundEnds → bo.Completes inp
  timer : ∀ fr t, Taken bo inp fr t → t.event ≠ .timingOffsetElapsed
  reception : ∀ fr t, Taken bo inp fr t → (t.status = .s113 → inp.status = .s200) ∧
    (t.status = .s173 → inp.status = .s170 ∨ inp.status = .s174)
  files : ∀ bo' out, o = .returned 0 bo' out → bo'.fileListMetadata <:+ bo.fileListMetadata ∧
    bo'.fileListData <:+ bo.fileListData

inductive Boxoffice.PeerOnly (bo : Boxoffice) (status : Status) (s : Stream) (env : Env) :
    Outcome → Prop where
  | ignored : bo.PeerOnly status s env (.returned 0 bo [])
  | peer (inp : Input) {o : Outcome} : inp.status = status → inp.sstream = s → inp.env = env →
      bo.ActsAsPeer inp o → bo.PeerOnly status s env o

theorem conforming_of_peer : ∀ status, isPeerEvent (getEventByStatusCode status) = true →
    status ∈ conformingStatuses := by
  decide +kernel

theorem peer_statuses : ∀ s, isPeerEvent (getEventByStatusCode s) = true →
    isLocal s = false ∧ ∀ r ∈ s :: (rewordings s ++ completions s), isLocal r = false ∧
      getEventByStatusCode r ≠ .timingOffsetElapsed ∧ (r = .s113 → s = .s200) ∧
      (r = .s173 → s = .s170 ∨ s = .s174) := by
  decide +kernel

theorem Taken.status_mem {bo : Boxoffice} {inp : Input} {fr : Frame} {t : Transition}
    (h : Taken bo inp fr t) (hlocal : isLocal inp.status = false) :
    t.status ∈ inp.status :: (rewordings inp.status ++ completions inp.status) := by
  rw [h.status]
  cases h.settled with
  | silent _ _ hst => exact List.mem_cons_of_mem _ (List.mem_append_left _ hst)
  | counted _ _ hst => rw [hst]; exact List.mem_cons_self
  | completed hcomp hst =>
    rw [hst]
    exact List.mem_cons_of_mem _ (List.mem_append_right _ (bo.completion_mem hcomp.1))
  | queued f hno => simp [hlocal] at hno
  | twice hno => simp [hlocal] at hno

theorem actsAsPeer {bo : Boxoffice} {inp : Input}
    (hpeer : isPeerEvent (getEventByStatusCode inp.status) = true) :
    bo.ActsAsPeer inp (processEvent bo inp.status inp.sstream inp.env) := by
  obtain ⟨hlocal, hstatuses⟩ := peer_statuses _ hpeer
  refine ⟨hpeer, fun fr t ht hend => (ht.completes hend).1, fun fr t ht => ?_, fun fr t ht => ?_,
    fun bo' out ho => ?_⟩
  · rw [ht.event]
    exact (hstatuses _ (ht.status_mem hlocal)).2.1
  · exact (hstatuses _ (ht.status_mem hlocal)).2.2
  · have hp := processEvent_processed bo inp
    rw [ho] at hp
    cases hp with
    | ignored => exact ⟨List.suffix_rfl, List.suffix_rfl⟩
    | stopped _ hstop => cases hstop
    | @moved fr t _ _ ht hm =>
      have hkept := hm.kept
      have hother := (hstatuses _ (ht.status_mem hlocal)).1
      rcases ht.queues with ⟨-, hmeta, hdata⟩ | ⟨hqueued, -⟩
      · rw [hkept.metadata, hkept.data, hmeta, hdata]
        constructor <;> split_ifs <;> first | exact List.tail_suffix _ | exact List.suffix_rfl
      · simp [hother] at hqueued

def idles (state : State) (status : Status) : Bool :=
  status = .s112 ∨ status = .s301 ∧ state = .announcingNewFile ∨ status = .s500 ∧ state = .exit

theorem internal_rows : ∀ state, ∀ t ∈ transitions state, t.event = getEventByStatusCode t.status →
    isPeerEvent t.event = false → isLocalEvent t.event = false →
      (t.newState = state ↔ idles state t.status = true) := by
  decide +kernel

theorem idles_plain : ∀ status state, idles state status = true →
    isLocalEvent (getEventByStatusCode status) = false ∧ notifies status = false := by
  decide +kernel

theorem Moved.nextAddr {fr : Frame} {t : Transition} {bo' : Boxoffice} {out : List Effect}
    (hm : Moved fr t bo' out) : bo'.nextAddr = fr.bo.nextAddr := by
  cases hm with
  | stay _ hbo => rw [hbo]
  | exit _ _ hbo => rw [hbo]
  | data _ _ _ _ _ hbo => rw [hbo]; rfl
  | metadata _ _ _ _ _ hbo => rw [hbo]; rfl
  | plain _ _ _ _ _ _ _ hbo => rw [hbo]

structure Allocates (bo : Boxoffice) (fr : Frame) : Prop where
  addr : fr.bo.nextAddr ≠ bo.nextAddr
  accepted : checkEvent fr.bo.state fr.event fr.status = true
  event : fr.event ≠ .receivedFileData

theorem queueFile_allocates {bo : Boxoffice} {fr : Frame} (f : File)
    (haddr : fr.bo.nextAddr = bo.nextAddr)
    (hacc : checkEvent fr.bo.state fr.event fr.status = true)
    (hevent : fr.event ≠ .receivedFileData) :
    Allocates bo { queueFile fr f with bo := (queueFile fr f).bo.clearReplied } := by
  have hnew : fr.bo.nextAddr + 1 ≠ bo.nextAddr := by
    rw [haddr]
    exact Nat.succ_ne_self _
  by_cases hstate : fr.bo.state = .announcingNewFile
  · rw [queueFile_twice hstate]
    have htwice : checkEvent .announcingNewFile .newLocalFileReportedTwice .s301 = true := by decide
    have hother : Event.newLocalFileReportedTwice ≠ .receivedFileData := by decide
    refine ⟨hnew, ?_, hother⟩
    simp only [Frame.become, Boxoffice.allocate, Boxoffice.clearReplied, hstate]
    exact htwice
  · rw [queueFile_push hstate]
    exact ⟨hnew, hacc, hevent⟩

section Internal

variable {bo : Boxoffice} {status : Status} {s : Stream} {env : Env}
  (hother : isPeerEvent (getEventByStatusCode status) = false)
include hother

theorem stages_internal : stages (Frame.start bo status s env) =
    ((notifyDispatcher (Frame.start bo status s env)).andThen localFileEvent).andThen
      receivedFileData := by
  have hevent : (Frame.start bo status s env).event ≠ .receivedHeartbeat := by
    intro h
    have hstart : getEventByStatusCode status = .receivedHeartbeat := h
    rw [hstart] at hother
    exact absurd hother (by decide)
  rw [stages, receivedHeartbeat, if_neg hevent]
  rfl

/-- A status that is neither that of a peer nor that of a local change has no effect before the
transition, or a message to the dispatcher. -/
theorem stages_remote (bo : Boxoffice) (s : Stream) (env : Env)
    (hlocal : isLocalEvent (getEventByStatusCode status) = false) :
    (notifies status = true ∧ ∃ f, stages (Frame.start bo status s env) = .fault f) ∨
      ∃ fr, stages (Frame.start bo status s env) = .next fr ∧ fr.bo.state = bo.state ∧
        fr.event = getEventByStatusCode status ∧ fr.status = status ∧
        (notifies status = false → fr = Frame.start bo status s env) := by
  have hremote : isRemote (getEventByStatusCode status) = true := by
    simp only [isRemote, hlocal, Bool.not_false, Bool.true_and, decide_eq_true_eq]
    intro h
    rw [h] at hother
    exact absurd hother (by decide)
  have hlast (fr : Frame) (hevent : fr.event = getEventByStatusCode status) :
      ((Exec.next fr : BoExec).andThen localFileEvent).andThen receivedFileData = .next fr := by
    rw [← hevent] at hremote
    rw [Exec.andThen, localFileEvent_of_remote hremote, Exec.andThen,
      receivedFileData_of_remote hremote]
  rw [stages_internal hother]
  by_cases hcond : (getEventByStatusCode status = .allNodesReplied ∧ status = .s122) ∨
      (getEventByStatusCode status = .allNodesHaveAllMetadataChangesWithMore ∧ status = .s177)
  · have hnotifies : notifies status = true := by
      rcases hcond with ⟨-, h⟩ | ⟨-, h⟩ <;> simp [notifies, h]
    cases hdir : bo.baseDir bo.currentBox with
    | none =>
      have hfault : notifyDispatcher (Frame.start bo status s env) = .fault .nullBox :=
        notifyDispatcher_unknownBox hcond hdir
      rw [hfault]
      exact .inl ⟨hnotifies, _, rfl⟩
    | some dir =>
      cases hdata : bo.fileListData with
      | nil =>
        have hfault : notifyDispatcher (Frame.start bo status s env) = .fault .frontOfEmptyDeque :=
          notifyDispatcher_emptyDeque hcond hdir hdata
        rw [hfault]
        exact .inl ⟨hnotifies, _, rfl⟩
      | cons p ps =>
        have hsends : ∃ s' h timing, notifyDispatcher (Frame.start bo status s env) = .next _ :=
          notifyDispatcher_next hcond hdir hdata
        obtain ⟨s', h, timing, hnext⟩ := hsends
        rw [hnext]
        exact .inr ⟨_, hlast _ rfl, rfl, rfl, rfl, fun hno => by simp [hnotifies] at hno⟩
  · have hskip : notifyDispatcher (Frame.start bo status s env) =
        .next (Frame.start bo status s env) := if_neg hcond
    rw [hskip]
    exact .inr ⟨_, hlast _ rfl, rfl, rfl, rfl, fun _ => rfl⟩

variable (hacc : checkEvent bo.state (getEventByStatusCode status) status = true)
include hacc

omit hother in
theorem processEvent_of_accepted : processEvent bo status s env =
    outcome ((stages (Frame.start bo status s env)).andThen fsmContinue) := by
  rw [processEvent, if_pos (by exact hacc)]

omit hother in
theorem not_ignored {fr : Frame} {t : Transition}
    (hstages : stages (Frame.start bo status s env) = .next fr)
    (ht : transition fr.bo.state fr.event fr.status = some t)
    (hchanged : t.newState ≠ bo.state ∨ fr.bo.nextAddr ≠ bo.nextAddr) :
    processEvent bo status s env ≠ .returned 0 bo [] := by
  have hmoved := fsmContinue_post ht
  rw [processEvent_of_accepted hacc, hstages, Exec.andThen]
  cases hx : fsmContinue fr with
  | next fr' =>
    rw [hx] at hmoved
    intro h
    have hbo : fr'.bo = bo := by
      injection h
    rcases hchanged with hleft | haddr
    · exact hleft (hmoved.kept.state.symm.trans (congrArg Boxoffice.state hbo))
    · exact haddr (hmoved.nextAddr.symm.trans (congrArg Boxoffice.nextAddr hbo))
  | ret code fr' =>
    rw [hx] at hmoved
    exact hmoved.elim
  | fault f => simp [outcome]

theorem remote_ignored_iff (hlocal : isLocalEvent (getEventByStatusCode status) = false) :
    processEvent bo status s env = .returned 0 bo [] ↔ idles bo.state status = true := by
  obtain ⟨t, ht⟩ := checkEvent_iff.1 hacc
  obtain ⟨hrow, hev, hst⟩ := mem_of_transition ht
  have hidles := internal_rows _ t hrow (by rw [hev, hst]) (by rwa [hev]) (by rwa [hev])
  rw [hst] at hidles
  rcases stages_remote hother bo s env hlocal with
    ⟨hnotifies, f, hfault⟩ | ⟨fr, hnext, hstate, hevent, hstatus, hsame⟩
  · rw [processEvent_of_accepted hacc, hfault]
    refine ⟨fun h => by simp [Exec.andThen, outcome] at h, fun h => ?_⟩
    simp [(idles_plain _ _ h).2] at hnotifies
  · rw [← hstate, ← hevent, ← hstatus] at ht
    by_cases hstays : t.newState = bo.state
    · have hidle := hidles.1 hstays
      refine ⟨fun _ => hidle, fun _ => ?_⟩
      obtain rfl := hsame (idles_plain _ _ hidle).2
      rw [processEvent_of_accepted hacc, hnext, Exec.andThen, fsmContinue, getNewState, ht]
      simp [hstays, Frame.start, outcome]
    · refine ⟨fun h => absurd h (not_ignored hacc hnext ht (.inl hstays)), fun h => ?_⟩
      exact absurd (hidles.2 h) hstays

theorem localFileEvent_allocates (s : Stream) (env : Env)
    (hlocal : isLocalEvent (getEventByStatusCode status) = true) :
    (localFileEvent (Frame.start bo status s env)).Post
      ⟨Allocates bo, fun code _ => code ≠ 0, fun _ => True⟩ := by
  have hevent : getEventByStatusCode status ≠ .receivedFileData := by
    intro h
    rw [h] at hother
    exact absurd hother (by decide)
  have hstart : isLocalEvent (Frame.start bo status s env).event = true := hlocal
  rw [localFileEvent, if_pos hstart]
  simp only
  split_ifs
  · exact Nat.one_ne_zero
  · split
    · trivial
    · split
      · trivial
      · exact queueFile_allocates _ rfl hacc hevent

theorem local_not_ignored (hlocal : isLocalEvent (getEventByStatusCode status) = true) :
    processEvent bo status s env ≠ .returned 0 bo [] := by
  have hskip : notifyDispatcher (Frame.start bo status s env) =
      .next (Frame.start bo status s env) := by
    rw [notifyDispatcher, if_neg]
    rintro (⟨h, -⟩ | ⟨h, -⟩)
    all_goals
      have hstart : getEventByStatusCode status = _ := h
      rw [hstart] at hlocal
      exact absurd hlocal (by decide)
  have hpost := localFileEvent_allocates hother hacc s env hlocal
  cases hx : localFileEvent (Frame.start bo status s env) with
  | next fr =>
    rw [hx] at hpost
    obtain ⟨t, ht⟩ := checkEvent_iff.1 hpost.accepted
    have hstages : stages (Frame.start bo status s env) = .next fr := by
      rw [stages_internal hother, hskip, Exec.andThen, hx, Exec.andThen, receivedFileData,
        if_neg hpost.event]
    exact not_ignored hacc hstages ht (.inr hpost.addr)
  | ret code fr =>
    rw [hx] at hpost
    intro h
    rw [processEvent_of_accepted hacc, stages_internal hother, hskip, Exec.andThen, hx] at h
    injection h with hcode
    exact hpost hcode
  | fault f =>
    intro h
    rw [processEvent_of_accepted hacc, stages_internal hother, hskip, Exec.andThen, hx] at h
    injection h

end Internal

/-- The status is that of a message of a peer, or the state has no row for it that does anything. -/
def Boxoffice.Harmless (bo : Boxoffice) (status : Status) : Prop :=
  isPeerEvent (getEventByStatusCode status) = true ∨
    checkEvent bo.state (getEventByStatusCode status) status = false ∨ idles bo.state status = true

theorem peerOnly_iff {bo : Boxoffice} {status : Status} {s : Stream} {env : Env} :
    bo.PeerOnly status s env (processEvent bo status s env) ↔ bo.Harmless status := by
  by_cases hpeer : isPeerEvent (getEventByStatusCode status) = true
  · have hc : Conforming status := conforming_iff.2 (conforming_of_peer _ hpeer)
    have hacts : bo.ActsAsPeer ⟨status, hc, s, env⟩ (processEvent bo status s env) :=
      actsAsPeer hpeer
    exact ⟨fun _ => .inl hpeer, fun _ => .peer _ rfl rfl rfl hacts⟩
  have hother := Bool.eq_false_iff.2 hpeer
  by_cases hacc : checkEvent bo.state (getEventByStatusCode status) status = true
  · have hiff : processEvent bo status s env = .returned 0 bo [] ↔ idles bo.state status = true := by
      cases hlocal : isLocalEvent (getEventByStatusCode status) with
      | false => exact remote_ignored_iff hother hacc hlocal
      | true =>
        refine ⟨fun h => absurd h (local_not_ignored hother hacc hlocal), fun h => ?_⟩
        simp [(idles_plain _ _ h).1] at hlocal
    constructor
    · intro h
      refine .inr (.inr (hiff.1 ?_))
      generalize processEvent bo status s env = o at h
      cases h with
      | ignored => rfl
      | peer inp hst _ _ hacts => exact absurd (hst ▸ hacts.event) hpeer
    · rintro (h | h | h)
      · exact absurd h hpeer
      · simp [hacc] at h
      · rw [hiff.2 h]
        exact .ignored
  · have hrejected := Bool.eq_false_iff.2 hacc
    refine ⟨fun _ => .inr (.inl hrejected), fun _ => ?_⟩
    rw [processEvent, if_neg (by exact hacc)]
    exact .ignored

/-- The router handles a message of a peer as one of a peer if and only if its status is
harmless in the state. -/
theorem runRouterStep_peerOnly_iff (bo : Boxoffice) (old : ℤ × ℤ) {text : Bytes} (env : Env)
    (hsub : (readSignal old text).1 = sigtypeSub) :
    (∃ o, runRouterStep bo old text env = some o ∧
      bo.PeerOnly (statusOfInt (readSignal old text).2.1) (readSignal old text).2.2 env o) ↔
      bo.Harmless (statusOfInt (readSignal old text).2.1) := by
  have hnot : ¬ ((readSignal old text).1 = sigtypeLife ∧
      (readSignal old text).2.1 = siglifeInterrupt) := by
    rintro ⟨h, -⟩
    rw [hsub] at h
    exact absurd h (by decide)
  have hstep : runRouterStep bo old text env = some (processEvent bo
      (statusOfInt (readSignal old text).2.1) (readSignal old text).2.2 env) := if_neg hnot
  rw [hstep, ← peerOnly_iff]
  constructor
  · rintro ⟨o, ho, hpeer⟩
    rwa [Option.some.inj ho]
  · exact fun h => ⟨_, rfl, h⟩

def acknowledgement : Bytes := subscriberMessage 140 (.fill 65) (space :: (timingBytes 0 ++ []))
def roundOver : Bytes := subscriberMessage 122 (.fill 65) (space :: (timingBytes 0 ++ []))

theorem runRouterStep_peerOnly_iff_acknowledged :
    let bo := after Boxoffice.next (Sample.start [.fill 65]) [Sample.modified 'f']
    ∃ o, runRouterStep bo (0, 0) acknowledgement Sample.env = some o ∧
      bo.PeerOnly (statusOfInt (readSignal (0, 0) acknowledgement).2.1)
        (readSignal (0, 0) acknowledgement).2.2 Sample.env o := by
  have hfacts : (readSignal (0, 0) acknowledgement).1 = sigtypeSub ∧
      isPeerEvent (getEventByStatusCode (statusOfInt (readSignal (0, 0) acknowledgement).2.1)) =
        true := by
    decide +kernel
  exact (runRouterStep_peerOnly_iff _ (0, 0) Sample.env hfacts.1).2 (.inl hfacts.2)

def Outcome.state : Outcome → Option State
  | .returned _ bo _ => some bo.state
  | .fault _ => none

/-- A file is announced, and a peer's 122 sends it without any acknowledgement. -/
theorem runRouterStep_peerOnly_fails :
    ¬ ∀ (start bo : Boxoffice) (tr : List (Boxoffice × Input)) (uid : Hash) (sub sub' old : ℤ × ℤ)
      (wire text : Bytes) (env : Env), start.state = .ready → Run Boxoffice.next start tr bo →
      subscriberTurn uid sub wire = some (sub', text) → (readSignal old text).1 = sigtypeSub →
      ∃ o, runRouterStep bo old text env = some o ∧
        bo.PeerOnly (statusOfInt (readSignal old text).2.1) (readSignal old text).2.2 env o := by
  intro h
  obtain ⟨o, ho, hpeer⟩ := h (Sample.start [.fill 65]) (after Boxoffice.next _ [Sample.modified 'f'])
    _ (.fill 65) (0, 0) _ (0, 0) (wireMessage 122 0 []) roundOver Sample.env rfl
    (run_after (by decide +kernel))
    (subscriberTurn_wireMessage (0, 0) (.fill 65) (by decide) (by decide) 0 []) (by decide +kernel)
  have hsignal : statusOfInt (readSignal (0, 0) roundOver).2.1 = .s122 := by decide +kernel
  have hmoved : (runRouterStep (after Boxoffice.next (Sample.start [.fill 65])
      [Sample.modified 'f']) (0, 0) roundOver Sample.env).bind Outcome.state =
        some .sendingNewFileMetadata := by
    decide +kernel
  rw [ho] at hmoved
  rw [hsignal] at hpeer
  cases hpeer with
  | ignored =>
    have hstate : (after Boxoffice.next (Sample.start [.fill 65]) [Sample.modified 'f']).state =
        .announcingNewFile := by decide +kernel
    simp [Outcome.state, hstate] at hmoved
  | peer inp hst _ _ hacts =>
    have hevent := hacts.event
    rw [hst] at hevent
    exact absurd hevent (by decide)

end Flocksy
