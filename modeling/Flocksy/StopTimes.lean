import Flocksy.StageEffects

/-!
# The end of a session

A node that has entered `syncing_stop` goes back to `ready` when its dispatcher says so, and
the dispatcher has to be told a time for that. The coordinator chooses the time when it
enters the state, and a follower takes it from the heartbeat that makes it enter.
`stop_sync_timeout_received_` keeps both from telling it twice. The flag is cleared only by a
100 that is heard in `ready`, so a session that begins before ends without a time.
-/

namespace Flocksy

open ByteStream Fsm Runs

def isStopTime : Effect → Bool
  | .dispatcher .s155 _ => true
  | _ => false

def stopTimes (out : List Effect) : ℕ := out.countP isStopTime

theorem stopTimes_append (out out' : List Effect) :
    stopTimes (out ++ out') = stopTimes out + stopTimes out' := List.countP_append

def Boxoffice.stopFlag (bo : Boxoffice) (status : Status) : Bool :=
  if status = .s100 then false else if status = .s155 then true else bo.stopSyncTimeoutReceived

def Boxoffice.passesStop (bo : Boxoffice) (status : Status) : ℕ :=
  if status = .s155 ∧ bo.stopSyncTimeoutReceived = false then 1 else 0

structure Stopping (bo : Boxoffice) (status : Status) (fr : Frame) : Prop where
  flag : fr.bo.stopSyncTimeoutReceived = bo.stopFlag status
  stops : stopTimes fr.out = bo.passesStop status

structure SameStop (fr fr' : Frame) : Prop where
  flag : fr'.bo.stopSyncTimeoutReceived = fr.bo.stopSyncTimeoutReceived
  stops : stopTimes fr'.out = stopTimes fr.out

theorem Kept.sameStop {fr fr' : Frame} (h : Kept fr fr') : SameStop fr fr' := by
  obtain ⟨es, hes, hquiet⟩ := h.out
  have hnone : stopTimes es = 0 := by
    apply List.countP_eq_zero.2
    intro e he hstop
    cases e with
    | dispatcher s payload =>
      have hs : s ≠ .s155 := hquiet _ he
      simp [isStopTime, hs] at hstop
    | heartbeat s payload => simp [isStopTime] at hstop
    | disk op => simp [isStopTime] at hstop
  exact ⟨h.flag, by rw [hes, stopTimes_append, hnone, Nat.add_zero]⟩

theorem Stopping.same {bo : Boxoffice} {status : Status} {fr fr' : Frame}
    (h : Stopping bo status fr) (hs : SameStop fr fr') : Stopping bo status fr' :=
  ⟨hs.flag.trans h.flag, hs.stops.trans h.stops⟩

section Call

variable {bo : Boxoffice} {inp : Input}

theorem receivedStopTime_stopping (hst : inp.status = .s155) :
    (receivedStopTime (receivedFrame bo inp)).Post (Exec.whenReturned (Stopping bo inp.status)) := by
  have hflag : (receivedFrame bo inp).bo.stopSyncTimeoutReceived = bo.stopSyncTimeoutReceived := rfl
  unfold receivedStopTime
  rw [hflag]
  split_ifs with hclear
  · have hclear : bo.stopSyncTimeoutReceived = false := by simpa using hclear
    refine ⟨by simp [Frame.send, Boxoffice.stopFlag, hst], ?_⟩
    simp [Frame.send, Boxoffice.passesStop, hst, hclear, stopTimes, isStopTime]
  · have hset : bo.stopSyncTimeoutReceived = true := by simpa using hclear
    exact ⟨by simp [hflag, hset, Boxoffice.stopFlag, hst],
      by simp [Boxoffice.passesStop, hset, stopTimes]⟩

theorem stopping_of_same {fr : Frame} (h100 : inp.status ≠ .s100) (h155 : inp.status ≠ .s155)
    (hs : SameStop (receivedFrame bo inp) fr) : Stopping bo inp.status fr := by
  refine Stopping.same ⟨?_, ?_⟩ hs
  · rw [Boxoffice.stopFlag, if_neg h100, if_neg h155]
    rfl
  · rw [Boxoffice.passesStop, if_neg fun h => h155 h.1]
    rfl

theorem heartbeatBranch_stopping :
    (heartbeatBranch (receivedFrame bo inp)).Post (Exec.whenReturned (Stopping bo inp.status)) := by
  by_cases h100 : inp.status = .s100
  · simp only [heartbeatBranch, receivedFrame_status, h100]
    exact ⟨by simp [Boxoffice.stopFlag], by simp [Boxoffice.passesStop, stopTimes]⟩
  by_cases h155 : inp.status = .s155
  · have hstop := @receivedStopTime_stopping bo inp h155
    simpa only [heartbeatBranch, receivedFrame_status, h155] using hstop
  have hkept := heartbeatBranch_kept (receivedFrame bo inp) h100 h155
  exact hkept.mono (fun fr h => stopping_of_same h100 h155 h.sameStop)
    (fun _ fr h => stopping_of_same h100 h155 h.sameStop) fun _ h => h

theorem stages_stopping : (stages (Frame.start bo inp.status inp.sstream inp.env)).Post
    (Exec.whenNext (Stopping bo inp.status)) := by
  apply Exec.Post.whenNext_of_returned
  refine stages_keep ?_ fun fr₁ fr₂ h hkept => h.same hkept.sameStop
  unfold receivedHeartbeat
  split_ifs with hevent
  · exact heartbeatBranch_stopping
  · have hother : inp.status ≠ .s100 ∧ inp.status ≠ .s155 := by
      constructor <;> intro h <;> exact hevent (by simp [Frame.start, h, getEventByStatusCode])
    exact stopping_of_same hother.1 hother.2 ⟨rfl, rfl⟩

end Call

/-- A state that is entered other than `syncing_stop` leaves the flag alone, and `syncing_stop`
sets it; a stop time is chosen if it was clear. -/
theorem prepareHeartbeatMessage_stops {fr fr' : Frame} {newState : State} {payload : Bytes}
    (h : prepareHeartbeatMessage fr newState = .ok (payload, fr')) :
    stopTimes fr'.out = stopTimes fr.out +
      (if newState = .syncingStop ∧ fr.bo.stopSyncTimeoutReceived = false then 1 else 0) ∧
    (fr'.bo.stopSyncTimeoutReceived = true ↔
      fr.bo.stopSyncTimeoutReceived = true ∨ newState = .syncingStop) := by
  unfold prepareHeartbeatMessage at h
  simp only at h
  split_ifs at h with hdata hmeta hstop
  · have hother : newState ≠ .syncingStop := by rcases hdata with rfl | rfl <;> decide
    split at h
    · simp at h
    · obtain ⟨-, rfl⟩ := Prod.mk.inj (Except.ok.inj h)
      simp [hother, Boxoffice.popData]
  · have hother : newState ≠ .syncingStop := by rcases hmeta with rfl | rfl <;> decide
    split at h
    · simp at h
    · obtain ⟨-, rfl⟩ := Prod.mk.inj (Except.ok.inj h)
      simp [hother, Boxoffice.popMetadata]
  · obtain ⟨-, rfl⟩ := Prod.mk.inj (Except.ok.inj h)
    have hclear : fr.bo.stopSyncTimeoutReceived = false := by simpa using hstop.2
    simp [hstop.1, hclear, stopTimes, isStopTime]
  · obtain ⟨-, rfl⟩ := Prod.mk.inj (Except.ok.inj h)
    have hkept : newState = .syncingStop → fr.bo.stopSyncTimeoutReceived = true := by
      simpa using hstop
    refine ⟨?_, ⟨.inl, fun h => h.elim id hkept⟩⟩
    rw [if_neg fun h => by simp [hkept h.1] at h]
    rfl

structure StopMoved (fr fr' : Frame) (newState : State) : Prop where
  stops : stopTimes fr'.out = stopTimes fr.out + (if fr.bo.state ≠ .syncingStop ∧
    newState = .syncingStop ∧ fr.bo.stopSyncTimeoutReceived = false then 1 else 0)
  flag : fr'.bo.stopSyncTimeoutReceived = true ↔ fr.bo.stopSyncTimeoutReceived = true ∨
    fr.bo.state ≠ .syncingStop ∧ newState = .syncingStop
  state : fr'.bo.state = newState

theorem fsmContinue_stops {fr : Frame} {t : Transition}
    (ht : transition fr.bo.state fr.event fr.status = some t) :
    (fsmContinue fr).Post (Exec.whenNext fun fr' => StopMoved fr fr' t.newState) := by
  obtain ⟨hmem, -, -⟩ := mem_of_transition ht
  have hnew : getNewState fr.bo.state fr.event fr.status = t.newState := by
    simp [getNewState, ht]
  have haction : getAction fr.bo.state fr.event fr.status = t.action := by
    simp [getAction, ht]
  simp only [fsmContinue, hnew, haction]
  by_cases hstay : t.newState = fr.bo.state
  · rw [if_neg (by simp [hstay])]
    exact ⟨by simp +contextual [hstay], by simp +contextual [hstay], hstay.symm⟩
  rw [if_pos (fun h => hstay h.symm)]
  rcases sendHeartbeat_of_leaves _ t hmem hstay with ⟨hsend, -⟩ | ⟨haction, hexit⟩
  · simp only [performAction, hsend, updateHeartbeat]
    cases hprepare : prepareHeartbeatMessage fr t.newState with
    | error f => trivial
    | ok x =>
      obtain ⟨hstops, hflag⟩ := prepareHeartbeatMessage_stops hprepare
      have hleft : t.newState = .syncingStop → fr.bo.state ≠ .syncingStop :=
        fun h hs => hstay (h.trans hs.symm)
      refine ⟨?_, ?_, rfl⟩
      · have hsame : (fr.bo.state ≠ .syncingStop ∧ t.newState = .syncingStop ∧
            fr.bo.stopSyncTimeoutReceived = false) ↔
            t.newState = .syncingStop ∧ fr.bo.stopSyncTimeoutReceived = false :=
          ⟨fun h => h.2, fun h => ⟨hleft h.1, h⟩⟩
        rw [if_congr hsame rfl rfl, ← hstops]
        simp [Frame.send, stopTimes, isStopTime]
      · exact hflag.trans (or_congr_right ⟨fun h => ⟨hleft h, h⟩, fun h => h.2⟩)
  · simp only [haction, performAction]
    exact ⟨by simp [hexit], by simp [hexit], rfl⟩

theorem stop_rows : ∀ state, ∀ t ∈ usedTransitions state,
    (state = .syncingStop → t.newState = .syncingStop ∨ t.newState = .ready ∨ t.newState = .exit) ∧
    (state = .exit → t.newState = .exit) ∧ (state = .ready → t.newState ≠ .syncingStop) ∧
    (t.status = .s155 → t.newState = .syncingStop) ∧
    (t.status = .s100 → state = .ready ∧ t.newState = .ready) := by
  decide +kernel

theorem next_state {bo bo' : Boxoffice} {inp : Input} (h : bo.next inp = some bo') :
    bo'.state = bo.state ∨ ∃ t ∈ usedTransitions bo.state, bo'.state = t.newState := by
  rcases next_cases h with rfl | ⟨fr, t, out, ht, hm⟩
  · exact .inl rfl
  · exact .inr ⟨t, ht.mem_usedTransitions, hm.kept.state⟩

/-- In `syncing_stop` the flag is set. -/
def Boxoffice.StopTold (bo : Boxoffice) : Prop :=
  bo.state = .syncingStop → bo.stopSyncTimeoutReceived = true

theorem Taken.status_eq {bo : Boxoffice} {inp : Input} {fr : Frame} {t : Transition}
    (ht : Taken bo inp fr t) {s : Status} (hst : inp.status = s)
    (hplain : isAck s = false ∧ isLocal s = false ∧ rewordings s = [s]) : t.status = s := by
  subst hst
  have hmem := ht.mem_rewordings hplain.1 hplain.2.1
  rw [hplain.2.2] at hmem
  exact List.mem_singleton.1 hmem

theorem Taken.stopMoved {bo bo' : Boxoffice} {inp : Input} {fr : Frame} {t : Transition}
    (ht : Taken bo inp fr t) (h : bo.next inp = some bo') :
    ∃ fr', StopMoved fr fr' t.newState ∧ fr'.bo = bo' ∧ fr'.out = bo.effects inp := by
  obtain ⟨fr', hcontinue, hbo, hout⟩ := ht.continues h
  exact ⟨fr', (fsmContinue_stops ht.transition_eq).of_next hcontinue, hbo, hout⟩

structure StopStep (bo bo' : Boxoffice) (inp : Input) : Prop where
  told : bo'.StopTold
  stops : stopTimes (bo.effects inp) = if bo.state ≠ .syncingStop ∧ bo'.state = .syncingStop ∧
    bo.stopSyncTimeoutReceived = false then 1 else 0
  clear : bo'.stopSyncTimeoutReceived = false ↔
    ¬ (bo.state ≠ .syncingStop ∧ bo'.state = .syncingStop) ∧
      (bo.state = .ready ∧ inp.status = .s100 ∨ bo.stopSyncTimeoutReceived = false)

theorem ready_accepts : checkEvent .ready (getEventByStatusCode .s100) .s100 = true := by decide

/-- A step tells a stop time exactly when it enters `syncing_stop` with the flag clear. -/
theorem stop_step {bo bo' : Boxoffice} {inp : Input} (hinv : bo.StopTold)
    (h : bo.next inp = some bo') : StopStep bo bo' inp := by
  have hp := processEvent_processed bo inp
  rw [returned_of_next h] at hp
  generalize hout : bo.effects inp = out at hp
  cases hp with
  | ignored hno =>
    refine ⟨hinv, ?_, ?_⟩
    · rw [hout, if_neg fun h => h.1 h.2.1]
      rfl
    · refine ⟨fun hclear => ⟨fun h => h.1 h.2, .inr hclear⟩, fun h => h.2.resolve_left ?_⟩
      rintro ⟨hready, h100⟩
      rw [hready, h100, ready_accepts] at hno
      exact absurd hno (by decide)
  | stopped _ hstop => cases hstop
  | @moved fr t _ _ ht hm =>
    obtain ⟨fr', ⟨hstops, hflag, hstate⟩, rfl, hfr'⟩ := ht.stopMoved h
    have hstaged : Stopping bo inp.status fr := stages_stopping.of_next ht.staged
    rw [ht.steady.state, hstaged.flag] at hflag hstops
    rw [hfr', hstaged.stops] at hstops
    obtain ⟨-, -, -, h155, h100⟩ := stop_rows _ t ht.mem_usedTransitions
    rw [← hstate] at hflag hstops h155 h100
    by_cases hst155 : inp.status = .s155
    · -- the stop time of another node is passed on unless the flag is set
      have hnew := h155 (ht.status_eq hst155 (by decide))
      have hset : fr'.bo.stopSyncTimeoutReceived = true :=
        hflag.2 (.inl (by simp [Boxoffice.stopFlag, hst155]))
      refine ⟨fun _ => hset, ?_, ?_⟩
      · rw [hstops]
        by_cases hs : bo.state = .syncingStop
        · simp [Boxoffice.stopFlag, Boxoffice.passesStop, hst155, hs, hinv hs]
        · simp [Boxoffice.stopFlag, Boxoffice.passesStop, hst155, hs, hnew]
      · have htold : bo.state = .syncingStop → bo.stopSyncTimeoutReceived = true := hinv
        simpa [hset, hst155, hnew] using htold
    by_cases hst100 : inp.status = .s100
    · obtain ⟨hready, hnew⟩ := h100 (ht.status_eq hst100 (by decide))
      have hclear : fr'.bo.stopSyncTimeoutReceived = false := by
        rw [← Bool.not_eq_true, hflag]
        simp [Boxoffice.stopFlag, hst100, hnew]
      refine ⟨fun h => by simp [hnew] at h, ?_, by simp [hclear, hready, hst100, hnew]⟩
      rw [hstops]
      simp [Boxoffice.stopFlag, Boxoffice.passesStop, hst100, hnew]
    · -- any other message leaves the flag to the transition
      rw [Boxoffice.stopFlag, if_neg hst100, if_neg hst155] at hflag hstops
      rw [Boxoffice.passesStop, if_neg fun h => hst155 h.1, Nat.zero_add] at hstops
      refine ⟨fun hnew => ?_, hstops, ?_⟩
      · by_cases hs : bo.state = .syncingStop
        · exact hflag.2 (.inl (hinv hs))
        · exact hflag.2 (.inr ⟨hs, hnew⟩)
      · rw [← Bool.not_eq_true, hflag]
        simp [hst100, and_comm]

def sessionSoFar : List (Boxoffice × Input) → List (Boxoffice × Input)
  | [] => []
  | p :: tr => p :: if p.1.state = .ready then [] else sessionSoFar tr

def entersStop (p : Boxoffice × Input) : Prop :=
  p.1.state ≠ .syncingStop ∧ ∃ bo' ∈ p.1.next p.2, bo'.state = .syncingStop

def stopTimesOf (steps : List (Boxoffice × Input)) : ℕ :=
  (steps.map fun p => stopTimes (p.1.effects p.2)).sum

/-- What holds after a run: a session that has entered `syncing_stop` is there or over, and has
told one stop time if the flag was clear then; another one has told none. -/
structure SessionStops (tr : List (Boxoffice × Input)) (bo : Boxoffice) : Prop where
  told : bo.StopTold
  before : (∀ p ∈ sessionSoFar tr, ¬ entersStop p) →
    stopTimesOf (sessionSoFar tr) = 0 ∧ bo.state ≠ .syncingStop
  after : ∀ p ∈ sessionSoFar tr, entersStop p →
    stopTimesOf (sessionSoFar tr) = (if p.1.stopSyncTimeoutReceived then 0 else 1) ∧
      (bo.state = .syncingStop ∨ bo.state = .ready ∨ bo.state = .exit)

theorem entersStop_iff {bo bo' : Boxoffice} {inp : Input} (h : bo.next inp = some bo') :
    entersStop (bo, inp) ↔ bo.state ≠ .syncingStop ∧ bo'.state = .syncingStop := by
  simp [entersStop, h]

theorem stays_stopped {bo bo' : Boxoffice} {inp : Input} (h : bo.next inp = some bo')
    (hstate : bo.state = .syncingStop ∨ bo.state = .exit) :
    ¬ (bo.state ≠ .syncingStop ∧ bo'.state = .syncingStop) ∧
      (bo'.state = .syncingStop ∨ bo'.state = .ready ∨ bo'.state = .exit) := by
  rcases next_state h with hsame | ⟨t, ht, hnew⟩
  · rw [hsame]
    exact ⟨fun h => h.1 h.2, hstate.imp_right .inr⟩
  · obtain ⟨hstop, hexit, -⟩ := stop_rows _ t ht
    rw [hnew]
    rcases hstate with hs | hs
    · exact ⟨fun h => h.1 hs, hstop hs⟩
    · rw [hexit hs]
      exact ⟨fun h => absurd h.2 (by decide), .inr (.inr rfl)⟩

theorem sessionStops_step {tr : List (Boxoffice × Input)} {bo bo' : Boxoffice} {inp : Input}
    (hinv : SessionStops tr bo) (h : bo.next inp = some bo') :
    SessionStops ((bo, inp) :: tr) bo' := by
  obtain ⟨htold, hstops, -⟩ := stop_step hinv.told h
  have henters := entersStop_iff h
  by_cases hready : bo.state = .ready
  · have hsession : sessionSoFar ((bo, inp) :: tr) = [(bo, inp)] := by simp [sessionSoFar, hready]
    have hnot : bo'.state ≠ .syncingStop := by
      rcases next_state h with h | ⟨t, ht, h⟩
      · rw [h, hready]
        decide
      · rw [h]
        exact (stop_rows _ t ht).2.2.1 hready
    refine ⟨htold, fun _ => ⟨by simp [hsession, stopTimesOf, hstops, hnot], hnot⟩, ?_⟩
    rw [hsession, List.forall_mem_singleton, henters]
    exact fun h => absurd h.2 hnot
  have hsession : sessionSoFar ((bo, inp) :: tr) = (bo, inp) :: sessionSoFar tr := by
    simp [sessionSoFar, hready]
  have hsum : stopTimesOf (sessionSoFar ((bo, inp) :: tr)) =
      stopTimes (bo.effects inp) + stopTimesOf (sessionSoFar tr) := by
    rw [hsession, stopTimesOf, List.map_cons, List.sum_cons, stopTimesOf]
  by_cases hsome : ∃ q ∈ sessionSoFar tr, entersStop q
  · -- the session has entered the state before: nothing is added
    obtain ⟨q, hq, hqenters⟩ := hsome
    obtain ⟨-, hstate⟩ := hinv.after q hq hqenters
    obtain ⟨hnot, hnew⟩ := stays_stopped h (hstate.imp_right fun h => h.resolve_left hready)
    have hzero : stopTimes (bo.effects inp) = 0 := by
      rw [hstops, if_neg fun h => hnot ⟨h.1, h.2.1⟩]
    rw [hzero, Nat.zero_add] at hsum
    refine ⟨htold, fun hnone => ?_, fun p hp hpenters => ⟨?_, hnew⟩⟩
    · rw [hsession, List.forall_mem_cons] at hnone
      exact absurd hqenters (hnone.2 q hq)
    · rw [hsession, List.mem_cons] at hp
      rcases hp with rfl | hp
      · exact absurd (henters.1 hpenters) hnot
      · exact hsum.trans (hinv.after p hp hpenters).1
  · -- the step may be the one that enters it
    have hnone : ∀ q ∈ sessionSoFar tr, ¬ entersStop q := fun q hq h => hsome ⟨q, hq, h⟩
    obtain ⟨hbefore, hstate⟩ := hinv.before hnone
    rw [hbefore, Nat.add_zero, hstops] at hsum
    refine ⟨htold, fun hall => ?_, fun p hp hpenters => ?_⟩
    · rw [hsession, List.forall_mem_cons, henters] at hall
      have hnew : bo'.state ≠ .syncingStop := fun h => hall.1 ⟨hstate, h⟩
      exact ⟨hsum.trans (if_neg fun h => hnew h.2.1), hnew⟩
    · rw [hsession, List.mem_cons] at hp
      rcases hp with rfl | hp
      · obtain ⟨-, hnew⟩ := henters.1 hpenters
        refine ⟨hsum.trans ?_, .inl hnew⟩
        cases hflag : bo.stopSyncTimeoutReceived <;> simp [hstate, hnew]
      · exact absurd hpenters (hnone p hp)

theorem sessionStops_of_run {start bo : Boxoffice} {tr : List (Boxoffice × Input)}
    (hready : start.state = .ready) (hrun : Run Boxoffice.next start tr bo) :
    SessionStops tr bo :=
  hrun.history
    ⟨fun h => by simp [hready] at h, fun _ => ⟨rfl, by simp [hready]⟩, by simp [sessionSoFar]⟩
    fun _ _ _ _ hinv h => sessionStops_step hinv h

/-- A 100 was heard in `ready` since `syncing_stop` was last entered, or it was not entered and
the flag was clear from the beginning. -/
def StopCleared (start : Boxoffice) : List (Boxoffice × Input) → Prop
  | [] => start.stopSyncTimeoutReceived = false
  | p :: tr => ¬ entersStop p ∧
      (p.1.state = .ready ∧ p.2.status = .s100 ∨ StopCleared start tr)

theorem stopFlag_clear_iff {start bo : Boxoffice} {tr : List (Boxoffice × Input)}
    (hready : start.state = .ready) (hrun : Run Boxoffice.next start tr bo) :
    bo.stopSyncTimeoutReceived = false ↔ StopCleared start tr := by
  induction hrun with
  | nil => rfl
  | snoc hrun hs ih =>
    have htold := (sessionStops_of_run hready hrun).told
    rw [(stop_step htold hs).clear, StopCleared, entersStop_iff hs, ih]

/-- A session that enters `syncing_stop` tells the dispatcher exactly one stop time if and only
if it finds the flag clear. -/
theorem stopTime_told_iff {start bo : Boxoffice} {tr : List (Boxoffice × Input)}
    {p : Boxoffice × Input} (hready : start.state = .ready) (hrun : Run Boxoffice.next start tr bo)
    (hp : p ∈ sessionSoFar tr) (henters : entersStop p) :
    stopTimesOf (sessionSoFar tr) = 1 ↔ p.1.stopSyncTimeoutReceived = false := by
  rw [((sessionStops_of_run hready hrun).after p hp henters).1]
  cases p.1.stopSyncTimeoutReceived <;> simp

def followedSession (name : Char) : List Input :=
  [Sample.peerAnnounces, Sample.announced name, Sample.announced name,
    Sample.sendTimeElapsed, Sample.emptyPackage]

theorem stopTime_told_firstSession :
    let start := Sample.start [.fill 65]
    let bo := after Boxoffice.next start (followedSession 'f')
    stopTimesOf (sessionSoFar ((bo, Sample.heard .s155 (by decide) (.fill 65)) ::
      record Boxoffice.next start (followedSession 'f') [])) = 1 ↔
      bo.stopSyncTimeoutReceived = false := by
  intro start bo
  obtain ⟨hrun, hnext⟩ := run_next_after Boxoffice.next start (followedSession 'f')
    (Sample.heard .s155 (by decide) (.fill 65)) (by decide +kernel)
  have henters : entersStop (bo, Sample.heard .s155 (by decide) (.fill 65)) :=
    (entersStop_iff hnext).2 (by decide +kernel)
  have hready : start.state = .ready := rfl
  have hp : (bo, Sample.heard .s155 (by decide) (.fill 65)) ∈ sessionSoFar
      ((bo, Sample.heard .s155 (by decide) (.fill 65)) ::
        record Boxoffice.next start (followedSession 'f') []) := List.mem_cons_self ..
  have htold := stopTime_told_iff hready (hrun.snoc hnext) hp henters
  exact htold

/-- A session that is over, and another one with nothing heard in `ready` before it. -/
def unheardSession : List Input :=
  followedSession 'f' ++ [Sample.peerStops, Sample.stopTimeElapsed] ++ followedSession 'g'

theorem stopTime_told_fails :
    ¬ ∀ (start bo : Boxoffice) (tr : List (Boxoffice × Input)) (p : Boxoffice × Input),
      start.state = .ready → Run Boxoffice.next start tr bo → p ∈ sessionSoFar tr →
      entersStop p → stopTimesOf (sessionSoFar tr) = 1 := by
  intro h
  obtain ⟨hrun, hnext⟩ := run_next_after Boxoffice.next (Sample.start [.fill 65]) unheardSession
    (Sample.heard .s155 (by decide) (.fill 65)) (by decide +kernel)
  have htold := h _ _ _ _ rfl (hrun.snoc hnext) (List.mem_cons_self ..)
    ((entersStop_iff hnext).2 (by decide +kernel))
  revert htold
  decide +kernel

end Flocksy
