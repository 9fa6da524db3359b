import Flocksy.Coordinators
import Flocksy.StopTimes

/-!
# Agreement on the stop time

The coordinator of a session chooses the stop time and sends it with 155. A follower that
hears it passes it on to its dispatcher, and says 155 itself from then on, with nothing behind
it; another follower that hears this one first takes the padding of the message for the time.
What a follower passes on is the time of its coordinator if it hears the coordinator first, the
coordinator had its flag clear, and no byte of the time ends the line.
-/

namespace Flocksy

open ByteStream Fsm Runs Links

/-- The time that a coordinator chooses when it enters `syncing_stop`. -/
def stopTime (env : Env) : UInt64 :=
  env.now +
    (env.randomUniform (maximumStopOffset - minimumStopOffset) + minimumStopOffset).toUInt64

section Call

variable {bo bo' : Boxoffice} {inp : Input}

theorem fsmContinue_stopPayload {fr : Frame} {t : Transition}
    (ht : transition fr.bo.state fr.event fr.status = some t)
    (hmove : t.newState ≠ fr.bo.state) (hstop : t.newState = .syncingStop) :
    (fsmContinue fr).Post (Exec.whenNext fun fr' =>
      if fr.bo.stopSyncTimeoutReceived then fr'.out = fr.out ++ [.heartbeat t.heartbeat []]
      else fr'.bo.currentTimingOffset = stopTime fr.env ∧
        fr'.out = fr.out ++ [.dispatcher .s155 (timingBytes (stopTime fr.env))] ++
          [.heartbeat t.heartbeat (timingBytes (stopTime fr.env))]) := by
  obtain ⟨hmem, -, -⟩ := mem_of_transition ht
  have hnew : getNewState fr.bo.state fr.event fr.status = t.newState := by
    simp [getNewState, ht]
  have haction : getAction fr.bo.state fr.event fr.status = t.action := by
    simp [getAction, ht]
  have hbeat : getHeartbeatStatus fr.bo.state fr.event fr.status = t.heartbeat := by
    simp [getHeartbeatStatus, ht]
  have hsend : t.action = .sendHeartbeat := by
    rcases sendHeartbeat_of_leaves _ t hmem hmove with ⟨hsend, -⟩ | ⟨-, hexit⟩
    · exact hsend
    · rw [hstop] at hexit
      exact absurd hexit (by decide)
  have hdata : ¬ (State.syncingStop = .sendingNewFileMetadata ∨
      State.syncingStop = .sendingNewFileMetadataWithMore) := by decide
  have hmetadata : ¬ (State.syncingStop = .sendingFileMetadataChange ∨
      State.syncingStop = .sendingFileMetadataChangeWithMore) := by decide
  simp only [fsmContinue, hnew, haction, hsend, performAction, updateHeartbeat, hbeat]
  rw [if_pos (fun h => hmove h.symm), hstop]
  simp only [prepareHeartbeatMessage, if_neg hdata, if_neg hmetadata]
  cases hflag : fr.bo.stopSyncTimeoutReceived with
  | true => exact rfl
  | false => exact ⟨rfl, rfl⟩

theorem stopTime_rows : ∀ state, ∀ t ∈ usedTransitions state,
    (t.heartbeat = .s155 → t.newState ≠ state →
      state = .sendingNewFile ∨ state = .broadcastingAllReceived) ∧
    (t.newState = .syncingStop → t.newState ≠ state → t.heartbeat = .s155 ∧
      (state = .sendingNewFile ∧ t.status = .s142 ∨
        state = .broadcastingAllReceived ∧ t.status = .s155)) ∧
    (t.heartbeat = .s155 → t.newState = .syncingStop) := by
  decide +kernel

theorem Taken.heartbeatBranch_eq {fr : Frame} {t : Transition} (h : Taken bo inp fr t)
    (hevent : getEventByStatusCode inp.status = .receivedHeartbeat)
    (hquiet : (heartbeatBranch (receivedFrame bo inp)).Post (Exec.whenNext fun fr₁ =>
      notifies fr₁.status = false)) :
    heartbeatBranch (receivedFrame bo inp) = .next fr := by
  have hstaged := h.staged
  have hreceived : receivedHeartbeat (Frame.start bo inp.status inp.sstream inp.env) =
      heartbeatBranch (receivedFrame bo inp) := if_pos hevent
  have hpost := (updateTimestamp_received h.accepted).heartbeatBranch_post hevent
  rw [stages, hreceived] at hstaged
  change (heartbeatBranch (receivedFrame bo inp)).Post _ at hpost
  cases hbranch : heartbeatBranch (receivedFrame bo inp) with
  | ret code fr₁ => simp [hbranch, Exec.andThen] at hstaged
  | fault f => simp [hbranch, Exec.andThen] at hstaged
  | next fr₁ =>
    rw [hbranch] at hpost hquiet hstaged
    have hnotify := notifyDispatcher_post hpost.1 hpost.2 hevent
    have hsame : notifyDispatcher fr₁ = .next fr₁ := hpost.1.notifyDispatcher_eq hquiet
    rw [hsame] at hnotify
    rw [Exec.andThen, hsame, Exec.andThen, localFileEvent_of_remote hnotify.2, Exec.andThen,
      receivedFileData_of_remote hnotify.2] at hstaged
    exact hstaged

def Boxoffice.heardTiming (bo : Boxoffice) (inp : Input) : Bytes :=
  padTo 8 (((receivedFrame bo inp).sstream.seekCur 1).read 8).1

/-- A step into `syncing_stop`: the coordinator chooses the time, if its flag is clear. -/
inductive EntersStop (bo bo' : Boxoffice) (inp : Input) : Prop where
  | coordinator {out : List Effect} : bo.state = .sendingNewFile → inp.status = .s140 →
      bo.Completes inp → (bo.stopSyncTimeoutReceived = false →
        bo'.currentTimingOffset = stopTime inp.env ∧ bo.effects inp =
          out ++ [.heartbeat .s155 (timingBytes (stopTime inp.env))]) → EntersStop bo bo' inp
  | follower {out : List Effect} : bo.state = .broadcastingAllReceived → inp.status = .s155 →
      bo.effects inp = out ++ [.heartbeat .s155 []] →
      (bo.stopSyncTimeoutReceived = false → out = [.dispatcher .s155 (bo.heardTiming inp)]) →
      EntersStop bo bo' inp

/-- The branches of 140 and 155 tell the dispatcher nothing of a transfer. -/
theorem heartbeatBranch_stopQuiet (hst : inp.status = .s140 ∨ inp.status = .s155) :
    (heartbeatBranch (receivedFrame bo inp)).Post (Exec.whenNext fun fr =>
      notifies fr.status = false ∧ fr.env = inp.env ∧ (inp.status = .s155 →
        bo.stopSyncTimeoutReceived = false →
          fr.out = [.dispatcher .s155 (bo.heardTiming inp)])) := by
  unfold heartbeatBranch
  rw [receivedFrame_status]
  rcases hst with hst | hst
  · simp only [hst, replyRound]
    split_ifs
    · rw [checked, Exec.post_require]
      split_ifs
      · exact ⟨by simp [Frame.become, notifies], rfl, fun h => absurd h (by decide)⟩
      · trivial
    · exact ⟨by simp [notifies, hst], rfl, fun h => absurd h (by decide)⟩
  · have hflag : (receivedFrame bo inp).bo.stopSyncTimeoutReceived = bo.stopSyncTimeoutReceived :=
      rfl
    simp only [hst, receivedStopTime, hflag]
    split_ifs with hclear
    · exact ⟨by simp [Frame.send, notifies, hst], rfl, fun _ _ => rfl⟩
    · refine ⟨by simp [notifies, hst], rfl, fun _ h => ?_⟩
      simp [h] at hclear

theorem ack_of_s142 : ∀ s, isAck s = true → .s142 ∈ completions s → s = .s140 := by
  decide

/-- The statuses of peers that no rewording and no end of a round gives. -/
def plainStatuses : List Status := [.s120, .s124, .s160, .s164, .s155]

theorem plainStatuses_spec : ∀ s ∈ plainStatuses,
    (∀ r, s ∈ rewordings r → r = s) ∧ (∀ r, s ∉ completions r) ∧ s ≠ .s301 := by
  decide +kernel

theorem Taken.heardStatus {fr : Frame} {t : Transition} (ht : Taken bo inp fr t)
    (hplain : t.status ∈ plainStatuses) : inp.status = t.status := by
  have hstatus := ht.status
  obtain ⟨hreworded, hcompleted, htwice⟩ := plainStatuses_spec _ hplain
  cases ht.settled with
  | silent _ _ hst => exact hreworded _ (hstatus ▸ hst)
  | counted _ _ hst => exact hst.symm.trans hstatus.symm
  | completed hcomp hst =>
    exact absurd (hst.symm.trans hstatus.symm ▸ bo.completion_mem hcomp.1) (hcompleted _)
  | queued _ _ hst => exact hst.symm.trans hstatus.symm
  | twice _ hst => exact absurd (hstatus.trans hst) htwice

theorem enters_stop (h : bo.next inp = some bo') (hbefore : bo.state ≠ .syncingStop)
    (hafter : bo'.state = .syncingStop) : EntersStop bo bo' inp := by
  rcases next_cases h with rfl | ⟨fr, t, out, ht, hm⟩
  · exact absurd hafter hbefore
  have hstop : t.newState = .syncingStop := hm.kept.state.symm.trans hafter
  have hmove : t.newState ≠ fr.bo.state := by
    rw [hstop, ht.steady.state]
    exact hbefore.symm
  obtain ⟨hbeat, hrow⟩ := (stopTime_rows _ t ht.mem_usedTransitions).2.1 hstop
    (ht.steady.state ▸ hmove)
  obtain ⟨fr', hcontinue, rfl, hout⟩ := ht.continues h
  have hsays := (fsmContinue_stopPayload ht.transition_eq hmove hstop).of_next hcontinue
  rw [hout, hbeat] at hsays
  have hflag := (stages_stopping.of_next ht.staged).flag
  rcases hrow with ⟨hstate, h142⟩ | ⟨hstate, h155⟩
  · have hend : t.status ∈ roundEnds := by
      rw [h142]
      decide
    obtain ⟨hcomp, hst, -⟩ := ht.completes hend
    have h140 : inp.status = .s140 := by
      have hmem := bo.completion_mem hcomp.1
      rw [← hst, h142] at hmem
      exact ack_of_s142 _ hcomp.1 hmem
    have hbranch := @heartbeatBranch_stopQuiet bo inp (.inl h140)
    have heq := ht.heartbeatBranch_eq (by rw [h140]; rfl)
      (hbranch.mono (fun _ h => h.1) (fun _ _ h => h) fun _ h => h)
    obtain ⟨-, henv, -⟩ := hbranch.of_next heq
    have hkept : fr.bo.stopSyncTimeoutReceived = bo.stopSyncTimeoutReceived := by
      rw [hflag, h140]
      rfl
    rw [hkept, henv] at hsays
    refine .coordinator hstate h140 hcomp (fun hclear => ?_ : _ → _ ∧ bo.effects inp =
      (fr.out ++ [.dispatcher .s155 (timingBytes (stopTime inp.env))]) ++ _)
    rwa [hclear, if_neg (by decide)] at hsays
  · have hst : inp.status = .s155 := (ht.heardStatus (by rw [h155]; decide)).trans h155
    have hbranch := @heartbeatBranch_stopQuiet bo inp (.inr hst)
    have heq := ht.heartbeatBranch_eq (by rw [hst]; rfl)
      (hbranch.mono (fun _ h => h.1) (fun _ _ h => h) fun _ h => h)
    obtain ⟨-, -, hout⟩ := hbranch.of_next heq
    have hset : fr.bo.stopSyncTimeoutReceived = true := by
      rw [hflag, hst]
      rfl
    rw [hset, if_pos rfl] at hsays
    exact .follower hstate hst hsays (hout hst)

theorem told_stop (hinv : bo.StopTold) (h : bo.next inp = some bo')
    (hstate : bo.state = .broadcastingAllReceived ∨ bo.state = .syncingStop) {b : Bytes}
    (htold : .dispatcher .s155 b ∈ bo.effects inp) :
    bo.state = .broadcastingAllReceived ∧ inp.status = .s155 ∧
      bo.stopSyncTimeoutReceived = false ∧ b = bo.heardTiming inp := by
  have hsome : 0 < stopTimes (bo.effects inp) := List.countP_pos_iff.2 ⟨_, htold, rfl⟩
  rw [(stop_step hinv h).stops] at hsome
  obtain ⟨hbefore, hafter, hclear⟩ : bo.state ≠ .syncingStop ∧ bo'.state = .syncingStop ∧
      bo.stopSyncTimeoutReceived = false := by
    by_contra hno
    rw [if_neg hno] at hsome
    exact absurd hsome (lt_irrefl 0)
  cases enters_stop h hbefore hafter with
  | coordinator hsending =>
    rw [hsending] at hstate
    exact absurd hstate (by decide)
  | follower hreceived hst hout htimes =>
    refine ⟨hreceived, hst, hclear, ?_⟩
    rw [hout, htimes hclear] at htold
    simpa using htold

end Call

section Flock

variable {n : ℕ} {fl : Flock n}

def isAnnouncement (status : Status) : Bool :=
  status = .s120 ∨ status = .s124 ∨ status = .s160 ∨ status = .s164

/-- In a step of the run the coordinator of the session entered `syncing_stop` with this time. -/
def Flock.Chosen (fl : Flock n) (tr : List (FlockNet n × FlockAct n)) (session : Session n)
    (timing : UInt64) : Prop :=
  ∃ p ∈ tr, ∃ s', fl.protocol.next p.1 p.2 = some s' ∧
    (p.1.station session.coordinator).session = session ∧
    (p.1.station session.coordinator).bo.state ≠ .syncingStop ∧
    (s'.station session.coordinator).bo.state = .syncingStop ∧
    (s'.station session.coordinator).bo.currentTimingOffset = timing

/-- A follower takes the 155 of its coordinator before any other, and a coordinator enters
`syncing_stop` with its flag clear and a time that is one line. -/
def Flock.StopsInOrder (fl : Flock n) (s : FlockNet n) : FlockAct n → Prop
  | .deliver j i env => ∀ m ∈ (s.link j i).head?,
      ((s.station i).bo.state = .broadcastingAllReceived → m.heartbeat.status = .s155 →
        (s.station i).bo.stopSyncTimeoutReceived = false →
          m.session = (s.station i).session ∧ m.session.coordinator = j) ∧
      ((s.station i).bo.state = .sendingNewFile → m.heartbeat.status = .s140 →
        (s.station i).bo.Completes (m.input (fl.uid j) env) →
          (s.station i).bo.stopSyncTimeoutReceived = false ∧
            newline ∉ timingBytes (stopTime env))
  | _ => True

instance (fl : Flock n) (s : FlockNet n) : (act : FlockAct n) → Decidable (fl.StopsInOrder s act)
  | .deliver j i env =>
    inferInstanceAs (Decidable (∀ m ∈ (s.link j i).head?,
      ((s.station i).bo.state = .broadcastingAllReceived → m.heartbeat.status = .s155 →
        (s.station i).bo.stopSyncTimeoutReceived = false →
          m.session = (s.station i).session ∧ m.session.coordinator = j) ∧
      ((s.station i).bo.state = .sendingNewFile → m.heartbeat.status = .s140 →
        (s.station i).bo.Completes (m.input (fl.uid j) env) →
          (s.station i).bo.stopSyncTimeoutReceived = false ∧
            newline ∉ timingBytes (stopTime env))))
  | .own _ _ => inferInstanceAs (Decidable True)
  | .broadcast _ _ => inferInstanceAs (Decidable True)

/-- The line of a 155 carries the time that was chosen in the session. -/
def Flock.Carried (fl : Flock n) (tr : List (FlockNet n × FlockAct n)) (session : Session n)
    (message : Bytes) : Prop :=
  (∀ p ∈ tr, fl.StopsInOrder p.1 p.2) →
    ∃ timing, message = space :: timingBytes timing ∧ fl.Chosen tr session timing

theorem Flock.Carried.cons {tr : List (FlockNet n × FlockAct n)} {session : Session n}
    {message : Bytes} (h : fl.Carried tr session message) (p : FlockNet n × FlockAct n) :
    fl.Carried (p :: tr) session message := by
  intro hok
  rw [List.forall_mem_cons] at hok
  obtain ⟨timing, hmessage, q, hq, hchosen⟩ := h hok.2
  exact ⟨timing, hmessage, q, List.mem_cons_of_mem _ hq, hchosen⟩

/-- What holds of a station: coordinators are in a session of their own and followers are not;
an announcement comes from a coordinator, and so does a stop time. -/
structure Flock.InSession (fl : Flock n) (tr : List (FlockNet n × FlockAct n)) (i : Fin n)
    (st : Station n) : Prop where
  told : st.bo.StopTold
  coordinator : coordinates st.bo.state = true → st.session.coordinator = i
  follower : follows st.bo.state = true → st.session.coordinator ≠ i
  announced : isAnnouncement st.heartbeat.status = true →
    (announces st.bo.state = true ∨ st.bo.state = .exit) ∧ st.session.coordinator = i
  remote : isLocal st.heartbeat.status = false
  stops : st.heartbeat.status = .s155 → (st.bo.state = .syncingStop ∨ st.bo.state = .exit) ∧
    (st.session.coordinator = i → fl.Carried tr st.session st.heartbeat.message)

/-- What holds of a message under way from `j`. -/
structure Flock.FromSession (fl : Flock n) (tr : List (FlockNet n × FlockAct n)) (j : Fin n)
    (m : Sent n) : Prop where
  announced : isAnnouncement m.heartbeat.status = true → m.session.coordinator = j
  remote : isLocal m.heartbeat.status = false
  stops : m.heartbeat.status = .s155 → m.session.coordinator = j →
    fl.Carried tr m.session m.heartbeat.message

theorem session_rows : ∀ state, ∀ t ∈ usedTransitions state,
    (coordinates t.newState = true →
      coordinates state = true ∨ state = .ready ∧ isLocal t.status = true) ∧
    (follows t.newState = true →
      follows state = true ∨ state = .ready ∧ isAnnouncement t.status = true) ∧
    (isAnnouncement t.heartbeat = true → t.newState ≠ state → announces t.newState = true) ∧
    isLocal t.heartbeat = false := by
  decide +kernel

theorem keptLine_of_mem {payload : Bytes} (h : newline ∉ payload) :
    keptLine payload = space :: payload := by
  rw [keptLine, List.takeWhile_eq_self_iff.2]
  intro b hb
  rw [bne_iff_ne]
  rintro rfl
  exact h hb

section Step

variable {tr : List (FlockNet n × FlockAct n)} {p : FlockNet n × FlockAct n} {i : Fin n}
  {st st' : Station n} {inp : Input} {joined : Session n}

theorem Called.session_of_ne (h : Called st st' inp joined) (hready : st.bo.state ≠ .ready) :
    st'.session = st.session := by
  rw [h.session, if_neg fun h => hready h.1]

theorem Called.session_of_ready (h : Called st st' inp joined) (hready : st.bo.state = .ready)
    (hleft : st'.bo.state ≠ .ready) : st'.session = joined := by
  rw [h.session, if_pos ⟨hready, hleft⟩]

theorem Called.coordinator (h : Called st st' inp joined) (hinv : fl.InSession tr i st)
    (hlocal : isLocal inp.status = true → joined.coordinator = i)
    (hcoordinates : coordinates st'.bo.state = true) : st'.session.coordinator = i := by
  have hready : ∀ state, coordinates state = true → state ≠ .ready := by decide
  rcases next_cases h.next with hsame | ⟨fr, t, out, ht, hm⟩
  · rw [hsame] at hcoordinates
    rw [h.session_of_ne (hready _ hcoordinates)]
    exact hinv.coordinator hcoordinates
  have hnew := hcoordinates
  rw [hm.kept.state] at hnew
  rcases (session_rows _ t ht.mem_usedTransitions).1 hnew with hbefore | ⟨hbefore, hst⟩
  · rw [h.session_of_ne (hready _ hbefore)]
    exact hinv.coordinator hbefore
  · rw [h.session_of_ready hbefore (hready _ hcoordinates)]
    rcases ht.queues with ⟨hno, -⟩ | ⟨-, hsame, -⟩
    · exact absurd (hst.symm.trans hno) (by decide)
    · exact hlocal (hsame ▸ hst)

theorem Called.follower (h : Called st st' inp joined) (hinv : fl.InSession tr i st)
    (hannounced : isAnnouncement inp.status = true → joined.coordinator ≠ i)
    (hfollows : follows st'.bo.state = true) : st'.session.coordinator ≠ i := by
  have hready : ∀ state, follows state = true → state ≠ .ready := by decide
  rcases next_cases h.next with hsame | ⟨fr, t, out, ht, hm⟩
  · rw [hsame] at hfollows
    rw [h.session_of_ne (hready _ hfollows)]
    exact hinv.follower hfollows
  have hnew := hfollows
  rw [hm.kept.state] at hnew
  rcases (session_rows _ t ht.mem_usedTransitions).2.1 hnew with hbefore | ⟨hbefore, hst⟩
  · rw [h.session_of_ne (hready _ hbefore)]
    exact hinv.follower hbefore
  · rw [h.session_of_ready hbefore (hready _ hfollows)]
    have hplain : ∀ s, isAnnouncement s = true → s ∈ plainStatuses := by decide
    exact hannounced (ht.heardStatus (hplain _ hst) ▸ hst)

theorem Called.carried (h : Called st st' inp joined) (hinv : fl.InSession tr i st)
    (hstop : st.bo.state = .sendingNewFile → inp.status = .s140 → st.bo.Completes inp →
      fl.StopsInOrder p.1 p.2 → st.bo.stopSyncTimeoutReceived = false ∧
        newline ∉ timingBytes (stopTime inp.env))
    (hchosen : st.session.coordinator = i → st.bo.state ≠ .syncingStop →
      st'.bo.state = .syncingStop → fl.Chosen (p :: tr) st.session st'.bo.currentTimingOffset)
    (hbefore : st.bo.state ≠ .syncingStop) (hafter : st'.bo.state = .syncingStop)
    {payload : Bytes} {out : List Effect}
    (hout : st.bo.effects inp = out ++ [.heartbeat .s155 payload])
    (hmessage : st'.heartbeat.message = keptLine payload) (hown : st.session.coordinator = i) :
    fl.Carried (p :: tr) st.session st'.heartbeat.message := by
  intro hok
  rw [List.forall_mem_cons] at hok
  cases enters_stop h.next hbefore hafter with
  | coordinator hsending h140 hcomp hsays =>
    obtain ⟨hclear, hline⟩ := hstop hsending h140 hcomp hok.1
    obtain ⟨htiming, heffects⟩ := hsays hclear
    have hpayload : payload = timingBytes (stopTime inp.env) := by
      have hlast := congrArg List.getLast? (hout.symm.trans heffects)
      rw [List.getLast?_concat, List.getLast?_concat] at hlast
      simpa using hlast
    refine ⟨stopTime inp.env, ?_, htiming ▸ hchosen hown hbefore hafter⟩
    rw [hmessage, hpayload, keptLine_of_mem hline]
  | follower hreceived =>
    have hfollows : follows st.bo.state = true := by
      rw [hreceived]
      decide
    exact absurd hown (hinv.follower hfollows)

theorem Called.inSession (h : Called st st' inp joined) (hinv : fl.InSession tr i st)
    (hlocal : isLocal inp.status = true → joined.coordinator = i)
    (hannounced : isAnnouncement inp.status = true → joined.coordinator ≠ i)
    (hstop : st.bo.state = .sendingNewFile → inp.status = .s140 → st.bo.Completes inp →
      fl.StopsInOrder p.1 p.2 → st.bo.stopSyncTimeoutReceived = false ∧
        newline ∉ timingBytes (stopTime inp.env))
    (hchosen : st.session.coordinator = i → st.bo.state ≠ .syncingStop →
      st'.bo.state = .syncingStop → fl.Chosen (p :: tr) st.session st'.bo.currentTimingOffset) :
    fl.InSession (p :: tr) i st' := by
  have hcoordinator := h.coordinator hinv hlocal
  refine ⟨(stop_step hinv.told h.next).told, hcoordinator, h.follower hinv hannounced, ?_, ?_, ?_⟩
  · intro hbeat
    cases h.beaten with
    | kept hstate hkept =>
      rcases hkept with hkept | hkept
      · rw [hkept] at hbeat
        obtain ⟨hbefore, hown⟩ := hinv.announced hbeat
        have hready : st.bo.state ≠ .ready := by
          have hannounces : ∀ state, announces state = true ∨ state = .exit → state ≠ .ready := by
            decide
          exact hannounces _ hbefore
        rw [h.session_of_ne hready]
        refine ⟨?_, hown⟩
        rcases hstate with hstate | hstate
        · rw [hstate]
          exact hbefore
        · exact .inr hstate
      · rw [hkept] at hbeat
        exact absurd hbeat (by decide)
    | row ht hmove hnew _ hstatus =>
      rw [hstatus] at hbeat
      have hannounces := (session_rows _ _ ht).2.2.1 hbeat hmove
      rw [← hnew] at hannounces
      exact ⟨.inl hannounces, hcoordinator (by simp [coordinates, hannounces])⟩
  · cases h.beaten with
    | kept _ hkept =>
      rcases hkept with hkept | hkept
      · rw [hkept]
        exact hinv.remote
      · rw [hkept]
        decide
    | row ht _ _ _ hstatus =>
      rw [hstatus]
      exact (session_rows _ _ ht).2.2.2
  · intro hbeat
    cases h.beaten with
    | kept hstate hkept =>
      rcases hkept with hkept | hkept
      · rw [hkept] at hbeat
        obtain ⟨hbefore, hcarried⟩ := hinv.stops hbeat
        have hready : st.bo.state ≠ .ready := by
          rcases hbefore with h | h
          · rw [h]
            decide
          · rw [h]
            decide
        rw [h.session_of_ne hready, hkept]
        refine ⟨?_, fun hown => (hcarried hown).cons p⟩
        rcases hstate with hstate | hstate
        · rw [hstate]
          exact hbefore
        · exact .inr hstate
      · rw [hkept] at hbeat
        exact absurd hbeat (by decide)
    | row ht hmove hnew hout hstatus hmessage =>
      rw [hstatus] at hbeat
      have hstopping := (stopTime_rows _ _ ht).2.2 hbeat
      have hbefore : st.bo.state ≠ .syncingStop := fun h => hmove (hstopping.trans h.symm)
      have hafter : st'.bo.state = .syncingStop := hnew.trans hstopping
      have hready : st.bo.state ≠ .ready := by
        intro h
        rcases (stopTime_rows _ _ ht).1 hbeat hmove with hs | hs
        · exact absurd (h.symm.trans hs) (by decide)
        · exact absurd (h.symm.trans hs) (by decide)
      rw [h.session_of_ne hready]
      rw [hbeat] at hout
      exact ⟨.inl hafter, h.carried hinv hstop hchosen hbefore hafter hout hmessage⟩

end Step

theorem heartbeat_of_announcement : ∀ s, isAnnouncement s = true →
    getEventByStatusCode s = .receivedHeartbeat := by
  decide

theorem inSession_start (i : Fin n) : fl.InSession [] i (fl.protocol.start i) := by
  have hready : coordinates .ready = false ∧ follows .ready = false ∧ State.ready ≠ .syncingStop := by
    decide
  have hbeat : isAnnouncement .s100 = false ∧ isLocal .s100 = false ∧ Status.s100 ≠ .s155 := by
    decide
  refine ⟨fun h => absurd h hready.2.2, fun h => ?_, fun h => ?_, fun h => ?_, hbeat.2.1,
    fun h => absurd h hbeat.2.2⟩
  · exact absurd (h.symm.trans hready.1) (by decide)
  · exact absurd (h.symm.trans hready.2.1) (by decide)
  · exact absurd (h.symm.trans hbeat.1) (by decide)

theorem inSession_of_run {tr : List (FlockNet n × FlockAct n)} {s : FlockNet n}
    (hrun : Run fl.protocol.next fl.protocol.initial tr s) :
    Protocol.Holds (fl.InSession) (fun tr j _ m => fl.FromSession tr j m) tr s := by
  refine Protocol.localInvariant (fun i => ?_) (fun tr p i st h => ?_) (fun tr p i j m h => ?_)
    (fun tr s i inp s' hinv hnext hown => ?_) (fun tr i j st timestamp h => ?_)
    (fun tr s j i m ms env s' hinv hnext hlink htake => ?_) hrun
  · exact inSession_start i
  · exact ⟨h.told, h.coordinator, h.follower, h.announced, h.remote,
      fun hbeat => (h.stops hbeat).imp_right fun hc hown => (hc hown).cons p⟩
  · exact ⟨h.announced, h.remote, fun hbeat hown => (h.stops hbeat hown).cons p⟩
  · obtain ⟨hcalled, -⟩ := Flock.own_spec fl hown
    refine hcalled.inSession (hinv.station i) (fun _ => rfl) (fun h => ?_) (fun _ h => ?_)
      fun hcoordinator hbefore hafter => ?_
    · exact absurd (heartbeat_of_announcement _ h) inp.own
    · exact absurd (h ▸ rfl) inp.own
    · refine ⟨_, List.mem_cons_self .., s', hnext, ?_⟩
      rw [hcoordinator]
      exact ⟨rfl, hbefore, hafter, rfl⟩
  · exact ⟨fun hbeat => (h.announced hbeat).2, h.remote, fun hbeat => (h.stops hbeat).2⟩
  · obtain ⟨hcalled, -⟩ := Flock.take_spec fl htake
    obtain ⟨hne, hm⟩ := hinv.link j i m (hlink ▸ List.mem_cons_self ..)
    refine hcalled.inSession (hinv.station i) (fun h => ?_) (fun h => ?_) (fun hs h140 hcomp hok => ?_)
      fun hcoordinator hbefore hafter => ?_
    · exact absurd (h.symm.trans hm.remote) (by decide)
    · rw [hm.announced h]
      exact hne
    · exact (hok m (by rw [hlink]; rfl)).2 hs h140 hcomp
    · refine ⟨_, List.mem_cons_self .., s', hnext, ?_⟩
      rw [hcoordinator]
      exact ⟨rfl, hbefore, hafter, rfl⟩

theorem heardTiming_of_carried (bo : Boxoffice) (m : Sent n) (uid : Hash) (env : Env)
    {timing : UInt64} (hmessage : m.heartbeat.message = space :: timingBytes timing) :
    bo.heardTiming (m.input uid env) = timingBytes timing := by
  obtain ⟨width, hinfo⟩ : ∃ width, m.heartbeat.info m.timestamp = space ::
      (timingBytes m.timestamp ++ (space :: (timingBytes timing ++ List.replicate width space))) := by
    refine ⟨minimumHbWidth - 3 - (space :: (timingBytes m.timestamp ++
      (space :: timingBytes timing))).length, ?_⟩
    rw [Heartbeat.info, hmessage, fillTo]
    simp only [List.append_assoc, List.cons_append]
  have hstamp : receivedFrame bo (m.input uid env) = _ := updateTimestamp_cursor (by
    rw [Sent.input, peerInput, hinfo, Frame.start])
  have hseek : (Stream.cursor (signalPrefix sigtypeSub m.heartbeat.status.toNat ++ uid.bytes ++
      [space] ++ timingBytes m.timestamp)
      (space :: (timingBytes timing ++ List.replicate width space))).seekCur 1 =
      Stream.cursor (signalPrefix sigtypeSub m.heartbeat.status.toNat ++ uid.bytes ++ [space] ++
        timingBytes m.timestamp ++ [space]) (timingBytes timing ++ List.replicate width space) :=
    Stream.seekCur_cursor (show [space].length = 1 from rfl) _ _
  rw [Boxoffice.heardTiming, hstamp, hseek, Stream.read_cursor (timingBytes_length timing),
    padTo_of_length (timingBytes_length timing)]

/-- In a run whose steps are in order every stop time that a follower tells its dispatcher is
the one that the coordinator of its session has chosen. -/
theorem stopTime_agreed {tr : List (FlockNet n × FlockAct n)} {s s' : FlockNet n}
    {act : FlockAct n} (hrun : Run fl.protocol.next fl.protocol.initial tr s)
    (hok : ∀ p ∈ tr, fl.StopsInOrder p.1 p.2) (hs : fl.protocol.next s act = some s')
    (hact : fl.StopsInOrder s act) {i : Fin n} {inp : Input} (hinput : fl.input s act i = some inp)
    (hstate : (s.station i).bo.state = .broadcastingAllReceived ∨
      (s.station i).bo.state = .syncingStop) {b : Bytes}
    (htold : .dispatcher .s155 b ∈ (s.station i).bo.effects inp) :
    ∃ timing, b = timingBytes timing ∧ fl.Chosen tr (s.station i).session timing := by
  have hinv := inSession_of_run hrun
  obtain ⟨hreceived, hst, hclear, rfl⟩ :=
    told_stop (hinv.station i).told (Flock.bo_next hs hinput) hstate htold
  cases act with
  | own k event =>
    rw [Flock.input] at hinput
    split_ifs at hinput
    obtain rfl := Option.some.inj hinput
    exact absurd (hst ▸ rfl) event.own
  | broadcast => simp [Flock.input] at hinput
  | deliver j k env =>
    rw [Flock.input] at hinput
    split_ifs at hinput with hk
    subst hk
    obtain ⟨m, hm, rfl⟩ := Option.map_eq_some_iff.1 hinput
    obtain ⟨hsession, hcoordinator⟩ := (hact m hm).1 hreceived hst hclear
    have hfrom := (hinv.link j k m (List.mem_of_mem_head? hm)).2
    obtain ⟨timing, hmessage, hchosen⟩ := hfrom.stops hst hcoordinator hok
    exact ⟨timing, heardTiming_of_carried _ m _ env hmessage, hsession ▸ hchosen⟩

end Flock

namespace Sample

def modifies (i : Fin 3) (name : Char) : FlockAct 3 :=
  .own i ⟨modified name, (by decide : getEventByStatusCode .s300 ≠ .receivedHeartbeat)⟩

def elapses (i : Fin 3) : FlockAct 3 :=
  .own i ⟨sendTimeElapsed, (by decide : getEventByStatusCode .s132 ≠ .receivedHeartbeat)⟩

def receives (i : Fin 3) : FlockAct 3 :=
  .own i ⟨emptyPackage, (by decide : getEventByStatusCode .s200 ≠ .receivedHeartbeat)⟩

/-- Node `n₀` announces an empty file and the others receive it; the stop time of node `n₀` is
under way to both. -/
def fileSession : List (FlockAct 3) :=
  [modifies n₀ 'f', tells n₀, hears n₁ n₀, hears n₂ n₀, tells n₁, tells n₂, hears n₀ n₁, hears n₀ n₂,
    tells n₀, tells n₀, hears n₁ n₀, hears n₁ n₀, hears n₂ n₀, hears n₂ n₀,
    elapses n₀, elapses n₁, elapses n₂, receives n₁, receives n₂,
    tells n₁, tells n₂, hears n₀ n₁, hears n₀ n₂, tells n₀]

end Sample

theorem stopTime_agreed_coordinatorFirst :
    let fl := Sample.flock
    let s := after fl.protocol.next fl.protocol.initial Sample.fileSession
    ∃ timing, timingBytes 1000 = timingBytes timing ∧
      fl.Chosen (record fl.protocol.next fl.protocol.initial Sample.fileSession [])
        (s.station 1).session timing := by
  intro fl s
  have hrun : Run fl.protocol.next fl.protocol.initial
      (record fl.protocol.next fl.protocol.initial Sample.fileSession []) s :=
    run_after (by decide +kernel)
  have hs : fl.protocol.next s (Sample.hears 1 0) =
      some (after fl.protocol.next fl.protocol.initial (Sample.fileSession ++ [Sample.hears 1 0])) :=
    next_after Sample.fileSession (by decide +kernel)
  have htold : ∀ inp ∈ fl.input s (Sample.hears 1 0) 1,
      .dispatcher .s155 (timingBytes 1000) ∈ (s.station 1).bo.effects inp := by decide +kernel
  obtain ⟨inp, hinput⟩ : ∃ inp, fl.input s (Sample.hears 1 0) 1 = some inp :=
    Option.isSome_iff_exists.1 (by decide +kernel)
  exact stopTime_agreed hrun (by decide +kernel) hs (by decide +kernel) hinput
    (by decide +kernel) (htold inp hinput)

def followerFirst : List (FlockAct 3) :=
  Sample.fileSession ++ [Sample.hears Sample.n₁ Sample.n₀, Sample.tells Sample.n₁,
    Sample.hears Sample.n₂ Sample.n₁, Sample.hears Sample.n₂ Sample.n₁]

theorem stopTime_agreed_fails :
    ¬ ∀ (n : ℕ) (fl : Flock n) (tr : List (FlockNet n × FlockAct n)) (s s' : FlockNet n)
      (act : FlockAct n) (i : Fin n) (inp : Input) (b : Bytes), 3 ≤ n →
      Run fl.protocol.next fl.protocol.initial tr s → fl.protocol.next s act = some s' →
      fl.input s act i = some inp → ((s.station i).bo.state = .broadcastingAllReceived ∨
        (s.station i).bo.state = .syncingStop) →
      .dispatcher .s155 b ∈ (s.station i).bo.effects inp →
      ∃ timing, b = timingBytes timing ∧ fl.Chosen tr (s.station i).session timing := by
  intro h
  let fl := Sample.flock
  let s := after fl.protocol.next fl.protocol.initial followerFirst
  have hrun : Run fl.protocol.next fl.protocol.initial
      (record fl.protocol.next fl.protocol.initial followerFirst []) s := run_after (by decide +kernel)
  have hs : fl.protocol.next s (Sample.hears 2 1) =
      some (after fl.protocol.next fl.protocol.initial (followerFirst ++ [Sample.hears 2 1])) :=
    next_after followerFirst (by decide +kernel)
  have htold : ∀ inp ∈ fl.input s (Sample.hears 2 1) 2,
      .dispatcher .s155 (List.replicate 8 space) ∈ (s.station 2).bo.effects inp := by
    decide +kernel
  obtain ⟨inp, hinput⟩ : ∃ inp, fl.input s (Sample.hears 2 1) 2 = some inp :=
    Option.isSome_iff_exists.1 (by decide +kernel)
  obtain ⟨timing, hb, p, hp, s₁, hs₁, -, -, -, htiming⟩ := h 3 fl _ s _ (Sample.hears 2 1) 2 inp
    (List.replicate 8 space) le_rfl hrun hs hinput (by decide +kernel) (htold inp hinput)
  -- no node has chosen the time that eight blanks are
  have hblank : timing = UInt64.ofNat (ofBigEndian (List.replicate 8 space)) := by
    rw [← ofBigEndian_timingBytes timing, ← hb, padTo_of_length (by decide)]
  have hnone : ∀ p ∈ record fl.protocol.next fl.protocol.initial followerFirst [],
      ∀ s₁ ∈ fl.protocol.next p.1 p.2, ∀ i, (s₁.station i).bo.currentTimingOffset ≠
        UInt64.ofNat (ofBigEndian (List.replicate 8 space)) := by
    decide +kernel
  exact hnone p hp s₁ hs₁ _ (htiming.trans hblank)

end Flocksy
