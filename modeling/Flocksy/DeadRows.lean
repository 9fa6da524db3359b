import Flocksy.StopAgreement
import Flocksy.TandemRuns

/-!
# The rows that no flock takes

Some rows of the table wait for a heartbeat that is given out only where one has to be heard first,
and while a new file is announced no row of a local event is taken. So no transfer is ever broken off
by a 410, a second new file is never announced, and its states are not reached, whatever the nodes
hear from outside. Other rows wait for a status that nothing brings about: two new files that wait
behind a change of metadata hold the flock for ever, the coordinator with its dispatcher too.
-/

namespace Flocksy

open ByteStream Fsm Runs Links

def settlings (status : Status) : List Status :=
  .s301 :: status :: (rewordings status ++ completions status)

section Call

variable {bo bo' : Boxoffice} {inp : Input}

theorem settlings_local : ∀ s, ∀ r ∈ settlings s, isLocal r = true → isLocal s = true := by
  decide

theorem Taken.mem_settlings {fr : Frame} {t : Transition} (ht : Taken bo inp fr t) :
    t.status ∈ settlings inp.status := by
  rw [ht.status]
  cases ht.settled with
  | silent _ _ hst => simp [settlings, hst]
  | counted _ _ hst => simp [settlings, hst]
  | completed hcomp hst =>
    rw [hst]
    simp [settlings, bo.completion_mem hcomp.1]
  | queued _ _ hst => simp [settlings, hst]
  | twice _ hst => simp [settlings, hst]

theorem Taken.of_local {fr : Frame} {t : Transition} (ht : Taken bo inp fr t)
    (hlocal : isLocal t.status = true) : bo.state ≠ .announcingNewFile := by
  have hinp := settlings_local _ _ ht.mem_settlings hlocal
  rw [ht.status] at hlocal
  cases ht.settled with
  | silent _ hno => simp [hinp] at hno
  | counted hack => simp [isAck_of_local _ hinp] at hack
  | completed hcomp => exact absurd hcomp.1 (by simp [isAck_of_local _ hinp])
  | queued _ _ _ hstate => exact hstate
  | twice _ hst =>
    rw [hst] at hlocal
    cases hlocal

/-- The row that a call takes: with what the status was made of, and the heartbeat it tells last. -/
structure Takes (bo bo' : Boxoffice) (inp : Input) (t : Transition) : Prop where
  used : t ∈ usedTransitions bo.state
  status : t.status ∈ settlings inp.status
  other : isLocal t.status = true → bo.state ≠ .announcingNewFile
  state : bo'.state = t.newState
  told : ∃ out payload, bo.effects inp = out ++ [.heartbeat t.heartbeat payload]

theorem takes_of_next (h : bo.next inp = some bo') :
    bo'.state = bo.state ∨ bo'.state = .exit ∨ ∃ t, Takes bo bo' inp t := by
  have hp := processEvent_processed bo inp
  rw [returned_of_next h] at hp
  generalize heffects : bo.effects inp = effects at hp
  cases hp with
  | ignored => exact .inl rfl
  | stopped _ hstop => cases hstop
  | @moved fr t _ _ ht hm =>
    have hstate := hm.kept.state
    have hrow (hout : ∃ out payload, effects = out ++ [.heartbeat t.heartbeat payload]) :
        ∃ t, Takes bo bo' inp t :=
      ⟨t, ht.mem_usedTransitions, ht.mem_settlings, ht.of_local, hstate, heffects ▸ hout⟩
    cases hm with
    | stay hsame => exact .inl (hstate.trans (hsame.trans ht.steady.state))
    | exit _ hexit => exact .inr (.inl (hstate.trans hexit))
    | data _ _ _ _ _ _ hout => exact .inr (.inr (hrow ⟨_, _, hout⟩))
    | metadata _ _ _ _ _ _ hout => exact .inr (.inr (hrow ⟨_, _, hout⟩))
    | plain _ _ _ _ _ _ _ _ _ _ hout => exact .inr (.inr (hrow ⟨_, _, hout⟩))

end Call

def unheard : List Status := [.s115, .s116, .s117, .s124, .s125, .s145, .s147, .s410]

def unreached : List State :=
  [.announcingNewFileWithMore, .acknowledgingNewFileWithMore, .sendingNewFileWithMoreBeta,
    .sendingFakeFileWithMoreAlpha, .sendingFakeFileWithMoreBeta,
    .broadcastingAllReceivedWithMoreAlpha, .broadcastingAllReceivedWithMoreBeta]

/-- The states between the metadata of a file and its stop time. -/
def transferring : List State :=
  [.sendingNewFile, .sendingNewFileWithMoreAlpha, .sendingFakeFile, .broadcastingAllReceived]

theorem unheard_spec : ∀ s, (s ∈ unheard → getEventByStatusCode s = .receivedHeartbeat) ∧
    (s ∉ unheard → ∀ r ∈ settlings s, r ∉ unheard) := by
  decide

theorem heard_rows : ∀ state, state ∉ unreached → ∀ t ∈ usedTransitions state,
    (t.newState = .exit → t.heartbeat ∉ unheard) ∧
    (t.status ∉ unheard → (isLocal t.status = true → state ≠ .announcingNewFile) →
      t.newState ∉ unreached ∧ t.heartbeat ∉ unheard ∧
        (state ∈ transferring → t.newState ≠ .ready)) := by
  decide +kernel

section Call

variable {n : ℕ} {st st' : Station n} {inp : Input} {joined : Session n}

structure Station.Usual (st : Station n) : Prop where
  state : st.bo.state ∉ unreached
  heartbeat : st.heartbeat.status ∉ unheard

theorem Called.usual (hcall : Called st st' inp joined) (hst : st.Usual)
    (hinp : inp.status ∉ unheard) :
    st'.Usual ∧ (st.bo.state ∈ transferring → st'.bo.state ≠ .ready) := by
  have hkept (hbeat : st'.heartbeat = st.heartbeat ∨ st'.heartbeat.status = .s100) :
      st'.heartbeat.status ∉ unheard := by
    rcases hbeat with hbeat | hbeat
    · exact hbeat ▸ hst.heartbeat
    · rw [hbeat]
      decide
  rcases takes_of_next hcall.next with hsame | hleft | ⟨t, ht⟩
  · refine ⟨⟨hsame ▸ hst.state, ?_⟩, fun hbusy hready => ?_⟩
    · cases hcall.beaten with
      | kept _ hbeat => exact hkept hbeat
      | row _ hmove hnew => exact absurd (hnew.symm.trans hsame) hmove
    · rw [← hsame, hready] at hbusy
      exact absurd hbusy (by decide)
  · refine ⟨⟨hleft ▸ by decide, ?_⟩, fun _ => by simp [hleft]⟩
    cases hcall.beaten with
    | kept _ hbeat => exact hkept hbeat
    | row ht _ hnew _ hstatus =>
      rw [hstatus]
      exact (heard_rows _ hst.state _ ht).1 (hnew.symm.trans hleft)
  · obtain ⟨hstate, hheartbeat, hready⟩ :=
      (heard_rows _ hst.state t ht.used).2 ((unheard_spec _).2 hinp _ ht.status) ht.other
    refine ⟨⟨ht.state ▸ hstate, ?_⟩, fun hbusy => ht.state ▸ hready hbusy⟩
    cases hcall.beaten with
    | kept _ hbeat => exact hkept hbeat
    | row _ _ _ hout' hstatus =>
      obtain ⟨out, payload, hout⟩ := ht.told
      rw [hout] at hout'
      obtain ⟨-, hlast⟩ := List.append_inj' hout' rfl
      obtain ⟨hbeat, -⟩ := Effect.heartbeat.inj (List.singleton_injective hlast)
      rw [hstatus, ← hbeat]
      exact hheartbeat

end Call

namespace Flock

variable {n : ℕ} {fl : Flock n} {tr : List (FlockNet n × FlockAct n)} {s s' : FlockNet n}

theorem own_heard (inp : OwnInput) : inp.status ∉ unheard :=
  fun h => inp.own ((unheard_spec _).1 h)

theorem usual_start (i : Fin n) : (fl.protocol.start i).Usual :=
  ⟨show State.ready ∉ unreached by decide, show Status.s100 ∉ unheard by decide⟩

theorem usual_of_run (hrun : Run fl.protocol.next fl.protocol.initial tr s) :
    Protocol.Holds (fun _ _ st => st.Usual) (fun _ _ _ m => m.heartbeat.status ∉ unheard) tr s := by
  refine Protocol.localInvariant usual_start (fun _ _ _ _ h => h)
    (fun _ _ _ _ _ h => h) (fun tr s i inp s' hinv _ hown => ?_)
    (fun _ _ _ _ _ h => h.heartbeat) (fun tr s j i m ms env s' hinv _ hlink htake => ?_) hrun
  · exact ((own_spec fl hown).1.usual (hinv.station i) (own_heard inp)).1
  · obtain ⟨-, hm⟩ := hinv.link j i m (hlink ▸ List.mem_cons_self ..)
    exact ((take_spec fl htake).1.usual (hinv.station i) hm).1

/-- In no run is one of these heartbeats broadcast, or one of these states reached. -/
theorem unheard_of_run (hrun : Run fl.protocol.next fl.protocol.initial tr s) :
    (∀ i, (s.station i).bo.state ∉ unreached ∧ (s.station i).heartbeat.status ∉ unheard) ∧
    ∀ i j, ∀ m ∈ s.link i j, m.heartbeat.status ∉ unheard := by
  have hinv := usual_of_run hrun
  exact ⟨fun i => ⟨(hinv.station i).state, (hinv.station i).heartbeat⟩,
    fun i j m hm => (hinv.link i j m hm).2⟩

/-- No step of a run brings a node from the transfer of a file straight back to `ready`. -/
theorem unaborted_of_run (hrun : Run fl.protocol.next fl.protocol.initial tr s) {act : FlockAct n}
    (hs : fl.protocol.next s act = some s') {i : Fin n}
    (hbusy : (s.station i).bo.state ∈ transferring) : (s'.station i).bo.state ≠ .ready := by
  have hinv := usual_of_run hrun
  cases nodeStep_of_next hs i with
  | idle _ hsame =>
    rw [hsame]
    intro hready
    rw [hready] at hbusy
    exact absurd hbusy (by decide)
  | @own inp hcalled => exact (hcalled.usual (hinv.station i) (own_heard inp)).2 hbusy
  | @take j m ms env hlink hcalled =>
    obtain ⟨-, hm⟩ := hinv.link j i m (hlink ▸ List.mem_cons_self ..)
    exact (hcalled.usual (hinv.station i) hm).2 hbusy

end Flock

theorem sendTime_spec : ∀ s, s ≠ .s132 → .s132 ∉ settlings s := by
  decide

theorem held_rows :
    (∀ state ∈ [.promotingNewFileMetadataWithMore, .exit], ∀ t ∈ usedTransitions state,
      t.newState ∈ [State.promotingNewFileMetadataWithMore, .exit]) ∧
    ∀ state ∈ [.sendingNewFileMetadataWithMore, .exit], ∀ t ∈ usedTransitions state,
      t.status ≠ .s132 → t.newState ∈ [State.sendingNewFileMetadataWithMore, .exit] := by
  decide

namespace Flock

variable {n : ℕ} {fl : Flock n} {s s' : FlockNet n}

theorem takes_of_step {act : FlockAct n} (hs : fl.protocol.next s act = some s') (i : Fin n) :
    (s'.station i).bo.state = (s.station i).bo.state ∨ (s'.station i).bo.state = .exit ∨
    ∃ inp ∈ fl.input s act i, ∃ t, Takes (s.station i).bo (s'.station i).bo inp t := by
  cases hinput : fl.input s act i with
  | none =>
    cases nodeStep_of_next hs i with
    | idle _ hsame => exact .inl (by rw [hsame])
    | own => simp [input] at hinput
    | take hlink => simp [input, hlink] at hinput
  | some inp =>
    rcases takes_of_next (bo_next hs hinput) with hsame | hleft | htakes
    · exact .inl hsame
    · exact .inr (.inl hleft)
    · exact .inr (.inr ⟨inp, rfl, htakes⟩)

theorem stays_of_run {later : List (FlockNet n × FlockAct n)} {states : List State} {i : Fin n}
    (usual : Status → Prop) (hexit : .exit ∈ states)
    (hrows : ∀ state ∈ states, ∀ t ∈ usedTransitions state, usual t.status → t.newState ∈ states)
    (hlater : Run fl.protocol.next s later s')
    (husual : ∀ p ∈ later, ∀ inp ∈ fl.input p.1 p.2 i, ∀ r ∈ settlings inp.status, usual r)
    (h : (s.station i).bo.state ∈ states) : (s'.station i).bo.state ∈ states := by
  induction hlater with
  | nil => exact h
  | @snoc later s₁ s' act hlater hs ih =>
    rw [List.forall_mem_cons] at husual
    have hbefore := ih husual.2
    rcases takes_of_step hs i with hsame | hleft | ⟨inp, hinp, t, ht⟩
    · exact hsame ▸ hbefore
    · exact hleft ▸ hexit
    · exact ht.state ▸ hrows _ hbefore t ht.used (husual.1 inp hinp _ ht.status)

/-- A node that has the metadata of the first of several files waits for ever, and the one that
sent it goes on only when it is told a 132. -/
theorem held_of_run {later : List (FlockNet n × FlockAct n)}
    (hlater : Run fl.protocol.next s later s') (i : Fin n) :
    ((s.station i).bo.state = .promotingNewFileMetadataWithMore →
      (s'.station i).bo.state = .promotingNewFileMetadataWithMore ∨
        (s'.station i).bo.state = .exit) ∧
    ((s.station i).bo.state = .sendingNewFileMetadataWithMore →
      (∀ p ∈ later, ∀ inp ∈ fl.input p.1 p.2 i, inp.status ≠ .s132) →
      (s'.station i).bo.state = .sendingNewFileMetadataWithMore ∨
        (s'.station i).bo.state = .exit) := by
  refine ⟨fun h => ?_, fun h huntold => ?_⟩
  · have hstays := stays_of_run (fun _ => True) (by simp)
      (fun state hstate t ht _ => held_rows.1 state hstate t ht) hlater
      (fun _ _ _ _ _ _ => trivial) (by simp [h] : (s.station i).bo.state ∈ _)
    simpa using hstays
  · have hstays := stays_of_run (· ≠ .s132) (by simp) held_rows.2 hlater
      (fun p hp inp hinp r hr => ?_) (by simp [h] : (s.station i).bo.state ∈ _)
    · simpa using hstays
    · rintro rfl
      exact sendTime_spec _ (huntold p hp inp hinp) hr

end Flock

section Waits

variable {td td' : Tandem} {i : TandemInput}

theorem metadataWithMore_rows : ∀ state ∈ [.sendingNewFileMetadataWithMore, .exit],
    ∀ t ∈ usedTransitions state, t.newState ∈ [State.sendingNewFileMetadataWithMore, .exit] ∨
      t.newState = .sendingNewFileWithMoreAlpha := by
  decide

structure Tandem.Waits (td : Tandem) : Prop where
  inStep : td.InStep
  state : td.boxoffice.state ∈ [.sendingNewFileMetadataWithMore, .exit]

theorem waits_step (htd : td.Waits) (horderly : td.Orderly i) (h : td.next i = some td') :
    td'.Waits := by
  have htd' := Tandem.inStep_step htd.inStep horderly h
  refine ⟨htd', ?_⟩
  rcases boxoffice_of_step htd.inStep horderly h with hsame | ⟨inp, hnext⟩
  · exact hsame ▸ htd.state
  · rcases next_state hnext with hsame | ⟨t, ht, hnew⟩
    · exact hsame ▸ htd.state
    · refine hnew ▸ (metadataWithMore_rows _ htd.state t ht).resolve_right fun halpha => ?_
      -- no state of the link goes with it
      obtain ⟨link, hlink, -⟩ := htd'.link
      rw [hnew, halpha] at hlink
      exact absurd hlink List.not_mem_nil

/-- With its dispatcher, a boxoffice that has sent the metadata of the first of several files waits
for a 132 for ever: the dispatcher waits for an order that it is not given. -/
theorem waits_of_run {bo : Boxoffice} {status : Status} {signal : ℤ × ℤ}
    {tr later : List (Tandem × TandemInput)} (hready : bo.state = .ready)
    (hstatus : startsTransfer status = false)
    (hrun : Run Tandem.next (.initial bo status signal) tr td) (hok : ∀ p ∈ tr, p.1.Orderly p.2)
    (hstate : td.boxoffice.state = .sendingNewFileMetadataWithMore)
    (hlater : Run Tandem.next td later td') (hok' : ∀ p ∈ later, p.1.Orderly p.2) :
    td'.boxoffice.state = .exit ∨ td'.boxoffice.state = .sendingNewFileMetadataWithMore ∧
      td'.dispatcher.phase = .waiting ∧ td'.orders = [] ∧ td'.notices = [] := by
  have hstart : td.Waits := ⟨inStep_of_run hready hstatus hrun hok, by simp [hstate]⟩
  have hlast : td'.Waits :=
    hlater.invariant_of_steps hstart (fun _ _ _ hwaits hi hn => waits_step hwaits hi hn) hok'
  have hcases := hlast.state
  rw [List.mem_cons, List.mem_singleton] at hcases
  refine hcases.symm.imp_right fun hwaits => ⟨hwaits, ?_⟩
  obtain ⟨link, hlink, hat⟩ := hlast.inStep.link
  rw [hwaits] at hlink
  obtain rfl := List.mem_singleton.1 hlink
  cases hat with
  | quiet hphase horders hnotices => exact ⟨hphase, horders, hnotices⟩

end Waits

namespace Sample

def round : List (FlockAct 3) :=
  [tells n₀, hears n₁ n₀, hears n₂ n₀, tells n₁, tells n₂, hears n₀ n₁, hears n₀ n₂]

/-- Node `n₀` finds two new files while it announces a change of metadata. -/
def twoFiles : List (FlockAct 3) :=
  [changes n₀ 'f', modifies n₀ 'g', modifies n₀ 'h'] ++ round ++ round ++ round ++ round

def twoFilesNet : FlockNet 3 := after flock.protocol.next flock.protocol.initial twoFiles

theorem twoFiles_hold : (runAll flock.protocol.next flock.protocol.initial twoFiles).isSome = true ∧
    (runAll flock.protocol.next twoFilesNet round).isSome = true ∧
    (twoFilesNet.station 1).bo.state = .promotingNewFileMetadataWithMore ∧
    (twoFilesNet.station 0).bo.state = .sendingNewFileMetadataWithMore ∧
    ∀ p ∈ record flock.protocol.next twoFilesNet round [],
      ∀ inp ∈ flock.input p.1 p.2 0, inp.status ≠ .s132 := by
  decide +kernel

end Sample

theorem unheard_of_run_twoFiles :
    (∀ i, (Sample.twoFilesNet.station i).bo.state ∉ unreached ∧
      (Sample.twoFilesNet.station i).heartbeat.status ∉ unheard) ∧
    ∀ i j, ∀ m ∈ Sample.twoFilesNet.link i j, m.heartbeat.status ∉ unheard :=
  Flock.unheard_of_run (run_after Sample.twoFiles_hold.1)

theorem held_of_run_twoFiles :
    let s' := after Sample.flock.protocol.next Sample.twoFilesNet Sample.round
    ((s'.station 1).bo.state = .promotingNewFileMetadataWithMore ∨
      (s'.station 1).bo.state = .exit) ∧
    ((s'.station 0).bo.state = .sendingNewFileMetadataWithMore ∨
      (s'.station 0).bo.state = .exit) := by
  intro s'
  have hlater : Run Sample.flock.protocol.next Sample.twoFilesNet
      (record Sample.flock.protocol.next Sample.twoFilesNet Sample.round []) s' :=
    run_after Sample.twoFiles_hold.2.1
  obtain ⟨-, -, hfollower, hcoordinator, huntold⟩ := Sample.twoFiles_hold
  exact ⟨(Flock.held_of_run hlater 1).1 hfollower,
    (Flock.held_of_run hlater 0).2 hcoordinator huntold⟩

namespace Sample

theorem metadataHeard_conforming : Status.s141 ∈ conformingStatuses := by decide

theorem promotionHeard_conforming : Status.s135 ∈ conformingStatuses := by decide

def twoFilesTandem : List TandemInput :=
  (changeAndFiles ++ [heard .s141 metadataHeard_conforming (.fill 65)]).map .hears

def acknowledgedAgain : List TandemInput :=
  [.hears (heard .s135 promotionHeard_conforming (.fill 65))]

end Sample

theorem waits_of_run_twoFilesTandem :
    let td' := after Tandem.next (after Tandem.next Sample.tandem Sample.twoFilesTandem)
      Sample.acknowledgedAgain
    td'.boxoffice.state = .exit ∨ td'.boxoffice.state = .sendingNewFileMetadataWithMore ∧
      td'.dispatcher.phase = .waiting ∧ td'.orders = [] ∧ td'.notices = [] := by
  intro td'
  let td := after Tandem.next Sample.tandem Sample.twoFilesTandem
  have hfacts : (runAll Tandem.next Sample.tandem Sample.twoFilesTandem).isSome = true ∧
      (∀ p ∈ record Tandem.next Sample.tandem Sample.twoFilesTandem [], p.1.Orderly p.2) ∧
      td.boxoffice.state = .sendingNewFileMetadataWithMore ∧
      (runAll Tandem.next td Sample.acknowledgedAgain).isSome = true ∧
      ∀ p ∈ record Tandem.next td Sample.acknowledgedAgain [], p.1.Orderly p.2 := by
    decide +kernel
  obtain ⟨hall, hok, hstate, hall', hok'⟩ := hfacts
  exact waits_of_run rfl (by decide) (run_after hall) hok hstate (run_after hall') hok'

theorem unaborted_of_run_fileSession :
    let s' := after Sample.flock.protocol.next Sample.flock.protocol.initial
      (Sample.fileSession ++ [Sample.hears 1 0])
    (s'.station 1).bo.state ≠ .ready := by
  have hfacts : (runAll Sample.flock.protocol.next Sample.flock.protocol.initial
      (Sample.fileSession ++ [Sample.hears 1 0])).isSome = true ∧
      ((after Sample.flock.protocol.next Sample.flock.protocol.initial
        Sample.fileSession).station 1).bo.state ∈ transferring := by
    decide +kernel
  intro s'
  have hrun : Run Sample.flock.protocol.next Sample.flock.protocol.initial
      (record Sample.flock.protocol.next Sample.flock.protocol.initial Sample.fileSession [])
      (after Sample.flock.protocol.next Sample.flock.protocol.initial Sample.fileSession) :=
    (run_next_after _ _ _ _ hfacts.1).1
  have hs : Sample.flock.protocol.next
      (after Sample.flock.protocol.next Sample.flock.protocol.initial Sample.fileSession)
      (Sample.hears 1 0) = some s' := next_after _ hfacts.1
  exact Flock.unaborted_of_run hrun hs hfacts.2

end Flocksy
