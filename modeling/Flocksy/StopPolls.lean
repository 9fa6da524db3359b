import Flocksy.DispatcherRuns

/-!
# The end of a transfer

`synchronizingStop` compares the clock with `timing_offset_`, which is the last stop time that came
in since the order, or, before one came, how long the order made the dispatcher sleep.
`waiting_for_stop_` is never cleared, so from the second transfer on only the clock keeps it from
stopping at once.
-/

namespace Flocksy

open ByteStream Fsm Runs

def Dispatcher.delay (d : Dispatcher) (inp : DispatcherInput) : Option UInt64 :=
  match d.begins inp, inp with
  | true, .message text env => (dispatcherTiming d.currentStatus d.signal text).map (· - env.now)
  | _, _ => none

def Dispatcher.stopTold (d : Dispatcher) (inp : DispatcherInput) : Option UInt64 :=
  if d.phase.isStopping then inp.stopTime else none

def toldStop (tr : List (Dispatcher × DispatcherInput)) : Option UInt64 :=
  latest Dispatcher.begins Dispatcher.stopTold tr

def orderDelay (tr : List (Dispatcher × DispatcherInput)) : Option UInt64 :=
  latest Dispatcher.begins Dispatcher.delay tr

def EverTold (tr : List (Dispatcher × DispatcherInput)) : Prop :=
  ∃ p ∈ tr, (p.1.stopTold p.2).isSome = true

theorem dispatcherTiming_of_order {currentStatus : Status} {old : ℤ × ℤ} {text : Bytes}
    {fs : FileSystem} {o : Order} (h : dispatcherOrder currentStatus old text fs = some o) :
    dispatcherTiming currentStatus old text = some o.timingOffset := by
  rcases hsignal : readSignal old text with ⟨msgType, msgSignal, s⟩
  simp only [dispatcherOrder, hsignal] at h
  simp only [dispatcherTiming, hsignal]
  generalize (if msgType = sigtypeFsm then statusOfInt msgSignal else currentStatus) = status at h ⊢
  split_ifs at h with hstop hstatus
  obtain ⟨x, -, rfl⟩ := Option.map_eq_some_iff.1 h
  rw [if_neg hstop, if_pos (or_assoc.1 (.inl hstatus))]

theorem Turned.delay_of_begins {d d' : Dispatcher} {inp : DispatcherInput}
    {out : List DispatcherEffect} (h : Turned d inp d' out) (hmark : d.begins inp = true) :
    d.delay inp = some d'.timingOffset := by
  have hphase := (h.begins_iff.1 hmark).1
  cases h with
  | sends _ _ _ hread => simp [Dispatcher.delay, hmark, dispatcherTiming_of_order hread]
  | follows _ _ hread => simp [Dispatcher.delay, hmark, hread]
  | interrupted hnone =>
    rcases hnone with ⟨-, hnone⟩ | ⟨hother, -⟩
    · simp [Dispatcher.begins, hphase, hnone] at hmark
    · simp [hphase] at hother
  | idles _ hnone => simp [Dispatcher.begins, hphase, hnone] at hmark
  | package hother => simp [hphase] at hother
  | lastPackage hother => simp [hphase] at hother
  | told hother => simp [hphase] at hother
  | drops hother => simp [hphase] at hother
  | waits hother => simp [hphase] at hother
  | stops hother => simp [hphase] at hother

/-- What `timing_offset_` and `waiting_for_stop_` hold. -/
structure StopClock (tr : List (Dispatcher × DispatcherInput)) (d : Dispatcher) : Prop where
  told : d.waitingForStop = true ↔ EverTold tr
  clock : d.phase ≠ .waiting → d.phase ≠ .ended →
    (toldStop tr).or (orderDelay tr) = some d.timingOffset

section Step

variable {tr : List (Dispatcher × DispatcherInput)} {d d' : Dispatcher} {inp : DispatcherInput}
  {out : List DispatcherEffect}

theorem everTold_cons :
    EverTold ((d, inp) :: tr) ↔ (d.stopTold inp).isSome = true ∨ EverTold tr := by
  simp [EverTold]

theorem stopTold_of_stopping (hphase : d.phase = .stopping) : d.stopTold inp = inp.stopTime := by
  simp [Dispatcher.stopTold, hphase, DispatcherPhase.isStopping]

theorem stopTold_of_other (hphase : d.phase ≠ .stopping) : d.stopTold inp = none := by
  rw [Dispatcher.stopTold, if_neg (mt DispatcherPhase.isStopping_iff.1 hphase)]

theorem StopClock.keep (h : StopClock tr d) (hmark : d.begins inp = false)
    (hnone : d.stopTold inp = none) (hwaiting : d'.waitingForStop = d.waitingForStop)
    (hclock : d'.phase ≠ .waiting → d'.phase ≠ .ended →
      d.phase ≠ .waiting ∧ d.phase ≠ .ended ∧ d'.timingOffset = d.timingOffset) :
    StopClock ((d, inp) :: tr) d' := by
  have hdelay : d.delay inp = none := by
    unfold Dispatcher.delay
    rw [hmark]
  refine ⟨?_, fun hw he => ?_⟩
  · rw [everTold_cons, hnone, hwaiting, h.told]
    simp
  · obtain ⟨hw', he', htiming⟩ := hclock hw he
    rw [toldStop, latest_of_neither hmark hnone, orderDelay, latest_of_neither hmark hdelay, htiming]
    exact h.clock hw' he'

theorem StopClock.order (h : StopClock tr d) (hphase : d.phase = .waiting)
    (hmark : d.begins inp = true) (hdelay : d.delay inp = some d'.timingOffset)
    (hwaiting : d'.waitingForStop = d.waitingForStop) : StopClock ((d, inp) :: tr) d' := by
  have hnone : d.stopTold inp = none := stopTold_of_other (by simp [hphase])
  refine ⟨?_, fun _ _ => ?_⟩
  · rw [everTold_cons, hnone, hwaiting, h.told]
    simp
  · rw [toldStop, latest_of_mark hmark, hnone, orderDelay, latest_of_mark hmark, hdelay,
      Option.none_or]

theorem stopClock_step (h : StopClock tr d) (hd : d.Poised) (hs : d.next inp = some d') :
    StopClock ((d, inp) :: tr) d' := by
  have hturned := turned_of_turn hd.waiting (turn_of_next hs)
  have hbegins := hturned.begins_iff
  have hdelay := hturned.delay_of_begins
  generalize d.effects inp = out at hturned
  cases hturned with
  | interrupted hphase =>
    refine h.keep (by rw [← Bool.not_eq_true, hbegins]; simp) ?_ rfl (by simp)
    rcases hphase with ⟨hphase, -⟩ | ⟨hphase, hnone⟩
    · exact stopTold_of_other (by simp [hphase])
    · rwa [stopTold_of_stopping hphase]
  | idles hphase horder =>
    exact h.keep (by rw [← Bool.not_eq_true, hbegins]; simp [hphase])
      (stopTold_of_other (by simp [hphase])) rfl (by simp [hphase])
  | @sends text env signal status o hphase horder hnotifies hread =>
    have hmark : d.begins (.message text env) = true := by simp [hbegins, hphase]
    exact h.order hphase hmark (hdelay hmark) rfl
  | @follows text env signal timing hphase horder hread =>
    have hmark : d.begins (.message text env) = true := by simp [hbegins, hphase]
    exact h.order hphase hmark (hdelay hmark) rfl
  | package hphase =>
    exact h.keep (by rw [← Bool.not_eq_true, hbegins]; simp [hphase])
      (stopTold_of_other (by simp [hphase])) rfl (by simp [hphase])
  | lastPackage hphase =>
    exact h.keep (by rw [← Bool.not_eq_true, hbegins]; simp [hphase])
      (stopTold_of_other (by simp [hphase])) rfl (by simp [hphase])
  | @told text env timing hphase htime =>
    have hmark : d.begins (.message text env) = false := by
      rw [← Bool.not_eq_true, hbegins]
      simp [hphase]
    have htold : d.stopTold (.message text env) = some timing := by
      rwa [stopTold_of_stopping hphase]
    refine ⟨?_, fun _ _ => ?_⟩
    · simp [everTold_cons, htold]
    · rw [toldStop, latest_of_value hmark htold, Option.some_or]
  | drops hphase hnone =>
    exact h.keep (by rw [← Bool.not_eq_true, hbegins]; simp [hphase])
      (by rwa [stopTold_of_stopping hphase]) rfl (by simp [hphase])
  | waits hphase =>
    exact h.keep (by rw [← Bool.not_eq_true, hbegins]; simp [hphase])
      (stopTold_of_stopping hphase) rfl (by simp [hphase])
  | stops hphase =>
    exact h.keep (by rw [← Bool.not_eq_true, hbegins]; simp [hphase])
      (stopTold_of_stopping hphase) rfl (by simp)

end Step

section Run

variable {d : Dispatcher} {status : Status} {signal : ℤ × ℤ}
  {tr : List (Dispatcher × DispatcherInput)}

theorem stopClock_of_run (hstatus : startsTransfer status = false)
    (hrun : Run Dispatcher.next (.initial status signal) tr d) : StopClock tr d := by
  induction hrun with
  | nil => exact ⟨by simp [Dispatcher.initial, EverTold], by simp [Dispatcher.initial]⟩
  | snoc hrun hs ih => exact stopClock_step ih (poised_of_run hstatus hrun) hs

theorem Turned.stopped_iff {d' : Dispatcher} {inp : DispatcherInput} {out : List DispatcherEffect}
    (h : Turned d inp d' out) : .boxoffice (dispatcherMessage .s156) ∈ out ↔
      d.phase = .stopping ∧ ∃ now, inp = .quiet now ∧ d.waitingForStop = true ∧
        now - d.timingOffset ≤ 1000000 := by
  have hother : dispatcherMessage .s156 ≠ dispatcherMessage .s132 := by decide
  cases h with
  | interrupted => simp
  | idles => simp
  | sends => simp [hother]
  | follows => simp [hother]
  | package => simp
  | lastPackage => simp
  | told => simp
  | drops => simp
  | waits hphase hgoes =>
    simp only [List.mem_singleton, reduceCtorEq, false_iff]
    rintro ⟨-, now', hnow, hstop⟩
    obtain rfl := DispatcherInput.quiet.inj hnow
    exact hgoes hstop
  | @stops now hphase hwaiting hnow => simp [hphase, hwaiting, hnow]

/-- A transfer ends at a quiet poll, and at the first one at which the clock shows the last stop
time or up to 1000 s more; with no stop time since the order this is the time that the order made
the dispatcher sleep, if an earlier transfer was told one. -/
theorem stopped_iff_of_run (hstatus : startsTransfer status = false)
    (hrun : Run Dispatcher.next (.initial status signal) tr d) (inp : DispatcherInput) :
    .boxoffice (dispatcherMessage .s156) ∈ d.effects inp ↔
      d.phase = .stopping ∧ ∃ now, inp = .quiet now ∧
        ((∃ stop, toldStop tr = some stop ∧ now - stop ≤ 1000000) ∨
          (toldStop tr = none ∧ EverTold tr ∧
            ∃ delay, orderDelay tr = some delay ∧ now - delay ≤ 1000000)) := by
  have hpoised := poised_of_run hstatus hrun
  have hclock := stopClock_of_run hstatus hrun
  have hcompare (now : UInt64) (hphase : d.phase = .stopping) :
      (d.waitingForStop = true ∧ now - d.timingOffset ≤ 1000000) ↔
        (∃ stop, toldStop tr = some stop ∧ now - stop ≤ 1000000) ∨
          (toldStop tr = none ∧ EverTold tr ∧
            ∃ delay, orderDelay tr = some delay ∧ now - delay ≤ 1000000) := by
    have hcurrent := hclock.clock (by simp [hphase]) (by simp [hphase])
    rw [hclock.told]
    cases hstop : toldStop tr with
    | some stop =>
      rw [hstop, Option.some_or, Option.some_inj] at hcurrent
      obtain ⟨p, hp, hvalue⟩ := exists_of_latest hstop
      have htold : EverTold tr := ⟨p, hp, by rw [hvalue]; rfl⟩
      simp [hcurrent, htold]
    | none =>
      rw [hstop, Option.none_or] at hcurrent
      simp [hcurrent]
  cases hturn : d.turn inp with
  | none =>
    have hnone : d.effects inp = [] := by rw [Dispatcher.effects, hturn]; rfl
    rw [hnone]
    refine ⟨by simp, ?_⟩
    rintro ⟨hphase, now, rfl, -⟩
    simp [Dispatcher.turn, hphase] at hturn
  | some x =>
    obtain ⟨d', out⟩ := x
    have hout : d.effects inp = out := by rw [Dispatcher.effects, hturn]; rfl
    rw [hout, (turned_of_turn hpoised.waiting hturn).stopped_iff]
    refine and_congr_right fun hphase => exists_congr fun now => and_congr_right fun _ => ?_
    exact hcompare now hphase

end Run

theorem stopped_iff_of_run_transfer :
    .boxoffice (dispatcherMessage .s156) ∈
        (after Dispatcher.next Sample.dispatcher Sample.transfer).effects (.quiet 9500) ↔
      (after Dispatcher.next Sample.dispatcher Sample.transfer).phase = .stopping ∧
        ∃ now, DispatcherInput.quiet 9500 = .quiet now ∧
        ((∃ stop, toldStop (record Dispatcher.next Sample.dispatcher Sample.transfer []) = some stop ∧
          now - stop ≤ 1000000) ∨
          (toldStop (record Dispatcher.next Sample.dispatcher Sample.transfer []) = none ∧
            EverTold (record Dispatcher.next Sample.dispatcher Sample.transfer []) ∧
            ∃ delay, orderDelay (record Dispatcher.next Sample.dispatcher Sample.transfer []) =
              some delay ∧ now - delay ≤ 1000000)) :=
  stopped_iff_of_run (by decide) Sample.run_transfer (.quiet 9500)

end Flocksy
