import Flocksy.FileData
import Flocksy.Foundation.Outputs
import Flocksy.StartTimes
import Flocksy.WireLengths

/-!
# The dispatcher from order to order

`Dispatcher::run` waits for messages of the boxoffice and obeys those of status 122, 177 and 130.
It sleeps until the time that it is told, reports 132, sends the packages of a file if it is the
one that sends, and then dummies until `synchronizingStop` finds at a quiet poll that the time to
stop has come; it reports 156 and waits again. A step of a run is one turn of one of the three
loops, so a loop that does not end is a run that does not come back to `waiting`.
-/

namespace Flocksy

open ByteStream Fsm Runs

/-- The loop that the dispatcher is in. `sending` keeps what is in the stream of the next
package before the package is written to it. -/
inductive DispatcherPhase where
  | waiting
  | sending (file : File) (message : Bytes) (loop : SendLoop)
  | stopping
  | ended

def DispatcherPhase.isStopping : DispatcherPhase → Bool
  | .stopping => true
  | _ => false

theorem DispatcherPhase.isStopping_iff {phase : DispatcherPhase} :
    phase.isStopping = true ↔ phase = .stopping := by
  cases phase <;> simp [isStopping]

/-- `signal` holds `msg_type` and `msg_signal` of `run`. -/
structure Dispatcher where
  currentStatus : Status
  timingOffset : UInt64
  waitingForStop : Bool
  signal : ℤ × ℤ
  phase : DispatcherPhase

/-- What a turn finds outside: the clock, the files, the stream that `openFile` opens, and the
variables of `synchronizingStop`, which are not initialised. -/
structure DispatcherEnv where
  now : UInt64
  fs : FileSystem
  opened : OpenFile
  uninitialised : ℤ × ℤ

/-- `quiet` is a poll of `s_recv_noblock` that returns 0. The memory of a package is what follows
the bytes that were read in its buffer. -/
inductive DispatcherInput where
  | message (text : Bytes) (env : DispatcherEnv)
  | quiet (now : UInt64)
  | package (memory : Bytes)

inductive DispatcherEffect where
  | boxoffice (text : Bytes)
  | publisher (text : Bytes)
  | disk (op : FileOp)
  deriving DecidableEq

/-- The message of one turn of `while (*more)`. -/
def SendLoop.message (f : File) (header : Bytes) (l : SendLoop) (memory : Bytes) : Bytes :=
  let data := (f.readFileData l.file 4096 l.offset l.more).1
  let after := l.turn f
  packageMessage header l.offset.toNat after.dataSize.toNat after.more
    (padTo after.dataSize.toNat (data ++ memory))

namespace Dispatcher

/-- `Dispatcher(z_ctx, status)`. -/
def initial (status : Status) (signal : ℤ × ℤ) : Dispatcher := ⟨status, -1, false, signal, .waiting⟩

/-- A message in `run`. An exception of the file's `operator>>` is none of its outcomes. -/
def runTurn (d : Dispatcher) (text : Bytes) (env : DispatcherEnv) :
    Option (Dispatcher × List DispatcherEffect) :=
  let (msgType, msgSignal, s) := readSignal d.signal text
  let d := { d with signal := (msgType, msgSignal) }
  if interrupts msgType msgSignal then some ({ d with phase := .ended }, [])
  else
    let d := { d with
      currentStatus := if msgType = sigtypeFsm then statusOfInt msgSignal else d.currentStatus }
    if d.currentStatus = .s122 ∨ d.currentStatus = .s177 then
      let (timing, s) := (s.seekCur 1).read 8
      let (boxHash, s) := s.read genericHashLen
      let (boxDir, s) := s.extractWord
      ((File.blank boxDir (Hash.ofBytes boxHash)).read (s.seekCur 1) env.fs).map fun x =>
        ({ d with
            currentStatus := .s200
            timingOffset := UInt64.ofNat (ofBigEndian (padTo 8 timing)) - env.now
            phase := .sending x.file (statusHeader .s200) (.opened env.opened) },
          .boxoffice (dispatcherMessage .s132) :: x.ops.map .disk)
    else if d.currentStatus = .s130 then
      let (timing, _) := (s.seekCur 1).read 8
      some ({ d with
          currentStatus := .s210
          timingOffset := UInt64.ofNat (ofBigEndian (padTo 8 timing)) - env.now
          phase := .stopping },
        [.boxoffice (dispatcherMessage .s132)])
    else some (d, [])

/-- One turn of `while (*more)`. -/
def packageTurn (d : Dispatcher) (file : File) (message : Bytes) (loop : SendLoop)
    (memory : Bytes) : Dispatcher × List DispatcherEffect :=
  let after := loop.turn file
  (if after.more then { d with phase := .sending file [] after }
    else { d with currentStatus := .s210, phase := .stopping },
    [.publisher (loop.message file message memory)])

/-- A message in `synchronizingStop`. -/
def stopTurn (d : Dispatcher) (text : Bytes) (env : DispatcherEnv) :
    Dispatcher × List DispatcherEffect :=
  let (msgType, msgSignal, s) := readSignal env.uninitialised text
  if interrupts msgType msgSignal then ({ d with phase := .ended }, [])
  else
    let d :=
      if msgType = sigtypeFsm ∧ msgSignal = Status.s155.toNat then
        let (timing, _) := (s.seekCur 1).read 8
        { d with
          timingOffset := UInt64.ofNat (ofBigEndian (padTo 8 timing)), waitingForStop := true }
      else d
    (d, [.publisher (sendFakeData d.currentStatus)])

/-- A quiet poll in `synchronizingStop`. -/
def quietTurn (d : Dispatcher) (now : UInt64) : Dispatcher × List DispatcherEffect :=
  if d.waitingForStop = true ∧ now - d.timingOffset ≤ 1000000 then
    ({ d with phase := .waiting }, [.boxoffice (dispatcherMessage .s156)])
  else (d, [.publisher (sendFakeData d.currentStatus)])

def turn (d : Dispatcher) : DispatcherInput → Option (Dispatcher × List DispatcherEffect)
  | .message text env =>
    match d.phase with
    | .waiting => d.runTurn text env
    | .stopping => some (d.stopTurn text env)
    | _ => none
  | .quiet now =>
    match d.phase with
    | .stopping => some (d.quietTurn now)
    | _ => none
  | .package memory =>
    match d.phase with
    | .sending file message loop => some (d.packageTurn file message loop memory)
    | _ => none

def next (d : Dispatcher) (inp : DispatcherInput) : Option Dispatcher := (d.turn inp).map Prod.fst

def effects (d : Dispatcher) (inp : DispatcherInput) : List DispatcherEffect :=
  ((d.turn inp).map Prod.snd).getD []

end Dispatcher

def startsTransfer (status : Status) : Bool := status = .s122 ∨ status = .s177 ∨ status = .s130

def Dispatcher.orderIn (d : Dispatcher) (text : Bytes) : Option Status :=
  let (msgType, msgSignal, _) := readSignal d.signal text
  if msgType = sigtypeFsm ∧ startsTransfer (statusOfInt msgSignal) = true then
    some (statusOfInt msgSignal)
  else none

def Dispatcher.begins (d : Dispatcher) (inp : DispatcherInput) : Bool :=
  match d.phase, inp with
  | .waiting, .message text _ => (d.orderIn text).isSome
  | _, _ => false

def DispatcherInput.stopTime : DispatcherInput → Option UInt64
  | .message text env =>
    let (msgType, msgSignal, s) := readSignal env.uninitialised text
    if msgType = sigtypeFsm ∧ msgSignal = Status.s155.toNat then
      some (UInt64.ofNat (ofBigEndian (padTo 8 ((s.seekCur 1).read 8).1)))
    else none
  | _ => none

/-- The turns, where a dispatcher that waits does so with a status that starts nothing. -/
inductive Turned (d : Dispatcher) :
    DispatcherInput → Dispatcher → List DispatcherEffect → Prop where
  | interrupted {text : Bytes} {env : DispatcherEnv} {signal : ℤ × ℤ} :
      d.phase = .waiting ∧ d.orderIn text = none ∨
        d.phase = .stopping ∧ (DispatcherInput.message text env).stopTime = none →
      Turned d (.message text env) { d with signal := signal, phase := .ended } []
  | idles {text : Bytes} {env : DispatcherEnv} {signal : ℤ × ℤ} {status : Status} :
      d.phase = .waiting → d.orderIn text = none → startsTransfer status = false →
      Turned d (.message text env) { d with currentStatus := status, signal := signal } []
  | sends {text : Bytes} {env : DispatcherEnv} {signal : ℤ × ℤ} {status : Status} {o : Order} :
      d.phase = .waiting → d.orderIn text = some status → notifies status = true →
      dispatcherOrder d.currentStatus d.signal text env.fs = some o →
      Turned d (.message text env)
        ⟨.s200, o.timingOffset - env.now, d.waitingForStop, signal,
          .sending o.file.file (statusHeader .s200) (.opened env.opened)⟩
        (.boxoffice (dispatcherMessage .s132) :: o.file.ops.map .disk)
  | follows {text : Bytes} {env : DispatcherEnv} {signal : ℤ × ℤ} {timing : UInt64} :
      d.phase = .waiting → d.orderIn text = some .s130 →
      dispatcherTiming d.currentStatus d.signal text = some timing →
      Turned d (.message text env) ⟨.s210, timing - env.now, d.waitingForStop, signal, .stopping⟩
        [.boxoffice (dispatcherMessage .s132)]
  | package {memory : Bytes} {f : File} {header : Bytes} {l : SendLoop} :
      d.phase = .sending f header l → (l.turn f).more = true →
      Turned d (.package memory) { d with phase := .sending f [] (l.turn f) }
        [.publisher (l.message f header memory)]
  | lastPackage {memory : Bytes} {f : File} {header : Bytes} {l : SendLoop} :
      d.phase = .sending f header l → (l.turn f).more = false →
      Turned d (.package memory) { d with currentStatus := .s210, phase := .stopping }
        [.publisher (l.message f header memory)]
  | told {text : Bytes} {env : DispatcherEnv} {timing : UInt64} : d.phase = .stopping →
      (DispatcherInput.message text env).stopTime = some timing →
      Turned d (.message text env) { d with timingOffset := timing, waitingForStop := true }
        [.publisher (sendFakeData d.currentStatus)]
  | drops {text : Bytes} {env : DispatcherEnv} : d.phase = .stopping →
      (DispatcherInput.message text env).stopTime = none →
      Turned d (.message text env) d [.publisher (sendFakeData d.currentStatus)]
  | waits {now : UInt64} : d.phase = .stopping →
      ¬ (d.waitingForStop = true ∧ now - d.timingOffset ≤ 1000000) →
      Turned d (.quiet now) d [.publisher (sendFakeData d.currentStatus)]
  | stops {now : UInt64} : d.phase = .stopping → d.waitingForStop = true →
      now - d.timingOffset ≤ 1000000 →
      Turned d (.quiet now) { d with phase := .waiting } [.boxoffice (dispatcherMessage .s156)]

theorem startsTransfer_iff {status : Status} : startsTransfer status = true ↔
    (status = .s122 ∨ status = .s177) ∨ status = .s130 := by
  simp [startsTransfer, or_assoc]

theorem notifies_iff {status : Status} :
    notifies status = true ↔ status = .s122 ∨ status = .s177 := by
  cases status <;> decide

theorem ne_fsm_of_interrupts {msgType msgSignal : ℤ} (h : interrupts msgType msgSignal = true) :
    msgType ≠ sigtypeFsm := by
  have hinterrupt : msgType = sigtypeLife ∧ msgSignal = siglifeInterrupt := by
    simpa [interrupts] using h
  rw [hinterrupt.1]
  decide

section Turn

variable {d d' : Dispatcher} {inp : DispatcherInput} {out : List DispatcherEffect}

theorem orderIn_eq {text : Bytes} {msgType msgSignal : ℤ} {s : Stream}
    (hsignal : readSignal d.signal text = (msgType, msgSignal, s))
    (hrest : startsTransfer d.currentStatus = false) {status : Status}
    (hstatus : (if msgType = sigtypeFsm then statusOfInt msgSignal else d.currentStatus) = status) :
    d.orderIn text = if startsTransfer status = true then some status else none := by
  simp only [Dispatcher.orderIn, hsignal]
  by_cases hfsm : msgType = sigtypeFsm
  · rw [if_pos hfsm] at hstatus
    simp only [hfsm, hstatus, true_and]
  · rw [if_neg hfsm] at hstatus
    rw [if_neg fun h => hfsm h.1, if_neg (by simp [← hstatus, hrest])]

theorem runTurn_turned {text : Bytes} {env : DispatcherEnv} (hphase : d.phase = .waiting)
    (hrest : startsTransfer d.currentStatus = false) (h : d.runTurn text env = some (d', out)) :
    Turned d (.message text env) d' out := by
  rcases hsignal : readSignal d.signal text with ⟨msgType, msgSignal, s⟩
  have hread := dispatcherOrder.eq_def d.currentStatus d.signal text env.fs
  have htiming := dispatcherTiming.eq_def d.currentStatus d.signal text
  simp only [hsignal] at hread htiming
  simp only [Dispatcher.runTurn, hsignal] at h
  by_cases hstop : interrupts msgType msgSignal = true
  · rw [if_pos hstop] at h
    obtain ⟨rfl, rfl⟩ := Prod.mk.inj (Option.some.inj h)
    refine .interrupted (.inl ⟨hphase, ?_⟩)
    simp only [Dispatcher.orderIn, hsignal, if_neg fun h : _ ∧ _ => ne_fsm_of_interrupts hstop h.1]
  rw [if_neg hstop] at h hread htiming
  generalize hstatus : (if msgType = sigtypeFsm then statusOfInt msgSignal else d.currentStatus) =
    status at h hread htiming
  have horder := orderIn_eq hsignal hrest hstatus
  by_cases hsend : status = .s122 ∨ status = .s177
  · rw [if_pos hsend] at h hread
    obtain ⟨x, hx, heq⟩ := Option.map_eq_some_iff.1 h
    obtain ⟨rfl, rfl⟩ := Prod.mk.inj heq
    rw [hx, Option.map_some] at hread
    rw [if_pos (startsTransfer_iff.2 (.inl hsend))] at horder
    exact .sends hphase horder (notifies_iff.2 hsend) hread
  rw [if_neg hsend] at h
  by_cases hfollow : status = .s130
  · rw [if_pos hfollow] at h
    obtain ⟨rfl, rfl⟩ := Prod.mk.inj (Option.some.inj h)
    subst hfollow
    rw [if_pos (.inr (.inr rfl))] at htiming
    rw [if_pos (by decide)] at horder
    exact .follows hphase horder htiming
  · rw [if_neg hfollow] at h
    obtain ⟨rfl, rfl⟩ := Prod.mk.inj (Option.some.inj h)
    have hnone : startsTransfer status = false := by
      rw [← Bool.not_eq_true, startsTransfer_iff]
      exact not_or.2 ⟨hsend, hfollow⟩
    exact .idles hphase (horder.trans (if_neg (by simp [hnone]))) hnone

theorem stopTurn_turned {text : Bytes} {env : DispatcherEnv} (hphase : d.phase = .stopping)
    (h : d.stopTurn text env = (d', out)) : Turned d (.message text env) d' out := by
  rcases hsignal : readSignal env.uninitialised text with ⟨msgType, msgSignal, s⟩
  have htime := DispatcherInput.stopTime.eq_def (.message text env)
  simp only [hsignal] at htime
  simp only [Dispatcher.stopTurn, hsignal] at h
  by_cases hstop : interrupts msgType msgSignal = true
  · rw [if_pos hstop] at h
    obtain ⟨rfl, rfl⟩ := Prod.mk.inj h
    rw [if_neg fun h => ne_fsm_of_interrupts hstop h.1] at htime
    exact .interrupted (.inr ⟨hphase, htime⟩)
  rw [if_neg hstop] at h
  by_cases htold : msgType = sigtypeFsm ∧ msgSignal = Status.s155.toNat
  · rw [if_pos htold] at h htime
    obtain ⟨rfl, rfl⟩ := Prod.mk.inj h
    exact .told hphase htime
  · rw [if_neg htold] at h htime
    obtain ⟨rfl, rfl⟩ := Prod.mk.inj h
    exact .drops hphase htime

theorem turned_of_turn (hrest : d.phase = .waiting → startsTransfer d.currentStatus = false)
    (h : d.turn inp = some (d', out)) : Turned d inp d' out := by
  cases inp with
  | message text env =>
    cases hphase : d.phase with
    | waiting =>
      simp only [Dispatcher.turn, hphase] at h
      exact runTurn_turned hphase (hrest hphase) h
    | stopping =>
      simp only [Dispatcher.turn, hphase] at h
      exact stopTurn_turned hphase (Option.some.inj h)
    | sending f header l => simp [Dispatcher.turn, hphase] at h
    | ended => simp [Dispatcher.turn, hphase] at h
  | quiet now =>
    cases hphase : d.phase with
    | stopping =>
      simp only [Dispatcher.turn, hphase, Dispatcher.quietTurn, Option.some.injEq] at h
      split_ifs at h with hstop
      · obtain ⟨rfl, rfl⟩ := Prod.mk.inj h
        exact .stops hphase hstop.1 hstop.2
      · obtain ⟨rfl, rfl⟩ := Prod.mk.inj h
        exact .waits hphase hstop
    | waiting => simp [Dispatcher.turn, hphase] at h
    | sending f header l => simp [Dispatcher.turn, hphase] at h
    | ended => simp [Dispatcher.turn, hphase] at h
  | package memory =>
    cases hphase : d.phase with
    | sending f header l =>
      simp only [Dispatcher.turn, hphase, Dispatcher.packageTurn, Option.some.injEq] at h
      split_ifs at h with hmore
      · obtain ⟨rfl, rfl⟩ := Prod.mk.inj h
        exact .package hphase hmore
      · obtain ⟨rfl, rfl⟩ := Prod.mk.inj h
        exact .lastPackage hphase (by simpa using hmore)
    | waiting => simp [Dispatcher.turn, hphase] at h
    | stopping => simp [Dispatcher.turn, hphase] at h
    | ended => simp [Dispatcher.turn, hphase] at h

theorem Turned.begins_iff (h : Turned d inp d' out) : d.begins inp = true ↔
    d.phase = .waiting ∧ (d'.phase = .stopping ∨ ∃ f header l, d'.phase = .sending f header l) := by
  cases h with
  | interrupted hphase =>
    rcases hphase with ⟨hphase, hnone⟩ | ⟨hphase, -⟩ <;> simp [Dispatcher.begins, *]
  | idles hphase hnone => simp [Dispatcher.begins, hphase, hnone]
  | sends hphase horder => simp [Dispatcher.begins, hphase, horder]
  | follows hphase horder => simp [Dispatcher.begins, hphase, horder]
  | package hphase => simp [Dispatcher.begins, hphase]
  | lastPackage hphase => simp [Dispatcher.begins, hphase]
  | told hphase => simp [Dispatcher.begins, hphase]
  | drops hphase => simp [Dispatcher.begins, hphase]
  | waits hphase => simp [Dispatcher.begins, hphase]
  | stops hphase => simp [Dispatcher.begins, hphase]

theorem turn_of_next (h : d.next inp = some d') : d.turn inp = some (d', d.effects inp) := by
  obtain ⟨⟨d₁, out⟩, hturn, rfl⟩ := Option.map_eq_some_iff.1 h
  rw [Dispatcher.effects, hturn]
  rfl

end Turn

structure Dispatcher.Poised (d : Dispatcher) : Prop where
  waiting : d.phase = .waiting → startsTransfer d.currentStatus = false
  stopping : d.phase = .stopping → d.currentStatus = .s210

theorem Turned.poised {d d' : Dispatcher} {inp : DispatcherInput} {out : List DispatcherEffect}
    (h : Turned d inp d' out) (hd : d.Poised) : d'.Poised := by
  cases h with
  | interrupted => exact ⟨by simp, by simp⟩
  | idles hphase _ hnone => exact ⟨fun _ => hnone, by simp [hphase]⟩
  | sends => exact ⟨by simp, by simp⟩
  | follows => exact ⟨by simp, fun _ => rfl⟩
  | package => exact ⟨by simp, by simp⟩
  | lastPackage => exact ⟨by simp, fun _ => rfl⟩
  | told hphase => exact ⟨by simp [hphase], hd.stopping⟩
  | drops => exact hd
  | waits => exact hd
  | stops hphase =>
    refine ⟨fun _ => ?_, by simp⟩
    simp only [hd.stopping hphase]
    decide

section Run

variable {d : Dispatcher} {status : Status} {signal : ℤ × ℤ}
  {tr : List (Dispatcher × DispatcherInput)}

theorem poised_of_run (hstatus : startsTransfer status = false)
    (hrun : Run Dispatcher.next (.initial status signal) tr d) : d.Poised :=
  hrun.invariant ⟨fun _ => hstatus, by simp [Dispatcher.initial]⟩
    fun _ _ _ hd hs => (turned_of_turn hd.waiting (turn_of_next hs)).poised hd

end Run

namespace Sample

def blankFile : File :=
  { File.blank dir (.fill space) with
    path := List.replicate maximumPathLength space, path_length := List.length_replicate
    mode := 0o644, type := regularFile, size := 5 }

def dispatcherEnv (now : UInt64) : DispatcherEnv :=
  ⟨now, env.fs, ⟨[1, 2, 3, 4, 5], false⟩, (0, 0)⟩

def ordered (f : File) : DispatcherInput :=
  .message (fsmMessage .s122 (orderPayload 5000 (.fill space) dir f)) (dispatcherEnv 4000)

def stopTold (stop : UInt64) : DispatcherInput :=
  .message (fsmMessage .s155 (timingBytes stop)) (dispatcherEnv 7000)

def dispatcher : Dispatcher := .initial .s100 (0, 0)

def transfer : List DispatcherInput :=
  [ordered blankFile, .package [], .quiet 6000, stopTold 9000, .quiet 8500]

theorem run_transfer : Run Dispatcher.next dispatcher (record Dispatcher.next dispatcher transfer [])
    (after Dispatcher.next dispatcher transfer) :=
  run_after (by decide +kernel)

end Sample

end Flocksy
