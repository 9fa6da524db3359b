import Flocksy.DispatcherCalls
import Flocksy.StopPolls
import Flocksy.Transfers

/-!
# A boxoffice with its dispatcher

The boxoffice publishes its orders to the dispatcher, and the dispatcher pushes its reports to the
router. Both sides read in the order in which was sent, so what is in flight are two queues; the
dispatcher does not read while it sends a file, and drops what it has no use for. Every message is
taken to be received alone. The `Link` says how far the two have got with a transfer, and each state
of the boxoffice allows only some links.
-/

namespace Flocksy

open ByteStream Fsm Runs

/-- `orders` and `notices` are in flight, oldest first. -/
structure Tandem where
  boxoffice : Boxoffice
  dispatcher : Dispatcher
  orders : List (Status × Bytes)
  notices : List Bytes

/-- `hears` is a message of a peer or a box, and `notified` one of the dispatcher, read into the
variables of the turn before. -/
inductive TandemInput where
  | hears (inp : Input)
  | notified (old : ℤ × ℤ) (env : Env)
  | obeys (env : DispatcherEnv)
  | polls (now : UInt64)
  | packs (memory : Bytes)

namespace Tandem

def initial (bo : Boxoffice) (status : Status) (signal : ℤ × ℤ) : Tandem :=
  ⟨bo, .initial status signal, [], []⟩

def handle (td : Tandem) (notices : List Bytes) : Outcome → Option Tandem
  | .returned 0 bo out => some { td with
      boxoffice := bo
      orders := td.orders ++ dispatcherMessages out
      notices := notices }
  | _ => none

def turn (td : Tandem) (orders : List (Status × Bytes)) (inp : DispatcherInput) : Option Tandem :=
  (td.dispatcher.turn inp).map fun x => { td with
    dispatcher := x.1
    orders := orders
    notices := td.notices ++ x.2.filterMap DispatcherEffect.notice }

def reads (order : Status × Bytes) (env : DispatcherEnv) : DispatcherInput :=
  .message (fsmMessage order.1 order.2) env

def next (td : Tandem) : TandemInput → Option Tandem
  | .hears inp =>
    if inp.status = .s132 ∨ inp.status = .s156 then none
    else td.handle td.notices (processEvent td.boxoffice inp.status inp.sstream inp.env)
  | .notified old env =>
    match td.notices with
    | [] => none
    | text :: notices => (runRouterStep td.boxoffice old text env).bind (td.handle notices)
  | .obeys env =>
    match td.orders with
    | [] => none
    | order :: orders => td.turn orders (reads order env)
  | .polls now => td.turn td.orders (.quiet now)
  | .packs memory => td.turn td.orders (.package memory)

/-- No peer aborts the session with a 410, the clock is past 2^32 ms, and the start that an order
names is within 2^31 ms of it. -/
def Orderly (td : Tandem) : TandemInput → Prop
  | .hears inp => inp.status ≠ .s410
  | .notified _ _ => True
  | .obeys env => ∀ order ∈ td.orders.head?, ∀ delay ∈ td.dispatcher.delay (reads order env),
      delay + 2147483648 < 4294967296
  | .polls now => 4294967296 ≤ now ∧ now < 9223372036854775808
  | .packs _ => True

instance (td : Tandem) : (i : TandemInput) → Decidable (td.Orderly i)
  | .hears inp => inferInstanceAs (Decidable (inp.status ≠ .s410))
  | .notified _ _ => inferInstanceAs (Decidable True)
  | .obeys env =>
    have (order : Status × Bytes) : Decidable (∀ delay ∈ td.dispatcher.delay (reads order env),
        delay + 2147483648 < 4294967296) := Option.decidableForallMem _
    Option.decidableForallMem td.orders.head?
  | .polls now => inferInstanceAs (Decidable (4294967296 ≤ now ∧ now < 9223372036854775808))
  | .packs _ => inferInstanceAs (Decidable True)

end Tandem

/-- How far a transfer has got: ordered, begun and not yet reported, running, told when to stop,
stopping, over and not yet reported. -/
inductive Link where
  | quiet | ordered | begun | running | told | stopping | ended
  deriving DecidableEq

def Link.turns : Link → List Link
  | .quiet => []
  | .ordered => [.begun]
  | .begun => [.begun]
  | .running => [.running]
  | .told => [.told, .stopping]
  | .stopping => [.stopping, .ended]
  | .ended => []

def Link.reported : Link → Option Link
  | .begun => some .running
  | .ended => some .quiet
  | _ => none

/-- The links that a state allows. The states for more than one file that follow a 132 or 136 allow
none. -/
def linksOf (state : State) (notified : Bool) : List Link :=
  match state with
  | .sendingNewFileMetadata => [.ordered, .begun]
  | .promotingNewFileMetadata => if notified then [.quiet, .ordered, .begun] else [.quiet]
  | .sendingNewFile | .sendingFakeFile | .broadcastingAllReceived => [.running]
  | .syncingStop => [.running, .told, .stopping, .ended]
  | .promotingNewFileMetadataWithMore => [.quiet, .ordered, .begun, .running]
  | .exit => [.quiet, .ordered, .begun, .running, .told, .stopping, .ended]
  | .sendingNewFileWithMoreAlpha | .sendingNewFileWithMoreBeta
  | .sendingFakeFileWithMoreAlpha | .sendingFakeFileWithMoreBeta
  | .broadcastingAllReceivedWithMoreAlpha | .broadcastingAllReceivedWithMoreBeta | .null => []
  | _ => [.quiet]

def DispatcherPhase.Busy (phase : DispatcherPhase) : Prop :=
  phase = .stopping ∨ ∃ f header l, phase = .sending f header l

/-- Busy, and what `timing_offset_` holds is no stop time but how long it slept. -/
structure Dispatcher.Untold (d : Dispatcher) : Prop where
  busy : d.phase.Busy
  slept : d.timingOffset + 2147483648 < 4294967296

/-- What is in flight, and what the dispatcher does. -/
inductive Tandem.At (td : Tandem) : Link → Prop where
  | quiet : td.dispatcher.phase = .waiting → td.orders = [] → td.notices = [] → At td .quiet
  | ordered {status : Status} {payload : Bytes} : startsTransfer status = true →
      td.dispatcher.phase = .waiting → td.orders = [(status, payload)] → td.notices = [] →
      At td .ordered
  | begun : td.dispatcher.Untold → td.orders = [] → td.notices = [dispatcherMessage .s132] →
      At td .begun
  | running : td.dispatcher.Untold → td.orders = [] → td.notices = [] → At td .running
  | told {payload : Bytes} : td.dispatcher.Untold → td.orders = [(.s155, payload)] →
      td.notices = [] → At td .told
  | stopping : td.dispatcher.phase = .stopping → td.orders = [] → td.notices = [] → At td .stopping
  | ended : td.dispatcher.phase = .waiting → td.orders = [] →
      td.notices = [dispatcherMessage .s156] → At td .ended

structure Tandem.InStep (td : Tandem) : Prop where
  link : ∃ link ∈ linksOf td.boxoffice.state td.boxoffice.notifiedDispatch, td.At link
  poised : td.dispatcher.Poised
  stopTold : td.boxoffice.StopTold

section Turn

variable {d d' : Dispatcher} {out : List DispatcherEffect}

theorem readSignal_fsmMessage (old : ℤ × ℤ) (status : Status) (payload : Bytes) :
    readSignal old (fsmMessage status payload) = ((sigtypeFsm : ℤ), (status.toNat : ℤ),
      Stream.cursor (signalPrefix sigtypeFsm status.toNat) (space :: payload)) := by
  have htext : fsmMessage status payload =
      signalPrefix sigtypeFsm status.toNat ++ (space :: payload) := by
    simp [fsmMessage, signalPrefix]
  rw [htext]
  exact readSignal_prefix old (by decide) (toNat_le_intMax status) (by simp) (by simp; decide)

theorem orderIn_fsmMessage {status : Status} (h : startsTransfer status = true) (payload : Bytes) :
    d.orderIn (fsmMessage status payload) = some status := by
  simp only [Dispatcher.orderIn, readSignal_fsmMessage, statusOfInt_toNat, h, and_self, if_true]

theorem stopTime_fsmMessage (payload : Bytes) (env : DispatcherEnv) :
    (DispatcherInput.message (fsmMessage .s155 payload) env).stopTime.isSome = true := by
  simp only [DispatcherInput.stopTime, readSignal_fsmMessage, and_self, if_true]
  rfl

theorem Dispatcher.Untold.goesOn (h : d.Untold) {now : UInt64} (hnow : 4294967296 ≤ now)
    (hlate : now < 9223372036854775808) : ¬ now - d.timingOffset ≤ 1000000 := by
  have hslept := h.slept
  have hbound := d.timingOffset.toNat_lt
  rw [UInt64.lt_iff_toNat_lt, UInt64.toNat_add] at hslept
  rw [UInt64.le_iff_toNat_le] at hnow
  rw [UInt64.lt_iff_toNat_lt] at hlate
  rw [UInt64.le_iff_toNat_le, UInt64.toNat_sub]
  simp only [UInt64.reduceToNat] at *
  omega

theorem Turned.of_order {status : Status} {payload : Bytes} {env : DispatcherEnv}
    (h : Turned d (.message (fsmMessage status payload) env) d' out)
    (hphase : d.phase = .waiting) (hstatus : startsTransfer status = true)
    (hdelay : ∀ delay, d.delay (.message (fsmMessage status payload) env) = some delay →
      delay + 2147483648 < 4294967296) :
    d'.Untold ∧ out.filterMap DispatcherEffect.notice = [dispatcherMessage .s132] := by
  have horder := orderIn_fsmMessage (d := d) hstatus payload
  have hbegins : d.begins (.message (fsmMessage status payload) env) = true := by
    simp [Dispatcher.begins, hphase, horder]
  have hslept := hdelay _ (h.delay_of_begins hbegins)
  cases h with
  | interrupted hnone =>
    rcases hnone with ⟨-, hnone⟩ | ⟨hstop, -⟩
    · simp [horder] at hnone
    · simp [hphase] at hstop
  | idles _ hnone => simp [horder] at hnone
  | @sends _ _ signal status' o _ _ _ _ =>
    refine ⟨⟨.inr ⟨_, _, _, rfl⟩, hslept⟩, ?_⟩
    have hdisk : (o.file.ops.map DispatcherEffect.disk).filterMap DispatcherEffect.notice = [] := by
      simp [DispatcherEffect.notice]
    exact congrArg (dispatcherMessage .s132 :: ·) hdisk
  | follows => exact ⟨⟨.inl rfl, hslept⟩, rfl⟩
  | told hstop => simp [hphase] at hstop
  | drops hstop => simp [hphase] at hstop

theorem Turned.of_poll {now : UInt64} (h : Turned d (.quiet now) d' out) (hd : d.Untold)
    (hnow : 4294967296 ≤ now) (hlate : now < 9223372036854775808) :
    d'.Untold ∧ out.filterMap DispatcherEffect.notice = [] := by
  cases h with
  | waits => exact ⟨hd, rfl⟩
  | stops _ _ hstop => exact absurd hstop (hd.goesOn hnow hlate)

theorem Turned.of_package {memory : Bytes} (h : Turned d (.package memory) d' out) (hd : d.Untold) :
    d'.Untold ∧ out.filterMap DispatcherEffect.notice = [] := by
  cases h with
  | package => exact ⟨⟨.inr ⟨_, _, _, rfl⟩, hd.slept⟩, rfl⟩
  | lastPackage => exact ⟨⟨.inl rfl, hd.slept⟩, rfl⟩

theorem Turned.of_stopTime {payload : Bytes} {env : DispatcherEnv}
    (h : Turned d (.message (fsmMessage .s155 payload) env) d' out) (hd : d.phase.Busy) :
    d'.phase = .stopping ∧ out.filterMap DispatcherEffect.notice = [] := by
  have hwaiting : d.phase ≠ .waiting := by
    rcases hd with h | ⟨f, header, l, h⟩ <;> simp [h]
  have htime := stopTime_fsmMessage payload env
  cases h with
  | interrupted hnone =>
    rcases hnone with ⟨hphase, -⟩ | ⟨-, hnone⟩
    · exact absurd hphase hwaiting
    · simp [hnone] at htime
  | idles hphase => exact absurd hphase hwaiting
  | sends hphase => exact absurd hphase hwaiting
  | follows hphase => exact absurd hphase hwaiting
  | told hphase => exact ⟨hphase, rfl⟩
  | drops _ hnone => simp [hnone] at htime

theorem Turned.of_lastPoll {now : UInt64} (h : Turned d (.quiet now) d' out) :
    d'.phase = .stopping ∧ out.filterMap DispatcherEffect.notice = [] ∨
      d'.phase = .waiting ∧
        out.filterMap DispatcherEffect.notice = [dispatcherMessage .s156] := by
  cases h with
  | waits hphase => exact .inl ⟨hphase, rfl⟩
  | stops => exact .inr ⟨rfl, rfl⟩

end Turn

namespace Tandem

variable {td td' : Tandem} {link : Link}

theorem turn_turned {orders : List (Status × Bytes)} {inp : DispatcherInput}
    (hpoised : td.dispatcher.Poised) (h : td.turn orders inp = some td') :
    ∃ d' out, Turned td.dispatcher inp d' out ∧ td' = { td with
      dispatcher := d'
      orders := orders
      notices := td.notices ++ out.filterMap DispatcherEffect.notice } := by
  obtain ⟨⟨d', out⟩, hturn, rfl⟩ := Option.map_eq_some_iff.1 h
  exact ⟨d', out, turned_of_turn hpoised.waiting hturn, rfl⟩

theorem At.keep {d' : Dispatcher} {notices : List Bytes} (hat : td.At link)
    (hphase : td.dispatcher.phase ≠ .waiting) (hlink : link ≠ .stopping)
    (huntold : td.dispatcher.Untold → d'.Untold ∧ notices = []) :
    link ∈ link.turns ∧
      { td with dispatcher := d', notices := td.notices ++ notices }.At link := by
  cases hat with
  | begun hd horders hnotices =>
    obtain ⟨hd', rfl⟩ := huntold hd
    exact ⟨by simp [Link.turns], .begun hd' horders (by simp [hnotices])⟩
  | running hd horders hnotices =>
    obtain ⟨hd', rfl⟩ := huntold hd
    exact ⟨by simp [Link.turns], .running hd' horders (by simp [hnotices])⟩
  | told hd horders hnotices =>
    obtain ⟨hd', rfl⟩ := huntold hd
    exact ⟨by simp [Link.turns], .told hd' horders (by simp [hnotices])⟩
  | quiet hwaiting => exact absurd hwaiting hphase
  | ordered _ hwaiting => exact absurd hwaiting hphase
  | ended hwaiting => exact absurd hwaiting hphase
  | stopping => exact absurd rfl hlink

theorem At.obeys {env : DispatcherEnv} (hat : td.At link) (hpoised : td.dispatcher.Poised)
    (horderly : td.Orderly (.obeys env)) (h : td.next (.obeys env) = some td') :
    td'.boxoffice = td.boxoffice ∧ td'.dispatcher.Poised ∧ ∃ link' ∈ link.turns, td'.At link' := by
  cases horders : td.orders with
  | nil => simp [next, horders] at h
  | cons order orders =>
    simp only [next, horders] at h
    obtain ⟨d', out, hturned, rfl⟩ := turn_turned hpoised h
    refine ⟨rfl, hturned.poised hpoised, ?_⟩
    cases hat with
    | @ordered status payload hstatus hphase hlist hnotices =>
      rw [horders] at hlist
      obtain ⟨rfl, rfl⟩ := List.cons.inj hlist
      have hdelay := horderly (status, payload) (by simp [horders])
      obtain ⟨huntold, hout⟩ := hturned.of_order hphase hstatus hdelay
      exact ⟨.begun, by simp [Link.turns], .begun huntold rfl (by simp [hnotices, hout])⟩
    | @told payload huntold hlist hnotices =>
      rw [horders] at hlist
      obtain ⟨rfl, rfl⟩ := List.cons.inj hlist
      obtain ⟨hphase, hout⟩ := hturned.of_stopTime huntold.busy
      exact ⟨.stopping, by simp [Link.turns], .stopping hphase rfl (by simp [hnotices, hout])⟩
    | quiet _ hlist => simp [horders] at hlist
    | begun _ hlist => simp [horders] at hlist
    | running _ hlist => simp [horders] at hlist
    | stopping _ hlist => simp [horders] at hlist
    | ended _ hlist => simp [horders] at hlist

theorem At.polls {now : UInt64} (hat : td.At link) (hpoised : td.dispatcher.Poised)
    (horderly : td.Orderly (.polls now)) (h : td.next (.polls now) = some td') :
    td'.boxoffice = td.boxoffice ∧ td'.dispatcher.Poised ∧ ∃ link' ∈ link.turns, td'.At link' := by
  have hphase : td.dispatcher.phase ≠ .waiting := by
    intro hwaiting
    simp [next, turn, Dispatcher.turn, hwaiting] at h
  obtain ⟨d', out, hturned, rfl⟩ := turn_turned hpoised h
  refine ⟨rfl, hturned.poised hpoised, ?_⟩
  by_cases hlink : link = .stopping
  · subst hlink
    cases hat with
    | stopping _ horders hnotices =>
      rcases hturned.of_lastPoll with ⟨hstays, hout⟩ | ⟨hends, hout⟩
      · exact ⟨.stopping, by simp [Link.turns], .stopping hstays horders (by simp [hnotices, hout])⟩
      · exact ⟨.ended, by simp [Link.turns], .ended hends horders (by simp [hnotices, hout])⟩
  · exact ⟨link, hat.keep hphase hlink fun hd => hturned.of_poll hd horderly.1 horderly.2⟩

theorem At.packs {memory : Bytes} (hat : td.At link) (hpoised : td.dispatcher.Poised)
    (h : td.next (.packs memory) = some td') :
    td'.boxoffice = td.boxoffice ∧ td'.dispatcher.Poised ∧ ∃ link' ∈ link.turns, td'.At link' := by
  have hphase : td.dispatcher.phase ≠ .waiting ∧ td.dispatcher.phase ≠ .stopping := by
    constructor <;> intro hother <;> simp [next, turn, Dispatcher.turn, hother] at h
  obtain ⟨d', out, hturned, rfl⟩ := turn_turned hpoised h
  refine ⟨rfl, hturned.poised hpoised, link, hat.keep hphase.1 ?_ hturned.of_package⟩
  rintro rfl
  cases hat with
  | stopping hstopping => exact hphase.2 hstopping

theorem handle_eq {notices : List Bytes} {o : Outcome} (h : td.handle notices o = some td') :
    ∃ bo out, o = .returned 0 bo out ∧ td' = { td with
      boxoffice := bo
      orders := td.orders ++ dispatcherMessages out
      notices := notices } := by
  unfold handle at h
  split at h
  · exact ⟨_, _, rfl, (Option.some.inj h).symm⟩
  · cases h

def heard (td : Tandem) (inp : Input) (bo : Boxoffice) (notices : List Bytes) : Tandem := { td with
  boxoffice := bo
  orders := td.orders ++ dispatcherMessages (td.boxoffice.effects inp)
  notices := notices }

theorem handle_heard {notices : List Bytes} {inp : Input} (h : td.handle notices
    (processEvent td.boxoffice inp.status inp.sstream inp.env) = some td') :
    ∃ bo, td.boxoffice.next inp = some bo ∧ td' = td.heard inp bo notices := by
  obtain ⟨bo, out, hreturned, rfl⟩ := handle_eq h
  refine ⟨bo, next_of_returned hreturned, ?_⟩
  rw [heard, Boxoffice.effects, hreturned]

theorem heard_of_next {inp : Input} (h : td.next (.hears inp) = some td') :
    (inp.status ≠ .s132 ∧ inp.status ≠ .s156) ∧
      ∃ bo, td.boxoffice.next inp = some bo ∧ td' = td.heard inp bo td.notices := by
  simp only [next] at h
  split_ifs at h with hstatus
  exact ⟨not_or.1 hstatus, handle_heard h⟩

theorem runRouterStep_dispatcherMessage {status : Status} (hc : Conforming status)
    (hstatus : status = .s132 ∨ status = .s156) (bo : Boxoffice) (old : ℤ × ℤ) (env : Env) :
    runRouterStep bo old (dispatcherMessage status) env =
      some (processEvent bo (dispatcherInput status hc env).status
        (dispatcherInput status hc env).sstream (dispatcherInput status hc env).env) := by
  rcases hstatus with rfl | rfl
  · rfl
  · rfl

end Tandem

def Link.report : Link → Option Status
  | .begun => some .s132
  | .ended => some .s156
  | _ => none

set_option synthInstance.maxSize 512 in
theorem linksOf_row : ∀ state, ∀ t ∈ usedTransitions state, ∀ notified,
    ∀ link ∈ linksOf state notified,
    (t.status ≠ .s132 → t.status ≠ .s156 → t.status ≠ .s410 →
      (t.newState = .sendingNewFileMetadata → state = .sendingNewFileMetadata) →
      ∀ notified', (state = .promotingNewFileMetadata → notified = true → notified' = true) →
        link ∈ linksOf t.newState notified') ∧
    (link.report = some t.status → ∀ notified', ∀ link' ∈ link.reported,
      link' ∈ linksOf t.newState notified') ∧
    (t.newState = .syncingStop → state = .syncingStop ∨ link = .running) := by
  decide +kernel

set_option synthInstance.maxSize 512 in
theorem linksOf_state : ∀ state notified, ∀ link ∈ linksOf state notified,
    (∀ link' ∈ link.turns, link' ∈ linksOf state notified) ∧
    (∀ status ∈ link.report, checkEvent state (getEventByStatusCode status) status = false →
      ∀ link' ∈ link.reported, link' ∈ linksOf state notified) ∧
    (state = .announcingNewFile ∨ entersMetadata state = true → link = .quiet) ∧
    (link = .begun → state = .sendingNewFileMetadata ∨ state = .promotingNewFileMetadata ∨
      state = .promotingNewFileMetadataWithMore ∨ state = .exit) ∧
    (link = .told ∨ link = .ended → state = .syncingStop ∨ state = .exit) := by
  decide +kernel

section Call

variable {bo bo' : Boxoffice} {inp : Input}

theorem Taken.status_of_report {fr : Frame} {t : Transition} (ht : Taken bo inp fr t)
    (hst : t.status = .s132 ∨ t.status = .s156 ∨ t.status = .s410) : inp.status = t.status := by
  have hplain : ∀ s, (∀ r ∈ rewordings s, r = .s132 ∨ r = .s156 ∨ r = .s410 → s = r) ∧
      ∀ r ∈ completions s, ¬ (r = .s132 ∨ r = .s156 ∨ r = .s410) := by
    decide +kernel
  have hstatus := ht.status
  cases ht.settled with
  | silent _ _ hmem => exact (hplain _).1 _ (hstatus ▸ hmem) hst
  | counted _ _ hsame => exact (hstatus.trans hsame).symm
  | completed hcomp hsame =>
    have hmem := bo.completion_mem hcomp.1
    rw [← hsame, ← hstatus] at hmem
    exact absurd hst ((hplain _).2 _ hmem)
  | queued f _ hsame => exact (hstatus.trans hsame).symm
  | twice _ hsame =>
    rw [hstatus, hsame] at hst
    simp at hst

theorem promoting_keeps (hstate : bo.state = .promotingNewFileMetadata)
    (hset : bo.notifiedDispatch = true) (h : bo.next inp = some bo') :
    bo'.notifiedDispatch = true := by
  have hcounts := (promoting_step hstate h).counts
  rw [hset, Bool.toNat_true] at hcounts
  exact Bool.toNat_eq_one.1 (by have hle := bo'.notifiedDispatch.toNat_le; omega)

theorem promoting_told (hstate : bo.state = .promotingNewFileMetadata)
    (h : bo.next inp = some bo') (htold : toldStatuses (bo.effects inp) = [.s130]) :
    bo'.notifiedDispatch = true := by
  have hcounts := (promoting_step hstate h).counts
  obtain ⟨payload, hmem⟩ : ∃ payload, .dispatcher .s130 payload ∈ bo.effects inp := by
    have hmem : Status.s130 ∈ toldStatuses (bo.effects inp) := by simp [htold]
    obtain ⟨⟨status, payload⟩, hmessage, rfl⟩ := List.mem_map.1 hmem
    obtain ⟨e, he, heq⟩ := List.mem_filterMap.1 hmessage
    cases e with
    | dispatcher status' payload' =>
      obtain ⟨rfl, rfl⟩ := Prod.mk.inj (Option.some.inj heq)
      exact ⟨_, he⟩
    | heartbeat => cases heq
    | disk => cases heq
  have hone : 0 < promotions (bo.effects inp) := List.countP_pos_iff.2 ⟨_, hmem, rfl⟩
  exact Bool.toNat_eq_one.1 (by have hle := bo'.notifiedDispatch.toNat_le; omega)

theorem toldStatuses_nil (h : toldStatuses (bo.effects inp) = []) :
    dispatcherMessages (bo.effects inp) = [] := List.map_eq_nil_iff.1 h

theorem toldStatuses_one {status : Status} (h : toldStatuses (bo.effects inp) = [status]) :
    ∃ payload, dispatcherMessages (bo.effects inp) = [(status, payload)] := by
  obtain ⟨⟨status', payload⟩, hmessages, rfl⟩ := List.map_eq_singleton_iff.1 h
  exact ⟨payload, hmessages⟩

end Call

namespace Tandem

variable {td td' : Tandem} {link : Link} {bo' : Boxoffice} {inp : Input} {notices : List Bytes}

theorem heard_of_nothing (h : dispatcherMessages (td.boxoffice.effects inp) = []) :
    td.heard inp bo' notices = { td with boxoffice := bo', notices := notices } := by
  rw [heard, h, List.append_nil]

theorem At.of_boxoffice (hat : td.At link) (bo : Boxoffice) :
    { td with boxoffice := bo }.At link := by
  cases hat with
  | quiet hphase horders hnotices => exact .quiet hphase horders hnotices
  | ordered hstatus hphase horders hnotices => exact .ordered hstatus hphase horders hnotices
  | begun hd horders hnotices => exact .begun hd horders hnotices
  | running hd horders hnotices => exact .running hd horders hnotices
  | told hd horders hnotices => exact .told hd horders hnotices
  | stopping hphase horders hnotices => exact .stopping hphase horders hnotices
  | ended hphase horders hnotices => exact .ended hphase horders hnotices

theorem At.hears (hat : td.At link)
    (hlink : link ∈ linksOf td.boxoffice.state td.boxoffice.notifiedDispatch)
    (hstop : td.boxoffice.StopTold) (hother : inp.status ≠ .s132 ∧ inp.status ≠ .s156)
    (h410 : inp.status ≠ .s410) (h : td.boxoffice.next inp = some bo') :
    ∃ link' ∈ linksOf bo'.state bo'.notifiedDispatch,
      (td.heard inp bo' td.notices).At link' := by
  have htells := tells_of_next hstop h
  generalize htold : toldStatuses (td.boxoffice.effects inp) = told at htells
  cases htells with
  | nothing hdata hsync =>
    rw [heard_of_nothing (toldStatuses_nil htold)]
    refine ⟨link, ?_, hat.of_boxoffice _⟩
    rcases next_cases h with rfl | ⟨fr, t, out, ht, hm⟩
    · exact hlink
    · have hrow : ∀ s, s = .s132 ∨ s = .s156 ∨ s = .s410 → t.status ≠ s := by
        rintro s hs rfl
        have hsame := ht.status_of_report hs
        rcases hs with hs | hs | hs
        · exact hother.1 (hsame.trans hs)
        · exact hother.2 (hsame.trans hs)
        · exact h410 (hsame.trans hs)
      rw [hm.kept.state] at hdata ⊢
      exact (linksOf_row _ t ht.mem_usedTransitions _ _ hlink).1 (hrow _ (by simp))
        (hrow _ (by simp)) (hrow _ (by simp)) hdata _ fun hs hset => promoting_keeps hs hset h
  | @order status hnotifies hstate hnew =>
    obtain ⟨payload, hmessages⟩ := toldStatuses_one htold
    obtain rfl := (linksOf_state _ _ _ hlink).2.2.1 hstate
    cases hat with
    | quiet hphase horders hnotices =>
      have hstarts : startsTransfer status = true :=
        startsTransfer_iff.2 (.inl (notifies_iff.1 hnotifies))
      have hnext : (td.heard inp bo' td.notices).orders = [(status, payload)] := by
        simp [heard, horders, hmessages]
      exact ⟨.ordered, by simp [hnew, linksOf], .ordered hstarts hphase hnext hnotices⟩
  | follow hstate hclear hnew =>
    obtain ⟨payload, hmessages⟩ := toldStatuses_one htold
    have hset := promoting_told hstate h htold
    have hquiet : link = .quiet := by simpa [hstate, hclear, linksOf] using hlink
    subst hquiet
    cases hat with
    | quiet hphase horders hnotices =>
      have hstarts : startsTransfer .s130 = true := by decide
      have hnext : (td.heard inp bo' td.notices).orders = [(.s130, payload)] := by
        simp [heard, horders, hmessages]
      exact ⟨.ordered, by simp [hnew, hset, linksOf], .ordered hstarts hphase hnext hnotices⟩
  | stop hleft hclear hnew =>
    obtain ⟨payload, hmessages⟩ := toldStatuses_one htold
    have hrunning : link = .running := by
      rcases next_state h with hsame | ⟨t, ht, hstate⟩
      · exact absurd (hsame.symm.trans hnew) hleft
      · exact ((linksOf_row _ t ht _ _ hlink).2.2 (hstate.symm.trans hnew)).resolve_left hleft
    subst hrunning
    cases hat with
    | running hd horders hnotices =>
      have hnext : (td.heard inp bo' td.notices).orders = [(.s155, payload)] := by
        simp [heard, horders, hmessages]
      exact ⟨.told, by simp [hnew, linksOf], .told hd hnext hnotices⟩

theorem At.report {text : Bytes} (hat : td.At link) (hnotices : td.notices = text :: notices) :
    ∃ status link', link.report = some status ∧ (status = .s132 ∨ status = .s156) ∧
      text = dispatcherMessage status ∧ notices = [] ∧ link.reported = some link' ∧
        ∀ bo, { td with boxoffice := bo, notices := notices }.At link' := by
  cases hat with
  | begun hd horders hlist =>
    obtain ⟨rfl, rfl⟩ := List.cons.inj (hnotices.symm.trans hlist)
    exact ⟨.s132, .running, rfl, .inl rfl, rfl, rfl, rfl, fun _ => .running hd horders rfl⟩
  | ended hphase horders hlist =>
    obtain ⟨rfl, rfl⟩ := List.cons.inj (hnotices.symm.trans hlist)
    exact ⟨.s156, .quiet, rfl, .inr rfl, rfl, rfl, rfl, fun _ => .quiet hphase horders rfl⟩
  | quiet _ _ hnil => simp [hnotices] at hnil
  | ordered _ _ _ hnil => simp [hnotices] at hnil
  | running _ _ hnil => simp [hnotices] at hnil
  | told _ _ hnil => simp [hnotices] at hnil
  | stopping _ _ hnil => simp [hnotices] at hnil

theorem linksOf_of_report {link' : Link}
    (hlink : link ∈ linksOf td.boxoffice.state td.boxoffice.notifiedDispatch)
    (hreport : link.report = some inp.status) (hlink' : link.reported = some link')
    (hplain : isAck inp.status = false ∧ isLocal inp.status = false ∧
      rewordings inp.status = [inp.status])
    (h : td.boxoffice.next inp = some bo') :
    link' ∈ linksOf bo'.state bo'.notifiedDispatch := by
  have hp := processEvent_processed td.boxoffice inp
  rw [returned_of_next h] at hp
  generalize td.boxoffice.effects inp = out at hp
  cases hp with
  | ignored hno => exact (linksOf_state _ _ _ hlink).2.1 _ hreport hno _ hlink'
  | stopped _ hstop => cases hstop
  | moved ht hm =>
    rw [hm.kept.state]
    have hrow := ht.status_eq rfl hplain
    have hreported := (linksOf_row _ _ ht.mem_usedTransitions _ _ hlink).2.1
    exact hreported (by rw [hreport, hrow]) _ _ hlink'

theorem told_of_report (hstop : td.boxoffice.StopTold)
    (hlink : link ∈ linksOf td.boxoffice.state td.boxoffice.notifiedDispatch)
    (hreport : link.report.isSome = true) (h : td.boxoffice.next inp = some bo') :
    dispatcherMessages (td.boxoffice.effects inp) = [] := by
  have hother : link ≠ .quiet ∧ link ≠ .running := by
    constructor <;> rintro rfl <;> cases hreport
  have htells := tells_of_next hstop h
  refine toldStatuses_nil ?_
  generalize toldStatuses (td.boxoffice.effects inp) = told at htells
  cases htells with
  | nothing => rfl
  | order _ hstate => exact absurd ((linksOf_state _ _ _ hlink).2.2.1 hstate) hother.1
  | follow hstate hclear => exact absurd (by simpa [hstate, hclear, linksOf] using hlink) hother.1
  | stop hleft _ hnew =>
    rcases next_state h with hsame | ⟨t, ht, hstate⟩
    · exact absurd (hsame.symm.trans hnew) hleft
    · have hstops := (linksOf_row _ t ht _ _ hlink).2.2 (hstate.symm.trans hnew)
      exact absurd (hstops.resolve_left hleft) hother.2

theorem At.notified {old : ℤ × ℤ} {env : Env} (hat : td.At link)
    (hlink : link ∈ linksOf td.boxoffice.state td.boxoffice.notifiedDispatch)
    (hstop : td.boxoffice.StopTold) (h : td.next (.notified old env) = some td') :
    ∃ inp, td.boxoffice.next inp = some td'.boxoffice ∧ td'.dispatcher = td.dispatcher ∧
      ∃ link' ∈ linksOf td'.boxoffice.state td'.boxoffice.notifiedDispatch, td'.At link' := by
  cases hnotices : td.notices with
  | nil => simp [next, hnotices] at h
  | cons text notices =>
    obtain ⟨status, link', hreport, hstatus, rfl, -, hlink', hat'⟩ := hat.report hnotices
    have hc : Conforming status := by
      rcases hstatus with rfl | rfl <;> exact conforming_iff.2 (by decide)
    have hplain : isAck status = false ∧ isLocal status = false ∧ rewordings status = [status] := by
      rcases hstatus with rfl | rfl <;> decide
    simp only [next, hnotices, runRouterStep_dispatcherMessage hc hstatus, Option.bind_some] at h
    obtain ⟨bo', hnext, rfl⟩ := handle_heard h
    refine ⟨dispatcherInput status hc env, hnext, rfl, ?_⟩
    rw [heard_of_nothing (told_of_report hstop hlink (by simp [hreport]) hnext)]
    exact ⟨link', linksOf_of_report hlink hreport hlink' hplain hnext, hat' bo'⟩

theorem inStep_step {i : TandemInput} (htd : td.InStep) (horderly : td.Orderly i)
    (h : td.next i = some td') : td'.InStep := by
  obtain ⟨⟨link, hlink, hat⟩, hpoised, hstop⟩ := htd
  have hdispatcher (hturned : td'.boxoffice = td.boxoffice ∧ td'.dispatcher.Poised ∧
      ∃ link' ∈ link.turns, td'.At link') : td'.InStep := by
    obtain ⟨hbo, hpoised', link', hturns, hat'⟩ := hturned
    refine ⟨⟨link', ?_, hat'⟩, hpoised', hbo ▸ hstop⟩
    rw [hbo]
    exact (linksOf_state _ _ _ hlink).1 _ hturns
  cases i with
  | hears inp =>
    obtain ⟨hother, bo', hnext, rfl⟩ := heard_of_next h
    exact ⟨hat.hears hlink hstop hother horderly hnext, hpoised, (stop_step hstop hnext).told⟩
  | notified old env =>
    obtain ⟨inp, hnext, hsame, hlinked⟩ := hat.notified hlink hstop h
    exact ⟨hlinked, hsame ▸ hpoised, (stop_step hstop hnext).told⟩
  | obeys env => exact hdispatcher (hat.obeys hpoised horderly h)
  | polls now => exact hdispatcher (hat.polls hpoised horderly h)
  | packs memory => exact hdispatcher (hat.packs hpoised h)

end Tandem

section Run

variable {bo : Boxoffice} {status : Status} {signal : ℤ × ℤ} {td : Tandem}
  {tr : List (Tandem × TandemInput)}

theorem inStep_of_run (hready : bo.state = .ready) (hstatus : startsTransfer status = false)
    (hrun : Run Tandem.next (.initial bo status signal) tr td) (hok : ∀ p ∈ tr, p.1.Orderly p.2) :
    td.InStep :=
  hrun.invariant_of_steps
    ⟨⟨.quiet, by simp [Tandem.initial, hready, linksOf], .quiet rfl rfl rfl⟩,
      ⟨fun _ => hstatus, by simp [Tandem.initial, Dispatcher.initial]⟩,
      fun h => by simp [Tandem.initial, hready] at h⟩
    (fun _ _ _ htd horderly h => Tandem.inStep_step htd horderly h) hok

end Run

end Flocksy
