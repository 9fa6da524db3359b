import Flocksy.Tandem

/-!
# Runs of a boxoffice with its dispatcher

In an orderly run no order is lost, repeated or overtaken, and the dispatcher is at rest whenever
the boxoffice is ready. A session that enters `syncing_stop` with `stop_sync_timeout_received_` set
is never left, since neither side waits for the other any more.
-/

namespace Flocksy

open ByteStream Fsm Runs

def Outcome.messages : Outcome → List (Status × Bytes)
  | .returned _ _ out => dispatcherMessages out
  | .fault _ => []

namespace Tandem

def published (td : Tandem) : TandemInput → List (Status × Bytes)
  | .hears inp => (processEvent td.boxoffice inp.status inp.sstream inp.env).messages
  | .notified old env =>
    match td.notices with
    | [] => []
    | text :: _ => ((runRouterStep td.boxoffice old text env).map Outcome.messages).getD []
  | _ => []

def isOrder (order : Status × Bytes) : Bool := startsTransfer order.1

def publishedOrders (tr : List (Tandem × TandemInput)) : List (Status × Bytes) :=
  (outputs published tr).filter isOrder

def turnOf (td : Tandem) : TandemInput → Option DispatcherInput
  | .obeys env => td.orders.head?.map fun order => reads order env
  | .polls now => some (.quiet now)
  | .packs memory => some (.package memory)
  | _ => none

def dispatcherSteps (tr : List (Tandem × TandemInput)) : List (Dispatcher × DispatcherInput) :=
  tr.filterMap fun p => (p.1.turnOf p.2).map fun inp => (p.1.dispatcher, inp)

variable {td td' : Tandem} {i : TandemInput}

theorem orders_of_next (h : td.next i = some td') :
    (∃ env order orders, i = .obeys env ∧ td.orders = order :: orders ∧ td'.orders = orders) ∨
      td'.orders = td.orders ++ td.published i ∧ ∀ env, i ≠ .obeys env := by
  cases i with
  | hears inp =>
    simp only [next] at h
    split_ifs at h
    obtain ⟨bo, out, hreturned, rfl⟩ := handle_eq h
    exact .inr ⟨by simp [published, hreturned, Outcome.messages], by simp⟩
  | notified old env =>
    cases hnotices : td.notices with
    | nil => simp [next, hnotices] at h
    | cons text notices =>
      simp only [next, hnotices] at h
      obtain ⟨o, ho, hhandle⟩ := Option.bind_eq_some_iff.1 h
      obtain ⟨bo, out, rfl, rfl⟩ := handle_eq hhandle
      exact .inr ⟨by simp [published, hnotices, ho, Outcome.messages], by simp⟩
  | obeys env =>
    cases horders : td.orders with
    | nil => simp [next, horders] at h
    | cons order orders =>
      simp only [next, horders] at h
      obtain ⟨x, -, rfl⟩ := Option.map_eq_some_iff.1 h
      exact .inl ⟨env, order, orders, rfl, rfl, rfl⟩
  | polls now =>
    obtain ⟨x, -, rfl⟩ := Option.map_eq_some_iff.1 h
    exact .inr ⟨by simp [published], by simp⟩
  | packs memory =>
    obtain ⟨x, -, rfl⟩ := Option.map_eq_some_iff.1 h
    exact .inr ⟨by simp [published], by simp⟩

theorem dispatcher_of_next (h : td.next i = some td') :
    (∃ inp, td.turnOf i = some inp ∧ td.dispatcher.next inp = some td'.dispatcher) ∨
      td.turnOf i = none ∧ td'.dispatcher = td.dispatcher := by
  have hturned {orders : List (Status × Bytes)} {inp : DispatcherInput}
      (h : td.turn orders inp = some td') : td.dispatcher.next inp = some td'.dispatcher := by
    obtain ⟨x, hx, rfl⟩ := Option.map_eq_some_iff.1 h
    rw [Dispatcher.next, hx]
    rfl
  cases i with
  | hears inp =>
    simp only [next] at h
    split_ifs at h
    obtain ⟨bo, out, -, rfl⟩ := handle_eq h
    exact .inr ⟨rfl, rfl⟩
  | notified old env =>
    cases hnotices : td.notices with
    | nil => simp [next, hnotices] at h
    | cons text notices =>
      simp only [next, hnotices] at h
      obtain ⟨o, -, hhandle⟩ := Option.bind_eq_some_iff.1 h
      obtain ⟨bo, out, -, rfl⟩ := handle_eq hhandle
      exact .inr ⟨rfl, rfl⟩
  | obeys env =>
    cases horders : td.orders with
    | nil => simp [next, horders] at h
    | cons order orders =>
      simp only [next, horders] at h
      exact .inl ⟨reads order env, by simp [turnOf, horders], hturned h⟩
  | polls now => exact .inl ⟨.quiet now, rfl, hturned h⟩
  | packs memory => exact .inl ⟨.package memory, rfl, hturned h⟩

/-- In step, what the dispatcher takes for an order is an order, and no other message is. -/
theorem InStep.begins_iff {env : DispatcherEnv} {order : Status × Bytes}
    {orders : List (Status × Bytes)} (htd : td.InStep) (horders : td.orders = order :: orders) :
    td.dispatcher.begins (reads order env) = isOrder order := by
  obtain ⟨status, payload⟩ := order
  obtain ⟨link, -, hat⟩ := htd.link
  cases hat with
  | ordered hstatus hphase hlist =>
    obtain ⟨hsame, -⟩ := List.cons.inj (horders.symm.trans hlist)
    obtain ⟨rfl, rfl⟩ := Prod.mk.inj hsame
    simp [reads, Dispatcher.begins, hphase, orderIn_fsmMessage hstatus, isOrder, hstatus]
  | told hd hlist =>
    obtain ⟨hsame, -⟩ := List.cons.inj (horders.symm.trans hlist)
    obtain ⟨rfl, rfl⟩ := Prod.mk.inj hsame
    have hother : isOrder (Status.s155, payload) = false := rfl
    rw [hother]
    rcases hd.busy with hphase | ⟨f, header, l, hphase⟩ <;>
      simp [reads, Dispatcher.begins, hphase]
  | quiet _ hnil => simp [horders] at hnil
  | begun _ hnil => simp [horders] at hnil
  | running _ hnil => simp [horders] at hnil
  | stopping _ hnil => simp [horders] at hnil
  | ended _ hnil => simp [horders] at hnil

def Reads (order : Status × Bytes) (p : Dispatcher × DispatcherInput) : Prop :=
  ∃ env, p.2 = reads order env

/-- The orders are the ones that the dispatcher has obeyed, and then the one in flight. -/
def Heeded (tr : List (Tandem × TandemInput)) (td : Tandem) : Prop :=
  ∃ obeyed, publishedOrders tr = obeyed ++ td.orders.filter isOrder ∧
    List.Forall₂ Reads obeyed (marked Dispatcher.begins (dispatcherSteps tr))

variable {tr : List (Tandem × TandemInput)}

theorem dispatcherSteps_cons {inp : DispatcherInput} (h : td.turnOf i = some inp) :
    dispatcherSteps ((td, i) :: tr) = (td.dispatcher, inp) :: dispatcherSteps tr := by
  simp [dispatcherSteps, h]

theorem dispatcherSteps_skip (h : td.turnOf i = none) :
    dispatcherSteps ((td, i) :: tr) = dispatcherSteps tr := by
  simp [dispatcherSteps, h]

theorem publishedOrders_cons : publishedOrders ((td, i) :: tr) =
    publishedOrders tr ++ (td.published i).filter isOrder := by
  simp [publishedOrders, outputs]

theorem heeded_step (hheeded : Heeded tr td) (htd : td.InStep) (h : td.next i = some td') :
    Heeded ((td, i) :: tr) td' := by
  obtain ⟨obeyed, hpublished, hreads⟩ := hheeded
  rcases orders_of_next h with ⟨env, order, orders, rfl, horders, hleft⟩ | ⟨hadded, hother⟩
  · have hturn : td.turnOf (.obeys env) = some (reads order env) := by simp [turnOf, horders]
    have hbegins : td.dispatcher.begins (reads order env) = isOrder order := htd.begins_iff horders
    have hnothing : publishedOrders ((td, .obeys env) :: tr) = publishedOrders tr := by
      simp [publishedOrders_cons, published]
    rw [Heeded, hnothing, dispatcherSteps_cons hturn, hleft]
    cases horder : isOrder order with
    | true =>
      rw [horder] at hbegins
      refine ⟨obeyed ++ [order], ?_, ?_⟩
      · rw [hpublished, horders, List.filter_cons_of_pos horder, List.append_assoc]
        rfl
      · rw [marked_of_mark hbegins]
        exact List.rel_append hreads (.cons ⟨env, rfl⟩ .nil)
    | false =>
      rw [horder] at hbegins
      refine ⟨obeyed, ?_, ?_⟩
      · rw [hpublished, horders, List.filter_cons_of_neg (by simp [horder])]
      · rwa [marked_of_not hbegins]
  · refine ⟨obeyed, ?_, ?_⟩
    · rw [publishedOrders_cons, hpublished, hadded, List.filter_append, List.append_assoc]
    · cases hturn : td.turnOf i with
      | none => rwa [dispatcherSteps_skip hturn]
      | some inp =>
        rw [dispatcherSteps_cons hturn, marked_of_not]
        · exact hreads
        · cases i with
          | obeys env => exact absurd rfl (hother env)
          | polls now =>
            obtain rfl := Option.some.inj hturn
            unfold Dispatcher.begins
            split <;> simp_all
          | packs memory =>
            obtain rfl := Option.some.inj hturn
            unfold Dispatcher.begins
            split <;> simp_all
          | hears inp => cases hturn
          | notified old env => cases hturn

end Tandem

section Run

variable {bo : Boxoffice} {status : Status} {signal : ℤ × ℤ} {td : Tandem}
  {tr : List (Tandem × TandemInput)}

theorem dispatcher_of_run (hrun : Run Tandem.next (.initial bo status signal) tr td) :
    Run Dispatcher.next (.initial status signal) (Tandem.dispatcherSteps tr) td.dispatcher := by
  induction hrun with
  | nil => exact .nil
  | snoc _ hs ih =>
    rcases Tandem.dispatcher_of_next hs with ⟨inp, hturn, hnext⟩ | ⟨hturn, hsame⟩
    · rw [Tandem.dispatcherSteps_cons hturn]
      exact ih.snoc hnext
    · rw [Tandem.dispatcherSteps_skip hturn, hsame]
      exact ih

variable (hready : bo.state = .ready) (hstatus : startsTransfer status = false)
  (hrun : Run Tandem.next (.initial bo status signal) tr td)
  (hok : ∀ p ∈ tr, p.1.Orderly p.2)
include hready hstatus hrun hok

theorem heeded_of_run : Tandem.Heeded tr td := by
  induction hrun with
  | nil => exact ⟨[], rfl, .nil⟩
  | snoc hrun hs ih =>
    rw [List.forall_mem_cons] at hok
    have htd := inStep_of_run hready hstatus hrun hok.2
    exact Tandem.heeded_step (ih hok.2) htd hs

/-- The orders that the boxoffice has published are the ones that the dispatcher has obeyed, in the
same order, and at most one more, which finds it waiting. -/
theorem orders_of_run : ∃ obeyed inFlight : List (Status × Bytes),
    Tandem.publishedOrders tr = obeyed ++ inFlight ∧
    List.Forall₂ Tandem.Reads obeyed (marked Dispatcher.begins (Tandem.dispatcherSteps tr)) ∧
    (inFlight = [] ∨
      ∃ order, inFlight = [order] ∧ td.orders = [order] ∧ td.dispatcher.phase = .waiting) := by
  obtain ⟨obeyed, hpublished, hreads⟩ := heeded_of_run hready hstatus hrun hok
  refine ⟨obeyed, _, hpublished, hreads, ?_⟩
  obtain ⟨link, -, hat⟩ := (inStep_of_run hready hstatus hrun hok).link
  cases hat with
  | @ordered order payload horder hphase horders =>
    exact .inr ⟨(order, payload), by simp [horders, Tandem.isOrder, horder], horders, hphase⟩
  | told _ horders =>
    left
    rw [horders]
    rfl
  | quiet _ horders => exact .inl (by simp [horders])
  | begun _ horders => exact .inl (by simp [horders])
  | running _ horders => exact .inl (by simp [horders])
  | stopping _ horders => exact .inl (by simp [horders])
  | ended _ horders => exact .inl (by simp [horders])

/-- When the boxoffice is ready nothing is in flight, and what the dispatcher has sent are whole
transfers, one for each order that was published. -/
theorem whole_of_ready (hstate : td.boxoffice.state = .ready) :
    td.orders = [] ∧ td.notices = [] ∧ td.dispatcher.phase = .waiting ∧
    ∃ ts, outputs Dispatcher.effects (Tandem.dispatcherSteps tr) =
        (ts.map Transfer.whole).flatten ∧
      List.Forall₂ (fun order t => ∃ p, Tandem.Reads order p ∧ Serving p .stopping t)
        (Tandem.publishedOrders tr) ts := by
  obtain ⟨link, hlink, hat⟩ := (inStep_of_run hready hstatus hrun hok).link
  obtain rfl : link = .quiet := by simpa [hstate, linksOf] using hlink
  cases hat with
  | quiet hphase horders hnotices =>
    obtain ⟨obeyed, hpublished, hreads⟩ := heeded_of_run hready hstatus hrun hok
    obtain ⟨ts, hserved, hout⟩ :=
      (logged_of_run hstatus (dispatcher_of_run hrun)).waiting hphase
    refine ⟨horders, hnotices, hphase, ts, hout, ?_⟩
    rw [hpublished, horders, List.filter_nil, List.append_nil]
    exact forall₂_comp hreads hserved

/-- Of the messages in flight at most one is there at a time: an order finds the dispatcher waiting,
a stop time finds it busy, and a report finds the boxoffice where it waits for it, unless it has
been stopped or asked for more files. -/
theorem inFlight_of_run : td.orders.length + td.notices.length ≤ 1 ∧
    (∀ order ∈ td.orders, Tandem.isOrder order = true ∧ td.dispatcher.phase = .waiting ∨
      order.1 = .s155 ∧ td.dispatcher.phase.Busy ∧
        (td.boxoffice.state = .syncingStop ∨ td.boxoffice.state = .exit)) ∧
    (∀ text ∈ td.notices,
      text = dispatcherMessage .s132 ∧ td.dispatcher.phase.Busy ∧
        (td.boxoffice.state = .sendingNewFileMetadata ∨
          td.boxoffice.state = .promotingNewFileMetadata ∨
          td.boxoffice.state = .promotingNewFileMetadataWithMore ∨ td.boxoffice.state = .exit) ∨
      text = dispatcherMessage .s156 ∧ td.dispatcher.phase = .waiting ∧
        (td.boxoffice.state = .syncingStop ∨ td.boxoffice.state = .exit)) := by
  obtain ⟨link, hlink, hat⟩ := (inStep_of_run hready hstatus hrun hok).link
  obtain ⟨-, -, -, hstates⟩ := linksOf_state _ _ _ hlink
  cases hat with
  | quiet _ horders hnotices => simp [horders, hnotices]
  | ordered horder hphase horders hnotices =>
    simp [horders, hnotices, Tandem.isOrder, horder, hphase]
  | begun hd horders hnotices =>
    simpa [horders, hnotices] using .inl ⟨hd.busy, hstates.1 rfl⟩
  | running _ horders hnotices => simp [horders, hnotices]
  | told hd horders hnotices =>
    simpa [horders, hnotices] using .inr ⟨hd.busy, hstates.2 (.inl rfl)⟩
  | stopping _ horders hnotices => simp [horders, hnotices]
  | ended hphase horders hnotices =>
    simpa [horders, hnotices] using .inr ⟨hphase, hstates.2 (.inr rfl)⟩

/-- No run reaches the states in which one file goes out while another is announced. -/
theorem moreStates_unreached : td.boxoffice.state ≠ .sendingNewFileWithMoreAlpha ∧
    td.boxoffice.state ≠ .sendingNewFileWithMoreBeta ∧
    td.boxoffice.state ≠ .sendingFakeFileWithMoreAlpha ∧
    td.boxoffice.state ≠ .sendingFakeFileWithMoreBeta ∧
    td.boxoffice.state ≠ .broadcastingAllReceivedWithMoreAlpha ∧
    td.boxoffice.state ≠ .broadcastingAllReceivedWithMoreBeta := by
  obtain ⟨link, hlink, -⟩ := (inStep_of_run hready hstatus hrun hok).link
  refine ⟨?_, ?_, ?_, ?_, ?_, ?_⟩ <;> intro hstate <;> simp [hstate, linksOf] at hlink

end Run

section Stranded

variable {td td' : Tandem} {i : TandemInput}

theorem syncingStop_rows : ∀ t ∈ usedTransitions .syncingStop,
    t.newState = .syncingStop ∨ t.newState = .exit ∨ t.status = .s156 := by
  decide +kernel

/-- Both sides wait for the other, or the node has been stopped. -/
structure Tandem.Stranded (td : Tandem) : Prop where
  inStep : td.InStep
  stays : td.boxoffice.state = .exit ∨ td.boxoffice.state = .syncingStop ∧ td.At .running

theorem stranded_enter (htd : td.InStep) (horderly : td.Orderly i)
    (hleft : td.boxoffice.state ≠ .syncingStop)
    (hset : td.boxoffice.stopSyncTimeoutReceived = true) (h : td.next i = some td')
    (henters : td'.boxoffice.state = .syncingStop) : td'.Stranded := by
  refine ⟨Tandem.inStep_step htd horderly h, .inr ⟨henters, ?_⟩⟩
  obtain ⟨⟨link, hlink, hat⟩, hpoised, hstop⟩ := htd
  have hrunning {inp : Input} (hnext : td.boxoffice.next inp = some td'.boxoffice) :
      link = .running := by
    rcases next_state hnext with hsame | ⟨t, ht, hstate⟩
    · exact absurd (hsame.symm.trans henters) hleft
    · exact ((linksOf_row _ t ht _ _ hlink).2.2 (hstate.symm.trans henters)).resolve_left hleft
  have hturned (hsame : td'.boxoffice = td.boxoffice) : td'.At .running :=
    absurd (hsame ▸ henters) hleft
  cases i with
  | hears inp =>
    obtain ⟨-, bo', hnext, rfl⟩ := Tandem.heard_of_next h
    obtain rfl := hrunning hnext
    have htells := tells_of_next hstop hnext
    generalize htold : toldStatuses (td.boxoffice.effects inp) = told at htells
    cases htells with
    | nothing =>
      rw [Tandem.heard_of_nothing (toldStatuses_nil htold)]
      exact hat.of_boxoffice _
    | order _ _ hnew => exact absurd (hnew.symm.trans henters) (by decide)
    | follow _ _ hnew => exact absurd (hnew.symm.trans henters) (by decide)
    | stop _ hclear => simp [hset] at hclear
  | notified old env =>
    obtain ⟨inp, hnext, -⟩ := hat.notified hlink hstop h
    obtain rfl := hrunning hnext
    cases hat with
    | running _ _ hnotices => simp [Tandem.next, hnotices] at h
  | obeys env => exact hturned (hat.obeys hpoised horderly h).1
  | polls now => exact hturned (hat.polls hpoised horderly h).1
  | packs memory => exact hturned (hat.packs hpoised h).1

theorem boxoffice_of_step (htd : td.InStep) (horderly : td.Orderly i) (h : td.next i = some td') :
    td'.boxoffice = td.boxoffice ∨ ∃ inp, td.boxoffice.next inp = some td'.boxoffice := by
  obtain ⟨⟨link, hlink, hat⟩, hpoised, hstop⟩ := htd
  cases i with
  | hears inp =>
    obtain ⟨-, bo', hnext, rfl⟩ := Tandem.heard_of_next h
    exact .inr ⟨inp, hnext⟩
  | notified old env =>
    obtain ⟨inp, hnext, -⟩ := hat.notified hlink hstop h
    exact .inr ⟨inp, hnext⟩
  | obeys env => exact .inl (hat.obeys hpoised horderly h).1
  | polls now => exact .inl (hat.polls hpoised horderly h).1
  | packs memory => exact .inl (hat.packs hpoised h).1

theorem stranded_step (hstranded : td.Stranded) (horderly : td.Orderly i)
    (h : td.next i = some td') : td'.Stranded := by
  refine ⟨Tandem.inStep_step hstranded.inStep horderly h, ?_⟩
  have hstep := boxoffice_of_step hstranded.inStep horderly h
  obtain ⟨⟨⟨link, hlink, hat⟩, hpoised, hstop⟩, hstays⟩ := hstranded
  rcases hstays with hstate | ⟨hstate, hrunning⟩
  · left
    rcases hstep with hsame | ⟨inp, hnext⟩
    · rw [hsame, hstate]
    · rcases next_state hnext with hsame | ⟨t, ht, hnew⟩
      · exact hsame.trans hstate
      · exact hnew.trans ((stop_rows _ t ht).2.1 hstate)
  · have hstays {link' : Link} (hturns : link' ∈ Link.turns .running) (hat' : td'.At link') :
        td'.At .running := by
      obtain rfl : link' = .running := by simpa [Link.turns] using hturns
      exact hat'
    cases i with
    | hears inp =>
      obtain ⟨hother, bo', hnext, rfl⟩ := Tandem.heard_of_next h
      have htells := tells_of_next hstop hnext
      generalize htold : toldStatuses (td.boxoffice.effects inp) = told at htells
      cases htells with
      | nothing =>
        rw [Tandem.heard_of_nothing (toldStatuses_nil htold)]
        have hstill := hrunning.of_boxoffice bo'
        rcases next_cases hnext with rfl | ⟨fr, t, out, ht, hm⟩
        · exact .inr ⟨hstate, hstill⟩
        · rcases syncingStop_rows t (hstate ▸ ht.mem_usedTransitions) with hnew | hnew | h156
          · exact .inr ⟨hm.kept.state.trans hnew, hstill⟩
          · exact .inl (hm.kept.state.trans hnew)
          · exact absurd ((ht.status_of_report (by simp [h156])).trans h156) hother.2
      | order _ hbefore =>
        rcases hbefore with hbefore | hbefore <;> simp [hstate, entersMetadata] at hbefore
      | follow hbefore => simp [hstate] at hbefore
      | stop hleft => exact absurd hstate hleft
    | notified old env =>
      cases hrunning with
      | running _ _ hnotices => simp [Tandem.next, hnotices] at h
    | obeys env =>
      obtain ⟨hsame, -, link', hturns, hat'⟩ := hrunning.obeys hpoised horderly h
      exact .inr ⟨hsame ▸ hstate, hstays hturns hat'⟩
    | polls now =>
      obtain ⟨hsame, -, link', hturns, hat'⟩ := hrunning.polls hpoised horderly h
      exact .inr ⟨hsame ▸ hstate, hstays hturns hat'⟩
    | packs memory =>
      obtain ⟨hsame, -, link', hturns, hat'⟩ := hrunning.packs hpoised h
      exact .inr ⟨hsame ▸ hstate, hstays hturns hat'⟩

/-- A session that enters `syncing_stop` with `stop_sync_timeout_received_` set is left by an
interrupt only, and the dispatcher goes on sending. -/
theorem stranded_of_run {bo : Boxoffice} {status : Status} {signal : ℤ × ℤ}
    {tr later : List (Tandem × TandemInput)} {tdLast : Tandem} (hready : bo.state = .ready)
    (hstatus : startsTransfer status = false)
    (hrun : Run Tandem.next (.initial bo status signal) tr td) (hok : ∀ p ∈ tr, p.1.Orderly p.2)
    (hleft : td.boxoffice.state ≠ .syncingStop)
    (hset : td.boxoffice.stopSyncTimeoutReceived = true) (h : td.next i = some td')
    (horderly : td.Orderly i) (henters : td'.boxoffice.state = .syncingStop)
    (hlater : Run Tandem.next td' later tdLast) (hok' : ∀ p ∈ later, p.1.Orderly p.2) :
    tdLast.boxoffice.state = .exit ∨
      tdLast.boxoffice.state = .syncingStop ∧ tdLast.dispatcher.phase.Busy := by
  have htd := inStep_of_run hready hstatus hrun hok
  have hstart := stranded_enter htd horderly hleft hset h henters
  have hlast : tdLast.Stranded :=
    hlater.invariant_of_steps hstart (fun _ _ _ hs hi hn => stranded_step hs hi hn) hok'
  refine hlast.stays.imp_right fun hstays => ⟨hstays.1, ?_⟩
  cases hstays.2 with
  | running hd => exact hd.busy

end Stranded

namespace Sample

def tandem : Tandem := .initial (start [.fill 65]) .s100 (0, 0)

def followed (name : Char) : List TandemInput :=
  [.hears peerAnnounces, .hears (announced name), .hears (announced name),
    .obeys (dispatcherEnv 1000), .notified (0, 0) env, .hears emptyPackage]

theorem stop_conforming : Status.s155 ∈ conformingStatuses := by decide

def stopHeard : TandemInput :=
  .hears (heardWith .s155 stop_conforming (.fill 65) (timingBytes 5000000000))

def session (name : Char) : List TandemInput :=
  followed name ++ [stopHeard, .obeys (dispatcherEnv 2000), .polls 5000000100, .notified (0, 0) env]

def sessionTrace : List (Tandem × TandemInput) := record Tandem.next tandem (session 'f') []

theorem session_orderly : (runAll Tandem.next tandem (session 'f')).isSome = true ∧
    (∀ p ∈ sessionTrace, p.1.Orderly p.2) ∧
    (after Tandem.next tandem (session 'f')).boxoffice.state = .ready := by
  decide +kernel

theorem run_session :
    Run Tandem.next tandem sessionTrace (after Tandem.next tandem (session 'f')) :=
  run_after session_orderly.1

end Sample

theorem orders_of_run_session : ∃ obeyed inFlight : List (Status × Bytes),
    Tandem.publishedOrders Sample.sessionTrace = obeyed ++ inFlight ∧
    List.Forall₂ Tandem.Reads obeyed
      (marked Dispatcher.begins (Tandem.dispatcherSteps Sample.sessionTrace)) ∧
    (inFlight = [] ∨ ∃ order, inFlight = [order] ∧
      (after Tandem.next Sample.tandem (Sample.session 'f')).orders = [order] ∧
      (after Tandem.next Sample.tandem (Sample.session 'f')).dispatcher.phase = .waiting) :=
  orders_of_run rfl (by decide) Sample.run_session Sample.session_orderly.2.1

theorem whole_of_ready_session :
    let td := after Tandem.next Sample.tandem (Sample.session 'f')
    td.orders = [] ∧ td.notices = [] ∧ td.dispatcher.phase = .waiting ∧
    ∃ ts, outputs Dispatcher.effects (Tandem.dispatcherSteps Sample.sessionTrace) =
        (ts.map Transfer.whole).flatten ∧
      List.Forall₂ (fun order t => ∃ p, Tandem.Reads order p ∧ Serving p .stopping t)
        (Tandem.publishedOrders Sample.sessionTrace) ts :=
  whole_of_ready rfl (by decide) Sample.run_session Sample.session_orderly.2.1
    Sample.session_orderly.2.2

theorem inFlight_of_run_session :
    let td := after Tandem.next Sample.tandem (Sample.session 'f')
    td.orders.length + td.notices.length ≤ 1 ∧
    (∀ order ∈ td.orders, Tandem.isOrder order = true ∧ td.dispatcher.phase = .waiting ∨
      order.1 = .s155 ∧ td.dispatcher.phase.Busy ∧
        (td.boxoffice.state = .syncingStop ∨ td.boxoffice.state = .exit)) ∧
    (∀ text ∈ td.notices,
      text = dispatcherMessage .s132 ∧ td.dispatcher.phase.Busy ∧
        (td.boxoffice.state = .sendingNewFileMetadata ∨
          td.boxoffice.state = .promotingNewFileMetadata ∨
          td.boxoffice.state = .promotingNewFileMetadataWithMore ∨ td.boxoffice.state = .exit) ∨
      text = dispatcherMessage .s156 ∧ td.dispatcher.phase = .waiting ∧
        (td.boxoffice.state = .syncingStop ∨ td.boxoffice.state = .exit)) :=
  inFlight_of_run rfl (by decide) Sample.run_session Sample.session_orderly.2.1

theorem moreStates_unreached_session :
    let td := after Tandem.next Sample.tandem (Sample.session 'f')
    td.boxoffice.state ≠ .sendingNewFileWithMoreAlpha ∧
    td.boxoffice.state ≠ .sendingNewFileWithMoreBeta ∧
    td.boxoffice.state ≠ .sendingFakeFileWithMoreAlpha ∧
    td.boxoffice.state ≠ .sendingFakeFileWithMoreBeta ∧
    td.boxoffice.state ≠ .broadcastingAllReceivedWithMoreAlpha ∧
    td.boxoffice.state ≠ .broadcastingAllReceivedWithMoreBeta :=
  moreStates_unreached rfl (by decide) Sample.run_session Sample.session_orderly.2.1

/-- After a second session with nothing heard in `ready` before it, the node hangs. -/
theorem stranded_of_run_session :
    let opening := Sample.session 'f' ++ Sample.followed 'g'
    let tdLast := after Tandem.next Sample.tandem (opening ++ [Sample.stopHeard, .polls 5000000200])
    tdLast.boxoffice.state = .exit ∨
      tdLast.boxoffice.state = .syncingStop ∧ tdLast.dispatcher.phase.Busy := by
  intro opening tdLast
  have hrun : Run Tandem.next Sample.tandem (record Tandem.next Sample.tandem opening [])
      (after Tandem.next Sample.tandem opening) := run_after (by decide +kernel)
  have hnext : (after Tandem.next Sample.tandem opening).next Sample.stopHeard =
      some (after Tandem.next Sample.tandem (opening ++ [Sample.stopHeard])) :=
    next_after opening (by decide +kernel)
  have hpoll : (after Tandem.next Sample.tandem (opening ++ [Sample.stopHeard])).next
      (.polls 5000000200) = some tdLast :=
    next_after (opening ++ [Sample.stopHeard]) (by decide +kernel)
  have hlater : Run Tandem.next (after Tandem.next Sample.tandem (opening ++ [Sample.stopHeard]))
      [(after Tandem.next Sample.tandem (opening ++ [Sample.stopHeard]), .polls 5000000200)] tdLast :=
    Run.nil.snoc hpoll
  exact stranded_of_run rfl (by decide) hrun (by decide +kernel) (by decide +kernel)
    (by decide +kernel) hnext (by decide +kernel) (by decide +kernel) hlater
    (by rw [List.forall_mem_singleton]; exact ⟨by decide, by decide⟩)

end Flocksy
