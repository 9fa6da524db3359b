import Flocksy.Foundation.Links
import Flocksy.BoxofficeStep
import Flocksy.HeartbeatTransport

/-!
# A flock of nodes

`n` nodes, each with all others as subscribers. The heartbeater of a node keeps the status and
the line of the last heartbeat that its boxoffice gave out, and broadcasts them again and again;
a broadcast puts the message on the links to all others, and a delivery hands the oldest message
of a link to the boxoffice at its end. Everything else that a boxoffice hears (local events, its
dispatcher, data packages) comes from outside at any time.

`Session` is bookkeeping for the statements about sessions and is read by no step: the node
that opened the session a node is in, and which of the inputs of that node did so.
-/

namespace Flocksy

open ByteStream Fsm Runs Links

/-- What the heartbeater keeps: `current_status_` and `current_message_`. -/
structure Heartbeat where
  status : Status
  conforming : Conforming status
  message : Bytes

def Heartbeat.initial : Heartbeat := ⟨.s100, conforming_iff.2 (by decide), []⟩

/-- What `std::getline` keeps of the payload and the blank before it. -/
def keptLine (payload : Bytes) : Bytes := space :: payload.takeWhile (· != newline)

section Call

variable {bo bo' : Boxoffice} {inp : Input}

/-- A call that leaves the state tells its heartbeater last what the row of the table tells;
any other tells it at most a 100. -/
theorem effects_cases (h : bo.next inp = some bo') :
    ((bo'.state = bo.state ∨ bo'.state = .exit) ∧
      ∀ s payload, .heartbeat s payload ∈ bo.effects inp → s = .s100) ∨
    ∃ t ∈ usedTransitions bo.state, ∃ payload out, t.newState ≠ bo.state ∧
      bo'.state = t.newState ∧ bo.effects inp = out ++ [.heartbeat t.heartbeat payload] ∧
      ∀ s payload, .heartbeat s payload ∈ out → s = .s100 := by
  have hp := processEvent_processed bo inp
  rw [returned_of_next h] at hp
  generalize bo.effects inp = effects at hp
  cases hp with
  | ignored => exact .inl ⟨.inl rfl, by simp⟩
  | stopped _ hstop => cases hstop
  | @moved fr t _ _ ht hm =>
    have hold : ∀ s payload, .heartbeat s payload ∈ fr.out → s = .s100 := by
      intro s payload hmem
      cases ht.settled with
      | silent _ _ _ _ _ hout => exact hout s payload hmem
      | counted _ _ _ _ _ hout => simp [hout] at hmem
      | completed _ _ _ _ _ hnotified =>
        rw [Notified] at hnotified
        split_ifs at hnotified
        · obtain ⟨p, ps, dir, -, -, hout⟩ := hnotified
          simp [hout] at hmem
        · simp [hnotified] at hmem
      | queued _ _ _ _ _ _ _ _ _ _ hout => simp [hout] at hmem
      | twice _ _ _ _ _ _ _ _ hout => simp [hout] at hmem
    have hstate := hm.kept.state
    cases hm with
    | stay hsame _ hout => exact .inl ⟨.inl (hstate.trans (hsame.trans ht.steady.state)), hout ▸ hold⟩
    | exit _ hexit _ hout => exact .inl ⟨.inr (hstate.trans hexit), hout ▸ hold⟩
    | data p ps hmove _ _ _ hout =>
      exact .inr ⟨t, ht.mem_usedTransitions, _, _, ht.steady.state ▸ hmove, hstate, hout, hold⟩
    | metadata p ps hmove _ _ _ hout =>
      exact .inr ⟨t, ht.mem_usedTransitions, _, _, ht.steady.state ▸ hmove, hstate, hout, hold⟩
    | plain timing stop messages payload hmove _ _ _ hmessages _ hout =>
      refine .inr ⟨t, ht.mem_usedTransitions, _, _, ht.steady.state ▸ hmove, hstate, hout, ?_⟩
      intro s payload hmem
      rcases List.mem_append.1 hmem with hmem | hmem
      · exact hold s payload hmem
      · exact absurd hmem (hmessages s payload)

theorem heartbeat_row : ∀ state, ∀ t ∈ usedTransitions state,
    t.heartbeat ∈ conformingStatuses := by
  decide +kernel

theorem conforming_of_told (h : bo.next inp = some bo') {s : Status} {payload : Bytes}
    (htold : .heartbeat s payload ∈ bo.effects inp) : Conforming s := by
  have hquiet : s = .s100 → Conforming s := by
    rintro rfl
    exact conforming_iff.2 (by decide)
  rcases effects_cases h with ⟨-, hold⟩ | ⟨t, ht, p, out, -, -, hout, hold⟩
  · exact hquiet (hold s payload htold)
  · rw [hout, List.mem_append, List.mem_singleton] at htold
    rcases htold with htold | htold
    · exact hquiet (hold s payload htold)
    · obtain ⟨rfl, -⟩ := Effect.heartbeat.inj htold
      exact conforming_iff.2 (heartbeat_row _ t ht)

end Call

def Boxoffice.heartbeats (bo : Boxoffice) (inp : Input) {bo' : Boxoffice}
    (h : bo.next inp = some bo') : List Heartbeat :=
  (bo.effects inp).attach.filterMap fun
    | ⟨.heartbeat status payload, htold⟩ =>
      some ⟨status, conforming_of_told h htold, keptLine payload⟩
    | _ => none

def Effect.kept : Effect → Option (Status × Bytes)
  | .heartbeat status payload => some (status, keptLine payload)
  | _ => none

def Heartbeat.kept (hb : Heartbeat) : Status × Bytes := (hb.status, hb.message)

section Call

variable {bo bo' : Boxoffice} {inp : Input}

theorem heartbeats_kept (h : bo.next inp = some bo') :
    (bo.heartbeats inp h).map Heartbeat.kept = (bo.effects inp).filterMap Effect.kept := by
  have hvalues : (bo.effects inp).filterMap Effect.kept =
      (bo.effects inp).attach.filterMap (Effect.kept ∘ Subtype.val) := by
    rw [← List.filterMap_map, List.attach_map_subtype_val]
  rw [Boxoffice.heartbeats, List.map_filterMap, hvalues]
  refine List.filterMap_congr fun e _ => ?_
  rcases e with ⟨e, he⟩
  cases e <;> rfl

theorem heartbeats_getLast? (h : bo.next inp = some bo') {out : List Effect} {s : Status}
    {payload : Bytes} (hout : bo.effects inp = out ++ [.heartbeat s payload]) :
    ∃ hb, (bo.heartbeats inp h).getLast? = some hb ∧ hb.status = s ∧
      hb.message = keptLine payload := by
  have hlast : ((bo.heartbeats inp h).map Heartbeat.kept).getLast? = some (s, keptLine payload) := by
    rw [heartbeats_kept, hout, List.filterMap_append]
    exact List.getLast?_concat ..
  rw [List.getLast?_map] at hlast
  obtain ⟨hb, hlast, hkept⟩ := Option.map_eq_some_iff.1 hlast
  obtain ⟨hstatus, hmessage⟩ := Prod.mk.inj hkept
  exact ⟨hb, hlast, hstatus, hmessage⟩

theorem mem_heartbeats (h : bo.next inp = some bo') {hb : Heartbeat}
    (hmem : hb ∈ bo.heartbeats inp h) : ∃ payload, .heartbeat hb.status payload ∈ bo.effects inp := by
  have hkept : hb.kept ∈ (bo.effects inp).filterMap Effect.kept :=
    heartbeats_kept h ▸ List.mem_map_of_mem hmem
  obtain ⟨e, he, htold⟩ := List.mem_filterMap.1 hkept
  cases e with
  | heartbeat s payload =>
    obtain ⟨hstatus, -⟩ := Prod.mk.inj (Option.some.inj htold)
    exact ⟨payload, hstatus ▸ he⟩
  | dispatcher s payload => simp [Effect.kept] at htold
  | disk op => simp [Effect.kept] at htold

end Call

structure Session (n : ℕ) where
  coordinator : Fin n
  number : ℕ
  deriving DecidableEq

/-- `events` counts the inputs that are no heartbeats. -/
structure Station (n : ℕ) where
  bo : Boxoffice
  heartbeat : Heartbeat
  session : Session n
  events : ℕ

structure Sent (n : ℕ) where
  heartbeat : Heartbeat
  timestamp : UInt64
  session : Session n

structure OwnInput extends Input where
  own : getEventByStatusCode status ≠ .receivedHeartbeat

structure Flock (n : ℕ) where
  uid : Fin n → Hash
  uid_injective : Function.Injective uid
  boxes : Fin n → List (Hash × Bytes)

def Heartbeat.info (hb : Heartbeat) (timestamp : UInt64) : Bytes :=
  fillTo (minimumHbWidth - 3) (space :: (timingBytes timestamp ++ hb.message))

def Sent.input {n : ℕ} (m : Sent n) (uid : Hash) (env : Env) : Input :=
  peerInput m.heartbeat.status m.heartbeat.conforming uid (m.heartbeat.info m.timestamp) env

/-- One call of `processEvent`; a node that leaves `ready` joins a session. -/
def Station.process {n : ℕ} (st : Station n) (inp : Input) (joined : Session n) :
    Option (Station n) :=
  (st.bo.next inp).attach.map fun bo =>
    { st with
      bo := bo.1
      heartbeat := (st.bo.heartbeats inp bo.2).getLast?.getD st.heartbeat
      session := if st.bo.state = .ready ∧ bo.1.state ≠ .ready then joined else st.session }

/-- A node that stays, or exits, keeps its heartbeat or goes back to a 100; another one takes
that of the row it leaves its state by. -/
inductive Beaten {n : ℕ} (st st' : Station n) (inp : Input) : Prop where
  | kept : st'.bo.state = st.bo.state ∨ st'.bo.state = .exit →
      st'.heartbeat = st.heartbeat ∨ st'.heartbeat.status = .s100 → Beaten st st' inp
  | row {t : Transition} {payload : Bytes} {out : List Effect} : t ∈ usedTransitions st.bo.state →
      t.newState ≠ st.bo.state → st'.bo.state = t.newState →
      st.bo.effects inp = out ++ [.heartbeat t.heartbeat payload] →
      st'.heartbeat.status = t.heartbeat → st'.heartbeat.message = keptLine payload →
      Beaten st st' inp

structure Called {n : ℕ} (st st' : Station n) (inp : Input) (joined : Session n) : Prop where
  next : st.bo.next inp = some st'.bo
  session : st'.session =
    if st.bo.state = .ready ∧ st'.bo.state ≠ .ready then joined else st.session
  beaten : Beaten st st' inp

theorem Station.process_spec {n : ℕ} {st st' : Station n} {inp : Input} {joined : Session n}
    (h : st.process inp joined = some st') :
    Called st st' inp joined ∧ st'.events = st.events := by
  obtain ⟨⟨bo', hnext⟩, -, rfl⟩ := Option.map_eq_some_iff.1 h
  refine ⟨⟨hnext, rfl, ?_⟩, rfl⟩
  rcases effects_cases hnext with ⟨hstate, hold⟩ | ⟨t, ht, payload, out, hmove, hnew, hout, -⟩
  · refine .kept hstate ?_
    cases hlast : (st.bo.heartbeats inp hnext).getLast? with
    | none => exact .inl (by simp)
    | some hb =>
      obtain ⟨payload, htold⟩ := mem_heartbeats hnext (List.mem_of_getLast? hlast)
      exact .inr (by simp [hold _ _ htold])
  · obtain ⟨hb, hlast, hstatus, hmessage⟩ := heartbeats_getLast? hnext hout
    exact .row ht hmove hnew hout (by simp [hlast, hstatus]) (by simp [hlast, hmessage])

namespace Flock

variable {n : ℕ} (fl : Flock n)

def peers (i : Fin n) : List Hash := ((List.finRange n).filter (· ≠ i)).map fl.uid

def boxoffice (i : Fin n) : Boxoffice :=
  .initial ⟨fl.peers i, fun _ => default⟩ (fl.boxes i)

def protocol : Protocol (Fin n) (Station n) (Sent n) OwnInput UInt64 Env where
  start i := ⟨fl.boxoffice i, .initial, ⟨i, 0⟩, 0⟩
  own i st inp := (st.process inp.toInput ⟨i, st.events⟩).map fun st' =>
    { st' with events := st.events + 1 }
  emit _ st timestamp := ⟨st.heartbeat, timestamp, st.session⟩
  take _ st i m env := st.process (m.input (fl.uid i) env) m.session

theorem own_spec {i : Fin n} {st st' : Station n} {inp : OwnInput}
    (h : fl.protocol.own i st inp = some st') :
    Called st st' inp.toInput ⟨i, st.events⟩ ∧ st'.events = st.events + 1 := by
  obtain ⟨st₁, hst₁, rfl⟩ := Option.map_eq_some_iff.1 h
  obtain ⟨⟨hnext, hsession, hbeaten⟩, -⟩ := Station.process_spec hst₁
  refine ⟨⟨hnext, hsession, ?_⟩, rfl⟩
  cases hbeaten with
  | kept hstate hbeat => exact .kept hstate hbeat
  | row ht hmove hnew hout hstatus hmessage => exact .row ht hmove hnew hout hstatus hmessage

theorem take_spec {i j : Fin n} {st st' : Station n} {m : Sent n} {env : Env}
    (h : fl.protocol.take j st i m env = some st') :
    Called st st' (m.input (fl.uid i) env) m.session ∧ st'.events = st.events :=
  Station.process_spec h

end Flock

abbrev FlockNet (n : ℕ) := Net (Fin n) (Station n) (Sent n)

abbrev FlockAct (n : ℕ) := Act (Fin n) OwnInput UInt64 Env

namespace Flock

variable {n : ℕ} (fl : Flock n)

def input (s : FlockNet n) (act : FlockAct n) (i : Fin n) : Option Input :=
  match act with
  | .own k inp => if k = i then some inp.toInput else none
  | .broadcast _ _ => none
  | .deliver j k env =>
    if k = i then (s.link j k).head?.map fun m => m.input (fl.uid j) env else none

def trace (i : Fin n) (tr : List (FlockNet n × FlockAct n)) : List (Boxoffice × Input) :=
  tr.filterMap fun p => (fl.input p.1 p.2 i).map fun inp => ((p.1.station i).bo, inp)

inductive NodeStep (s s' : FlockNet n) (i : Fin n) : FlockAct n → Prop where
  | idle {act : FlockAct n} : fl.input s act i = none → s'.station i = s.station i →
      NodeStep s s' i act
  | own {inp : OwnInput} :
      Called (s.station i) (s'.station i) inp.toInput ⟨i, (s.station i).events⟩ →
      (s'.station i).events = (s.station i).events + 1 → NodeStep s s' i (.own i inp)
  | take {j : Fin n} {m : Sent n} {ms : List (Sent n)} {env : Env} : s.link j i = m :: ms →
      Called (s.station i) (s'.station i) (m.input (fl.uid j) env) m.session →
      (s'.station i).events = (s.station i).events → NodeStep s s' i (.deliver j i env)

variable {fl} {s s' : FlockNet n} {act : FlockAct n}

theorem nodeStep_of_next (h : fl.protocol.next s act = some s') (i : Fin n) :
    fl.NodeStep s s' i act := by
  cases Protocol.stepped_of_next h with
  | @own k inp st hst =>
    by_cases hk : i = k
    · subst hk
      obtain ⟨hcalled, hevents⟩ := own_spec fl hst
      exact .own (by simpa using hcalled) (by simpa using hevents)
    · exact .idle (if_neg fun h => hk h.symm) (Function.update_of_ne hk _ _)
  | broadcast => exact .idle rfl rfl
  | @deliver j k env m ms st hlink hst =>
    by_cases hk : i = k
    · subst hk
      obtain ⟨hcalled, hevents⟩ := take_spec fl hst
      exact .take hlink (by simpa using hcalled) (by simpa using hevents)
    · exact .idle (if_neg fun h => hk h.symm) (Function.update_of_ne hk _ _)

theorem bo_next (h : fl.protocol.next s act = some s') {i : Fin n} {inp : Input}
    (hinput : fl.input s act i = some inp) : (s.station i).bo.next inp = some (s'.station i).bo := by
  cases nodeStep_of_next h i with
  | idle hnone => simp [hnone] at hinput
  | own hcalled =>
    obtain rfl : _ = inp := Option.some.inj ((if_pos rfl).symm.trans hinput)
    exact hcalled.next
  | take hlink hcalled =>
    rw [input, if_pos rfl, hlink] at hinput
    obtain rfl := Option.some.inj hinput
    exact hcalled.next

end Flock

theorem fillTo_append (width : ℕ) (before text : Bytes) :
    fillTo width (before ++ text) = before ++ fillTo (width - before.length) text := by
  rw [fillTo, fillTo, List.length_append, List.append_assoc, Nat.sub_sub]

theorem Heartbeat.info_ne_nil (hb : Heartbeat) (timestamp : UInt64) : hb.info timestamp ≠ [] := by
  simp [Heartbeat.info, fillTo]

/-- What the loops of heartbeater, publisher and subscriber bring to the router of a peer is the
input of a delivery. -/
theorem broadcast_delivered {hb : Heartbeater} {kept : Heartbeat} (hthree : kept.status ≠ .null)
    (hstatus : hb.currentStatus = kept.status.toNat) (hmessage : hb.currentMessage = kept.message)
    (timestamp : UInt64) {uid : Hash} (huid : uid.Undigit) (pub sub old : ℤ × ℤ) (bo : Boxoffice)
    (env : Env) :
    ∃ pub' wire sub' text, publisherTurn pub (hb.message timestamp) = some (pub', wire) ∧
      subscriberTurn uid sub wire = some (sub', text) ∧
      runRouterStep bo old text env = some (processEvent bo kept.status
        (peerInput kept.status kept.conforming uid (kept.info timestamp) env).sstream env) := by
  obtain ⟨hmin, hmax⟩ := three_digits kept.status hthree
  have hlen := length_decimal_three hmin hmax
  have hwire : fillTo minimumHbWidth (decimal kept.status.toNat ++
      (space :: (timingBytes timestamp ++ hb.currentMessage))) =
      decimal kept.status.toNat ++ kept.info timestamp := by
    rw [fillTo_append, hlen, hmessage]
    rfl
  have hpub := publisherTurn_heartbeat hstatus hthree pub timestamp
  rw [hwire] at hpub
  exact ⟨_, _, _, _, hpub, subscriberTurn_headed sub uid hmin hmax (kept.info_ne_nil timestamp)
    (by simp [Heartbeat.info, fillTo]; decide),
    runRouterStep_subscriberMessage bo old kept.conforming huid _ env⟩

namespace Sample

def flock : Flock 3 where
  uid i := .fill (65 + UInt8.ofNat i.val)
  uid_injective := by decide +kernel
  boxes _ := [(box, dir)]

def changes (i : Fin 3) (name : Char) : FlockAct 3 :=
  .own i ⟨deleted name, (by decide : getEventByStatusCode .s320 ≠ .receivedHeartbeat)⟩

def tells (i : Fin 3) : FlockAct 3 := .broadcast i 0

def hears (j i : Fin 3) : FlockAct 3 := .deliver i j env

def n₀ : Fin 3 := 0
def n₁ : Fin 3 := 1
def n₂ : Fin 3 := 2

/-- Node `n₀` announces a change of metadata and the others acknowledge it; other steps are
taken before the session goes on to its end. -/
def metadataSession (between : List (FlockAct 3)) : List (FlockAct 3) :=
  [changes n₀ 'f', tells n₀, hears n₁ n₀, hears n₂ n₀, tells n₁, tells n₂] ++ between ++
    [hears n₀ n₁, hears n₀ n₂, tells n₀, tells n₀, hears n₁ n₀, hears n₁ n₀, hears n₂ n₀, hears n₂ n₀,
      tells n₁, tells n₂, hears n₀ n₁, hears n₀ n₂, tells n₀, hears n₁ n₀, hears n₂ n₀]

end Sample

end Flocksy
