import Flocksy.BoxofficeStep
import Flocksy.HeartbeatTransport
import Flocksy.LocalQueues
import Flocksy.StageEffects
import Flocksy.Transmission

/-!
# Lengths on the wire

A publisher fills heartbeats up to one width, which no payload exceeds, so every heartbeat of
every node has it. The dispatcher fills data packages and dummies up to one width as well. But
the sizes of the packages add up, and the five bytes of the header stand before the first one
only, so the widths agree as long as the file has at most five bytes more than a package.
-/

namespace Flocksy

open ByteStream Fsm Runs

/-- A status of three digits, and a payload of `prepareHeartbeatMessage`. -/
def Tellable (s : Status) (bytes : Bytes) : Prop :=
  s ≠ .null ∧ ∃ payload : HeartbeatPayload, bytes = payload.bytes

def TellsWell (out : List Effect) : Prop :=
  ∀ s payload, .heartbeat s payload ∈ out → Tellable s payload

theorem Effect.Quiet.tellable {s : Status} {payload : Bytes}
    (h : (Effect.heartbeat s payload).Quiet) : Tellable s payload := by
  obtain ⟨rfl, rfl⟩ := h
  exact ⟨by decide, .empty, rfl⟩

theorem TellsWell.kept {fr fr' : Frame} (h : TellsWell fr.out) (hkept : Kept fr fr') :
    TellsWell fr'.out := by
  obtain ⟨es, hes, hquiet⟩ := hkept.out
  intro s payload hmem
  rw [hes] at hmem
  rcases List.mem_append.1 hmem with hmem | hmem
  · exact h s payload hmem
  · exact Effect.Quiet.tellable (hquiet _ hmem)

theorem stages_tellsWell {fr : Frame} (hout : fr.out = []) :
    (stages fr).Post (Exec.whenReturned fun fr' => TellsWell fr'.out) := by
  have hnone : TellsWell fr.out := by simp [TellsWell, hout]
  have hstamp : (updateTimestamp fr).out = [] := hout
  refine stages_keep ?_ fun fr₁ fr₂ h hkept => h.kept hkept
  unfold receivedHeartbeat
  split_ifs
  · by_cases h100 : fr.status = .s100
    · simp only [heartbeatBranch, updateTimestamp_status, h100]
      exact hnone
    by_cases h155 : fr.status = .s155
    · simp only [heartbeatBranch, updateTimestamp_status, h155, receivedStopTime]
      split_ifs
      · intro s payload hmem
        simp [Frame.send, hstamp] at hmem
      · exact hnone
    have hbefore : TellsWell (updateTimestamp fr).out := hnone
    have hkept := heartbeatBranch_kept (updateTimestamp fr) h100 h155
    exact hkept.mono (fun _ h => hbefore.kept h) (fun _ _ h => hbefore.kept h) fun _ h => h
  · exact hnone

theorem prepareHeartbeatMessage_out {fr fr' : Frame} {newState : State} {bs : Bytes}
    (h : prepareHeartbeatMessage fr newState = .ok (bs, fr')) {s : Status} {payload : Bytes}
    (hmem : .heartbeat s payload ∈ fr'.out) : .heartbeat s payload ∈ fr.out := by
  unfold prepareHeartbeatMessage at h
  simp only at h
  split_ifs at h with hdata hmetadata hstop
  · split at h
    · simp at h
    · obtain ⟨-, rfl⟩ := Prod.mk.inj (Except.ok.inj h)
      exact hmem
  · split at h
    · simp at h
    · obtain ⟨-, rfl⟩ := Prod.mk.inj (Except.ok.inj h)
      exact hmem
  · obtain ⟨-, rfl⟩ := Prod.mk.inj (Except.ok.inj h)
    simpa using hmem
  · obtain ⟨-, rfl⟩ := Prod.mk.inj (Except.ok.inj h)
    exact hmem

theorem row_ne_null : ∀ state, ∀ t ∈ usedTransitions state, t.heartbeat ≠ .null := by
  decide

theorem fsmContinue_tellsWell {fr : Frame} {t : Transition}
    (ht : transition fr.bo.state fr.event fr.status = some t) (hnull : t.heartbeat ≠ .null)
    (h : TellsWell fr.out) : (fsmContinue fr).Post (Exec.whenNext fun fr' => TellsWell fr'.out) := by
  have hbeat : getHeartbeatStatus fr.bo.state fr.event fr.status = t.heartbeat := by
    simp [getHeartbeatStatus, ht]
  unfold fsmContinue
  simp only
  split_ifs
  · cases getAction fr.bo.state fr.event fr.status with
    | sendHeartbeat =>
      simp only [performAction, updateHeartbeat, hbeat]
      cases hprepare : prepareHeartbeatMessage fr
          (getNewState fr.bo.state fr.event fr.status) with
      | error f => trivial
      | ok x =>
        obtain ⟨bs, fr₁⟩ := x
        intro s payload hmem
        rcases List.mem_append.1 hmem with hmem | hmem
        · exact h s payload (prepareHeartbeatMessage_out hprepare hmem)
        · obtain ⟨rfl, rfl⟩ := Effect.heartbeat.inj (List.mem_singleton.1 hmem)
          exact ⟨hnull, prepareHeartbeatMessage_payload hprepare⟩
    | _ => exact h
  · exact h

theorem stages_of_returned {fr : Frame} {code : ℕ} {bo' : Boxoffice} {out : List Effect}
    (h : outcome ((stages fr).andThen fsmContinue) = .returned code bo' out) (hcode : code ≠ 0) :
    ∃ fr', stages fr = .ret code fr' ∧ fr'.out = out := by
  cases hstaged : stages fr with
  | fault f => simp [hstaged, Exec.andThen, outcome] at h
  | ret code' fr' =>
    rw [hstaged] at h
    injection h with hcode' _ hout
    exact ⟨fr', hcode' ▸ rfl, hout⟩
  | next fr₁ =>
    simp only [hstaged, Exec.andThen, fsmContinue] at h
    split_ifs at h
    · cases hact : performAction fr₁ (getAction fr₁.bo.state fr₁.event fr₁.status)
          (getNewState fr₁.bo.state fr₁.event fr₁.status) with
      | error f => simp [hact, outcome] at h
      | ok fr₂ =>
        simp only [hact, outcome] at h
        injection h with hzero
        exact absurd hzero.symm hcode
    · injection h with hzero
      exact absurd hzero.symm hcode

theorem effects_tellsWell (bo : Boxoffice) (inp : Input) : TellsWell (bo.effects inp) := by
  have hstages :=
    stages_tellsWell (show (Frame.start bo inp.status inp.sstream inp.env).out = [] from rfl)
  have hprocessed := processEvent_processed bo inp
  generalize hcall : processEvent bo inp.status inp.sstream inp.env = result at hprocessed
  cases hprocessed with
  | ignored => simp [TellsWell, Boxoffice.effects, hcall]
  | failed => simp [TellsWell, Boxoffice.effects, hcall]
  | front => simp [TellsWell, Boxoffice.effects, hcall]
  | moved ht hm =>
    have hbefore := hstages.whenNext_of_returned.of_next ht.staged
    obtain ⟨fr', hcontinue, -, hout⟩ := ht.continues (next_of_returned hcall)
    have hafter := fsmContinue_tellsWell ht.transition_eq (row_ne_null _ _ ht.mem_usedTransitions)
      hbefore
    exact hout ▸ hafter.of_next hcontinue
  | @stopped code bo' out hacc hstop =>
    have hcode : code ≠ 0 := by
      rintro rfl
      cases hstop
    have hearly : outcome ((stages (Frame.start bo inp.status inp.sstream inp.env)).andThen
        fsmContinue) = .returned code bo' out := by
      rw [← hcall, processEvent]
      exact (if_pos hacc).symm
    obtain ⟨fr', hstaged, hout⟩ := stages_of_returned hearly hcode
    rw [hstaged] at hstages
    simp only [Boxoffice.effects, hcall]
    exact hout ▸ hstages

theorem length_write_le (f : File) : f.write.length ≤ 207 := by
  unfold File.write File.body
  split_ifs
  all_goals
    simp [f.boxHash.length_eq, f.path_length, genericHashLen, maximumPathLength, File.inDelete,
      ascii]

theorem HeartbeatPayload.length_le (payload : HeartbeatPayload) : payload.bytes.length ≤ 215 := by
  cases payload with
  | fileAndTiming f offset =>
    have hfile := length_write_le f
    simp only [bytes, List.length_append, timingBytes_length]
    omega
  | file f =>
    have hfile := length_write_le f
    simp only [bytes]
    omega
  | timing offset => simp [bytes]
  | empty => simp [bytes]

structure Heartbeater.Fits (hb : Heartbeater) : Prop where
  status : ∃ s ≠ Status.null, hb.currentStatus = s.toNat
  message : hb.currentMessage.length ≤ 216

def ToldText (text : Bytes) : Prop := ∃ s payload, Tellable s payload ∧ text = fsmMessage s payload

theorem heartbeaterTurn_fits (hb : Heartbeater) (turn : Option Bytes × UInt64) (hfits : hb.Fits)
    (htold : ∀ text ∈ turn.1, ToldText text) :
    ∃ hb' text, heartbeaterTurn hb turn = some (hb', text) ∧ hb'.Fits ∧
      ∃ hb : Heartbeater, ∃ timestamp, hb.Fits ∧ text = hb.message timestamp := by
  obtain ⟨received, timestamp⟩ := turn
  cases received with
  | none => exact ⟨hb, _, rfl, hfits, hb, timestamp, hfits, rfl⟩
  | some text =>
    obtain ⟨s, bytes, ⟨hnull, payload, rfl⟩, rfl⟩ := htold text rfl
    obtain ⟨hb', hturn, hstatus, hmessage⟩ :=
      heartbeaterTurn_update hb s payload.bytes timestamp
    have hfits' : hb'.Fits := by
      refine ⟨⟨s, hnull, hstatus⟩, ?_⟩
      have hline := (List.takeWhile_prefix (· != newline) (l := payload.bytes)).length_le
      have hle := payload.length_le
      rw [hmessage, List.length_cons]
      omega
    exact ⟨hb', _, hturn, hfits', hb', timestamp, hfits', rfl⟩

theorem length_fillTo {width : ℕ} {text : Bytes} (h : text.length ≤ width) :
    (fillTo width text).length = width := by
  rw [fillTo, List.length_append, List.length_replicate]
  omega

theorem publisherTurn_fits (pub : ℤ × ℤ) {hb : Heartbeater} (hfits : hb.Fits)
    (timestamp : UInt64) : ∃ pub' wire, publisherTurn pub (hb.message timestamp) =
      some (pub', wire) ∧ wire.length = minimumHbWidth := by
  obtain ⟨s, hnull, hstatus⟩ := hfits.status
  refine ⟨_, _, publisherTurn_heartbeat hstatus hnull pub timestamp, length_fillTo ?_⟩
  obtain ⟨hmin, hmax⟩ := three_digits s hnull
  have hle := hfits.message
  simp only [List.length_append, List.length_cons, length_decimal_three hmin hmax,
    timingBytes_length, minimumHbWidth]
  omega

/-- A run of a boxoffice, and the turns of its heartbeater: each brings a heartbeat of one of
the calls, or none. The variables of the heartbeater and of the publisher are not initialised. -/
structure NodeRun where
  start : Boxoffice
  trace : List (Boxoffice × Input)
  last : Boxoffice
  run : Run Boxoffice.next start trace last
  turns : List (Option Bytes × UInt64)
  told : ∀ turn ∈ turns, ∀ text ∈ turn.1, ∃ call : Boxoffice × Input,
    (call ∈ trace ∨ call.1 = last) ∧ ∃ s payload,
      .heartbeat s payload ∈ call.1.effects call.2 ∧ text = fsmMessage s payload
  heartbeaterOld : ℤ × ℤ
  publisherOld : ℤ × ℤ

def NodeRun.wires (r : NodeRun) : List Bytes :=
  relay publisherTurn r.publisherOld <|
    relay heartbeaterTurn ⟨r.heartbeaterOld.1, r.heartbeaterOld.2, Status.s100.toNat, []⟩ r.turns

theorem NodeRun.wires_length (r : NodeRun) : r.wires.length = r.turns.length ∧
    ∀ wire ∈ r.wires, wire.length = minimumHbWidth := by
  have htold : ∀ turn ∈ r.turns, ∀ text ∈ turn.1, ToldText text := by
    intro turn hturn text htext
    obtain ⟨call, -, s, payload, hmem, rfl⟩ := r.told turn hturn text htext
    exact ⟨s, payload, effects_tellsWell _ _ s payload hmem, rfl⟩
  have hstart : Heartbeater.Fits ⟨r.heartbeaterOld.1, r.heartbeaterOld.2, Status.s100.toNat, []⟩ :=
    ⟨⟨.s100, by decide, rfl⟩, by simp⟩
  obtain ⟨hlen, hbeats⟩ := relay_spec heartbeaterTurn_fits htold hstart
  have hpub : ∀ (pub : ℤ × ℤ) text, True → (∃ hb : Heartbeater, ∃ timestamp, hb.Fits ∧
      text = hb.message timestamp) → ∃ pub' wire, publisherTurn pub text = some (pub', wire) ∧
        True ∧ wire.length = minimumHbWidth := by
    rintro pub text - ⟨hb, timestamp, hfits, rfl⟩
    obtain ⟨pub', wire, hturn, hwire⟩ := publisherTurn_fits pub hfits timestamp
    exact ⟨pub', wire, hturn, trivial, hwire⟩
  obtain ⟨hlen', hwires⟩ := relay_spec hpub hbeats (s := r.publisherOld) trivial
  exact ⟨hlen'.trans hlen, hwires⟩

/-- Heartbeats are told apart by nothing but their number: every turn of every node sends one, and
all have the same length. -/
theorem heartbeats_sameLength (r r' : NodeRun) :
    r.wires.map List.length = List.replicate r.turns.length minimumHbWidth ∧
      ∀ wire ∈ r.wires, ∀ wire' ∈ r'.wires, wire.length = wire'.length := by
  obtain ⟨hlen, hwires⟩ := r.wires_length
  refine ⟨?_, fun wire hwire wire' hwire' => ?_⟩
  · rw [List.eq_replicate_iff, List.length_map]
    exact ⟨hlen, by simpa using hwires⟩
  · rw [hwires wire hwire, r'.wires_length.2 wire' hwire']

namespace Sample

def promotion : Bytes := (file 'f').write ++ timingBytes 3000

def senderTurns : List (Option Bytes × UInt64) :=
  [(none, 1), (some (fsmMessage .s130 promotion), 2), (none, 3)]

theorem announcing_run : Run Boxoffice.next (start [.fill 65])
    (record Boxoffice.next (start [.fill 65]) [modified 'f'] []) announcing :=
  run_after (by decide)

theorem sender_told : ∀ turn ∈ senderTurns, ∀ text ∈ turn.1, ∃ call : Boxoffice × Input,
    (call ∈ record Boxoffice.next (start [.fill 65]) [modified 'f'] [] ∨ call.1 = announcing) ∧
      ∃ s payload, .heartbeat s payload ∈ call.1.effects call.2 ∧ text = fsmMessage s payload := by
  have hmem : .heartbeat .s130 promotion ∈
      announcing.effects (heard .s121 (by decide) (.fill 65)) := by
    decide +kernel
  intro turn hturn text htext
  have hsome : turn = (some (fsmMessage .s130 promotion), 2) := by
    simp only [senderTurns, List.mem_cons, List.not_mem_nil, or_false] at hturn
    rcases hturn with rfl | rfl | rfl
    · cases htext
    · rfl
    · cases htext
  subst hsome
  exact ⟨(announcing, heard .s121 (by decide) (.fill 65)), .inr rfl, .s130, promotion, hmem,
    (Option.some.inj htext).symm⟩

def senderRun : NodeRun where
  start := start [.fill 65]
  trace := record Boxoffice.next (start [.fill 65]) [modified 'f'] []
  last := announcing
  run := announcing_run
  turns := senderTurns
  told := sender_told
  heartbeaterOld := (0, 0)
  publisherOld := (0, 0)

theorem idle_run : Run Boxoffice.next (start [.fill 66]) [] (start [.fill 66]) := .nil

theorem idle_told : ∀ turn ∈ [((none : Option Bytes), (1 : UInt64))], ∀ text ∈ turn.1,
    ∃ call : Boxoffice × Input, (call ∈ [] ∨ call.1 = start [.fill 66]) ∧
      ∃ s payload, .heartbeat s payload ∈ call.1.effects call.2 ∧ text = fsmMessage s payload := by
  simp

def idleRun : NodeRun where
  start := start [.fill 66]
  trace := []
  last := start [.fill 66]
  run := idle_run
  turns := [(none, 1)]
  told := idle_told
  heartbeaterOld := (0, 0)
  publisherOld := (0, 0)

end Sample

theorem heartbeats_sameLength_sender :
    Sample.senderRun.wires.map List.length = List.replicate 3 minimumHbWidth ∧
      ∀ wire ∈ Sample.senderRun.wires, ∀ wire' ∈ Sample.idleRun.wires,
        wire.length = wire'.length :=
  heartbeats_sameLength Sample.senderRun Sample.idleRun

/-- The message of `Dispatcher::sendFakeData`. -/
def sendFakeData (currentStatus : Status) : Bytes :=
  fillTo (maximumFilePackageSize + 22) (statusHeader currentStatus)

def HasStatus (old : ℤ × ℤ) : Prop := ∃ n : ℕ, 100 ≤ n ∧ n < 1000 ∧ old.2 = n

structure LooksFake (old : ℤ × ℤ) (message : Bytes) : Prop where
  sent : message.length = (sendFakeData .s210).length
  wire : ∀ old', (publisherTurn old message).map (fun turn => turn.2.length) =
    (publisherTurn old' (sendFakeData .s210)).map fun turn => turn.2.length

/-- The messages of the send loop look like those of `sendFakeData`, whatever the publisher has
sent before them. -/
def AllLookFake : List Bytes → Prop
  | [] => True
  | first :: later => (∀ old, LooksFake old first) ∧
      ∀ message ∈ later, ∀ old, HasStatus old → LooksFake old message

theorem length_sendFakeData : (sendFakeData .s210).length = maximumFilePackageSize + 22 :=
  length_fillTo (by decide)

theorem length_packageMessage (header : Bytes) (offset dataSize : ℕ) (more : Bool)
    (contents : Bytes) : (packageMessage header offset dataSize more contents).length =
      max (maximumFilePackageSize + 22) (header.length + 17 + contents.length) := by
  simp only [packageMessage, fillTo, List.length_append, List.length_replicate, toBigEndian_length,
    List.length_singleton]
  omega

/-- The publisher puts the three digits of a status in the place of five bytes. -/
def ShortensByTwo (old : ℤ × ℤ) (message : Bytes) : Prop :=
  ∃ pub wire, publisherTurn old message = some (pub, wire) ∧ wire.length + 2 = message.length

theorem shortens_headed (old : ℤ × ℤ) {status : Status} (hnull : status ≠ .null) {body : Bytes}
    (hlong : minimumHbWidth ≤ body.length) (hhead : ∀ b ∈ body.head?, isDigit b = false) :
    ShortensByTwo old (statusHeader status ++ body) := by
  obtain ⟨hmin, hmax⟩ := three_digits status hnull
  have hdigits := length_decimal_three hmin hmax
  have hne : body ≠ [] := by
    rintro rfl
    simp [minimumHbWidth] at hlong
  have hone : (decimal sigtypePub).length = 1 := by decide
  refine ⟨_, _, publisherTurn_headed old hmin hmax hne hhead, ?_⟩
  rw [fillTo_of_le (by rw [List.length_append]; omega)]
  simp only [statusHeader, signalPrefix, List.length_append, List.length_cons, hdigits, hone]
  omega

theorem shortens_bare {old : ℤ × ℤ} (hold : HasStatus old) {text : Bytes}
    (hhead : text.head? = some 0) (hlong : minimumHbWidth + 5 ≤ text.length) :
    ShortensByTwo old text := by
  obtain ⟨n, hmin, hmax, hn⟩ := hold
  have hsignal : n ≠ siglifeInterrupt := by
    rw [siglifeInterrupt]
    omega
  refine ⟨_, _, publisherTurn_bare hn hsignal hhead hlong, ?_⟩
  rw [List.length_append, List.length_drop, length_decimal_three hmin hmax]
  omega

theorem shortens_sendFakeData (old : ℤ × ℤ) : ShortensByTwo old (sendFakeData .s210) := by
  have hheader : (statusHeader .s210).length = 5 := by decide
  apply shortens_headed old (by decide)
  · rw [List.length_replicate, hheader]
    decide
  · rw [hheader, maximumFilePackageSize, List.replicate_succ]
    intro b hb
    obtain rfl := Option.some.inj hb
    decide

theorem looksFake_iff {old : ℤ × ℤ} {message : Bytes} (hturn : ShortensByTwo old message) :
    LooksFake old message ↔ message.length = maximumFilePackageSize + 22 := by
  constructor
  · intro hfake
    rw [hfake.sent, length_sendFakeData]
  · intro hlen
    refine ⟨by rw [hlen, length_sendFakeData], fun old' => ?_⟩
    obtain ⟨pub, wire, hmessage, hwire⟩ := hturn
    obtain ⟨pub', wire', hdummy, hwire'⟩ := shortens_sendFakeData old'
    rw [length_sendFakeData] at hwire'
    simp only [hmessage, hdummy, Option.map_some, Option.some.injEq]
    omega

section Packages

variable (dataSize : ℕ) (more : Bool) (contents : Bytes)

theorem shortens_firstPackage (old : ℤ × ℤ) :
    ShortensByTwo old (packageMessage (statusHeader .s200) 0 dataSize more contents) := by
  obtain ⟨pad, hpackage⟩ := packageMessage_eq (statusHeader .s200) 0 dataSize more contents
  have hlength := le_length_packageMessage (statusHeader .s200) 0 dataSize more contents
  have hheader : (statusHeader .s200).length = 5 := by decide
  rw [hpackage, List.length_append, hheader] at hlength
  rw [hpackage]
  apply shortens_headed old (by decide)
  · simp only [maximumFilePackageSize, minimumHbWidth] at *
    omega
  · intro b hb
    obtain rfl := Option.some.inj hb
    decide

theorem shortens_nextPackage {old : ℤ × ℤ} (hold : HasStatus old) :
    ShortensByTwo old (packageMessage [] maximumFilePackageSize dataSize more contents) := by
  obtain ⟨pad, hpackage⟩ := packageMessage_eq [] maximumFilePackageSize dataSize more contents
  have hlength := le_length_packageMessage [] maximumFilePackageSize dataSize more contents
  apply shortens_bare hold
  · rw [hpackage]
    rfl
  · exact le_trans (by decide) hlength

end Packages

theorem not_allLookFake_of_long {content : Bytes}
    (h : maximumFilePackageSize + 5 < content.length) (memory : ℕ → Bytes) :
    ¬ AllLookFake (sendPackages content content.length memory (statusHeader .s200) 0 0) := by
  obtain ⟨more, contents, later, hmessages, hlen, -⟩ :=
    sendPackages_long (show maximumFilePackageSize < content.length by omega) memory
  rw [hmessages]
  rintro ⟨-, hlater⟩
  have hold : HasStatus (1, 200) := ⟨200, by decide, by decide, rfl⟩
  have hfake := hlater _ List.mem_cons_self (1, 200) hold
  rw [looksFake_iff (shortens_nextPackage _ _ _ hold), length_packageMessage, hlen] at hfake
  simp only [List.length_nil, maximumFilePackageSize] at *
  omega

/-- Data packages and dummies have the same lengths exactly as long as the file is at most five
bytes longer than a package. -/
theorem packages_lookFake_iff (content : Bytes) (memory : ℕ → Bytes) :
    AllLookFake (sendPackages content content.length memory (statusHeader .s200) 0 0) ↔
      content.length ≤ maximumFilePackageSize + 5 := by
  constructor
  · intro hfake
    by_contra hlong
    exact not_allLookFake_of_long (not_le.1 hlong) memory hfake
  intro hle
  by_cases hshort : content.length ≤ maximumFilePackageSize
  · rw [sendPackages_short hshort]
    refine ⟨fun old => ?_, by simp⟩
    rw [looksFake_iff (shortens_firstPackage _ _ _ old), length_packageMessage,
      show (statusHeader .s200).length = 5 by decide]
    omega
  · obtain ⟨more, contents, later, hmessages, hlen, hlast⟩ :=
      sendPackages_long (not_le.1 hshort) memory
    have hdouble : content.length ≤ 2 * maximumFilePackageSize := by
      simp only [maximumFilePackageSize] at *
      omega
    rw [hmessages, hlast hdouble]
    refine ⟨fun old => ?_, fun message hmem old hold => ?_⟩
    · rw [looksFake_iff (shortens_firstPackage _ _ _ old), length_packageMessage,
        show (statusHeader .s200).length = 5 by decide, List.length_take]
      omega
    · obtain rfl := List.mem_singleton.1 hmem
      rw [looksFake_iff (shortens_nextPackage _ _ _ hold), length_packageMessage, hlen]
      simp only [List.length_nil]
      omega

/-- A file of six bytes more than a package. -/
theorem packages_lookFake_fails : ¬ AllLookFake (sendPackages (List.replicate 4102 0)
    (List.replicate 4102 (0 : UInt8)).length (fun _ => []) (statusHeader .s200) 0 0) :=
  not_allLookFake_of_long (by rw [List.length_replicate]; decide) _

end Flocksy
