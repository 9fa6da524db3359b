import Flocksy.Relays

/-!
# The way of a heartbeat

The payload that the boxoffice writes behind a status reaches the publisher's socket in
every turn of the heartbeater until the next status comes. The heartbeater keeps it with
`getline`, so it arrives whole if and only if no byte of it is a line end. At the other
end the subscriber writes the uid of the peer directly behind the digits of the status, so
status, uid and time stamp are read back if and only if the uid does not start with a digit.
-/

namespace Flocksy

open ByteStream Fsm

/-- What `prepareHeartbeatMessage` writes behind the status. -/
inductive HeartbeatPayload where
  | fileAndTiming (f : File) (offset : UInt64)
  | file (f : File)
  | timing (offset : UInt64)
  | empty

def HeartbeatPayload.bytes : HeartbeatPayload → Bytes
  | .fileAndTiming f offset => f.write ++ timingBytes offset
  | .file f => f.write
  | .timing offset => timingBytes offset
  | .empty => []

theorem prepareHeartbeatMessage_payload {fr fr' : Frame} {newState : State} {bs : Bytes}
    (h : prepareHeartbeatMessage fr newState = .ok (bs, fr')) :
    ∃ payload : HeartbeatPayload, bs = payload.bytes := by
  unfold prepareHeartbeatMessage at h
  simp only at h
  split_ifs at h with hdata hmetadata hstop
  · cases hlist : fr.bo.fileListData with
    | nil => simp [hlist] at h
    | cons p ps =>
      simp only [hlist, Except.ok.injEq, Prod.mk.injEq] at h
      exact ⟨.fileAndTiming p.file fr.bo.currentTimingOffset, h.1.symm⟩
  · cases hlist : fr.bo.fileListMetadata with
    | nil => simp [hlist] at h
    | cons p ps =>
      simp only [hlist, Except.ok.injEq, Prod.mk.injEq] at h
      exact ⟨.file p.file, h.1.symm⟩
  · simp only [Except.ok.injEq, Prod.mk.injEq] at h
    exact ⟨.timing _, h.1.symm⟩
  · simp only [Except.ok.injEq, Prod.mk.injEq] at h
    exact ⟨.empty, h.1.symm⟩

/-- The status, a blank, the time stamp, a blank, the payload, and only then padding. -/
def Carries (status : Status) (payload : Bytes) (wire : Bytes) (timestamp : UInt64) : Prop :=
  ∃ width, wire = decimal status.toNat ++ (space :: (timingBytes timestamp ++
    (space :: (payload ++ List.replicate width space))))

/-- The wire messages of a heartbeat: one for the turn in which the heartbeater receives it,
and one for each turn after it. -/
def heartbeatWires (hb : Heartbeater) (pub : ℤ × ℤ) (status : Status) (payload : Bytes)
    (first : UInt64) (later : List UInt64) : List Bytes :=
  relay publisherTurn pub <| relay heartbeaterTurn hb <|
    (some (fsmMessage status payload), first) :: later.map fun timestamp => (none, timestamp)

theorem relay_idle (hb : Heartbeater) (timestamps : List UInt64) :
    relay heartbeaterTurn hb (timestamps.map fun timestamp => (none, timestamp)) =
      timestamps.map hb.message := by
  induction timestamps with
  | nil => rfl
  | cons timestamp timestamps ih =>
    rw [List.map_cons, List.map_cons, ← ih]
    exact relay_cons rfl _

theorem three_digits : ∀ status : Status, status ≠ .null →
    100 ≤ status.toNat ∧ status.toNat < 1000 := by
  decide +kernel

section Wire

variable {hb : Heartbeater} {status : Status} (hstatus : hb.currentStatus = status.toNat)
  (hthree : status ≠ .null)
include hstatus hthree

theorem publisherTurn_heartbeat (pub : ℤ × ℤ) (timestamp : UInt64) :
    publisherTurn pub (hb.message timestamp) = some ((1, (status.toNat : ℤ)),
      fillTo minimumHbWidth (decimal status.toNat ++
        (space :: (timingBytes timestamp ++ hb.currentMessage)))) := by
  have htext : hb.message timestamp = signalPrefix sigtypePub status.toNat ++
      (space :: (timingBytes timestamp ++ hb.currentMessage)) := by
    simp [Heartbeater.message, signalPrefix, hstatus]
  obtain ⟨hmin, hmax⟩ := three_digits status hthree
  rw [htext, publisherTurn_headed pub hmin hmax (by simp) (by simp; decide)]

theorem relay_publisher (pub : ℤ × ℤ) (timestamps : List UInt64) :
    relay publisherTurn pub (timestamps.map hb.message) = timestamps.map fun timestamp =>
      fillTo minimumHbWidth (decimal status.toNat ++
        (space :: (timingBytes timestamp ++ hb.currentMessage))) := by
  induction timestamps generalizing pub with
  | nil => rfl
  | cons timestamp timestamps ih =>
    rw [List.map_cons, relay_cons (publisherTurn_heartbeat hstatus hthree pub timestamp), ih]
    rfl

end Wire

/-- A line that was cut does not end in the padding of the whole one. -/
theorem carries_iff {status : Status} {payload : Bytes} {timestamp : UInt64} :
    Carries status payload (fillTo minimumHbWidth (decimal status.toNat ++
      (space :: (timingBytes timestamp ++ (space :: payload.takeWhile (· != newline))))))
      timestamp ↔ newline ∉ payload := by
  constructor
  · rintro ⟨width, hwire⟩ hmem
    simp only [fillTo, List.append_assoc, List.cons_append, List.append_cancel_left_eq,
      List.cons.injEq, true_and] at hwire
    have hnewline : newline ∈ payload ++ List.replicate width space :=
      List.mem_append_left _ hmem
    rw [← hwire, List.mem_append] at hnewline
    rcases hnewline with hline | hpad
    · simpa using List.mem_takeWhile_imp hline
    · exact absurd (List.eq_of_mem_replicate hpad) (by decide)
  · intro hmem
    have hline : payload.takeWhile (· != newline) = payload := by
      rw [List.takeWhile_eq_self_iff]
      intro b hb
      rw [bne_iff_ne]
      rintro rfl
      exact hmem hb
    rw [hline]
    refine ⟨minimumHbWidth - (decimal status.toNat ++
      (space :: (timingBytes timestamp ++ (space :: payload)))).length, ?_⟩
    rw [fillTo]
    simp only [List.append_assoc, List.cons_append]

/-- The payload of a heartbeat is carried intact in every turn if and only if no byte of it
ends a line. -/
theorem heartbeat_carried_iff (hb : Heartbeater) (pub : ℤ × ℤ) {status : Status}
    (hthree : status ≠ .null) (payload : HeartbeatPayload) (first : UInt64)
    (later : List UInt64) :
    List.Forall₂ (Carries status payload.bytes)
      (heartbeatWires hb pub status payload.bytes first later) (first :: later) ↔
        newline ∉ payload.bytes := by
  obtain ⟨hb', hturn, hstatus, hmessage⟩ :=
    heartbeaterTurn_update hb status payload.bytes first
  have hwires : heartbeatWires hb pub status payload.bytes first later =
      (first :: later).map fun timestamp => fillTo minimumHbWidth (decimal status.toNat ++
        (space :: (timingBytes timestamp ++ hb'.currentMessage))) := by
    rw [heartbeatWires, relay_cons hturn, relay_idle, ← List.map_cons]
    exact relay_publisher hstatus hthree pub (first :: later)
  rw [hwires, hmessage, List.forall₂_map_left_iff]
  constructor
  · intro hcarried
    rw [List.forall₂_cons] at hcarried
    exact carries_iff.1 hcarried.1
  · intro hline
    exact List.forall₂_same.2 fun timestamp _ => carries_iff.2 hline

/-- A stop time as it is sent with 155. -/
theorem heartbeat_carried_stopTime :
    List.Forall₂ (Carries .s155 (timingBytes 1))
      (heartbeatWires ⟨0, 0, 0, []⟩ (0, 0) .s155 (timingBytes 1) 0 []) [0] :=
  (heartbeat_carried_iff ⟨0, 0, 0, []⟩ (0, 0) (show Status.s155 ≠ .null by decide) (.timing 1)
    0 []).2 (by decide)

/-- Another one, whose last byte ends the line. -/
theorem not_heartbeat_carried :
    ¬ List.Forall₂ (Carries .s155 (HeartbeatPayload.timing 10).bytes)
      (heartbeatWires ⟨0, 0, 0, []⟩ (0, 0) .s155 (HeartbeatPayload.timing 10).bytes 0 []) [0] := by
  have hwires : heartbeatWires ⟨0, 0, 0, []⟩ (0, 0) .s155 (HeartbeatPayload.timing 10).bytes 0 [] =
      [fillTo minimumHbWidth (decimal 155 ++ (space :: (timingBytes 0 ++
        (space :: (HeartbeatPayload.timing 10).bytes.takeWhile (· != newline)))))] := by
    decide +kernel
  rw [hwires, List.forall₂_cons]
  rintro ⟨hcarried, -⟩
  exact carries_iff.1 hcarried (by decide)

def wireMessage (n : ℕ) (timestamp : UInt64) (payload : Bytes) : Bytes :=
  decimal n ++ (space :: (timingBytes timestamp ++ payload))

/-- The router and `updateTimestamp` read the status, the uid and the time stamp, and leave
the stream before the payload. -/
structure Framed (text : Bytes) (n : ℕ) (uid : Hash) (timestamp : UInt64) (payload : Bytes)
    (old : ℤ × ℤ) (fr : Frame) : Prop where
  type : (readSignal old text).1 = sigtypeSub
  signal : (readSignal old text).2.1 = n
  sender : (updateTimestamp { fr with sstream := (readSignal old text).2.2 }).bo.currentNodeHash =
    uid
  timestamp : ((updateTimestamp { fr with
    sstream := (readSignal old text).2.2 }).bo.subscribers.val uid).lastTimestamp =
      timestamp.toInt64
  stream : ∃ before, (updateTimestamp { fr with sstream := (readSignal old text).2.2 }).sstream =
    Stream.cursor before payload

theorem subscriberTurn_wireMessage (old : ℤ × ℤ) (uid : Hash) {n : ℕ} (hmin : 100 ≤ n)
    (hmax : n < 1000) (timestamp : UInt64) (payload : Bytes) :
    subscriberTurn uid old (wireMessage n timestamp payload) = some (((n : ℤ), (n : ℤ)),
      subscriberMessage n uid (space :: (timingBytes timestamp ++ payload))) :=
  subscriberTurn_headed old uid hmin hmax (by simp) (by simp; decide)

/-- The digits of a uid belong to the number before it. -/
theorem readSignal_digits (old : ℤ × ℤ) (n : ℕ) (uid : Hash) (info : Bytes) :
    (readSignal old (subscriberMessage n uid (space :: info))).2.1 =
      ((min (digitsValue (decimal n ++ uid.bytes.takeWhile isDigit)) Stream.intMax : ℕ) : ℤ) := by
  have hfirst : (Stream.cursor [] ([] ++ (decimal sigtypeSub ++
      ([space] ++ (decimal n ++ (uid.bytes ++ space :: info)))))).extractInt old.1 = _ :=
    Stream.extractInt_cursor (by decide) old.1 (by simp) (by simp) (by simp; decide) []
  have hbuf : Stream.ofBytes (subscriberMessage n uid (space :: info)) =
      Stream.cursor [] ([] ++ (decimal sigtypeSub ++
        ([space] ++ (decimal n ++ (uid.bytes ++ space :: info))))) := by
    simp [Stream.ofBytes_eq_cursor, subscriberMessage, signalPrefix]
  simp only [readSignal, hbuf, hfirst]
  rw [extractInt_hash old.2 (by simp; decide)]

theorem Hash.takeWhile_ne_nil {uid : Hash} (hdigit : ¬ uid.Undigit) :
    uid.bytes.takeWhile isDigit ≠ [] := by
  obtain ⟨d, hd, hdig⟩ : ∃ d ∈ uid.bytes.head?, isDigit d = true := by
    simpa [Hash.Undigit] using hdigit
  intro hnil
  cases hbytes : uid.bytes with
  | nil => exact uid.bytes_ne_nil hbytes
  | cons b bs =>
    rw [hbytes] at hd hnil
    obtain rfl := Option.some.inj hd
    simp [hdig] at hnil

theorem ofBigEndian_timingBytes (timestamp : UInt64) :
    UInt64.ofNat (ofBigEndian (padTo 8 (timingBytes timestamp))) = timestamp := by
  rw [padTo_of_length (timingBytes_length timestamp), timingBytes, ofBigEndian_toBigEndian,
    show (256 : ℕ) ^ 8 = 2 ^ 64 by norm_num, Nat.mod_eq_of_lt timestamp.toNat_lt,
    UInt64.ofNat_toNat]

theorem updateTimestamp_cursor {fr : Frame} {before : Bytes} {uid : Hash} {timestamp : UInt64}
    {payload : Bytes} (hs : fr.sstream =
      Stream.cursor before (uid.bytes ++ (space :: (timingBytes timestamp ++ payload)))) :
    updateTimestamp fr =
      { fr with
        sstream := Stream.cursor (before ++ uid.bytes ++ [space] ++ timingBytes timestamp) payload
        bo := { fr.bo with
          currentNodeHash := uid
          subscribers := fr.bo.subscribers.modify uid fun n =>
            { n with
              lastTimestamp := timestamp.toInt64
              offset := (fr.env.received - timestamp).toUInt16.toInt16 } } } := by
  have hseek : (Stream.cursor (before ++ uid.bytes)
      (space :: (timingBytes timestamp ++ payload))).seekCur 1 =
      Stream.cursor (before ++ uid.bytes ++ [space]) (timingBytes timestamp ++ payload) :=
    Stream.seekCur_cursor (show [space].length = 1 from rfl) _ _
  simp only [updateTimestamp, hs, Stream.read_cursor uid.length_eq, hseek,
    Stream.read_cursor (timingBytes_length timestamp), Hash.ofBytes_bytes,
    ofBigEndian_timingBytes]

/-- What the subscriber builds of a heartbeat is read back if and only if the uid of the peer
does not start with a digit. -/
theorem subscriber_framed_iff (old sub : ℤ × ℤ) (fr : Frame) (uid : Hash) {n : ℕ}
    (hmin : 100 ≤ n) (hmax : n < 1000) (timestamp : UInt64) (payload : Bytes) :
    (∃ sub' text, subscriberTurn uid sub (wireMessage n timestamp payload) = some (sub', text) ∧
      Framed text n uid timestamp payload old fr) ↔ uid.Undigit := by
  have hturn := subscriberTurn_wireMessage sub uid hmin hmax timestamp payload
  have hle : n < Stream.intMax := by
    rw [Stream.intMax]
    omega
  constructor
  · rintro ⟨sub', text, htext, hframed⟩
    obtain rfl : subscriberMessage n uid _ = text :=
      congrArg Prod.snd (Option.some.inj (hturn.symm.trans htext))
    by_contra hdigit
    have hsignal := hframed.signal
    rw [readSignal_digits] at hsignal
    have hlt := lt_digitsValue_append (show 0 < n by omega) (Hash.takeWhile_ne_nil hdigit)
    omega
  · intro huid
    have hread : readSignal old (signalPrefix sigtypeSub n ++ (uid.bytes ++
        (space :: (timingBytes timestamp ++ payload)))) = _ :=
      readSignal_prefix old (by decide) hle.le (by simp) (by rwa [uid.head?_append])
    have hstamp : updateTimestamp { fr with
        sstream := (Stream.cursor (signalPrefix sigtypeSub n)
          (uid.bytes ++ (space :: (timingBytes timestamp ++ payload)))) } = _ :=
      updateTimestamp_cursor rfl
    refine ⟨_, _, hturn, ⟨?_, ?_, ?_, ?_, ?_⟩⟩ <;> rw [subscriberMessage, hread]
    · rw [hstamp]
    · rw [hstamp]
      rw [KeyedTable.modify_val_self]
    · rw [hstamp]
      exact ⟨_, rfl⟩

theorem subscriber_framed_letter :
    ∃ sub' text, subscriberTurn (.fill 65) (0, 0) (wireMessage 120 0 [space]) = some (sub', text) ∧
      Framed text 120 (.fill 65) 0 [space] (0, 0) (Frame.start (Sample.start []) .s120
        (Stream.ofBytes []) Sample.env) :=
  (subscriber_framed_iff _ _ _ _ (by decide) (by decide) _ _).2 (Hash.undigit_fill (by decide))

/-- The uid of a peer that starts with the digit 5. -/
theorem not_subscriber_framed :
    ¬ ∃ sub' text, subscriberTurn (.fill 53) (0, 0) (wireMessage 120 0 [space]) =
      some (sub', text) ∧ Framed text 120 (.fill 53) 0 [space] (0, 0)
        (Frame.start (Sample.start []) .s120 (Stream.ofBytes []) Sample.env) := by
  rintro ⟨sub', text, htext, hframed⟩
  have hturn := subscriberTurn_wireMessage (0, 0) (.fill 53) (n := 120) (by decide) (by decide) 0
    [space]
  obtain rfl : subscriberMessage 120 (.fill 53) _ = text :=
    congrArg Prod.snd (Option.some.inj (hturn.symm.trans htext))
  have hsignal := hframed.signal
  rw [readSignal_digits] at hsignal
  exact absurd hsignal (by decide +kernel)

end Flocksy
