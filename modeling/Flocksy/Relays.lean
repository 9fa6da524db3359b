import Flocksy.Messages

/-!
# Heartbeater, publisher and subscriber

Between the boxoffice of one node and the router of another a message passes three
loops. The heartbeater keeps the last status and the rest of the line behind it, and
sends both with a time stamp in each turn; the publisher cuts a header of five bytes off
and puts the status there; the subscriber puts its own header and the uid of the peer in
place of the status. A turn of a loop takes the variables that the turn before has left.
-/

namespace Flocksy

open ByteStream Fsm

/-- `setw(width - p) << " "`, when there is room. -/
def fillTo (width : ℕ) (text : Bytes) : Bytes := text ++ List.replicate (width - text.length) space

def statusHeader (status : Status) : Bytes := signalPrefix sigtypePub status.toNat

/-- `str().substr(n)`, which throws behind the end. -/
def substr (n : ℕ) (text : Bytes) : Option Bytes :=
  if n ≤ text.length then some (text.drop n) else none

def minimumHbWidth : ℕ := 256

def interrupts (msgType msgSignal : ℤ) : Bool :=
  msgType = sigtypeLife ∧ msgSignal = siglifeInterrupt

/-- A loop over the messages received; it ends with a break or an exception. -/
def relay {σ α β : Type*} (turn : σ → α → Option (σ × β)) : σ → List α → List β
  | _, [] => []
  | s, a :: as =>
    match turn s a with
    | none => []
    | some (s, b) => b :: relay turn s as

/-- `current_status_` and `current_message_`, with the variables of the loop. -/
structure Heartbeater where
  msgType : ℤ
  msgSignal : ℤ
  currentStatus : ℤ
  currentMessage : Bytes

def Heartbeater.message (hb : Heartbeater) (timestamp : UInt64) : Bytes :=
  decimal sigtypePub ++ space :: (decimalInt hb.currentStatus ++
    space :: (timingBytes timestamp ++ hb.currentMessage))

/-- One turn of `Heartbeater::run`, in which a message was received or not. -/
def heartbeaterTurn (hb : Heartbeater) (turn : Option Bytes × UInt64) :
    Option (Heartbeater × Bytes) :=
  match turn.1 with
  | none => some (hb, hb.message turn.2)
  | some text =>
    let (msgType, msgSignal, s) := readSignal (hb.msgType, hb.msgSignal) text
    if interrupts msgType msgSignal then none
    else
      let read := { hb with msgType := msgType, msgSignal := msgSignal }
      let hb :=
        if msgType = sigtypeFsm then
          { read with
            currentStatus := msgSignal, currentMessage := (s.getline hb.currentMessage).1 }
        else read
      some (hb, hb.message turn.2)

/-- One turn of `Publisher::run`, with the variables of the turn before. -/
def publisherTurn (old : ℤ × ℤ) (text : Bytes) : Option ((ℤ × ℤ) × Bytes) :=
  let (msgType, msgSignal, _) := readSignal old text
  if interrupts msgType msgSignal then none
  else
    (substr 5 text).map fun infomessage =>
      ((msgType, msgSignal), fillTo minimumHbWidth (decimalInt msgSignal ++ infomessage))

/-- One turn of `Subscriber::run` for the peer `uid`. -/
def subscriberTurn (uid : Hash) (old : ℤ × ℤ) (text : Bytes) : Option ((ℤ × ℤ) × Bytes) :=
  let (msgType, s) := (Stream.ofBytes text).extractInt old.1
  let msgSignal := if msgType = sigtypeLife then (s.extractInt old.2).1 else msgType
  if interrupts msgType msgSignal then none
  else
    (substr 3 text).map fun infomessage =>
      ((msgType, msgSignal),
        decimal sigtypeSub ++ space :: (decimalInt msgSignal ++ (uid.bytes ++ infomessage)))

theorem fillTo_of_le {width : ℕ} {text : Bytes} (h : width ≤ text.length) :
    fillTo width text = text := by
  rw [fillTo, Nat.sub_eq_zero_of_le h, List.replicate_zero, List.append_nil]

theorem substr_append {before : Bytes} {n : ℕ} (h : before.length = n) (after : Bytes) :
    substr n (before ++ after) = some after := by
  subst h
  rw [substr, if_pos (by rw [List.length_append]; omega), List.drop_left]

theorem relay_cons {σ α β : Type*} {turn : σ → α → Option (σ × β)} {s s' : σ} {a : α} {b : β}
    (h : turn s a = some (s', b)) (as : List α) :
    relay turn s (a :: as) = b :: relay turn s' as := by
  simp only [relay, h]

theorem relay_spec {σ α β : Type*} {turn : σ → α → Option (σ × β)} {I : σ → Prop} {P : α → Prop}
    {Q : β → Prop} (hturn : ∀ s a, I s → P a → ∃ s' b, turn s a = some (s', b) ∧ I s' ∧ Q b)
    {as : List α} (has : ∀ a ∈ as, P a) {s : σ} (hs : I s) :
    (relay turn s as).length = as.length ∧ ∀ b ∈ relay turn s as, Q b := by
  induction as generalizing s with
  | nil => simp [relay]
  | cons a as ih =>
    rw [List.forall_mem_cons] at has
    obtain ⟨s', b, hstep, hs', hb⟩ := hturn s a hs has.1
    obtain ⟨hlen, hall⟩ := ih has.2 hs'
    rw [relay_cons hstep]
    exact ⟨by simp [hlen], List.forall_mem_cons.2 ⟨hb, hall⟩⟩

theorem interrupts_of_ne {msgType : ℤ} (h : msgType ≠ sigtypeLife) (msgSignal : ℤ) :
    interrupts msgType msgSignal = false := by
  simp [interrupts, h]

theorem heartbeaterTurn_update (hb : Heartbeater) (status : Status) (payload : Bytes)
    (timestamp : UInt64) :
    ∃ hb', heartbeaterTurn hb (some (fsmMessage status payload), timestamp) =
        some (hb', hb'.message timestamp) ∧ hb'.currentStatus = status.toNat ∧
      hb'.currentMessage = space :: payload.takeWhile (· != newline) := by
  have htext : fsmMessage status payload =
      signalPrefix sigtypeFsm status.toNat ++ space :: payload := by
    simp [fsmMessage, signalPrefix]
  have hread : readSignal (hb.msgType, hb.msgSignal)
      (signalPrefix sigtypeFsm status.toNat ++ space :: payload) = _ :=
    readSignal_prefix _ (by decide) (toNat_le_intMax status) (by simp) (by simp; decide)
  have hgo : interrupts (sigtypeFsm : ℤ) (status.toNat : ℤ) = false :=
    interrupts_of_ne (by decide) _
  have hline : (space :: payload).takeWhile (· != newline) =
      space :: payload.takeWhile (· != newline) := List.takeWhile_cons_of_pos (by decide)
  refine ⟨⟨sigtypeFsm, status.toNat, status.toNat, space :: payload.takeWhile (· != newline)⟩,
    ?_, rfl, rfl⟩
  simp only [heartbeaterTurn, htext, hread, hgo, Stream.getline_good hb.currentMessage
    (Stream.cursor_good _ _), Stream.cursor_rest, hline]
  rfl

theorem publisherTurn_headed (old : ℤ × ℤ) {n : ℕ} (hmin : 100 ≤ n) (hmax : n < 1000)
    {body : Bytes} (hne : body ≠ []) (hhead : ∀ b ∈ body.head?, isDigit b = false) :
    publisherTurn old (signalPrefix sigtypePub n ++ body) =
      some ((1, (n : ℤ)), fillTo minimumHbWidth (decimal n ++ body)) := by
  have hle : n ≤ Stream.intMax := by
    rw [Stream.intMax]
    omega
  have hread : readSignal old (signalPrefix sigtypePub n ++ body) = _ :=
    readSignal_prefix old (by decide) hle hne hhead
  have hlen : (signalPrefix sigtypePub n).length = 5 := by
    have hone : (decimal sigtypePub).length = 1 := by decide
    simp [signalPrefix, hone, length_decimal_three hmin hmax]
  have hgo : interrupts (sigtypePub : ℤ) (n : ℤ) = false := interrupts_of_ne (by decide) _
  simp only [publisherTurn, hread, hgo, substr_append hlen, Option.map_some, decimalInt_natCast]
  rfl

theorem subscriberTurn_headed (old : ℤ × ℤ) (uid : Hash) {n : ℕ} (hmin : 100 ≤ n)
    (hmax : n < 1000) {body : Bytes} (hne : body ≠ [])
    (hhead : ∀ b ∈ body.head?, isDigit b = false) :
    subscriberTurn uid old (decimal n ++ body) =
      some (((n : ℤ), (n : ℤ)), subscriberMessage n uid body) := by
  have hle : n ≤ Stream.intMax := by
    rw [Stream.intMax]
    omega
  have hread : (Stream.cursor [] ([] ++ (decimal n ++ body))).extractInt old.1 = _ :=
    Stream.extractInt_cursor hle old.1 (by simp) hne hhead []
  have hbuf : Stream.ofBytes (decimal n ++ body) =
      Stream.cursor [] ([] ++ (decimal n ++ body)) := rfl
  have hlife : (n : ℤ) ≠ sigtypeLife := by
    rw [sigtypeLife]
    omega
  simp only [subscriberTurn, hbuf, hread, if_neg hlife, interrupts_of_ne hlife,
    substr_append (length_decimal_three hmin hmax), Option.map_some, decimalInt_natCast]
  simp [subscriberMessage, signalPrefix]

end Flocksy
