import Flocksy.Rounds

/-!
# Messages to the router

The texts that a subscriber, a box and the dispatcher push to the router, and what
`runRouter` reads of them before it calls `processEvent`: the two numbers, and a
stream that stands behind them. The second number is read up to the first byte
that is no digit, so a hash that starts with one would be read as part of it.
-/

namespace Flocksy

open ByteStream Fsm

def sigtypeLife : ℕ := 0
def sigtypePub : ℕ := 1
def sigtypeSub : ℕ := 2
def sigtypeInotify : ℕ := 3
def siglifeInterrupt : ℕ := 2
def inModify : ℕ := 0x2

/-- `(fsm::status_t)msg_signal`: a number that is no enumerator is in no test of the table. -/
def statusOfInt (n : ℤ) : Status :=
  (Status.all.find? fun s => decide ((s.toNat : ℤ) = n)).getD .null

theorem statusOfInt_toNat (s : Status) : statusOfInt s.toNat = s := by
  cases s <;> decide

/-- `*sstream >> msg_type >> msg_signal`, into the variables of the last turn. -/
def readSignal (old : ℤ × ℤ) (buf : Bytes) : ℤ × ℤ × Stream :=
  let (msgType, s) := (Stream.ofBytes buf).extractInt old.1
  let (msgSignal, s) := s.extractInt old.2
  (msgType, msgSignal, s)

/-- One turn of `runRouter`; `none` is the break after an interrupt. -/
def runRouterStep (bo : Boxoffice) (old : ℤ × ℤ) (buf : Bytes) (env : Env) : Option Outcome :=
  let (msgType, msgSignal, s) := readSignal old buf
  if msgType = sigtypeLife ∧ msgSignal = siglifeInterrupt then none
  else some (processEvent bo (statusOfInt msgSignal) s env)

def signalPrefix (sigtype signal : ℕ) : Bytes := decimal sigtype ++ space :: decimal signal

/-- What `Subscriber::run` pushes for a message of the peer `uid`. -/
def subscriberMessage (signal : ℕ) (uid : Hash) (info : Bytes) : Bytes :=
  signalPrefix sigtypeSub signal ++ (uid.bytes ++ info)

/-- What `Box::run` pushes for an inotify event. -/
def boxMessage (status : Status) (mask : ℕ) (hash : Hash) (path : Bytes) : Bytes :=
  signalPrefix sigtypeInotify status.toNat ++ (space :: (decimal mask ++ (hash.bytes ++ space :: path)))

def dispatcherMessage (status : Status) : Bytes := signalPrefix sigtypeFsm status.toNat

/-- A hash that is not read as a part of the number before it. -/
def Hash.Undigit (h : Hash) : Prop := ∀ b ∈ h.bytes.head?, isDigit b = false

instance (h : Hash) : Decidable h.Undigit :=
  inferInstanceAs (Decidable (∀ b ∈ h.bytes.head?, isDigit b = false))

theorem Hash.undigit_fill {b : UInt8} (h : isDigit b = false) : (Hash.fill b).Undigit := by
  intro c hc
  obtain rfl := Option.some.inj hc
  exact h

theorem Hash.bytes_ne_nil (h : Hash) : h.bytes ≠ [] := by
  intro hnil
  have hlen := h.length_eq
  simp [hnil, genericHashLen] at hlen

theorem Hash.head?_append (h : Hash) (bs : Bytes) : (h.bytes ++ bs).head? = h.bytes.head? :=
  List.head?_append_of_ne_nil _ h.bytes_ne_nil

theorem head?_dropWhile_digit {hash : Hash} {bs : Bytes} :
    ∀ b ∈ (hash.bytes.dropWhile isDigit ++ space :: bs).head?, isDigit b = false := by
  intro b hb
  cases hrest : hash.bytes.dropWhile isDigit with
  | nil =>
    simp only [hrest, List.nil_append, List.head?_cons, Option.mem_some_iff] at hb
    subst hb
    decide
  | cons c cs =>
    have hc := List.dropWhile_get_zero_not isDigit hash.bytes (by simp [hrest])
    simp only [hrest, List.cons_append, List.head?_cons, Option.mem_some_iff] at hb
    subst hb
    simpa [hrest] using hc

/-- A number that stands directly before a hash takes the digits that the hash starts with. -/
theorem extractInt_hash {blank : Bytes} (old : ℤ) (hb : ∀ b ∈ blank, isSpace b) (n : ℕ)
    (hash : Hash) (before after : Bytes) :
    (Stream.cursor before (blank ++ (decimal n ++ (hash.bytes ++ space :: after)))).extractInt old =
      (((min (digitsValue (decimal n ++ hash.bytes.takeWhile isDigit)) Stream.intMax : ℕ) : ℤ),
        { Stream.cursor (before ++ blank ++ (decimal n ++ hash.bytes.takeWhile isDigit))
            (hash.bytes.dropWhile isDigit ++ space :: after) with
          fail := decide (Stream.intMax <
            digitsValue (decimal n ++ hash.bytes.takeWhile isDigit)) }) := by
  have htext : decimal n ++ (hash.bytes ++ space :: after) =
      (decimal n ++ hash.bytes.takeWhile isDigit) ++
        (hash.bytes.dropWhile isDigit ++ space :: after) := by
    rw [List.append_assoc, ← List.append_assoc (hash.bytes.takeWhile isDigit),
      List.takeWhile_append_dropWhile]
  have hdigits : ∀ b ∈ decimal n ++ hash.bytes.takeWhile isDigit, isDigit b := by
    intro b hb
    rcases List.mem_append.1 hb with h | h
    · exact isDigit_of_mem_decimal h
    · exact List.mem_takeWhile_imp h
  rw [htext, Stream.extractInt_digits old hb (by simp [decimal_ne_nil]) hdigits (by simp)
    head?_dropWhile_digit]

theorem readSignal_prefix (old : ℤ × ℤ) {sigtype signal : ℕ} {after : Bytes}
    (ht : sigtype ≤ Stream.intMax)
    (hs : signal ≤ Stream.intMax) (hne : after ≠ [])
    (ha : ∀ b ∈ after.head?, isDigit b = false) :
    readSignal old (signalPrefix sigtype signal ++ after) =
      ((sigtype : ℤ), (signal : ℤ), Stream.cursor (signalPrefix sigtype signal) after) := by
  have hfirst : (Stream.cursor []
      ([] ++ (decimal sigtype ++ ([space] ++ (decimal signal ++ after))))).extractInt old.1 = _ :=
    Stream.extractInt_cursor ht old.1 (by simp) (by simp) (by simp; decide) []
  have hsecond : (Stream.cursor (decimal sigtype)
      ([space] ++ (decimal signal ++ after))).extractInt old.2 = _ :=
    Stream.extractInt_cursor hs old.2 (by simp; decide) hne ha (decimal sigtype)
  simp only [List.nil_append, List.append_nil] at hfirst
  have hbuf : Stream.ofBytes (signalPrefix sigtype signal ++ after) =
      Stream.cursor [] (decimal sigtype ++ ([space] ++ (decimal signal ++ after))) := by
    simp [Stream.ofBytes_eq_cursor, signalPrefix]
  simp only [readSignal, hbuf, hfirst, hsecond]
  simp [signalPrefix]

theorem toNat_le_intMax (s : Status) : s.toNat ≤ Stream.intMax := by
  cases s <;> decide

def peerInput (status : Status) (hc : Conforming status) (uid : Hash) (info : Bytes) (env : Env) :
    Input :=
  ⟨status, hc, Stream.cursor (signalPrefix sigtypeSub status.toNat) (uid.bytes ++ info), env⟩

def boxInput (status : Status) (hc : Conforming status) (mask : ℕ) (hash : Hash) (path : Bytes)
    (env : Env) : Input :=
  ⟨status, hc, Stream.cursor (signalPrefix sigtypeInotify status.toNat)
    ([space] ++ (decimal mask ++ (hash.bytes ++ ([space] ++ (path ++ []))))), env⟩

def dispatcherInput (status : Status) (hc : Conforming status) (env : Env) : Input :=
  ⟨status, hc, { Stream.cursor (dispatcherMessage status) [] with eof := true }, env⟩

theorem runRouterStep_subscriberMessage (bo : Boxoffice) (old : ℤ × ℤ) {status : Status}
    (hc : Conforming status)
    {uid : Hash} (huid : uid.Undigit) (info : Bytes) (env : Env) :
    runRouterStep bo old (subscriberMessage status.toNat uid info) env =
      some (processEvent bo status (peerInput status hc uid info env).sstream env) := by
  have hread : readSignal old (signalPrefix sigtypeSub status.toNat ++ (uid.bytes ++ info)) = _ :=
    readSignal_prefix old (by decide) (toNat_le_intMax status) (by simp [uid.bytes_ne_nil])
      (by rwa [uid.head?_append])
  simp only [runRouterStep, subscriberMessage, hread, statusOfInt_toNat]
  rw [if_neg fun h => absurd h.1 (by decide)]
  rfl

theorem readSignal_boxMessage (old : ℤ × ℤ) {status : Status} (hc : Conforming status)
    (mask : ℕ) (hash : Hash) (path : Bytes) (env : Env) :
    readSignal old (boxMessage status mask hash path) =
      ((sigtypeInotify : ℤ), (status.toNat : ℤ),
        (boxInput status hc mask hash path env).sstream) := by
  have hread : readSignal old (signalPrefix sigtypeInotify status.toNat ++
      (space :: (decimal mask ++ (hash.bytes ++ space :: path)))) = _ :=
    readSignal_prefix old (by decide) (toNat_le_intMax status) (by simp) (by simp; decide)
  rw [boxMessage, hread]
  simp [boxInput]

@[simp] theorem peerInput_sender (status : Status) (hc : Conforming status) (uid : Hash)
    (info : Bytes) (env : Env) : (peerInput status hc uid info env).sender = uid := by
  simp [Input.sender, peerInput, Stream.read_cursor uid.length_eq]

section Box

variable {mask : ℕ} {hash : Hash} {path : Bytes} (hmask : mask ≤ Stream.intMax)
  (hhash : hash.Undigit) (status : Status) (hc : Conforming status) (env : Env)
include hmask hhash

theorem boxInput_extractInt :
    (boxInput status hc mask hash path env).sstream.extractInt 0 =
      ((mask : ℤ), Stream.cursor (signalPrefix sigtypeInotify status.toNat ++ [space] ++ decimal mask)
        (hash.bytes ++ ([space] ++ (path ++ [])))) := by
  refine Stream.extractInt_cursor hmask 0 (by simp; decide) (by simp) ?_ _
  rw [hash.head?_append]
  exact hhash

theorem boxInput_mask : (boxInput status hc mask hash path env).mask = mask := by
  rw [Input.mask, boxInput_extractInt hmask hhash]

theorem boxInput_box : (boxInput status hc mask hash path env).box = hash := by
  rw [Input.box, boxInput_extractInt hmask hhash, Stream.read_cursor hash.length_eq,
    Hash.ofBytes_bytes]

end Box

namespace Sample

def env : Env := ⟨0, 0, 0, fun _ => some ⟨0o644, regularFile, 0, 0⟩⟩

def box : Hash := .fill 66

def dir : Bytes := ascii ['/', 'b']

def start (nodes : List Hash) : Boxoffice := .initial ⟨nodes, fun _ => default⟩ [(box, dir)]

def modified (name : Char) : Input :=
  boxInput .s300 (conforming_iff.2 (by decide)) inModify box (ascii ['/', name]) env

def deleted (name : Char) : Input :=
  boxInput .s320 (conforming_iff.2 (by decide)) inDeleteMask box (ascii ['/', name]) env

def heardWith (status : Status) (hc : status ∈ conformingStatuses) (peer : Hash)
    (payload : Bytes) : Input :=
  peerInput status (conforming_iff.2 hc) peer
    (space :: List.replicate 8 0 ++ space :: payload) env

def heard (status : Status) (hc : status ∈ conformingStatuses) (peer : Hash) : Input :=
  heardWith status hc peer []

def elapsed (status : Status) (hc : status ∈ conformingStatuses) : Input :=
  dispatcherInput status (conforming_iff.2 hc) env

def peerAnnounces : Input := heard .s120 (by decide) (.fill 65)

def peerStops : Input := heard .s155 (by decide) (.fill 65)

def sendTimeElapsed : Input := elapsed .s132 (by decide)

def stopTimeElapsed : Input := elapsed .s156 (by decide)

end Sample

end Flocksy
