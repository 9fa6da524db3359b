import Flocksy.LocalNotifications
import Flocksy.Relays

/-!
# Inotify events

A read of the inotify queue delivers one event or several, and `s_recv_in` writes a line
for each of them; where an event has no name it writes what stands in the buffer behind the
record. `Box::run` parses one line and sends the boxoffice one message, with a status that
depends on the flags of the mask; the router takes mask, hash and path out of the message again.
-/

namespace Flocksy

open ByteStream Fsm

def inMovedFrom : ℕ := 0x40
def inMovedTo : ℕ := 0x80
def inIsdir : ℕ := 0x40000000

/-- The events of `F_IN_EVENT_MASK`. -/
inductive InotifyKind where
  | modify | movedFrom | movedTo | moveSelf | create | attrib | delete | deleteSelf
  deriving DecidableEq

namespace InotifyKind

def bit : InotifyKind → ℕ
  | modify => inModify
  | movedFrom => inMovedFrom
  | movedTo => inMovedTo
  | moveSelf => inMoveSelf
  | create => inCreate
  | attrib => inAttrib
  | delete => inDeleteMask
  | deleteSelf => inDeleteSelf

def status : InotifyKind → Option Status
  | modify | movedFrom | movedTo | moveSelf => some .s300
  | create | attrib | delete => some .s320
  | deleteSelf => none

/-- The flags of one half of a move are not those of `IN_MOVE`. -/
def halfMove (kind : InotifyKind) : Bool := kind = movedFrom ∨ kind = movedTo

end InotifyKind

/-- A `struct inotify_event`; the name ends at its first NUL. -/
structure InotifyEvent where
  mask : ℕ
  mask_fits : mask ≤ Stream.intMax
  wd : ℕ
  wd_fits : wd ≤ Stream.intMax
  name : Bytes
  name_ends : 0 ∉ name

/-- `event->name`. When `len` is 0 it points behind the record: at the next one, or at bytes that
the read has not set. -/
def InotifyEvent.printed (e : InotifyEvent) (behind : Bytes) : Bytes :=
  if e.name = [] then cPath behind else e.name

/-- What `s_recv_in` writes of a record. -/
def InotifyEvent.text (e : InotifyEvent) (behind : Bytes) : Bytes :=
  decimal e.mask ++ space :: (decimal e.wd ++ space :: e.printed behind)

/-- The loop over the records of a buffer; `behind` gives the bytes behind a record by the
records that are left. -/
def eventLines (behind : List InotifyEvent → Bytes) : List InotifyEvent → Bytes
  | [] => []
  | [e] => e.text (behind [])
  | e :: es => e.text (behind es) ++ newline :: eventLines behind es

/-- `s_recv_in` when only the inotify queue is readable. -/
def sRecvIn (behind : List InotifyEvent → Bytes) (events : List InotifyEvent) : Bytes :=
  decimal sigtypeInotify ++ space :: eventLines behind events

/-- One turn of `Box::run`: the messages it pushes. The local `status` holds `unset` until a
branch sets it, and `dirs` gives the paths of the watch descriptors. -/
def boxTurn (hash : Hash) (dirs : ℤ → Bytes) (unset : ℕ) (old : ℤ × ℤ) (text : Bytes) :
    Option (List Bytes) :=
  let (msgType, msgSignal, s) := readSignal old text
  if interrupts msgType msgSignal then none
  else
    let (wd, s) := s.extractInt 0
    let name := s.extractWord.1
    let mask := (msgSignal % 2 ^ 32).toNat
    if hasFlags mask inDeleteSelf then some []
    else
      some [signalPrefix sigtypeInotify ((boxStatus mask).elim unset Status.toNat) ++
        (space :: (decimalInt msgSignal ++
          (hash.bytes ++ space :: (dirs wd ++ slash :: cPath name))))]

theorem firstWord_append {word after : Bytes} (hw : ∀ b ∈ word, isSpace b = false)
    (hne : word ≠ []) (ha : ∀ b ∈ after.head?, isSpace b) : firstWord (word ++ after) = word := by
  have hdrop : (word ++ after).dropWhile isSpace = word ++ after := by
    cases word with
    | nil => exact absurd rfl hne
    | cons b bs => simp [hw b List.mem_cons_self]
  rw [firstWord, hdrop]
  exact Stream.takeWhile_run (by simpa using hw) (by simpa using ha)

theorem firstWord_cons {b : UInt8} (hb : isSpace b) (bs : Bytes) :
    firstWord (b :: bs) = firstWord bs := by
  rw [firstWord, List.dropWhile_cons_of_pos hb, firstWord]

theorem isSpace_of_digit {b : UInt8} (h : isDigit b) : isSpace b = false := by
  rw [isDigit_iff] at h
  rw [← Bool.not_eq_true, isSpace_iff]
  omega

theorem cPath_of_noNul {bs : Bytes} (h : 0 ∉ bs) : cPath bs = bs := by
  rw [cPath, List.takeWhile_eq_self_iff]
  intro b hb
  rw [bne_iff_ne]
  rintro rfl
  exact h hb

theorem noNul_cPath (bs : Bytes) : 0 ∉ cPath bs := fun h => by
  have hne := List.mem_takeWhile_imp h
  simp at hne

theorem noNul_decimal (n : ℕ) : 0 ∉ decimal n := fun h =>
  absurd (isDigit_of_mem_decimal h) (by decide)

theorem firstWord_noNul {bs : Bytes} (h : 0 ∉ bs) : 0 ∉ firstWord bs := fun hmem =>
  h ((List.dropWhile_suffix _).subset ((List.takeWhile_prefix _).subset hmem))

theorem firstWord_eq_nil_iff {bs : Bytes} : firstWord bs = [] ↔ ∀ b ∈ bs, isSpace b = true := by
  have hsplit := List.takeWhile_append_dropWhile (p := isSpace) (l := bs)
  have hhead := List.head?_dropWhile_not isSpace bs
  rw [firstWord]
  cases hdrop : bs.dropWhile isSpace with
  | nil =>
    rw [hdrop, List.append_nil] at hsplit
    exact iff_of_true rfl fun b hb => List.mem_takeWhile_imp (hsplit.symm ▸ hb)
  | cons c cs =>
    rw [hdrop] at hhead
    have hc : isSpace c = false := by simpa using hhead
    refine iff_of_false (by simp [hc]) fun h => ?_
    have hspace := h c (by rw [← hsplit, hdrop]; simp)
    simp [hc] at hspace

theorem InotifyEvent.noNul_printed (e : InotifyEvent) (behind : Bytes) : 0 ∉ e.printed behind := by
  rw [printed]
  split_ifs
  · exact noNul_cPath behind
  · exact e.name_ends

section Lines

variable (behind : List InotifyEvent → Bytes)

def linesAfter : List InotifyEvent → Bytes
  | [] => []
  | e :: es => newline :: eventLines behind (e :: es)

theorem eventLines_cons (e : InotifyEvent) (es : List InotifyEvent) :
    eventLines behind (e :: es) = e.text (behind es) ++ linesAfter behind es := by
  cases es with
  | nil => rw [eventLines, linesAfter, List.append_nil]
  | cons f fs => rw [eventLines, linesAfter]; simp

theorem noNul_eventLines (es : List InotifyEvent) : 0 ∉ eventLines behind es := by
  induction es with
  | nil => simp [eventLines]
  | cons e es ih =>
    have htext : 0 ∉ e.text (behind es) := by
      simp [InotifyEvent.text, noNul_decimal, e.noNul_printed, space]
    rw [eventLines_cons, List.mem_append]
    rintro (h | h)
    · exact htext h
    · cases es with
      | nil => simp [linesAfter] at h
      | cons f fs =>
        rcases List.mem_cons.1 h with h | h
        · exact absurd h (by decide)
        · exact ih h

/-- The name that is read for the first event: where it has none, it is taken from the bytes
behind the record or from the next line. -/
def readName (first : InotifyEvent) (more : List InotifyEvent) : Bytes :=
  firstWord (first.printed (behind more) ++ linesAfter behind more)

theorem cPath_readName (first : InotifyEvent) (more : List InotifyEvent) :
    cPath (readName behind first more) = readName behind first more := by
  refine cPath_of_noNul (firstWord_noNul ?_)
  rw [List.mem_append]
  rintro (h | h)
  · exact first.noNul_printed _ h
  · cases more with
    | nil => simp [linesAfter] at h
    | cons e es =>
      rcases List.mem_cons.1 h with h | h
      · exact absurd h (by decide)
      · exact noNul_eventLines behind _ h

theorem linesAfter_head? (es : List InotifyEvent) :
    ∀ b ∈ (linesAfter behind es).head?, isSpace b := by
  cases es with
  | nil => simp [linesAfter]
  | cons e es =>
    intro b hb
    obtain rfl := Option.some.inj hb
    decide

theorem readName_of_name {first : InotifyEvent} (hne : first.name ≠ [])
    (hsolid : ∀ b ∈ first.name, isSpace b = false) (more : List InotifyEvent) :
    readName behind first more = first.name := by
  rw [readName, InotifyEvent.printed, if_neg hne]
  exact firstWord_append hsolid hne (linesAfter_head? behind more)

theorem readName_of_next (first next : InotifyEvent) (more : List InotifyEvent) :
    readName behind first (next :: more) ≠ [] := by
  intro h
  obtain ⟨b, hb⟩ := List.exists_mem_of_ne_nil _ (decimal_ne_nil next.mask)
  have hmem : b ∈ first.printed (behind (next :: more)) ++ linesAfter behind (next :: more) := by
    refine List.mem_append_right _ (List.mem_cons_of_mem _ ?_)
    rw [eventLines_cons, InotifyEvent.text]
    simp [hb]
  have hspace := firstWord_eq_nil_iff.1 h b hmem
  rw [isSpace_of_digit (isDigit_of_mem_decimal hb)] at hspace
  cases hspace

theorem readName_alone (e : InotifyEvent) :
    readName behind e [] = firstWord (e.printed (behind [])) := by
  rw [readName, linesAfter, List.append_nil]

theorem toNat_emod_of_le {mask : ℕ} (h : mask ≤ Stream.intMax) :
    ((mask : ℤ) % 2 ^ 32).toNat = mask := by
  rw [Stream.intMax] at h
  omega

theorem boxTurn_batch (hash : Hash) (dirs : ℤ → Bytes) (unset : ℕ) (old : ℤ × ℤ)
    (first : InotifyEvent) (more : List InotifyEvent) :
    boxTurn hash dirs unset old (sRecvIn behind (first :: more)) =
      if hasFlags first.mask inDeleteSelf then some []
      else some [signalPrefix sigtypeInotify ((boxStatus first.mask).elim unset Status.toNat) ++
        (space :: (decimal first.mask ++ (hash.bytes ++
          space :: (dirs first.wd ++ slash :: readName behind first more))))] := by
  have htext : sRecvIn behind (first :: more) = signalPrefix sigtypeInotify first.mask ++
      ([space] ++ (decimal first.wd ++ (space :: (first.printed (behind more) ++
        linesAfter behind more)))) := by
    simp [sRecvIn, eventLines_cons, InotifyEvent.text, signalPrefix]
  rw [← cPath_readName, readName]
  generalize first.printed (behind more) ++ linesAfter behind more = rest at htext ⊢
  have hread : readSignal old (signalPrefix sigtypeInotify first.mask ++
      ([space] ++ (decimal first.wd ++ (space :: rest)))) = _ :=
    readSignal_prefix old (by decide) first.mask_fits (by simp) (by simp; decide)
  have hwd : (Stream.cursor (signalPrefix sigtypeInotify first.mask) ([space] ++
      (decimal first.wd ++ (space :: rest)))).extractInt 0 = _ :=
    Stream.extractInt_cursor first.wd_fits 0 (by simp; decide) (by simp) (by simp; decide) _
  have hgo : interrupts (sigtypeInotify : ℤ) (first.mask : ℤ) = false :=
    interrupts_of_ne (by decide) _
  simp only [boxTurn, htext, hread, hgo, hwd, Stream.extractWord_good (Stream.cursor_good _ _),
    Stream.cursor_rest, toNat_emod_of_le first.mask_fits, decimalInt_natCast]
  rw [← firstWord, firstWord_cons (by decide)]
  rfl

end Lines

/-- An event with one flag of the mask, with `IN_ISDIR` if it is about a directory. -/
structure WatchEvent extends InotifyEvent where
  kind : InotifyKind
  isDir : Bool
  mask_eq : mask = kind.bit ||| if isDir then inIsdir else 0
  name_solid : ∀ b ∈ name, isSpace b = false

namespace WatchEvent

def report (hash : Hash) (dirs : ℤ → Bytes) (e : WatchEvent) : Option Bytes :=
  e.kind.status.map fun status => boxMessage status e.mask hash (dirs e.wd ++ slash :: e.name)

theorem hasFlags_deleteSelf (e : WatchEvent) :
    hasFlags e.mask inDeleteSelf = decide (e.kind = .deleteSelf) := by
  rw [e.mask_eq]
  cases e.kind <;> cases e.isDir <;> decide

theorem boxStatus_eq (e : WatchEvent) :
    boxStatus e.mask = if e.kind.halfMove then none else e.kind.status := by
  rw [e.mask_eq]
  cases e.kind <;> cases e.isDir <;> decide

theorem report_eq_none {hash : Hash} {dirs : ℤ → Bytes} {e : WatchEvent} :
    e.report hash dirs = none ↔ e.kind = .deleteSelf := by
  rw [report, Option.map_eq_none_iff]
  cases e.kind <;> decide

end WatchEvent

/-- Whatever `status` held before, `Box::run` sends one message for each event that is not
`IN_DELETE_SELF`, in their order. -/
def ReportsAll (hash : Hash) (dirs : ℤ → Bytes) (behind : List InotifyEvent → Bytes) (old : ℤ × ℤ)
    (events : List WatchEvent) : Prop :=
  ∀ unset, boxTurn hash dirs unset old (sRecvIn behind (events.map WatchEvent.toInotifyEvent)) =
    some (events.filterMap (WatchEvent.report hash dirs))

/-- Only the first event asks for a message, and one that `Box::run` makes. The bytes `stale` stand
behind the last record. -/
structure FirstOnly (stale : Bytes) (first : WatchEvent) (more : List WatchEvent) : Prop where
  rest : ∀ e ∈ more, e.kind = .deleteSelf
  whole : first.kind.halfMove = false
  named : first.kind ≠ .deleteSelf → first.name = [] →
    more = [] ∧ ∀ b ∈ cPath stale, isSpace b = true

section Reports

variable {hash : Hash} {dirs : ℤ → Bytes} {behind : List InotifyEvent → Bytes} {old : ℤ × ℤ}
  {first : WatchEvent} {more : List WatchEvent}

theorem filterMap_report_eq_nil {events : List WatchEvent} :
    events.filterMap (WatchEvent.report hash dirs) = [] ↔ ∀ e ∈ events, e.kind = .deleteSelf := by
  rw [List.filterMap_eq_nil_iff]
  exact forall₂_congr fun e _ => WatchEvent.report_eq_none

theorem boxTurn_deleteSelf (hself : first.kind = .deleteSelf) (unset : ℕ) :
    boxTurn hash dirs unset old (sRecvIn behind ((first :: more).map WatchEvent.toInotifyEvent)) =
      some [] := by
  rw [List.map_cons, boxTurn_batch, first.hasFlags_deleteSelf]
  simp [hself]

theorem boxTurn_other (hother : first.kind ≠ .deleteSelf) (unset : ℕ) :
    boxTurn hash dirs unset old (sRecvIn behind ((first :: more).map WatchEvent.toInotifyEvent)) =
      some [signalPrefix sigtypeInotify
          ((if first.kind.halfMove then none else first.kind.status).elim unset Status.toNat) ++
        (space :: (decimal first.mask ++ (hash.bytes ++ space :: (dirs first.wd ++ slash ::
          readName behind first.toInotifyEvent (more.map WatchEvent.toInotifyEvent)))))] := by
  rw [List.map_cons, boxTurn_batch, first.hasFlags_deleteSelf, first.boxStatus_eq]
  simp [hother]

theorem signalPrefix_ne_zero {status : Status} (hstatus : status ≠ .null) (xs ys : Bytes) :
    signalPrefix sigtypeInotify 0 ++ xs ≠ signalPrefix sigtypeInotify status.toNat ++ ys := by
  intro h
  have hzero : (signalPrefix sigtypeInotify 0).length = 3 := by decide
  have hlen : 3 ≤ (signalPrefix sigtypeInotify status.toNat).length := by
    revert hstatus
    cases status <;> decide
  have htake := congrArg (List.take 3) h
  rw [List.take_append_of_le_length hzero.ge, List.take_append_of_le_length hlen] at htake
  revert htake hstatus
  cases status <;> decide

theorem FirstOnly.of_reportsAll (h : ReportsAll hash dirs behind old (first :: more)) :
    FirstOnly (behind []) first more := by
  by_cases hself : first.kind = .deleteSelf
  · have hnone := h 0
    rw [boxTurn_deleteSelf hself, Option.some.injEq, eq_comm, filterMap_report_eq_nil] at hnone
    refine ⟨fun e he => hnone e (List.mem_cons_of_mem _ he), by rw [hself]; decide, ?_⟩
    exact fun hother => absurd hself hother
  · obtain ⟨status, hstatus⟩ : ∃ status, first.kind.status = some status := by
      rw [← Option.isSome_iff_exists]
      revert hself
      cases first.kind <;> decide
    have hreport : first.report hash dirs =
        some (boxMessage status first.mask hash (dirs first.wd ++ slash :: first.name)) := by
      rw [WatchEvent.report, hstatus, Option.map_some]
    have hone := h 0
    rw [boxTurn_other hself, Option.some.injEq, List.filterMap_cons_some hreport,
      List.cons.injEq, eq_comm (a := []), filterMap_report_eq_nil] at hone
    obtain ⟨hmessage, hrest⟩ := hone
    have hnull : status ≠ .null := by
      rintro rfl
      revert hstatus
      cases first.kind <;> decide
    have hwhole : first.kind.halfMove = false := by
      by_contra hhalf
      rw [if_pos (by simpa using hhalf), Option.elim_none, boxMessage] at hmessage
      exact signalPrefix_ne_zero hnull _ _ hmessage
    refine ⟨hrest, hwhole, fun _ hname => ?_⟩
    rw [if_neg (by simp [hwhole]), hstatus, Option.elim_some, boxMessage, hname] at hmessage
    simp only [List.append_cancel_left_eq, List.cons.injEq, true_and] at hmessage
    cases more with
    | nil =>
      rw [List.map_nil, readName_alone, InotifyEvent.printed, if_pos hname] at hmessage
      exact ⟨rfl, firstWord_eq_nil_iff.1 hmessage⟩
    | cons e es => exact absurd hmessage (readName_of_next behind _ _ _)

theorem FirstOnly.reportsAll (h : FirstOnly (behind []) first more) :
    ReportsAll hash dirs behind old (first :: more) := by
  intro unset
  have hrest : more.filterMap (WatchEvent.report hash dirs) = [] :=
    filterMap_report_eq_nil.2 h.rest
  by_cases hself : first.kind = .deleteSelf
  · rw [boxTurn_deleteSelf hself,
      List.filterMap_cons_none (WatchEvent.report_eq_none.2 hself), hrest]
  · obtain ⟨status, hstatus⟩ : ∃ status, first.kind.status = some status := by
      rw [← Option.isSome_iff_exists]
      revert hself
      cases first.kind <;> decide
    have hreport : first.report hash dirs =
        some (boxMessage status first.mask hash (dirs first.wd ++ slash :: first.name)) := by
      rw [WatchEvent.report, hstatus, Option.map_some]
    have hname : readName behind first.toInotifyEvent (more.map WatchEvent.toInotifyEvent) =
        first.name := by
      by_cases hempty : first.name = []
      · obtain ⟨rfl, hblank⟩ := h.named hself hempty
        rw [List.map_nil, readName_alone, InotifyEvent.printed, if_pos hempty, hempty]
        exact firstWord_eq_nil_iff.2 hblank
      · exact readName_of_name behind hempty first.name_solid _
    rw [boxTurn_other hself, List.filterMap_cons_some hreport, hrest, if_neg (by simp [h.whole]),
      hstatus, hname]
    rfl

end Reports

/-- Whatever stands in the buffer, a batch is reported event by event if and only if only its first
event asks for a message, one that is no half of a move, and whose name is read from its own
record. -/
theorem reportsAll_iff (hash : Hash) (dirs : ℤ → Bytes) (behind : List InotifyEvent → Bytes)
    (old : ℤ × ℤ) (first : WatchEvent) (more : List WatchEvent) :
    ReportsAll hash dirs behind old (first :: more) ↔ FirstOnly (behind []) first more :=
  ⟨FirstOnly.of_reportsAll, FirstOnly.reportsAll⟩

def modifiedEvent (name : UInt8) (hnul : name ≠ 0) (hsolid : isSpace name = false) :
    WatchEvent where
  mask := inModify
  mask_fits := by decide
  wd := 1
  wd_fits := by decide
  name := [name]
  name_ends := by simpa using hnul.symm
  kind := .modify
  isDir := false
  mask_eq := rfl
  name_solid := by simpa using hsolid

/-- Two files that are modified, and reported by one read. -/
theorem not_reportsAll :
    ¬ ReportsAll (.fill 66) (fun _ => [slash]) (fun _ => []) (0, 0)
      [modifiedEvent 102 (by decide) (by decide), modifiedEvent 103 (by decide) (by decide)] := by
  intro hreports
  have hself := (FirstOnly.of_reportsAll hreports).rest _ List.mem_cons_self
  simp [modifiedEvent] at hself

def ReadsBack (old : ℤ × ℤ) (text : Bytes) (mask : ℕ) (hash : Hash) (path : Bytes) : Prop :=
  ∃ inp : Input, statusOfInt (readSignal old text).2.1 = inp.status ∧
    (readSignal old text).2.2 = inp.sstream ∧ isLocal inp.status = true ∧
    inp.mask = mask ∧ inp.box = hash ∧ inp.path = path

/-- Whatever `status` held before, what `Box::run` sends for the event is read back as the
mask, the hash and the path of the event. -/
def RoundTrips (hash : Hash) (dirs : ℤ → Bytes) (stale : Bytes) (box router : ℤ × ℤ)
    (e : InotifyEvent) : Prop :=
  ∀ unset messages, boxTurn hash dirs unset box (sRecvIn (fun _ => stale) [e]) = some messages →
    ∀ text ∈ messages, ReadsBack router text e.mask hash (dirs e.wd ++ slash :: e.name)

theorem boxStatus_isLocal {mask : ℕ} {status : Status} (h : boxStatus mask = some status) :
    isLocal status = true := by
  unfold boxStatus at h
  split_ifs at h <;> simp [isLocal, ← Option.some.inj h]

theorem conforming_of_isLocal {status : Status} (h : isLocal status = true) : Conforming status := by
  simp only [isLocal, decide_eq_true_eq] at h
  exact .inr (.inr (.inr h))

theorem firstWord_path_iff {dir word name : Bytes} :
    firstWord (dir ++ slash :: firstWord word) = dir ++ slash :: name ↔
      (∀ b ∈ dir ++ slash :: name, isSpace b = false) ∧ firstWord word = name := by
  constructor
  · intro hword
    have hsolid : ∀ b ∈ dir ++ slash :: name, isSpace b = false := by
      intro b hb
      rw [← hword] at hb
      simpa using List.mem_takeWhile_imp hb
    refine ⟨hsolid, ?_⟩
    have hwhole : ∀ b ∈ dir ++ slash :: firstWord word, isSpace b = false := by
      intro b hb
      rcases List.mem_append.1 hb with h | h
      · exact hsolid b (List.mem_append_left _ h)
      · rcases List.mem_cons.1 h with rfl | h
        · decide
        · simpa using List.mem_takeWhile_imp h
    rw [firstWord_of_noSpace hwhole] at hword
    simpa using hword
  · rintro ⟨hsolid, rfl⟩
    exact firstWord_of_noSpace hsolid

theorem InotifyEvent.firstWord_printed {e : InotifyEvent} {stale : Bytes}
    (hsolid : ∀ b ∈ e.name, isSpace b = false) :
    firstWord (e.printed stale) = e.name ↔
      (e.name = [] → ∀ b ∈ cPath stale, isSpace b = true) := by
  rw [printed]
  split_ifs with hempty
  · rw [hempty, firstWord_eq_nil_iff]
    simp
  · simp [hempty, firstWord_of_noSpace hsolid]

section ReadBack

variable {router : ℤ × ℤ} {hash : Hash} {mask : ℕ} (hmask : mask ≤ Stream.intMax)
include hmask

theorem readsBack_iff {status : Status} (hlocal : isLocal status = true) (path path' : Bytes) :
    ReadsBack router (boxMessage status mask hash path) mask hash path' ↔
      hash.Undigit ∧ firstWord path = path' := by
  have hc := conforming_of_isLocal hlocal
  have hread := readSignal_boxMessage router hc mask hash path Sample.env
  have hpath (hhash : hash.Undigit) :
      (boxInput status hc mask hash path Sample.env).path = firstWord path := by
    rw [Input.path, boxInput_extractInt hmask hhash, Stream.read_cursor hash.length_eq,
      Stream.extractWord_good (by rfl), Stream.cursor_rest, ← firstWord, List.append_nil]
    exact firstWord_cons (by decide) path
  constructor
  · rintro ⟨inp, -, hstream, -, -, hbox, hword⟩
    rw [hread] at hstream
    replace hstream : (boxInput status hc mask hash path Sample.env).sstream = inp.sstream :=
      hstream
    have hsame : (boxInput status hc mask hash path Sample.env).box = inp.box := by
      simp only [Input.box, hstream]
    have hhash : hash.Undigit := (boxInput_box_iff hmask).1 (hsame.trans hbox)
    have hpaths : (boxInput status hc mask hash path Sample.env).path = inp.path := by
      simp only [Input.path, hstream]
    exact ⟨hhash, (hpath hhash).symm.trans (hpaths.trans hword)⟩
  · rintro ⟨hhash, hword⟩
    refine ⟨boxInput status hc mask hash path Sample.env, ?_, ?_, hlocal,
      boxInput_mask hmask hhash _ _ _, boxInput_box hmask hhash _ _ _, hpath hhash ▸ hword⟩
    · rw [hread]
      exact statusOfInt_toNat status
    · rw [hread]

end ReadBack

theorem not_readsBack_unset (router : ℤ × ℤ) (mask mask' : ℕ) (hash hash' : Hash)
    (path path' : Bytes) :
    ¬ ReadsBack router (signalPrefix sigtypeInotify 0 ++
      (space :: (decimal mask ++ (hash.bytes ++ space :: path)))) mask' hash' path' := by
  rintro ⟨inp, hstatus, -, hlocal, -⟩
  have hread : readSignal router (signalPrefix sigtypeInotify 0 ++
      (space :: (decimal mask ++ (hash.bytes ++ space :: path)))) = _ :=
    readSignal_prefix router (by decide) (by decide) (by simp) (by simp; decide)
  rw [hread, show statusOfInt ((0 : ℕ) : ℤ) = .null from statusOfInt_toNat .null] at hstatus
  rw [← hstatus] at hlocal
  exact absurd hlocal (by decide)

/-- The event is silent, or its flags have a status, the hash does not start with a digit, the
path has no white space, and nothing stands for a name that it has not. -/
def Readable (hash : Hash) (dirs : ℤ → Bytes) (stale : Bytes) (e : InotifyEvent) : Prop :=
  hasFlags e.mask inDeleteSelf = true ∨ ((boxStatus e.mask).isSome ∧ hash.Undigit ∧
    (∀ b ∈ dirs e.wd ++ slash :: e.name, isSpace b = false) ∧
    (e.name = [] → ∀ b ∈ cPath stale, isSpace b = true))

/-- What a box sends for an event is read back if and only if the event is readable. -/
theorem roundTrips_iff (hash : Hash) (dirs : ℤ → Bytes) (stale : Bytes) (box router : ℤ × ℤ)
    (e : InotifyEvent) :
    RoundTrips hash dirs stale box router e ↔ Readable hash dirs stale e := by
  have hturn (unset : ℕ) := boxTurn_batch (fun _ => stale) hash dirs unset box e []
  rw [readName_alone] at hturn
  unfold RoundTrips Readable
  simp only [hturn]
  by_cases hself : hasFlags e.mask inDeleteSelf = true
  · simp [hself]
  · simp only [hself, false_or, if_false, Bool.false_eq_true, Option.some.injEq, forall_eq',
      List.mem_singleton, forall_eq]
    cases hstatus : boxStatus e.mask with
    | none =>
      simp only [Option.elim_none, Option.isSome_none, Bool.false_eq_true, false_and, iff_false]
      intro hback
      exact not_readsBack_unset router _ _ _ _ _ _ (hback 0)
    | some status =>
      have hback : ReadsBack router (boxMessage status e.mask hash _) e.mask hash _ ↔ _ :=
        readsBack_iff e.mask_fits (boxStatus_isLocal hstatus)
          (dirs e.wd ++ slash :: firstWord (e.printed stale)) (dirs e.wd ++ slash :: e.name)
      rw [firstWord_path_iff] at hback
      simp only [Option.elim_some, Option.isSome_some, true_and, forall_const]
      refine hback.trans (and_congr_right fun _ => and_congr_right fun hsolid => ?_)
      exact InotifyEvent.firstWord_printed fun b hb =>
        hsolid b (List.mem_append_right _ (List.mem_cons_of_mem _ hb))

/-- A new file that has a blank in its name. -/
theorem not_roundTrips :
    ¬ RoundTrips (.fill 66) (fun _ => []) [] (0, 0) (0, 0)
      ⟨inCreate, by decide, 1, by decide, [97, 32, 98], by decide⟩ := by
  intro htrips
  have hturn := boxTurn_batch (fun _ => []) (.fill 66) (fun _ => []) 0 (0, 0)
    ⟨inCreate, by decide, 1, by decide, [97, 32, 98], by decide⟩ []
  have hback := htrips 0 _ hturn _ (List.mem_singleton_self _)
  have hcreate : inCreate ≤ Stream.intMax := by decide
  have hlocal : isLocal .s320 = true := rfl
  obtain ⟨-, hword⟩ := (readsBack_iff hcreate hlocal ([] ++ slash :: [97]) _).1 hback
  exact absurd hword (by decide)

end Flocksy
