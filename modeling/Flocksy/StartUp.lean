import Flocksy.Foundation.Arrivals
import Flocksy.Messages

/-!
# Waiting for the children

The threads of the boxoffice report that they are alive when they are constructed and go on with
their work at once. `checkChildren` takes as many messages as there are threads and gives up at the
first one that is no report. So it succeeds if and only if no thread sends anything else before the
last one has reported.
-/

namespace Flocksy

open ByteStream Fsm Arrivals

def siglifeAlive : ℕ := 0
def siglifeExit : ℕ := 1

inductive ChildKind where
  | subscriber
  | publisher
  | heartbeater
  | dispatcher
  | box
  deriving DecidableEq

instance : Fintype ChildKind where
  elems := {.subscriber, .publisher, .heartbeater, .dispatcher, .box}
  complete kind := by cases kind <;> simp

structure Threads where
  subThreads : ℕ
  pubThreads : ℕ
  hbThreads : ℕ
  dispThreads : ℕ
  boxThreads : ℕ

namespace Threads

def heartbeats (t : Threads) : ℕ :=
  t.subThreads + t.pubThreads + t.hbThreads + t.dispThreads + t.boxThreads

def count (t : Threads) : ChildKind → ℕ
  | .subscriber => t.subThreads
  | .publisher => t.pubThreads
  | .heartbeater => t.hbThreads
  | .dispatcher => t.dispThreads
  | .box => t.boxThreads

abbrev Child (t : Threads) := (kind : ChildKind) × Fin (t.count kind)

theorem card_child (t : Threads) : Fintype.card t.Child = t.heartbeats := by
  have huniv : (Finset.univ : Finset ChildKind) =
      {.subscriber, .publisher, .heartbeater, .dispatcher, .box} := rfl
  simp only [Child, Fintype.card_sigma, Fintype.card_fin, huniv]
  simp [count, heartbeats, Nat.add_assoc]

end Threads

/-- What `Transmitter::connectToBoxoffice` sends. -/
def aliveMessage : Bytes := signalPrefix sigtypeLife siglifeAlive

/-- What `Transmitter::sendExitSignal` sends. -/
def exitMessage : Bytes := signalPrefix sigtypeLife siglifeExit

/-- What a thread sends to the boxoffice after it has reported. A subscriber and a box write a
type of message and a blank, whatever they forward. -/
inductive Works : ChildKind → Bytes → Prop where
  | forwards (text : Bytes) : Works .subscriber (decimal sigtypeSub ++ space :: text)
  | notifies (text : Bytes) : Works .box (decimal sigtypeInotify ++ space :: text)
  | signals (status : Status) : Works .dispatcher (dispatcherMessage status)
  | exits (kind : ChildKind) : Works kind exitMessage

theorem works_boxMessage (status : Status) (mask : ℕ) (hash : Hash) (path : Bytes) :
    Works .box (boxMessage status mask hash path) := by
  rw [boxMessage, signalPrefix, List.append_assoc]
  exact .notifies _

/-- The loop of `Boxoffice::checkChildren`, with what is left in the queue when it returns. It
waits where the queue is empty. -/
def awaitHeartbeats : ℕ → ℤ × ℤ → List Bytes → Option (ℕ × List Bytes)
  | 0, _, queue => some (0, queue)
  | _ + 1, _, [] => none
  | n + 1, old, text :: queue =>
    let (msgType, msgSignal, _) := readSignal old text
    if msgType ≠ sigtypeLife ∨ msgSignal ≠ siglifeAlive then some (1, queue)
    else awaitHeartbeats n (msgType, msgSignal) queue

def checkChildren (t : Threads) (old : ℤ × ℤ) (queue : List Bytes) : Option (ℕ × List Bytes) :=
  awaitHeartbeats t.heartbeats old queue

theorem readSignal_alive (old : ℤ × ℤ) :
    (readSignal old aliveMessage).1 = sigtypeLife ∧
      (readSignal old aliveMessage).2.1 = siglifeAlive := by
  exact ⟨rfl, rfl⟩

theorem readSignal_type (old : ℤ × ℤ) {sigtype : ℕ} (h : sigtype ≤ Stream.intMax) (text : Bytes) :
    (readSignal old (decimal sigtype ++ space :: text)).1 = sigtype := by
  have hread : (Stream.cursor [] ([] ++ (decimal sigtype ++ space :: text))).extractInt old.1 = _ :=
    Stream.extractInt_cursor h old.1 (by simp) (by simp) (by simp; decide) []
  rw [List.nil_append] at hread
  rw [readSignal, Stream.ofBytes_eq_cursor, hread]

theorem Works.not_alive {kind : ChildKind} {text : Bytes} (h : Works kind text) (old : ℤ × ℤ) :
    (readSignal old text).1 ≠ sigtypeLife ∨ (readSignal old text).2.1 ≠ siglifeAlive := by
  cases h with
  | forwards text =>
    left
    rw [readSignal_type old (by decide)]
    decide
  | notifies text =>
    left
    rw [readSignal_type old (by decide)]
    decide
  | signals status =>
    left
    rw [dispatcherMessage, signalPrefix, readSignal_type old (by decide)]
    decide
  | exits =>
    have hsignal : (readSignal old exitMessage).2.1 = siglifeExit := rfl
    right
    rw [hsignal]
    decide

theorem Works.ne_alive {kind : ChildKind} {text : Bytes} (h : Works kind text) :
    text ≠ aliveMessage := by
  rintro rfl
  obtain ⟨htype, hsignal⟩ := readSignal_alive (0, 0)
  rcases h.not_alive (0, 0) with hno | hno
  · exact hno htype
  · exact hno hsignal

theorem awaitHeartbeats_append (n : ℕ) (old : ℤ × ℤ) (seen unread : List Bytes)
    (hlen : seen.length = n) (hall : ∀ text ∈ seen, text = aliveMessage) :
    awaitHeartbeats n old (seen ++ unread) = some (0, unread) := by
  induction n generalizing old seen with
  | zero => simp [awaitHeartbeats, List.length_eq_zero_iff.1 hlen]
  | succ n ih =>
    cases seen with
    | nil => simp at hlen
    | cons text seen =>
      rw [List.forall_mem_cons] at hall
      obtain ⟨htype, hsignal⟩ := readSignal_alive old
      simp only [List.cons_append, awaitHeartbeats, hall.1, htype, hsignal]
      simpa using ih _ seen (by simpa using hlen) hall.2

theorem awaitHeartbeats_zero {n : ℕ} {old : ℤ × ℤ} {queue unread : List Bytes}
    (hkinds : ∀ text ∈ queue, text = aliveMessage ∨ ∃ kind, Works kind text)
    (h : awaitHeartbeats n old queue = some (0, unread)) :
    ∃ seen, queue = seen ++ unread ∧ seen.length = n ∧ ∀ text ∈ seen, text = aliveMessage := by
  induction n generalizing old queue with
  | zero =>
    rw [awaitHeartbeats] at h
    exact ⟨[], by simpa using h, rfl, by simp⟩
  | succ n ih =>
    cases queue with
    | nil => simp [awaitHeartbeats] at h
    | cons text queue =>
      rw [List.forall_mem_cons] at hkinds
      rw [awaitHeartbeats] at h
      rcases hkinds.1 with rfl | ⟨kind, hworks⟩
      · obtain ⟨htype, hsignal⟩ := readSignal_alive old
        simp only [htype, hsignal, ne_eq, not_true_eq_false, or_self, if_false] at h
        obtain ⟨seen, hqueue, hlen, hall⟩ := ih hkinds.2 h
        refine ⟨aliveMessage :: seen, by rw [hqueue, List.cons_append], by simp [hlen], ?_⟩
        exact List.forall_mem_cons.2 ⟨rfl, hall⟩
      · simp only [if_pos (hworks.not_alive old)] at h
        simp at h

def Threads.Started (t : Threads) (arrivals : List (t.Child × Bytes)) : Prop :=
  ∀ child, ∃ work, sentBy arrivals child = aliveMessage :: work ∧ ∀ text ∈ work, Works child.1 text

theorem Threads.Started.opens {t : Threads} {arrivals : List (t.Child × Bytes)}
    (h : t.Started arrivals) : Opens aliveMessage arrivals := by
  intro child
  obtain ⟨work, hsent, hworks⟩ := h child
  exact ⟨work, hsent, fun hmem => (hworks _ hmem).ne_alive rfl⟩

theorem Threads.Started.kinds {t : Threads} {arrivals : List (t.Child × Bytes)}
    (h : t.Started arrivals) {p : t.Child × Bytes} (hp : p ∈ arrivals) :
    p.2 = aliveMessage ∨ ∃ kind, Works kind p.2 := by
  obtain ⟨work, hsent, hworks⟩ := h p.1
  have hmem : p.2 ∈ sentBy arrivals p.1 := mem_sentBy.2 hp
  rw [hsent, List.mem_cons] at hmem
  exact hmem.imp_right fun hwork => ⟨p.1.1, hworks _ hwork⟩

/-- `checkChildren` returns 0, and every thread has reported before. -/
def Threads.Handshake (t : Threads) (old : ℤ × ℤ) (arrivals : List (t.Child × Bytes)) : Prop :=
  ∃ seen unread, arrivals = seen ++ unread ∧
    checkChildren t old (arrivals.map Prod.snd) = some (0, unread.map Prod.snd) ∧
    ∀ child, (child, aliveMessage) ∈ seen

/-- The start succeeds if and only if no thread sends anything but its report before the last
report has arrived. -/
theorem checkChildren_iff (t : Threads) (old : ℤ × ℤ) {arrivals : List (t.Child × Bytes)}
    (h : t.Started arrivals) : t.Handshake old arrivals ↔ InOrder aliveMessage arrivals := by
  constructor
  · rintro ⟨seen, unread, rfl, hcheck, hheard⟩
    refine .of_greetings (fun p hp => ?_) hheard
    have hkinds : ∀ text ∈ (seen ++ unread).map Prod.snd,
        text = aliveMessage ∨ ∃ kind, Works kind text := by
      intro text htext
      obtain ⟨q, hq, rfl⟩ := List.mem_map.1 htext
      exact h.kinds hq
    obtain ⟨texts, hsplit, -, hall⟩ := awaitHeartbeats_zero hkinds hcheck
    rw [List.map_append] at hsplit
    have hseen := List.append_cancel_right hsplit
    exact hall _ (hseen ▸ List.mem_map_of_mem hp)
  · intro horder
    obtain ⟨seen, unread, hsplit, hlen, hall, hheard⟩ := horder.greetings h.opens
    refine ⟨seen, unread, hsplit, ?_, hheard⟩
    rw [checkChildren, hsplit, List.map_append]
    refine awaitHeartbeats_append _ old _ _ (by rw [List.length_map, hlen, t.card_child]) ?_
    intro text htext
    obtain ⟨p, hp, rfl⟩ := List.mem_map.1 htext
    exact hall p hp

namespace Sample

def threads : Threads := ⟨0, 1, 0, 0, 1⟩

def boxChild : threads.Child := ⟨.box, ⟨0, by decide⟩⟩
def pubChild : threads.Child := ⟨.publisher, ⟨0, by decide⟩⟩

def event : Bytes := boxMessage .s300 inModify box (ascii ['/', 'f'])

def lateEvent : List (threads.Child × Bytes) :=
  [(boxChild, aliveMessage), (pubChild, aliveMessage), (boxChild, event)]

def earlyEvent : List (threads.Child × Bytes) :=
  [(boxChild, aliveMessage), (boxChild, event), (pubChild, aliveMessage)]

theorem child_cases (child : threads.Child) : child = boxChild ∨ child = pubChild := by
  revert child
  decide

theorem started_lateEvent : threads.Started lateEvent := by
  intro child
  rcases child_cases child with rfl | rfl
  · exact ⟨[event], by decide, List.forall_mem_singleton.2 (works_boxMessage _ _ _ _)⟩
  · exact ⟨[], by decide, by simp⟩

theorem started_earlyEvent : threads.Started earlyEvent := by
  intro child
  rcases child_cases child with rfl | rfl
  · exact ⟨[event], by decide, List.forall_mem_singleton.2 (works_boxMessage _ _ _ _)⟩
  · exact ⟨[], by decide, by simp⟩

end Sample

theorem checkChildren_iff_lateEvent :
    Sample.threads.Handshake (0, 0) Sample.lateEvent ↔ InOrder aliveMessage Sample.lateEvent :=
  checkChildren_iff Sample.threads (0, 0) Sample.started_lateEvent

theorem checkChildren_fails :
    ¬ ∀ (t : Threads) (old : ℤ × ℤ) (arrivals : List (t.Child × Bytes)), t.Started arrivals →
      t.Handshake old arrivals := by
  intro h
  obtain ⟨seen, unread, -, hcheck, -⟩ := h Sample.threads (0, 0) _ Sample.started_earlyEvent
  have hgives : checkChildren Sample.threads (0, 0) (Sample.earlyEvent.map Prod.snd) =
      some (1, [aliveMessage]) := by
    decide
  simp [hgives] at hcheck

end Flocksy
