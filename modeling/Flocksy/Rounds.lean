import Flocksy.Boxoffice

/-!
# Inputs, replied flags and reply rounds

An `Input` is a message that the router hands to `processEvent`: a status that a
peer, the dispatcher or a box can send, the rest of the stream, and the
environment of the call. Acknowledgements set the replied flag of their sender; the
one that finds no other subscriber missing `Completes` the round, and the status
of the message is replaced by the `completion`.
-/

namespace Flocksy

open ByteStream Fsm

/-- What peers send is produced by `get_heartbeat_status`; the dispatcher sends 132 and
156, a box 300 and 320. -/
def Conforming (status : Status) : Prop :=
  (∃ state event received, getHeartbeatStatus state event received = status) ∨
    status = .s132 ∨ status = .s156 ∨ status = .s300 ∨ status = .s320

def conformingStatuses : List Status := heartbeatStatuses ++ [.s132, .s156, .s300, .s320]

theorem conforming_iff {status : Status} : Conforming status ↔ status ∈ conformingStatuses := by
  constructor
  · rintro (⟨state, event, received, rfl⟩ | rfl | rfl | rfl | rfl)
    · exact List.mem_append_left _ (getHeartbeatStatus_mem state event received)
    all_goals decide
  · intro h
    rcases List.mem_append.1 h with h | h
    · exact .inl (exists_heartbeatStatus h)
    · simpa [Conforming] using Or.inr (a := _) h

structure Input where
  status : Status
  conforming : Conforming status
  sstream : Stream
  env : Env

def Input.sender (inp : Input) : Hash := Hash.ofBytes (inp.sstream.read genericHashLen).1

def Boxoffice.Replied (bo : Boxoffice) (h : Hash) : Prop :=
  h ∈ bo.subscribers.keys ∧ (bo.subscribers.val h).replied = true

instance (bo : Boxoffice) (h : Hash) : Decidable (bo.Replied h) := by
  unfold Boxoffice.Replied
  infer_instance

theorem touch_replied {t : NodeMap} {k h : Hash} :
    (h ∈ (t.touch k).keys ∧ ((t.touch k).val h).replied = true) ↔
      h ∈ t.keys ∧ (t.val h).replied = true := by
  rw [KeyedTable.mem_touch_keys, KeyedTable.touch_val]
  by_cases hk : h = k
  · subst hk
    by_cases hm : h ∈ t.keys
    · simp [hm]
    · simp [hm, show (default : Node).replied = false from rfl]
  · simp [hk]

theorem modify_replied {t : NodeMap} {k h : Hash} {f : Node → Node}
    (hf : ∀ n, (f n).replied = n.replied) :
    (h ∈ (t.modify k f).keys ∧ ((t.modify k f).val h).replied = true) ↔
      h ∈ t.keys ∧ (t.val h).replied = true := by
  rw [← touch_replied (t := t) (k := k)]
  by_cases hk : h = k
  · subst hk
    rw [KeyedTable.modify_val_self, hf]
    rfl
  · rw [KeyedTable.modify_val_of_ne _ _ hk, KeyedTable.touch_val, if_neg (by simp [hk])]
    rfl

theorem Boxoffice.markReplied_replied (bo : Boxoffice) (h : Hash) :
    bo.markReplied.Replied h ↔ h = bo.currentNodeHash ∨ bo.Replied h := by
  unfold Boxoffice.Replied markReplied
  rw [KeyedTable.mem_modify_keys]
  by_cases hk : h = bo.currentNodeHash
  · simp [hk, KeyedTable.modify_val_self]
  · simp [hk, KeyedTable.modify_val_of_ne]

theorem Boxoffice.markReplied_all (bo : Boxoffice) :
    bo.markReplied.subscribers.all Node.replied = true ↔
      ∀ h ∈ bo.subscribers.keys, h = bo.currentNodeHash ∨ bo.Replied h := by
  rw [KeyedTable.all_iff]
  constructor
  · intro hall h hh
    have hmem : h ∈ bo.markReplied.subscribers.keys := KeyedTable.mem_modify_keys.2 (.inr hh)
    exact (bo.markReplied_replied h).1 ⟨hmem, hall h hmem⟩
  · intro hall h hh
    rcases KeyedTable.mem_modify_keys.1 hh with rfl | hk
    · exact ((bo.markReplied_replied _).2 (.inl rfl)).2
    · exact ((bo.markReplied_replied h).2 (hall h hk)).2

theorem Boxoffice.clearReplied_replied (bo : Boxoffice) (h : Hash) :
    ¬ bo.clearReplied.Replied h := by
  simp [Boxoffice.Replied, clearReplied, Node.clearReplied]

def isAck (status : Status) : Bool :=
  status = .s121 ∨ status = .s161 ∨ status = .s165 ∨ status = .s140 ∨ status = .s141

def isLocal (status : Status) : Bool := status = .s300 ∨ status = .s320

theorem isAck_of_local : ∀ status, isLocal status = true → isAck status = false := by
  decide +kernel

/-- The status that ends the round of an acknowledgement. -/
def Boxoffice.completion (bo : Boxoffice) : Status → Status
  | .s121 => .s122
  | .s161 => .s162
  | .s165 => .s166
  | .s140 => .s142
  | .s141 => metadataRoundStatus bo
  | status => status

def completions : Status → List Status
  | .s121 => [.s122]
  | .s161 => [.s162]
  | .s165 => [.s166]
  | .s140 => [.s142]
  | .s141 => [.s174, .s178, .s177, .s172]
  | _ => []

theorem Boxoffice.completion_mem (bo : Boxoffice) {status : Status} (h : isAck status = true) :
    bo.completion status ∈ completions status := by
  cases status <;> try simp [isAck] at h
  case s141 =>
    simp only [Boxoffice.completion, metadataRoundStatus, completions]
    split_ifs <;> simp
  all_goals exact List.mem_singleton_self _

/-- The statuses a message other than an acknowledgement or a local event continues with. -/
def rewordings : Status → List Status
  | .s170 => [.s170, .s173]
  | .s174 => [.s174, .s173]
  | .s150 => [.s150, .s100]
  | .s200 => [.s200, .s113]
  | status => [status]

theorem mem_rewordings (status : Status) : status ∈ rewordings status := by
  cases status <;> decide

def Boxoffice.Completes (bo : Boxoffice) (inp : Input) : Prop :=
  isAck inp.status = true ∧ ∀ h ∈ bo.subscribers.keys, h = inp.sender ∨ bo.Replied h

instance (bo : Boxoffice) (inp : Input) : Decidable (bo.Completes inp) := by
  unfold Boxoffice.Completes
  infer_instance

def Boxoffice.SameQueues (bo bo' : Boxoffice) : Prop :=
  bo'.fileListMetadata = bo.fileListMetadata ∧ bo'.fileListData = bo.fileListData ∧
    bo'.nextAddr = bo.nextAddr

def Input.mask (inp : Input) : ℤ := (inp.sstream.extractInt 0).1

def Input.box (inp : Input) : Hash :=
  Hash.ofBytes ((inp.sstream.extractInt 0).2.read genericHashLen).1

def Input.path (inp : Input) : Bytes :=
  ((inp.sstream.extractInt 0).2.read genericHashLen).2.extractWord.1

def notifies (status : Status) : Bool := status = .s122 ∨ status = .s177

def Boxoffice.RoundAccepted (bo : Boxoffice) (inp : Input) : Prop :=
  checkEvent bo.state (getEventByStatusCode (bo.completion inp.status))
    (bo.completion inp.status) = true

/-- Why processEvent returns before the transition. -/
inductive Stopped (bo : Boxoffice) (inp : Input) : ℕ → Prop where
  | round : bo.Completes inp → ¬ bo.RoundAccepted inp → Stopped bo inp 1
  | path : isLocal inp.status = true → maximumPathLength < inp.path.length → Stopped bo inp 1

/-- Why the stages before the transition fail. -/
inductive FaultCause (bo : Boxoffice) (inp : Input) : Fault → Prop where
  | emptyDeque : bo.Completes inp → bo.RoundAccepted inp →
      notifies (bo.completion inp.status) = true → bo.fileListData = [] →
      FaultCause bo inp .frontOfEmptyDeque
  | unknownBox : bo.Completes inp → bo.RoundAccepted inp →
      notifies (bo.completion inp.status) = true → bo.baseDir bo.currentBox = none →
      FaultCause bo inp .nullBox
  | localFile {f : Fault} : isLocal inp.status = true →
      (∀ dir, bo.baseDir inp.box = some dir →
        newLocalFile inp.env.fs dir inp.box inp.path inp.mask = none) →
      f ≠ .frontOfEmptyDeque → FaultCause bo inp f
  | file {f : Fault} : isAck inp.status = false → isLocal inp.status = false →
      f ≠ .frontOfEmptyDeque → FaultCause bo inp f

end Flocksy
