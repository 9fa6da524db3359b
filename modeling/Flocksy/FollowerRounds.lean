import Flocksy.Network
import Flocksy.ReplyRounds

/-!
# Rounds in the session of another node

A node also counts the acknowledgements that its fellow followers send to the coordinator, and
nothing clears these flags before the node has a session of its own: the branch that should do
so waits for a 132 that never is a heartbeat. When every subscriber has acknowledged some
session since the flags were last cleared, the follower takes a round of its own for complete,
which its state does not accept.
-/

namespace Flocksy

open ByteStream Fsm Runs Links

def follows (state : State) : Bool :=
  state ∈ [.acknowledgingNewFile, .acknowledgingNewFileWithMore, .acknowledgingFileMetadataChange,
    .acknowledgingFileMetadataChangeWithMore, .promotingNewFileMetadata,
    .promotingNewFileMetadataWithMore, .receivingFileMetadataChange,
    .receivingFileMetadataChangeWithMore, .sendingFakeFile, .sendingFakeFileWithMoreAlpha,
    .sendingFakeFileWithMoreBeta, .broadcastingAllReceived, .broadcastingAllReceivedWithMoreAlpha,
    .broadcastingAllReceivedWithMoreBeta, .broadcastingAllMetadataReceived]

def Boxoffice.Accepts (bo : Boxoffice) (inp : Input) : Prop :=
  checkEvent bo.state (getEventByStatusCode inp.status) inp.status = true

instance (bo : Boxoffice) (inp : Input) : Decidable (bo.Accepts inp) :=
  inferInstanceAs (Decidable (_ = true))

section Step

variable {bo bo' : Boxoffice} {inp : Input}

theorem replied_next (h : bo.next inp = some bo') (k : Hash) :
    bo'.Replied k ↔
      if bo.Accepts inp ∧ isLocal inp.status = true then False
      else if bo.Accepts inp ∧ isAck inp.status = true then
        ¬ bo.Completes inp ∧ (k = inp.sender ∨ bo.Replied k)
      else bo.Replied k := by
  have hp := processEvent_processed bo inp
  rw [returned_of_next h] at hp
  generalize bo.effects inp = effects at hp
  cases hp with
  | ignored hno =>
    have hnot : ¬ bo.Accepts inp := by simp [Boxoffice.Accepts, hno]
    simp [hnot]
  | stopped _ hstop => cases hstop
  | @moved fr t _ _ ht hm =>
    have hacc : bo.Accepts inp := ht.accepted
    rw [Boxoffice.replied_congr hm.kept.subscribers]
    cases ht.settled with
    | silent hack hlocal _ hrep => simp [hack, hlocal, hrep]
    | counted hack hnot _ hrep =>
      have hlocal : isLocal inp.status = false := (ack_plain _ hack).1
      simp [hacc, hack, hlocal, hrep, hnot]
    | completed hcomp _ hrep =>
      have hlocal : isLocal inp.status = false := (ack_plain _ hcomp.1).1
      simp [hacc, hcomp.1, hlocal, hcomp, hrep]
    | queued f hlocal _ _ _ hrep => simp [hacc, hlocal, hrep]
    | twice hlocal _ _ hrep => simp [hacc, hlocal, hrep]

end Step

namespace Sample

def acks (j : Fin 3) : Input := heard .s161 (by decide) (flock.uid j)

end Sample

end Flocksy
