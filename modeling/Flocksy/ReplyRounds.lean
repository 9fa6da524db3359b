import Flocksy.BoxofficeStep
import Flocksy.Messages

/-!
# The reply barrier

In an announcing or sending state the node counts one kind of acknowledgement. A
replied flag set in such a state was set since the node entered it: local events
and completed rounds clear the flags, and the states of the metadata heartbeat,
from which a sending state is entered by a timer, have no flag set. When the last
acknowledgement ends a round, every subscriber has therefore sent it in this round.
-/

namespace Flocksy

open Fsm Runs

def roundStatus : State → Option Status
  | .announcingNewFile => some .s121
  | .announcingFileMetadataChange => some .s161
  | .announcingFileMetadataChangeWithMore => some .s165
  | .sendingFileMetadataChange | .sendingFileMetadataChangeWithMore => some .s141
  | .sendingNewFile | .sendingNewFileWithMoreAlpha | .sendingNewFileWithMoreBeta => some .s140
  | _ => none

def Boxoffice.round (bo : Boxoffice) : Option (State × Status) :=
  (roundStatus bo.state).map (bo.state, ·)

/-- No flag is set while the metadata of a new file is sent. -/
def Boxoffice.DataUnreplied (bo : Boxoffice) : Prop :=
  entersData bo.state = true → ∀ h, ¬ bo.Replied h

theorem roundStatus_of_ack : ∀ state, ∀ t ∈ transitions state, isAck t.status = true →
    entersData state = false ∧ (roundStatus state).all (· = t.status) = true := by
  decide +kernel

/-- Only the timer enters a sending state without a round. -/
theorem quiet_enters_round : ∀ state, ∀ t ∈ transitions state,
    t.event = getEventByStatusCode t.status → t.status ∈ quietStatuses → t.newState ≠ state →
      entersData t.newState = false ∧
        ((roundStatus t.newState).isSome = true → entersData state = true) := by
  decide +kernel

theorem Boxoffice.replied_congr {bo bo' : Boxoffice} (h : bo'.subscribers = bo.subscribers)
    (k : Hash) : bo'.Replied k ↔ bo.Replied k := by
  simp only [Boxoffice.Replied, h]

theorem Taken.replied_cases {bo bo' : Boxoffice} {inp : Input} {fr : Frame} {t : Transition}
    {out : List Effect} (ht : Taken bo inp fr t) (hm : Moved fr t bo' out) {k : Hash}
    (hk : bo'.Replied k) :
    (t.status ∈ quietStatuses ∧ bo.Replied k) ∨
      (isAck inp.status = true ∧ t.status = inp.status ∧ bo'.state = bo.state ∧
        (k = inp.sender ∨ bo.Replied k)) := by
  have hkept := hm.kept
  rw [Boxoffice.replied_congr hkept.subscribers] at hk
  cases ht.settled with
  | silent hack hlocal hst hrep =>
    exact .inl ⟨ht.status ▸ mem_quietStatuses hack hlocal hst, (hrep k).1 hk⟩
  | counted hack hnot hst hrep =>
    have hstatus : t.status = inp.status := ht.status.trans hst
    refine .inr ⟨hack, hstatus, ?_, (hrep k).1 hk⟩
    rw [hkept.state]
    exact newState_of_ack _ t ht.row (hstatus ▸ hack)
  | completed hcomp hst hrep => exact absurd hk (hrep k)
  | queued f hlocal hst hstate hfile hrep => exact absurd hk (hrep k)
  | twice hlocal hst hstate hrep => exact absurd hk (hrep k)

theorem dataUnreplied_step {bo bo' : Boxoffice} {inp : Input} (hinv : bo.DataUnreplied)
    (h : bo.next inp = some bo') : bo'.DataUnreplied := by
  rcases next_cases h with rfl | ⟨fr, t, out, ht, hm⟩
  · exact hinv
  intro hdata k hk
  rw [hm.kept.state] at hdata
  rcases ht.replied_cases hm hk with ⟨hquiet, hbefore⟩ | ⟨hack, hst, hsame, -⟩
  · by_cases hstay : t.newState = bo.state
    · exact hinv (hstay ▸ hdata) k hbefore
    · simp [(quiet_enters_round _ t ht.row ht.event hquiet hstay).1] at hdata
  · have hnot := (roundStatus_of_ack _ t ht.row (hst ▸ hack)).1
    rw [← hm.kept.state, hsame, hnot] at hdata
    exact absurd hdata (by decide)

theorem round_step {bo bo' : Boxoffice} {inp : Input} {w : State × Status} {k : Hash}
    (hinv : bo.DataUnreplied) (h : bo.next inp = some bo') (hw : bo'.round = some w)
    (hk : bo'.Replied k) :
    bo.round = some w ∧ (bo.Replied k ∨ inp.status = w.2 ∧ inp.sender = k) := by
  rcases next_cases h with rfl | ⟨fr, t, out, ht, hm⟩
  · exact ⟨hw, .inl hk⟩
  have hround : ∀ {state : State}, bo'.state = state → state = bo.state → bo.round = some w := by
    rintro state rfl hs
    rwa [Boxoffice.round, ← hs]
  rcases ht.replied_cases hm hk with ⟨hquiet, hbefore⟩ | ⟨hack, hst, hsame, hsender⟩
  · by_cases hstay : t.newState = bo.state
    · exact ⟨hround hm.kept.state hstay, .inl hbefore⟩
    · have henter := (quiet_enters_round _ t ht.row ht.event hquiet hstay).2
      rw [Boxoffice.round, hm.kept.state] at hw
      exact absurd hbefore (hinv (henter (by simpa using congrArg Option.isSome hw)) k)
  · have hwb : bo.round = some w := hround rfl hsame
    refine ⟨hwb, hsender.symm.imp_right fun e => ⟨?_, e.symm⟩⟩
    have hall := (roundStatus_of_ack _ t ht.row (hst ▸ hack)).2
    obtain ⟨s, hs, rfl⟩ := Option.map_eq_some_iff.1 hwb
    rw [hs, Option.all_some, decide_eq_true_eq] at hall
    exact (hall.trans hst).symm

theorem newState_of_completion : ∀ state, ∀ r ∈ transitions state, isAck r.status = true →
    roundStatus state = some r.status ∨
      ∀ t ∈ transitions state, t.status ∈ completions r.status → t.newState = state := by
  decide +kernel

theorem completes_of_leaves {bo bo' : Boxoffice} {inp : Input} (hack : isAck inp.status = true)
    (h : bo.next inp = some bo') (hleave : bo'.state ≠ bo.state) :
    bo.Completes inp ∧ roundStatus bo.state = some inp.status := by
  rcases next_cases h with rfl | ⟨fr, t, out, ht, hm⟩
  · exact absurd rfl hleave
  rw [hm.kept.state] at hleave
  obtain ⟨r, hr, -, hrst⟩ := ht.inputRow
  have hround := newState_of_completion _ r hr (hrst ▸ hack)
  rw [hrst] at hround
  cases ht.settled with
  | silent hno => simp [hack] at hno
  | counted _ _ hst =>
    exact absurd (newState_of_ack _ t ht.row (by rw [ht.status, hst, hack])) hleave
  | completed hcomp hst =>
    refine ⟨hcomp, hround.resolve_right fun h => hleave (h t ht.row ?_)⟩
    rw [ht.status, hst]
    exact bo.completion_mem hack
  | queued f hlocal => simp [isAck_of_local _ hlocal] at hack
  | twice hlocal => simp [isAck_of_local _ hlocal] at hack

theorem replyRound_sound {start bo bo' : Boxoffice} {tr : List (Boxoffice × Input)} {inp : Input}
    (hready : start.state = .ready) (hrun : Run Boxoffice.next start tr bo)
    (hack : isAck inp.status = true) (hstep : bo.next inp = some bo')
    (hleave : bo'.state ≠ bo.state) :
    roundStatus bo.state = some inp.status ∧
      ∀ h ∈ bo.subscribers.keys, Since (fun b => b.state = bo.state)
        (fun _ i => i.status = inp.status ∧ i.sender = h) ((bo, inp) :: tr) := by
  obtain ⟨hcomp, hround⟩ := completes_of_leaves hack hstep hleave
  refine ⟨hround, fun h hh => ⟨rfl, ?_⟩⟩
  rcases hcomp.2 h hh with rfl | hreplied
  · exact .inl ⟨rfl, rfl⟩
  have hinv : ∀ tr b, Run Boxoffice.next start tr b → b.DataUnreplied := fun _ _ h =>
    h.invariant (fun hdata => by simp [hready, entersData] at hdata)
      fun _ _ _ hb hn => dataUnreplied_step hb hn
  have hwindow : bo.round = some (bo.state, inp.status) := by simp [Boxoffice.round, hround]
  refine .inr ((hrun.marked_since Boxoffice.round Boxoffice.Replied
    (fun w k i => i.status = w.2 ∧ i.sender = k) (by simp [Boxoffice.round, hready, roundStatus])
    hinv (fun _ _ _ _ _ hb hn hw hk => round_step hb hn hw hk) hwindow hreplied).imp ?_
    fun _ _ h => h)
  intro b hb
  obtain ⟨s, -, hs⟩ := Option.map_eq_some_iff.1 hb
  exact congrArg Prod.fst hs

/-- The second of two subscribers replies, after the first one's reply was counted. -/
theorem replyRound_sound_twoSubscribers :
    let start := Sample.start [.fill 65, .fill 66]
    let inputs := [Sample.deleted 'f', Sample.heard .s161 (by decide) (.fill 65)]
    let ack := Sample.heard .s161 (by decide) (.fill 66)
    let bo := after Boxoffice.next start inputs
    roundStatus bo.state = some .s161 ∧ ∀ h ∈ bo.subscribers.keys,
      Since (fun b => b.state = bo.state) (fun _ i => i.status = .s161 ∧ i.sender = h)
        ((bo, ack) :: record Boxoffice.next start inputs []) := by
  intro start inputs ack bo
  have hfacts : (runAll Boxoffice.next start (inputs ++ [ack])).isSome = true ∧
      (after Boxoffice.next start (inputs ++ [ack])).state ≠ bo.state := by
    decide +kernel
  have hrun : Run Boxoffice.next start (record Boxoffice.next start inputs []) bo :=
    (run_next_after Boxoffice.next start inputs ack hfacts.1).1
  have hstep : bo.next ack = some (after Boxoffice.next start (inputs ++ [ack])) :=
    (run_next_after Boxoffice.next start inputs ack hfacts.1).2
  exact replyRound_sound rfl hrun (by decide) hstep hfacts.2

end Flocksy
