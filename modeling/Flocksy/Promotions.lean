import Flocksy.Foundation.Stays
import Flocksy.CurrentFile

/-!
# The dispatcher of a follower

A follower in `promoting_new_file_metadata_state` has its dispatcher told the start of the file by
the first 130 that it hears in this state. `notified_dispatch_` is set with it, and cleared when a
new file is announced, so the 130 that are repeated tell it nothing.
-/

namespace Flocksy

open ByteStream Fsm Runs

def isPromotion : Effect → Bool
  | .dispatcher .s130 _ => true
  | _ => false

def promotions (out : List Effect) : ℕ := out.countP isPromotion

theorem promotions_append (out out' : List Effect) :
    promotions (out ++ out') = promotions out + promotions out' := List.countP_append

theorem promotions_disk (ops : List FileOp) : promotions (ops.map Effect.disk) = 0 := by
  rw [promotions, List.countP_eq_zero]
  intro e he
  obtain ⟨op, -, rfl⟩ := List.mem_map.1 he
  simp [isPromotion]

theorem promotions_eq_zero {out : List Effect} (h : ∀ payload, .dispatcher .s130 payload ∉ out) :
    promotions out = 0 := by
  rw [promotions, List.countP_eq_zero]
  intro e he hpromotion
  unfold isPromotion at hpromotion
  split at hpromotion
  · exact h _ he
  · simp at hpromotion

def Boxoffice.notifiedAfter (bo : Boxoffice) : Status → Bool
  | .s120 | .s124 => false
  | .s130 => bo.notifiedDispatch || bo.state = .promotingNewFileMetadata
  | .s174 => bo.notifiedDispatch && bo.state ≠ .receivingFileMetadataChangeWithMore
  | _ => bo.notifiedDispatch

section Call

variable {bo bo' : Boxoffice} {inp : Input}

theorem replyRound_notified {complete : Boxoffice → Boxoffice × Status} (fr : Frame)
    (hkeeps : ∀ b, (complete b).1.notifiedDispatch = b.notifiedDispatch) :
    (replyRound complete fr).Post
      (Exec.whenNext fun fr' => fr'.bo.notifiedDispatch = fr.bo.notifiedDispatch) := by
  unfold replyRound
  simp only
  split_ifs
  · rw [checked, Exec.post_require]
    split_ifs
    · exact hkeeps _
    · trivial
  · rfl

theorem receivedNewFileMetadata_notified (fr : Frame) :
    (receivedNewFileMetadata fr).Post (Exec.whenNext fun fr' => fr'.bo.notifiedDispatch =
      (fr.bo.notifiedDispatch || fr.bo.state = .promotingNewFileMetadata)) := by
  unfold receivedNewFileMetadata
  split_ifs with hcond
  · cases hfile : announcedFile fr with
    | error f => trivial
    | ok x =>
      simp only
      cases hwrite : writeMetadata x.1 x.2 with
      | error f => trivial
      | ok fr₁ =>
        have hset : (fr.bo.notifiedDispatch || fr.bo.state = .promotingNewFileMetadata) = true := by
          simp [hcond.1]
        exact hset.symm
  · have hsame : (fr.bo.notifiedDispatch || fr.bo.state = .promotingNewFileMetadata) =
        fr.bo.notifiedDispatch := by
      cases hnotified : fr.bo.notifiedDispatch with
      | true => rfl
      | false => simpa [hnotified] using hcond
    exact hsame.symm

theorem receivedMetadataChange_notified (fr : Frame) :
    (receivedMetadataChange fr).Post
      (Exec.whenNext fun fr' => fr'.bo.notifiedDispatch = fr.bo.notifiedDispatch) := by
  unfold receivedMetadataChange
  split_ifs with hstate
  · cases hfile : announcedFile fr with
    | error f => trivial
    | ok x =>
      obtain ⟨newFile, fr₁⟩ := x
      cases happly : applyMetadata newFile fr₁ with
      | error f =>
        simp only [happly]
        trivial
      | ok fr₂ =>
        simp only [happly, checked, Exec.post_require]
        split_ifs
        · exact (applyMetadata_keeps happly).1.trans (by rw [(announcedFile_keeps hfile).1])
        · trivial
  · rfl

theorem receivedMetadataChangeWithMore_notified (fr : Frame) :
    (receivedMetadataChangeWithMore fr).Post (Exec.whenNext fun fr' => fr'.bo.notifiedDispatch =
      (fr.bo.notifiedDispatch && fr.bo.state ≠ .receivingFileMetadataChangeWithMore)) := by
  unfold receivedMetadataChangeWithMore
  split_ifs with hstate
  · cases hfile : announcedFile fr with
    | error f => trivial
    | ok x =>
      obtain ⟨newFile, fr₁⟩ := x
      cases happly : applyMetadata newFile fr₁ with
      | error f =>
        simp only [happly]
        trivial
      | ok fr₂ =>
        simp only [happly, checked, Exec.post_require]
        split_ifs
        · have hclear : (fr.bo.notifiedDispatch &&
              fr.bo.state ≠ .receivingFileMetadataChangeWithMore) = false := by
            simp [hstate]
          exact hclear.symm
        · trivial
  · have hsame : (fr.bo.notifiedDispatch &&
        fr.bo.state ≠ .receivingFileMetadataChangeWithMore) = fr.bo.notifiedDispatch := by
      simp [hstate]
    exact hsame.symm

theorem receivedSyncEnd_notified (fr : Frame) :
    (receivedSyncEnd fr).Post
      (Exec.whenNext fun fr' => fr'.bo.notifiedDispatch = fr.bo.notifiedDispatch) := by
  unfold receivedSyncEnd
  split_ifs with hready
  · have hlegal : checkEvent .ready .receivedHeartbeat .s100 = true := by decide
    have hact : getAction .ready .receivedHeartbeat .s100 = .sendHeartbeat := by decide
    simp only [checked, Frame.become, Exec.require, hready, getEventByStatusCode, hlegal, hact,
      ↓reduceIte, Exec.andThen, performAction, updateHeartbeat, prepareHeartbeatMessage]
    rfl
  · rfl

theorem receivedStopTime_notified (fr : Frame) :
    (receivedStopTime fr).Post
      (Exec.whenNext fun fr' => fr'.bo.notifiedDispatch = fr.bo.notifiedDispatch) := by
  unfold receivedStopTime
  split_ifs
  · rfl
  · rfl

theorem heartbeatBranch_notified : (heartbeatBranch (receivedFrame bo inp)).Post
    (Exec.whenNext fun fr => fr.bo.notifiedDispatch = bo.notifiedAfter inp.status) := by
  unfold heartbeatBranch
  rw [receivedFrame_status]
  split
  case h_2 h => rw [h]; exact replyRound_notified _ fun _ => rfl
  case h_3 h => rw [h]; exact replyRound_notified _ fun _ => rfl
  case h_4 h => rw [h]; exact replyRound_notified _ fun _ => rfl
  case h_5 h => rw [h]; exact replyRound_notified _ fun _ => rfl
  case h_6 h => rw [h]; exact replyRound_notified _ fun _ => rfl
  case h_10 h => rw [h]; exact receivedNewFileMetadata_notified _
  case h_12 h => rw [h]; exact receivedMetadataChange_notified _
  case h_13 h => rw [h]; exact receivedMetadataChangeWithMore_notified _
  case h_14 h => rw [h]; exact receivedSyncEnd_notified _
  case h_15 h => rw [h]; exact receivedStopTime_notified _
  case h_16 =>
    have hsame : bo.notifiedAfter inp.status = bo.notifiedDispatch := by
      unfold Boxoffice.notifiedAfter
      split <;> simp_all
    exact hsame.symm
  all_goals
    next h =>
      rw [h]
      rfl

theorem stages_notified : (stages (Frame.start bo inp.status inp.sstream inp.env)).Post
    (Exec.whenNext fun fr => fr.bo.notifiedDispatch = bo.notifiedAfter inp.status) := by
  have hheartbeat : (receivedHeartbeat (Frame.start bo inp.status inp.sstream inp.env)).Post
      (Exec.whenNext fun fr => fr.bo.notifiedDispatch = bo.notifiedAfter inp.status) := by
    unfold receivedHeartbeat
    split_ifs with hevent
    · exact heartbeatBranch_notified
    · have hsame : bo.notifiedAfter inp.status = bo.notifiedDispatch := by
        unfold Boxoffice.notifiedAfter
        split
        case h_5 => rfl
        all_goals
          next hst => exact absurd (by simp [Frame.start, hst, getEventByStatusCode]) hevent
      exact hsame.symm
  have hlater {x : Frame → BoExec} (hx : ∀ fr, (x fr).Post (Exec.whenNext (Later fr))) :
      ∀ fr, fr.bo.notifiedDispatch = bo.notifiedAfter inp.status → (x fr).Post
        (Exec.whenNext fun fr => fr.bo.notifiedDispatch = bo.notifiedAfter inp.status) :=
    fun fr h => (hx fr).mono (fun _ hl => hl.notified.trans h) (fun _ _ h => h) fun _ h => h
  unfold stages
  apply Exec.Post.thenKeeps _ (hlater receivedFileData_later)
  apply Exec.Post.thenKeeps _ (hlater localFileEvent_later)
  exact hheartbeat.thenKeeps (hlater notifyDispatcher_later)

theorem Taken.notified {fr : Frame} {t : Transition} {out : List Effect} (ht : Taken bo inp fr t)
    (hm : Moved fr t bo' out) : bo'.notifiedDispatch = bo.notifiedAfter inp.status :=
  hm.kept.notified.trans (stages_notified.of_next ht.staged)

theorem receivedNewFileMetadata_promotes (fr : Frame)
    (hstate : fr.bo.state = .promotingNewFileMetadata) (hclear : fr.bo.notifiedDispatch = false) :
    (receivedNewFileMetadata fr).Post (Exec.whenNext fun fr' =>
      promotions fr'.out = promotions fr.out + 1 ∧ fr'.status = fr.status ∧
        fr'.event = fr.event) := by
  rw [receivedNewFileMetadata, if_pos ⟨hstate, by simp [hclear]⟩]
  cases hfile : announcedFile fr with
  | error f => trivial
  | ok x =>
    obtain ⟨newFile, fr₁⟩ := x
    obtain ⟨hnear, -⟩ := announcedFile_ok hfile
    obtain ⟨-, -, ops, hout⟩ := announcedFile_keeps hfile
    have hone : promotions fr₁.out = promotions fr.out := by
      rw [hout, promotions_append, promotions_disk, Nat.add_zero]
    simp only
    cases hwrite : writeMetadata newFile fr₁ with
    | error f => trivial
    | ok fr₂ =>
      have hnear₂ := hnear.trans (writeMetadata_near hwrite)
      obtain ⟨⟨ops₂, hout₂⟩, -⟩ := writeMetadata_keeps hwrite
      refine ⟨?_, hnear₂.status, hnear₂.event⟩
      change promotions (fr₂.out ++ _) = _
      rw [promotions_append, hout₂, promotions_append, promotions_disk, hone]
      simp [promotions, isPromotion]

theorem promotions_staged {fr : Frame} (hst : inp.status = .s130)
    (hstate : bo.state = .promotingNewFileMetadata) (hclear : bo.notifiedDispatch = false)
    (hstaged : stages (Frame.start bo inp.status inp.sstream inp.env) = .next fr) :
    promotions fr.out = 1 ∧ fr.status = .s130 := by
  have hpost := receivedNewFileMetadata_promotes (receivedFrame bo inp) hstate hclear
  have hbeat : receivedHeartbeat (Frame.start bo inp.status inp.sstream inp.env) =
      receivedNewFileMetadata (receivedFrame bo inp) := by
    rw [receivedFrame, hst]
    rfl
  rw [stages, hbeat] at hstaged
  cases hx : receivedNewFileMetadata (receivedFrame bo inp) with
  | next fr₁ =>
    rw [hx] at hpost hstaged
    obtain ⟨hone, hstatus, hevent⟩ := hpost
    have hst₁ : fr₁.status = .s130 := hstatus.trans hst
    have hremote : isRemote fr₁.event = true := by
      rw [hevent, receivedFrame_event, hst]
      rfl
    have hnotifies : notifyDispatcher fr₁ = .next fr₁ := by
      rw [notifyDispatcher, if_neg]
      simp [hst₁]
    rw [Exec.andThen, hnotifies, Exec.andThen, localFileEvent_of_remote hremote, Exec.andThen,
      receivedFileData_of_remote hremote] at hstaged
    obtain rfl := Exec.next.inj hstaged
    exact ⟨hone, hst₁⟩
  | ret code fr₁ =>
    rw [hx] at hstaged
    cases hstaged
  | fault f =>
    rw [hx] at hstaged
    cases hstaged

theorem promoting_accepts : checkEvent .promotingNewFileMetadata (getEventByStatusCode .s130) .s130 =
    true := by decide

theorem Moved.out_eq {fr : Frame} {t : Transition} {out : List Effect} (hm : Moved fr t bo' out)
    (hstay : t.newState = fr.bo.state) : out = fr.out := by
  cases hm with
  | stay _ _ hout => exact hout
  | exit hne => exact absurd hstay hne
  | data p ps hne => exact absurd hstay hne
  | metadata p ps hne => exact absurd hstay hne
  | plain _ _ _ _ hne => exact absurd hstay hne

/-- In the state the flag goes up with the message, and a 130 finds or leaves it set. -/
theorem promoting_step (hstate : bo.state = .promotingNewFileMetadata) (h : bo.next inp = some bo') :
    LatchStep (·.notifiedDispatch) (fun _ i => i.status = .s130)
      (fun b i => promotions (b.effects i)) bo inp bo' := by
  have hp := processEvent_processed bo inp
  rw [returned_of_next h] at hp
  generalize hout : bo.effects inp = out at hp
  cases hp with
  | ignored hno =>
    refine ⟨by rw [hout]; rfl, fun hst => ?_⟩
    rw [hst, hstate, promoting_accepts] at hno
    exact absurd hno (by decide)
  | stopped _ hstop => cases hstop
  | @moved fr t _ _ ht hm =>
    have hnotified := ht.notified hm
    by_cases hfirst : inp.status = .s130 ∧ bo.notifiedDispatch = false
    · obtain ⟨hst, hclear⟩ := hfirst
      obtain ⟨hone, hst₁⟩ := promotions_staged hst hstate hclear ht.staged
      have hset : bo'.notifiedDispatch = true := by
        rw [hnotified, hst, Boxoffice.notifiedAfter, hstate]
        simp
      have hstays : t.newState = fr.bo.state := by
        rw [ht.steady.state, hstate]
        exact promoting_stays t (hstate ▸ ht.row) (ht.status.trans hst₁)
      refine ⟨?_, fun _ => hset⟩
      rw [hout, hm.out_eq hstays, hone, hset, hclear]
      rfl
    · have hflag : Flagged bo inp fr := stages_flagged.of_next ht.staged
      have hnone : promotions out = 0 := by
        refine promotions_eq_zero fun payload hmem => ?_
        obtain ⟨hst, happlying⟩ := hflag.handed payload (hm.handed.2 payload hmem)
        rcases happlying with ⟨-, -, hclear⟩ | ⟨h170, -⟩ | ⟨h174, -⟩
        · exact hfirst ⟨hst, hclear⟩
        · simp [hst] at h170
        · simp [hst] at h174
      have hsame : bo'.notifiedDispatch = bo.notifiedDispatch := by
        obtain ⟨h120, h124⟩ := promoting_rejects _ (hstate ▸ ht.accepted)
        rw [hnotified]
        unfold Boxoffice.notifiedAfter
        split
        case h_1 hst => exact absurd hst h120
        case h_2 hst => exact absurd hst h124
        case h_3 hst =>
          have hset : bo.notifiedDispatch = true := by simpa [hst] using hfirst
          rw [hset, Bool.true_or]
        case h_4 => simp [hstate]
        case h_5 => rfl
      refine ⟨by rw [hout, hnone, hsame, Nat.add_zero], fun hst => ?_⟩
      rw [hsame]
      simpa [hst] using hfirst

theorem enters_acknowledging : ∀ state, ∀ t ∈ usedTransitions state,
    t.newState = .acknowledgingNewFile → state = .acknowledgingNewFile ∨ t.status = .s120 := by
  decide +kernel

theorem notifiedAfter_of_clear (hstate : bo.state ≠ .promotingNewFileMetadata)
    (hclear : bo.notifiedDispatch = false) (s : Status) : bo.notifiedAfter s = false := by
  unfold Boxoffice.notifiedAfter
  split <;> simp [hclear, hstate]

theorem clear_of_acknowledging (hstate : bo.state = .acknowledgingNewFile)
    (hclear : bo.notifiedDispatch = false) (h : bo.next inp = some bo') :
    bo'.notifiedDispatch = false := by
  rcases next_cases h with rfl | ⟨fr, t, out, ht, hm⟩
  · exact hclear
  · rw [ht.notified hm]
    exact notifiedAfter_of_clear (by simp [hstate]) hclear _

theorem acknowledging_step (hinv : bo.state = .acknowledgingNewFile → bo.notifiedDispatch = false)
    (h : bo.next inp = some bo') :
    bo'.state = .acknowledgingNewFile → bo'.notifiedDispatch = false := by
  intro hstate
  rcases next_cases h with rfl | ⟨fr, t, out, ht, hm⟩
  · exact hinv hstate
  · rw [hm.kept.state] at hstate
    rcases enters_acknowledging _ t ht.mem_usedTransitions hstate with hbefore | hst
    · exact clear_of_acknowledging hbefore (hinv hbefore) h
    · rw [ht.notified hm, (ht.heard_status (.inl hst)).trans hst]
      rfl

end Call

theorem acknowledging_of_run {start bo : Boxoffice} {tr : List (Boxoffice × Input)}
    (hready : start.state = .ready) (hrun : Run Boxoffice.next start tr bo) :
    bo.state = .acknowledgingNewFile → bo.notifiedDispatch = false :=
  hrun.invariant (fun h => by simp [hready] at h) fun _ _ _ hb hn => acknowledging_step hb hn

def promoting (bo : Boxoffice) : Bool := bo.state = .promotingNewFileMetadata

def notifications (tr : List (Boxoffice × Input)) : ℕ :=
  (tr.map fun p => promotions (p.1.effects p.2)).sum

/-- The dispatcher is told at most once in a stay, and once in a stay with a 130 after an
announcement. -/
theorem promotions_of_run {start bo : Boxoffice} {tr : List (Boxoffice × Input)}
    (hready : start.state = .ready) (hrun : Run Boxoffice.next start tr bo) :
    notifications (stay promoting tr) ≤ 1 ∧
      ∀ p earlier, before promoting tr = p :: earlier → p.1.state = .acknowledgingNewFile →
        (∃ q ∈ stay promoting tr, q.2.status = .s130) →
          notifications (stay promoting tr) = 1 := by
  obtain ⟨m, hbefore, hstay⟩ := hrun.stay promoting
  obtain ⟨hcount, hasked⟩ := hstay.latch fun p hp bo' hs =>
    promoting_step (by simpa [promoting] using inside_of_mem_stay promoting hp) hs
  rw [← notifications] at hcount
  refine ⟨?_, fun p earlier hentry hstate hheard => ?_⟩
  · have hle := bo.notifiedDispatch.toNat_le
    omega
  · rw [hentry] at hbefore
    have hclear : m.notifiedDispatch = false := by
      cases hbefore with
      | snoc hearlier hs =>
        exact clear_of_acknowledging hstate (acknowledging_of_run hready hearlier hstate) hs
    have hset := hasked hheard
    simp only [hclear, hset, Bool.toNat_true, Bool.toNat_false] at hcount
    omega

def repeatedAnnouncement : List Input :=
  [Sample.peerAnnounces, Sample.announced 'f', Sample.announced 'f', Sample.announced 'f']

theorem promotions_of_run_repeated : notifications (stay promoting
    (record Boxoffice.next (Sample.start [.fill 65]) repeatedAnnouncement [])) = 1 := by
  have hrun : Run Boxoffice.next (Sample.start [.fill 65]) _
      (after Boxoffice.next _ repeatedAnnouncement) := run_after (by decide +kernel)
  have hentry : (before promoting (record Boxoffice.next (Sample.start [.fill 65])
      repeatedAnnouncement [])).head?.map (fun p => p.1.state) = some .acknowledgingNewFile := by
    decide +kernel
  cases hbefore : before promoting (record Boxoffice.next (Sample.start [.fill 65])
      repeatedAnnouncement []) with
  | nil => simp [hbefore] at hentry
  | cons p earlier =>
    rw [hbefore] at hentry
    exact (promotions_of_run rfl hrun).2 p earlier hbefore (Option.some.inj hentry)
      (by decide +kernel)

end Flocksy
