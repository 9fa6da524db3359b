import Flocksy.BoxofficeStep
import Flocksy.Messages

/-!
# The two deques over a run

While a node announces, the deque whose front it will send is not empty, so
`front()` is never evaluated on an empty deque. Whether both deques are empty when
the node is back in the ready state depends on when files were queued: a file that
is queued in a state from which the session does not come back to the deques is
left behind, and so is every second file of a metadata session with more than one
data file.
-/

namespace Flocksy

open Fsm Runs

def announcesMetadata (state : State) : Bool :=
  state = .announcingFileMetadataChange ∨ state = .announcingFileMetadataChangeWithMore

structure Boxoffice.Announced (bo : Boxoffice) : Prop where
  data : bo.state = .announcingNewFile → bo.fileListData ≠ []
  metadata : announcesMetadata bo.state = true → bo.fileListMetadata ≠ []

theorem enters_announcing : ∀ state, ∀ t ∈ usedTransitions state,
    (t.newState = .announcingNewFile → state = .announcingNewFile ∨ t.status = .s300) ∧
    (announcesMetadata t.newState = true → announcesMetadata state = true ∨ t.status = .s320) := by
  decide +kernel

theorem announcing_pops_nothing : ∀ state, (state = .announcingNewFile → entersData state = false) ∧
    (announcesMetadata state = true → entersMetadata state = false) := by
  decide +kernel

theorem announced_step {bo bo' : Boxoffice} {inp : Input} (hinv : bo.Announced)
    (h : bo.next inp = some bo') : bo'.Announced := by
  rcases next_cases h with rfl | ⟨fr, t, out, ht, hm⟩
  · exact hinv
  obtain ⟨hdata, hmeta⟩ := enters_announcing _ t ht.mem_usedTransitions
  obtain ⟨hnodata, hnometa⟩ := announcing_pops_nothing t.newState
  have hkept := hm.kept
  constructor
  · intro hstate
    rw [hkept.state] at hstate
    have hlist : bo'.fileListData = fr.bo.fileListData := by
      rw [hkept.data, if_neg (by simp [hnodata hstate])]
    rw [hlist]
    rcases ht.queues with ⟨hlocal, -, hsame⟩ | ⟨-, -, hne, f, -, -, -, hpush⟩
    · rw [hsame]
      refine hinv.data ((hdata hstate).resolve_right fun h300 => ?_)
      simp [h300, isLocal] at hlocal
    · rw [hpush, if_pos ((hdata hstate).resolve_left hne)]
      simp
  · intro hstate
    rw [hkept.state] at hstate
    have hlist : bo'.fileListMetadata = fr.bo.fileListMetadata := by
      rw [hkept.metadata, if_neg (by simp [hnometa hstate])]
    rw [hlist]
    rcases ht.queues with ⟨hlocal, hsame, -⟩ | ⟨hlocal, -, -, f, -, -, hpush, -⟩
    · rw [hsame]
      refine hinv.metadata ((hmeta hstate).resolve_right fun h320 => ?_)
      simp [h320, isLocal] at hlocal
    · rw [hpush]
      rcases hmeta hstate with hbefore | h320
      · simp [hinv.metadata hbefore]
      · simp [h320]

theorem announced_of_run {start bo : Boxoffice} {tr : List (Boxoffice × Input)}
    (hready : start.state = .ready) (hrun : Run Boxoffice.next start tr bo) : bo.Announced :=
  hrun.invariant ⟨fun h => by simp [hready] at h, fun h => by simp [hready, announcesMetadata] at h⟩
    fun _ _ _ hb hn => announced_step hb hn

/-- A file is popped in three transitions out of announcing states and in two that end a
metadata session with files left. -/
theorem pops_after_round : ∀ state, ∀ t ∈ usedTransitions state, t.newState ≠ state →
    (entersData t.newState = true → t.status ∈ roundEnds ∧
      (state = .announcingNewFile ∧ t.status = .s122 ∨ t.status = .s177 ∨ t.status = .s178)) ∧
    (entersMetadata t.newState = true → t.status ∈ roundEnds ∧ announcesMetadata state = true) := by
  decide +kernel

theorem accepts_s122 : ∀ state, checkEvent state .allNodesReplied .s122 = true →
    state = .announcingNewFile := by
  decide +kernel

theorem round_queues {bo : Boxoffice} {inp : Input} {fr : Frame} {t : Transition}
    (ht : Taken bo inp fr t) (hend : t.status ∈ roundEnds) :
    fr.bo.fileListMetadata = bo.fileListMetadata ∧ fr.bo.fileListData = bo.fileListData := by
  rcases ht.queues with ⟨-, hmeta, hdata⟩ | ⟨hlocal, -⟩
  · exact ⟨hmeta, hdata⟩
  · have hno : ∀ s ∈ roundEnds, isLocal s = false := by decide
    simp [hno _ hend] at hlocal

/-- The front of a deque is looked at only when the deque is not empty. -/
theorem Boxoffice.Announced.hasFront {bo : Boxoffice} (hinv : bo.Announced) (inp : Input) :
    processEvent bo inp.status inp.sstream inp.env ≠ .fault .frontOfEmptyDeque := by
  have hmany : bo.completion inp.status = .s177 ∨ bo.completion inp.status = .s178 →
      isAck inp.status = true → bo.fileListData ≠ [] := by
    intro hst hack hnil
    obtain ⟨-, hround⟩ := bo.completion_eq_metadata hack (by tauto)
    rw [hround] at hst
    rcases hst with h | h
    · simp [metadataRoundStatus_eq_s177, hnil] at h
    · simp [metadataRoundStatus_eq_s178, hnil] at h
  intro hfault
  have hp := processEvent_processed bo inp
  rw [hfault] at hp
  cases hp with
  | failed _ hcause =>
    cases hcause with
    | emptyDeque hcomp haccepted hnotify hnil =>
      have hst : bo.completion inp.status = .s122 ∨ bo.completion inp.status = .s177 := by
        simpa [notifies] using hnotify
      rcases hst with h122 | h177
      · rw [Boxoffice.RoundAccepted, h122] at haccepted
        exact hinv.data (accepts_s122 _ haccepted) hnil
      · exact hmany (.inl h177) hcomp.1 hnil
    | localFile _ _ hne => exact hne rfl
    | file _ _ hne => exact hne rfl
  | front ht hmissing =>
    obtain ⟨hmove, hpop⟩ := hmissing
    rw [ht.steady.state] at hmove
    obtain ⟨hdata, hmeta⟩ := pops_after_round _ _ ht.mem_usedTransitions hmove
    rcases hpop with ⟨henters, hnil⟩ | ⟨henters, hnil⟩
    · obtain ⟨hend, hcases⟩ := hdata henters
      rw [(round_queues ht hend).2] at hnil
      obtain ⟨hcomp, hst, -⟩ := ht.completes hend
      rcases hcases with ⟨hstate, -⟩ | hst'
      · exact hinv.data hstate hnil
      · exact hmany (hst ▸ hst') hcomp.1 hnil
    · obtain ⟨hend, hstate⟩ := hmeta henters
      rw [(round_queues ht hend).1] at hnil
      exact hinv.metadata hstate hnil

theorem no_front_of_empty {start bo : Boxoffice} {tr : List (Boxoffice × Input)}
    (hready : start.state = .ready) (hrun : Run Boxoffice.next start tr bo) (inp : Input) :
    processEvent bo inp.status inp.sstream inp.env ≠ .fault .frontOfEmptyDeque :=
  (announced_of_run hready hrun).hasFront inp

theorem no_front_of_empty_change :
    processEvent (after Boxoffice.next (Sample.start [.fill 65]) [Sample.deleted 'f']) .s161
      (Sample.heard .s161 (by decide) (.fill 65)).sstream Sample.env ≠
        .fault .frontOfEmptyDeque :=
  no_front_of_empty (by rfl) (run_after (by decide +kernel))
    (Sample.heard .s161 (by decide) (.fill 65))

def Boxoffice.Drained (bo : Boxoffice) : Prop :=
  bo.fileListData = [] ∧ bo.fileListMetadata = []

def drainsLater (state : State) : Bool :=
  announcesMetadata state ∨ entersMetadata state ∨ state = .announcingNewFileWithMore ∨
    state = .exit

/-- A local event is queued where its session comes back to the deques, and the last reply
of a metadata session does not find two data files. -/
def Boxoffice.Drains (bo : Boxoffice) (inp : Input) : Prop :=
  (isLocal inp.status = true →
    checkEvent bo.state (getEventByStatusCode inp.status) inp.status = true →
    bo.state = .ready ∨ bo.state = .announcingNewFile ∨ drainsLater bo.state = true) ∧
  (bo.state = .sendingFileMetadataChangeWithMore → inp.status = .s141 → bo.Completes inp →
    bo.fileListMetadata = [] → bo.fileListData.length < 2)

instance (bo : Boxoffice) (inp : Input) : Decidable (bo.Drains inp) := by
  unfold Boxoffice.Drains
  infer_instance

def Boxoffice.Draining (bo : Boxoffice) : Prop :=
  drainsLater bo.state = true ∨
    (bo.state = .announcingNewFile ∧ bo.fileListMetadata = [] ∧ bo.fileListData.length = 1) ∨
    bo.Drained

theorem drain_local : ∀ state, ∀ t ∈ usedTransitions state, isLocal t.status = true →
    (state = .ready → t.status = .s300 ∧ t.newState = .announcingNewFile ∨
      drainsLater t.newState = true) ∧
    (drainsLater state = true → drainsLater t.newState = true) := by
  decide +kernel

theorem drain_other : ∀ state, ∀ t ∈ usedTransitions state, isLocal t.status = false →
    (drainsLater state = true → drainsLater t.newState = true ∨ t.status = .s172 ∨
      t.newState ≠ state ∧ entersData t.newState = true ∧
        (t.status = .s177 ∨ t.status = .s178 ∧ state = .sendingFileMetadataChangeWithMore)) ∧
    (state = .announcingNewFile → t.newState = .announcingNewFile ∨
      drainsLater t.newState = true ∨ t.newState ≠ state ∧ entersData t.newState = true) := by
  decide +kernel

theorem not_pops_when_announcing {fr : Frame} {t : Transition} {bo' : Boxoffice}
    (hkept : KeptByMove fr t bo') (hstate : t.newState = .announcingNewFile) :
    bo'.fileListMetadata = fr.bo.fileListMetadata ∧ bo'.fileListData = fr.bo.fileListData := by
  constructor
  · rw [hkept.metadata, if_neg (by simp [hstate, entersMetadata])]
  · rw [hkept.data, if_neg (by simp [hstate, entersData])]

theorem draining_step {bo bo' : Boxoffice} {inp : Input} (hinv : bo.Draining)
    (hok : bo.Drains inp) (h : bo.next inp = some bo') : bo'.Draining := by
  rcases next_cases h with rfl | ⟨fr, t, out, ht, hm⟩
  · exact hinv
  have hused := ht.mem_usedTransitions
  have hkept := hm.kept
  have hstate : fr.bo.state = bo.state := ht.steady.state
  rcases ht.queues with ⟨hother, hmeta, hdata⟩ | ⟨hlocal, hsame, hne, f, -, -, hmeta, hdata⟩
  · obtain ⟨hlater, hannounce⟩ := drain_other _ t hused hother
    have htail : t.newState ≠ bo.state → entersData t.newState = true →
        bo.fileListMetadata = [] → bo.fileListData.length = 1 → bo'.Drained := by
      intro hmove henters hnil hone
      constructor
      · rw [hkept.data, hstate, if_pos ⟨hmove, henters⟩, hdata]
        exact List.eq_nil_of_length_eq_zero (by simp [hone])
      · rw [hkept.metadata, if_neg (by simp [entersData_entersMetadata henters]), hmeta, hnil]
    rcases hinv with hlate | ⟨hann, hnil, hone⟩ | ⟨hd, hm'⟩
    · rcases hlater hlate with h' | h172 | ⟨hmove, henters, hst⟩
      · exact .inl (hkept.state ▸ h')
      · obtain ⟨-, -, hround⟩ := ht.metadataRound (.inl h172)
        have hempty := metadataRoundStatus_eq_s172.1 (hround.symm.trans h172)
        refine .inr (.inr ⟨?_, ?_⟩)
        · rw [hkept.data, hdata, hempty.2]
          simp
        · rw [hkept.metadata, hmeta, hempty.1]
          simp
      · obtain ⟨h141, hcomp, hround⟩ := ht.metadataRound (by tauto)
        have hone : bo.fileListMetadata = [] ∧ bo.fileListData.length = 1 := by
          rcases hst with h177 | ⟨h178, hmore⟩
          · exact metadataRoundStatus_eq_s177.1 (hround.symm.trans h177)
          · obtain ⟨hnil, hmany⟩ := metadataRoundStatus_eq_s178.1 (hround.symm.trans h178)
            exact absurd (hok.2 hmore h141 hcomp hnil) (by omega)
        exact .inr (.inr (htail hmove henters hone.1 hone.2))
    · rcases hannounce hann with h' | h' | ⟨hmove, henters⟩
      · obtain ⟨hkm, hkd⟩ := not_pops_when_announcing hkept h'
        exact .inr (.inl ⟨hkept.state.trans h', by rw [hkm, hmeta, hnil], by rw [hkd, hdata, hone]⟩)
      · exact .inl (hkept.state ▸ h')
      · exact .inr (.inr (htail hmove henters hnil hone))
    · refine .inr (.inr ⟨?_, ?_⟩)
      · rw [hkept.data, hdata, hd]
        simp
      · rw [hkept.metadata, hmeta, hm']
        simp
  · obtain ⟨hready, hlate⟩ := drain_local _ t hused hlocal
    rcases hok.1 (hsame ▸ hlocal) ht.accepted with hr | hann | hl
    · rcases hready hr with ⟨h300, hnew⟩ | h'
      · obtain ⟨hkm, hkd⟩ := not_pops_when_announcing hkept hnew
        have hdrained : bo.Drained := by
          rcases hinv with hl | ⟨hann, -⟩ | hd
          · simp [hr, drainsLater, announcesMetadata, entersMetadata] at hl
          · simp [hr] at hann
          · exact hd
        refine .inr (.inl ⟨hkept.state.trans hnew, ?_, ?_⟩)
        · rw [hkm, hmeta, hdrained.2, if_pos h300]
          rfl
        · rw [hkd, hdata, hdrained.1, if_pos h300]
          rfl
      · exact .inl (hkept.state ▸ h')
    · exact absurd hann hne
    · exact .inl (hkept.state ▸ hlate hl)

theorem drained_when_ready {start bo : Boxoffice} {tr : List (Boxoffice × Input)}
    (hempty : start.Drained) (hrun : Run Boxoffice.next start tr bo)
    (hok : ∀ p ∈ tr, p.1.Drains p.2) (hback : bo.state = .ready) : bo.Drained := by
  have hinv : bo.Draining := hrun.invariant_of_steps (P := Boxoffice.Drains) (.inr (.inr hempty))
    (fun _ _ _ hb ho hn => draining_step hb ho hn) hok
  rcases hinv with hlater | ⟨hann, -⟩ | hdrained
  · simp [hback, drainsLater, announcesMetadata, entersMetadata] at hlater
  · simp [hback] at hann
  · exact hdrained

namespace Sample

def announcing : Boxoffice := after Boxoffice.next (start [.fill 65]) [modified 'f']

end Sample

def leftBehind : List Input :=
  [Sample.modified 'f', Sample.heard .s121 (by decide) (.fill 65), Sample.modified 'g',
    Sample.sendTimeElapsed, Sample.heard .s140 (by decide) (.fill 65), Sample.stopTimeElapsed]

theorem drained_when_ready_fails :
    ¬ ∀ (start bo : Boxoffice) (tr : List (Boxoffice × Input)), start.state = .ready →
      start.Drained → Run Boxoffice.next start tr bo → bo.state = .ready → bo.Drained := by
  intro h
  have hdrained := h (Sample.start [.fill 65]) (after Boxoffice.next _ leftBehind) _ rfl ⟨rfl, rfl⟩
    (run_after (by decide +kernel)) (by decide +kernel)
  have hone : (after Boxoffice.next (Sample.start [.fill 65]) leftBehind).fileListData.length = 1 := by
    decide +kernel
  rw [hdrained.1] at hone
  exact absurd hone (by decide)

theorem drained_when_ready_session :
    (after Boxoffice.next (Sample.start [.fill 65])
      [Sample.deleted 'f', Sample.heard .s161 (by decide) (.fill 65),
        Sample.heard .s141 (by decide) (.fill 65)]).Drained :=
  drained_when_ready ⟨rfl, rfl⟩ (run_after (by decide +kernel)) (by decide +kernel)
    (by decide +kernel)

end Flocksy
