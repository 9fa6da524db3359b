import Flocksy.LocalQueues

/-!
# Metadata sessions and the hand-off to the dispatcher

When the last subscriber reports the metadata of a file as received, the status to
go on with is chosen by the lengths of the two deques and has to be one that the
current state accepts. A data file that is popped into a metadata heartbeat has to
be handed to the dispatcher in the same call.
-/

namespace Flocksy

open ByteStream Fsm Runs

def usesBox (state : State) : Bool :=
  state = .announcingNewFile ∨ state = .announcingNewFileWithMore ∨
    announcesMetadata state ∨ entersMetadata state

def Boxoffice.BoxKnown (bo : Boxoffice) : Prop :=
  usesBox bo.state = true → ∃ dir, bo.baseDir bo.currentBox = some dir

theorem enters_usesBox : ∀ state, ∀ t ∈ usedTransitions state, usesBox t.newState = true →
    usesBox state = true ∨ isLocal t.status = true := by
  decide +kernel

theorem boxKnown_step {bo bo' : Boxoffice} {inp : Input} (hinv : bo.BoxKnown)
    (h : bo.next inp = some bo') : bo'.BoxKnown := by
  rcases next_cases h with rfl | ⟨fr, t, out, ht, hm⟩
  · exact hinv
  intro huses
  have hkept := hm.kept
  rw [hkept.state] at huses
  rw [hkept.currentBox, Boxoffice.baseDir, hkept.boxes, ht.steady.boxes]
  rcases ht.queues with ⟨hother, -⟩ | ⟨-, -, -, f, hfile, hbox, -⟩
  · rcases ht.steady.currentBox with hsame | hknown
    · rw [hsame]
      refine hinv ((enters_usesBox _ t ht.mem_usedTransitions huses).resolve_right ?_)
      simp [hother]
    · exact hknown
  · rw [hbox]
    exact ⟨_, hfile.dir⟩

theorem boxKnown_of_run {start bo : Boxoffice} {tr : List (Boxoffice × Input)}
    (hready : start.state = .ready) (hrun : Run Boxoffice.next start tr bo) : bo.BoxKnown :=
  hrun.invariant (fun h => by simp [hready, usesBox, announcesMetadata, entersMetadata] at h)
    fun _ _ _ hb hn => boxKnown_step hb hn

def TakesFront (bo bo' : Boxoffice) (out : List Effect) : Prop :=
  match bo.fileListMetadata, bo.fileListData with
  | p :: ms, ds => bo'.fileListMetadata = ms ∧ bo'.fileListData = ds ∧
      ∃ s, Effect.heartbeat s p.file.write ∈ out
  | [], p :: ds => bo'.fileListMetadata = [] ∧ bo'.fileListData = ds ∧
      ∃ s timing, Effect.heartbeat s (p.file.write ++ timingBytes timing) ∈ out
  | [], [] => bo'.fileListMetadata = [] ∧ bo'.fileListData = []

theorem metadataRound_rows : ∀ state, entersMetadata state = true →
    checkEvent state (getEventByStatusCode .s141) .s141 = true ∧
    (checkEvent state (getEventByStatusCode .s172) .s172 = true ↔
      state = .sendingFileMetadataChange) ∧
    checkEvent state (getEventByStatusCode .s174) .s174 = false ∧
    (checkEvent state (getEventByStatusCode .s177) .s177 = true ↔
      state = .sendingFileMetadataChangeWithMore) ∧
    (checkEvent state (getEventByStatusCode .s178) .s178 = true ↔
      state = .sendingFileMetadataChangeWithMore) ∧
    ∀ t ∈ usedTransitions state,
      (t.status = .s172 → entersData t.newState = false ∧ entersMetadata t.newState = false) ∧
      (t.status = .s177 ∨ t.status = .s178 →
        t.newState ≠ state ∧ entersData t.newState = true) := by
  decide +kernel

def Boxoffice.RoundFits (bo : Boxoffice) : Prop :=
  (bo.state = .sendingFileMetadataChange ∧ bo.fileListMetadata = [] ∧ bo.fileListData = []) ∨
    (bo.state = .sendingFileMetadataChangeWithMore ∧ bo.fileListMetadata = [] ∧
      bo.fileListData ≠ [])

theorem roundAccepted_iff {bo : Boxoffice} {inp : Input} (h141 : inp.status = .s141)
    (hstate : entersMetadata bo.state = true) : bo.RoundAccepted inp ↔ bo.RoundFits := by
  obtain ⟨-, h172, h174, h177, h178, -⟩ := metadataRound_rows _ hstate
  have hround : bo.completion inp.status = metadataRoundStatus bo := by
    rw [h141]
    rfl
  have hother : bo.state = .sendingFileMetadataChange ∨
      bo.state = .sendingFileMetadataChangeWithMore := by
    simpa [entersMetadata] using hstate
  rw [Boxoffice.RoundAccepted, hround, Boxoffice.RoundFits]
  rcases metadataRoundStatus_cases bo with ⟨h, hne⟩ | ⟨h, hnil, hlen⟩ | ⟨h, hnil, hlen⟩ |
    ⟨h, hnil, hnil'⟩
  · rw [h, h174]
    simp [hne]
  · have hne : bo.fileListData ≠ [] := List.ne_nil_of_length_pos (by omega)
    rw [h, h178]
    simp [hnil, hne]
  · have hne : bo.fileListData ≠ [] := List.ne_nil_of_length_pos (by omega)
    rw [h, h177]
    simp [hnil, hne]
  · rw [h, h172]
    simp [hnil, hnil']

theorem Moved.popsData {bo' : Boxoffice} {fr : Frame} {t : Transition} {out : List Effect}
    (hm : Moved fr t bo' out) (hmove : t.newState ≠ fr.bo.state)
    (henters : entersData t.newState = true) :
    ∃ p ps, fr.bo.fileListData = p :: ps ∧ bo'.fileListData = ps ∧
      bo'.fileListMetadata = fr.bo.fileListMetadata ∧
      out = fr.out ++ [.heartbeat t.heartbeat
        (p.file.write ++ timingBytes fr.bo.currentTimingOffset)] := by
  cases hm with
  | stay hstay => exact absurd hstay hmove
  | exit _ hexit =>
    rw [hexit] at henters
    exact absurd henters (by decide)
  | data p ps _ _ hlist hbo hout =>
    subst hbo
    exact ⟨p, ps, hlist, by simp [Boxoffice.popData, hlist], rfl, hout⟩
  | metadata _ _ _ hmeta => simp [entersData_entersMetadata henters] at hmeta
  | plain _ _ _ _ _ hdata => simp [henters] at hdata

theorem round_takesFront {bo bo' : Boxoffice} {inp : Input} {fr : Frame} {t : Transition}
    {out : List Effect} (ht : Taken bo inp fr t) (hm : Moved fr t bo' out)
    (h141 : inp.status = .s141) (hcomp : bo.Completes inp) (hfits : bo.RoundFits) :
    TakesFront bo bo' out := by
  have hround : t.status = metadataRoundStatus bo := by
    rw [ht.of_completes hcomp, h141]
    rfl
  have hkept := hm.kept
  have hstate : entersMetadata bo.state = true := by
    rcases hfits with h | h <;> simp [h.1, entersMetadata]
  obtain ⟨-, -, -, -, -, hrows⟩ := metadataRound_rows _ hstate
  obtain ⟨hsession, hfile⟩ := hrows t ht.mem_usedTransitions
  have hend : metadataRoundStatus bo ≠ .s174 → t.status ∈ roundEnds := by
    intro hne
    rw [hround]
    rcases metadataRoundStatus_cases bo with h | h | h | h <;> simp_all [roundEnds]
  rcases hfits with ⟨-, hnil, hnil'⟩ | ⟨-, hnil, hne⟩
  · have h172 := metadataRoundStatus_eq_s172.2 ⟨hnil, hnil'⟩
    obtain ⟨hmeta, hdata⟩ := round_queues ht (hend (by simp [h172]))
    obtain ⟨hnodata, hnometa⟩ := hsession (hround.trans h172)
    have hm' : bo'.fileListMetadata = [] := by
      rw [hkept.metadata, if_neg (by simp [hnometa]), hmeta, hnil]
    have hd' : bo'.fileListData = [] := by
      rw [hkept.data, if_neg (by simp [hnodata]), hdata, hnil']
    simpa [TakesFront, hnil, hnil'] using ⟨hm', hd'⟩
  · have hst : metadataRoundStatus bo = .s177 ∨ metadataRoundStatus bo = .s178 := by
      rcases metadataRoundStatus_cases bo with h | h | h | h <;> simp_all
    obtain ⟨hmeta, hdata⟩ := round_queues ht (hend (by rcases hst with h | h <;> simp [h]))
    obtain ⟨hmove, henters⟩ := hfile (by rwa [hround])
    rw [← ht.steady.state] at hmove
    obtain ⟨p, ps, hlist, hps, hkeep, hout⟩ := hm.popsData hmove henters
    rw [hdata] at hlist
    have hbeat : ∃ s timing, Effect.heartbeat s (p.file.write ++ timingBytes timing) ∈ out :=
      ⟨t.heartbeat, fr.bo.currentTimingOffset, by simp [hout]⟩
    simpa only [TakesFront, hnil, hlist] using ⟨hkeep.trans (hmeta.trans hnil), hps, hbeat⟩

/-- The last reply of a metadata round goes on to the next file, or ends the session, if
and only if the state is prepared for the lengths of the deques. -/
theorem metadataRound_legal {start bo : Boxoffice} {tr : List (Boxoffice × Input)} {inp : Input}
    (hready : start.state = .ready) (hrun : Run Boxoffice.next start tr bo)
    (hstate : entersMetadata bo.state = true) (h141 : inp.status = .s141)
    (hcomp : bo.Completes inp) :
    (bo.RoundAccepted inp ∧ ∃ bo' out,
      processEvent bo inp.status inp.sstream inp.env = .returned 0 bo' out ∧
        TakesFront bo bo' out) ↔ bo.RoundFits := by
  refine ⟨fun h => (roundAccepted_iff h141 hstate).1 h.1, fun hfits => ?_⟩
  have haccepted := (roundAccepted_iff h141 hstate).2 hfits
  refine ⟨haccepted, ?_⟩
  have hinput := (metadataRound_rows _ hstate).1
  rw [← h141] at hinput
  have hp := processEvent_processed bo inp
  have hfront := (announced_of_run hready hrun).hasFront inp
  cases hx : processEvent bo inp.status inp.sstream inp.env with
  | returned code bo' out =>
    rw [hx] at hp
    cases hp with
    | ignored hno => simp [hinput] at hno
    | moved ht hm => exact ⟨bo', out, rfl, round_takesFront ht hm h141 hcomp hfits⟩
    | stopped _ hstop =>
      cases hstop with
      | round _ hno => exact absurd haccepted hno
      | path hlocal => simp [h141, isLocal] at hlocal
  | fault f =>
    rw [hx] at hp hfront
    cases hp with
    | failed _ hcause =>
      cases hcause with
      | emptyDeque => exact absurd rfl hfront
      | unknownBox _ _ _ hnone =>
        obtain ⟨dir, hdir⟩ := boxKnown_of_run hready hrun (by simp [usesBox, hstate])
        simp [hnone] at hdir
      | localFile hlocal => simp [h141, isLocal] at hlocal
      | file hack => simp [hcomp.1] at hack
    | front => exact absurd rfl hfront

def changeAndFile : List Input :=
  [Sample.deleted 'f', Sample.modified 'g', Sample.heard .s165 (by decide) (.fill 65)]

theorem metadataRound_legal_changeAndFile :
    let bo := after Boxoffice.next (Sample.start [.fill 65]) changeAndFile
    let last := Sample.heard .s141 (by decide) (.fill 65)
    (bo.RoundAccepted last ∧ ∃ bo' out,
      processEvent bo last.status last.sstream last.env = .returned 0 bo' out ∧
        TakesFront bo bo' out) ↔ bo.RoundFits :=
  metadataRound_legal (by rfl)
    (run_after (by decide +kernel)) (by decide +kernel) rfl (by decide +kernel)

def twoChanges : List Input :=
  [Sample.deleted 'f', Sample.deleted 'g', Sample.heard .s165 (by decide) (.fill 65)]

theorem metadataRound_legal_fails :
    ¬ ∀ (start bo : Boxoffice) (tr : List (Boxoffice × Input)) (inp : Input),
      start.state = .ready → Run Boxoffice.next start tr bo → entersMetadata bo.state = true →
      inp.status = .s141 → bo.Completes inp →
      bo.RoundAccepted inp ∧ ∃ bo' out,
        processEvent bo inp.status inp.sstream inp.env = .returned 0 bo' out ∧
          TakesFront bo bo' out := by
  intro h
  obtain ⟨-, bo', out, hreturned, -⟩ := h (Sample.start [.fill 65])
    (after Boxoffice.next _ twoChanges) _ (Sample.heard .s141 (by decide) (.fill 65)) rfl
    (run_after (by decide +kernel)) (by decide +kernel) rfl (by decide +kernel)
  have hstop : ((after Boxoffice.next (Sample.start [.fill 65]) twoChanges).next
      (Sample.heard .s141 (by decide) (.fill 65))).isNone = true := by decide +kernel
  simp [next_of_returned hreturned] at hstop

def Boxoffice.Placed (bo : Boxoffice) : Prop :=
  ∀ p ∈ bo.fileListData, bo.baseDir p.file.boxHash = some p.file.boxPath

theorem placed_step {bo bo' : Boxoffice} {inp : Input} (hinv : bo.Placed)
    (h : bo.next inp = some bo') : bo'.Placed := by
  rcases next_cases h with rfl | ⟨fr, t, out, ht, hm⟩
  · exact hinv
  have hkept := hm.kept
  intro p hp
  have hmem : p ∈ fr.bo.fileListData := by
    rw [hkept.data] at hp
    split_ifs at hp
    · exact List.mem_of_mem_tail hp
    · exact hp
  rw [Boxoffice.baseDir, hkept.boxes, ht.steady.boxes]
  rcases ht.queues with ⟨-, -, hdata⟩ | ⟨-, -, -, f, hfile, -, -, hdata⟩
  · exact hinv p (hdata ▸ hmem)
  · rw [hdata, List.mem_append] at hmem
    rcases hmem with hold | hnew
    · exact hinv p hold
    · split_ifs at hnew
      · obtain rfl := List.mem_singleton.1 hnew
        rw [Boxoffice.filePtr, hfile.box]
        exact hfile.dir
      · simp at hnew

def dispatcherMessages (out : List Effect) : List (Status × Bytes) :=
  out.filterMap fun
    | .dispatcher status payload => some (status, payload)
    | _ => none

section HandOff

variable {bo bo' : Boxoffice} {inp : Input} {fr : Frame} {t : Transition} {out : List Effect}
  (ht : Taken bo inp fr t) (hm : Moved fr t bo' out) (henters : entersData t.newState = true)
  (hleave : t.newState ≠ bo.state)
include ht hm henters hleave

theorem popped_effects :
    ∃ p ps, bo.fileListData = p :: ps ∧ bo'.fileListData = ps ∧
      (notifies t.status = true ∨ inp.status = .s141 ∧ 2 ≤ bo.fileListData.length) ∧
      (if notifies t.status then
        (inp.status = .s141 → bo.fileListData.length = 1) ∧
        ∃ dir, bo.baseDir bo.currentBox = some dir ∧
          out = [.dispatcher t.status (timingBytes fr.bo.currentTimingOffset ++
              bo.currentBox.bytes ++ dir ++ space :: p.file.write.drop 32),
            .heartbeat t.heartbeat (p.file.write ++ timingBytes fr.bo.currentTimingOffset)]
      else out = [.heartbeat t.heartbeat
        (p.file.write ++ timingBytes fr.bo.currentTimingOffset)]) := by
  obtain ⟨hend, hcases⟩ := (pops_after_round _ _ ht.mem_usedTransitions hleave).1 henters
  obtain ⟨-, hdata⟩ := round_queues ht hend
  obtain ⟨hcomp, hst, hnotified, -⟩ := ht.completes hend
  obtain ⟨p, ps, hlist, hps, -, hout⟩ := hm.popsData (ht.steady.state ▸ hleave) henters
  rw [hdata] at hlist
  refine ⟨p, ps, hlist, hps, ?_, ?_⟩
  · rcases hcases with ⟨-, h122⟩ | h177 | h178
    · exact .inl (by simp [h122, notifies])
    · exact .inl (by simp [h177, notifies])
    · obtain ⟨h141, -, hround⟩ := ht.metadataRound (by tauto)
      exact .inr ⟨h141, (metadataRoundStatus_eq_s178.1 (hround.symm.trans h178)).2⟩
  · rw [ht.status]
    unfold Notified at hnotified
    split_ifs at hnotified ⊢ with hnotifies
    · obtain ⟨p', ps', dir, hlist', hdir, hfr⟩ := hnotified
      obtain ⟨rfl, rfl⟩ := List.cons.inj (hlist'.symm.trans hlist)
      refine ⟨fun h141 => ?_, dir, hdir, by simp [hout, hfr]⟩
      have hround : t.status = metadataRoundStatus bo := by
        rw [hst, h141]
        rfl
      rw [← ht.status, hround] at hnotifies
      have h177 : metadataRoundStatus bo = .s177 := by
        rcases metadataRoundStatus_cases bo with h | h | h | h <;>
          simp [h.1, notifies] at hnotifies ⊢
      exact (metadataRoundStatus_eq_s177.1 h177).2
    · simp [hout, hnotified]

end HandOff

def changeAndFiles : List Input :=
  [Sample.deleted 'f', Sample.modified 'g', Sample.modified 'h',
    Sample.heard .s165 (by decide) (.fill 65)]

end Flocksy
