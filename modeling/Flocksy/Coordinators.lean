import Flocksy.FollowerRounds
import Flocksy.StageEffects

/-!
# Two coordinators

An acknowledgement names neither the session nor the coordinator it is meant for. Two nodes that
coordinate sessions at the same time have counted one of each other, and each acknowledged only
before it announced; so one of the two acknowledgements was under way already when the node
that counted it announced its own session.
-/

namespace Flocksy

open ByteStream Fsm Runs Links

def KeepsKeys (fr fr' : Frame) : Prop :=
  ∀ h ∈ fr.bo.subscribers.keys, h ∈ fr'.bo.subscribers.keys

theorem stages_keepsKeys (fr : Frame) : (stages fr).Post (Exec.whenNext (KeepsKeys fr)) := by
  have hstop : KeepsKeys fr (updateTimestamp fr) := (updateTimestamp_kept fr).keys
  apply Exec.Post.whenNext_of_returned
  refine stages_keep ?_ fun fr₁ fr₂ h hkept k hk => hkept.keys k (h k hk)
  unfold receivedHeartbeat
  split_ifs
  · by_cases h100 : fr.status = .s100
    · simp only [heartbeatBranch, updateTimestamp_status, h100]
      exact hstop
    by_cases h155 : fr.status = .s155
    · simp only [heartbeatBranch, updateTimestamp_status, h155, receivedStopTime]
      split_ifs
      all_goals exact hstop
    have hkept := heartbeatBranch_kept (updateTimestamp fr) h100 h155
    exact hkept.mono (fun fr₁ h k hk => h.keys k (hstop k hk))
      (fun _ fr₁ h k hk => h.keys k (hstop k hk)) fun _ h => h
  · exact fun k hk => hk

theorem next_keepsKeys {bo bo' : Boxoffice} {inp : Input} (h : bo.next inp = some bo') {k : Hash}
    (hk : k ∈ bo.subscribers.keys) : k ∈ bo'.subscribers.keys := by
  rcases next_cases h with rfl | ⟨fr, t, out, ht, hm⟩
  · exact hk
  · have hkeys : KeepsKeys _ fr := (stages_keepsKeys _).of_next ht.staged
    rw [hm.kept.subscribers]
    exact hkeys k hk

def announces (state : State) : Bool :=
  state ∈ [.announcingNewFile, .announcingNewFileWithMore, .announcingFileMetadataChange,
    .announcingFileMetadataChangeWithMore]

def sends (state : State) : Bool :=
  state ∈ [.sendingNewFileMetadata, .sendingNewFileMetadataWithMore, .sendingFileMetadataChange,
    .sendingFileMetadataChangeWithMore, .sendingNewFile, .sendingNewFileWithMoreAlpha,
    .sendingNewFileWithMoreBeta]

def coordinates (state : State) : Bool := announces state || sends state

def isConsent (status : Status) : Bool := status = .s121 ∨ status = .s161 ∨ status = .s165

theorem coordinator_rows : ∀ state, ∀ t ∈ usedTransitions state, coordinates t.newState = true →
    isConsent t.heartbeat = false ∧
    (coordinates state = false → isLocal t.status = true ∧ announces t.newState = true) ∧
    (sends t.newState = true → announces state = true → t.status ∈ roundEnds) := by
  decide +kernel

theorem announces_accepts : ∀ state, announces state = true → ∀ t ∈ transitions state,
    isAck t.status = true → isConsent t.status = true := by
  decide +kernel

section Step

variable {bo bo' : Boxoffice} {inp : Input}

theorem opens_session (h : bo.next inp = some bo') (hbefore : coordinates bo.state = false)
    (hafter : coordinates bo'.state = true) :
    sends bo'.state = false ∧ ∀ k, ¬ bo'.Replied k := by
  rcases next_cases h with rfl | ⟨fr, t, out, ht, hm⟩
  · exact absurd (hafter.symm.trans hbefore) (by decide)
  have hstate := hm.kept.state
  rw [hstate] at hafter
  obtain ⟨hlocal, hannounces⟩ := (coordinator_rows _ t ht.mem_usedTransitions hafter).2.1 hbefore
  have hnot : ∀ state, announces state = true → sends state = false := by decide
  refine ⟨by rw [hstate, hnot _ hannounces], fun k hk => ?_⟩
  rcases ht.queues with ⟨hno, -⟩ | ⟨-, hst, -⟩
  · exact absurd (hlocal.symm.trans hno) (by decide)
  · have hacc : bo.Accepts inp := ht.accepted
    rw [replied_next h, if_pos ⟨hacc, hst ▸ hlocal⟩] at hk
    exact hk

theorem begins_sending (h : bo.next inp = some bo') (hbefore : announces bo.state = true)
    (hafter : sends bo'.state = true) : isConsent inp.status = true ∧ bo.Completes inp := by
  have hnot : ∀ state, announces state = true → sends state = false := by decide
  rcases next_cases h with rfl | ⟨fr, t, out, ht, hm⟩
  · exact absurd ((hnot _ hbefore).symm.trans hafter) (by decide)
  have hstate := hm.kept.state
  rw [hstate] at hafter
  have hcoordinates : coordinates t.newState = true := by simp [coordinates, hafter]
  have hend := (coordinator_rows _ t ht.mem_usedTransitions hcoordinates).2.2 hafter hbefore
  obtain ⟨hcomp, -⟩ := ht.completes hend
  obtain ⟨r, hr, -, hst⟩ := ht.inputRow
  exact ⟨hst ▸ announces_accepts _ hbefore r hr (hst ▸ hcomp.1), hcomp⟩

theorem marks_consent (h : bo.next inp = some bo') (hbefore : announces bo.state = true) {k : Hash}
    (hk : bo'.Replied k) : bo.Replied k ∨ isConsent inp.status = true ∧ inp.sender = k := by
  rw [replied_next h] at hk
  split_ifs at hk with hlocal hack
  · rcases hk.2 with rfl | hk
    · obtain ⟨r, hr⟩ := checkEvent_iff.1 hack.1
      obtain ⟨hmem, -, hst⟩ := mem_of_transition hr
      exact .inr ⟨hst ▸ announces_accepts _ hbefore r hmem (hst ▸ hack.2), rfl⟩
    · exact .inl hk
  · exact .inl hk

end Step

section Flock

variable {n : ℕ} {fl : Flock n}

/-- A node that tells its peers a consent does not coordinate. -/
def Station.Consents (st : Station n) : Prop :=
  isConsent st.heartbeat.status = true → coordinates st.bo.state = false

theorem Called.consents {st st' : Station n} {inp : Input} {joined : Session n}
    (h : Called st st' inp joined) (hinv : st.Consents) : st'.Consents := by
  intro hconsent
  cases h.beaten with
  | kept hstate hbeat =>
    rcases hbeat with hbeat | hbeat
    · rw [hbeat] at hconsent
      rcases hstate with hstate | hstate
      · rw [hstate]
        exact hinv hconsent
      · rw [hstate]
        decide
    · rw [hbeat] at hconsent
      exact absurd hconsent (by decide)
  | row ht hmove hnew hout hstatus =>
    rw [hstatus] at hconsent
    rw [hnew, ← Bool.not_eq_true]
    intro hcoordinates
    have hno := (coordinator_rows _ _ ht hcoordinates).1
    exact absurd (hconsent.symm.trans hno) (by decide)

def Flock.Subscribed (fl : Flock n) (i : Fin n) (bo : Boxoffice) : Prop :=
  ∀ j, j ≠ i → fl.uid j ∈ bo.subscribers.keys

structure Flock.Keeps (fl : Flock n) (i : Fin n) (st : Station n) : Prop where
  consents : st.Consents
  subscribed : fl.Subscribed i st.bo

theorem Flock.keeps_start (i : Fin n) : fl.Keeps i (fl.protocol.start i) := by
  have hinitial : ¬ isConsent .s100 = true := by decide
  refine ⟨fun h => absurd h hinitial, fun j hj => ?_⟩
  exact List.mem_map_of_mem (List.mem_filter.2 ⟨List.mem_finRange j, by simpa using hj⟩)

theorem Called.keeps {i : Fin n} {st st' : Station n} {inp : Input} {joined : Session n}
    (h : Called st st' inp joined) (hinv : fl.Keeps i st) : fl.Keeps i st' :=
  ⟨h.consents hinv.consents, fun j hj => next_keepsKeys h.next (hinv.subscribed j hj)⟩

theorem Flock.keeps_of_run {tr : List (FlockNet n × FlockAct n)} {s : FlockNet n}
    (hrun : Run fl.protocol.next fl.protocol.initial tr s) (i : Fin n) :
    fl.Keeps i (s.station i) :=
  (Protocol.localInvariant (G := fun _ => fl.Keeps) (M := fun _ _ _ _ => True) fl.keeps_start
    (fun _ _ _ _ h => h) (fun _ _ _ _ _ h => h)
    (fun _ _ _ _ _ hinv _ hown => (own_spec fl hown).1.keeps (hinv.station _))
    (fun _ _ _ _ _ _ => trivial)
    (fun _ _ _ _ _ _ _ _ hinv _ _ htake => (take_spec fl htake).1.keeps (hinv.station _))
    hrun).station i

def opening (i : Fin n) (tr : List (FlockNet n × FlockAct n)) : List (FlockNet n × FlockAct n) :=
  tr.dropWhile fun p => coordinates (p.1.station i).bo.state

/-- When `i` announced its session, a consent of `j` was under way to it. -/
def ConsentUnderWay (i j : Fin n) (tr : List (FlockNet n × FlockAct n)) : Prop :=
  ∃ p ∈ (opening i tr).head?, ∃ m ∈ p.1.link j i, isConsent m.heartbeat.status = true

/-- A consent of `j` was counted by `i` or is under way to it. -/
def Flock.Consented (fl : Flock n) (i j : Fin n) (s : FlockNet n) : Prop :=
  sends (s.station i).bo.state = true ∨ (s.station i).bo.Replied (fl.uid j) ∨
    ∃ m ∈ s.link j i, isConsent m.heartbeat.status = true

/-- A node that has the consent of another coordinator has announced before it. -/
def Flock.Precedes (fl : Flock n) (i j : Fin n) (tr : List (FlockNet n × FlockAct n))
    (s : FlockNet n) : Prop :=
  coordinates (s.station i).bo.state = true → coordinates (s.station j).bo.state = true →
    ¬ ConsentUnderWay i j tr → fl.Consented i j s → (opening i tr).length < (opening j tr).length

variable {s s' : FlockNet n} {act : FlockAct n}

theorem heartbeat_of_consent : ∀ s, isConsent s = true →
    getEventByStatusCode s = .receivedHeartbeat := by
  decide

theorem consent_taken (hs : fl.protocol.next s act = some s') {i j : Fin n} (hij : j ≠ i)
    (hsubscribed : fl.Subscribed i (s.station i).bo)
    (hannounces : announces (s.station i).bo.state = true)
    (h : sends (s'.station i).bo.state = true ∨ (s'.station i).bo.Replied (fl.uid j)) :
    fl.Consented i j s := by
  cases Flock.nodeStep_of_next hs i with
  | idle _ hsame =>
    rw [hsame] at h
    exact h.imp_right .inl
  | @own inp hcalled =>
    have hnot : ¬ isConsent inp.status = true := fun h => inp.own (heartbeat_of_consent _ h)
    rcases h with hsends | hreplied
    · exact absurd (begins_sending hcalled.next hannounces hsends).1 hnot
    · rcases marks_consent hcalled.next hannounces hreplied with hbefore | ⟨hconsent, -⟩
      · exact .inr (.inl hbefore)
      · exact absurd hconsent hnot
  | @take k m ms env hlink hcalled =>
    have hsender : (m.input (fl.uid k) env).sender = fl.uid k := peerInput_sender ..
    -- a consent whose sender is `j` is at the front of the link from `j`
    have hfront (hconsent : isConsent m.heartbeat.status = true)
        (he : (m.input (fl.uid k) env).sender = fl.uid j) : fl.Consented i j s := by
      obtain rfl : k = j := fl.uid_injective (hsender.symm.trans he)
      refine .inr (.inr ⟨m, ?_, hconsent⟩)
      rw [hlink]
      exact List.mem_cons_self ..
    rcases h with hsends | hreplied
    · obtain ⟨hconsent, hcomp⟩ := begins_sending hcalled.next hannounces hsends
      rcases hcomp.2 _ (hsubscribed j hij) with he | hbefore
      · exact hfront hconsent he.symm
      · exact .inr (.inl hbefore)
    · rcases marks_consent hcalled.next hannounces hreplied with hbefore | ⟨hconsent, he⟩
      · exact .inr (.inl hbefore)
      · exact hfront hconsent he

theorem consent_on_link (hs : fl.protocol.next s act = some s') {i j : Fin n}
    (hconsents : (s.station j).Consents) (hj : coordinates (s.station j).bo.state = true)
    {m : Sent n} (hm : m ∈ s'.link j i) (hconsent : isConsent m.heartbeat.status = true) :
    m ∈ s.link j i := by
  rcases Protocol.mem_link_of_next hs hm with hm | ⟨-, timestamp, -, rfl⟩
  · exact hm
  · exact absurd (hj.symm.trans (hconsents hconsent)) (by decide)

theorem station_of_ne (hs : fl.protocol.next s act = some s') {i j : Fin n} (hij : i ≠ j)
    (hi : s'.station i ≠ s.station i) : s'.station j = s.station j := by
  cases Protocol.stepped_of_next hs with
  | @own k inp st =>
    by_cases hk : i = k
    · exact Function.update_of_ne (hk ▸ hij.symm) _ _
    · exact absurd (Function.update_of_ne hk _ _) hi
  | broadcast => rfl
  | @deliver k l env m ms st =>
    by_cases hl : i = l
    · exact Function.update_of_ne (hl ▸ hij.symm) _ _
    · exact absurd (Function.update_of_ne hl _ _) hi

theorem precedes_step {tr : List (FlockNet n × FlockAct n)} {i j : Fin n} (hij : i ≠ j)
    (hkeeps : ∀ k, fl.Keeps k (s.station k)) (hinv : fl.Precedes i j tr s)
    (hs : fl.protocol.next s act = some s') : fl.Precedes i j ((s, act) :: tr) s' := by
  intro hi hj hunder hconsented
  by_cases hj₀ : coordinates (s.station j).bo.state = true
  · have hopen : opening j ((s, act) :: tr) = opening j tr := List.dropWhile_cons_of_pos hj₀
    rw [hopen]
    have hlink : ∀ m ∈ s'.link j i, isConsent m.heartbeat.status = true → m ∈ s.link j i :=
      fun m hm => consent_on_link hs (hkeeps j).consents hj₀ hm
    by_cases hi₀ : coordinates (s.station i).bo.state = true
    · have hopen : opening i ((s, act) :: tr) = opening i tr := List.dropWhile_cons_of_pos hi₀
      rw [ConsentUnderWay, hopen] at hunder
      rw [hopen]
      refine hinv hi₀ hj₀ hunder ?_
      by_cases hsends : sends (s.station i).bo.state = true
      · exact .inl hsends
      have hannounces : announces (s.station i).bo.state = true := by
        simpa [coordinates, hsends] using hi₀
      rcases hconsented with h | h | ⟨m, hm, hconsent⟩
      · exact consent_taken hs hij.symm (hkeeps i).subscribed hannounces (.inl h)
      · exact consent_taken hs hij.symm (hkeeps i).subscribed hannounces (.inr h)
      · exact .inr (.inr ⟨m, hlink m hm hconsent, hconsent⟩)
    · -- `i` announces in this step: its flags are clear, and no consent is under way
      have hopen : opening i ((s, act) :: tr) = (s, act) :: tr := List.dropWhile_cons_of_neg hi₀
      rw [ConsentUnderWay, hopen] at hunder
      have hclear : sends (s'.station i).bo.state = false ∧
          ∀ k, ¬ (s'.station i).bo.Replied k := by
        cases Flock.nodeStep_of_next hs i with
        | idle _ hsame => exact absurd (hsame ▸ hi) hi₀
        | own hcalled => exact opens_session hcalled.next (Bool.not_eq_true _ ▸ hi₀) hi
        | take _ hcalled => exact opens_session hcalled.next (Bool.not_eq_true _ ▸ hi₀) hi
      rcases hconsented with h | h | ⟨m, hm, hconsent⟩
      · exact absurd (h.symm.trans hclear.1) (by decide)
      · exact absurd h (hclear.2 _)
      · exact absurd ⟨(s, act), rfl, m, hlink m hm hconsent, hconsent⟩ hunder
  · -- `j` announces in this step, and `i` has announced before
    have hopen : opening j ((s, act) :: tr) = (s, act) :: tr := List.dropWhile_cons_of_neg hj₀
    have hstep : s'.station j ≠ s.station j := fun h => hj₀ (h ▸ hj)
    have hi₀ : coordinates (s.station i).bo.state = true := by
      rw [← station_of_ne hs hij.symm hstep]
      exact hi
    have hopen' : opening i ((s, act) :: tr) = opening i tr := List.dropWhile_cons_of_pos hi₀
    rw [hopen, hopen', List.length_cons]
    exact Nat.lt_succ_of_le (List.dropWhile_suffix _).length_le

theorem precedes_of_run {tr : List (FlockNet n × FlockAct n)} {i j : Fin n} (hij : i ≠ j)
    (hrun : Run fl.protocol.next fl.protocol.initial tr s) : fl.Precedes i j tr s := by
  induction hrun with
  | nil =>
    have hready : ¬ coordinates .ready = true := by decide
    exact fun hi => absurd hi hready
  | snoc hrun hs ih => exact precedes_step hij (Flock.keeps_of_run hrun) ih hs

/-- When two nodes are in sending states, a consent of one of them was under way to the other
one when that announced its session. -/
theorem coordinators_consentUnderWay {tr : List (FlockNet n × FlockAct n)}
    (hrun : Run fl.protocol.next fl.protocol.initial tr s) {i j : Fin n} (hij : i ≠ j)
    (hi : sends (s.station i).bo.state = true) (hj : sends (s.station j).bo.state = true) :
    ConsentUnderWay i j tr ∨ ConsentUnderWay j i tr := by
  have hci : coordinates (s.station i).bo.state = true := by simp [coordinates, hi]
  have hcj : coordinates (s.station j).bo.state = true := by simp [coordinates, hj]
  by_contra hnone
  obtain ⟨hno, hno'⟩ := not_or.1 hnone
  have hlt := precedes_of_run hij hrun hci hcj hno (.inl hi)
  have hgt := precedes_of_run hij.symm hrun hcj hci hno' (.inl hj)
  omega

end Flock

namespace Sample

/-- Behind a session of node 0 the nodes 1 and 2 announce one each. Node 0 acknowledges that of
node 2, and both hear it; the acknowledgements that they hear of each other are those of the
first session. -/
def bothCoordinate : List (FlockAct 3) :=
  metadataSession [] ++ [changes n₁ 'g', changes n₂ 'h', tells n₂, hears n₀ n₂, tells n₀,
    hears n₁ n₂, hears n₁ n₀, hears n₂ n₁, hears n₂ n₀]

end Sample

theorem coordinators_consentUnderWay_both :
    let tr := record Sample.flock.protocol.next Sample.flock.protocol.initial Sample.bothCoordinate []
    ConsentUnderWay 1 2 tr ∨ ConsentUnderWay 2 1 tr :=
  coordinators_consentUnderWay (run_after (by decide +kernel)) (by decide) (by decide +kernel)
    (by decide +kernel)

theorem coordinator_single_fails :
    ¬ ∀ (n : ℕ) (fl : Flock n) (tr : List (FlockNet n × FlockAct n)) (s : FlockNet n) (i j : Fin n),
      2 ≤ n → Run fl.protocol.next fl.protocol.initial tr s → i ≠ j →
      ¬ (sends (s.station i).bo.state = true ∧ sends (s.station j).bo.state = true) := by
  intro h
  let s := after Sample.flock.protocol.next Sample.flock.protocol.initial Sample.bothCoordinate
  have hrun : Run Sample.flock.protocol.next Sample.flock.protocol.initial _ s :=
    run_after (by decide +kernel)
  have hboth : sends (s.station 1).bo.state = true ∧ sends (s.station 2).bo.state = true := by
    decide +kernel
  exact h 3 Sample.flock _ s 1 2 (by decide) hrun (by decide) hboth

end Flocksy
