import Flocksy.Foundation.Clocks
import Flocksy.DispatcherOrders

/-!
# The start of a transmission

When the last node has replied, the boxoffice adds a random time to its clock, subtracts the offset
of that node, and tells the number to its dispatcher and, with the heartbeat, to the dispatchers of
the others. The number is what the clock of that node will show, but every dispatcher waits for it
on its own clock.
-/

namespace Flocksy

open ByteStream Fsm Runs

/-- `random_offset`. -/
def Env.sendOffset (env : Env) : UInt32 :=
  env.randomUniform (maximumSendOffset - minimumSendOffset) + minimumSendOffset

theorem Env.sendOffset_bounds (env : Env) :
    3000 ≤ env.sendOffset.toNat ∧ env.sendOffset.toNat < 6000 := by
  have hupper : (maximumSendOffset - minimumSendOffset).toNat = 3000 := by decide
  have hmin : minimumSendOffset.toNat = 3000 := by decide
  rw [Env.sendOffset, Env.randomUniform, UInt32.toNat_add, UInt32.toNat_mod, hupper, hmin]
  omega

/-- The number that is told, where `offset` is the one of the node that replied last. -/
def Env.startTiming (env : Env) (offset : Int16) : UInt64 :=
  env.now + env.sendOffset.toUInt64 - offset.toInt64.toUInt64

structure Stamped (env : Env) (uid : Hash) (offset : Int16) (fr : Frame) : Prop where
  env : fr.env = env
  known : uid ∈ fr.bo.subscribers.keys
  offset : (fr.bo.subscribers.val uid).offset = offset
  sender : ((fr.sstream.seekTo 5).read genericHashLen).1 = uid.bytes
  event : fr.event = getEventByStatusCode fr.status
  remote : isRemote fr.event = true

section Call

variable {env : Env} {uid : Hash} {offset : Int16} {fr : Frame}

theorem Stamped.markReplied (h : Stamped env uid offset fr) :
    Stamped env uid offset { fr with bo := fr.bo.markReplied } := by
  refine ⟨h.env, KeyedTable.mem_modify_keys.2 (.inr h.known), ?_, h.sender, h.event, h.remote⟩
  rw [← h.offset, Boxoffice.markReplied]
  by_cases hsender : uid = fr.bo.currentNodeHash
  · subst hsender
    rw [KeyedTable.modify_val_self, KeyedTable.touch_val, if_neg fun hnew => hnew.2 h.known]
  · rw [KeyedTable.modify_val_of_ne _ _ hsender]

theorem Stamped.clearReplied (h : Stamped env uid offset fr) :
    Stamped env uid offset { fr with bo := fr.bo.clearReplied } :=
  ⟨h.env, h.known, h.offset, h.sender, h.event, h.remote⟩

theorem replyRound_stamped {complete : Boxoffice → Boxoffice × Status}
    (hkeeps : ∀ bo, (complete bo).1.subscribers = bo.subscribers)
    (hremote : ∀ bo, isRemote (getEventByStatusCode (complete bo).2) = true)
    (h : Stamped env uid offset fr) :
    (replyRound complete fr).Post (Exec.whenNext (Stamped env uid offset)) := by
  have hmarked := h.markReplied
  have hcleared := hmarked.clearReplied
  unfold replyRound
  simp only
  split_ifs
  · rw [checked, Exec.post_require]
    split_ifs
    · refine ⟨hcleared.env, ?_, ?_, hcleared.sender, rfl, hremote _⟩
      · simpa only [Frame.become, hkeeps] using hcleared.known
      · simpa only [Frame.become, hkeeps] using hcleared.offset
    · trivial
  · exact hmarked

theorem notifyDispatcher_timing (h : Stamped env uid offset fr) :
    (notifyDispatcher fr).Post (Exec.whenNext fun fr' => isRemote fr'.event = true ∧
      (notifies fr'.status = true → fr'.bo.currentTimingOffset = env.startTiming offset)) := by
  have htiming : sendTiming fr uid = env.startTiming offset := by
    simp only [sendTiming, Env.startTiming, Env.sendOffset, KeyedTable.touch_val, h.known, h.env,
      h.offset, not_true_eq_false, and_false, ↓reduceIte]
  have hhash : Hash.ofBytes ((fr.sstream.seekTo 5).read genericHashLen).1 = uid := by
    rw [h.sender, Hash.ofBytes_bytes]
  unfold notifyDispatcher
  simp only [hhash, htiming]
  split_ifs with hcond
  · split
    · trivial
    · trivial
    · simp only [Exec.post_next, Exec.whenNext, Frame.send]
      exact ⟨h.remote, fun _ => trivial⟩
  · refine ⟨h.remote, fun hnotifies => absurd ?_ hcond⟩
    rw [h.event]
    have hcases : fr.status = .s122 ∨ fr.status = .s177 := by simpa [notifies] using hnotifies
    rcases hcases with hst | hst <;> simp [hst, getEventByStatusCode]

variable {bo : Boxoffice} {inp : Input}

theorem heartbeatBranch_stamped (hack : isAck fr.status = true) (h : Stamped env uid offset fr) :
    (heartbeatBranch fr).Post (Exec.whenNext (Stamped env uid offset)) := by
  have hround (bo : Boxoffice) : isRemote (getEventByStatusCode (metadataRoundStatus bo)) = true := by
    rcases metadataRoundStatus_cases bo with h | h | h | h <;> rw [h.1] <;> rfl
  have hcases : fr.status = .s121 ∨ fr.status = .s161 ∨ fr.status = .s165 ∨ fr.status = .s140 ∨
      fr.status = .s141 := by simpa [isAck] using hack
  unfold heartbeatBranch
  rcases hcases with hst | hst | hst | hst | hst <;> rw [hst]
  · exact replyRound_stamped (fun _ => rfl) (fun _ => rfl) h
  · exact replyRound_stamped (fun _ => rfl) (fun _ => rfl) h
  · exact replyRound_stamped (fun _ => rfl) (fun _ => rfl) h
  · exact replyRound_stamped (fun _ => rfl) (fun _ => rfl) h
  · exact replyRound_stamped (fun _ => rfl) hround h

theorem stages_timing (hack : isAck inp.status = true)
    (h : Stamped env uid offset (receivedFrame bo inp)) :
    (stages (Frame.start bo inp.status inp.sstream inp.env)).Post (Exec.whenNext fun fr =>
      notifies fr.status = true → fr.bo.currentTimingOffset = env.startTiming offset) := by
  have hevent : getEventByStatusCode inp.status = .receivedHeartbeat := by
    have hacks : ∀ s, isAck s = true → getEventByStatusCode s = .receivedHeartbeat := by
      decide +kernel
    exact hacks _ hack
  have hbeat : (receivedHeartbeat (Frame.start bo inp.status inp.sstream inp.env)).Post
      (Exec.whenNext (Stamped env uid offset)) := by
    unfold receivedHeartbeat
    split_ifs with hstart
    · exact heartbeatBranch_stamped hack h
    · exact absurd hevent hstart
  let Timed (fr : Frame) : Prop := isRemote fr.event = true ∧
    (notifies fr.status = true → fr.bo.currentTimingOffset = env.startTiming offset)
  have hnotified : ((receivedHeartbeat (Frame.start bo inp.status inp.sstream inp.env)).andThen
      notifyDispatcher).Post (Exec.whenNext Timed) :=
    Exec.Post.andThen hbeat fun _ hs => notifyDispatcher_timing hs
  have hqueued := hnotified.thenKeeps (k := localFileEvent) fun fr hfr => by
    rw [localFileEvent_of_remote hfr.1]
    exact hfr
  refine Exec.Post.andThen (P := Timed) hqueued fun fr hfr => ?_
  rw [receivedFileData_of_remote hfr.1]
  exact hfr.2

end Call

theorem receivedFrame_stamped (bo : Boxoffice) {status : Status} (hc : Conforming status)
    (hack : isAck status = true) (uid : Hash) (sent : UInt64) (payload : Bytes) (env : Env) :
    Stamped env uid (env.received - sent).toUInt16.toInt16
      (receivedFrame bo (peerInput status hc uid (space :: (timingBytes sent ++ payload)) env)) := by
  have hframe : receivedFrame bo
      (peerInput status hc uid (space :: (timingBytes sent ++ payload)) env) = _ :=
    updateTimestamp_cursor rfl
  have hprefix : (signalPrefix sigtypeSub status.toNat).length = 5 := by
    have hacks : ∀ s, isAck s = true → (signalPrefix sigtypeSub s.toNat).length = 5 := by
      decide +kernel
    exact hacks _ hack
  rw [hframe]
  refine ⟨rfl, KeyedTable.mem_modify_keys.2 (.inl rfl), ?_, ?_, rfl, (remote_of_ack _ hack).2⟩
  · simp only
    rw [KeyedTable.modify_val_self]
    rfl
  · have hback : (Stream.cursor (signalPrefix sigtypeSub status.toNat ++
        (uid.bytes ++ ([space] ++ timingBytes sent))) payload).seekTo (5 : ℕ) = _ :=
      Stream.seekTo_cursor hprefix _ _
    simp only [List.append_assoc] at hback ⊢
    rw [show (5 : ℤ) = (5 : ℕ) by rfl, hback, Stream.read_cursor uid.length_eq]

theorem toInt_stored (x : UInt64) : x.toUInt16.toInt16.toInt = x.toInt64.toInt.bmod (2 ^ 16) := by
  rw [Clock.toInt_toInt64, Int.bmod_bmod_of_dvd (by norm_num), Int16.toInt, UInt16.toBitVec_toInt16,
    BitVec.toInt_eq_toNat_bmod, UInt16.toNat_toBitVec, UInt64.toNat_toUInt16, Int.natCast_emod,
    Int.emod_bmod]

theorem toInt_random (r : UInt32) : r.toUInt64.toInt64.toInt = r.toNat := by
  have h := r.toNat_lt
  rw [Clock.toInt_toInt64, UInt32.toNat_toUInt64]
  exact Int.bmod_eq_of_le_mul_two (by push_cast; omega) (by push_cast; omega)

theorem toInt_own {r : UInt32} (hr : r.toNat < 6000) (o : Int16) :
    (r.toUInt64 - o.toInt64.toUInt64).toInt64.toInt = r.toNat - o.toInt := by
  have hlow := o.le_toInt
  have hhigh := o.toInt_lt
  rw [UInt64.toInt64_sub, Int64.toInt64_toUInt64 o.toInt64, Int64.toInt_sub, toInt_random,
    Int16.toInt_toInt64]
  exact Int.bmod_eq_of_le_mul_two (by push_cast; omega) (by push_cast; omega)

/-- Where the stored offset is the random one or more, the difference itself is what is left. -/
theorem late_iff {r : UInt32} (hpos : 0 < r.toNat) (hr : r.toNat < 6000) {lead : UInt64}
    (hlate : r.toNat ≤ lead.toUInt16.toInt16.toInt) :
    (lead + (r.toUInt64 - lead.toUInt16.toInt16.toInt64.toUInt64)).toInt64.toInt ≤ 0 ↔
      lead.toInt64.toInt < 0 := by
  have hlow := lead.toInt64.le_toInt
  have hhigh := lead.toInt64.toInt_lt
  have hstored := lead.toUInt16.toInt16.toInt_lt
  obtain ⟨k, hk⟩ : ((2 ^ 16 : ℕ) : ℤ) ∣ lead.toInt64.toInt - lead.toUInt16.toInt16.toInt := by
    rw [toInt_stored]
    exact Int.dvd_self_sub_bmod
  rw [UInt64.toInt64_add, Int64.toInt_add, toInt_own hr]
  generalize lead.toInt64.toInt = d at *
  generalize lead.toUInt16.toInt16.toInt = o at *
  have hleft : (d + (r.toNat - o)).bmod (2 ^ 64) = r.toNat + 65536 * k := by
    rw [Int.bmod_eq_of_le_mul_two (by push_cast at *; omega) (by push_cast at *; omega)]
    push_cast at hk
    omega
  rw [hleft]
  push_cast at hk
  omega

/-- The number that `Dispatcher::run` waits for when its status, or the one before, is 122, 177
or 130. -/
def dispatcherTiming (currentStatus : Status) (old : ℤ × ℤ) (text : Bytes) : Option UInt64 :=
  let (msgType, msgSignal, s) := readSignal old text
  if interrupts msgType msgSignal then none else
  let status := if msgType = sigtypeFsm then statusOfInt msgSignal else currentStatus
  if status = .s122 ∨ status = .s177 ∨ status = .s130 then
    let (timing, _) := (s.seekCur 1).read 8
    some (UInt64.ofNat (ofBigEndian (padTo 8 timing)))
  else none

def dispatcherWakes (clock : Clock) (instant : ℤ) (currentStatus : Status) (old : ℤ × ℤ)
    (text : Bytes) : Option ℤ :=
  (dispatcherTiming currentStatus old text).map fun timing => clock.wakes timing instant

theorem dispatcherTiming_fsmMessage {status : Status}
    (hstatus : status = .s122 ∨ status = .s177 ∨ status = .s130) (currentStatus : Status)
    (old : ℤ × ℤ) (timing : UInt64) (rest : Bytes) :
    dispatcherTiming currentStatus old (fsmMessage status (timingBytes timing ++ rest)) =
      some timing := by
  have htext : fsmMessage status (timingBytes timing ++ rest) =
      signalPrefix sigtypeFsm status.toNat ++ (space :: (timingBytes timing ++ rest)) := by
    simp [fsmMessage, signalPrefix]
  have hread : readSignal old (signalPrefix sigtypeFsm status.toNat ++
      (space :: (timingBytes timing ++ rest))) = _ :=
    readSignal_prefix old (by decide) (toNat_le_intMax status) (by simp) (by simp; decide)
  have hseek : (Stream.cursor (signalPrefix sigtypeFsm status.toNat)
      (space :: (timingBytes timing ++ rest))).seekCur 1 =
      Stream.cursor (signalPrefix sigtypeFsm status.toNat ++ [space]) (timingBytes timing ++ rest) :=
    Stream.seekCur_cursor (show [space].length = 1 from rfl) _ _
  simp only [dispatcherTiming, htext, hread]
  rw [if_neg (by simp [interrupts, sigtypeFsm, sigtypeLife])]
  simp only [↓reduceIte, statusOfInt_toNat, if_pos hstatus, hseek,
    Stream.read_cursor (timingBytes_length timing), ofBigEndian_timingBytes]

/-- The call in which the file goes into a heartbeat: the dispatcher is told the start, and the
heartbeat ends with it. -/
structure Boxoffice.TellsStart (bo : Boxoffice) (inp : Input) (status : Status) (order : Bytes)
    (timing : UInt64) : Prop where
  moves : ∃ bo' ∈ bo.next inp, bo'.state ≠ bo.state ∧ entersData bo'.state = true
  order : .dispatcher status order ∈ bo.effects inp
  heartbeat : ∃ s, ∃ f : File, .heartbeat s (f.write ++ timingBytes timing) ∈ bo.effects inp

theorem Boxoffice.TellsStart.taken {bo : Boxoffice} {inp : Input} {status : Status}
    {order : Bytes} {timing : UInt64} (h : bo.TellsStart inp status order timing) :
    ∃ fr t, Taken bo inp fr t ∧ notifies t.status = true ∧ t.status = status ∧
      fr.bo.currentTimingOffset = timing ∧ ∃ rest, order = timingBytes timing ++ rest := by
  obtain ⟨bo', hnext, hleave, henters⟩ := h.moves
  have horder := h.order
  obtain ⟨s, f, hbeat⟩ := h.heartbeat
  have hp := processEvent_processed bo inp
  rw [returned_of_next hnext] at hp
  generalize bo.effects inp = out at hp horder hbeat
  cases hp with
  | ignored => exact absurd rfl hleave
  | stopped _ hstop => cases hstop
  | @moved fr t _ _ ht hm =>
    rw [hm.kept.state] at hleave henters
    obtain ⟨p, ps, -, -, -, heffects⟩ := popped_effects ht hm henters hleave
    split_ifs at heffects with hnotifies
    · obtain ⟨-, dir, -, rfl⟩ := heffects
      obtain ⟨rfl, rfl⟩ : status = t.status ∧ order = timingBytes fr.bo.currentTimingOffset ++
          bo.currentBox.bytes ++ dir ++ space :: p.file.write.drop 32 := by
        simpa using horder
      obtain ⟨-, hpayload⟩ : s = t.heartbeat ∧ f.write ++ timingBytes timing =
          p.file.write ++ timingBytes fr.bo.currentTimingOffset := by
        simpa using hbeat
      obtain ⟨-, hbytes⟩ := List.append_inj' hpayload (by simp)
      obtain rfl : timing = fr.bo.currentTimingOffset := by
        rw [← ofBigEndian_timingBytes timing, hbytes, ofBigEndian_timingBytes]
      refine ⟨fr, t, ht, hnotifies, rfl, rfl,
        bo.currentBox.bytes ++ (dir ++ space :: p.file.write.drop 32), ?_⟩
      simp only [List.append_assoc]
    · simp [heffects] at horder

theorem Boxoffice.TellsStart.timing {bo : Boxoffice} {status replied : Status}
    {hc : Conforming replied} {uid : Hash} {sent timing : UInt64} {payload order : Bytes}
    {env : Env} (h : bo.TellsStart (peerInput replied hc uid
      (space :: (timingBytes sent ++ payload)) env) status order timing) :
    (status = .s122 ∨ status = .s177) ∧
      timing = env.startTiming (env.received - sent).toUInt16.toInt16 ∧
      ∃ rest, order = timingBytes timing ++ rest := by
  obtain ⟨fr, t, ht, hnotifies, rfl, rfl, horder⟩ := h.taken
  have hcases : t.status = .s122 ∨ t.status = .s177 := by simpa [notifies] using hnotifies
  have hend : t.status ∈ roundEnds := by
    rcases hcases with h | h <;> simp [h, roundEnds]
  have hack : isAck replied = true := (ht.completes hend).1.1
  have hstamped := receivedFrame_stamped bo hc hack uid sent payload env
  exact ⟨hcases, (stages_timing hack hstamped).of_next ht.staged (ht.status ▸ hnotifies), horder⟩

/-- Neither dispatcher waits: the clock of the follower is ahead, and what is stored of this is not
less than the random offset. -/
def BothLate (random : UInt32) (lead : UInt64) : Prop :=
  lead.toInt64.toInt < 0 ∧ random.toNat ≤ lead.toUInt16.toInt16.toInt

instance (random : UInt32) (lead : UInt64) : Decidable (BothLate random lead) := by
  unfold BothLate
  infer_instance

section Together

variable {c f : Clock} {told : ℤ} {env : Env} (hnow : env.now = c.read told)
include hnow

theorem remaining_own (o : Int16) :
    c.remaining (env.startTiming o) told = env.sendOffset.toNat - o.toInt := by
  have hdiff (x y z : UInt64) : x + y - z - x = y - z := by grind
  rw [← toInt_own env.sendOffset_bounds.2, Clock.remaining, Env.startTiming, hnow, hdiff]

theorem remaining_other (o : Int16) : f.remaining (env.startTiming o) told =
    (c.lead f + (env.sendOffset.toUInt64 - o.toInt64.toUInt64)).toInt64.toInt := by
  have hdiff (x y z w : UInt64) : x + y - z - w = x - w + (y - z) := by grind
  rw [Clock.remaining, Env.startTiming, hnow, ← Clock.read_sub_read c f told, hdiff]

theorem bothLate_iff : c.remaining (env.startTiming (c.lead f).toUInt16.toInt16) told ≤ 0 ∧
    f.remaining (env.startTiming (c.lead f).toUInt16.toInt16) told ≤ 0 ↔
      BothLate env.sendOffset (c.lead f) := by
  obtain ⟨hmin, hmax⟩ := env.sendOffset_bounds
  rw [remaining_own hnow, remaining_other hnow, BothLate, and_comm, sub_nonpos]
  exact and_congr_left fun hlate => late_iff (by omega) hmax hlate

end Together

/-- The dispatchers start together if and only if the clocks agree or neither dispatcher waits. -/
theorem startTogether_iff {bo : Boxoffice} {status replied : Status} {hc : Conforming replied}
    {uid : Hash} {timing : UInt64} {payload order : Bytes} {env : Env} {c f : Clock}
    {heard told : ℤ} (hreceived : env.received = c.read heard) (hnow : env.now = c.read told)
    (hstart : bo.TellsStart (peerInput replied hc uid
      (space :: (timingBytes (f.read heard) ++ payload)) env) status order timing)
    (own other : Status) (old old' : ℤ × ℤ) :
    dispatcherWakes c told own old (fsmMessage status order) =
      dispatcherWakes f told other old' (fsmMessage .s130 (timingBytes timing)) ↔
    c.lead f = 0 ∨ BothLate env.sendOffset (c.lead f) := by
  obtain ⟨hstatus, htiming, rest, rfl⟩ := hstart.timing
  have hown : dispatcherTiming own old (fsmMessage status (timingBytes timing ++ rest)) =
      some timing := dispatcherTiming_fsmMessage (hstatus.imp_right .inl) own old timing rest
  have hother : dispatcherTiming other old' (fsmMessage .s130 (timingBytes timing ++ [])) =
      some timing := dispatcherTiming_fsmMessage (.inr (.inr rfl)) other old' timing []
  rw [List.append_nil] at hother
  rw [hreceived, Clock.read_sub_read] at htiming
  rw [dispatcherWakes, dispatcherWakes, hown, hother, Option.map_some, Option.map_some,
    Option.some_inj, Clock.wakes_eq_iff, htiming, bothLate_iff hnow]

namespace Sample

def replies (c f : Clock) (instant : ℤ) : Input :=
  peerInput .s121 (conforming_iff.2 (by decide)) (.fill 65)
    (space :: (timingBytes (f.read instant) ++ [space]))
    { env with received := c.read instant, now := c.read instant }

def order (timing : UInt64) : Bytes := orderPayload timing box dir (file 'f')

theorem announcing_tellsStart {c f : Clock} {instant : ℤ} {timing : UInt64}
    (hmoves : (announcing.next (replies c f instant)).map (fun bo => bo.state) =
      some .sendingNewFileMetadata)
    (heffects : announcing.effects (replies c f instant) = [.dispatcher .s122 (order timing),
      .heartbeat .s130 ((file 'f').write ++ timingBytes timing)]) :
    announcing.TellsStart (replies c f instant) .s122 (order timing) timing := by
  obtain ⟨bo', hnext, hstate⟩ := Option.map_eq_some_iff.1 hmoves
  refine ⟨⟨bo', hnext, ?_, ?_⟩, ?_, .s130, file 'f', ?_⟩
  · rw [hstate]
    decide +kernel
  · rw [hstate]
    decide
  · rw [heffects]
    exact List.mem_cons_self
  · rw [heffects]
    exact List.mem_cons_of_mem _ List.mem_cons_self

end Sample

theorem startTogether_sameClock :
    dispatcherWakes ⟨0⟩ 5000 .s100 (0, 0) (fsmMessage .s122 (Sample.order 8000)) =
      dispatcherWakes ⟨0⟩ 5000 .s100 (0, 0) (fsmMessage .s130 (timingBytes 8000)) := by
  have hstart : Sample.announcing.TellsStart (Sample.replies ⟨0⟩ ⟨0⟩ 5000) .s122
      (Sample.order 8000) 8000 :=
    Sample.announcing_tellsStart (by decide +kernel) (by decide +kernel)
  have hreceived : (Sample.replies ⟨0⟩ ⟨0⟩ 5000).env.received = Clock.read ⟨0⟩ 5000 := rfl
  have hnow : (Sample.replies ⟨0⟩ ⟨0⟩ 5000).env.now = Clock.read ⟨0⟩ 5000 := rfl
  exact (startTogether_iff hreceived hnow hstart .s100 .s100 (0, 0) (0, 0)).2 (.inl (by decide))

/-- A follower whose clock is a second behind starts a second late. -/
theorem startTogether_fails :
    ¬ ∀ (bo : Boxoffice) (status replied : Status) (hc : Conforming replied) (uid : Hash)
      (timing : UInt64) (payload order : Bytes) (env : Env) (c f : Clock) (heard told : ℤ),
      env.received = c.read heard → env.now = c.read told →
      bo.TellsStart (peerInput replied hc uid
        (space :: (timingBytes (f.read heard) ++ payload)) env) status order timing →
      dispatcherWakes c told .s100 (0, 0) (fsmMessage status order) =
        dispatcherWakes f told .s100 (0, 0) (fsmMessage .s130 (timingBytes timing)) := by
  intro h
  have htogether := h Sample.announcing .s122 .s121 _ _ 7000 _ (Sample.order 7000) _ ⟨0⟩ ⟨-1000⟩
    5000 5000 rfl rfl (Sample.announcing_tellsStart (by decide +kernel) (by decide +kernel))
  revert htogether
  decide +kernel

end Flocksy
