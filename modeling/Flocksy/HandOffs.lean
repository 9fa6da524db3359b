import Flocksy.DispatcherOrders
import Flocksy.RecordStreams

/-!
# The hand-off of a data file

A data file that is popped into a metadata heartbeat has to be handed to the dispatcher in the
same call: the boxoffice sends one order, and what the dispatcher reads from it is that file. There
is no order behind a 178, the order names the box of the last local event, and half of a hash is
left where the record was to begin.
-/

namespace Flocksy

open ByteStream Fsm Runs

structure Order.Carries (o : Order) (timing : UInt64) (f : File) : Prop where
  timing : o.timingOffset = timing
  box : o.boxHash = f.boxHash
  dir : o.boxDir = f.boxPath
  file : o.file.ReadsAs f
  deleted : o.file.file.deletedFile = f.deletedFile

/-- The record is that of the file in spite of the half of the hash in front of it. -/
structure File.Arrives (f : File) (fs : FileSystem) : Prop where
  named : f.boxPath ≠ []
  word : ∀ b ∈ f.boxPath, isSpace b = false
  repeats : f.Repeats f.boxPath fs
  marked : firstWord (f.path.drop 96 ++ f.tail) = File.inDelete ↔ f.deletedFile = true

theorem File.deletedFile_of_read {dir path before after : Bytes} {hash : Hash} {fs : FileSystem}
    {x : File.Extraction} (hdir : dir ≠ []) (hpath : path.length = maximumPathLength)
    (hx : (File.blank dir hash).read (Stream.cursor before (path ++ after)) fs = some x) :
    x.file.deletedFile = true ↔ firstWord after = inDelete := by
  rw [read_cursor_eq (g := File.blank dir hash) hdir hpath] at hx
  simp only at hx
  split_ifs at hx with hword
  · obtain rfl := Option.some.inj hx
    simp [(readDeleted_spec _ _ _).1, hword]
  · obtain ⟨-, hdeleted⟩ := readFields_unchanged hx
    simp [hdeleted, hword, withPath, blank]

theorem order_carries_iff {box : Hash} {dir : Bytes} {f : File} {status : Status}
    (currentStatus : Status) (old : ℤ × ℤ) (fs : FileSystem) (timing timing' : UInt64)
    (hstatus : notifies status = true) (hplaced : box = f.boxHash → dir = f.boxPath) :
    (∃ o, dispatcherOrder currentStatus old (fsmMessage status (orderPayload timing box dir f)) fs =
      some o ∧ o.Carries timing' f) ↔ timing = timing' ∧ box = f.boxHash ∧ f.Arrives fs := by
  obtain ⟨before, horder⟩ := dispatcherOrder_order timing box dir f fs currentStatus old hstatus
  rw [horder]
  constructor
  · rintro ⟨o, ho, hcarries⟩
    obtain ⟨x, hx, rfl⟩ := Option.map_eq_some_iff.1 ho
    obtain rfl := hplaced hcarries.box
    have hword : (Stream.cursor before (f.boxPath ++ space :: f.write.drop 32)).extractWord.1 =
        f.boxPath := hcarries.dir
    have hspace := noSpace_of_extractWord hword
    have hnamed : f.boxPath ≠ [] := by
      have hne := File.boxPath_of_read hx
      rwa [hword] at hne
    obtain ⟨-, hseek⟩ := extractWord_seek before (f.write.drop 32) hnamed hspace
    rw [hword, hseek, f.write_drop] at hx
    obtain ⟨hpath, hfollows⟩ :=
      (File.read_iff hnamed f.cutPath_length).1 ⟨x, hx, hcarries.file, rfl⟩
    refine ⟨hcarries.timing, hcarries.box, hnamed, hspace, ⟨hpath, _, hfollows⟩, ?_⟩
    rw [← File.deletedFile_of_read hnamed f.cutPath_length hx, ← hcarries.deleted]
  · rintro ⟨rfl, rfl, hnamed, hspace, ⟨hpath, left, hfollows⟩, hmarked⟩
    obtain rfl := hplaced rfl
    obtain ⟨hword, hseek⟩ := extractWord_seek before (f.write.drop 32) hnamed hspace
    obtain ⟨x, hx, hreads, -⟩ := (File.read_iff hnamed f.cutPath_length).2 ⟨hpath, hfollows⟩
    have hdeleted := File.deletedFile_of_read hnamed f.cutPath_length hx
    simp only
    rw [hword, hseek, f.write_drop, hx]
    exact ⟨_, rfl, rfl, rfl, rfl, hreads, Bool.eq_iff_iff.2 (hdeleted.trans hmarked)⟩

/-- The popped file is announced, and exactly one message tells the dispatcher to send it, with
the timing of the announcement. -/
def HandsOff (currentStatus : Status) (old : ℤ × ℤ) (fs : FileSystem) (bo bo' : Boxoffice)
    (out : List Effect) : Prop :=
  ∃ p ps s s' timing payload, bo.fileListData = p :: ps ∧ bo'.fileListData = ps ∧
    Effect.heartbeat s (p.file.write ++ timingBytes timing) ∈ out ∧
    dispatcherMessages out = [(s', payload)] ∧
    ∃ o, dispatcherOrder currentStatus old (fsmMessage s' payload) fs = some o ∧
      o.Carries timing p.file

/-- The file is the only one left, or goes out without a metadata session; it lies in the box of
the last local event, and its record arrives. -/
def Boxoffice.HandOffFits (bo : Boxoffice) (inp : Input) (fs : FileSystem) : Prop :=
  ¬ (inp.status = .s141 ∧ 2 ≤ bo.fileListData.length) ∧
    ∃ p, bo.fileListData.head? = some p ∧ bo.currentBox = p.file.boxHash ∧ p.file.Arrives fs

theorem handsOff_iff_fits {bo bo' : Boxoffice} {inp : Input} {fr : Frame} {t : Transition}
    {out : List Effect} (currentStatus : Status) (old : ℤ × ℤ) (fs : FileSystem)
    (ht : Taken bo inp fr t) (hm : Moved fr t bo' out) (henters : entersData t.newState = true)
    (hleave : t.newState ≠ bo.state) (hplaced : bo.Placed) :
    HandsOff currentStatus old fs bo bo' out ↔ bo.HandOffFits inp fs := by
  obtain ⟨p, ps, hlist, hps, hmany, heffects⟩ := popped_effects ht hm henters hleave
  split_ifs at heffects with hnotifies
  · obtain ⟨hone, dir, hdir, hout⟩ := heffects
    have hmessages : dispatcherMessages out =
        [(t.status, orderPayload fr.bo.currentTimingOffset bo.currentBox dir p.file)] := by
      simp [hout, dispatcherMessages, orderPayload]
    have hbox : bo.currentBox = p.file.boxHash → dir = p.file.boxPath := fun h => by
      have hpath := hplaced p (by simp [hlist])
      rw [← h, hdir] at hpath
      exact Option.some.inj hpath
    have hcarries := fun timing =>
      order_carries_iff currentStatus old fs fr.bo.currentTimingOffset timing hnotifies hbox
    constructor
    · rintro ⟨q, qs, s, s', timing, payload, hq, -, -, hmessage, horder⟩
      obtain ⟨rfl, rfl⟩ := List.cons.inj (hlist.symm.trans hq)
      rw [hmessages] at hmessage
      obtain ⟨rfl, rfl⟩ := Prod.mk.inj (List.cons.inj hmessage).1
      obtain ⟨-, hsame, harrives⟩ := (hcarries timing).1 horder
      refine ⟨fun h => ?_, p, by simp [hlist], hsame, harrives⟩
      have := hone h.1
      omega
    · rintro ⟨-, q, hq, hsame, harrives⟩
      obtain rfl : p = q := by simpa [hlist] using hq
      exact ⟨p, ps, t.heartbeat, t.status, fr.bo.currentTimingOffset, _, hlist, hps, by simp [hout],
        hmessages, (hcarries _).2 ⟨rfl, hsame, harrives⟩⟩
  · constructor
    · rintro ⟨q, qs, s, s', timing, payload, -, -, -, hmessage, -⟩
      simp [heffects, dispatcherMessages] at hmessage
    · rintro ⟨hno, -⟩
      exact absurd (hmany.resolve_left hnotifies) hno

/-- Whatever the disk holds when the dispatcher reads the order. -/
theorem handOff_iff {start bo bo' : Boxoffice} {tr : List (Boxoffice × Input)} {inp : Input}
    {out : List Effect} (currentStatus : Status) (old : ℤ × ℤ) (fs : FileSystem)
    (hempty : start.Drained) (hrun : Run Boxoffice.next start tr bo)
    (hstep : processEvent bo inp.status inp.sstream inp.env = .returned 0 bo' out)
    (henters : entersData bo'.state = true) (hleave : bo'.state ≠ bo.state) :
    HandsOff currentStatus old fs bo bo' out ↔ bo.HandOffFits inp fs := by
  have hplaced : bo.Placed := hrun.invariant (fun p hp => by simp [hempty.1] at hp)
    fun _ _ _ hb hn => placed_step hb hn
  have hp := processEvent_processed bo inp
  rw [hstep] at hp
  cases hp with
  | ignored => exact absurd rfl hleave
  | stopped _ hstop => cases hstop
  | moved ht hm =>
    rw [hm.kept.state] at henters hleave
    exact handsOff_iff_fits currentStatus old fs ht hm henters hleave hplaced

namespace Sample

theorem report_conforming : Conforming .s300 := conforming_iff.2 (by decide)

theorem replied_conforming : Status.s121 ∈ conformingStatuses := by decide

def repeatingReport : Input :=
  boxInput .s300 report_conforming inModify repeatingBox repeating.path repeatingEnv

theorem repeating_box : repeating.boxHash = repeatingBox := rfl

theorem repeating_arrives : repeating.Arrives repeatingEnv.fs where
  named := List.cons_ne_nil _ _
  word := by decide +kernel
  repeats := repeating_repeats rfl
  marked := by decide

end Sample

theorem handOff_iff_repeating :
    let bo := after Boxoffice.next Sample.startRepeating [Sample.repeatingReport]
    let last := Sample.heard .s121 Sample.replied_conforming (.fill 65)
    HandsOff .s100 (0, 0) Sample.repeatingEnv.fs bo
      (after Boxoffice.next Sample.startRepeating [Sample.repeatingReport, last])
      (bo.effects last) := by
  intro bo last
  have hfacts : (runAll Boxoffice.next Sample.startRepeating
      [Sample.repeatingReport, last]).isSome = true ∧
      entersData (after Boxoffice.next Sample.startRepeating
        [Sample.repeatingReport, last]).state = true ∧
      (after Boxoffice.next Sample.startRepeating [Sample.repeatingReport, last]).state ≠ bo.state ∧
      bo.fileListData.map (·.file) = [Sample.repeating] ∧ bo.currentBox = Sample.repeatingBox := by
    decide +kernel
  obtain ⟨hall, henters, hleave, hlist, hbox⟩ := hfacts
  obtain ⟨hrun, hnext⟩ := run_next_after Boxoffice.next Sample.startRepeating
    [Sample.repeatingReport] last hall
  obtain ⟨p, hp, hfile⟩ := List.map_eq_singleton_iff.1 hlist
  have hsame : bo.currentBox = p.file.boxHash := by rw [hbox, hfile, Sample.repeating_box]
  exact (handOff_iff .s100 (0, 0) Sample.repeatingEnv.fs ⟨rfl, rfl⟩ hrun (returned_of_next hnext)
    henters hleave).2 ⟨fun h => absurd h.1 (by decide), p, congrArg List.head? hp, hsame,
      hfile ▸ Sample.repeating_arrives⟩

theorem handOff_fails :
    ¬ ∀ (currentStatus : Status) (old : ℤ × ℤ) (fs : FileSystem) (start bo bo' : Boxoffice)
      (tr : List (Boxoffice × Input)) (inp : Input) (out : List Effect), start.state = .ready →
      start.Drained → Run Boxoffice.next start tr bo →
      processEvent bo inp.status inp.sstream inp.env = .returned 0 bo' out →
      entersData bo'.state = true → bo'.state ≠ bo.state →
      HandsOff currentStatus old fs bo bo' out := by
  intro h
  obtain ⟨hrun, hnext⟩ := run_next_after Boxoffice.next (Sample.start [.fill 65]) changeAndFiles
    (Sample.heard .s141 (by decide) (.fill 65)) (by decide)
  obtain ⟨p, ps, s, s', timing, payload, -, -, -, hmessage, -⟩ := h .s100 (0, 0) Sample.env.fs _ _ _
    _ _ _ rfl ⟨rfl, rfl⟩ hrun (returned_of_next hnext) (by decide) (by decide)
  have hnone : dispatcherMessages ((after Boxoffice.next (Sample.start [.fill 65])
      changeAndFiles).effects (Sample.heard .s141 (by decide) (.fill 65))) = [] := by
    decide
  rw [hnone] at hmessage
  cases hmessage

end Flocksy
