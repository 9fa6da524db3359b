import Flocksy.DispatcherRuns

/-!
# Transfers

All that a dispatcher sends over a run is a row of transfers, one for each order that it obeyed:
132, the packages of the file, dummies, and 156. The packages are those of the content where the
record in the order is that of the file on the disk.
-/

namespace Flocksy

open ByteStream Fsm Runs

def loopMessages (f : File) (header : Bytes) (l : SendLoop) : List Bytes → List Bytes
  | [] => []
  | memory :: later => l.message f header memory :: loopMessages f [] (l.turn f) later

theorem loopMessages_concat (f : File) (header : Bytes) (l : SendLoop) (memories : List Bytes)
    (memory : Bytes) : loopMessages f header l (memories ++ [memory]) =
      loopMessages f header l memories ++
        [((SendLoop.turn f)^[memories.length] l).message f
          (if memories = [] then header else []) memory] := by
  induction memories generalizing header l with
  | nil => rfl
  | cons first later ih =>
    rw [List.cons_append, loopMessages, ih, loopMessages, List.cons_append]
    simp

structure Transfer where
  ops : List FileOp
  packages : List Bytes
  dummies : ℕ

def Transfer.traffic (t : Transfer) : List DispatcherEffect :=
  .boxoffice (dispatcherMessage .s132) :: (t.ops.map .disk ++ (t.packages.map .publisher ++
    List.replicate t.dummies (.publisher (sendFakeData .s210))))

def Transfer.whole (t : Transfer) : List DispatcherEffect :=
  t.traffic ++ [.boxoffice (dispatcherMessage .s156)]

def OrdersFile (p : Dispatcher × DispatcherInput) (o : Order) (file : OpenFile) : Prop :=
  ∃ text env status, p.2 = .message text env ∧ p.1.orderIn text = some status ∧
    notifies status = true ∧ dispatcherOrder p.1.currentStatus p.1.signal text env.fs = some o ∧
    env.opened = file

def OrdersDummies (p : Dispatcher × DispatcherInput) : Prop :=
  ∃ text env, p.2 = .message text env ∧ p.1.orderIn text = some .s130

def SendLoop.after (f : File) (file : OpenFile) (turns : ℕ) : SendLoop :=
  (SendLoop.turn f)^[turns] (.opened file)

/-- What has been sent for an order. All turns but the last leave `more` set. -/
inductive Serving (p : Dispatcher × DispatcherInput) : DispatcherPhase → Transfer → Prop where
  | sending {o : Order} {file : OpenFile} (memories : List Bytes) : OrdersFile p o file →
      (∀ k ≤ memories.length, (SendLoop.after o.file.file file k).more = true) →
      Serving p (.sending o.file.file (if memories = [] then statusHeader .s200 else [])
          (.after o.file.file file memories.length))
        ⟨o.file.ops, loopMessages o.file.file (statusHeader .s200) (.opened file) memories, 0⟩
  | sent {o : Order} {file : OpenFile} (memories : List Bytes) (dummies : ℕ) :
      OrdersFile p o file →
      (∀ k < memories.length, (SendLoop.after o.file.file file k).more = true) →
      (SendLoop.after o.file.file file memories.length).more = false →
      Serving p .stopping ⟨o.file.ops,
        loopMessages o.file.file (statusHeader .s200) (.opened file) memories, dummies⟩
  | follows (dummies : ℕ) : OrdersDummies p → Serving p .stopping ⟨[], [], dummies⟩

section Serving

variable {p : Dispatcher × DispatcherInput} {f : File} {header : Bytes} {l : SendLoop}
  {t : Transfer}

theorem SendLoop.after_succ (f : File) (file : OpenFile) (turns : ℕ) :
    SendLoop.after f file (turns + 1) = (SendLoop.after f file turns).turn f :=
  Function.iterate_succ_apply' _ _ _

theorem Serving.package (h : Serving p (.sending f header l) t) (memory : Bytes) :
    Serving p (if (l.turn f).more = true then .sending f [] (l.turn f) else .stopping)
      { t with packages := t.packages ++ [l.message f header memory] } := by
  generalize hphase : DispatcherPhase.sending f header l = phase at h
  cases h with
  | @sending o file memories hfile hturns =>
    obtain ⟨rfl, rfl, rfl⟩ := DispatcherPhase.sending.inj hphase
    have hconcat := loopMessages_concat o.file.file (statusHeader .s200) (.opened file) memories
      memory
    have hlength : (memories ++ [memory]).length = memories.length + 1 := by simp
    by_cases hmore : ((SendLoop.after o.file.file file memories.length).turn o.file.file).more = true
    · have hmoreTurns : ∀ k ≤ (memories ++ [memory]).length,
          (SendLoop.after o.file.file file k).more = true := by
        intro k hk
        rcases Nat.lt_or_eq_of_le hk with hlt | rfl
        · exact hturns k (by omega)
        · rwa [hlength, SendLoop.after_succ]
      have hserving := Serving.sending (memories ++ [memory]) hfile hmoreTurns
      rw [hconcat, hlength, SendLoop.after_succ, if_neg (by simp)] at hserving
      rw [if_pos hmore]
      exact hserving
    · have hlast :
          (SendLoop.after o.file.file file (memories ++ [memory]).length).more = false := by
        rw [hlength, SendLoop.after_succ]
        simpa using hmore
      have hserving := Serving.sent (memories ++ [memory]) 0 hfile
        (fun k hk => hturns k (by omega)) hlast
      rw [hconcat] at hserving
      rw [if_neg hmore]
      exact hserving
  | sent => cases hphase
  | follows => cases hphase

theorem Serving.dummy (h : Serving p .stopping t) :
    Serving p .stopping { t with dummies := t.dummies + 1 } := by
  generalize hphase : DispatcherPhase.stopping = phase at h
  cases h with
  | sending => cases hphase
  | sent memories dummies hfile hturns hlast =>
    exact .sent memories (dummies + 1) hfile hturns hlast
  | follows dummies hfollows => exact .follows (dummies + 1) hfollows

theorem Transfer.traffic_package (t : Transfer) (message : Bytes) (h : t.dummies = 0) :
    { t with packages := t.packages ++ [message] }.traffic = t.traffic ++ [.publisher message] := by
  simp [Transfer.traffic, h]

theorem Transfer.traffic_dummy (t : Transfer) : { t with dummies := t.dummies + 1 }.traffic =
    t.traffic ++ [.publisher (sendFakeData .s210)] := by
  simp [Transfer.traffic, List.replicate_succ']

theorem Serving.no_dummies (h : Serving p (.sending f header l) t) : t.dummies = 0 := by
  generalize hphase : DispatcherPhase.sending f header l = phase at h
  cases h with
  | sending => rfl
  | sent => cases hphase
  | follows => cases hphase

end Serving

/-- The orders that were obeyed, and what was sent for each of them. -/
inductive Logged (tr : List (Dispatcher × DispatcherInput)) (d : Dispatcher) : Prop where
  | rests (ts : List Transfer) : d.phase = .waiting ∨ d.phase = .ended →
      List.Forall₂ (fun p t => Serving p .stopping t) (marked Dispatcher.begins tr) ts →
      outputs Dispatcher.effects tr = (ts.map Transfer.whole).flatten → Logged tr d
  | serves {ps : List (Dispatcher × DispatcherInput)} {p : Dispatcher × DispatcherInput}
      {phase : DispatcherPhase} (ts : List Transfer) (t : Transfer) :
      d.phase = phase ∨ d.phase = .ended ∧ phase = .stopping →
      marked Dispatcher.begins tr = ps ++ [p] →
      List.Forall₂ (fun p t => Serving p .stopping t) ps ts → Serving p phase t →
      outputs Dispatcher.effects tr = (ts.map Transfer.whole).flatten ++ t.traffic → Logged tr d

section Logged

variable {tr : List (Dispatcher × DispatcherInput)} {d d' : Dispatcher} {inp : DispatcherInput}

theorem Logged.waiting (h : Logged tr d) (hphase : d.phase = .waiting) : ∃ ts,
    List.Forall₂ (fun p t => Serving p .stopping t) (marked Dispatcher.begins tr) ts ∧
      outputs Dispatcher.effects tr = (ts.map Transfer.whole).flatten := by
  cases h with
  | rests ts _ hserved hout => exact ⟨ts, hserved, hout⟩
  | serves ts t hp _ _ hserving =>
    obtain rfl : _ = DispatcherPhase.waiting := by
      rcases hp with hp | ⟨hp, -⟩
      · exact hp.symm.trans hphase
      · simp [hphase] at hp
    cases hserving

theorem Logged.busy {phase : DispatcherPhase} (h : Logged tr d) (hphase : d.phase = phase)
    (hwaits : phase ≠ .waiting) (hends : phase ≠ .ended) : ∃ ps p ts t,
    marked Dispatcher.begins tr = ps ++ [p] ∧
      List.Forall₂ (fun p t => Serving p .stopping t) ps ts ∧ Serving p phase t ∧
      outputs Dispatcher.effects tr = (ts.map Transfer.whole).flatten ++ t.traffic := by
  subst hphase
  cases h with
  | rests ts hp => exact absurd hp (not_or.2 ⟨hwaits, hends⟩)
  | serves ts t hp hmarked hserved hserving hout =>
    obtain rfl := hp.resolve_right fun h => hends h.1
    exact ⟨_, _, ts, t, hmarked, hserved, hserving, hout⟩

theorem Logged.rest (h : Logged tr d) (hphase : d.phase = .waiting)
    (hmark : d.begins inp = false) (hout : d.effects inp = [])
    (hrests : d'.phase = .waiting ∨ d'.phase = .ended) : Logged ((d, inp) :: tr) d' := by
  obtain ⟨ts, hserved, houts⟩ := h.waiting hphase
  refine .rests ts hrests ?_ ?_
  · rwa [marked_of_not hmark]
  · rw [outputs, houts, hout, List.append_nil]

theorem Logged.order (h : Logged tr d) (hphase : d.phase = .waiting) (hmark : d.begins inp = true)
    (t : Transfer) (hserving : Serving (d, inp) d'.phase t) (hout : d.effects inp = t.traffic) :
    Logged ((d, inp) :: tr) d' := by
  obtain ⟨ts, hserved, houts⟩ := h.waiting hphase
  refine .serves ts t (.inl rfl) (marked_of_mark hmark) hserved hserving ?_
  rw [outputs, houts, hout]

theorem Logged.proceed {phase phase' : DispatcherPhase} (h : Logged tr d) (hphase : d.phase = phase)
    (hwaits : phase ≠ .waiting) (hends : phase ≠ .ended) (hmark : d.begins inp = false)
    (hd : d'.phase = phase' ∨ d'.phase = .ended ∧ phase' = .stopping)
    (hserving : ∀ p t, Serving p phase t → ∃ t', Serving p phase' t' ∧
      t'.traffic = t.traffic ++ d.effects inp) : Logged ((d, inp) :: tr) d' := by
  obtain ⟨ps, p, ts, t, hmarked, hserved, hold, houts⟩ := h.busy hphase hwaits hends
  obtain ⟨t', hnew, htraffic⟩ := hserving p t hold
  refine .serves ts t' hd ((marked_of_not hmark).trans hmarked) hserved hnew ?_
  rw [outputs, houts, htraffic, List.append_assoc]

theorem Logged.stop (h : Logged tr d) (hphase : d.phase = .stopping) (hmark : d.begins inp = false)
    (hout : d.effects inp = [.boxoffice (dispatcherMessage .s156)]) (hd : d'.phase = .waiting) :
    Logged ((d, inp) :: tr) d' := by
  obtain ⟨ps, p, ts, t, hmarked, hserved, hserving, houts⟩ := h.busy hphase (by simp) (by simp)
  refine .rests (ts ++ [t]) (.inl hd) ?_ ?_
  · rw [marked_of_not hmark, hmarked]
    exact List.rel_append hserved (.cons hserving .nil)
  · rw [outputs, houts, hout]
    simp [Transfer.whole]

theorem logged_step (hlog : Logged tr d) (hd : d.Poised) (h : d.next inp = some d') :
    Logged ((d, inp) :: tr) d' := by
  have hturned := turned_of_turn hd.waiting (turn_of_next h)
  have hbegins := hturned.begins_iff
  have hstops := hd.stopping
  generalize hout : d.effects inp = out at hturned
  cases hturned with
  | interrupted hphase =>
    rcases hphase with ⟨hphase, -⟩ | ⟨hphase, -⟩
    · exact hlog.rest hphase (by simpa using hbegins) hout (.inr rfl)
    · refine hlog.proceed hphase (by simp) (by simp) (by simp [← Bool.not_eq_true, hbegins])
        (.inr ⟨rfl, rfl⟩) fun p t ht => ⟨t, ht, by simp [hout]⟩
  | idles hphase hnone =>
    exact hlog.rest hphase (by simpa [hphase] using hbegins) hout (.inl hphase)
  | @sends text env signal status o hphase horder hnotifies hread =>
    refine hlog.order hphase (by simp [hbegins, hphase]) ⟨o.file.ops, [], 0⟩ ?_ ?_
    · exact .sending [] ⟨text, env, status, rfl, horder, hnotifies, hread, rfl⟩ (by simp; rfl)
    · simp [hout, Transfer.traffic]
  | @follows text env signal timing hphase horder =>
    refine hlog.order hphase (by simp [hbegins, hphase]) ⟨[], [], 0⟩ ?_ ?_
    · exact .follows 0 ⟨text, env, rfl, horder⟩
    · simp [hout, Transfer.traffic]
  | @package memory f header l hphase hmore =>
    refine hlog.proceed hphase (by simp) (by simp) (by simp [← Bool.not_eq_true, hbegins, hphase])
      (.inl rfl) fun p t ht => ⟨_, by simpa only [if_pos hmore] using ht.package memory, ?_⟩
    rw [hout, t.traffic_package _ ht.no_dummies]
  | @lastPackage memory f header l hphase hlast =>
    have hnot : ¬ (l.turn f).more = true := by simp [hlast]
    refine hlog.proceed hphase (by simp) (by simp) (by simp [← Bool.not_eq_true, hbegins, hphase])
      (.inl rfl) fun p t ht => ⟨_, by simpa only [if_neg hnot] using ht.package memory, ?_⟩
    rw [hout, t.traffic_package _ ht.no_dummies]
  | told hphase =>
    refine hlog.proceed hphase (by simp) (by simp) (by simp [← Bool.not_eq_true, hbegins, hphase])
      (.inl hphase) fun p t ht => ⟨_, ht.dummy, ?_⟩
    rw [hout, t.traffic_dummy, hstops hphase]
  | drops hphase =>
    refine hlog.proceed hphase (by simp) (by simp) (by simp [← Bool.not_eq_true, hbegins, hphase])
      (.inl hphase) fun p t ht => ⟨_, ht.dummy, ?_⟩
    rw [hout, t.traffic_dummy, hstops hphase]
  | waits hphase =>
    refine hlog.proceed hphase (by simp) (by simp) (by simp [← Bool.not_eq_true, hbegins, hphase])
      (.inl hphase) fun p t ht => ⟨_, ht.dummy, ?_⟩
    rw [hout, t.traffic_dummy, hstops hphase]
  | stops hphase =>
    exact hlog.stop hphase (by simp [← Bool.not_eq_true, hbegins, hphase]) hout rfl

end Logged

section Run

variable {d : Dispatcher} {status : Status} {signal : ℤ × ℤ}
  {tr : List (Dispatcher × DispatcherInput)} (hstatus : startsTransfer status = false)
  (hrun : Run Dispatcher.next (.initial status signal) tr d)
include hstatus hrun

/-- All that a dispatcher ever sends is what it was ordered to send, one order after the other. -/
theorem logged_of_run : Logged tr d := by
  induction hrun with
  | nil => exact .rests [] (.inl rfl) .nil rfl
  | snoc hrun hs ih => exact logged_step ih (poised_of_run hstatus hrun) hs

end Run

structure File.Records (f : File) (content : Bytes) : Prop where
  kept : f.deletedFile = false
  length : content.length = f.size.toNat
  max : f.size.toNat < 2 ^ 63

structure SendLoop.At (l : SendLoop) (content : Bytes) (offset dataSize : ℕ) : Prop where
  place : l.offset.toNat = offset
  sent : l.dataSize.toNat = dataSize
  file : l.file = ⟨content, false⟩
  more : l.more = true
  inside : offset ≤ content.length
  sum : dataSize ≤ offset

section Packages

variable {f : File} {content : Bytes} {l : SendLoop} {offset dataSize : ℕ}

theorem readFileData_more {size : ℕ} (hlen : content.length = size)
    (hmore : (readFileData content size offset).2 = true) :
    (readFileData content size offset).1.length = maximumFilePackageSize ∧
      offset + maximumFilePackageSize < content.length := by
  simp only [readFileData, decide_eq_true_eq, List.length_take, List.length_drop] at hmore ⊢
  split_ifs at hmore ⊢ <;> omega

theorem SendLoop.At.turn (hat : l.At content offset dataSize) (hf : f.Records content)
    {data : Bytes} {more : Bool} (hread : readFileData content f.size.toNat offset = (data, more)) :
    (f.readFileData l.file 4096 l.offset l.more).1 = data ∧ (l.turn f).more = more ∧
      (l.turn f).dataSize.toNat = dataSize + data.length ∧
      (more = true → (l.turn f).At content (offset + maximumFilePackageSize)
        (dataSize + data.length)) := by
  have hin : l.offset.toNat ≤ content.length := hat.place.trans_le hat.inside
  obtain ⟨data', fail, hcall, hdata, -, hfail⟩ :=
    readFileData_inside hf.kept hf.length hf.max 4096 hin l.more
  obtain ⟨fail', hpackage⟩ := readFileData_package hf.kept hf.length hf.max hin l.more
  rw [hat.place, hread] at hpackage
  rw [hat.place] at hfail
  obtain ⟨rfl, hmore⟩ : data' = data ∧ decide (l.offset.toNat + data'.length < content.length) =
      more := by
    rw [hcall] at hpackage
    exact ⟨congrArg Prod.fst hpackage, congrArg (fun x => x.2.1) hpackage⟩
  have hturn : l.turn f = ⟨l.offset + 4096, l.dataSize + UInt64.ofNat data'.length, more,
      ⟨content, fail⟩⟩ := by
    rw [SendLoop.turn, hat.file, hcall, ← hmore]
  have hle : data'.length ≤ content.length - offset := by
    rw [hdata, hat.place, List.length_take, List.length_drop]
    exact min_le_right _ _
  have hsum : (l.dataSize + UInt64.ofNat data'.length).toNat = dataSize + data'.length := by
    have hmax := hf.max
    have hinside := hat.inside
    have hless := hat.sum
    have hlen := hf.length
    rw [UInt64.toNat_add, UInt64.toNat_ofNat', hat.sent]
    omega
  refine ⟨by rw [hat.file, hcall], by rw [hturn], by rw [hturn, hsum], fun h => ?_⟩
  have hwhole := readFileData_more hf.length (by rw [hread]; exact h)
  rw [hread] at hwhole
  obtain ⟨hpack, hbefore⟩ : data'.length = maximumFilePackageSize ∧
    offset + maximumFilePackageSize < content.length := hwhole
  rw [hmore.symm, decide_eq_true_eq, hat.place] at h
  rw [hturn, hfail h]
  refine ⟨?_, hsum, rfl, ?_, hbefore.le, ?_⟩
  · have h4096 : (4096 : UInt64).toNat = maximumFilePackageSize := rfl
    have hmax := hf.max
    have hlen := hf.length
    rw [UInt64.toNat_add, h4096, hat.place, Nat.mod_eq_of_lt (by omega)]
  · rw [← hmore, decide_eq_true_eq, hat.place]
    exact h
  · have hless := hat.sum
    omega

theorem loopMessages_eq (hf : f.Records content) {memory : ℕ → Bytes} {memories : List Bytes}
    (hat : l.At content offset dataSize)
    (hmemory : ∀ k, memory (offset + maximumFilePackageSize * k) = memories.getD k [])
    (hturns : ∀ k < memories.length, ((SendLoop.turn f)^[k] l).more = true)
    (hlast : ((SendLoop.turn f)^[memories.length] l).more = false) (header : Bytes) :
    loopMessages f header l memories =
      sendPackages content f.size.toNat memory header offset dataSize := by
  induction memories generalizing l offset dataSize header with
  | nil =>
    rw [List.length_nil, Function.iterate_zero_apply, hat.more] at hlast
    exact absurd hlast (by decide)
  | cons first later ih =>
    rcases hread : readFileData content f.size.toNat offset with ⟨data, more⟩
    obtain ⟨hdata, hmore, hsum, hnext⟩ := hat.turn hf hread
    have hfirst : memory offset = first := by simpa using hmemory 0
    rw [loopMessages, sendPackages, SendLoop.message, hread, hdata, hmore, hsum, hat.place, hfirst]
    congr 1
    cases more with
    | true =>
      rw [if_pos rfl]
      refine ih (hnext rfl) (fun k => ?_) (fun k hk => ?_) ?_ []
      · have hplace := hmemory (k + 1)
        rw [Nat.mul_add, Nat.mul_one, Nat.add_comm _ maximumFilePackageSize, ← Nat.add_assoc]
          at hplace
        exact hplace
      · exact hturns (k + 1) (by simpa using hk)
      · exact hlast
    | false =>
      -- a turn that clears the flag is the last
      rw [if_neg (by simp)]
      cases later with
      | nil => rfl
      | cons second rest =>
        have hsecond := hturns 1 (by simp)
        rw [Function.iterate_one, hmore] at hsecond
        exact absurd hsecond (by decide)

end Packages

def DispatcherEffect.notice : DispatcherEffect → Option Bytes
  | .boxoffice text => some text
  | _ => none

theorem Transfer.notices_traffic (t : Transfer) :
    t.traffic.filterMap DispatcherEffect.notice = [dispatcherMessage .s132] := by
  have hquiet : ∀ e ∈ t.ops.map DispatcherEffect.disk ++ (t.packages.map .publisher ++
      List.replicate t.dummies (.publisher (sendFakeData .s210))),
      DispatcherEffect.notice e = none := by
    simp only [List.mem_append, List.mem_map, List.mem_replicate]
    rintro e (⟨op, -, rfl⟩ | ⟨text, -, rfl⟩ | ⟨-, rfl⟩) <;> rfl
  have hfirst : (DispatcherEffect.boxoffice (dispatcherMessage .s132)).notice =
    some (dispatcherMessage .s132) := rfl
  rw [Transfer.traffic, List.filterMap_cons_some hfirst, List.filterMap_eq_nil_iff.2 hquiet]

theorem notices_whole (ts : List Transfer) :
    (ts.map Transfer.whole).flatten.filterMap DispatcherEffect.notice = (List.replicate ts.length
      [dispatcherMessage .s132, dispatcherMessage .s156]).flatten := by
  induction ts with
  | nil => rfl
  | cons t ts ih =>
    rw [List.map_cons, List.flatten_cons, List.filterMap_append, ih, Transfer.whole,
      List.filterMap_append, t.notices_traffic, List.length_cons, List.replicate_succ,
      List.flatten_cons]
    rfl

theorem OrdersFile.unique {p : Dispatcher × DispatcherInput} {o o' : Order} {file file' : OpenFile}
    (h : OrdersFile p o file) (h' : OrdersFile p o' file') : o' = o ∧ file' = file := by
  obtain ⟨text, env, status, htext, -, -, hread, rfl⟩ := h
  obtain ⟨text', env', status', htext', -, -, hread', rfl⟩ := h'
  obtain ⟨rfl, rfl⟩ := DispatcherInput.message.inj (htext'.symm.trans htext)
  exact ⟨Option.some.inj (hread'.symm.trans hread), rfl⟩

theorem OrdersFile.not_dummies {p : Dispatcher × DispatcherInput} {o : Order} {file : OpenFile}
    (h : OrdersFile p o file) : ¬ OrdersDummies p := by
  obtain ⟨text, env, status, htext, horder, hnotifies, -, -⟩ := h
  rintro ⟨text', env', htext', horder'⟩
  obtain ⟨rfl, rfl⟩ := DispatcherInput.message.inj (htext'.symm.trans htext)
  obtain rfl := Option.some.inj (horder.symm.trans horder')
  exact absurd hnotifies (by decide)

theorem Serving.of_file {p : Dispatcher × DispatcherInput} {o : Order} {file : OpenFile}
    {t : Transfer} (h : Serving p .stopping t) (hfile : OrdersFile p o file) :
    ∃ memories dummies,
      (∀ k < memories.length, (SendLoop.after o.file.file file k).more = true) ∧
      (SendLoop.after o.file.file file memories.length).more = false ∧
      t = ⟨o.file.ops, loopMessages o.file.file (statusHeader .s200) (.opened file) memories,
        dummies⟩ := by
  generalize hphase : DispatcherPhase.stopping = phase at h
  cases h with
  | sending => cases hphase
  | sent memories dummies hfile' hturns hlast =>
    obtain ⟨rfl, rfl⟩ := hfile.unique hfile'
    exact ⟨memories, dummies, hturns, hlast, rfl⟩
  | follows dummies hfollows => exact absurd hfollows hfile.not_dummies

theorem SendLoop.opened_at (content : Bytes) : (SendLoop.opened ⟨content, false⟩).At content 0 0 :=
  ⟨rfl, rfl, rfl, rfl, Nat.zero_le _, le_rfl⟩

section Run

variable {d : Dispatcher} {status : Status} {signal : ℤ × ℤ}
  {tr : List (Dispatcher × DispatcherInput)} (hstatus : startsTransfer status = false)
  (hrun : Run Dispatcher.next (.initial status signal) tr d)
include hstatus hrun

/-- What was sent is the transfers of the orders that were obeyed, one after the other: all but the
last of them whole, and the last one as far as the dispatcher has come with it. -/
theorem traffic_of_run : ∃ (ps qs : List (Dispatcher × DispatcherInput)) (ts current : List Transfer),
    marked Dispatcher.begins tr = ps ++ qs ∧ current.length ≤ 1 ∧
    outputs Dispatcher.effects tr =
      (ts.map Transfer.whole).flatten ++ (current.map Transfer.traffic).flatten ∧
    List.Forall₂ (fun p t => Serving p .stopping t) ps ts ∧
    List.Forall₂ (fun p t => Serving p d.phase t ∨ d.phase = .ended ∧ Serving p .stopping t) qs
      current := by
  cases logged_of_run hstatus hrun with
  | rests ts hphase hserved hout =>
    exact ⟨_, [], ts, [], (List.append_nil _).symm, Nat.zero_le _, by simp [hout], hserved, .nil⟩
  | @serves ps p phase ts t hphase hmarked hserved hserving hout =>
    refine ⟨ps, [p], ts, [t], hmarked, le_rfl, by simp [hout], hserved, .cons ?_ .nil⟩
    rcases hphase with rfl | ⟨hended, rfl⟩
    · exact .inl hserving
    · exact .inr ⟨hended, hserving⟩

/-- The boxoffice is told 132 and 156 in turn, and a 132 for every order that is obeyed. -/
theorem notices_of_run : ∃ (n : ℕ) (busy : Bool),
    (outputs Dispatcher.effects tr).filterMap DispatcherEffect.notice =
      (List.replicate n [dispatcherMessage .s132, dispatcherMessage .s156]).flatten ++
        (if busy then [dispatcherMessage .s132] else []) ∧
    (marked Dispatcher.begins tr).length = n + busy.toNat ∧
    (d.phase = .waiting → busy = false) ∧ (d.phase = .stopping → busy = true) := by
  cases logged_of_run hstatus hrun with
  | rests ts hphase hserved hout =>
    refine ⟨ts.length, false, ?_, ?_, fun _ => rfl, fun h => ?_⟩
    · rw [hout, notices_whole]
      simp
    · simpa using hserved.length_eq
    · simp [h] at hphase
  | serves ts t hphase hmarked hserved hserving hout =>
    refine ⟨ts.length, true, ?_, ?_, fun h => ?_, fun _ => rfl⟩
    · rw [hout, List.filterMap_append, notices_whole, t.notices_traffic]
      simp
    · rw [hmarked, List.length_append, hserved.length_eq]
      rfl
    · rw [h] at hphase
      rcases hphase with rfl | ⟨hphase, -⟩
      · cases hserving
      · cases hphase

/-- Of a file whose record is right its content is sent, however the polls go, and what fits a
package is what the routers of the peers read. -/
theorem content_of_run {p : Dispatcher × DispatcherInput} {o : Order} {content : Bytes}
    (hphase : d.phase = .stopping) (hlast : (marked Dispatcher.begins tr).getLast? = some p)
    (hfile : OrdersFile p o ⟨content, false⟩) (hrecord : o.file.file.Records content) :
    ∃ earlier memory dummies, outputs Dispatcher.effects tr = earlier ++
      (⟨o.file.ops, sendPackages content content.length memory (statusHeader .s200) 0 0,
        dummies⟩ : Transfer).traffic ∧
      (content.length ≤ maximumFilePackageSize → ∀ uid : Hash, uid.Undigit →
        ∀ pub sub router, received content memory uid pub sub router =
          (filePackages 0 content).map some) := by
  obtain ⟨ps, q, ts, t, hmarked, -, hserving, hout⟩ :=
    (logged_of_run hstatus hrun).busy hphase (by simp) (by simp)
  obtain rfl : q = p := by simpa [hmarked] using hlast
  obtain ⟨memories, dummies, hturns, hclear, rfl⟩ := hserving.of_file hfile
  let memory (offset : ℕ) : Bytes := memories.getD (offset / maximumFilePackageSize) []
  have hmemory : ∀ k, memory (0 + maximumFilePackageSize * k) = memories.getD k [] := by
    intro k
    simp only [memory, Nat.zero_add,
      Nat.mul_div_cancel_left k (by decide : 0 < maximumFilePackageSize)]
  have hpackages := loopMessages_eq hrecord (SendLoop.opened_at content) hmemory hturns hclear
    (statusHeader .s200)
  rw [hpackages, ← hrecord.length] at hout
  exact ⟨_, memory, dummies, hout, fun hshort uid huid _ _ _ => received_of_short huid hshort⟩

/-- A file that is marked as deleted, or too large for the offsets, is never done with, whether its
stream could be opened or not: the dispatcher does not listen again. -/
theorem stuck_of_run {p : Dispatcher × DispatcherInput} {o : Order} {file : OpenFile}
    (hlast : (marked Dispatcher.begins tr).getLast? = some p) (hfile : OrdersFile p o file)
    (hendless : o.file.file.deletedFile = true ∨
      2 ^ 64 - maximumFilePackageSize < o.file.file.size.toNat) :
    ∃ header l, d.phase = .sending o.file.file header l := by
  have hnever (t : Transfer) : ¬ Serving p .stopping t := by
    intro hserving
    obtain ⟨memories, dummies, -, hclear, -⟩ := hserving.of_file hfile
    have hmore : (SendLoop.after o.file.file file memories.length).more = true := by
      rcases hendless with hdeleted | hlarge
      · exact more_of_deleted hdeleted file _
      · exact more_of_large hlarge file _
    exact absurd (hmore.symm.trans hclear) (by decide)
  cases logged_of_run hstatus hrun with
  | rests ts _ hserved hout =>
    obtain ⟨earlier, hmarked⟩ := List.getLast?_eq_some_iff.1 hlast
    have htail := List.forall₂_drop earlier.length hserved
    rw [hmarked, List.drop_left] at htail
    obtain ⟨t, _, hserving, -, -⟩ := List.forall₂_cons_left_iff.1 htail
    exact absurd hserving (hnever t)
  | @serves ps q phase ts t hphase hmarked _ hserving hout =>
    obtain rfl : q = p := by simpa [hmarked] using hlast
    cases hserving with
    | @sending o' file' memories hfile' hturns =>
      obtain ⟨rfl, rfl⟩ := hfile.unique hfile'
      exact ⟨_, _, hphase.resolve_right (by simp)⟩
    | sent memories dummies hfile' hturns hclear =>
      exact absurd (.sent memories dummies hfile' hturns hclear) (hnever _)
    | follows dummies hfollows => exact absurd hfollows hfile.not_dummies

end Run

theorem traffic_of_run_transfer :
    ∃ (ps qs : List (Dispatcher × DispatcherInput)) (ts current : List Transfer),
    marked Dispatcher.begins (record Dispatcher.next Sample.dispatcher Sample.transfer []) =
      ps ++ qs ∧ current.length ≤ 1 ∧
    outputs Dispatcher.effects (record Dispatcher.next Sample.dispatcher Sample.transfer []) =
      (ts.map Transfer.whole).flatten ++ (current.map Transfer.traffic).flatten ∧
    List.Forall₂ (fun p t => Serving p .stopping t) ps ts ∧
    List.Forall₂ (fun p t =>
        Serving p (after Dispatcher.next Sample.dispatcher Sample.transfer).phase t ∨
        (after Dispatcher.next Sample.dispatcher Sample.transfer).phase = .ended ∧
          Serving p .stopping t) qs current :=
  traffic_of_run (by decide) Sample.run_transfer

theorem notices_of_run_transfer : ∃ (n : ℕ) (busy : Bool),
    (outputs Dispatcher.effects (record Dispatcher.next Sample.dispatcher Sample.transfer [])).filterMap
        DispatcherEffect.notice =
      (List.replicate n [dispatcherMessage .s132, dispatcherMessage .s156]).flatten ++
        (if busy then [dispatcherMessage .s132] else []) ∧
    (marked Dispatcher.begins (record Dispatcher.next Sample.dispatcher Sample.transfer [])).length =
      n + busy.toNat ∧
    ((after Dispatcher.next Sample.dispatcher Sample.transfer).phase = .waiting → busy = false) ∧
    ((after Dispatcher.next Sample.dispatcher Sample.transfer).phase = .stopping → busy = true) :=
  notices_of_run (by decide) Sample.run_transfer

namespace Sample

def sending (f : File) : Dispatcher := after Dispatcher.next dispatcher [ordered f]

def stopping : Dispatcher := after Dispatcher.next dispatcher [ordered blankFile, .package []]

theorem run_ordered {f : File} (h : (runAll Dispatcher.next dispatcher [ordered f]).isSome = true) :
    Run Dispatcher.next dispatcher [(dispatcher, ordered f)] (sending f) :=
  Run.nil.snoc (next_after [] h)

theorem ordersFile {f : File} (horder : dispatcher.orderIn
      (fsmMessage .s122 (orderPayload 5000 (.fill space) dir f)) = some .s122) {o : Order}
    (hread : dispatcherOrder .s100 (0, 0) (fsmMessage .s122 (orderPayload 5000 (.fill space) dir f))
      env.fs = some o) : OrdersFile (dispatcher, ordered f) o ⟨[1, 2, 3, 4, 5], false⟩ :=
  ⟨_, dispatcherEnv 4000, .s122, rfl, horder, by decide, hread, rfl⟩

end Sample

theorem content_of_run_blankFile : ∃ o : Order, ∃ earlier memory dummies,
    outputs Dispatcher.effects
        [(Sample.sending Sample.blankFile, .package []), (Sample.dispatcher, Sample.ordered
          Sample.blankFile)] = earlier ++
      (⟨o.file.ops, sendPackages [1, 2, 3, 4, 5] 5 memory (statusHeader .s200) 0 0,
        dummies⟩ : Transfer).traffic ∧
      (5 ≤ maximumFilePackageSize → ∀ uid : Hash, uid.Undigit →
        ∀ pub sub router, received [1, 2, 3, 4, 5] memory uid pub sub router =
          (filePackages 0 [1, 2, 3, 4, 5]).map some) := by
  have hread : (dispatcherOrder .s100 (0, 0)
      (fsmMessage .s122 (orderPayload 5000 (.fill space) Sample.dir Sample.blankFile))
        Sample.env.fs).map (fun o => (o.file.file.deletedFile, o.file.file.size)) =
      some (false, 5) := by
    decide +kernel
  obtain ⟨o, ho, hfields⟩ := Option.map_eq_some_iff.1 hread
  obtain ⟨hkept, hsize⟩ := Prod.mk.inj hfields
  have hrecord : o.file.file.Records [1, 2, 3, 4, 5] :=
    ⟨hkept, by rw [hsize]; rfl, by rw [hsize]; decide⟩
  have hnext : (Sample.sending Sample.blankFile).next (.package []) = some Sample.stopping :=
    next_after [Sample.ordered Sample.blankFile] (by decide +kernel)
  have hrun := (Sample.run_ordered (f := Sample.blankFile) (by decide +kernel)).snoc hnext
  have hphase : Sample.stopping.phase = .stopping :=
    DispatcherPhase.isStopping_iff.1 (by decide +kernel)
  have hlast : (marked Dispatcher.begins
      [(Sample.sending Sample.blankFile, .package []), (Sample.dispatcher, Sample.ordered
        Sample.blankFile)]).getLast? = some (Sample.dispatcher, Sample.ordered Sample.blankFile) := by
    rw [marked_of_not (by decide +kernel), marked_of_mark (by decide +kernel)]
    rfl
  exact ⟨o, content_of_run (by decide) hrun hphase hlast
    (Sample.ordersFile (by decide +kernel) ho) hrecord⟩

theorem stuck_of_run_deleted : ∃ o : Order, ∃ header l,
    (Sample.sending { Sample.blankFile with deletedFile := true }).phase =
      .sending o.file.file header l := by
  have hread : (dispatcherOrder .s100 (0, 0) (fsmMessage .s122 (orderPayload 5000 (.fill space)
      Sample.dir { Sample.blankFile with deletedFile := true })) Sample.env.fs).map
        (fun o => o.file.file.deletedFile) = some true := by
    decide +kernel
  obtain ⟨o, ho, hdeleted⟩ := Option.map_eq_some_iff.1 hread
  have hrun := Sample.run_ordered (f := { Sample.blankFile with deletedFile := true })
    (by decide +kernel)
  have hlast : (marked Dispatcher.begins [(Sample.dispatcher,
      Sample.ordered { Sample.blankFile with deletedFile := true })]).getLast? =
        some (Sample.dispatcher, Sample.ordered { Sample.blankFile with deletedFile := true }) := by
    rw [marked_of_mark (by decide +kernel)]
    rfl
  exact ⟨o, stuck_of_run (by decide) hrun hlast (Sample.ordersFile (by decide +kernel) ho)
    (.inl hdeleted)⟩

end Flocksy
