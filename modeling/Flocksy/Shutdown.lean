import Flocksy.Foundation.Outputs
import Flocksy.InotifyMessages
import Flocksy.SocketPolls
import Flocksy.StartUp

/-!
# The shutdown

After a signal `main` sends an interrupt to the boxoffice and one on the broadcast. A loop that
takes it from its poller alone breaks and reports its exit; a loop that takes it together with
another message reads something else, and goes on. The boxoffice leaves its router loop, counts as
many messages as it has threads, and joins them. What the loops do with the other messages is left
open: messages come in at any time, and a thread in the body of its loop may notify the boxoffice,
and may stay there. A dispatcher may have to: its sends wait for ever once its publisher has ended,
and its file loop need not end. Every thread has come up, no exception ends a loop, and no queue is
full.
-/

namespace Flocksy

open ByteStream Fsm Runs

/-- What `main` sends to the boxoffice and on the broadcast. -/
def interruptMessage : Bytes := signalPrefix sigtypeLife siglifeInterrupt

/-- The number of sockets a loop polls. A box polls its inotify descriptor in the place of one, and
nothing is ever sent to its third. -/
def ChildKind.sockets : ChildKind → ℕ
  | .publisher => 4
  | .box => 2
  | _ => 3

/-- How many of them `s_recv` tests before `z_broadcast`. -/
def ChildKind.before : ChildKind → ℕ
  | .heartbeater => 2
  | .dispatcher => 2
  | _ => 1

theorem ChildKind.before_lt (kind : ChildKind) : kind.before < kind.sockets := by
  cases kind <;> decide

def ChildKind.broadcast (kind : ChildKind) : Fin kind.sockets := ⟨kind.before, kind.before_lt⟩

def breaks (old : ℤ × ℤ) (text : Bytes) : Bool :=
  interrupts (readSignal old text).1 (readSignal old text).2.1

/-- What all other messages begin with: the digit of a type or a status. -/
def Numbered : Bytes → Prop
  | [] => False
  | b :: _ => isDigit b = true ∧ b ≠ 48

instance : (text : Bytes) → Decidable (Numbered text)
  | [] => inferInstanceAs (Decidable False)
  | b :: _ => inferInstanceAs (Decidable (isDigit b = true ∧ b ≠ 48))

section Read

variable {text : Bytes} (old : ℤ × ℤ)

theorem extractInt_fst {s : Stream} (old : ℤ) (hgood : s.good = true) {b : UInt8} {bs : Bytes}
    (hrest : s.rest.dropWhile isSpace = b :: bs) (hdigit : isDigit b = true) :
    (s.extractInt old).1 =
      ((min (digitsValue ((b :: bs).takeWhile isDigit)) Stream.intMax : ℕ) : ℤ) := by
  have hsign : b ≠ 45 ∧ b ≠ 43 := by
    constructor <;> rintro rfl <;> simp [isDigit] at hdigit
  have hskip : s.skipSpace.rest = b :: bs := (Stream.skipSpace_rest s).trans hrest
  simp [Stream.extractInt, hgood, hskip, hsign, hdigit]

theorem Numbered.append (h : Numbered text) (after : Bytes) : Numbered (text ++ after) := by
  cases text with
  | nil => exact h.elim
  | cons b bs => exact h

theorem Numbered.not_breaks (h : Numbered text) : breaks old text = false := by
  cases text with
  | nil => exact h.elim
  | cons b cs =>
    obtain ⟨hdigit, hzero⟩ := h
    have htype : (readSignal old (b :: cs)).1 = _ :=
      extractInt_fst (s := Stream.ofBytes (b :: cs)) old.1 rfl
        (List.dropWhile_cons_of_neg (by simp [isSpace_of_digit hdigit])) hdigit
    have hvalue : 0 < digitsValue ((b :: cs).takeWhile isDigit) := by
      rw [List.takeWhile_cons_of_pos hdigit, digitsValue, List.foldl_cons]
      refine lt_of_lt_of_le ?_ (le_foldl_digits _ _)
      rw [isDigit_iff] at hdigit
      have hne : b.toNat ≠ 48 := fun h => hzero (UInt8.toNat_inj.1 h)
      omega
    have hmax : 0 < Stream.intMax := by decide
    have htype' : (readSignal old (b :: cs)).1 ≠ sigtypeLife := by
      rw [htype]
      simp only [sigtypeLife]
      omega
    simp [breaks, interrupts, htype']

theorem breaks_interruptMessage : breaks old interruptMessage = true := rfl

/-- What follows makes the signal another number. -/
theorem Numbered.not_breaks_behind (h : Numbered text) :
    breaks old (interruptMessage ++ text) = false := by
  cases text with
  | nil => exact h.elim
  | cons b cs =>
    obtain ⟨hdigit, -⟩ := h
    have hfirst : (Stream.ofBytes (interruptMessage ++ b :: cs)).extractInt old.1 =
        (0, Stream.cursor [48] (space :: 50 :: b :: cs)) := by
      rw [Stream.ofBytes_eq_cursor]
      exact @Stream.extractInt_cursor 0 (by decide) [] (space :: 50 :: b :: cs) old.1 (by simp)
        (by simp) (by simp; decide) []
    have hsignal : ((Stream.cursor [48] (space :: 50 :: b :: cs)).extractInt old.2).1 = _ :=
      extractInt_fst old.2 rfl (by rw [Stream.cursor_rest]; rfl) rfl
    have hvalue : 2 < digitsValue ((50 :: b :: cs).takeWhile isDigit) := by
      have hdigits : (50 :: b :: cs).takeWhile isDigit =
          decimal 2 ++ (b :: cs).takeWhile isDigit := rfl
      rw [hdigits]
      exact lt_digitsValue_append (by decide) (by rw [List.takeWhile_cons_of_pos hdigit]; simp)
    have hmax : 2 < Stream.intMax := by decide
    have hsignal' : (readSignal old (interruptMessage ++ b :: cs)).2.1 ≠ siglifeInterrupt := by
      rw [readSignal, hfirst]
      simp only [hsignal, siglifeInterrupt]
      omega
    simp [breaks, interrupts, hsignal']

end Read

section Poll

variable {n : ℕ} {p : Pending n}

theorem numbered_heads {sockets : List (Fin n)} (h : ∀ i ∈ sockets, ∀ text ∈ p i, Numbered text) :
    (∀ i ∈ sockets, p i = []) ∧ (sockets.map fun i => (p i).headD []).flatten = [] ∨
      (∃ i ∈ sockets, p i ≠ []) ∧ Numbered (sockets.map fun i => (p i).headD []).flatten := by
  induction sockets with
  | nil => simp
  | cons i sockets ih =>
    rw [List.forall_mem_cons] at h
    rw [List.map_cons, List.flatten_cons]
    cases hpending : p i with
    | nil =>
      rcases ih h.2 with ⟨hnone, hflat⟩ | ⟨⟨k, hk, hsome⟩, hnumbered⟩
      · exact .inl ⟨List.forall_mem_cons.2 ⟨hpending, hnone⟩, (List.nil_append _).trans hflat⟩
      · exact .inr ⟨⟨k, List.mem_cons_of_mem _ hk, hsome⟩, hnumbered⟩
    | cons text texts =>
      have hnumbered : Numbered text := h.1 text (by simp [hpending])
      exact .inr ⟨⟨i, List.mem_cons_self, by simp [hpending]⟩, hnumbered.append _⟩

/-- A loop breaks at a poll if and only if it takes the interrupt, and nothing else. -/
theorem breaks_iff {b : Fin n} (hothers : ∀ i, i ≠ b → ∀ text ∈ p i, Numbered text)
    (hbroadcast : ∀ text ∈ p b, text = interruptMessage) {p' : Pending n} {text : Bytes}
    (hpoll : pollAll p = some (p', text)) (old : ℤ × ℤ) :
    breaks old text = true ↔ p b ≠ [] ∧ ∀ i, i ≠ b → p i = [] := by
  rw [pollAll_eq] at hpoll
  split_ifs at hpoll with hread
  obtain ⟨-, rfl⟩ := Prod.mk.inj (Option.some.inj hpoll)
  obtain ⟨before, after, hsplit⟩ := List.append_of_mem (List.mem_finRange b)
  have hnodup := List.nodup_finRange n
  rw [hsplit, List.nodup_middle, List.nodup_cons, List.mem_append, not_or] at hnodup
  obtain ⟨⟨hbefore, hafter⟩, -⟩ := hnodup
  have hne_before : ∀ i ∈ before, i ≠ b := fun i hi h => hbefore (h ▸ hi)
  have hne_after : ∀ i ∈ after, i ≠ b := fun i hi h => hafter (h ▸ hi)
  have hfront := numbered_heads fun i hi => hothers i (hne_before i hi)
  have hback := numbered_heads fun i hi => hothers i (hne_after i hi)
  rw [hsplit, List.map_append, List.map_cons, List.flatten_append, List.flatten_cons]
  rcases hfront with ⟨hfront, hflat⟩ | ⟨⟨i, hi, hsome⟩, hnumbered⟩
  · rw [hflat, List.nil_append]
    have hnone (hback : ∀ i ∈ after, p i = []) : ∀ i, i ≠ b → p i = [] := by
      intro i hi
      have hmem := List.mem_finRange i
      rw [hsplit, List.mem_append, List.mem_cons] at hmem
      exact hmem.elim (hfront i) fun h => h.elim (absurd · hi) (hback i)
    cases hpending : p b with
    | nil =>
      rcases hback with ⟨hback, -⟩ | ⟨-, hnumbered⟩
      · obtain ⟨i, hi⟩ := hread
        have hempty : p i = [] := by
          by_cases hib : i = b
          · rw [hib, hpending]
          · exact hnone hback i hib
        simp [Pending.readable, hempty] at hi
      · rw [List.headD_nil, List.nil_append, hnumbered.not_breaks]
        simp
    | cons m ms =>
      obtain rfl := hbroadcast m (by simp [hpending])
      rw [List.headD_cons]
      rcases hback with ⟨hback, hflat⟩ | ⟨⟨i, hi, hsome⟩, hnumbered⟩
      · rw [hflat, List.append_nil, breaks_interruptMessage]
        simpa using hnone hback
      · rw [hnumbered.not_breaks_behind]
        simpa using ⟨i, hne_after i hi, hsome⟩
  · rw [(hnumbered.append _).not_breaks]
    simpa using fun _ => ⟨i, hne_before i hi, hsome⟩

end Poll

/-- Where a thread is: at a poll of its loop, in the body, or behind the loop. The waits of
`Dispatcher::synchronizingStop` that time out belong to the body of the poll before them. -/
inductive LoopPhase where
  | polling | working | ended
  deriving DecidableEq

structure Loop (kind : ChildKind) where
  sockets : Pending kind.sockets
  phase : LoopPhase

namespace Loop

variable {kind : ChildKind}

def start (kind : ChildKind) : Loop kind := ⟨fun _ => [], .polling⟩

def running (loop : Loop kind) : Bool := loop.phase ≠ .ended

theorem running_iff {loop : Loop kind} : loop.running = true ↔ loop.phase ≠ .ended :=
  decide_eq_true_iff

def hear (loop : Loop kind) (i : Fin kind.sockets) (text : Bytes) : Loop kind :=
  { loop with sockets := Function.update loop.sockets i (loop.sockets i ++ [text]) }

def poll (loop : Loop kind) (old : ℤ × ℤ) : Option (Loop kind) :=
  if loop.phase = .polling then
    (pollAll loop.sockets).map fun x => ⟨x.1, if breaks old x.2 then .ended else .working⟩
  else none

def finish (loop : Loop kind) : Option (Loop kind) :=
  if loop.phase = .working then some { loop with phase := .polling } else none

@[simp] theorem hear_self (loop : Loop kind) (i : Fin kind.sockets) (text : Bytes) :
    (loop.hear i text).sockets i = loop.sockets i ++ [text] := Function.update_self _ _ _

theorem hear_of_ne (loop : Loop kind) {i k : Fin kind.sockets} (text : Bytes) (h : k ≠ i) :
    (loop.hear i text).sockets k = loop.sockets k := Function.update_of_ne h _ _

def warnings (loop : Loop kind) : List Bytes := loop.sockets kind.broadcast

theorem poll_eq {loop loop' : Loop kind} {old : ℤ × ℤ} (h : loop.poll old = some loop') :
    loop.phase = .polling ∧ loop'.phase ≠ .polling ∧
      loop'.sockets = fun i => (loop.sockets i).tail := by
  simp only [poll, pollAll_eq] at h
  split_ifs at h with hpolling hread
  · obtain rfl := Option.some.inj h
    refine ⟨hpolling, ?_, rfl⟩
    dsimp only
    split_ifs <;> simp
  · simp at h

theorem finish_eq {loop loop' : Loop kind} (h : loop.finish = some loop') :
    loop.phase = .working ∧ loop' = { loop with phase := .polling } := by
  rw [finish] at h
  split_ifs at h with hworking
  exact ⟨hworking, (Option.some.inj h).symm⟩

def left (loop : Loop kind) : ℕ :=
  2 * loop.warnings.length + if loop.phase = .working then 1 else 0

theorem left_poll {loop loop' : Loop kind} {old : ℤ × ℤ} (h : loop.poll old = some loop')
    (hwarned : loop.warnings ≠ []) :
    loop'.left + (if loop'.running then 0 else 1) + 1 ≤ loop.left := by
  obtain ⟨hpolling, -, hsockets⟩ := poll_eq h
  have hlength : loop'.warnings.length + 1 = loop.warnings.length := by
    rw [warnings, hsockets, List.length_tail]
    exact Nat.sub_add_cancel (List.length_pos_of_ne_nil hwarned)
  have hphase :
      (if loop'.phase = .working then 1 else 0) + (if loop'.running then 0 else 1) ≤ 1 := by
    simp only [running_iff]
    split_ifs <;> simp_all
  simp only [left, hpolling, reduceCtorEq, if_false]
  omega

theorem left_finish {loop loop' : Loop kind} (h : loop.finish = some loop') :
    loop'.left + 1 = loop.left := by
  obtain ⟨hworking, rfl⟩ := finish_eq h
  simp [left, hworking, warnings]

/-- Something else waits beside an interrupt. -/
def Merges (loop : Loop kind) : Prop :=
  loop.warnings ≠ [] ∧ ∃ i, i ≠ kind.broadcast ∧ loop.sockets i ≠ []

end Loop

/-- Where `Boxoffice::initialize` has got to: in `runRouter`; in `closeConnections`, with so many
messages received; behind it; or out of it by an exception. -/
inductive RouterPhase where
  | routing
  | closing (heartbeats : ℕ)
  | closed
  | crashed
  deriving DecidableEq

inductive MainPhase where
  | waiting | interrupted | returned
  deriving DecidableEq

/-- The process after `checkChildren`. `router`, `pair` and `broadcast` are what waits on
`z_router`, `z_bo_main` and `z_broadcast` of the boxoffice. -/
structure Process (t : Threads) where
  boxoffice : Boxoffice
  phase : RouterPhase
  router : List Bytes
  pair : List Bytes
  broadcast : List Bytes
  loop : (c : t.Child) → Loop c.1
  main : MainPhase

inductive ProcessInput (t : Threads) where
  | arrives (c : t.Child) (i : Fin c.1.sockets) (text : Bytes)
  | notifies (c : t.Child) (text : Bytes)
  | polls (c : t.Child) (old : ℤ × ℤ)
  | finishes (c : t.Child)
  | signals
  | turns (old : ℤ × ℤ) (env : Env)
  | returns

namespace Process

variable {t : Threads}

def initial (t : Threads) (bo : Boxoffice) : Process t :=
  ⟨bo, .routing, [], [], [], fun c => .start c.1, .waiting⟩

/-- After a message `runRouter` goes on or returns; `none` is its break. -/
def follow (s : Process t) : Option Outcome → Process t
  | none => { s with phase := .closing 0 }
  | some (.returned 0 bo _) => { s with boxoffice := bo }
  | some (.returned _ bo _) => { s with boxoffice := bo, phase := .closing 0 }
  | some (.fault _) => { s with phase := .crashed }

/-- A turn of `runRouter`. -/
def routerTurn (s : Process t) (old : ℤ × ℤ) (env : Env) : Option (Process t) :=
  (sRecv2 ![s.router, s.pair]).map fun x =>
    { s with router := x.1 ⟨0, Nat.two_pos⟩, pair := x.1 ⟨1, Nat.one_lt_two⟩ }.follow
      (runRouterStep s.boxoffice old x.2 env)

/-- A turn of `closeConnections`, or the join of all threads behind its loop. -/
def closingTurn (s : Process t) (heartbeats : ℕ) : Option (Process t) :=
  if heartbeats < t.heartbeats then
    (sRecv2 ![s.router, s.broadcast]).map fun x =>
      { s with
        router := x.1 ⟨0, Nat.two_pos⟩
        broadcast := x.1 ⟨1, Nat.one_lt_two⟩
        phase := .closing (heartbeats + 1) }
  else if ∀ c, (s.loop c).running = false then some { s with phase := .closed } else none

def next (s : Process t) : ProcessInput t → Option (Process t)
  | .arrives c i text =>
    if i ≠ c.1.broadcast ∧ Numbered text then
      some { s with loop := Function.update s.loop c ((s.loop c).hear i text) }
    else none
  | .notifies c text =>
    if (s.loop c).phase = .working ∧ Numbered text then
      some { s with router := s.router ++ [text] }
    else none
  | .polls c old => ((s.loop c).poll old).map fun loop => { s with
      loop := Function.update s.loop c loop
      router := s.router ++ if loop.running then [] else [exitMessage] }
  | .finishes c =>
    (s.loop c).finish.map fun loop => { s with loop := Function.update s.loop c loop }
  | .signals =>
    if s.main = .waiting then
      some { s with
        main := .interrupted
        pair := s.pair ++ [interruptMessage]
        broadcast := s.broadcast ++ [interruptMessage]
        loop := fun c => (s.loop c).hear c.1.broadcast interruptMessage }
    else none
  | .turns old env =>
    match s.phase with
    | .routing => s.routerTurn old env
    | .closing heartbeats => s.closingTurn heartbeats
    | _ => none
  | .returns =>
    if s.main = .interrupted ∧ s.phase = .closed then some { s with main := .returned } else none

/-- The steps. A turn of the router either takes the oldest message of the threads, or, if there is
none, that of `main`. -/
inductive Stepped (s : Process t) : ProcessInput t → Process t → Prop where
  | arrives {c : t.Child} {i : Fin c.1.sockets} {text : Bytes} : i ≠ c.1.broadcast → Numbered text →
      Stepped s (.arrives c i text)
        { s with loop := Function.update s.loop c ((s.loop c).hear i text) }
  | notifies {c : t.Child} {text : Bytes} :
      Stepped s (.notifies c text) { s with router := s.router ++ [text] }
  | polls {c : t.Child} {old : ℤ × ℤ} {loop : Loop c.1} : (s.loop c).poll old = some loop →
      Stepped s (.polls c old) { s with
        loop := Function.update s.loop c loop
        router := s.router ++ if loop.running then [] else [exitMessage] }
  | finishes {c : t.Child} {loop : Loop c.1} : (s.loop c).finish = some loop →
      Stepped s (.finishes c) { s with loop := Function.update s.loop c loop }
  | signals : s.main = .waiting → Stepped s .signals { s with
      main := .interrupted
      pair := s.pair ++ [interruptMessage]
      broadcast := s.broadcast ++ [interruptMessage]
      loop := fun c => (s.loop c).hear c.1.broadcast interruptMessage }
  | routes {old : ℤ × ℤ} {env : Env} {text : Bytes} {texts : List Bytes} {bo : Boxoffice}
      {phase : RouterPhase} : s.phase = .routing → s.router = text :: texts →
      phase = .routing ∨ phase = .closing 0 ∨ phase = .crashed →
      Stepped s (.turns old env) { s with boxoffice := bo, phase := phase, router := texts }
  | leaves {old : ℤ × ℤ} {env : Env} {text : Bytes} {texts : List Bytes} {bo : Boxoffice}
      {phase : RouterPhase} : s.phase = .routing → s.router = [] → s.pair = text :: texts →
      phase = .routing ∨ phase = .closing 0 ∨ phase = .crashed →
      (breaks old text = true → phase = .closing 0) →
      Stepped s (.turns old env) { s with boxoffice := bo, phase := phase, pair := texts }
  | counts {old : ℤ × ℤ} {env : Env} {heartbeats : ℕ} {router broadcast : List Bytes} :
      s.phase = .closing heartbeats → heartbeats < t.heartbeats →
      router.length + broadcast.length + 1 = s.router.length + s.broadcast.length →
      Stepped s (.turns old env)
        { s with phase := .closing (heartbeats + 1), router := router, broadcast := broadcast }
  | joins {old : ℤ × ℤ} {env : Env} {heartbeats : ℕ} : s.phase = .closing heartbeats →
      t.heartbeats ≤ heartbeats → (∀ c, (s.loop c).running = false) →
      Stepped s (.turns old env) { s with phase := .closed }
  | returns : s.main = .interrupted → s.phase = .closed →
      Stepped s .returns { s with main := .returned }

variable {s s' : Process t} {act : ProcessInput t}

theorem sRecv2_cons {text : Bytes} {texts others : List Bytes} :
    sRecv2 ![text :: texts, others] = some (![texts, others], text) := by
  have hfront : Function.update ![text :: texts, others] 0 texts = ![texts, others] := by
    funext i
    fin_cases i <;> rfl
  simp [sRecv2, receive, Pending.readable, hfront]

theorem sRecv2_other {text : Bytes} {texts : List Bytes} :
    sRecv2 ![[], text :: texts] = some (![[], texts], text) := by
  have hfront : Function.update ![[], text :: texts] 1 texts = ![[], texts] := by
    funext i
    fin_cases i <;> rfl
  simp [sRecv2, receive, Pending.readable, hfront]

theorem sRecv2_eq_none {texts others : List Bytes} :
    sRecv2 ![texts, others] = none ↔ texts = [] ∧ others = [] := by
  cases texts with
  | cons text texts => simp [sRecv2_cons]
  | nil =>
    cases others with
    | cons text texts => simp [sRecv2_other]
    | nil => simp [sRecv2, Pending.readable]

theorem follow_eq (s : Process t) (o : Option Outcome) : ∃ bo phase,
    s.follow o = { s with boxoffice := bo, phase := phase } ∧
      (phase = s.phase ∨ phase = .closing 0 ∨ phase = .crashed) ∧
      (o = none → phase = .closing 0) := by
  unfold follow
  split
  · exact ⟨s.boxoffice, _, rfl, .inr (.inl rfl), fun _ => rfl⟩
  · exact ⟨_, s.phase, rfl, .inl rfl, fun h => by cases h⟩
  · exact ⟨_, _, rfl, .inr (.inl rfl), fun h => by cases h⟩
  · exact ⟨s.boxoffice, _, rfl, .inr (.inr rfl), fun h => by cases h⟩

theorem runRouterStep_of_breaks {bo : Boxoffice} {old : ℤ × ℤ} {text : Bytes}
    (h : breaks old text = true) (env : Env) : runRouterStep bo old text env = none := by
  rw [breaks, interrupts, decide_eq_true_iff] at h
  exact if_pos h

theorem sRecv2_inv {texts others : List Bytes} {x : Pending 2 × Bytes}
    (h : sRecv2 ![texts, others] = some x) :
    (∃ text rest, texts = text :: rest ∧ x = (![rest, others], text)) ∨
      texts = [] ∧ ∃ text rest, others = text :: rest ∧ x = (![[], rest], text) := by
  cases texts with
  | cons text rest =>
    rw [sRecv2_cons] at h
    exact .inl ⟨text, rest, rfl, (Option.some.inj h).symm⟩
  | nil =>
    cases others with
    | cons text rest =>
      rw [sRecv2_other] at h
      exact .inr ⟨rfl, text, rest, rfl, (Option.some.inj h).symm⟩
    | nil => simp [sRecv2_eq_none.2] at h

theorem routerTurn_stepped {old : ℤ × ℤ} {env : Env} (hphase : s.phase = .routing)
    (h : s.routerTurn old env = some s') : s.Stepped (.turns old env) s' := by
  obtain ⟨x, hread, rfl⟩ := Option.map_eq_some_iff.1 h
  rcases sRecv2_inv hread with ⟨text, texts, hrouter, rfl⟩ | ⟨hrouter, text, texts, hpair, rfl⟩
  · obtain ⟨bo, phase, hfollow, hcases, -⟩ := follow_eq { s with router := texts }
      (runRouterStep s.boxoffice old text env)
    change s.Stepped _ ({ s with router := texts }.follow _)
    rw [hfollow]
    exact .routes hphase hrouter (hphase ▸ hcases)
  · obtain ⟨bo, phase, hfollow, hcases, hnone⟩ := follow_eq
      { s with router := [], pair := texts } (runRouterStep s.boxoffice old text env)
    have hbreaks (hb : breaks old text = true) : phase = .closing 0 :=
      hnone (runRouterStep_of_breaks hb env)
    have hstep : s.Stepped (.turns old env)
        { s with boxoffice := bo, phase := phase, pair := texts } :=
      .leaves hphase hrouter hpair (hphase ▸ hcases) hbreaks
    change s.Stepped _ ({ s with router := [], pair := texts }.follow _)
    rw [hfollow]
    rwa [hrouter] at hstep

theorem closingTurn_stepped {old : ℤ × ℤ} {env : Env} {heartbeats : ℕ}
    (hphase : s.phase = .closing heartbeats) (h : s.closingTurn heartbeats = some s') :
    s.Stepped (.turns old env) s' := by
  rw [closingTurn] at h
  split_ifs at h with hcount hjoin
  · obtain ⟨x, hread, rfl⟩ := Option.map_eq_some_iff.1 h
    rcases sRecv2_inv hread with ⟨text, texts, hrouter, rfl⟩ | ⟨hrouter, text, texts, hother, rfl⟩
    · exact .counts hphase hcount (by simp [hrouter]; omega)
    · exact .counts hphase hcount (by simp [hrouter, hother])
  · obtain rfl := Option.some.inj h
    exact .joins hphase (by omega) hjoin

theorem stepped_of_next (h : s.next act = some s') : s.Stepped act s' := by
  cases act with
  | arrives c i text =>
    simp only [next] at h
    split_ifs at h with hok
    obtain rfl := Option.some.inj h
    exact .arrives hok.1 hok.2
  | notifies c text =>
    simp only [next] at h
    split_ifs at h
    obtain rfl := Option.some.inj h
    exact .notifies
  | polls c old =>
    obtain ⟨loop, hpoll, rfl⟩ := Option.map_eq_some_iff.1 h
    exact .polls hpoll
  | finishes c =>
    obtain ⟨loop, hfinish, rfl⟩ := Option.map_eq_some_iff.1 h
    exact .finishes hfinish
  | signals =>
    simp only [next] at h
    split_ifs at h with hmain
    obtain rfl := Option.some.inj h
    exact .signals hmain
  | turns old env =>
    simp only [next] at h
    cases hphase : s.phase with
    | routing =>
      rw [hphase] at h
      exact routerTurn_stepped hphase h
    | closing heartbeats =>
      rw [hphase] at h
      exact closingTurn_stepped hphase h
    | closed => simp [hphase] at h
    | crashed => simp [hphase] at h
  | returns =>
    simp only [next] at h
    split_ifs at h with hok
    obtain rfl := Option.some.inj h
    exact .returns hok.1 hok.2

end Process

/-- How a loop stands to the interrupt; `deaf` if it took it together with another message. -/
structure Loop.Stands {kind : ChildKind} (loop : Loop kind) (main : MainPhase) (deaf : Prop) :
    Prop where
  numbered : ∀ i, i ≠ kind.broadcast → ∀ text ∈ loop.sockets i, Numbered text
  warnings : loop.warnings = [] ∨ loop.warnings = [interruptMessage]
  before : main = .waiting → loop.warnings = []
  listens : loop.warnings ≠ [] ∨ main = .waiting → loop.running = true ∧ ¬ deaf
  after : loop.warnings = [] → main ≠ .waiting → (loop.running = true ↔ deaf)

namespace Loop.Stands

variable {kind : ChildKind} {loop loop' : Loop kind} {main : MainPhase} {deaf : Prop}

theorem start (main : MainPhase) (h : main = .waiting) : (Loop.start kind).Stands main False where
  numbered _ _ _ hmem := absurd hmem List.not_mem_nil
  warnings := .inl rfl
  before _ := rfl
  listens _ := ⟨rfl, id⟩
  after _ hne := absurd h hne

theorem hear (h : loop.Stands main deaf) {i : Fin kind.sockets} {text : Bytes}
    (hi : i ≠ kind.broadcast) (htext : Numbered text) : (loop.hear i text).Stands main deaf := by
  have hwarnings : (loop.hear i text).warnings = loop.warnings := loop.hear_of_ne text hi.symm
  refine ⟨fun k hk m hm => ?_, hwarnings ▸ h.warnings, hwarnings ▸ h.before, hwarnings ▸ h.listens,
    hwarnings ▸ h.after⟩
  by_cases hki : k = i
  · subst hki
    rw [hear_self, List.mem_append, List.mem_singleton] at hm
    rcases hm with hm | rfl
    · exact h.numbered k hk m hm
    · exact htext
  · rw [loop.hear_of_ne text hki] at hm
    exact h.numbered k hk m hm

theorem signal (h : loop.Stands .waiting deaf) :
    (loop.hear kind.broadcast interruptMessage).Stands .interrupted deaf := by
  have hempty : loop.sockets kind.broadcast = [] := h.before rfl
  have hwarnings : (loop.hear kind.broadcast interruptMessage).warnings = [interruptMessage] := by
    rw [Loop.warnings, hear_self, hempty, List.nil_append]
  refine ⟨fun i hi text htext => ?_, .inr hwarnings, fun hmain => (by cases hmain),
    fun _ => h.listens (.inr rfl), fun hnone => (by simp [hwarnings] at hnone)⟩
  rw [loop.hear_of_ne _ hi] at htext
  exact h.numbered i hi text htext

theorem poll (h : loop.Stands main deaf) {old : ℤ × ℤ} (hpoll : loop.poll old = some loop') :
    loop'.Stands main (loop.Merges ∨ deaf) := by
  simp only [Loop.poll] at hpoll
  split_ifs at hpoll with hpolling
  have hrunning : loop.running = true := running_iff.2 (by simp [hpolling])
  obtain ⟨⟨sockets, text⟩, hread, rfl⟩ := Option.map_eq_some_iff.1 hpoll
  have hinterrupt : ∀ m ∈ loop.warnings, m = interruptMessage := by
    rcases h.warnings with hw | hw <;> simp [hw]
  have hbreaks := breaks_iff h.numbered hinterrupt hread old
  have hsockets : sockets = fun i => (loop.sockets i).tail := by
    rw [pollAll_eq] at hread
    split_ifs at hread
    exact (Prod.mk.inj (Option.some.inj hread)).1.symm
  subst hsockets
  have htail : loop.warnings.tail = [] := by
    rcases h.warnings with hw | hw <;> rw [hw] <;> rfl
  have hstays : (Loop.mk (fun i => (loop.sockets i).tail)
      (if breaks old text then .ended else .working)).running = true ↔
      ¬ breaks old text = true := by
    rw [running_iff]
    split_ifs with hb <;> simp [hb]
  refine ⟨fun i hi m hm => h.numbered i hi m (List.mem_of_mem_tail hm), .inl htail,
    fun _ => htail, fun hlisten => ?_, fun _ hmain => hstays.trans ?_⟩
  · -- `main` still waits
    have hmain := hlisten.resolve_left (not_not.2 htail)
    have hempty : loop.warnings = [] := h.before hmain
    have hgoes : ¬ breaks old text = true := fun hb => (hbreaks.1 hb).1 hempty
    exact ⟨hstays.2 hgoes, not_or.2 ⟨fun hm => hm.1 hempty, (h.listens (.inr hmain)).2⟩⟩
  · by_cases hempty : loop.warnings = []
    · have hgoes : ¬ breaks old text = true := fun hb => (hbreaks.1 hb).1 hempty
      have hdeaf : deaf := (h.after hempty hmain).1 hrunning
      exact iff_of_true hgoes (.inr hdeaf)
    · have hnot : ¬ deaf := (h.listens (.inl hempty)).2
      have hmerges : loop.Merges ↔ ¬ ∀ i, i ≠ kind.broadcast → loop.sockets i = [] := by
        rw [Loop.Merges, and_iff_right hempty]
        simp only [ne_eq, not_forall, exists_prop]
      rw [or_iff_left hnot, hmerges, hbreaks]
      exact not_congr (and_iff_right hempty)

theorem finish (h : loop.Stands main deaf) (hfinish : loop.finish = some loop') :
    loop'.Stands main deaf := by
  obtain ⟨hworking, rfl⟩ := finish_eq hfinish
  have hrunning : loop.running = true := running_iff.2 (by simp [hworking])
  exact ⟨h.numbered, h.warnings, h.before, fun hlisten => ⟨rfl, (h.listens hlisten).2⟩,
    fun hempty hmain => iff_of_true rfl ((h.after hempty hmain).1 hrunning)⟩

theorem congr (h : loop.Stands main deaf) {deaf' : Prop} (hdeaf : deaf ↔ deaf') :
    loop.Stands main deaf' := propext hdeaf ▸ h

theorem returns (h : loop.Stands main deaf) (hmain : main ≠ .waiting) :
    loop.Stands .returned deaf where
  numbered := h.numbered
  warnings := h.warnings
  before hother := by cases hother
  listens hlisten := h.listens (.inl (hlisten.resolve_right (by simp)))
  after hempty _ := h.after hempty hmain

end Loop.Stands

namespace Process

variable {t : Threads} {s s' : Process t} {act : ProcessInput t}
  {tr : List (Process t × ProcessInput t)}

/-- The step is a turn at which a loop takes the interrupt together with another message. -/
def Deafens (s : Process t) (c : t.Child) : ProcessInput t → Prop
  | .polls d _ => d = c ∧ (s.loop c).Merges
  | _ => False

def Deaf (c : t.Child) : List (Process t × ProcessInput t) → Prop
  | [] => False
  | p :: tr => p.1.Deafens c p.2 ∨ Deaf c tr

theorem stands_step (h : ∀ c, (s.loop c).Stands s.main (Deaf c tr)) (hs : s.next act = some s')
    (c : t.Child) : (s'.loop c).Stands s'.main (Deaf c ((s, act) :: tr)) := by
  have hkeep {main : MainPhase} {loop : Loop c.1} (hnot : ¬ s.Deafens c act)
      (hstands : loop.Stands main (Deaf c tr)) : loop.Stands main (Deaf c ((s, act) :: tr)) :=
    hstands.congr (or_iff_right hnot).symm
  have hupdate (d : t.Child) {loop : Loop d.1} (hloop : loop.Stands s.main (Deaf d tr)) :
      (Function.update s.loop d loop c).Stands s.main (Deaf c tr) :=
    (Function.forall_update_iff s.loop fun c loop => loop.Stands s.main (Deaf c tr)).2
      ⟨hloop, fun c _ => h c⟩ c
  cases stepped_of_next hs with
  | @arrives d i text hi htext => exact hkeep id (hupdate d ((h d).hear hi htext))
  | notifies => exact hkeep id (h c)
  | @polls d old loop hpoll =>
    by_cases hc : c = d
    · subst hc
      simpa [Deaf, Deafens] using (h c).poll hpoll
    · refine hkeep (fun hd => hc hd.1.symm) ?_
      simpa [hc] using h c
  | @finishes d loop hfinish => exact hkeep id (hupdate d ((h d).finish hfinish))
  | signals hmain => exact hkeep id (hmain ▸ h c).signal
  | routes => exact hkeep id (h c)
  | leaves => exact hkeep id (h c)
  | counts => exact hkeep id (h c)
  | joins => exact hkeep id (h c)
  | returns hmain => exact hkeep id ((h c).returns (by simp [hmain]))

theorem stands_of_run {bo : Boxoffice} (hrun : Run next (initial t bo) tr s) :
    ∀ c, (s.loop c).Stands s.main (Deaf c tr) :=
  hrun.history (I := fun tr s => ∀ c, (s.loop c).Stands s.main (Deaf c tr))
    (fun _ => .start _ rfl) fun _ _ _ _ h hs => stands_step h hs

/-- The messages that `closeConnections` has received. -/
def heard (s : Process t) : ℕ :=
  match s.phase with
  | .closing heartbeats => heartbeats
  | .closed => t.heartbeats
  | _ => 0

def ended (s : Process t) : ℕ := ∑ c, if (s.loop c).running then 0 else 1

/-- The step takes a message of the threads in `runRouter`. -/
def routes (s : Process t) : ProcessInput t → Bool
  | .turns _ _ => s.phase = .routing ∧ s.router ≠ []
  | _ => false

def notification : ProcessInput t → Bool
  | .notifies _ _ => true
  | _ => false

def routed (tr : List (Process t × ProcessInput t)) : ℕ := tr.countP fun p => p.1.routes p.2

def notified (tr : List (Process t × ProcessInput t)) : ℕ := tr.countP fun p => notification p.2

structure Counted (tr : List (Process t × ProcessInput t)) (s : Process t) : Prop where
  pairs : ∀ text ∈ s.pair, text = interruptMessage
  warned : s.phase = .routing → s.main ≠ .waiting → s.pair ≠ []
  joined : s.phase = .closed → ∀ c, (s.loop c).running = false
  atMost : s.heard ≤ t.heartbeats
  returned : s.main = .returned → s.phase = .closed
  books : s.phase ≠ .crashed → s.router.length + s.broadcast.length + routed tr + s.heard =
    s.ended + notified tr + if s.main = .waiting then 0 else 1

theorem counted_start (bo : Boxoffice) : Counted [] (initial t bo) where
  pairs _ hmem := absurd hmem List.not_mem_nil
  warned _ hmain := absurd rfl hmain
  joined hphase := by cases hphase
  atMost := Nat.zero_le _
  returned hmain := by cases hmain
  books _ := by simp [initial, Loop.start, Loop.running, routed, notified, heard, ended]

theorem ended_update (c : t.Child) (loop : Loop c.1) (hrunning : (s.loop c).running = true) :
    ended { s with loop := Function.update s.loop c loop } =
      s.ended + if loop.running then 0 else 1 := by
  have hothers : ∑ d ∈ Finset.univ.erase c,
      (if (Function.update s.loop c loop d).running then 0 else 1) =
      ∑ d ∈ Finset.univ.erase c, if (s.loop d).running then 0 else 1 := by
    refine Finset.sum_congr rfl fun d hd => ?_
    rw [Function.update_of_ne (Finset.ne_of_mem_erase hd)]
  rw [ended, ended, ← Finset.add_sum_erase _ _ (Finset.mem_univ c),
    ← Finset.add_sum_erase Finset.univ (fun d => if (s.loop d).running then 0 else 1)
      (Finset.mem_univ c), hothers]
  simp [hrunning, add_comm]

theorem routed_cons : routed ((s, act) :: tr) = routed tr + if s.routes act then 1 else 0 :=
  List.countP_cons

theorem notified_cons :
    notified ((s, act) :: tr) = notified tr + if notification act then 1 else 0 :=
  List.countP_cons

theorem running_update {c : t.Child} {loop : Loop c.1} (h : loop.running = (s.loop c).running)
    (d : t.Child) : (Function.update s.loop c loop d).running = (s.loop d).running :=
  (Function.forall_update_iff s.loop fun d loop => loop.running = (s.loop d).running).2
    ⟨h, fun _ _ => rfl⟩ d

theorem ended_congr (h : ∀ c, (s'.loop c).running = (s.loop c).running) : s'.ended = s.ended := by
  simp [ended, h]

theorem Counted.update (h : Counted tr s) {c : t.Child} {loop : Loop c.1}
    (hrunning : loop.running = (s.loop c).running) (hroutes : s.routes act = false)
    (hnotifies : notification act = false) :
    Counted ((s, act) :: tr) { s with loop := Function.update s.loop c loop } := by
  refine ⟨h.pairs, h.warned, fun hphase d => (running_update hrunning d).trans (h.joined hphase d),
    h.atMost, h.returned, fun hphase => ?_⟩
  have hended : ended { s with loop := Function.update s.loop c loop } = s.ended :=
    ended_congr (running_update hrunning)
  have hbooks := h.books hphase
  rw [routed_cons, notified_cons, hroutes, hnotifies]
  change _ + _ + _ + s.heard = ended { s with loop := _ } + _ + _
  rw [hended]
  exact hbooks

theorem counted_step (h : Counted tr s) (hs : s.next act = some s') :
    Counted ((s, act) :: tr) s' := by
  cases stepped_of_next hs with
  | arrives => exact h.update rfl rfl rfl
  | finishes hfinish =>
    obtain ⟨hworking, rfl⟩ := Loop.finish_eq hfinish
    exact h.update (by simp [Loop.running, hworking]) rfl rfl
  | @notifies c text =>
    refine ⟨h.pairs, h.warned, h.joined, h.atMost, h.returned, fun hphase => ?_⟩
    have hbooks := h.books hphase
    rw [routed_cons, notified_cons]
    simp only [routes, notification, List.length_append, List.length_singleton, if_true,
      Bool.false_eq_true, if_false]
    change _ + _ + _ + s.heard = s.ended + _ + _
    omega
  | @polls d old loop hpoll =>
    have hrunning : (s.loop d).running = true :=
      Loop.running_iff.2 (by simp [(Loop.poll_eq hpoll).1])
    have hended := ended_update d loop hrunning
    refine ⟨h.pairs, h.warned, fun hphase => ?_, h.atMost, h.returned, fun hphase => ?_⟩
    · simp [h.joined hphase d] at hrunning
    · have hbooks := h.books hphase
      rw [routed_cons, notified_cons]
      change _ + _ + _ + s.heard = ended { s with loop := Function.update s.loop d loop } + _ + _
      rw [hended]
      cases loop.running <;> simp [routes, notification] <;> omega
  | signals hmain =>
    refine ⟨?_, by simp, h.joined, h.atMost, fun hreturned => (by cases hreturned), fun hphase => ?_⟩
    · intro text htext
      rcases List.mem_append.1 htext with htext | htext
      · exact h.pairs text htext
      · exact List.mem_singleton.1 htext
    · have hbooks := h.books hphase
      rw [if_pos hmain] at hbooks
      rw [routed_cons, notified_cons]
      simp only [routes, notification, List.length_append, List.length_singleton,
        Bool.false_eq_true, if_false, reduceCtorEq]
      change _ + _ + _ + s.heard = s.ended + _ + _
      omega
  | @routes old env text texts bo phase hphase hrouter hcases =>
    have hzero : heard { s with boxoffice := bo, phase := phase, router := texts } = 0 := by
      rcases hcases with rfl | rfl | rfl <;> rfl
    have hbooks := h.books (by simp [hphase])
    refine ⟨h.pairs, fun _ => h.warned hphase, fun hclosed => ?_, hzero ▸ Nat.zero_le _,
      fun hmain => ?_, fun _ => ?_⟩
    · rcases hcases with rfl | rfl | rfl <;> cases hclosed
    · simpa [hphase] using h.returned hmain
    · have hheard : s.heard = 0 := by rw [heard, hphase]
      rw [hrouter, hheard, List.length_cons] at hbooks
      rw [routed_cons, notified_cons, hzero]
      simp only [routes, hphase, hrouter, notification]
      change _ + _ + _ + _ = s.ended + _ + _
      simp
      omega
  | @leaves old env text texts bo phase hphase hrouter hpair hcases hbreaks =>
    have htext : text = interruptMessage := h.pairs text (by simp [hpair])
    obtain rfl := hbreaks (htext ▸ breaks_interruptMessage old)
    have hbooks := h.books (by simp [hphase])
    refine ⟨fun m hm => h.pairs m (by simp [hpair, hm]), by simp, by simp, Nat.zero_le _,
      fun hmain => ?_, fun _ => ?_⟩
    · simpa [hphase] using h.returned hmain
    · rw [heard, hphase] at hbooks
      rw [routed_cons, notified_cons]
      change _ + _ + _ + 0 = s.ended + _ + _
      simpa [routes, hrouter, notification] using hbooks
  | @counts old env heartbeats router broadcast hphase hcount hlengths =>
    have hbooks := h.books (by simp [hphase])
    refine ⟨h.pairs, by simp, by simp, hcount, fun hmain => ?_, fun _ => ?_⟩
    · simpa [hphase] using h.returned hmain
    · have hheard : s.heard = heartbeats := by rw [heard, hphase]
      rw [hheard] at hbooks
      rw [routed_cons, notified_cons]
      change router.length + broadcast.length + _ + (heartbeats + 1) = s.ended + _ + _
      simp [routes, hphase, notification]
      omega
  | @joins old env heartbeats hphase hcount hended =>
    have hmost := h.atMost
    have hbooks := h.books (by simp [hphase])
    rw [heard, hphase] at hmost hbooks
    obtain rfl := le_antisymm hmost hcount
    refine ⟨h.pairs, by simp, fun _ => hended, le_rfl, fun _ => rfl, fun _ => ?_⟩
    rw [routed_cons, notified_cons]
    change _ + _ + _ + t.heartbeats = s.ended + _ + _
    simpa [routes, hphase, notification] using hbooks
  | returns hmain hclosed =>
    have hbooks := h.books (by simp [hclosed])
    refine ⟨h.pairs, fun hphase => by simp [hclosed] at hphase, h.joined, h.atMost, fun _ => hclosed,
      fun _ => ?_⟩
    rw [routed_cons, notified_cons]
    change _ + _ + _ + s.heard = s.ended + _ + _
    simpa [routes, hmain, notification] using hbooks

theorem counted_of_run {bo : Boxoffice} (hrun : Run next (initial t bo) tr s) : Counted tr s :=
  hrun.history (I := Counted) (counted_start bo) fun _ _ _ _ h hs => counted_step h hs

theorem ended_eq (h : ∀ c, (s.loop c).running = false) : s.ended = t.heartbeats := by
  simp [ended, h, t.card_child]

/-- The process goes no further of itself: no loop has an interrupt to take, and neither the
boxoffice nor `main` can go on. -/
structure Settled (s : Process t) : Prop where
  signalled : s.main ≠ .waiting
  loops : ∀ c, (s.loop c).warnings = []
  boxoffice : ∀ old env, s.next (.turns old env) = none
  main : s.next .returns = none

/-- When `main` has returned every loop took the interrupt alone, and `runRouter` had taken at most
one message more than the threads had sent it beside their exits. If so, and unless an exception
ended the boxoffice, `main` returns. -/
theorem returned_of_run {bo : Boxoffice} (hrun : Run next (initial t bo) tr s) :
    (s.main = .returned → (∀ c, ¬ Deaf c tr) ∧ routed tr ≤ notified tr + 1) ∧
    (s.Settled → s.phase ≠ .crashed → (∀ c, ¬ Deaf c tr) → routed tr ≤ notified tr + 1 →
      s.main = .returned) := by
  have hstands := stands_of_run hrun
  have hcounted := counted_of_run hrun
  constructor
  · intro hmain
    have hphase := hcounted.returned hmain
    have hended := hcounted.joined hphase
    refine ⟨fun c hdeaf => ?_, ?_⟩
    · have hempty : (s.loop c).warnings = [] := by
        by_contra hwarned
        have hruns := ((hstands c).listens (.inl hwarned)).1
        simp [hended c] at hruns
      have hruns := ((hstands c).after hempty (by simp [hmain])).2 hdeaf
      simp [hended c] at hruns
    · have hbooks := hcounted.books (by simp [hphase])
      have hheard : s.heard = t.heartbeats := by rw [heard, hphase]
      rw [hheard, ended_eq hended, hmain, if_neg (by simp)] at hbooks
      omega
  · intro hsettled hcrashed hdeaf hrouted
    have hended : ∀ c, (s.loop c).running = false := by
      intro c
      rw [← Bool.not_eq_true, (hstands c).after (hsettled.loops c) hsettled.signalled]
      exact hdeaf c
    have hbooks := hcounted.books hcrashed
    rw [ended_eq hended, if_neg hsettled.signalled] at hbooks
    have hturns := hsettled.boxoffice (0, 0) ⟨0, 0, 0, fun _ => none⟩
    cases hphase : s.phase with
    | routing =>
      simp only [next, hphase, routerTurn, Option.map_eq_none_iff, sRecv2_eq_none] at hturns
      exact absurd hturns.2 (hcounted.warned hphase hsettled.signalled)
    | closing heartbeats =>
      simp only [next, hphase, closingTurn] at hturns
      split_ifs at hturns with hcount
      obtain ⟨hrouter, hbroadcast⟩ := sRecv2_eq_none.1 (Option.map_eq_none_iff.1 hturns)
      have hheard : s.heard = heartbeats := by rw [heard, hphase]
      rw [hrouter, hbroadcast, hheard, List.length_nil] at hbooks
      omega
    | closed =>
      have hmain := hsettled.main
      simp only [next, hphase, and_true, ite_eq_right_iff, reduceCtorEq, imp_false] at hmain
      have hsignalled := hsettled.signalled
      cases h : s.main <;> simp_all
    | crashed => exact absurd hphase hcrashed

def winds (s : Process t) : ProcessInput t → Bool
  | .polls c _ => (s.loop c).warnings ≠ []
  | .finishes _ | .turns _ _ | .returns => true
  | _ => false

/-- Among them those that come. Only the body of a dispatcher may wait for what never happens. -/
def comes (s : Process t) : ProcessInput t → Bool
  | .finishes c => c.1 ≠ .dispatcher
  | act => s.winds act

/-- A dispatcher is in the body of its loop while its interrupt waits. -/
def Held (s : Process t) : Prop :=
  ∃ c, c.1 = .dispatcher ∧ (s.loop c).phase = .working ∧ (s.loop c).warnings ≠ []

def left (s : Process t) : ℕ :=
  ∑ c, (s.loop c).left + s.router.length + s.pair.length + s.broadcast.length +
    (if s.phase = .closed ∨ s.phase = .crashed then 0 else 1) +
    if s.main = .interrupted then 1 else 0

theorem sum_left_update (c : t.Child) (loop : Loop c.1) :
    ∑ d, (Function.update s.loop c loop d).left + (s.loop c).left =
      ∑ d, (s.loop d).left + loop.left := by
  have hothers : ∑ d ∈ Finset.univ.erase c, (Function.update s.loop c loop d).left =
      ∑ d ∈ Finset.univ.erase c, (s.loop d).left := by
    refine Finset.sum_congr rfl fun d hd => ?_
    rw [Function.update_of_ne (Finset.ne_of_mem_erase hd)]
  rw [← Finset.add_sum_erase _ _ (Finset.mem_univ c), ← Finset.add_sum_erase Finset.univ
    (fun d => (s.loop d).left) (Finset.mem_univ c), hothers, Function.update_self]
  omega

theorem left_step (hwinds : s.winds act = true) (hs : s.next act = some s') :
    s'.left + 1 ≤ s.left := by
  cases stepped_of_next hs with
  | arrives => cases hwinds
  | notifies => cases hwinds
  | signals => cases hwinds
  | @polls c old loop hpoll =>
    have hloop := Loop.left_poll hpoll (of_decide_eq_true hwinds)
    have hsum := sum_left_update (s := s) c loop
    have hrouter : (s.router ++ if loop.running = true then [] else [exitMessage]).length =
        s.router.length + if loop.running then 0 else 1 := by
      split_ifs <;> simp
    simp only [left, hrouter]
    omega
  | @finishes c loop hfinish =>
    have hloop := Loop.left_finish hfinish
    have hsum := sum_left_update (s := s) c loop
    simp only [left]
    omega
  | @routes old env text texts bo phase hphase hrouter hcases =>
    have hrank : (if phase = .closed ∨ phase = .crashed then 0 else 1) ≤ 1 := by split_ifs <;> simp
    simp only [left, hphase, hrouter, List.length_cons, reduceCtorEq, or_self, if_false]
    omega
  | @leaves old env text texts bo phase hphase hrouter hpair hcases hbreaks =>
    have hrank : (if phase = .closed ∨ phase = .crashed then 0 else 1) ≤ 1 := by split_ifs <;> simp
    simp only [left, hphase, hpair, List.length_cons, reduceCtorEq, or_self, if_false]
    omega
  | @counts old env heartbeats router broadcast hphase hcount hlengths =>
    simp only [left, hphase]
    split_ifs <;> omega
  | @joins old env heartbeats hphase =>
    simp [left, hphase]
  | returns hmain hclosed =>
    simp [left, hmain, hclosed]

theorem signalled_step (h : s.main ≠ .waiting) (hs : s.next act = some s') :
    s'.main ≠ .waiting := by
  cases stepped_of_next hs with
  | signals | returns => simp
  | arrives | notifies | polls | finishes | routes | leaves | counts | joins => exact h

/-- Left to itself after the signal, the process settles, in whatever order the steps are taken,
or waits for a dispatcher. -/
theorem settles_of_run {bo : Boxoffice} (hrun : Run next (initial t bo) tr s)
    (hmain : s.main ≠ .waiting) {later : List (Process t × ProcessInput t)}
    (hlater : Run next s later s') (hwinds : ∀ p ∈ later, p.1.winds p.2 = true) :
    later.length ≤ s.left ∧
      (s'.Settled ∨ s'.Held ∨ ∃ act, s'.comes act = true ∧ (s'.next act).isSome = true) := by
  have hlength := hlater.length_add_le (fun _ _ _ hp hs => left_step hp hs) hwinds
  refine ⟨by omega, ?_⟩
  have hsignalled : s'.main ≠ .waiting :=
    hlater.history (I := fun _ s => s.main ≠ .waiting) hmain fun _ _ _ _ h hs => signalled_step h hs
  by_contra hgoes
  rw [not_or, not_or, not_exists] at hgoes
  obtain ⟨hsettled, hheld, hstuck⟩ := hgoes
  have hnone {act : ProcessInput t} (hc : s'.comes act = true) : s'.next act = none := by
    simpa [hc] using hstuck act
  refine hsettled ⟨hsignalled, fun c => ?_, fun old env => hnone rfl, hnone rfl⟩
  by_contra hwarned
  obtain ⟨_, hwhole⟩ := hlater.history (I := fun _ s => ∃ tr, Run next (initial t bo) tr s)
    ⟨tr, hrun⟩ fun _ _ _ _ ⟨_, h⟩ hs => ⟨_, h.snoc hs⟩
  have hrunning := ((stands_of_run hwhole c).listens (.inl hwarned)).1
  cases hphase : (s'.loop c).phase with
  | polling =>
    have hpoll : s'.next (.polls c (0, 0)) = none := hnone (decide_eq_true hwarned)
    have hread : ∃ i, Pending.readable (s'.loop c).sockets i = true :=
      ⟨c.1.broadcast, by simpa [Pending.readable, Loop.warnings] using hwarned⟩
    simp [next, Loop.poll, hphase, pollAll_eq, hread] at hpoll
  | working =>
    have hother : c.1 ≠ .dispatcher := fun hc => hheld ⟨c, hc, hphase, hwarned⟩
    have hfinish : s'.next (.finishes c) = none := hnone (decide_eq_true hother)
    simp [next, Loop.finish, hphase] at hfinish
  | ended => exact Loop.running_iff.1 hrunning hphase

end Process

namespace Sample

abbrev process : Process threads := .initial threads (start [])

theorem boxChild_polls : 0 < boxChild.1.sockets := by decide

def beforehand : List (ProcessInput threads) :=
  [.arrives boxChild ⟨0, boxChild_polls⟩ event, .polls boxChild (0, 0), .notifies boxChild event,
    .turns (0, 0) env, .signals]

def shutdown : List (ProcessInput threads) :=
  [.polls pubChild (0, 0), .turns (0, 0) env, .finishes boxChild, .turns (0, 0) env,
    .polls boxChild (0, 0), .turns (0, 0) env, .turns (0, 0) env, .turns (0, 0) env, .returns]

def signalled : Process threads := after Process.next process beforehand

def stopped : Process threads := after Process.next process (beforehand ++ shutdown)

theorem shutdown_returns : (runAll Process.next process (beforehand ++ shutdown)).isSome = true ∧
    (runAll Process.next process beforehand).isSome = true ∧
    (runAll Process.next signalled shutdown).isSome = true ∧
    (∀ p ∈ record Process.next signalled shutdown [], p.1.winds p.2 = true) ∧
    stopped.main = .returned ∧ stopped.phase = .closed ∧ ∀ c, (stopped.loop c).warnings = [] := by
  decide +kernel

theorem run_shutdown : Run Process.next process
    (record Process.next process (beforehand ++ shutdown) []) stopped :=
  run_after shutdown_returns.1

theorem run_signalled : Run Process.next process (record Process.next process beforehand [])
    signalled := run_after shutdown_returns.2.1

theorem settled_stopped : stopped.Settled := by
  obtain ⟨-, -, -, -, hmain, hphase, hwarnings⟩ := shutdown_returns
  exact ⟨by simp [hmain], hwarnings, fun old env => by simp [Process.next, hphase],
    by simp [Process.next, hmain]⟩

end Sample

theorem returned_of_run_shutdown :
    let tr := record Process.next Sample.process (Sample.beforehand ++ Sample.shutdown) []
    ((∀ c, ¬ Process.Deaf c tr) ∧ Process.routed tr ≤ Process.notified tr + 1) ∧
      Sample.stopped.main = .returned := by
  obtain ⟨hgives, hsuffices⟩ := Process.returned_of_run Sample.run_shutdown
  obtain ⟨-, -, -, -, hmain, hphase, -⟩ := Sample.shutdown_returns
  obtain ⟨hdeaf, hrouted⟩ := hgives hmain
  exact ⟨⟨hdeaf, hrouted⟩, hsuffices Sample.settled_stopped (by simp [hphase]) hdeaf hrouted⟩

theorem settles_of_run_shutdown : let s := after Process.next Sample.signalled Sample.shutdown
    (record Process.next Sample.signalled Sample.shutdown []).length ≤ Sample.signalled.left ∧
      (s.Settled ∨ s.Held ∨ ∃ act, s.comes act = true ∧ (s.next act).isSome = true) := by
  obtain ⟨-, -, hruns, hwinds, -⟩ := Sample.shutdown_returns
  exact Process.settles_of_run Sample.run_signalled (by decide) (run_after hruns) hwinds

end Flocksy
