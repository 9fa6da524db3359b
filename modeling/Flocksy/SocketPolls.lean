import Flocksy.Foundation.ByteStream
import Flocksy.Foundation.Runs

/-!
# Receiving from several sockets

`s_recv` polls its sockets and then takes one message from each of those that were readable,
into one stream. The forms for three and four sockets test the sockets one after the other;
the form for two sockets stops at the first that is readable. Over a run of arrivals and calls
each message is handed over alone if and only if no call finds two sockets readable.
-/

namespace Flocksy

open ByteStream Runs

abbrev Pending (n : ℕ) := Fin n → List Bytes

/-- `poller.events(z_items[i]) & ZMQ_POLLIN`. -/
def Pending.readable {n : ℕ} (p : Pending n) (i : Fin n) : Bool := p i ≠ []

/-- `socket.receive(z_msg); sstream << z_msg.get(0);`. -/
def receive {n : ℕ} (s : Pending n × Bytes) (i : Fin n) : Pending n × Bytes :=
  (Function.update s.1 i (s.1 i).tail, s.2 ++ (s.1 i).headD [])

def receiveReadable {n : ℕ} (p : Pending n) (sockets : List (Fin n)) (s : Pending n × Bytes) :
    Pending n × Bytes :=
  sockets.foldl (fun s i => if p.readable i then receive s i else s) s

/-- A poll and the tests behind it; `none` if nothing was readable. -/
def pollAll {n : ℕ} (p : Pending n) : Option (Pending n × Bytes) :=
  if ∃ i, p.readable i then some (receiveReadable p (List.finRange n) (p, [])) else none

/-- `s_recv(socket, broadcast, heartbeat, sstream)`, which waits where this is `none`. -/
def sRecv3 : Pending 3 → Option (Pending 3 × Bytes) := pollAll

/-- `s_recv(socket, broadcast, heartbeat, dispatch, sstream)`. -/
def sRecv4 : Pending 4 → Option (Pending 4 × Bytes) := pollAll

/-- `s_recv_noblock(socket, socket2, broadcast, sstream, timeout)`, which returns 0 where this
is `none`. -/
def sRecvNoblock : Pending 3 → Option (Pending 3 × Bytes) := pollAll

/-- `s_recv(socket, broadcast, sstream)`. -/
def sRecv2 (p : Pending 2) : Option (Pending 2 × Bytes) :=
  if p.readable 0 then some (receive (p, []) 0)
  else if p.readable 1 then some (receive (p, []) 1)
  else none

section Call

variable {n : ℕ} {p : Pending n}

theorem receive_self (s : Pending n × Bytes) (i : Fin n) : (receive s i).1 i = (s.1 i).tail :=
  Function.update_self _ _ _

theorem receive_of_ne (s : Pending n × Bytes) {i j : Fin n} (h : j ≠ i) :
    (receive s i).1 j = s.1 j :=
  Function.update_of_ne h _ _

theorem receiveReadable_eq (sockets : List (Fin n)) (hnodup : sockets.Nodup)
    (s : Pending n × Bytes) (hs : ∀ i ∈ sockets, s.1 i = p i) :
    receiveReadable p sockets s =
      (fun i => if i ∈ sockets then (p i).tail else s.1 i,
        s.2 ++ (sockets.map fun i => (p i).headD []).flatten) := by
  induction sockets generalizing s with
  | nil => simp [receiveReadable]
  | cons j sockets ih =>
    obtain ⟨hj, hnodup⟩ := List.nodup_cons.1 hnodup
    have hhead := hs j List.mem_cons_self
    have hrest : ∀ t : Pending n × Bytes, t.1 j = (p j).tail → (∀ i, i ≠ j → t.1 i = s.1 i) →
        t.2 = s.2 ++ (p j).headD [] → receiveReadable p sockets t =
        (fun i => if i ∈ j :: sockets then (p i).tail else s.1 i,
          s.2 ++ ((j :: sockets).map fun i => (p i).headD []).flatten) := by
      intro t htail hother htext
      rw [ih hnodup t fun i hi => ?_]
      · refine Prod.ext ?_ (by simp [htext])
        funext i
        by_cases hij : i = j
        · subst hij
          simp [hj, htail]
        · simp [hij, hother i hij]
      · have hij : i ≠ j := by
          rintro rfl
          exact hj hi
        rw [hother i hij, hs i (List.mem_cons_of_mem _ hi)]
    rw [receiveReadable, List.foldl_cons]
    by_cases hread : p.readable j = true
    · rw [if_pos hread]
      refine hrest (receive s j) ?_ ?_ ?_
      · rw [receive_self, hhead]
      · exact fun i hij => receive_of_ne s hij
      · rw [receive, hhead]
    · have hempty : p j = [] := by simpa [Pending.readable] using hread
      rw [if_neg hread]
      refine hrest s ?_ (fun _ _ => rfl) ?_
      · rw [hhead, hempty, List.tail_nil]
      · rw [hempty, List.headD_nil, List.append_nil]

/-- A call takes the oldest message of every socket and runs them together. -/
theorem pollAll_eq : pollAll p =
    if ∃ i, p.readable i then
      some (fun i => (p i).tail, ((List.finRange n).map fun i => (p i).headD []).flatten)
    else none := by
  have hall := receiveReadable_eq (List.finRange n) (List.nodup_finRange n) (p, [])
    fun _ _ => rfl
  rw [pollAll, hall]
  simp

end Call

inductive SocketEvent (n : ℕ) where
  | arrives (i : Fin n) (message : Bytes)
  | call

/-- The sockets and the streams handed to the caller. `arrived` is all that ever waited. -/
structure Sockets (n : ℕ) where
  pending : Pending n
  arrived : Pending n
  handed : List Bytes

def Sockets.initial {n : ℕ} (pending : Pending n) : Sockets n := ⟨pending, pending, []⟩

def Sockets.step {n : ℕ} (recv : Pending n → Option (Pending n × Bytes)) (s : Sockets n) :
    SocketEvent n → Option (Sockets n)
  | .arrives i message => some { s with
      pending := Function.update s.pending i (s.pending i ++ [message])
      arrived := Function.update s.arrived i (s.arrived i ++ [message]) }
  | .call =>
    match recv s.pending with
    | none => some s
    | some (pending, text) => some { s with pending := pending, handed := s.handed ++ [text] }

/-- The streams are single messages, and for each socket they are, in order, what arrived
on it up to what still waits. -/
def Sockets.Intact {n : ℕ} (s : Sockets n) : Prop :=
  ∃ owned : List (Fin n × Bytes), s.handed = owned.map Prod.snd ∧
    ∀ i, s.arrived i = (owned.filter (·.1 = i)).map Prod.snd ++ s.pending i

/-- A call finds at most one socket readable. -/
def Alone {n : ℕ} (s : Sockets n) : SocketEvent n → Prop
  | .arrives _ _ => True
  | .call => ∀ i j, s.pending.readable i → s.pending.readable j → i = j

instance {n : ℕ} (s : Sockets n) : (e : SocketEvent n) → Decidable (Alone s e)
  | .arrives _ _ => inferInstanceAs (Decidable True)
  | .call => inferInstanceAs (Decidable (∀ i j, s.pending.readable i → s.pending.readable j → i = j))

section Runs

variable {n : ℕ} {recv : Pending n → Option (Pending n × Bytes)} {s s' : Sockets n}

theorem Sockets.Intact.arrives (h : s.Intact) (i : Fin n) (message : Bytes)
    (hs : s.step recv (.arrives i message) = some s') : s'.Intact := by
  obtain rfl := Option.some.inj hs
  obtain ⟨owned, hhanded, harrived⟩ := h
  refine ⟨owned, hhanded, fun j => ?_⟩
  by_cases hji : j = i
  · subst hji
    simp [harrived j]
  · simp [hji, harrived j]

theorem Sockets.Intact.takes (h : s.Intact) {i : Fin n} (hread : s.pending.readable i) :
    Sockets.Intact { s with
      pending := Function.update s.pending i (s.pending i).tail
      handed := s.handed ++ [(s.pending i).headD []] } := by
  obtain ⟨owned, hhanded, harrived⟩ := h
  obtain ⟨message, rest, hpending⟩ : ∃ message rest, s.pending i = message :: rest :=
    List.exists_cons_of_ne_nil (by simpa [Pending.readable] using hread)
  refine ⟨owned ++ [(i, message)], by simp [hhanded, hpending], fun j => ?_⟩
  by_cases hji : j = i
  · subst hji
    simp [harrived j, hpending]
  · have hij : ¬ i = j := fun h => hji h.symm
    simp [hji, hij, harrived j]

theorem flatten_map_single {l : List (Fin n)} (hnodup : l.Nodup) {f : Fin n → Bytes} {i : Fin n}
    (hi : i ∈ l) (hother : ∀ j, j ≠ i → f j = []) : (l.map f).flatten = f i := by
  induction l with
  | nil => exact absurd hi List.not_mem_nil
  | cons j l ih =>
    obtain ⟨hj, hnodup⟩ := List.nodup_cons.1 hnodup
    rw [List.map_cons, List.flatten_cons]
    rcases List.mem_cons.1 hi with rfl | hi
    · have hrest : (l.map f).flatten = [] := by
        rw [List.flatten_eq_nil_iff]
        intro bs hbs
        obtain ⟨k, hk, rfl⟩ := List.mem_map.1 hbs
        exact hother k fun hki => hj (hki ▸ hk)
      rw [hrest, List.append_nil]
    · rw [hother j fun hji => hj (hji ▸ hi), List.nil_append, ih hnodup hi]

theorem pollAll_alone {p : Pending n} {i : Fin n} (hread : p.readable i)
    (halone : ∀ j, p.readable j → j = i) :
    pollAll p = some (Function.update p i (p i).tail, (p i).headD []) := by
  have hempty (j : Fin n) (hji : j ≠ i) : p j = [] := by
    by_contra hne
    exact hji (halone j (by simpa [Pending.readable] using hne))
  have htext : ((List.finRange n).map fun j => (p j).headD []).flatten = (p i).headD [] :=
    flatten_map_single (List.nodup_finRange n) (List.mem_finRange i) fun j hji => by
      rw [hempty j hji, List.headD_nil]
  rw [pollAll_eq, if_pos ⟨i, hread⟩, htext]
  congr 2
  funext j
  by_cases hji : j = i
  · subst hji
    rw [Function.update_self]
  · rw [Function.update_of_ne hji, hempty j hji, List.tail_nil]

theorem Sockets.Intact.step (h : s.Intact) {e : SocketEvent n} (halone : Alone s e)
    (hs : s.step pollAll e = some s') : s'.Intact := by
  cases e with
  | arrives i message => exact h.arrives i message hs
  | call =>
    by_cases hread : ∃ i, s.pending.readable i
    · obtain ⟨i, hi⟩ := hread
      simp only [Sockets.step, pollAll_alone hi fun j hj => halone j i hj hi] at hs
      obtain rfl := Option.some.inj hs
      exact h.takes hi
    · simp only [Sockets.step, pollAll_eq, if_neg hread] at hs
      obtain rfl := Option.some.inj hs
      exact h

def Pending.count (p : Pending n) : ℕ := ∑ i, (p i).length

theorem Pending.count_update (p : Pending n) (i : Fin n) (message : Bytes) :
    Pending.count (Function.update p i (p i ++ [message])) = p.count + 1 := by
  have hlength (j : Fin n) : (Function.update p i (p i ++ [message]) j).length =
      (p j).length + if j = i then 1 else 0 := by
    by_cases hji : j = i
    · subst hji
      simp
    · simp [hji]
  simp only [Pending.count, hlength, Finset.sum_add_distrib, Finset.sum_ite_eq',
    Finset.mem_univ, if_true]

theorem Pending.count_tail (p : Pending n) :
    p.count = Pending.count (fun i => (p i).tail) + (Finset.univ.filter (p.readable ·)).card := by
  have hlength (i : Fin n) : (p i).length =
      (p i).tail.length + if p.readable i then 1 else 0 := by
    cases hp : p i <;> simp [Pending.readable, hp]
  rw [Finset.card_filter]
  simp only [Pending.count]
  rw [← Finset.sum_add_distrib]
  exact Finset.sum_congr rfl fun i _ => hlength i

theorem count_owned (owned : List (Fin n × Bytes)) :
    ∑ i, ((owned.filter (·.1 = i)).map Prod.snd).length = owned.length := by
  induction owned with
  | nil => simp
  | cons q owned ih =>
    have hlength (i : Fin n) : (((q :: owned).filter (·.1 = i)).map Prod.snd).length =
        ((owned.filter (·.1 = i)).map Prod.snd).length + if q.1 = i then 1 else 0 := by
      by_cases hqi : q.1 = i <;> simp [hqi]
    simp only [hlength, Finset.sum_add_distrib, Finset.sum_ite_eq, Finset.mem_univ, if_true, ih,
      List.length_cons]

theorem Sockets.Intact.count (h : s.Intact) :
    s.arrived.count = s.handed.length + s.pending.count := by
  obtain ⟨owned, hhanded, harrived⟩ := h
  have hlength (i : Fin n) : (s.arrived i).length =
      ((owned.filter (·.1 = i)).map Prod.snd).length + (s.pending i).length := by
    rw [harrived i, List.length_append]
  rw [Pending.count, Finset.sum_congr rfl fun i _ => hlength i, Finset.sum_add_distrib,
    count_owned, hhanded, List.length_map, Pending.count]

/-- No message is handed over twice, and none is missing only if each call was alone. -/
structure Accounted (tr : List (Sockets n × SocketEvent n)) (s : Sockets n) : Prop where
  le : s.handed.length + s.pending.count ≤ s.arrived.count
  alone : s.arrived.count = s.handed.length + s.pending.count → ∀ q ∈ tr, Alone q.1 q.2

theorem Accounted.step {tr : List (Sockets n × SocketEvent n)} (h : Accounted tr s)
    {e : SocketEvent n} (hs : s.step pollAll e = some s') : Accounted ((s, e) :: tr) s' := by
  have hle := h.le
  cases e with
  | arrives i message =>
    obtain rfl := Option.some.inj hs
    have hpending := Pending.count_update s.pending i message
    have harrived := Pending.count_update s.arrived i message
    refine ⟨by simp only [hpending, harrived]; omega, fun heq => ?_⟩
    simp only [hpending, harrived] at heq
    rw [List.forall_mem_cons]
    exact ⟨trivial, h.alone (by omega)⟩
  | call =>
    by_cases hread : ∃ i, s.pending.readable i
    · simp only [Sockets.step, pollAll_eq, if_pos hread] at hs
      obtain rfl := Option.some.inj hs
      have hcount := Pending.count_tail s.pending
      have hpos : 0 < (Finset.univ.filter (s.pending.readable ·)).card := by
        obtain ⟨i, hi⟩ := hread
        exact Finset.card_pos.2 ⟨i, by simpa using hi⟩
      refine ⟨by simp only [List.length_append, List.length_singleton]; omega, fun heq => ?_⟩
      simp only [List.length_append, List.length_singleton] at heq
      rw [List.forall_mem_cons]
      refine ⟨fun i j hi hj => ?_, h.alone (by omega)⟩
      have hone : (Finset.univ.filter (s.pending.readable ·)).card ≤ 1 := by omega
      exact Finset.card_le_one.1 hone i (by simpa using hi) j (by simpa using hj)
    · simp only [Sockets.step, pollAll_eq, if_neg hread] at hs
      obtain rfl := Option.some.inj hs
      refine ⟨hle, fun heq => ?_⟩
      rw [List.forall_mem_cons]
      exact ⟨fun i j hi => absurd ⟨i, hi⟩ hread, h.alone heq⟩

end Runs

theorem intact_iff_alone {n : ℕ} {pending : Pending n} {s : Sockets n}
    {tr : List (Sockets n × SocketEvent n)}
    (hrun : Run (Sockets.step pollAll) (Sockets.initial pending) tr s) :
    s.Intact ↔ ∀ q ∈ tr, Alone q.1 q.2 := by
  constructor
  · intro hintact
    have haccounted : Accounted tr s := hrun.history
      ⟨by simp [Sockets.initial], fun _ => by simp⟩ fun _ _ _ _ hi hs => hi.step hs
    exact haccounted.alone hintact.count
  · intro halone
    refine hrun.invariant_of_steps ⟨[], rfl, fun i => rfl⟩ ?_ halone
    intro t e t' hintact hone hstep
    exact hintact.step hone hstep

inductive SerialCall where
  | sRecv3
  | sRecv4
  | sRecvNoblock

def SerialCall.sockets : SerialCall → ℕ
  | sRecv3 => 3
  | sRecv4 => 4
  | sRecvNoblock => 3

def SerialCall.recv : (c : SerialCall) →
    Pending c.sockets → Option (Pending c.sockets × Bytes)
  | sRecv3 => Flocksy.sRecv3
  | sRecv4 => Flocksy.sRecv4
  | sRecvNoblock => Flocksy.sRecvNoblock

/-- The calls that test one socket after the other hand over each message once, alone and in
its order exactly where no two sockets are readable at one poll. -/
theorem messages_intact_iff (c : SerialCall) {pending : Pending c.sockets}
    {s : Sockets c.sockets} {tr : List (Sockets c.sockets × SocketEvent c.sockets)}
    (hrun : Run (Sockets.step c.recv) (Sockets.initial pending) tr s) :
    s.Intact ↔ ∀ q ∈ tr, Alone q.1 q.2 := by
  cases c with
  | sRecv3 => exact intact_iff_alone hrun
  | sRecv4 => exact intact_iff_alone hrun
  | sRecvNoblock => exact intact_iff_alone hrun

namespace Sample

def inTurn (i : Fin 3) : List (SocketEvent 3) := [.call, .arrives i [50], .call]

end Sample

theorem messages_intact_iff_inTurn :
    let s := after (Sockets.step sRecv3) (Sockets.initial ![[[49]], [], []])
      (Sample.inTurn 1)
    s.handed = [[49], [50]] ∧ s.Intact := by
  have hfacts : (runAll (Sockets.step sRecv3) (Sockets.initial ![[[49]], [], []])
      (Sample.inTurn 1)).isSome = true ∧
      (after (Sockets.step sRecv3) (Sockets.initial ![[[49]], [], []]) (Sample.inTurn 1)).handed =
        [[49], [50]] ∧
      ∀ q ∈ record (Sockets.step sRecv3) (Sockets.initial ![[[49]], [], []]) (Sample.inTurn 1) [],
        Alone q.1 q.2 := by
    decide
  obtain ⟨hruns, hhanded, halone⟩ := hfacts
  exact ⟨hhanded, (messages_intact_iff .sRecv3 (run_after hruns)).2 halone⟩

/-- A message on each of the first two sockets, and one call. -/
theorem not_messages_intact :
    ¬ ∀ s tr, Run (Sockets.step sRecv3) (Sockets.initial ![[[49]], [[50]], []]) tr s →
      s.Intact := by
  intro hintact
  have hstep : Sockets.step sRecv3 (Sockets.initial ![[[49]], [[50]], []]) .call =
      some ⟨fun i => (![[[49]], [[50]], []] i).tail, ![[[49]], [[50]], []], [[49, 50]]⟩ := by
    have hread : ∃ i, Pending.readable ![[[49]], [[50]], []] i = true := ⟨0, rfl⟩
    have hcall := pollAll_eq (p := ![[[49]], [[50]], []])
    rw [if_pos hread] at hcall
    simp only [Sockets.step, sRecv3, Sockets.initial, hcall]
    rfl
  have hcount := (hintact _ _ (.snoc .nil hstep)).count
  exact absurd hcount (by decide)

end Flocksy
