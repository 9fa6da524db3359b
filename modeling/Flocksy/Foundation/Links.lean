import Flocksy.Foundation.Runs

/-!
# Stations on FIFO links

Each station has a state of its own and a link to each other station. In a step a station
takes an input from outside, puts a message about its state on its links, or takes the
oldest message of a link to it. `Protocol.localInvariant` is the rule for what holds of every
station and every message under way: a step is looked at in the station that takes it,
which may rely on what its peers promise of their messages.
-/

namespace Links

open Runs

variable {ι σ μ α τ ε : Type*}

/-- The messages from `i` to `j`, oldest first, are in `link i j`. -/
structure Net (ι σ μ : Type*) where
  station : ι → σ
  link : ι → ι → List μ

inductive Act (ι α τ ε : Type*) where
  | own (i : ι) (a : α)
  | broadcast (i : ι) (t : τ)
  | deliver (i j : ι) (e : ε)

/-- `take j s i m e` is the state of station `j` after it took the message `m` of station `i`. -/
structure Protocol (ι σ μ α τ ε : Type*) where
  start : ι → σ
  own : ι → σ → α → Option σ
  emit : ι → σ → τ → μ
  take : ι → σ → ι → μ → ε → Option σ

namespace Protocol

def initial (P : Protocol ι σ μ α τ ε) : Net ι σ μ := ⟨P.start, fun _ _ => []⟩

variable [DecidableEq ι]

def next (P : Protocol ι σ μ α τ ε) (s : Net ι σ μ) : Act ι α τ ε → Option (Net ι σ μ)
  | .own i a => (P.own i (s.station i) a).map fun st => ⟨Function.update s.station i st, s.link⟩
  | .broadcast i t => some ⟨s.station, fun j k =>
      if j = i ∧ k ≠ i then s.link j k ++ [P.emit i (s.station i) t] else s.link j k⟩
  | .deliver i j e =>
    match s.link i j with
    | [] => none
    | m :: ms => (P.take j (s.station j) i m e).map fun st =>
        ⟨Function.update s.station j st, fun k l => if k = i ∧ l = j then ms else s.link k l⟩

variable {P : Protocol ι σ μ α τ ε} {s s' : Net ι σ μ} {act : Act ι α τ ε}

inductive Stepped (P : Protocol ι σ μ α τ ε) (s : Net ι σ μ) : Act ι α τ ε → Net ι σ μ → Prop where
  | own {i : ι} {a : α} {st : σ} : P.own i (s.station i) a = some st →
      Stepped P s (.own i a) ⟨Function.update s.station i st, s.link⟩
  | broadcast {i : ι} {t : τ} : Stepped P s (.broadcast i t) ⟨s.station, fun j k =>
      if j = i ∧ k ≠ i then s.link j k ++ [P.emit i (s.station i) t] else s.link j k⟩
  | deliver {i j : ι} {e : ε} {m : μ} {ms : List μ} {st : σ} : s.link i j = m :: ms →
      P.take j (s.station j) i m e = some st → Stepped P s (.deliver i j e)
        ⟨Function.update s.station j st, fun k l => if k = i ∧ l = j then ms else s.link k l⟩

theorem stepped_of_next (h : P.next s act = some s') : Stepped P s act s' := by
  cases act with
  | own i a =>
    obtain ⟨st, hst, rfl⟩ := Option.map_eq_some_iff.1 h
    exact .own hst
  | broadcast i t =>
    obtain rfl := Option.some.inj h
    exact .broadcast
  | deliver i j e =>
    cases hlink : s.link i j with
    | nil => simp [next, hlink] at h
    | cons m ms =>
      simp only [next, hlink] at h
      obtain ⟨st, hst, rfl⟩ := Option.map_eq_some_iff.1 h
      exact .deliver hlink hst

theorem mem_link_of_next (h : P.next s act = some s') {i j : ι} {m : μ} (hm : m ∈ s'.link i j) :
    m ∈ s.link i j ∨ i ≠ j ∧ ∃ t, act = .broadcast i t ∧ m = P.emit i (s.station i) t := by
  cases stepped_of_next h with
  | own => exact .inl hm
  | @broadcast k t =>
    simp only at hm
    split_ifs at hm with hlink
    · obtain ⟨rfl, hne⟩ := hlink
      rcases List.mem_append.1 hm with hm | hm
      · exact .inl hm
      · exact .inr ⟨hne.symm, t, rfl, List.mem_singleton.1 hm⟩
    · exact .inl hm
  | @deliver k l e m' ms st hlink =>
    simp only at hm
    split_ifs at hm with hkl
    · obtain ⟨rfl, rfl⟩ := hkl
      exact .inl (hlink ▸ List.mem_cons_of_mem _ hm)
    · exact .inl hm

section Invariants

variable {G : List (Net ι σ μ × Act ι α τ ε) → ι → σ → Prop}
  {M : List (Net ι σ μ × Act ι α τ ε) → ι → ι → μ → Prop}

/-- What the stations keep (`G`) and what is true of the messages under way (`M`). -/
structure Holds (G : List (Net ι σ μ × Act ι α τ ε) → ι → σ → Prop)
    (M : List (Net ι σ μ × Act ι α τ ε) → ι → ι → μ → Prop) (tr : List (Net ι σ μ × Act ι α τ ε))
    (s : Net ι σ μ) : Prop where
  station : ∀ i, G tr i (s.station i)
  link : ∀ i j, ∀ m ∈ s.link i j, i ≠ j ∧ M tr i j m

theorem localInvariant (hstart : ∀ i, G [] i (P.start i))
    (hkeepG : ∀ tr p i st, G tr i st → G (p :: tr) i st)
    (hkeepM : ∀ tr p i j m, M tr i j m → M (p :: tr) i j m)
    (hown : ∀ tr s i a s', Holds G M tr s → P.next s (.own i a) = some s' →
      P.own i (s.station i) a = some (s'.station i) → G ((s, .own i a) :: tr) i (s'.station i))
    (hemit : ∀ tr i j st t, G tr i st → M tr i j (P.emit i st t))
    (htake : ∀ tr s i j m ms e s', Holds G M tr s → P.next s (.deliver i j e) = some s' →
      s.link i j = m :: ms → P.take j (s.station j) i m e = some (s'.station j) →
      G ((s, .deliver i j e) :: tr) j (s'.station j))
    {tr : List (Net ι σ μ × Act ι α τ ε)} {s : Net ι σ μ} (hrun : Run P.next P.initial tr s) :
    Holds G M tr s := by
  induction hrun with
  | nil => exact ⟨hstart, fun _ _ _ hm => absurd hm List.not_mem_nil⟩
  | @snoc tr s s' act hrun hs ih =>
    refine ⟨fun k => ?_, fun i j m hm => ?_⟩
    · have hother : s'.station k = s.station k → G ((s, act) :: tr) k (s'.station k) :=
        fun h => h ▸ hkeepG _ _ _ _ (ih.station k)
      cases stepped_of_next hs with
      | @own i a st hst =>
        by_cases hk : k = i
        · subst hk
          exact hown _ _ _ _ _ ih hs (by simpa using hst)
        · exact hother (Function.update_of_ne hk _ _)
      | broadcast => exact hother rfl
      | @deliver i j e m ms st hlink hst =>
        by_cases hk : k = j
        · subst hk
          exact htake _ _ _ _ _ _ _ _ ih hs hlink (by simpa using hst)
        · exact hother (Function.update_of_ne hk _ _)
    · rcases mem_link_of_next hs hm with hm | ⟨hne, t, -, rfl⟩
      · exact (ih.link i j m hm).imp_right (hkeepM _ _ _ _ _)
      · exact ⟨hne, hkeepM _ _ _ _ _ (hemit _ _ _ _ _ (ih.station i))⟩

end Invariants

end Protocol

end Links
