import Mathlib

/-!
# Runs of a transition function

A run is the list of the steps taken, newest first, each with the state it was
taken in. Invariants may speak about the state alone or about the history. The
last section is about barriers: marks that are cleared when a window opens and
set only by acknowledgements received inside it, so that at any time every mark
has its acknowledgement among the steps taken since the window opened.
-/

namespace Runs

variable {σ ι κ ω : Type*} {next : σ → ι → Option σ}

inductive Run (next : σ → ι → Option σ) (start : σ) : List (σ × ι) → σ → Prop where
  | nil : Run next start [] start
  | snoc {tr : List (σ × ι)} {s s' : σ} {i : ι} :
      Run next start tr s → next s i = some s' → Run next start ((s, i) :: tr) s'

theorem Run.history {start : σ} {I : List (σ × ι) → σ → Prop} (h0 : I [] start)
    (hstep : ∀ tr s i s', I tr s → next s i = some s' → I ((s, i) :: tr) s')
    {tr : List (σ × ι)} {s : σ} (h : Run next start tr s) : I tr s := by
  induction h with
  | nil => exact h0
  | snoc _ hs ih => exact hstep _ _ _ _ ih hs

theorem Run.invariant {start : σ} {Inv : σ → Prop} (h0 : Inv start)
    (hstep : ∀ s i s', Inv s → next s i = some s' → Inv s')
    {tr : List (σ × ι)} {s : σ} (h : Run next start tr s) : Inv s :=
  h.history (I := fun _ => Inv) h0 (fun _ => hstep)

theorem Run.invariant_of_steps {start : σ} {P : σ → ι → Prop} {Inv : σ → Prop} (h0 : Inv start)
    (hstep : ∀ s i s', Inv s → P s i → next s i = some s' → Inv s')
    {tr : List (σ × ι)} {s : σ} (h : Run next start tr s) (hok : ∀ p ∈ tr, P p.1 p.2) : Inv s := by
  induction h with
  | nil => exact h0
  | snoc _ hs ih =>
    rw [List.forall_mem_cons] at hok
    exact hstep _ _ _ (ih hok.2) hok.1 hs

def runAll (next : σ → ι → Option σ) : σ → List ι → Option σ
  | s, [] => some s
  | s, i :: is => (next s i).bind fun s' => runAll next s' is

def record (next : σ → ι → Option σ) : σ → List ι → List (σ × ι) → List (σ × ι)
  | _, [], tr => tr
  | s, i :: is, tr =>
    match next s i with
    | none => tr
    | some s' => record next s' is ((s, i) :: tr)

theorem Run.append {start : σ} {tr : List (σ × ι)} {s s' : σ} {is : List ι}
    (h : Run next start tr s) (hs : runAll next s is = some s') :
    Run next start (record next s is tr) s' := by
  induction is generalizing s tr with
  | nil =>
    obtain rfl := Option.some.inj hs
    exact h
  | cons i is ih =>
    cases hi : next s i with
    | none => simp [runAll, hi] at hs
    | some t =>
      simp only [runAll, hi, Option.bind_some] at hs
      simpa only [record, hi] using ih (h.snoc hi) hs

theorem runAll_append (s : σ) (is js : List ι) :
    runAll next s (is ++ js) = (runAll next s is).bind fun t => runAll next t js := by
  induction is generalizing s with
  | nil => rfl
  | cons i is ih => cases hi : next s i <;> simp [runAll, hi, ih]

def after (next : σ → ι → Option σ) (s : σ) (is : List ι) : σ := (runAll next s is).getD s

theorem run_after {start : σ} {is : List ι} (h : (runAll next start is).isSome = true) :
    Run next start (record next start is []) (after next start is) := by
  obtain ⟨s, hs⟩ := Option.isSome_iff_exists.1 h
  rw [after, hs]
  exact Run.append .nil hs

theorem next_after {start : σ} (is : List ι) {i : ι}
    (h : (runAll next start (is ++ [i])).isSome = true) :
    next (after next start is) i = some (after next start (is ++ [i])) := by
  obtain ⟨t, ht⟩ := Option.isSome_iff_exists.1 h
  rw [after, after, ht]
  rw [runAll_append] at ht
  obtain ⟨s, hs, hst⟩ := Option.bind_eq_some_iff.1 ht
  rw [hs]
  cases hi : next s i with
  | none => simp [runAll, hi] at hst
  | some u => simpa [runAll, hi] using hst

theorem run_next_after (next : σ → ι → Option σ) (start : σ) (is : List ι) (i : ι)
    (h : (runAll next start (is ++ [i])).isSome = true) :
    Run next start (record next start is []) (after next start is) ∧
      next (after next start is) i = some (after next start (is ++ [i])) := by
  refine ⟨run_after ?_, next_after is h⟩
  rw [runAll_append] at h
  cases hs : runAll next start is with
  | none => simp [hs] at h
  | some s => rfl

/-- Some step satisfying `P` was taken since the states began to satisfy `stays`. -/
def Since (stays : σ → Prop) (P : σ → ι → Prop) : List (σ × ι) → Prop
  | [] => False
  | (s, i) :: tr => stays s ∧ (P s i ∨ Since stays P tr)

instance Since.decidable {stays : σ → Prop} {P : σ → ι → Prop} [DecidablePred stays]
    [∀ s, DecidablePred (P s)] : (tr : List (σ × ι)) → Decidable (Since stays P tr)
  | [] => inferInstanceAs (Decidable False)
  | (s, i) :: tr =>
    have : Decidable (Since stays P tr) := Since.decidable tr
    inferInstanceAs (Decidable (stays s ∧ (P s i ∨ Since stays P tr)))

theorem Run.marked_since {start : σ} {Inv : σ → Prop} (window : σ → Option ω)
    (marked : σ → κ → Prop) (acks : ω → κ → ι → Prop) (h0 : window start = none)
    (hinv : ∀ tr s, Run next start tr s → Inv s)
    (hstep : ∀ s i s' w k, Inv s → next s i = some s' → window s' = some w → marked s' k →
      window s = some w ∧ (marked s k ∨ acks w k i))
    {tr : List (σ × ι)} {s : σ} (h : Run next start tr s) {w : ω} {k : κ}
    (hw : window s = some w) (hm : marked s k) :
    Since (fun s => window s = some w) (fun _ => acks w k) tr := by
  induction h with
  | nil => simp [h0] at hw
  | snoc hrun hs ih =>
    obtain ⟨hws, hmark | hack⟩ := hstep _ _ _ _ _ (hinv _ _ hrun) hs hw hm
    · exact ⟨hws, .inr (ih hws hmark)⟩
    · exact ⟨hws, .inl hack⟩

theorem Since.imp {stays stays' : σ → Prop} {P P' : σ → ι → Prop}
    (hs : ∀ s, stays s → stays' s) (hp : ∀ s i, P s i → P' s i) {tr : List (σ × ι)}
    (h : Since stays P tr) : Since stays' P' tr := by
  induction tr with
  | nil => exact h
  | cons p tr ih => exact ⟨hs _ h.1, h.2.imp (hp _ _) ih⟩

end Runs
