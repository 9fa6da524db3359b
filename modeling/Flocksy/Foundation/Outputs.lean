import Flocksy.Foundation.Runs

/-!
# What a run puts out

Each step puts something out, or is marked, or carries a value. A run puts out what its steps do,
one after the other; `latest` is the newest value since the newest mark. A measure that every step
lowers bounds the length of a run.
-/

namespace Runs

variable {σ ι ω α : Type*}

def outputs (out : σ → ι → List ω) : List (σ × ι) → List ω
  | [] => []
  | p :: tr => outputs out tr ++ out p.1 p.2

def marked (mark : σ → ι → Bool) : List (σ × ι) → List (σ × ι)
  | [] => []
  | p :: tr => marked mark tr ++ if mark p.1 p.2 then [p] else []

/-- A step with a mark hides the values of the steps before it. -/
def latest (mark : σ → ι → Bool) (value : σ → ι → Option α) : List (σ × ι) → Option α
  | [] => none
  | p :: tr => if mark p.1 p.2 then value p.1 p.2 else (value p.1 p.2).or (latest mark value tr)

theorem Run.length_add_le {next : σ → ι → Option σ} {start : σ} {P : σ → ι → Prop}
    {measure : σ → ℕ}
    (hstep : ∀ s i s', P s i → next s i = some s' → measure s' + 1 ≤ measure s)
    {tr : List (σ × ι)} {s : σ} (h : Run next start tr s) (hok : ∀ p ∈ tr, P p.1 p.2) :
    tr.length + measure s ≤ measure start := by
  induction h with
  | nil => simp
  | @snoc tr s s' i _ hs ih =>
    rw [List.forall_mem_cons] at hok
    have hlower : measure s' + 1 ≤ measure s := hstep s i s' hok.1 hs
    have hrest : tr.length + measure s ≤ measure start := ih hok.2
    rw [List.length_cons]
    omega

theorem forall₂_comp {β γ : Type*} {R : α → β → Prop} {S : β → γ → Prop} {as : List α} {bs : List β}
    {cs : List γ} (h : List.Forall₂ R as bs) (h' : List.Forall₂ S bs cs) :
    List.Forall₂ (Relation.Comp R S) as cs := by
  induction h generalizing cs with
  | nil =>
    cases h' with
    | nil => exact .nil
  | cons hr _ ih =>
    cases h' with
    | cons hs hrest => exact .cons ⟨_, hr, hs⟩ (ih hrest)

variable {mark : σ → ι → Bool} {value : σ → ι → Option α} {tr : List (σ × ι)} {s : σ} {i : ι}

theorem marked_of_mark (h : mark s i = true) :
    marked mark ((s, i) :: tr) = marked mark tr ++ [(s, i)] := by
  rw [marked, if_pos h]

theorem marked_of_not (h : mark s i = false) : marked mark ((s, i) :: tr) = marked mark tr := by
  simp [marked, h]

theorem latest_of_mark (h : mark s i = true) :
    latest mark value ((s, i) :: tr) = value s i := by
  rw [latest, if_pos h]

theorem latest_of_value (h : mark s i = false) {a : α} (ha : value s i = some a) :
    latest mark value ((s, i) :: tr) = some a := by
  simp [latest, h, ha]

theorem latest_of_neither (h : mark s i = false) (hnone : value s i = none) :
    latest mark value ((s, i) :: tr) = latest mark value tr := by
  simp [latest, h, hnone]

theorem exists_of_latest {a : α} (h : latest mark value tr = some a) :
    ∃ p ∈ tr, value p.1 p.2 = some a := by
  induction tr with
  | nil => simp [latest] at h
  | cons p tr ih =>
    by_cases hp : value p.1 p.2 = some a
    · exact ⟨p, List.mem_cons_self, hp⟩
    · have hlater : latest mark value tr = some a := by
        rw [latest] at h
        split_ifs at h
        · exact absurd h hp
        · exact (Option.or_eq_some_iff.1 h).elim (fun h => absurd h hp) fun h => h.2
      obtain ⟨q, hq, hvalue⟩ := ih hlater
      exact ⟨q, List.mem_cons_of_mem _ hq, hvalue⟩

end Runs
