import Flocksy.Foundation.Runs

/-!
# Stays

The newest steps of a run that were taken inside a set of states are its last stay there; what is
older is the run that led to it. A latch is a flag that is set with a message and not cleared inside
the set, so in a stay the message is sent at most once, and once if the flag was clear at its
beginning and a step asked for the message.
-/

namespace Runs

variable {σ ι : Type*} {next : σ → ι → Option σ}

theorem Run.split {start s : σ} {newer older : List (σ × ι)}
    (h : Run next start (newer ++ older) s) :
    ∃ m, Run next start older m ∧ Run next m newer s := by
  induction newer generalizing s with
  | nil => exact ⟨s, h, .nil⟩
  | cons p newer ih =>
    cases h with
    | snoc hrun hstep =>
      obtain ⟨m, holder, hnewer⟩ := ih hrun
      exact ⟨m, holder, hnewer.snoc hstep⟩

section Stay

variable (inside : σ → Bool)

def stay (tr : List (σ × ι)) : List (σ × ι) := tr.takeWhile fun p => inside p.1

def before (tr : List (σ × ι)) : List (σ × ι) := tr.dropWhile fun p => inside p.1

theorem Run.stay {start s : σ} {tr : List (σ × ι)} (h : Run next start tr s) :
    ∃ m, Run next start (before inside tr) m ∧ Run next m (stay inside tr) s := by
  rw [← List.takeWhile_append_dropWhile (p := fun p : σ × ι => inside p.1) (l := tr)] at h
  exact h.split

theorem inside_of_mem_stay {tr : List (σ × ι)} {p : σ × ι} (hp : p ∈ Runs.stay inside tr) :
    inside p.1 = true :=
  List.mem_takeWhile_imp (p := fun p : σ × ι => inside p.1) hp

end Stay

/-- What a step inside does to the latch, and how many messages it sends. -/
structure LatchStep (flag : σ → Bool) (asks : σ → ι → Prop) (sent : σ → ι → ℕ) (s : σ) (i : ι)
    (s' : σ) : Prop where
  counts : (flag s').toNat = (flag s).toNat + sent s i
  asked : asks s i → flag s' = true

variable {flag : σ → Bool} {asks : σ → ι → Prop} {sent : σ → ι → ℕ}

theorem Run.latch {start s : σ} {tr : List (σ × ι)} (h : Run next start tr s)
    (hstep : ∀ p ∈ tr, ∀ s', next p.1 p.2 = some s' → LatchStep flag asks sent p.1 p.2 s') :
    (flag s).toNat = (flag start).toNat + (tr.map fun p => sent p.1 p.2).sum ∧
      ((∃ p ∈ tr, asks p.1 p.2) → flag s = true) := by
  induction h with
  | nil => simp
  | @snoc tr s s' i hrun hs ih =>
    rw [List.forall_mem_cons] at hstep
    obtain ⟨hcount, hasked⟩ := ih hstep.2
    have hlast := hstep.1 s' hs
    refine ⟨?_, ?_⟩
    · rw [hlast.counts, hcount, List.map_cons, List.sum_cons]
      omega
    · rintro ⟨p, hp, hasks⟩
      rcases List.mem_cons.1 hp with rfl | hp
      · exact hlast.asked hasks
      · have hset := hasked ⟨p, hp, hasks⟩
        have hcounts := hlast.counts
        rw [hset, Bool.toNat_true] at hcounts
        exact Bool.toNat_eq_one.1 (by have hle := (flag s').toNat_le; omega)

end Runs
