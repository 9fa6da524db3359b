import Mathlib

/-!
# Chains

Each place names at most one next place. Where only finitely many places are named at all, the
chain from a place ends if and only if it does not come to a cycle.
-/

namespace Chains

variable {α : Type*} (next : α → Option α)

/-- `b` is the place after `a`. -/
def Link (a b : α) : Prop := next a = some b

/-- The chain from here ends at `last`, after so many links. -/
def EndsAt (last : α) : ℕ → α → Prop
  | 0, a => a = last ∧ next a = none
  | n + 1, a => ∃ b, Link next a b ∧ EndsAt last n b

def Circles (a : α) : Prop :=
  ∃ b, Relation.ReflTransGen (Link next) a b ∧ Relation.TransGen (Link next) b b

variable {next} {a b last : α} {n : ℕ}

theorem EndsAt.link (h : EndsAt next last n a) (hab : Link next a b) :
    ∃ m < n, EndsAt next last m b := by
  cases n with
  | zero =>
    obtain ⟨-, hnone⟩ := h
    rw [Link, hnone] at hab
    cases hab
  | succ n =>
    obtain ⟨c, hac, hc⟩ := h
    rw [Link] at hab hac
    rw [hab] at hac
    cases hac
    exact ⟨n, Nat.lt_succ_self n, hc⟩

theorem EndsAt.last_eq {last' : α} {m : ℕ} (h : EndsAt next last n a)
    (h' : EndsAt next last' m a) : last = last' := by
  induction n generalizing a m with
  | zero =>
    obtain ⟨rfl, hnone⟩ := h
    cases m with
    | zero => exact h'.1
    | succ m =>
      obtain ⟨b, hab, -⟩ := h'
      rw [Link, hnone] at hab
      cases hab
  | succ n ih =>
    obtain ⟨b, hab, hb⟩ := h
    obtain ⟨k, -, hb'⟩ := h'.link hab
    exact ih hb hb'

theorem EndsAt.next_last (h : EndsAt next last n a) : next last = none := by
  induction n generalizing a with
  | zero => exact h.1 ▸ h.2
  | succ n ih =>
    obtain ⟨b, -, hb⟩ := h
    exact ih hb

theorem EndsAt.links (h : EndsAt next last n a) (hab : Relation.TransGen (Link next) a b) :
    ∃ m < n, EndsAt next last m b := by
  induction hab with
  | single hab => exact h.link hab
  | tail _ hbc ih =>
    obtain ⟨m, hm, hb⟩ := ih
    obtain ⟨k, hk, hc⟩ := hb.link hbc
    exact ⟨k, hk.trans hm, hc⟩

/-- On a cycle the number of links that are left would go down for ever. -/
theorem EndsAt.not_cycle (h : EndsAt next last n a) : ¬ Relation.TransGen (Link next) a a := by
  intro hcycle
  induction n using Nat.strong_induction_on with
  | h n ih =>
    obtain ⟨m, hm, hends⟩ := h.links hcycle
    exact ih m hm hends

theorem EndsAt.not_circles (h : EndsAt next last n a) : ¬ Circles next a := by
  rintro ⟨b, hreach, hcycle⟩
  rcases Relation.reflTransGen_iff_eq_or_transGen.1 hreach with rfl | hreach
  · exact h.not_cycle hcycle
  · obtain ⟨m, -, hb⟩ := h.links hreach
    exact hb.not_cycle hcycle

theorem finite_reached (hfinite : {b | ∃ a, Link next a b}.Finite) (a : α) :
    {b | Relation.ReflTransGen (Link next) a b}.Finite := by
  refine (hfinite.insert a).subset fun b hb => ?_
  rcases Relation.ReflTransGen.cases_tail hb with rfl | ⟨c, -, hcb⟩
  · exact Set.mem_insert _ _
  · exact Set.mem_insert_of_mem _ ⟨c, hcb⟩

theorem exists_endsAt (hfinite : {b | ∃ a, Link next a b}.Finite) (h : ¬ Circles next a) :
    ∃ last n, EndsAt next last n a := by
  have hreached := finite_reached hfinite a
  have : Finite {b | Relation.ReflTransGen (Link next) a b} := hreached
  -- the links between what is reached are well-founded
  let after (c b : {b | Relation.ReflTransGen (Link next) a b}) : Prop :=
    Relation.TransGen (Link next) b.1 c.1
  have htrans : IsTrans _ after := ⟨fun _ _ _ hcb hdc => hdc.trans hcb⟩
  have hirrefl : Std.Irrefl after := ⟨fun b hb => h ⟨b.1, b.2, hb⟩⟩
  have hwf : WellFounded after := Finite.wellFounded_of_trans_of_irrefl after
  have hall (b : {b | Relation.ReflTransGen (Link next) a b}) :
      ∃ last n, EndsAt next last n b.1 := by
    refine hwf.induction (C := fun b => ∃ last n, EndsAt next last n b.1) b fun b ih => ?_
    cases hnext : next b.1 with
    | none => exact ⟨b.1, 0, rfl, hnext⟩
    | some c =>
      obtain ⟨last, n, hc⟩ := ih ⟨c, b.2.tail hnext⟩ (.single hnext)
      exact ⟨last, n + 1, c, hnext, hc⟩
  exact hall ⟨a, .refl⟩

theorem endsAt_iff (hfinite : {b | ∃ a, Link next a b}.Finite) :
    (∃ last n, EndsAt next last n a) ↔ ¬ Circles next a :=
  ⟨fun ⟨_, _, h⟩ => h.not_circles, exists_endsAt hfinite⟩

end Chains
