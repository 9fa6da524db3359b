import Mathlib

/-!
# Statements that return early or fail

The result of a statement in a function body: control goes on with a state, the
function returns a value, or it fails. `andThen` is sequencing. A postcondition
has one clause for each of the three ways a statement can end, and a sequence
meets the one of its last statement when the clauses for leaving agree.
-/

inductive Exec (σ ρ φ : Type*) where
  | next (s : σ)
  | ret (r : ρ) (s : σ)
  | fault (f : φ)

namespace Exec

variable {σ ρ φ α : Type*}

def andThen : Exec σ ρ φ → (σ → Exec σ ρ φ) → Exec σ ρ φ
  | .next s, k => k s
  | .ret r s, _ => .ret r s
  | .fault f, _ => .fault f

/-- `if ( !b ) return r;` -/
def require (b : Bool) (r : ρ) (s : σ) : Exec σ ρ φ := if b then .next s else .ret r s

def ofExcept : Except φ σ → Exec σ ρ φ
  | .ok s => .next s
  | .error f => .fault f

structure Posts (σ ρ φ : Type*) where
  next : σ → Prop
  ret : ρ → σ → Prop
  fault : φ → Prop

def Post : Exec σ ρ φ → Posts σ ρ φ → Prop
  | .next s, Q => Q.next s
  | .ret r s, Q => Q.ret r s
  | .fault f, Q => Q.fault f

def whenNext (P : σ → Prop) : Posts σ ρ φ := ⟨P, fun _ _ => True, fun _ => True⟩

def whenReturned (P : σ → Prop) : Posts σ ρ φ := ⟨P, fun _ => P, fun _ => True⟩

variable {Q : Posts σ ρ φ} {P : σ → Prop} {x : Exec σ ρ φ} {k : σ → Exec σ ρ φ}

@[simp] theorem post_next {s : σ} : (next s : Exec σ ρ φ).Post Q ↔ Q.next s := .rfl
@[simp] theorem post_ret {r : ρ} {s : σ} : (ret r s : Exec σ ρ φ).Post Q ↔ Q.ret r s := .rfl
@[simp] theorem post_fault {f : φ} : (fault f : Exec σ ρ φ).Post Q ↔ Q.fault f := .rfl

theorem Post.andThen (hx : x.Post { Q with next := P }) (hk : ∀ s, P s → (k s).Post Q) :
    (x.andThen k).Post Q := by
  cases x with
  | next s => exact hk s hx
  | ret r s => exact hx
  | fault f => exact hx

theorem Post.mono {Q' : Posts σ ρ φ} (hx : x.Post Q) (hn : ∀ s, Q.next s → Q'.next s)
    (hr : ∀ r s, Q.ret r s → Q'.ret r s) (hf : ∀ f, Q.fault f → Q'.fault f) : x.Post Q' := by
  cases x with
  | next s => exact hn s hx
  | ret r s => exact hr r s hx
  | fault f => exact hf f hx

theorem Post.thenKeeps (hx : x.Post (whenNext P)) (hk : ∀ s, P s → (k s).Post (whenNext P)) :
    (x.andThen k).Post (whenNext P) :=
  Post.andThen (Q := whenNext P) hx hk

theorem Post.returnedThenKeeps (hx : x.Post (whenReturned P))
    (hk : ∀ s, P s → (k s).Post (whenReturned P)) : (x.andThen k).Post (whenReturned P) :=
  Post.andThen (Q := whenReturned P) hx hk

theorem Post.whenNext_of_returned (hx : x.Post (whenReturned P)) : x.Post (whenNext P) :=
  hx.mono (fun _ h => h) (fun _ _ _ => trivial) fun _ h => h

theorem Post.of_next {s : σ} (hx : x.Post (whenNext P)) (h : x = .next s) : P s := by
  rw [h] at hx
  exact hx

theorem post_require {b : Bool} {r : ρ} {s : σ} :
    (require b r s : Exec σ ρ φ).Post Q ↔ if b then Q.next s else Q.ret r s := by
  unfold require
  split_ifs <;> rfl

end Exec
