import Mathlib

/-!
# Tables that grow when they are read

A finite map with the access of `std::unordered_map::operator[]`: looking up a
missing key inserts it with the default value. The values of absent keys play no
part, so a table is the list of its keys and a total function.
-/

structure KeyedTable (κ ν : Type*) where
  keys : List κ
  val : κ → ν

namespace KeyedTable

variable {κ ν : Type*} [DecidableEq κ] [Inhabited ν]

def touch (t : KeyedTable κ ν) (k : κ) : KeyedTable κ ν :=
  if k ∈ t.keys then t
  else ⟨k :: t.keys, fun x => if x = k then default else t.val x⟩

def modify (t : KeyedTable κ ν) (k : κ) (f : ν → ν) : KeyedTable κ ν :=
  ⟨(t.touch k).keys, fun x => if x = k then f ((t.touch k).val k) else (t.touch k).val x⟩

def mapValues (t : KeyedTable κ ν) (f : ν → ν) : KeyedTable κ ν := ⟨t.keys, f ∘ t.val⟩

def all (t : KeyedTable κ ν) (p : ν → Bool) : Bool := t.keys.all fun k => p (t.val k)

omit [DecidableEq κ] [Inhabited ν] in
@[simp] theorem mapValues_keys (t : KeyedTable κ ν) (f : ν → ν) : (t.mapValues f).keys = t.keys :=
  rfl

omit [DecidableEq κ] [Inhabited ν] in
@[simp] theorem mapValues_val (t : KeyedTable κ ν) (f : ν → ν) (k : κ) :
    (t.mapValues f).val k = f (t.val k) := rfl

omit [DecidableEq κ] [Inhabited ν] in
theorem all_iff {t : KeyedTable κ ν} {p : ν → Bool} :
    t.all p = true ↔ ∀ k ∈ t.keys, p (t.val k) = true := by
  simp [all]

theorem mem_touch_keys {t : KeyedTable κ ν} {k x : κ} :
    x ∈ (t.touch k).keys ↔ x = k ∨ x ∈ t.keys := by
  unfold touch
  split_ifs with h
  · exact ⟨.inr, fun hx => hx.elim (fun e => e ▸ h) id⟩
  · simp

theorem touch_val (t : KeyedTable κ ν) (k x : κ) :
    (t.touch k).val x = if x = k ∧ k ∉ t.keys then default else t.val x := by
  unfold touch
  split_ifs <;> simp_all

theorem mem_modify_keys {t : KeyedTable κ ν} {k x : κ} {f : ν → ν} :
    x ∈ (t.modify k f).keys ↔ x = k ∨ x ∈ t.keys :=
  mem_touch_keys

theorem modify_val_self (t : KeyedTable κ ν) (k : κ) (f : ν → ν) :
    (t.modify k f).val k = f ((t.touch k).val k) := by
  simp [modify]

theorem modify_val_of_ne (t : KeyedTable κ ν) {k x : κ} (f : ν → ν) (h : x ≠ k) :
    (t.modify k f).val x = t.val x := by
  simp [modify, touch_val, h]

end KeyedTable
