import Mathlib

/-!
# Path names

A path begins with a separator or not, and goes through names, which are what stands between its
separators. Separators that stand side by side or at the end add no name. Two paths with the same
beginning and the same names lead to the same file, wherever the path is resolved.
-/

namespace PathNames

variable {α : Type*} [DecidableEq α]

structure Way (α : Type*) where
  rooted : Bool
  names : List (List α)

def Way.below (w : Way α) (names : List (List α)) : Way α := ⟨w.rooted, w.names ++ names⟩

omit [DecidableEq α] in
theorem Way.below_below (w : Way α) (ms ns : List (List α)) :
    (w.below ms).below ns = w.below (ms ++ ns) := by
  simp only [Way.below, List.append_assoc]

variable (sep : α)

def names (path : List α) : List (List α) := (path.splitOn sep).filter (· ≠ [])

def way (path : List α) : Way α := ⟨decide (path.head? = some sep), names sep path⟩

variable {sep} {xs ys name : List α}

@[simp] theorem names_nil : names sep [] = [] := by
  simp [names, List.splitOn_nil]

theorem names_append_sep (xs ys : List α) :
    names sep (xs ++ sep :: ys) = names sep xs ++ names sep ys := by
  rw [names, List.splitOn_append_cons_self, List.filter_append, names, names]

theorem names_sep_cons (ys : List α) : names sep (sep :: ys) = names sep ys := by
  have h : names sep ([] ++ sep :: ys) = names sep [] ++ names sep ys := names_append_sep [] ys
  rwa [names_nil, List.nil_append, List.nil_append] at h

theorem names_append_last (xs : List α) : names sep (xs ++ [sep]) = names sep xs := by
  rw [names_append_sep, names_nil, List.append_nil]

theorem names_name (hne : name ≠ []) (hsep : sep ∉ name) : names sep name = [name] := by
  rw [names, List.splitOn_eq_singleton hsep, List.filter_singleton]
  simp [hne]

theorem way_append_sep (hne : xs ≠ []) (ys : List α) :
    way sep (xs ++ sep :: ys) = (way sep xs).below (names sep ys) := by
  rw [way, names_append_sep, List.head?_append_of_ne_nil _ hne]
  rfl

theorem way_append_of_last (hlast : xs.getLast? = some sep) (ys : List α) :
    way sep (xs ++ ys) = (way sep xs).below (names sep ys) := by
  obtain ⟨stem, rfl⟩ : ∃ stem, xs = stem ++ [sep] :=
    ⟨xs.dropLast, (List.dropLast_append_getLast? sep hlast).symm⟩
  rw [way, way, Way.below, names_append_last, List.head?_append_of_ne_nil _ (by simp),
    List.append_assoc, List.singleton_append, names_append_sep]

theorem way_stem_append (stem ys : List α) :
    way sep (stem ++ sep :: ys) = (way sep (stem ++ [sep])).below (names sep ys) := by
  have hlast : (stem ++ [sep]).getLast? = some sep := by simp
  have h := way_append_of_last hlast ys
  rwa [List.append_assoc, List.singleton_append] at h

end PathNames
