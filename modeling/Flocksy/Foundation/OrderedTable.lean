import Mathlib

/-!
# Tables in the order of their keys

A finite map with the access of `std::map`: the entries are gone through in ascending order of the
keys, and an assignment replaces the entry of its key or puts a new one where it belongs. A table
carries the proof that its keys ascend, so no key stands twice in it.
-/

structure OrderedTable (κ ν : Type*) [LT κ] where
  entries : List (κ × ν)
  ascending : entries.Pairwise fun p q => p.1 < q.1

namespace OrderedTable

variable {κ ν : Type*} [LT κ] [DecidableLT κ] [DecidableEq κ]

def empty : OrderedTable κ ν := ⟨[], .nil⟩

def find (t : OrderedTable κ ν) (k : κ) : Option ν := t.entries.lookup k

def insertEntry (k : κ) (v : ν) : List (κ × ν) → List (κ × ν)
  | [] => [(k, v)]
  | (a, x) :: l =>
    if k < a then (k, v) :: (a, x) :: l
    else if a < k then (a, x) :: insertEntry k v l
    else (k, v) :: l

variable {k : κ} {v : ν} {l : List (κ × ν)}

omit [DecidableEq κ] in
theorem mem_of_mem_insertEntry {p : κ × ν} (hp : p ∈ insertEntry k v l) : p = (k, v) ∨ p ∈ l := by
  induction l with
  | nil => exact .inl (List.mem_singleton.1 hp)
  | cons q l ih =>
    rw [insertEntry] at hp
    split_ifs at hp
    · exact List.mem_cons.1 hp
    · rcases List.mem_cons.1 hp with rfl | hp
      · exact .inr List.mem_cons_self
      · exact (ih hp).imp_right (List.mem_cons_of_mem _)
    · rcases List.mem_cons.1 hp with rfl | hp
      · exact .inl rfl
      · exact .inr (List.mem_cons_of_mem _ hp)

section Order

variable [IsStrictTotalOrder κ (· < ·)]

omit [DecidableLT κ] [DecidableEq κ] in
theorem key_ne {a b : κ} (h : a < b) : a ≠ b := fun heq => irrefl_of (· < ·) b (heq ▸ h)

omit [DecidableLT κ] [DecidableEq κ] in
theorem key_eq {a b : κ} (hab : ¬ a < b) (hba : ¬ b < a) : a = b :=
  ((trichotomous_of (· < ·) a b).resolve_left hab).resolve_right hba

omit [DecidableEq κ] in
theorem ascending_insertEntry (h : l.Pairwise fun p q => p.1 < q.1) :
    (insertEntry k v l).Pairwise fun p q => p.1 < q.1 := by
  induction l with
  | nil => exact List.pairwise_singleton _ _
  | cons q l ih =>
    obtain ⟨hfirst, htail⟩ := List.pairwise_cons.1 h
    rw [insertEntry]
    split_ifs with hbefore hafter
    · refine List.pairwise_cons.2 ⟨fun p hp => ?_, h⟩
      rcases List.mem_cons.1 hp with rfl | hp
      · exact hbefore
      · exact trans_of (· < ·) hbefore (hfirst p hp)
    · refine List.pairwise_cons.2 ⟨fun p hp => ?_, ih htail⟩
      rcases mem_of_mem_insertEntry hp with rfl | hp
      · exact hafter
      · exact hfirst p hp
    · obtain rfl : q.1 = k := key_eq hafter hbefore
      exact List.pairwise_cons.2 ⟨hfirst, htail⟩

omit [DecidableEq κ] in
theorem mem_insertEntry (h : l.Pairwise fun p q => p.1 < q.1) {p : κ × ν} :
    p ∈ insertEntry k v l ↔ p = (k, v) ∨ p ∈ l ∧ p.1 ≠ k := by
  induction l with
  | nil => simp [insertEntry]
  | cons q l ih =>
    obtain ⟨hfirst, htail⟩ := List.pairwise_cons.1 h
    rw [insertEntry]
    split_ifs with hbefore hafter
    · have hall : ∀ r ∈ q :: l, r.1 ≠ k := by
        intro r hr
        rcases List.mem_cons.1 hr with rfl | hr
        · exact (key_ne hbefore).symm
        · exact (key_ne (trans_of (· < ·) hbefore (hfirst r hr))).symm
      rw [List.mem_cons]
      exact or_congr_right ⟨fun hp => ⟨hp, hall p hp⟩, And.left⟩
    · rw [List.mem_cons, ih htail, List.mem_cons]
      by_cases hq : p = q
      · have hqk : p.1 ≠ k := hq ▸ key_ne hafter
        simp [hq, hq ▸ hqk]
      · simp [hq]
    · obtain rfl : q.1 = k := key_eq hafter hbefore
      have hall : ∀ r ∈ l, r.1 ≠ q.1 := fun r hr => (key_ne (hfirst r hr)).symm
      rw [List.mem_cons, List.mem_cons]
      refine or_congr_right ⟨fun hp => ⟨.inr hp, hall p hp⟩, ?_⟩
      rintro ⟨rfl | hp, hpq⟩
      · exact absurd rfl hpq
      · exact hp

/-- `t[k] = v`. -/
def set (t : OrderedTable κ ν) (k : κ) (v : ν) : OrderedTable κ ν :=
  ⟨insertEntry k v t.entries, ascending_insertEntry t.ascending⟩

variable {t : OrderedTable κ ν}

omit [DecidableEq κ] in
theorem mem_set {p : κ × ν} :
    p ∈ (t.set k v).entries ↔ p = (k, v) ∨ p ∈ t.entries ∧ p.1 ≠ k :=
  mem_insertEntry t.ascending

omit [DecidableLT κ] [DecidableEq κ] in
omit [DecidableLT κ] [DecidableEq κ] in
theorem nodup_entries (t : OrderedTable κ ν) : t.entries.Nodup :=
  t.ascending.imp fun hlt heq => key_ne hlt (congrArg Prod.fst heq)

omit [DecidableEq κ] in
theorem nodup_map_set {α : Type*} {f : κ × ν → α} (ht : (t.entries.map f).Nodup)
    (hnew : ∀ p ∈ t.entries, f p ≠ f (k, v)) : ((t.set k v).entries.map f).Nodup := by
  rw [List.nodup_map_iff_inj_on (nodup_entries _)] at ht ⊢
  intro p hp q hq heq
  rcases mem_set.1 hp with rfl | ⟨hp, -⟩
  · rcases mem_set.1 hq with rfl | ⟨hq, -⟩
    · rfl
    · exact absurd heq.symm (hnew q hq)
  · rcases mem_set.1 hq with rfl | ⟨hq, -⟩
    · exact absurd heq (hnew p hp)
    · exact ht p hp q hq heq

omit [DecidableLT κ] in
theorem find_eq_some_iff : t.find k = some v ↔ (k, v) ∈ t.entries := by
  rw [find, List.lookup_eq_some_iff]
  constructor
  · rintro ⟨before, after, heq, -⟩
    simp [heq]
  · intro hmem
    obtain ⟨before, after, heq⟩ := List.append_of_mem hmem
    refine ⟨before, after, heq, fun p hp => ?_⟩
    have hlt : p.1 < k := by
      have hasc := t.ascending
      rw [heq, List.pairwise_append] at hasc
      exact hasc.2.2 p hp (k, v) List.mem_cons_self
    rw [bne_iff_ne]
    exact (key_ne hlt).symm

omit [DecidableLT κ] in
omit [DecidableLT κ] in
theorem ext_find {t t' : OrderedTable κ ν} (h : ∀ k, t.find k = t'.find k) : t = t' := by
  have hmem (p : κ × ν) : p ∈ t.entries ↔ p ∈ t'.entries := by
    rw [← find_eq_some_iff (t := t), h, find_eq_some_iff]
  have hperm : t.entries.Perm t'.entries :=
    (List.perm_ext_iff_of_nodup t.nodup_entries t'.nodup_entries).2 hmem
  have hentries : t.entries = t'.entries := by
    refine hperm.eq_of_pairwise (fun p q _ _ hpq hqp => ?_) t.ascending t'.ascending
    exact absurd rfl (key_ne (trans_of (· < ·) hpq hqp))
  cases t
  cases t'
  obtain rfl := hentries
  rfl

@[simp] theorem find_set (t : OrderedTable κ ν) (k x : κ) (v : ν) :
    (t.set k v).find x = if x = k then some v else t.find x := by
  ext w
  split_ifs with h
  · rw [find_eq_some_iff, mem_set]
    simp [h, eq_comm]
  · rw [find_eq_some_iff, mem_set, find_eq_some_iff]
    simp [h]

theorem set_set (t : OrderedTable κ ν) (k : κ) (v w : ν) : (t.set k v).set k w = t.set k w := by
  refine ext_find fun x => ?_
  rw [find_set, find_set, find_set]
  split_ifs <;> rfl

theorem set_of_find (h : t.find k = some v) : t.set k v = t := by
  refine ext_find fun x => ?_
  rw [find_set]
  split_ifs with hx
  · rw [hx, h]
  · rfl

omit [DecidableLT κ] in
theorem filter_key (t : OrderedTable κ ν) (k : κ) :
    t.entries.filter (·.1 = k) = (t.find k).toList.map fun v => (k, v) := by
  have hmem (p : κ × ν) : p ∈ t.entries.filter (·.1 = k) ↔
      p ∈ (t.find k).toList.map fun v => (k, v) := by
    obtain ⟨a, v⟩ := p
    simp only [List.mem_filter, decide_eq_true_eq, List.mem_map, Option.mem_toList,
      find_eq_some_iff, Prod.mk.injEq]
    constructor
    · rintro ⟨hmem, rfl⟩
      exact ⟨v, hmem, rfl, rfl⟩
    · rintro ⟨_, hmem, rfl, rfl⟩
      exact ⟨hmem, rfl⟩
  have hnodup : ((t.find k).toList.map fun v => (k, v)).Nodup := by
    cases t.find k <;> simp
  have hperm := (List.perm_ext_iff_of_nodup (t.nodup_entries.filter _) hnodup).2 hmem
  cases hfind : t.find k with
  | none =>
    rw [hfind] at hperm
    exact hperm.eq_nil
  | some v =>
    rw [hfind] at hperm
    exact List.perm_singleton.1 hperm

omit [DecidableLT κ] [IsStrictTotalOrder κ (· < ·)] in
@[simp] theorem find_empty (k : κ) : (empty : OrderedTable κ ν).find k = none := rfl

end Order

end OrderedTable
