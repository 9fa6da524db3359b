import Flocksy.Foundation.Codes
import Flocksy.LeafSets

/-!
# Hashes and their strings

A hash is compared byte by byte and written digit by digit. Each byte takes up two digits, so the
strings are in the order of the hashes, and two of them behind each other can be taken apart again.
-/

namespace Flocksy

open ByteStream Codes

/-- `memcmp`: the bytes are unsigned, and the first ones that differ decide. -/
def memcmp : Bytes → Bytes → ℕ → ℤ
  | a :: as, b :: bs, n + 1 => if a = b then memcmp as bs n else (a.toNat : ℤ) - b.toNat
  | _, _, _ => 0

/-- `operator<` of two hashes that are not empty. -/
def Hash.less (lhs rhs : Hash) : Bool :=
  if memcmp lhs.bytes rhs.bytes genericHashLen < 0 then true else false

/-- `operator==` of two hashes that are not empty. -/
def Hash.equal (lhs rhs : Hash) : Bool :=
  if memcmp lhs.bytes rhs.bytes genericHashLen = 0 then true else false

theorem memcmp_lt_zero_iff {as bs : Bytes} (hlength : as.length = bs.length) :
    memcmp as bs as.length < 0 ↔ as < bs := by
  induction as generalizing bs with
  | nil =>
    obtain rfl := List.length_eq_zero_iff.1 hlength.symm
    exact iff_of_false (lt_irrefl 0) (List.lt_irrefl [])
  | cons a as ih =>
    cases bs with
    | nil => cases hlength
    | cons b bs =>
      rw [List.length_cons, memcmp, List.cons_lt_cons_iff]
      split_ifs with hab
      · subst hab
        rw [ih (Nat.succ.inj hlength)]
        simp
      · rw [or_iff_left fun h => hab h.1, UInt8.lt_iff_toNat_lt]
        omega

theorem memcmp_eq_zero_iff {as bs : Bytes} (hlength : as.length = bs.length) :
    memcmp as bs as.length = 0 ↔ as = bs := by
  induction as generalizing bs with
  | nil =>
    obtain rfl := List.length_eq_zero_iff.1 hlength.symm
    exact iff_of_true rfl rfl
  | cons a as ih =>
    cases bs with
    | nil => cases hlength
    | cons b bs =>
      rw [List.length_cons, memcmp, List.cons.injEq]
      split_ifs with hab
      · rw [ih (Nat.succ.inj hlength), and_iff_right hab]
      · rw [← UInt8.toNat_inj] at hab ⊢
        refine iff_of_false ?_ fun h => hab h.1
        omega

namespace Hash

theorem less_iff {a b : Hash} : a.less b = true ↔ lt a b := by
  have hlength : a.bytes.length = b.bytes.length := a.length_eq.trans b.length_eq.symm
  have hiff := memcmp_lt_zero_iff hlength
  rw [a.length_eq] at hiff
  rw [less, lt, ← hiff]
  simp

theorem equal_iff {a b : Hash} : a.equal b = true ↔ a = b := by
  have hlength : a.bytes.length = b.bytes.length := a.length_eq.trans b.length_eq.symm
  have hiff := memcmp_eq_zero_iff hlength
  have heq : a.bytes = b.bytes ↔ a = b := ⟨eq_of_bytes, congrArg Hash.bytes⟩
  rw [a.length_eq, heq] at hiff
  rw [equal, ← hiff]
  simp

end Hash

/-- An integer as `std::hex` writes it. -/
def hexInt (n : ℕ) : Bytes :=
  if n = 0 then [hexDigit 0] else ((Nat.digits 16 n).map hexDigit).reverse

/-- `std::setfill('0') << std::setw(2)`. -/
def setw (width : ℕ) (s : Bytes) : Bytes := s.leftpad width (hexDigit 0)

theorem setw_hexInt (b : UInt8) : setw 2 (hexInt b.toNat) = hexByte b := by
  have hlt := b.toNat_lt
  rw [hexInt, hexByte]
  split_ifs with hzero
  · rw [hzero]
    rfl
  · by_cases hsmall : b.toNat < 16
    · rw [Nat.digits_of_lt 16 _ hzero hsmall, Nat.div_eq_of_lt hsmall, Nat.mod_eq_of_lt hsmall]
      rfl
    · have hhigh : b.toNat / 16 ≠ 0 := by omega
      rw [Nat.digits_def' (by decide) (by omega), Nat.digits_of_lt 16 _ hhigh (by omega)]
      rfl

theorem getString_eq (h : Hash) : h.getString = h.bytes.flatMap fun b => setw 2 (hexInt b.toNat) := by
  simp only [setw_hexInt]
  rfl

/-- `0` to `9` and `a` to `f`. -/
def isLowerHex (b : UInt8) : Bool := 48 ≤ b && b ≤ 57 || 97 ≤ b && b ≤ 102

theorem isLowerHex_hexDigit {n : ℕ} (hn : n < 16) : isLowerHex (hexDigit n) = true := by
  have hall : ∀ k : Fin 16, isLowerHex (hexDigit k) = true := by decide
  exact hall ⟨n, hn⟩

theorem hexDigit_lt_iff {m n : ℕ} (hm : m < 16) (hn : n < 16) :
    hexDigit m < hexDigit n ↔ m < n := by
  rw [hexDigit, hexDigit, UInt8.lt_iff_toNat_lt, UInt8.toNat_ofNat', UInt8.toNat_ofNat']
  split_ifs <;> omega

/-- Two digits are in the order of the byte, since a small byte has a zero in front. -/
theorem hexByte_ordered : Ordered hexByte := by
  refine ⟨fun b => by simp [hexByte], fun a b => rfl, fun a b => Hash.hexByte_inj, fun a b => ?_⟩
  have ha := a.toNat_lt
  have hb := b.toNat_lt
  have hhigh : hexDigit (a.toNat / 16) = hexDigit (b.toNat / 16) ↔ a.toNat / 16 = b.toNat / 16 :=
    ⟨Hash.hexDigit_inj (by omega) (by omega), congrArg hexDigit⟩
  rw [hexByte, hexByte, List.cons_lt_cons_iff, List.cons_lt_cons_iff, hhigh,
    hexDigit_lt_iff (by omega) (by omega), hexDigit_lt_iff (by omega) (by omega),
    UInt8.lt_iff_toNat_lt]
  simp only [List.not_lt_nil, and_false, or_false]
  omega

theorem isLowerHex_getString (h : Hash) : ∀ b ∈ h.getString, isLowerHex b = true := by
  intro b hb
  obtain ⟨c, -, hdigit⟩ := List.mem_flatMap.1 hb
  have hlt := c.toNat_lt
  rw [hexByte, List.mem_pair] at hdigit
  rcases hdigit with rfl | rfl
  · exact isLowerHex_hexDigit (by omega)
  · exact isLowerHex_hexDigit (by omega)

/-- The string of a hash is that of no other one, strings are in the order of their hashes, and two
hashes are known from what is hashed for their node. -/
theorem hashStrings_faithful (a b : Hash) :
    (a.getString.length = 128 ∧ ∀ c ∈ a.getString, isLowerHex c = true) ∧
      (a ≠ b → a.getString ≠ b.getString) ∧
      (a.equal b = true ↔ a.getString = b.getString) ∧
      (a.less b = true ↔ a.getString < b.getString) ∧
      ∀ a' b', a.getString ++ b.getString = a'.getString ++ b'.getString → a = a' ∧ b = b' := by
  refine ⟨⟨a.getString_length, isLowerHex_getString a⟩, fun hne h => hne (Hash.getString_injective h),
    ?_, ?_, fun a' b' h => Hash.concat_injective h⟩
  · rw [Hash.equal_iff, Hash.getString_injective.eq_iff]
  · rw [Hash.less_iff]
    exact (hexByte_ordered.flatMap_lt_iff a.bytes b.bytes).symm

end Flocksy
