import Mathlib

/-!
# Byte streams with formatted extraction

A stream is a buffer with a read position and the two state bits of a C++ input
stream. Unformatted reads, relative and absolute seeks, and the extraction of
integers and of whitespace-delimited words follow the documented behaviour of
`std::istream`: an operation on a stream that is not good sets the fail bit, a
short read sets both bits, and seeking clears the end-of-file bit first.

`cursor before after` is the good stream standing between two byte strings. The
lemmas about it are equations, so that a parser is evaluated by rewriting.
-/

namespace ByteStream

abbrev Bytes := List UInt8

def ascii (cs : List Char) : Bytes := cs.map fun c => UInt8.ofNat c.toNat

def newline : UInt8 := 10

def isSpace (b : UInt8) : Bool := b == 32 || (9 ≤ b && b ≤ 13)
def isDigit (b : UInt8) : Bool := 48 ≤ b && b ≤ 57

theorem isSpace_iff (b : UInt8) :
    isSpace b ↔ b.toNat = 32 ∨ (9 ≤ b.toNat ∧ b.toNat ≤ 13) := by
  simp [isSpace, UInt8.le_iff_toNat_le, ← UInt8.toNat_inj]

theorem isDigit_iff (b : UInt8) : isDigit b ↔ 48 ≤ b.toNat ∧ b.toNat ≤ 57 := by
  simp [isDigit, UInt8.le_iff_toNat_le]

/-- The first `n` bytes, filled up with zero bytes when there are fewer. -/
def padTo (n : ℕ) (bs : Bytes) : Bytes := (bs ++ List.replicate n 0).take n

@[simp] theorem padTo_length (n : ℕ) (bs : Bytes) : (padTo n bs).length = n := by
  simp [padTo]

theorem padTo_of_length {n : ℕ} {bs : Bytes} (h : bs.length = n) : padTo n bs = bs := by
  subst h
  simp [padTo]

theorem padTo_of_le {n : ℕ} {bs : Bytes} (h : n ≤ bs.length) : padTo n bs = bs.take n := by
  rw [padTo, List.take_append_of_le_length h]

theorem head?_padTo {n : ℕ} (hn : 0 < n) (bs : Bytes) :
    (padTo n bs).head? = some (bs.head?.getD 0) := by
  obtain ⟨m, rfl⟩ := Nat.exists_eq_succ_of_ne_zero hn.ne'
  cases bs with
  | nil => rfl
  | cons b bs => rfl

def toBigEndian : ℕ → ℕ → Bytes
  | 0, _ => []
  | k + 1, n => UInt8.ofNat (n / 256 ^ k) :: toBigEndian k n

def ofBigEndian (bs : Bytes) : ℕ := bs.foldl (fun acc b => 256 * acc + b.toNat) 0

@[simp] theorem toBigEndian_length (k n : ℕ) : (toBigEndian k n).length = k := by
  induction k with
  | zero => rfl
  | succ k ih => simp [toBigEndian, ih]

theorem foldl_toBigEndian (k n acc : ℕ) :
    (toBigEndian k n).foldl (fun acc b => 256 * acc + b.toNat) acc =
      256 ^ k * acc + n % 256 ^ k := by
  induction k generalizing acc with
  | zero => simp [toBigEndian, Nat.mod_one]
  | succ k ih =>
    have hb : (UInt8.ofNat (n / 256 ^ k)).toNat = n / 256 ^ k % 256 := by simp
    have hm : n % 256 ^ (k + 1) = n % 256 ^ k + 256 ^ k * (n / 256 ^ k % 256) := by
      rw [pow_succ, Nat.mod_mul]
    rw [toBigEndian, List.foldl_cons, ih, hb, hm]
    ring

theorem ofBigEndian_toBigEndian (k n : ℕ) : ofBigEndian (toBigEndian k n) = n % 256 ^ k := by
  simp [ofBigEndian, foldl_toBigEndian]

theorem foldl_bytes (acc : ℕ) (bs : Bytes) :
    bs.foldl (fun acc b => 256 * acc + b.toNat) acc = 256 ^ bs.length * acc + ofBigEndian bs := by
  induction bs generalizing acc with
  | nil => simp [ofBigEndian]
  | cons b bs ih =>
    rw [ofBigEndian, List.foldl_cons, List.foldl_cons, ih, ih (256 * 0 + b.toNat),
      List.length_cons, pow_succ]
    ring

theorem ofBigEndian_cons (b : UInt8) (bs : Bytes) :
    ofBigEndian (b :: bs) = 256 ^ bs.length * b.toNat + ofBigEndian bs := by
  rw [ofBigEndian, List.foldl_cons, foldl_bytes, Nat.mul_zero, Nat.zero_add]

theorem ofBigEndian_lt (bs : Bytes) : ofBigEndian bs < 256 ^ bs.length := by
  induction bs with
  | nil => simp [ofBigEndian]
  | cons b bs ih =>
    have hb : b.toNat + 1 ≤ 256 := b.toNat_lt
    calc ofBigEndian (b :: bs) = 256 ^ bs.length * b.toNat + ofBigEndian bs := ofBigEndian_cons b bs
      _ < 256 ^ bs.length * b.toNat + 256 ^ bs.length := by omega
      _ = 256 ^ bs.length * (b.toNat + 1) := by ring
      _ ≤ 256 ^ bs.length * 256 := Nat.mul_le_mul_left _ hb
      _ = 256 ^ (b :: bs).length := by rw [List.length_cons, pow_succ]

theorem ofBigEndian_inj {as bs : Bytes} (hlen : as.length = bs.length)
    (h : ofBigEndian as = ofBigEndian bs) : as = bs := by
  induction as generalizing bs with
  | nil => exact (List.length_eq_zero_iff.1 hlen.symm).symm
  | cons a as ih =>
    cases bs with
    | nil => simp at hlen
    | cons b bs =>
      have hlen' : as.length = bs.length := by simpa using hlen
      rw [ofBigEndian_cons, ofBigEndian_cons, hlen'] at h
      have ha := ofBigEndian_lt as
      have hb := ofBigEndian_lt bs
      rw [hlen'] at ha
      have hdiv := congrArg (· / 256 ^ bs.length) h
      have hpos : 0 < 256 ^ bs.length := by positivity
      simp only [Nat.mul_add_div hpos, Nat.div_eq_of_lt ha, Nat.div_eq_of_lt hb,
        Nat.add_zero] at hdiv
      rw [hdiv] at h
      rw [UInt8.toNat_inj.1 hdiv, ih hlen' (by omega)]

theorem eq_toBigEndian {k n : ℕ} {bs : Bytes} (hlen : bs.length = k)
    (h : ofBigEndian bs = n) : bs = toBigEndian k n := by
  refine ofBigEndian_inj (by rw [hlen, toBigEndian_length]) ?_
  rw [ofBigEndian_toBigEndian, h, Nat.mod_eq_of_lt]
  rw [← h, ← hlen]
  exact ofBigEndian_lt bs

def decimal (n : ℕ) : Bytes := (Nat.toDigits 10 n).map fun c => UInt8.ofNat c.toNat

def digitsValue (bs : Bytes) : ℕ := bs.foldl (fun acc b => 10 * acc + (b.toNat - 48)) 0

theorem decimal_ne_nil (n : ℕ) : decimal n ≠ [] := by
  simp [decimal, Nat.toDigits_ne_nil]

theorem length_decimal_three {n : ℕ} (hmin : 100 ≤ n) (hmax : n < 1000) : (decimal n).length = 3 := by
  have hle : (Nat.toDigits 10 n).length ≤ 3 :=
    (Nat.length_toDigits_le_iff (by decide) (by decide)).2 (by omega)
  have hnot : ¬ (Nat.toDigits 10 n).length ≤ 2 := by
    rw [Nat.length_toDigits_le_iff (by decide) (by decide)]
    omega
  rw [decimal, List.length_map]
  omega

theorem toNat_of_digit {c : Char} (hc : c.isDigit) : (UInt8.ofNat c.toNat).toNat = c.toNat := by
  have h : c.toNat ≤ 57 := by
    simp only [Char.isDigit, Bool.and_eq_true, decide_eq_true_eq, UInt32.le_iff_toNat_le] at hc
    exact hc.2
  simp only [UInt8.toNat_ofNat']
  omega

theorem isDigit_of_mem_decimal {n : ℕ} {b : UInt8} (hb : b ∈ decimal n) : isDigit b := by
  obtain ⟨c, hc, rfl⟩ := List.mem_map.mp hb
  have hd := Nat.isDigit_of_mem_toDigits (by decide) (by decide) hc
  have hn := toNat_of_digit hd
  simp only [Char.isDigit, Bool.and_eq_true, decide_eq_true_eq, UInt32.le_iff_toNat_le] at hd
  simp only [isDigit, Bool.and_eq_true, decide_eq_true_eq, UInt8.le_iff_toNat_le, hn]
  exact hd

theorem digitsValue_decimal (n : ℕ) : digitsValue (decimal n) = n := by
  have key : ∀ (cs : List Char), (∀ c ∈ cs, c.isDigit) → ∀ acc,
      (cs.map fun c => UInt8.ofNat c.toNat).foldl (fun acc b => 10 * acc + (b.toNat - 48)) acc =
        Nat.ofDigitChars 10 cs acc := by
    intro cs
    induction cs with
    | nil => simp
    | cons c cs ih =>
      intro h acc
      simp only [List.map_cons, List.foldl_cons, Nat.ofDigitChars_cons]
      rw [ih (fun d hd => h d (List.mem_cons_of_mem _ hd)), toNat_of_digit (h c List.mem_cons_self)]
      rfl
  have h := key (Nat.toDigits 10 n)
    (fun c hc => Nat.isDigit_of_mem_toDigits (by decide) (by decide) hc) 0
  rw [Nat.ofDigitChars_ten_toDigits] at h
  exact h

theorem le_foldl_digits (acc : ℕ) (bs : Bytes) :
    acc ≤ bs.foldl (fun acc b => 10 * acc + (b.toNat - 48)) acc := by
  induction bs generalizing acc with
  | nil => exact le_rfl
  | cons b bs ih =>
    rw [List.foldl_cons]
    exact le_trans (by omega) (ih _)

theorem lt_digitsValue_append {n : ℕ} (hn : 0 < n) {bs : Bytes} (hne : bs ≠ []) :
    n < digitsValue (decimal n ++ bs) := by
  cases bs with
  | nil => exact absurd rfl hne
  | cons b bs =>
    have hvalue : (decimal n).foldl (fun acc b => 10 * acc + (b.toNat - 48)) 0 = n :=
      digitsValue_decimal n
    rw [digitsValue, List.foldl_append, hvalue, List.foldl_cons]
    exact lt_of_lt_of_le (by omega) (le_foldl_digits _ bs)

structure Stream where
  buf : Bytes
  pos : ℕ
  eof : Bool
  fail : Bool
  deriving DecidableEq, Inhabited

namespace Stream

def ofBytes (bs : Bytes) : Stream := ⟨bs, 0, false, false⟩

def cursor (before after : Bytes) : Stream := ⟨before ++ after, before.length, false, false⟩

def good (s : Stream) : Bool := !s.eof && !s.fail
def rest (s : Stream) : Bytes := s.buf.drop s.pos

/-- `istream::read`: the bytes it delivers, at most `n`. -/
def read (s : Stream) (n : ℕ) : Bytes × Stream :=
  if s.good then
    let got := s.rest.take n
    let short := decide (got.length < n)
    (got, { s with pos := s.pos + got.length, eof := short, fail := short })
  else ([], { s with fail := true })

def seekTo (s : Stream) (target : ℤ) : Stream :=
  if s.fail then { s with eof := false }
  else if 0 ≤ target ∧ target ≤ s.buf.length then { s with pos := target.toNat, eof := false }
  else { s with eof := false, fail := true }

/-- `seekg(off, std::ios_base::cur)`. -/
def seekCur (s : Stream) (off : ℤ) : Stream := s.seekTo (s.pos + off)

def skipSpace (s : Stream) : Stream :=
  { s with pos := s.pos + (s.rest.takeWhile isSpace).length }

def intMax : ℕ := 2 ^ 31 - 1

/-- `istream >> int`. When nothing but white space is left the variable keeps its
old value; when no digit follows it becomes zero; out of range it is clamped. -/
def extractInt (old : ℤ) (s : Stream) : ℤ × Stream :=
  if !s.good then (old, { s with fail := true }) else
  let s := s.skipSpace
  match s.rest with
  | [] => (old, { s with eof := true, fail := true })
  | b :: bs =>
    let signed := b == 45 || b == 43
    let digits := (if signed then bs else b :: bs).takeWhile isDigit
    let used := (if signed then 1 else 0) + digits.length
    let ended := decide (s.rest.length = used)
    let value := digitsValue digits
    let limit := if b == 45 then intMax + 1 else intMax
    let sign : ℤ := if b == 45 then -1 else 1
    let bad := decide (digits = []) || decide (limit < value)
    (if digits = [] then 0 else sign * min value limit,
      { s with pos := s.pos + used, eof := ended, fail := bad })

/-- `istream >> std::string` into an empty string. -/
def extractWord (s : Stream) : Bytes × Stream :=
  if !s.good then ([], { s with fail := true }) else
  let s := s.skipSpace
  let word := s.rest.takeWhile (!isSpace ·)
  let ended := decide (s.rest.length = word.length)
  (word, { s with pos := s.pos + word.length, eof := ended, fail := decide (word = []) })

/-- `std::getline` into a string that has a value already. -/
def getline (old : Bytes) (s : Stream) : Bytes × Stream :=
  if !s.good then (old, { s with fail := true }) else
  let line := s.rest.takeWhile (· != newline)
  let ended := decide (s.rest.length = line.length)
  (line, { s with
    pos := s.pos + line.length + (if ended then 0 else 1)
    eof := ended
    fail := decide (s.rest = []) })

/-- `std::getline` with a delimiter. -/
def getlineTo (delim : UInt8) (old : Bytes) (s : Stream) : Bytes × Stream :=
  if !s.good then (old, { s with fail := true }) else
  let piece := s.rest.takeWhile (· != delim)
  let ended := decide (s.rest.length = piece.length)
  (piece, { s with
    pos := s.pos + piece.length + (if ended then 0 else 1)
    eof := ended
    fail := decide (s.rest = []) })

/-- The strings that `while (std::getline(s, piece, delim))` goes through, of so many at most. -/
def pieces (delim : UInt8) : ℕ → Stream → Option (List Bytes)
  | 0, _ => none
  | fuel + 1, s =>
    let (piece, s) := s.getlineTo delim []
    if s.fail then some [] else (pieces delim fuel s).map (piece :: ·)

@[simp] theorem cursor_good (before after : Bytes) : (cursor before after).good := rfl

@[simp] theorem cursor_rest (before after : Bytes) : (cursor before after).rest = after := by
  simp [rest, cursor]

theorem fail_of_good {s : Stream} (h : s.good = true) : s.fail = false := by
  simp only [good, Bool.and_eq_true, Bool.not_eq_true'] at h
  exact h.2

theorem ofBytes_eq_cursor (bs : Bytes) : ofBytes bs = cursor [] bs := rfl

theorem read_cursor {n : ℕ} {xs : Bytes} (h : xs.length = n) (before after : Bytes) :
    (cursor before (xs ++ after)).read n = (xs, cursor (before ++ xs) after) := by
  subst h
  simp [read, cursor, good, rest]

theorem read_whole {s s' : Stream} {n : ℕ} {bs : Bytes} (h : s.read n = (bs, s'))
    (hfail : s'.fail = false) :
    s.good = true ∧ s'.good = true ∧ bs.length = n ∧ s.rest = bs ++ s'.rest := by
  unfold read at h
  split_ifs at h with hgood
  · obtain ⟨rfl, rfl⟩ := Prod.mk.inj h
    have hle : n ≤ s.rest.length := by
      simp only [List.length_take, decide_eq_false_iff_not, not_lt] at hfail
      omega
    have hlen : (s.rest.take n).length = n := by rw [List.length_take, min_eq_left hle]
    refine ⟨hgood, ?_, hlen, ?_⟩
    · simp [good, hlen]
    · simp only [hlen]
      calc s.rest = s.rest.take n ++ s.rest.drop n := (List.take_append_drop n s.rest).symm
        _ = s.rest.take n ++ s.buf.drop (s.pos + n) := by rw [rest, List.drop_drop]
  · obtain ⟨rfl, rfl⟩ := Prod.mk.inj h
    simp at hfail

theorem read_of_fail {s : Stream} (n : ℕ) (h : s.fail = true) : (s.read n).2.fail = true := by
  simp [read, good, h]

theorem read_of_short {s : Stream} {n : ℕ} (h : s.rest.length < n) :
    (s.read n).2.fail = true := by
  by_contra hfail
  obtain ⟨-, -, hlen, hrest⟩ := read_whole rfl (Bool.eq_false_iff.2 hfail)
  have htotal := congrArg List.length hrest
  rw [List.length_append] at htotal
  omega

theorem seekCur_of_fail {s : Stream} (off : ℤ) (h : s.fail = true) :
    (s.seekCur off).fail = true := by
  simp [seekCur, seekTo, h]

theorem extractWord_of_fail {s : Stream} (h : s.fail = true) :
    s.extractWord = ([], { s with fail := true }) := by
  simp [extractWord, good, h]

theorem read_head? (s : Stream) (n : ℕ) :
    (s.read n).1 = [] ∨ (s.read n).1.head? = s.rest.head? := by
  unfold read
  split_ifs
  · cases n with
    | zero => exact .inl (by simp)
    | succ n => exact .inr (by cases s.rest <;> simp)
  · exact .inl rfl

theorem seekTo_of_le {s : Stream} {target : ℤ} (hs : s.fail = false)
    (ht : 0 ≤ target ∧ target ≤ s.buf.length) :
    s.seekTo target = { s with pos := target.toNat, eof := false } := by
  rw [seekTo, if_neg (by simp [hs]), if_pos ht]

theorem seekCur_cursor {n : ℕ} {xs : Bytes} (h : xs.length = n) (before after : Bytes) :
    (cursor before (xs ++ after)).seekCur n = cursor (before ++ xs) after := by
  subst h
  have hle : 0 ≤ (before.length : ℤ) + xs.length ∧
      (before.length : ℤ) + xs.length ≤ (before ++ (xs ++ after)).length := by
    simp only [List.length_append, Nat.cast_add]
    omega
  rw [seekCur, seekTo_of_le rfl hle]
  simp only [cursor, List.append_assoc, List.length_append, Stream.mk.injEq, and_self, and_true,
    true_and]
  omega

theorem seekTo_cursor {n : ℕ} {xs : Bytes} (h : xs.length = n) (ys after : Bytes) :
    (cursor (xs ++ ys) after).seekTo n = cursor xs (ys ++ after) := by
  subst h
  have hle : 0 ≤ (xs.length : ℤ) ∧ (xs.length : ℤ) ≤ (xs ++ ys ++ after).length := by
    simp only [List.length_append, Nat.cast_add]
    omega
  rw [seekTo_of_le rfl hle]
  simp only [cursor, List.append_assoc, Int.toNat_natCast]

theorem takeWhile_run {p : UInt8 → Bool} {xs after : Bytes} (hx : ∀ b ∈ xs, p b)
    (ha : ∀ b ∈ after.head?, p b = false) : (xs ++ after).takeWhile p = xs := by
  rw [List.takeWhile_append_of_pos hx]
  cases after with
  | nil => simp
  | cons b bs => simp [ha b rfl]

theorem drop_takeWhile {p : UInt8 → Bool} (xs : Bytes) :
    xs.drop (xs.takeWhile p).length = xs.dropWhile p := by
  calc xs.drop (xs.takeWhile p).length
      = (xs.takeWhile p ++ xs.dropWhile p).drop (xs.takeWhile p).length := by
        rw [List.takeWhile_append_dropWhile]
    _ = xs.dropWhile p := List.drop_left

theorem skipSpace_rest (s : Stream) : s.skipSpace.rest = s.rest.dropWhile isSpace := by
  simp only [rest, skipSpace, ← List.drop_drop, drop_takeWhile]

theorem extractInt_digits {blank digits after : Bytes} (old : ℤ) (hb : ∀ b ∈ blank, isSpace b)
    (hd : digits ≠ []) (hdig : ∀ b ∈ digits, isDigit b) (hne : after ≠ [])
    (ha : ∀ b ∈ after.head?, isDigit b = false) (before : Bytes) :
    (cursor before (blank ++ (digits ++ after))).extractInt old =
      (((min (digitsValue digits) intMax : ℕ) : ℤ),
        { cursor (before ++ blank ++ digits) after with
          fail := decide (intMax < digitsValue digits) }) := by
  have hrun : (digits ++ after).takeWhile isDigit = digits := takeWhile_run hdig ha
  have hlen : after.length ≠ 0 := by simpa using hne
  cases digits with
  | nil => exact absurd rfl hd
  | cons d ds =>
    have hfirst := (isDigit_iff d).mp (hdig d List.mem_cons_self)
    have hskip : (blank ++ (d :: ds ++ after)).takeWhile isSpace = blank := by
      refine takeWhile_run hb ?_
      simp only [List.cons_append, List.head?_cons, Option.mem_def, Option.some.injEq]
      rintro _ rfl
      rw [← Bool.not_eq_true, isSpace_iff]
      omega
    have hminus : (d == 45) = false := by
      rw [beq_eq_false_iff_ne, ne_eq, ← UInt8.toNat_inj]
      simp only [UInt8.reduceToNat]
      omega
    have hplus : (d == 43) = false := by
      rw [beq_eq_false_iff_ne, ne_eq, ← UInt8.toNat_inj]
      simp only [UInt8.reduceToNat]
      omega
    have hdrop : (before ++ (blank ++ (d :: ds ++ after))).drop (before.length + blank.length) =
        d :: (ds ++ after) := by
      rw [← List.append_assoc, ← List.length_append, List.drop_left, List.cons_append]
    simp only [extractInt, cursor_good, Bool.not_true, Bool.false_eq_true, if_false, skipSpace,
      cursor_rest, hskip]
    simp only [rest, cursor, hdrop, hminus, hplus, Bool.or_false, Bool.false_eq_true, if_false]
    rw [← List.cons_append, hrun]
    simp
    exact ⟨by omega, hne⟩

theorem extractInt_cursor {n : ℕ} (hn : n ≤ intMax) {blank after : Bytes} (old : ℤ)
    (hb : ∀ b ∈ blank, isSpace b) (hne : after ≠ []) (ha : ∀ b ∈ after.head?, isDigit b = false)
    (before : Bytes) :
    (cursor before (blank ++ (decimal n ++ after))).extractInt old =
      ((n : ℤ), cursor (before ++ blank ++ decimal n) after) := by
  rw [extractInt_digits old hb (decimal_ne_nil n) (fun _ => isDigit_of_mem_decimal) hne ha,
    digitsValue_decimal]
  simp [hn, cursor]

theorem extractInt_noNumber {b : UInt8} {bs : Bytes} (old : ℤ) (hspace : isSpace b = false)
    (hsign : b ≠ 45 ∧ b ≠ 43) (hdigit : isDigit b = false) (before : Bytes) :
    (cursor before (b :: bs)).extractInt old =
      (0, { cursor before (b :: bs) with fail := true }) := by
  have hskip : (cursor before (b :: bs)).skipSpace = cursor before (b :: bs) := by
    rw [skipSpace, cursor_rest]
    simp [cursor, hspace]
  simp only [extractInt, cursor_good, Bool.not_true, Bool.false_eq_true, if_false, hskip,
    cursor_rest]
  simp [hsign, hdigit, cursor]

theorem extractInt_of_fail {s : Stream} (old : ℤ) (h : s.fail = true) :
    s.extractInt old = (old, { s with fail := true }) := by
  simp [extractInt, good, h]

theorem extractWord_good {s : Stream} (h : s.good) :
    s.extractWord.1 = (s.rest.dropWhile isSpace).takeWhile (!isSpace ·) := by
  simp only [extractWord, h, Bool.not_true, Bool.false_eq_true, if_false, skipSpace_rest]

theorem getline_good {s : Stream} (old : Bytes) (h : s.good) :
    (s.getline old).1 = s.rest.takeWhile (· != newline) := by
  simp only [getline, h, Bool.not_true, Bool.false_eq_true, if_false]

theorem extractWord_cursor_eq (before after : Bytes) :
    (cursor before after).extractWord =
      let word := (after.dropWhile isSpace).takeWhile (!isSpace ·)
      (word, ⟨before ++ after, before.length + (after.takeWhile isSpace).length + word.length,
        decide ((after.dropWhile isSpace).length = word.length), decide (word = [])⟩) := by
  have hskip : (cursor before after).skipSpace =
      cursor (before ++ after.takeWhile isSpace) (after.dropWhile isSpace) := by
    rw [skipSpace, cursor_rest]
    simp [cursor]
  simp only [extractWord, cursor_good, Bool.not_true, Bool.false_eq_true, if_false, hskip,
    cursor_rest]
  simp [cursor]

/-- Going back over a word that was read leaves the stream before it, behind the white space. -/
theorem extractWord_seekBack {after : Bytes} (hne : after.dropWhile isSpace ≠ [])
    (before : Bytes) :
    (cursor before after).extractWord.2.seekCur (-(cursor before after).extractWord.1.length) =
      cursor (before ++ after.takeWhile isSpace) (after.dropWhile isSpace) := by
  have hword : (after.dropWhile isSpace).takeWhile (!isSpace ·) ≠ [] := by
    have hhead := List.dropWhile_get_zero_not isSpace after (List.length_pos_of_ne_nil hne)
    cases hrest : after.dropWhile isSpace with
    | nil => exact absurd hrest hne
    | cons c cs =>
      have hc : isSpace c = false := by simpa [hrest] using hhead
      simp [hc]
  have hlen := (List.takeWhile_prefix isSpace (l := after)).length_le
  rw [extractWord_cursor_eq]
  simp only [seekCur, Nat.cast_add]
  rw [seekTo_of_le (by simp [hword]) (by simp only [List.length_append, Nat.cast_add]; omega)]
  simp only [cursor, List.append_assoc, List.takeWhile_append_dropWhile, List.length_append,
    Stream.mk.injEq, hword, decide_false, and_true, true_and]
  omega

theorem extractWord_blank {after : Bytes} (hblank : after.dropWhile isSpace = [])
    (before : Bytes) :
    (cursor before after).extractWord.1 = [] ∧ (cursor before after).extractWord.2.fail = true := by
  rw [extractWord_cursor_eq, hblank]
  exact ⟨rfl, rfl⟩

theorem extractWord_cursor {word blank after : Bytes} (hb : ∀ b ∈ blank, isSpace b)
    (hw : ∀ b ∈ word, isSpace b = false) (hne : word ≠ [])
    (ha : ∀ b ∈ after.head?, isSpace b) (before : Bytes) :
    (cursor before (blank ++ (word ++ after))).extractWord =
      (word, { cursor (before ++ blank ++ word) after with eof := decide (after = []) }) := by
  have hrun : (word ++ after).takeWhile (!isSpace ·) = word :=
    takeWhile_run (by simpa using hw) (by simpa using ha)
  have hskip : (blank ++ (word ++ after)).takeWhile isSpace = blank := by
    refine takeWhile_run hb ?_
    rw [List.head?_append_of_ne_nil _ hne]
    exact fun b hb => hw b (List.mem_of_mem_head? hb)
  have hdrop : (before ++ (blank ++ (word ++ after))).drop (before.length + blank.length) =
      word ++ after := by
    rw [← List.append_assoc, ← List.length_append, List.drop_left]
  simp only [extractWord, cursor_good, Bool.not_true, Bool.false_eq_true, if_false, skipSpace,
    cursor_rest, hskip]
  simp only [rest, cursor, hdrop, hrun]
  simp [hne, Nat.add_assoc]

theorem getlineTo_cursor {delim : UInt8} {piece : Bytes} (hpiece : delim ∉ piece)
    (old before after : Bytes) :
    (cursor before (piece ++ delim :: after)).getlineTo delim old =
      (piece, cursor (before ++ (piece ++ [delim])) after) := by
  have hrun : (piece ++ delim :: after).takeWhile (· != delim) = piece := by
    refine takeWhile_run (fun b hb => ?_) (by simp)
    rw [bne_iff_ne]
    rintro rfl
    exact hpiece hb
  have hlen : ¬ (piece ++ delim :: after).length = piece.length := by simp
  simp only [getlineTo, cursor_good, Bool.not_true, Bool.false_eq_true, if_false, cursor_rest, hrun,
    decide_eq_false hlen]
  simp [cursor, Nat.add_assoc]

theorem getlineTo_last {delim : UInt8} {piece : Bytes} (hpiece : delim ∉ piece)
    (old before : Bytes) :
    (cursor before piece).getlineTo delim old =
      (piece, ⟨before ++ piece, before.length + piece.length, true, decide (piece = [])⟩) := by
  have hrun : piece.takeWhile (· != delim) = piece := by
    rw [List.takeWhile_eq_self_iff]
    intro b hb
    rw [bne_iff_ne]
    rintro rfl
    exact hpiece hb
  simp only [getlineTo, cursor_good, Bool.not_true, Bool.false_eq_true, if_false, cursor_rest, hrun]
  simp [cursor]

theorem pieces_of_end {s : Stream} (delim : UInt8) (fuel : ℕ) (h : s.good = false) :
    s.pieces delim (fuel + 1) = some [] := by
  simp [pieces, getlineTo, h]

end Stream

/-- The pieces of a text. A delimiter ends a piece, so there is none behind the last one. -/
def fields (delim : UInt8) : Bytes → List Bytes
  | [] => []
  | b :: bs =>
    if b = delim then [] :: fields delim bs
    else
      match fields delim bs with
      | [] => [[b]]
      | piece :: rest => (b :: piece) :: rest

/-- The text without a delimiter at its end. -/
def trimLast (delim : UInt8) (bs : Bytes) : Bytes :=
  if bs.getLast? = some delim then bs.dropLast else bs

section Fields

variable {delim : UInt8} {piece : Bytes}

theorem fields_eq_nil_iff {bs : Bytes} : fields delim bs = [] ↔ bs = [] := by
  cases bs with
  | nil => simp [fields]
  | cons b bs =>
    rw [fields]
    split_ifs
    · simp
    · split <;> simp

theorem fields_append (hpiece : delim ∉ piece) (after : Bytes) :
    fields delim (piece ++ delim :: after) = piece :: fields delim after := by
  induction piece with
  | nil => rw [List.nil_append, fields, if_pos rfl]
  | cons b piece ih =>
    rw [List.mem_cons, not_or] at hpiece
    rw [List.cons_append, fields, if_neg (Ne.symm hpiece.1), ih hpiece.2]

theorem fields_of_notMem (hne : piece ≠ []) (hpiece : delim ∉ piece) :
    fields delim piece = [piece] := by
  induction piece with
  | nil => exact absurd rfl hne
  | cons b piece ih =>
    rw [List.mem_cons, not_or] at hpiece
    rw [fields, if_neg (Ne.symm hpiece.1)]
    cases piece with
    | nil => rfl
    | cons c piece => rw [ih (by simp) hpiece.2]

theorem trimLast_of_notMem (hpiece : delim ∉ piece) : trimLast delim piece = piece :=
  if_neg fun h => hpiece (List.mem_of_getLast? h)

theorem trimLast_eq_iff {bs : Bytes} : trimLast delim bs = bs ↔ bs.getLast? ≠ some delim := by
  rw [trimLast]
  split_ifs with hlast
  · have hne : bs ≠ [] := by
      rintro rfl
      simp at hlast
    have hpos := List.length_pos_of_ne_nil hne
    refine iff_of_false (fun h => ?_) (not_not.2 hlast)
    have hlen := congrArg List.length h
    rw [List.length_dropLast] at hlen
    omega
  · exact iff_of_true rfl hlast

theorem trimLast_cons (b : UInt8) {bs : Bytes} (hne : bs ≠ []) :
    trimLast delim (b :: bs) = b :: trimLast delim bs := by
  obtain ⟨c, bs, rfl⟩ := List.exists_cons_of_ne_nil hne
  rw [trimLast, trimLast, List.getLast?_cons_cons, List.dropLast_cons_of_ne_nil hne]
  split_ifs <;> rfl

theorem trimLast_append (before : Bytes) {bs : Bytes} (hne : bs ≠ []) :
    trimLast delim (before ++ bs) = before ++ trimLast delim bs := by
  induction before with
  | nil => rfl
  | cons b before ih =>
    rw [List.cons_append, trimLast_cons b (by simp [hne]), ih, List.cons_append]

theorem flatMap_fields {bs : Bytes} (hne : bs ≠ []) :
    (fields delim bs).flatMap (delim :: ·) = delim :: trimLast delim bs := by
  induction bs with
  | nil => exact absurd rfl hne
  | cons b bs ih =>
    by_cases hbs : bs = []
    · subst hbs
      by_cases hb : b = delim <;> simp [fields, trimLast, hb]
    · rw [trimLast_cons b hbs, fields]
      split_ifs with hb
      · rw [List.flatMap_cons, ih hbs, hb]
        rfl
      · cases hfields : fields delim bs with
        | nil => exact absurd (fields_eq_nil_iff.1 hfields) hbs
        | cons piece rest =>
          have hrest := ih hbs
          rw [hfields, List.flatMap_cons, List.cons_append, List.cons.injEq] at hrest
          rw [← hrest.2]
          simp

theorem pieces_cursor (delim : UInt8) {fuel : ℕ} {after : Bytes} (hfuel : after.length < fuel)
    (before : Bytes) : (Stream.cursor before after).pieces delim fuel = some (fields delim after) := by
  induction fuel generalizing before after with
  | zero => omega
  | succ fuel ih =>
    by_cases hdelim : delim ∈ after
    · obtain ⟨piece, rest, rfl, hpiece⟩ := List.eq_append_cons_of_mem hdelim
      have hrest : rest.length < fuel := by
        rw [List.length_append, List.length_cons] at hfuel
        omega
      simp only [Stream.pieces, Stream.getlineTo_cursor hpiece, fields_append hpiece]
      rw [if_neg (by simp [Stream.cursor]), ih hrest, Option.map_some]
    · simp only [Stream.pieces, Stream.getlineTo_last hdelim]
      by_cases hafter : after = []
      · rw [if_pos (by simp [hafter]), hafter, fields]
      · have hpos := List.length_pos_of_ne_nil hafter
        obtain ⟨fuel, rfl⟩ : ∃ k, fuel = k + 1 := ⟨fuel - 1, by omega⟩
        rw [if_neg (by simp [hafter]), Stream.pieces_of_end delim fuel rfl,
          fields_of_notMem hafter hdelim, Option.map_some]

end Fields

end ByteStream
