/-
Numbers as they are written, with a fraction or with an exponent: `12.5`, `1e+22`. A written number
stands for the one nearest to it among those with 53 binary digits; of two that are equally near,
for the one whose last digit is even. Main statements: a whole number with no more than 53 binary
digits stands for itself, and any other for one that is off by half a unit of its last digit at most.
-/
namespace TreeLint.Number

/-! ## The nearest number -/

/-- How many binary digits are kept. -/
def precision : Nat := 53

/-- The quotient of two numbers, to the nearest whole number; a half goes to the even one. -/
def nearestQuotient (n d : Nat) : Nat :=
  if 2 * (n % d) < d || (2 * (n % d) = d && n / d % 2 = 0) then n / d else n / d + 1

/-- The worth of the last binary digit that is kept of a whole number. -/
def unit (n : Nat) : Nat := 1 <<< (n.log2 + 1 - precision)

/-- The number nearest to a whole number. -/
def nearest (n : Nat) : Nat := nearestQuotient n (unit n) * unit n

theorem unit_pos (n : Nat) : 0 < unit n := by
  rw [unit, Nat.one_shiftLeft]
  exact Nat.two_pow_pos _

theorem nearestQuotient_one (n : Nat) : nearestQuotient n 1 = n := by
  simp [nearestQuotient, Nat.mod_one]

theorem nearest_of_log2_lt {n : Nat} (h : n.log2 < precision) : nearest n = n := by
  have hu : unit n = 1 := by
    rw [unit, Nat.sub_eq_zero_of_le (Nat.succ_le_of_lt h), Nat.shiftLeft_zero]
  rw [nearest, hu, nearestQuotient_one, Nat.mul_one]

theorem nearest_off_by_half (n : Nat) :
    2 * n ≤ 2 * nearest n + unit n ∧ 2 * nearest n ≤ 2 * n + unit n := by
  have hpos := unit_pos n
  have hdiv := Nat.div_add_mod n (unit n)
  have hmod := Nat.mod_lt n hpos
  rw [Nat.mul_comm] at hdiv
  unfold nearest nearestQuotient
  split
  case isTrue h =>
    simp only [Bool.or_eq_true, Bool.and_eq_true, decide_eq_true_eq] at h
    omega
  case isFalse h =>
    simp only [Bool.or_eq_true, Bool.and_eq_true, decide_eq_true_eq] at h
    rw [Nat.add_one_mul (n / unit n) (unit n)]
    omega

/-! ## Reading -/

/-- The number that decimal digits write. -/
def ofDigits? (cs : List Char) : Option Nat :=
  if !cs.isEmpty && cs.all Char.isDigit then
    some (cs.foldl (fun n c => 10 * n + (c.toNat - '0'.toNat)) 0)
  else none

/-- The whole number that digits with a sign write. -/
def ofSigned? : List Char → Option Int
  | '-' :: cs => (ofDigits? cs).map fun n => -(n : Int)
  | '+' :: cs => (ofDigits? cs).map Int.ofNat
  | cs => (ofDigits? cs).map Int.ofNat

/-- What stands before the first mark in a text, and what stands behind it. -/
def cutAt (mark : Char) (cs : List Char) : List Char × List Char :=
  (cs.takeWhile (· ≠ mark), (cs.dropWhile (· ≠ mark)).drop 1)

/-- A whole number times a power of ten, if that is a whole number. -/
def scaled? (n : Nat) : Int → Option Nat
  | .ofNat k => some (n * Nat.pow 10 k)
  | .negSucc k =>
    let divisor := Nat.pow 10 (k + 1)
    if n % divisor = 0 then some (n / divisor) else none

/-- The whole number that digits without a sign write, with a fraction, an exponent or both. -/
def unsignedWhole? (cs : List Char) : Option Nat := do
  let (digits, exponent) := cutAt 'e' cs
  let (before, after) := cutAt '.' digits
  let n ← ofDigits? (before ++ after)
  let e ← if exponent.isEmpty then some 0 else ofSigned? exponent
  nearest <$> scaled? n (e - after.length)

/-- The whole number that a written number stands for, if it is whole. -/
def whole? (text : String) : Option Int :=
  match text.toList with
  | '-' :: cs => (unsignedWhole? cs).map fun n => -(n : Int)
  | cs => (unsignedWhole? cs).map Int.ofNat

end TreeLint.Number
