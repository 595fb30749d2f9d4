import Mathlib.Algebra.Group.Nat.Defs
import Mathlib.Tactic.Common

/-!
# Double precision numbers

IEEE 754 doubles by their bits, for programs that store and show them: equality, which is not
reflexive and ignores the sign of zero, and the text with a fixed number of decimals.
-/

structure F64 where
  bits : UInt64
deriving Repr

namespace F64

def negative (x : F64) : Bool := 2 ^ 63 ≤ x.bits.toNat

def exponent (x : F64) : Nat := x.bits.toNat / 2 ^ 52 % 2 ^ 11

def mantissa (x : F64) : Nat := x.bits.toNat % 2 ^ 52

def isNaN (x : F64) : Bool := x.exponent == 2047 && x.mantissa != 0

def isZero (x : F64) : Bool := x.exponent == 0 && x.mantissa == 0

/-- Equality of doubles: a NaN equals nothing, and the two zeros are equal. -/
instance : BEq F64 where
  beq x y := !x.isNaN && !y.isNaN && (x.bits == y.bits || (x.isZero && y.isZero))

theorem beq_iff {x y : F64} : (x == y) = true ↔
    x.isNaN = false ∧ y.isNaN = false ∧ (x.bits = y.bits ∨ x.isZero = true ∧ y.isZero = true) := by
  simp [BEq.beq, and_assoc]

instance : PartialEquivBEq F64 where
  symm {x y} h := by
    obtain ⟨hx, hy, hbits | ⟨hzx, hzy⟩⟩ := beq_iff.1 h
    · exact beq_iff.2 ⟨hy, hx, .inl hbits.symm⟩
    · exact beq_iff.2 ⟨hy, hx, .inr ⟨hzy, hzx⟩⟩
  trans {x y z} hxy hyz := by
    obtain ⟨hx, -, hxy | ⟨hzx, hzy⟩⟩ := beq_iff.1 hxy
    · have hsame : x = y := by
        cases x
        cases y
        exact congrArg F64.mk hxy
      rwa [hsame]
    · obtain ⟨-, hz, hyz | ⟨-, hzz⟩⟩ := beq_iff.1 hyz
      · refine beq_iff.2 ⟨hx, hz, .inr ⟨hzx, ?_⟩⟩
        rw [isZero, exponent, mantissa, ← hyz]
        exact hzy
      · exact beq_iff.2 ⟨hx, hz, .inr ⟨hzx, hzz⟩⟩

/-- The quotient rounded to the nearest integer, a tie to the even one. -/
def roundHalfEven (num den : Nat) : Nat :=
  let q := num / den
  let r := num % den
  if den < 2 * r ∨ (2 * r = den ∧ q % 2 = 1) then q + 1 else q

/-- The last digits of a number, as many as are asked for. -/
def lastDigits (digits n : Nat) : String :=
  String.ofList ((List.range digits).reverse.map fun i => Char.ofNat (48 + n / 10 ^ i % 10))

/-- `format!("{:.digits$}", x)` for a positive number of digits. -/
def toFixed (digits : Nat) (x : F64) : String :=
  let sign := if x.negative then "-" else ""
  if x.isNaN then "NaN"
  else if x.exponent = 2047 then sign ++ "inf"
  else
    -- the value is `significand * 2 ^ (shift - 1075)`
    let significand := if x.exponent = 0 then x.mantissa else x.mantissa + 2 ^ 52
    let shift := max x.exponent 1
    let scaled := roundHalfEven (significand * 10 ^ digits * 2 ^ shift) (2 ^ 1075)
    sign ++ toString (scaled / 10 ^ digits) ++ "." ++ lastDigits digits scaled

example : toFixed 7 ⟨0xbff8000000000000⟩ = "-1.5000000" := by decide +kernel

example : toFixed 4 ⟨0x3fb999999999999a⟩ = "0.1000" := by decide +kernel

end F64
