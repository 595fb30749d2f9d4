import Aerobag.Lib.Bytes

/-!
# Base64

The URL-safe alphabet without padding: three bytes are four digits of six bits; a last group of two
bytes or of one byte has three or two digits, and its unused bits are zero.
-/

open Option

namespace Base64

def digitByte (n : Nat) : UInt8 :=
  UInt8.ofNat (if n < 26 then 65 + n else if n < 52 then 71 + n else if n < 62 then n - 4
    else if n = 62 then 45 else 95)

def digitValue (b : UInt8) : Option Nat :=
  let n := b.toNat
  if 65 ≤ n ∧ n ≤ 90 then some (n - 65)
  else if 97 ≤ n ∧ n ≤ 122 then some (n - 71)
  else if 48 ≤ n ∧ n ≤ 57 then some (n + 4)
  else if n = 45 then some 62
  else if n = 95 then some 63
  else none

def digits : Bytes → List Nat
  | a :: b :: c :: rest =>
    a.toNat / 4 :: (a.toNat % 4 * 16 + b.toNat / 16) :: (b.toNat % 16 * 4 + c.toNat / 64) ::
      c.toNat % 64 :: digits rest
  | [a, b] => [a.toNat / 4, a.toNat % 4 * 16 + b.toNat / 16, b.toNat % 16 * 4]
  | [a] => [a.toNat / 4, a.toNat % 4 * 16]
  | [] => []

def ofDigits : List Nat → Option Bytes
  | w :: x :: y :: z :: rest => do
    let bytes ← ofDigits rest
    return UInt8.ofNat (w * 4 + x / 16) :: UInt8.ofNat (x % 16 * 16 + y / 4) ::
      UInt8.ofNat (y % 4 * 64 + z) :: bytes
  | [w, x, y] =>
    if y % 4 = 0 then some [UInt8.ofNat (w * 4 + x / 16), UInt8.ofNat (x % 16 * 16 + y / 4)] else none
  | [w, x] => if x % 16 = 0 then some [UInt8.ofNat (w * 4 + x / 16)] else none
  | [_] => none
  | [] => some []

theorem digits_lt {bs : Bytes} : ∀ n ∈ digits bs, n < 64 := by
  fun_induction digits bs with
  | case1 a b c r ih =>
    have := a.toNat_lt
    have := b.toNat_lt
    have := c.toNat_lt
    simp only [List.mem_cons, forall_eq_or_imp]
    exact ⟨by omega, by omega, by omega, by omega, ih⟩
  | case2 a b =>
    have := a.toNat_lt
    have := b.toNat_lt
    simp
    omega
  | case3 a =>
    have := a.toNat_lt
    simp
    omega
  | case4 => simp

theorem digitByte_lt {n : Nat} (h : n < 64) : (digitByte n).toNat < 128 := by decide +revert

theorem digitValue_digitByte {n : Nat} (h : n < 64) : digitValue (digitByte n) = some n := by
  decide +revert

theorem mapM_digitValue {ns : List Nat} (h : ∀ n ∈ ns, n < 64) :
    (ns.map digitByte).mapM digitValue = some ns := by
  induction ns with
  | nil => rfl
  | cons n ns ih =>
    simp only [List.mem_cons, forall_eq_or_imp] at h
    simp [digitValue_digitByte h.1, ih h.2]

def encode (bytes : Bytes) : String :=
  asciiString ((digits bytes).map digitByte) fun _ hb => by
    obtain ⟨n, hn, rfl⟩ := List.mem_map.1 hb
    exact digitByte_lt (digits_lt n hn)

def decode (text : String) : Option Bytes := ((strBytes text).mapM digitValue).bind ofDigits

theorem ofNat_eq_of_toNat_eq {n : Nat} {a : UInt8} (h : n = a.toNat) : UInt8.ofNat n = a := by
  rw [h, UInt8.ofNat_toNat]

theorem ofDigits_digits (bs : Bytes) : ofDigits (digits bs) = some bs := by
  fun_induction digits bs with
  | case1 a b c r ih =>
    have hb := b.toNat_lt
    have hc := c.toNat_lt
    simp only [ofDigits, ih, Option.pure_def, bind_eq_bind, bind_some]
    rw [ofNat_eq_of_toNat_eq (a := a) (by omega), ofNat_eq_of_toNat_eq (a := b) (by omega),
      ofNat_eq_of_toNat_eq (a := c) (by omega)]
  | case2 a b =>
    have hb := b.toNat_lt
    rw [ofDigits, if_pos (by omega), ofNat_eq_of_toNat_eq (a := a) (by omega),
      ofNat_eq_of_toNat_eq (a := b) (by omega)]
  | case3 a => rw [ofDigits, if_pos (by omega), ofNat_eq_of_toNat_eq (a := a) (by omega)]
  | case4 => rfl

theorem decode_encode (bs : Bytes) : decode (encode bs) = some bs := by
  rw [decode, encode, strBytes_asciiString, mapM_digitValue digits_lt, bind_some, ofDigits_digits]

example : encode (strBytes "large") = "bGFyZ2U" := by decide +kernel

end Base64
