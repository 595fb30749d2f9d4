import Aerobag.Lib.Bytes
import Mathlib.Data.List.Lex
import Mathlib.Order.Lex

/-!
# Reading byte strings at offsets

Little-endian numbers, slices, and the pieces of equal length that a byte string is cut into. Bytes
and byte strings are ordered as their types are in most languages, strings lexicographically.
-/

open List

instance UInt8.linearOrder : LinearOrder UInt8 where
  le_refl := UInt8.le_refl
  le_trans _ _ _ := UInt8.le_trans
  le_antisymm _ _ := UInt8.le_antisymm
  le_total := UInt8.le_total
  lt_iff_le_not_ge a b := by
    simp only [UInt8.le_iff_toNat_le, UInt8.lt_iff_toNat_lt]
    omega
  toDecidableLE := inferInstance
  toDecidableLT := inferInstance
  toDecidableEq := inferInstance

/-- The bytes of a number, the least significant first; what does not fit is cut off. -/
def leBytes (length n : Nat) : Bytes := (List.range length).map fun i => UInt8.ofNat (n / 256 ^ i)

/-- The number with the given bytes, the least significant first. -/
def leNat (bytes : Bytes) : Nat := bytes.foldr (fun b n => b.toNat + 256 * n) 0

@[simp] theorem length_leBytes (ln n : Nat) : (leBytes ln n).length = ln := by simp [leBytes]

theorem leBytes_succ (ln n : Nat) : leBytes (ln + 1) n = UInt8.ofNat n :: leBytes ln (n / 256) := by
  simp only [leBytes, range_succ_eq_map, map_cons, List.map_map, Nat.pow_zero, Nat.div_one]
  congr 1
  refine map_congr_left fun i _ => ?_
  rw [Function.comp_apply, Nat.pow_succ, Nat.div_div_eq_div_mul, Nat.mul_comm]

theorem leNat_leBytes {ln n : Nat} (h : n < 256 ^ ln) : leNat (leBytes ln n) = n := by
  induction ln generalizing n with
  | zero =>
    rw [Nat.pow_zero, Nat.lt_one_iff] at h
    rw [h]
    rfl
  | succ ln ih =>
    have hr : n / 256 < 256 ^ ln := by
      rw [Nat.div_lt_iff_lt_mul (by decide)]
      rwa [Nat.pow_succ] at h
    have hv : leNat (leBytes (ln + 1) n) =
        (UInt8.ofNat n).toNat + 256 * leNat (leBytes ln (n / 256)) := by
      rw [leBytes_succ]
      rfl
    rw [hv, ih hr, UInt8.toNat_ofNat']
    omega

theorem leBytes_two (n : Nat) : leBytes 2 n = [UInt8.ofNat n, UInt8.ofNat (n / 256)] := by
  simp [leBytes, range_succ]

theorem leNat_lt (bs : Bytes) : leNat bs < 256 ^ bs.length := by
  induction bs with
  | nil => decide
  | cons b bs ih =>
    have hby := b.toNat_lt
    have hcn : leNat (b :: bs) = b.toNat + 256 * leNat bs := rfl
    rw [length_cons]
    omega

/-- The part of a string from `start` up to `stop`, if it has one. -/
def slice (bytes : Bytes) (start stop : Nat) : Option Bytes :=
  if start ≤ stop ∧ stop ≤ bytes.length then some ((bytes.drop start).take (stop - start)) else none

/-- The part stands in the string at the offset. -/
def At (bytes : Bytes) (offset : Nat) (part : Bytes) : Prop :=
  ∃ pre post, bytes = pre ++ part ++ post ∧ pre.length = offset

namespace At

variable {bytes pt p' : Bytes} {of : Nat}

theorem self (bs : Bytes) : At bs 0 bs := ⟨[], [], by simp⟩

theorem left (h : At bytes of (pt ++ p')) : At bytes of pt := by
  obtain ⟨pre, p, rfl, hp⟩ := h
  exact ⟨pre, p' ++ p, by simp, hp⟩

theorem right (h : At bytes of (pt ++ p')) : At bytes (of + pt.length) p' := by
  obtain ⟨pre, p, rfl, hp⟩ := h
  exact ⟨pre ++ pt, p, by simp, by simp [hp]⟩

theorem cast {o' : Nat} (h : At bytes of pt) (heq : of = o') : At bytes o' pt := heq ▸ h

theorem length_le (h : At bytes of pt) : of + pt.length ≤ bytes.length := by
  obtain ⟨pre, p, rfl, hp⟩ := h
  simp only [length_append]
  omega

theorem slice_eq (h : At bytes of pt) {s : Nat} (hst : s = of + pt.length) :
    slice bytes of s = some pt := by
  obtain ⟨pre, p, rfl, rfl⟩ := h
  subst hst
  have hbn : pre.length ≤ pre.length + pt.length ∧
      pre.length + pt.length ≤ (pre ++ pt ++ p).length := by
    simp only [length_append]
    omega
  rw [slice, if_pos hbn, append_assoc, drop_left, Nat.add_sub_cancel_left, take_left]

end At

/-- The part of a string between two offsets. -/
def between (bytes : Bytes) (start stop : Nat) : Bytes := (bytes.drop start).take (stop - start)

variable {bytes : Bytes} {st stop : Nat}

theorem between_eq_nil (h : stop ≤ st) : between bytes st stop = [] := by
  rw [between, Nat.sub_eq_zero_of_le h, take_zero]

theorem between_append {mid : Nat} (hs : st ≤ mid) (hst : mid ≤ stop) :
    between bytes st mid ++ between bytes mid stop = between bytes st stop := by
  have hsm : stop - st = (mid - st) + (stop - mid) := by omega
  have hm : st + (mid - st) = mid := by omega
  rw [between, between, between, hsm, take_add, drop_drop, hm]

theorem between_append_left (m : Bytes) (h : stop ≤ bytes.length) :
    between (bytes ++ m) st stop = between bytes st stop := by
  unfold between
  by_cases hs : st ≤ stop
  · rw [drop_append_of_le_length (by omega), take_append_of_le_length]
    rw [length_drop]
    omega
  · have hzr : stop - st = 0 := by omega
    rw [hzr, take_zero, take_zero]

theorem At.between_eq {p : Bytes} {o : Nat} (h : At bytes o p) :
    between bytes o (o + p.length) = p := by
  obtain ⟨pre, ps, rfl, rfl⟩ := h
  rw [between, append_assoc, drop_left, Nat.add_sub_cancel_left, take_left]

/-- The pieces of the given length that a string is cut into; the last one may be shorter. -/
def pieces (size : Nat) (bytes : Bytes) : List Bytes :=
  (List.range ((bytes.length + size - 1) / size)).map fun i => (bytes.drop (i * size)).take size

@[simp] theorem length_pieces (s : Nat) (bs : Bytes) :
    (pieces s bs).length = (bs.length + s - 1) / s := by
  simp [pieces]

theorem getElem?_pieces {s : Nat} {i : Nat} (hsz : 0 < s) (hi : i * s < bytes.length) :
    (pieces s bytes)[i]? = some ((bytes.drop (i * s)).take s) := by
  have hc : i < (bytes.length + s - 1) / s := by
    rw [← Nat.succ_le_iff, Nat.le_div_iff_mul_le hsz, Nat.succ_mul]
    omega
  simp [pieces, hc]

theorem between_piece {o s : Nat} (hst : stop ≤ s) : between ((bytes.drop o).take s) st stop =
      between bytes (o + st) (o + stop) := by
  have hl : min (stop - st) (s - st) = stop - st := by omega
  have hsm : o + stop - (o + st) = stop - st := by omega
  rw [between, between, drop_take, take_take, drop_drop, hl, hsm]
