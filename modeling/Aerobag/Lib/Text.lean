import Mathlib.Data.List.DropRight
import Aerobag.Lib.Bytes

/-!
# Text

White space and ASCII case, as the string functions of Rust's standard library have them,
hexadecimal numbers of a fixed width, and texts that can be taken apart again.
-/

open List

namespace Text

/-- `char::is_whitespace`, which `str::trim` removes. -/
def isWhiteSpace (c : Char) : Bool :=
  let n := c.val.toNat
  (9 ≤ n && n ≤ 13) || n == 32 || n == 0x85 || n == 0xa0 || n == 0x1680 ||
    (0x2000 ≤ n && n ≤ 0x200a) || n == 0x2028 || n == 0x2029 || n == 0x202f || n == 0x205f ||
    n == 0x3000

def isBlank (text : String) : Bool := text.toList.all isWhiteSpace

def trimChars (text : List Char) : List Char :=
  ((text.dropWhile isWhiteSpace).reverse.dropWhile isWhiteSpace).reverse

def trim (text : String) : String := String.ofList (trimChars text.toList)

def toAsciiUpper (c : Char) : Char :=
  if 'a' ≤ c ∧ c ≤ 'z' then Char.ofNat (c.toNat - 32) else c

def toAsciiUppercase (text : String) : String := String.ofList (text.toList.map toAsciiUpper)

def splitWhitespace (text : String) : List String :=
  ((text.toList.splitOnP isWhiteSpace).filter (· ≠ [])).map String.ofList

def after? (start text : String) : Option String :=
  if start.toList <+: text.toList then some (String.ofList (text.toList.drop start.toList.length))
  else none

def splitOnce? (c : Char) (text : String) : Option (String × String) :=
  match text.toList.dropWhile (· ≠ c) with
  | [] => none
  | _ :: rest => some (String.ofList (text.toList.takeWhile (· ≠ c)), String.ofList rest)

def split (c : Char) (text : String) : List String := (text.toList.splitOn c).map String.ofList

def trimEndMatches (c : Char) (text : String) : String :=
  String.ofList (text.toList.reverse.dropWhile (· = c)).reverse

def trimStartMatches (c : Char) (text : String) : String :=
  String.ofList (text.toList.dropWhile (· = c))

theorem after?_append (st r : String) : after? st (st ++ r) = some r := by simp [after?]

theorem after?_append_of_ne (st o r : String)
    (hl : st.toList.length = o.toList.length) (hne : st ≠ o) : after? st (o ++ r) = none := by
  refine if_neg fun hpr => hne ?_
  obtain ⟨m, hmr⟩ := hpr
  rw [String.toList_append] at hmr
  exact String.toList_inj.1 (append_inj hmr hl).1

variable {c : Char}

theorem splitOnce?_append {first : String} (h : c ∉ first.toList) (r : String) :
    splitOnce? c (first ++ String.singleton c ++ r) = some (first, r) := by
  have hal : ∀ a ∈ first.toList, decide (a ≠ c) = true :=
    fun a ha => decide_eq_true fun heq => h (heq ▸ ha)
  have htx : (first ++ String.singleton c ++ r).toList = first.toList ++ c :: r.toList := by simp
  have hdr : (first.toList ++ c :: r.toList).dropWhile (· ≠ c) = c :: r.toList := by
    rw [dropWhile_append_of_pos hal]
    simp
  have htk : (first.toList ++ c :: r.toList).takeWhile (· ≠ c) = first.toList := by
    rw [takeWhile_append_of_pos hal]
    simp
  unfold splitOnce?
  rw [htx, hdr, htk]
  simp

theorem split_append (c : Char) (first r : String) :
    split c (first ++ String.singleton c ++ r) = split c first ++ split c r := by
  simp [split, splitOn_append_cons_self]

theorem split_ne_nil (c : Char) (t : String) : split c t ≠ [] := by simp [split]

theorem eq_of_split_eq_singleton {t p : String} (h : split c t = [p]) : p = t := by
  obtain ⟨cs, hch, rfl⟩ := map_eq_singleton_iff.1 h
  have hjn : [c].intercalate (t.toList.splitOn c) = t.toList := intercalate_splitOn c
  rw [hch] at hjn
  simpa using congrArg String.ofList hjn

variable {n : Nat}

theorem toNat_ofNat_of_lt (h : n < 0xd800) : (Char.ofNat n).toNat = n := by
  have hv : n.isValidChar := .inl h
  rw [Char.ofNat, dif_pos hv]
  rfl

theorem lower_iff (c : Char) : ('a' ≤ c ∧ c ≤ 'z') ↔ 97 ≤ c.toNat ∧ c.toNat ≤ 122 := Iff.rfl

theorem toNat_toAsciiUpper (c : Char) :
    (toAsciiUpper c).toNat = if 97 ≤ c.toNat ∧ c.toNat ≤ 122 then c.toNat - 32 else c.toNat := by
  unfold toAsciiUpper
  simp only [lower_iff]
  split
  · exact toNat_ofNat_of_lt (by omega)
  · rfl

theorem isWhiteSpace_toAsciiUpper (c : Char) : isWhiteSpace (toAsciiUpper c) = isWhiteSpace c := by
  have hv : ∀ c : Char, c.val.toNat = c.toNat := fun _ => rfl
  unfold isWhiteSpace
  simp only [hv, toNat_toAsciiUpper]
  split
  · rw [Bool.eq_iff_iff]
    simp only [Bool.or_eq_true, Bool.and_eq_true, decide_eq_true_eq, beq_iff_eq]
    omega
  · rfl

theorem toAsciiUpper_idem (c : Char) : toAsciiUpper (toAsciiUpper c) = toAsciiUpper c := by
  have hup := toNat_toAsciiUpper c
  have hag := toNat_toAsciiUpper (toAsciiUpper c)
  refine Char.toNat_inj.1 ?_
  rw [hag, if_neg]
  split at hup <;> omega

theorem toAsciiUppercase_idem (t : String) :
    toAsciiUppercase (toAsciiUppercase t) = toAsciiUppercase t := by
  have hcm : toAsciiUpper ∘ toAsciiUpper = toAsciiUpper := funext toAsciiUpper_idem
  simp [toAsciiUppercase, hcm]

theorem isEmpty_toAsciiUppercase (t : String) : (toAsciiUppercase t).isEmpty = t.isEmpty := by
  rw [Bool.eq_iff_iff, String.isEmpty_iff, String.isEmpty_iff]
  simp [toAsciiUppercase]

theorem dropWhile_trimChars (t : List Char) :
    (trimChars t).dropWhile isWhiteSpace = trimChars t := by
  unfold trimChars
  generalize hfr : t.dropWhile isWhiteSpace = front
  have hfx : front.dropWhile isWhiteSpace = front := by rw [← hfr, dropWhile_idempotent]
  cases front with
  | nil => rfl
  | cons c r =>
    have hc : isWhiteSpace c = false := by
      by_contra hsp
      rw [Bool.not_eq_false] at hsp
      rw [dropWhile_cons_of_pos hsp] at hfx
      have hl := congrArg List.length hfx
      have hle := (dropWhile_sublist isWhiteSpace (l := r)).length_le
      simp only [length_cons] at hl
      omega
    have he : ((c :: r).reverse.dropWhile isWhiteSpace).reverse =
        c :: (r.reverse.dropWhile isWhiteSpace).reverse := by
      rw [reverse_cons, dropWhile_append]
      split
      · rename_i hnl
        simp [List.isEmpty_iff.1 hnl, hc]
      · simp
    rw [he, dropWhile_cons_of_neg (by simp [hc])]

theorem trimChars_idem (t : List Char) : trimChars (trimChars t) = trimChars t := by
  have hfr := dropWhile_trimChars t
  have hba : (trimChars t).reverse.dropWhile isWhiteSpace = (trimChars t).reverse := by
    simp [trimChars, reverse_reverse, dropWhile_idempotent]
  rw [trimChars, hfr, hba, reverse_reverse]

theorem trim_trim (t : String) : trim (trim t) = trim t := by simp [trim, trimChars_idem]

theorem trimChars_map_toAsciiUpper (t : List Char) :
    trimChars (t.map toAsciiUpper) = (trimChars t).map toAsciiUpper := by
  have hcm : isWhiteSpace ∘ toAsciiUpper = isWhiteSpace := funext isWhiteSpace_toAsciiUpper
  simp [trimChars, dropWhile_map, hcm, ← map_reverse]

theorem trim_toAsciiUppercase (t : String) :
    trim (toAsciiUppercase t) = toAsciiUppercase (trim t) := by
  simp [trim, toAsciiUppercase, trimChars_map_toAsciiUpper]

/-- The last hexadecimal digits of a number. -/
def hexChars : Nat → Nat → List Char
  | 0, _ => []
  | width + 1, n => hexChars width (n / 16) ++ [hexDigit (n % 16)]

/-- `format!("{n:0width$x}")` for a number of at most that many digits. -/
def hex (width n : Nat) : String := String.ofList (hexChars width n)

variable {m w : Nat}

theorem hexChars_injective (hm : m < 16 ^ w) (hn : n < 16 ^ w)
    (h : hexChars w m = hexChars w n) : m = n := by
  induction w generalizing m n with
  | zero => omega
  | succ w ih =>
    obtain ⟨hin, hl⟩ := append_inj' h rfl
    have hqt : m / 16 = n / 16 := ih (by omega) (by omega) hin
    have hr : m % 16 = n % 16 := hexDigit_injective (by omega) (by omega) (by simp_all)
    omega

theorem hex_injective (hm : m < 16 ^ w) (hn : n < 16 ^ w)
    (h : hex w m = hex w n) : m = n :=
  hexChars_injective hm hn (String.ofList_injective h)

theorem isDigit_of_mem_repr (h : c ∈ n.repr.toList) : c.isDigit = true := by
  rw [Nat.repr_eq_ofList_toDigits, String.toList_ofList] at h
  exact Nat.isDigit_of_mem_toDigits (by decide) (by decide) h

theorem repr_inj (h : m.repr = n.repr) : m = n := by
  rw [← Nat.ofDigitChars_ten_toDigits (n := m), String.ofList_injective h, Nat.ofDigitChars_ten_toDigits]

theorem toString_int_inj {i j : Int} (h : toString i = toString j) : i = j := by
  have hne (m n : Nat) : m.repr ≠ "-" ++ n.repr := by
    intro h
    have hm : '-' ∈ m.repr.toList := by simp [h]
    exact absurd (isDigit_of_mem_repr hm) (by decide)
  rw [Int.toString_eq_repr, Int.toString_eq_repr, Int.repr_eq_if, Int.repr_eq_if] at h
  split_ifs at h with hi hj hj
  · have := repr_inj h
    omega
  · exact absurd h (hne _ _)
  · exact absurd h.symm (hne _ _)
  · have := repr_inj ((String.append_right_inj _).1 h)
    omega

end Text
