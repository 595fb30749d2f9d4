import Mathlib.Data.List.Basic
import Mathlib.Tactic.Ring

/-!
# Byte strings

The UTF-8 bytes of a string, hexadecimal text, and the facts that make encodings built from them
unambiguous: both are injective, and parts that do not contain a separator can be told apart.
-/

open List

abbrev Bytes := List UInt8

def strBytes (s : String) : Bytes := s.toByteArray.data.toList

def hexDigit (n : Nat) : Char := if n < 10 then Char.ofNat (48 + n) else Char.ofNat (87 + n)

theorem strBytes_injective : Function.Injective strBytes := by
  intro s t h
  have hdt : s.toByteArray.data = t.toByteArray.data := Array.toList_inj.1 h
  cases s
  cases t
  simp_all [ByteArray.ext_iff]

theorem strBytes_eq_flatMap (s : String) : strBytes s = s.toList.flatMap String.utf8EncodeChar := by
  rw [strBytes, ← String.utf8Encode_toList, List.utf8Encode]
  simp

theorem fromUTF8?_strBytes (s : String) : String.fromUTF8? ⟨⟨strBytes s⟩⟩ = some s := by
  have hv : s.toByteArray.IsValidUTF8 := s.isValidUTF8
  rw [String.fromUTF8?]
  exact dif_pos hv

theorem zero_notMem_utf8EncodeChar {c : Char} (h : c ≠ Char.ofNat 0) :
    0 ∉ String.utf8EncodeChar c := by
  have hv : c.toNat ≠ 0 := fun hzr => h (Char.ext (UInt32.toNat_inj.1 (by simpa using hzr)))
  intro hm
  simp only [String.utf8EncodeChar, Char.toNat_val] at hm
  split at hm
  · simp [← UInt8.toNat_inj] at hm
    omega
  · split at hm
    · simp [← UInt8.toNat_inj] at hm
      omega
    · split at hm
      · simp [← UInt8.toNat_inj] at hm
        omega
      · simp [← UInt8.toNat_inj] at hm
        omega

theorem zero_notMem_strBytes {s : String} (h : ∀ c ∈ s.toList, c ≠ Char.ofNat 0) :
    0 ∉ strBytes s := by
  rw [strBytes_eq_flatMap, mem_flatMap]
  rintro ⟨c, hc, hzr⟩
  exact zero_notMem_utf8EncodeChar (h c hc) hzr

theorem utf8EncodeChar_ofNat {b : UInt8} (h : b.toNat < 128) :
    String.utf8EncodeChar (Char.ofNat b.toNat) = [b] := by
  have hal : ∀ n < 128, String.utf8EncodeChar (.ofNat n) = [.ofNat n] := by decide
  rw [hal _ h, UInt8.ofNat_toNat]

variable {bs : Bytes}

theorem isValidUTF8_of_ascii (h : ∀ b ∈ bs, b.toNat < 128) :
    (ByteArray.mk ⟨bs⟩).IsValidUTF8 := by
  have hen : (bs.map fun b => .ofNat b.toNat).flatMap String.utf8EncodeChar = bs := by
    rw [flatMap_map]
    induction bs with
    | nil => rfl
    | cons b bs ih =>
      rw [flatMap_cons, utf8EncodeChar_ofNat (h b mem_cons_self),
        ih fun b' hb' => h b' (mem_cons_of_mem _ hb'), singleton_append]
  refine .intro (bs.map fun b => .ofNat b.toNat) ?_
  rw [List.utf8Encode, hen]
  exact ByteArray.ext (by simp)

def asciiString (bytes : Bytes) (h : ∀ b ∈ bytes, b.toNat < 128) : String :=
  .ofByteArray ⟨⟨bytes⟩⟩ (isValidUTF8_of_ascii h)

@[simp] theorem strBytes_asciiString (h : ∀ b ∈ bs, b.toNat < 128) :
    strBytes (asciiString bs h) = bs := rfl

def hexPair (b : UInt8) : Bytes :=
  [UInt8.ofNat (hexDigit (b.toNat / 16)).toNat, UInt8.ofNat (hexDigit (b.toNat % 16)).toNat]

theorem hexDigit_range :
    ∀ n < 16, (UInt8.ofNat (hexDigit n).toNat).toNat < 128 ∧ 0 ≠ UInt8.ofNat (hexDigit n).toNat := by
  decide

theorem hexDigit_injective {m n : Nat} (hm : m < 16) (hn : n < 16)
    (h : UInt8.ofNat (hexDigit m).toNat = UInt8.ofNat (hexDigit n).toNat) : m = n := by
  have hal : ∀ m < 16, ∀ n < 16,
      .ofNat (hexDigit m).toNat = UInt8.ofNat (hexDigit n).toNat → m = n := by decide
  exact hal m hm n hn h

theorem hexPair_range : ∀ b ∈ bs.flatMap hexPair, b.toNat < 128 ∧ 0 ≠ b := by
  intro b hb
  obtain ⟨b', -, hb⟩ := mem_flatMap.1 hb
  have hlt := b'.toNat_lt
  rcases mem_pair.1 hb with rfl | rfl
  · exact hexDigit_range _ (by omega)
  · exact hexDigit_range _ (by omega)

def hexBytes (bytes : Bytes) : String :=
  asciiString (bytes.flatMap hexPair) fun b hb => (hexPair_range b hb).1

theorem strBytes_hexBytes (bs : Bytes) : strBytes (hexBytes bs) = bs.flatMap hexPair := rfl

theorem hexBytes_injective : Function.Injective hexBytes := by
  intro xs ys h
  replace h : xs.flatMap hexPair = ys.flatMap hexPair := congrArg strBytes h
  induction xs generalizing ys with
  | nil => cases ys with
    | nil => rfl
    | cons y ys => simp [hexPair] at h
  | cons x xs ih => cases ys with
    | nil => simp [hexPair] at h
    | cons y ys =>
      simp only [flatMap_cons, hexPair, cons_append, List.cons.injEq] at h
      obtain ⟨hhg, hl, hr⟩ := h
      have hx := x.toNat_lt
      have hy := y.toNat_lt
      have hhg := hexDigit_injective (by omega) (by omega) hhg
      have hl := hexDigit_injective (by omega) (by omega) hl
      obtain rfl : x = y := UInt8.toNat_inj.1 (by omega)
      rw [ih hr]

theorem zero_notMem_strBytes_hexBytes (bs : Bytes) : 0 ∉ strBytes (hexBytes bs) :=
  fun h => (hexPair_range 0 h).2 rfl

theorem length_strBytes_hexBytes (bs : Bytes) :
    (strBytes (hexBytes bs)).length = 2 * bs.length := by
  rw [strBytes_hexBytes]
  simp [hexPair, Nat.mul_comm]

/-- Of two hexadecimal texts at the end of one string, the shorter one is the end of the longer. -/
theorem suffix_of_append_hexBytes {as xs ys : Bytes} (hle : xs.length ≤ ys.length)
    (h : as ++ strBytes (hexBytes xs) = bs ++ strBytes (hexBytes ys)) : ∃ zs, ys = zs ++ xs := by
  refine ⟨ys.take (ys.length - xs.length), ?_⟩
  have hsp := take_append_drop (ys.length - xs.length) ys
  rw [← hsp, strBytes_hexBytes (_ ++ _), flatMap_append, ← append_assoc] at h
  have hl : (strBytes (hexBytes xs)).length =
      (strBytes (hexBytes (ys.drop (ys.length - xs.length)))).length := by
    rw [length_strBytes_hexBytes, length_strBytes_hexBytes, length_drop]
    omega
  have hsm := hexBytes_injective (strBytes_injective (append_inj_right' h hl))
  exact hsp.symm.trans (congrArg _ hsm.symm)

/-- The bytes of a number, the most significant first; what does not fit is cut off. -/
def beBytes (length n : Nat) : Bytes :=
  (List.range length).reverse.map fun i => UInt8.ofNat (n / 256 ^ i)

@[simp] theorem length_beBytes (ln n : Nat) : (beBytes ln n).length = ln := by simp [beBytes]

theorem beBytes_succ (ln n : Nat) :
    beBytes (ln + 1) n = UInt8.ofNat (n / 256 ^ ln) :: beBytes ln n := by
  simp [beBytes, range_succ]

theorem foldl_beBytes (ln n st : Nat) : (beBytes ln n).foldl (fun v b => v * 256 + b.toNat) st =
      st * 256 ^ ln + n % 256 ^ ln := by
  induction ln generalizing st with
  | zero => simp [beBytes, Nat.mod_one]
  | succ ln ih =>
    have hsp : n % 256 ^ (ln + 1) = n % 256 ^ ln + 256 ^ ln * (n / 256 ^ ln % 256) := by
      rw [Nat.pow_succ, Nat.mod_mul]
    rw [beBytes_succ, foldl_cons, ih, UInt8.toNat_ofNat', hsp]
    ring

theorem beBytes_inj {ln m n : Nat} (hm : m < 256 ^ ln) (hn : n < 256 ^ ln)
    (h : beBytes ln m = beBytes ln n) : m = n := by
  have hv := congrArg (List.foldl (fun v b => v * 256 + b.toNat) 0) h
  rwa [foldl_beBytes, foldl_beBytes, Nat.mod_eq_of_lt hm, Nat.mod_eq_of_lt hn,
    Nat.add_left_cancel_iff] at hv

variable {α β : Type*} {xs : List α}

theorem flatMap_inj_of_length {f g : α → List β}
    (hl : ∀ x ∈ xs, (f x).length = (g x).length) (h : xs.flatMap f = xs.flatMap g) :
    ∀ x ∈ xs, f x = g x := by
  induction xs with
  | nil => simp
  | cons x xs ih =>
    obtain ⟨hf, hr⟩ := append_inj h (hl x mem_cons_self)
    rw [forall_mem_cons]
    exact ⟨hf, ih (fun y hy => hl y (mem_cons_of_mem _ hy)) hr⟩

variable {ys : List α}

/-- Two concatenations of words are equal only if their words are, when words at the same place can be
split off. -/
theorem flatMap_inj_of_zip {c : α → List β}
    (hcd : ∀ p ∈ xs.zip ys, ∀ r r', c p.1 ++ r = c p.2 ++ r' → p.1 = p.2 ∧ r = r')
    (hne : ∀ x, c x ≠ []) (h : xs.flatMap c = ys.flatMap c) : xs = ys := by
  induction xs generalizing ys with
  | nil =>
    cases ys with
    | nil => rfl
    | cons y ys => exact absurd (append_eq_nil_iff.1 h.symm).1 (hne y)
  | cons x xs ih =>
    cases ys with
    | nil => exact absurd (append_eq_nil_iff.1 h).1 (hne x)
    | cons y ys =>
      obtain ⟨hxy, hr⟩ := hcd (x, y) mem_cons_self _ _ h
      obtain rfl : x = y := hxy
      rw [ih (fun p hp => hcd p (mem_cons_of_mem _ hp)) hr]

/-- A concatenation of the words of a self-delimiting code can be read in one way. -/
theorem flatMap_inj_of_code {c : α → List β}
    (hcd : ∀ x ∈ xs, ∀ y ∈ ys, ∀ r r', c x ++ r = c y ++ r' → x = y ∧ r = r')
    (hne : ∀ x, c x ≠ []) (h : xs.flatMap c = ys.flatMap c) : xs = ys :=
  flatMap_inj_of_zip (fun p hp => hcd p.1 (of_mem_zip hp).1 p.2 (of_mem_zip hp).2) hne h

variable {sep : α}

/-- Lists that are followed by a separator are determined, unless one of them is the beginning of the
other up to a separator there. -/
theorem append_cons_inj_of_not_prefix {xs' ys' : List α} (h : ¬ xs ++ [sep] <+: xs')
    (h' : ¬ xs' ++ [sep] <+: xs) (heq : xs ++ sep :: ys = xs' ++ sep :: ys') :
    xs = xs' ∧ ys = ys' := by
  rcases append_eq_append_iff.1 heq with ⟨as, rfl, hr⟩ | ⟨as, rfl, hr⟩
  · cases as with
    | nil => simpa using hr
    | cons a as =>
      obtain ⟨rfl, -⟩ := cons.inj hr
      exact absurd ⟨as, by simp⟩ h
  · cases as with
    | nil => simpa [eq_comm] using hr
    | cons a as =>
      obtain ⟨rfl, -⟩ := cons.inj hr
      exact absurd ⟨as, by simp⟩ h'

/-- What stands before and after the first separator of a list is determined by the list. -/
theorem append_cons_inj {xs' ys' : List α} (h : sep ∉ xs) (h' : sep ∉ xs')
    (heq : xs ++ sep :: ys = xs' ++ sep :: ys') : xs = xs' ∧ ys = ys' :=
  append_cons_inj_of_not_prefix (fun hp => h' (hp.subset (by simp))) (fun hp => h (hp.subset (by simp)))
    heq

/-- What stands before and after the last separator of a list is determined by the list. -/
theorem append_sep_inj {xs' ys' : List α} (h : sep ∉ ys)
    (h' : sep ∉ ys') : xs ++ [sep] ++ ys = xs' ++ [sep] ++ ys' ↔ xs = xs' ∧ ys = ys' := by
  refine ⟨fun heq => ?_, fun ⟨hx, hy⟩ => by rw [hx, hy]⟩
  simp only [append_assoc, singleton_append] at heq
  rcases append_eq_append_iff.1 heq with ⟨as, rfl, hr⟩ | ⟨as, rfl, hr⟩
  · cases as with
    | nil => simpa using hr
    | cons a as =>
      rw [cons_append, List.cons.injEq] at hr
      exact absurd (hr.2 ▸ mem_append_right _ mem_cons_self) h
  · cases as with
    | nil => simpa using hr.symm
    | cons a as =>
      rw [cons_append, List.cons.injEq] at hr
      exact absurd (hr.2 ▸ mem_append_right _ mem_cons_self) h'
