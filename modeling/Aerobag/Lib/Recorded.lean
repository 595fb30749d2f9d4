import Aerobag.Lib.Bytes
import Mathlib.Logic.Equiv.List

/-!
# Recorded functions

To run a model, library functions are given by what they return on one input, and made up elsewhere
such that the assumptions hold: `recordedHash` has no collisions, `readText` reads what `writeText`
writes.
-/

open List

def zeroed : Bytes → Bytes
  | [] => []
  | b :: bytes => b :: 0 :: zeroed bytes

/-- Such a string, after a one, is not the end of another one. -/
def spread (bytes : Bytes) : Bytes := 1 :: zeroed bytes

theorem length_zeroed (bs : Bytes) : (zeroed bs).length = 2 * bs.length := by
  induction bs with
  | nil => rfl
  | cons b bs ih =>
    simp only [zeroed, length_cons]
    omega

theorem zeroed_injective : Function.Injective zeroed := by
  intro bs bs' h
  induction bs generalizing bs' with
  | nil => cases bs' <;> simp_all [zeroed]
  | cons b bs ih =>
    cases bs' with
    | nil => simp [zeroed] at h
    | cons b' bs' =>
      simp only [zeroed, List.cons.injEq, true_and] at h
      rw [h.1, ih h.2]

theorem zeroed_ne_append_spread (bs bs' xs : Bytes) : zeroed bs ≠ xs ++ spread bs' := by
  intro h
  induction bs generalizing xs with
  | nil => simp [zeroed, spread] at h
  | cons b bs ih =>
    match xs, h with
    | [], h =>
      have hl := congrArg List.length h
      simp only [spread, nil_append, length_cons, length_zeroed] at hl
      omega
    | [x], h => simp [zeroed, spread] at h
    | x :: y :: xs, h =>
      simp only [zeroed, cons_append, List.cons.injEq] at h
      exact ih xs h.2.2

theorem spread_suffix {xs bs bs' : Bytes} (h : spread bs = xs ++ spread bs') : bs = bs' := by
  cases xs with
  | nil => exact zeroed_injective (List.cons.inj h).2
  | cons x xs => exact absurd (List.cons.inj h).2 (zeroed_ne_append_spread _ _ _)

theorem getLast?_spread (bs : Bytes) :
    (spread bs).getLast? = some 0 ∨ (spread bs).getLast? = some 1 := by
  induction bs with
  | nil => exact .inr rfl
  | cons b bs ih =>
    cases bs with
    | nil => exact .inl rfl
    | cons b' bs => simpa [spread, zeroed] using ih

/-- A hash function that is known on a few inputs. -/
def recordedHash (recorded : List (Bytes × Bytes)) (bytes : Bytes) : Bytes :=
  (recorded.lookup bytes).getD (spread bytes)

/-- The recorded digests have 32 bytes, do not end like those that are made up, and do not collide. -/
structure RecordedDigests (recorded : List (Bytes × Bytes)) : Prop where
  length : ∀ entry ∈ recorded, entry.2.length = 32
  last : ∀ entry ∈ recorded, entry.2.getLast? ≠ some 0 ∧ entry.2.getLast? ≠ some 1
  distinct : (recorded.map Prod.snd).Nodup

theorem recordedHash_suffix {r : List (Bytes × Bytes)} (hr : RecordedDigests r) {xs bs bs' : Bytes}
    (h : recordedHash r bs = xs ++ recordedHash r bs') : bs = bs' := by
  have hm {bs dg : Bytes} (h : r.lookup bs = some dg) : (bs, dg) ∈ r := by
    obtain ⟨b, a, rfl, -⟩ := lookup_eq_some_iff.1 h
    exact mem_append_right _ mem_cons_self
  have hsp bs : spread bs ≠ [] := by simp [spread]
  unfold recordedHash at h
  cases hb : r.lookup bs <;> cases hb' : r.lookup bs' <;>
    simp only [hb, hb', Option.getD_none, Option.getD_some] at h
  · exact spread_suffix h
  · rename_i dg
    have hl := hr.last _ (hm hb')
    have hne : dg ≠ [] := by
      rintro rfl
      exact absurd (hr.length _ (hm hb')) (by simp)
    have hen := congrArg List.getLast? h
    rw [getLast?_append_of_ne_nil _ hne] at hen
    rcases getLast?_spread bs with hs | hs <;> rw [hs] at hen
    · exact absurd hen.symm hl.1
    · exact absurd hen.symm hl.2
  · rename_i dg
    have hl := hr.last _ (hm hb)
    have hen := congrArg List.getLast? h
    rw [getLast?_append_of_ne_nil _ (hsp bs')] at hen
    rcases getLast?_spread bs' with hs | hs <;> rw [hs] at hen
    · exact absurd hen hl.1
    · exact absurd hen hl.2
  · have hln := congrArg List.length h
    rw [length_append, hr.length _ (hm hb), hr.length _ (hm hb')] at hln
    obtain rfl : xs = [] := length_eq_zero_iff.1 (by omega)
    have hsm := inj_on_of_nodup_map hr.distinct (hm hb) (hm hb') h
    exact congrArg Prod.fst hsm

/-- A hash function without collisions among the recorded digests has none at all. -/
theorem recordedHash_injective {rc : List (Bytes × Bytes)}
    (hr : RecordedDigests rc) : Function.Injective (recordedHash rc) :=
  fun _ _ h => recordedHash_suffix hr (h.trans (nil_append _).symm)

instance UInt8.encodable : Encodable UInt8 :=
  .ofLeftInjection UInt8.toNat (fun n => some (UInt8.ofNat n)) fun _ => congrArg some UInt8.ofNat_toNat

instance Char.encodable : Encodable Char :=
  .ofLeftInjection Char.toNat (fun n => some (Char.ofNat n)) fun c => congrArg some c.ofNat_toNat

instance String.encodable : Encodable String :=
  .ofLeftInjection String.toList (fun cs => some (String.ofList cs)) fun _ =>
    congrArg some String.ofList_toList

section Texts

variable {α : Type*} [DecidableEq α] [Encodable α] (known : List α) (text : α → Bytes)

/-- The text of a known value; other values are written as a number of zeros. -/
def writeText (value : α) : Bytes :=
  if value ∈ known then text value else List.replicate (Encodable.encode value + 1) 0

def readText (bytes : Bytes) : Option α :=
  match known.find? fun value => text value = bytes with
  | some value => some value
  | none => Encodable.decode (bytes.length - 1)

theorem readText_writeText (hds : (known.map text).Nodup)
    (hhd : ∀ a, (text a).head? ≠ some 0) (v : α) :
    readText known text (writeText known text v) = some v := by
  unfold readText writeText
  split
  · rename_i f hfd
    obtain ⟨hm, hsm⟩ := And.intro (mem_of_find?_eq_some hfd) (find?_some hfd)
    rw [decide_eq_true_eq] at hsm
    split at hsm
    · exact congrArg some (inj_on_of_nodup_map hds hm ‹_› hsm)
    · exact absurd (by rw [hsm]; rfl) (hhd f)
  · rename_i hn
    rw [find?_eq_none] at hn
    have hun : v ∉ known := by
      intro hm
      simpa [hm] using hn v hm
    simp [hun]

end Texts
