import Mathlib.Data.List.Sort
import Mathlib.Order.Basic

/-!
# Search in sorted vectors

Binary search as Rust's standard library does it, in a vector whose elements compare as smaller,
equal, then greater. A sorted vector that is cut into chunks can be searched in one of them.
-/

open List Option

namespace Search

variable {α : Type*}

/-- Halves the interval of the given size from `base` on until one element is left. The fuel is at
least the size. -/
def narrow (compareTo : α → Ordering) (xs : List α) : Nat → Nat → Nat → Nat
  | 0, base, _ => base
  | fuel + 1, base, size =>
    if 1 < size then
      let half := size / 2
      let mid := base + half
      narrow compareTo xs fuel (if xs[mid]?.map compareTo = some .gt then base else mid) (size - half)
    else base

/-- The index of an equal element, or the index at which one could be inserted. -/
def binarySearchBy (compareTo : α → Ordering) (xs : List α) : Except Nat Nat :=
  let base := narrow compareTo xs xs.length 0 xs.length
  match xs[base]?.map compareTo with
  | none => .error 0
  | some .eq => .ok base
  | some .lt => .error (base + 1)
  | some .gt => .error base

def partitionPoint (before : α → Bool) (xs : List α) : Nat :=
  match binarySearchBy (fun x => if before x then .lt else .gt) xs with
  | .ok i => i
  | .error i => i

/-- The elements compare as smaller, then at most one as equal, then greater. -/
def Partitioned (compareTo : α → Ordering) (xs : List α) : Prop :=
  xs.Pairwise fun a b => compareTo a = .lt ∨ compareTo b = .gt

variable {cmp : α → Ordering} {xs : List α}

theorem Partitioned.getElem? (h : Partitioned cmp xs) {i j : Nat} {a b : α} (hij : i < j)
    (ha : xs[i]? = some a) (hb : xs[j]? = some b) : cmp a = .lt ∨ cmp b = .gt := by
  obtain ⟨hi, rfl⟩ := List.getElem?_eq_some_iff.1 ha
  obtain ⟨hj, rfl⟩ := List.getElem?_eq_some_iff.1 hb
  exact pairwise_iff_getElem.1 h i j hi hj hij

/-- The elements before the one that is left are smaller, and those after it are greater. -/
theorem narrow_spec (hxs : Partitioned cmp xs) {n b s : Nat} (hsz : 0 < s)
    (hfu : s ≤ n + 1) (hbd : b + s ≤ xs.length) (hbf : ∀ i x, i < b → xs[i]? = some x → cmp x = .lt)
    (haf : ∀ i x, b + s ≤ i → xs[i]? = some x → cmp x = .gt) : narrow cmp xs n b s < xs.length ∧
    (∀ i x, i < narrow cmp xs n b s → xs[i]? = some x → cmp x = .lt) ∧
    ∀ i x, narrow cmp xs n b s < i → xs[i]? = some x → cmp x = .gt := by
  induction n generalizing b s with
  | zero =>
    obtain rfl : s = 1 := by omega
    exact ⟨by simp only [narrow]; omega, hbf, haf⟩
  | succ n ih =>
    rw [narrow]
    by_cases ho : 1 < s
    · rw [if_pos ho]
      have hm : b + s / 2 < xs.length := by omega
      have hx : xs[b + s / 2]? = some xs[b + s / 2] := getElem?_eq_getElem hm
      simp only [hx, map_some, some.injEq]
      by_cases hgt : cmp xs[b + s / 2] = .gt
      · rw [if_pos hgt]
        refine ih (by omega) (by omega) (by omega) hbf fun i x hi hxi => ?_
        -- the middle element is greater, so all after it are
        rcases Nat.eq_or_lt_of_le (show b + s / 2 ≤ i by omega) with rfl | hlt
        · rw [hx] at hxi
          exact some.inj hxi ▸ hgt
        · rcases hxs.getElem? hlt hx hxi with hls | hgr
          · rw [hgt] at hls
            cases hls
          · exact hgr
      · rw [if_neg hgt]
        refine ih (by omega) (by omega) (by omega) (fun i x hi hxi => ?_) fun i x hi hxi => ?_
        · rcases hxs.getElem? hi hxi hx with hls | hgr
          · exact hls
          · exact absurd hgr hgt
        · exact haf i x (by omega) hxi
    · rw [if_neg ho]
      obtain rfl : s = 1 := by omega
      exact ⟨by omega, hbf, haf⟩

/-- The element at which the search in a vector ends. -/
theorem exists_narrow (hxs : Partitioned cmp xs) (hp : 0 < xs.length) :
    ∃ x, xs[narrow cmp xs xs.length 0 xs.length]? = some x ∧
      (∀ i y, i < narrow cmp xs xs.length 0 xs.length → xs[i]? = some y → cmp y = .lt) ∧
      ∀ i y, narrow cmp xs xs.length 0 xs.length < i → xs[i]? = some y → cmp y = .gt := by
  have haf : ∀ i y, 0 + xs.length ≤ i → xs[i]? = some y → cmp y = .gt := by
    intro i y hi hy
    rw [getElem?_eq_none (by omega)] at hy
    cases hy
  obtain ⟨hlt, hsp⟩ := narrow_spec hxs hp (Nat.le_succ _) (Nat.zero_add _).le
    (fun i y hi => absurd hi (Nat.not_lt_zero i)) haf
  exact ⟨_, getElem?_eq_getElem hlt, hsp⟩

theorem getElem?_binarySearchBy (hxs : Partitioned cmp xs) :
    ((binarySearchBy cmp xs).toOption.bind fun i => xs[i]?) = xs.find? fun x => cmp x = .eq := by
  rcases Nat.eq_zero_or_pos xs.length with hnl | hp
  · obtain rfl := length_eq_zero_iff.1 hnl
    rfl
  · obtain ⟨x, hx, hbf, haf⟩ := exists_narrow hxs hp
    unfold binarySearchBy
    generalize narrow cmp xs xs.length 0 xs.length = base at *
    -- no element is equal, unless the one at `base` is
    have hn : cmp x ≠ .eq → xs.find? (fun x => cmp x = .eq) = none := by
      intro hne
      rw [find?_eq_none]
      intro y hy heq
      rw [decide_eq_true_eq] at heq
      obtain ⟨i, hi⟩ := mem_iff_getElem?.1 hy
      rcases Nat.lt_trichotomy i base with hlt | rfl | hgt
      · rw [hbf i y hlt hi] at heq
        cases heq
      · rw [hx] at hi
        exact hne (some.inj hi ▸ heq)
      · rw [haf i y hgt hi] at heq
        cases heq
    simp only [hx, map_some]
    cases hcm : cmp x with
    | eq =>
      obtain ⟨hbs, rfl⟩ := List.getElem?_eq_some_iff.1 hx
      refine hx.trans (find?_eq_some_iff_getElem.2 ⟨by simpa using hcm, base, hbs, rfl, ?_⟩).symm
      intro j hj
      rw [hbf j _ hj (getElem?_eq_getElem (by omega))]
      rfl
    | lt => exact (hn (by simp [hcm])).symm
    | gt => exact (hn (by simp [hcm])).symm

theorem length_takeWhile_eq {b : α → Bool} {n : Nat} (hn : n ≤ xs.length)
    (hbf : ∀ i x, i < n → xs[i]? = some x → b x = true)
    (haf : ∀ x, xs[n]? = some x → b x = false) : (xs.takeWhile b).length = n := by
  induction xs generalizing n with
  | nil => exact (Nat.le_zero.1 hn).symm
  | cons x xs ih =>
    cases n with
    | zero => simp [haf x rfl]
    | succ n =>
      have hx := hbf 0 x (Nat.succ_pos n) rfl
      rw [takeWhile_cons, if_pos hx, length_cons,
        ih (Nat.le_of_succ_le_succ hn) (fun i y hi hy => hbf (i + 1) y (Nat.succ_lt_succ hi) hy)
          haf]

/-- `partition_point` counts the elements in front that satisfy the predicate. -/
theorem partitionPoint_eq {bf : α → Bool} (hxs : xs.Pairwise fun a b => bf b = true → bf a = true) :
    partitionPoint bf xs = (xs.takeWhile bf).length := by
  have hpr : Partitioned (fun x => if bf x then .lt else .gt) xs := by
    refine hxs.imp fun {a b} hab => ?_
    by_cases hb : bf b = true
    · exact .inl (by simp [hab hb])
    · exact .inr (by simp [hb])
  rcases Nat.eq_zero_or_pos xs.length with hnl | hp
  · obtain rfl := length_eq_zero_iff.1 hnl
    rfl
  · obtain ⟨x, hx, hbf, haf⟩ := exists_narrow hpr hp
    unfold partitionPoint binarySearchBy
    generalize narrow _ xs xs.length 0 xs.length = base at *
    obtain ⟨hbs, -⟩ := List.getElem?_eq_some_iff.1 hx
    have hl : ∀ i y, i < base → xs[i]? = some y → bf y = true := by
      intro i y hi hy
      simpa using hbf i y hi hy
    have hhg : ∀ i y, base < i → xs[i]? = some y → bf y = false := by
      intro i y hi hy
      simpa using haf i y hi hy
    simp only [hx, map_some]
    by_cases hcm : bf x = true
    · rw [if_pos hcm]
      refine (length_takeWhile_eq hbs (fun i y hi hy => ?_) fun y hy => ?_).symm
      · rcases Nat.eq_or_lt_of_le (Nat.le_of_lt_succ hi) with rfl | hlt
        · rw [hx] at hy
          exact some.inj hy ▸ hcm
        · exact hl i y hlt hy
      · exact hhg _ y (Nat.lt_succ_self base) hy
    · rw [if_neg hcm]
      refine (length_takeWhile_eq hbs.le hl fun y hy => ?_).symm
      rw [hx] at hy
      exact some.inj hy ▸ Bool.eq_false_iff.2 hcm

section Chunks

variable {κ : Type*} [LinearOrder κ] {key : α → κ}

def lookup (key : α → κ) (k : κ) (xs : List α) : Option α := xs.find? fun x => key x = k

theorem lookup_eq_none {k : κ} : lookup key k xs = none ↔ ∀ x ∈ xs, key x ≠ k := by simp [lookup]

theorem lookup_append (k : κ) (xs ys : List α) :
    lookup key k (xs ++ ys) = (lookup key k xs).or (lookup key k ys) :=
  find?_append

theorem lookup_cons (k : κ) (x : α) (xs : List α) :
    lookup key k (x :: xs) = if key x = k then some x else lookup key k xs := by
  by_cases h : key x = k <;> simp [h, lookup]

theorem lookup_eq_some (hsr : xs.Pairwise fun a b => key a < key b) {k : κ} {x : α} :
    lookup key k xs = some x ↔ x ∈ xs ∧ key x = k := by
  induction xs with
  | nil => simp [lookup]
  | cons y ys ih =>
    obtain ⟨hf, hr⟩ := pairwise_cons.1 hsr
    rw [lookup_cons, mem_cons]
    by_cases hy : key y = k
    · rw [if_pos hy, some.injEq]
      constructor
      · rintro rfl
        exact ⟨.inl rfl, hy⟩
      · rintro ⟨rfl | hx, hk⟩
        · rfl
        · exact absurd (hy.trans hk.symm) (hf x hx).ne
    · rw [if_neg hy, ih hr]
      constructor
      · exact fun h => ⟨.inr h.1, h.2⟩
      · rintro ⟨rfl | hx, hk⟩
        · exact absurd hk hy
        · exact ⟨hx, hk⟩

theorem takeWhile_congr {p q : α → Bool} {xs : List α} (h : ∀ x ∈ xs, p x = q x) :
    xs.takeWhile p = xs.takeWhile q := by
  induction xs with
  | nil => rfl
  | cons x r ih =>
    rw [forall_mem_cons] at h
    rw [takeWhile_cons, takeWhile_cons, h.1, ih h.2]

/-- A part of a vector around a key: what stands before it is smaller, and what stands after it is
greater. -/
def Around (key : α → κ) (k : κ) (part whole : List α) : Prop :=
  ∃ before after, whole = before ++ part ++ after ∧ (∀ x ∈ before, key x < k) ∧ ∀ x ∈ after, k < key x

theorem Around.trans {k : κ} {p m w : List α} (h : Around key k p m)
    (h' : Around key k m w) : Around key k p w := by
  obtain ⟨b, a, rfl, hbf, haf⟩ := h
  obtain ⟨b', a', rfl, hbf', haf'⟩ := h'
  exact ⟨b' ++ b, a ++ a', by simp, forall_mem_append.2 ⟨hbf', hbf⟩,
    forall_mem_append.2 ⟨haf, haf'⟩⟩

theorem Around.lookup {k : κ} {p w : List α} (h : Around key k p w) :
    lookup key k p = lookup key k w := by
  obtain ⟨b, a, rfl, hbf, haf⟩ := h
  rw [lookup_append, lookup_append, lookup_eq_none.2 fun x hx => (hbf x hx).ne,
    lookup_eq_none.2 fun x hx => (haf x hx).ne', none_or, or_none]

/-- A sorted vector is cut into chunks, each given with the key of its first element. A key belongs to
the chunk after as many others as have a first key that is not greater. -/
theorem around_chunk {chs : List (κ × List α)} (hne : chs ≠ [])
    (hhd : ∀ ch ∈ chs, ch.2.head?.map key = some ch.1)
    (hsr : (chs.flatMap Prod.snd).Pairwise fun a b => key a < key b) (k : κ) :
    ∃ ch, chs[((chs.tail.map Prod.fst).takeWhile (· ≤ k)).length]? = some ch ∧
      Around key k ch.2 (chs.flatMap Prod.snd) := by
  induction chs with
  | nil => exact absurd rfl hne
  | cons first r ih =>
    cases r with
    | nil => exact ⟨first, rfl, [], [], by simp⟩
    | cons s r =>
      rw [flatMap_cons, pairwise_append] at hsr
      obtain ⟨-, hr, hcr⟩ := hsr
      -- the first element of the second chunk
      obtain ⟨x, hx, h⟩ := map_eq_some_iff.1 (hhd s (by simp))
      obtain ⟨t, htl⟩ := head?_eq_some_iff.1 hx
      have hla : (s :: r).flatMap Prod.snd = x :: (t ++ r.flatMap Prod.snd) := by simp [htl]
      rw [flatMap_cons]
      by_cases hle : s.1 ≤ k
      · obtain ⟨ch, hch, har⟩ := ih (by simp) (fun ch hch => hhd ch (mem_cons_of_mem _ hch)) hr
        refine ⟨ch, by simpa [hle] using hch, har.trans ⟨first.2, [], by simp, ?_, by simp⟩⟩
        exact fun y hy => (hcr y hy x (by simp [hla])).trans_le (h ▸ hle)
      · refine ⟨first, by simp [hle], [], _, rfl, by simp, ?_⟩
        have hk : k < key x := h ▸ not_le.1 hle
        rw [hla] at hr ⊢
        exact forall_mem_cons.2 ⟨hk, fun y hy => hk.trans ((pairwise_cons.1 hr).1 y hy)⟩

end Chunks

/-- Between a list and one that it starts, it starts everything. -/
theorem prefix_of_between [LinearOrder α] {xs ys zs : List α} (h : xs <+: zs) (hle : ¬ ys < xs)
    (hlt : ys < zs) : xs <+: ys := by
  induction xs generalizing ys zs with
  | nil => exact nil_prefix
  | cons x xs ih =>
    obtain ⟨r, rfl⟩ := h
    cases ys with
    | nil => simp at hle
    | cons y ys =>
      rw [cons_append, cons_lt_cons_iff] at hlt
      rw [cons_lt_cons_iff] at hle
      obtain rfl : x = y := by grind
      exact (prefix_cons_inj x).2 (ih ⟨r, rfl⟩ (by grind) (by grind))

end Search
