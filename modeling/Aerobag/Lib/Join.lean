import Aerobag.Lib.Search

/-!
# Joins of lists in the order of their keys

`Join.merge` walks two lists side by side. Where the keys of both increase, what it makes under a
key is what its function makes of the elements under that key.
-/

namespace Join

open Search

variable {κ α β γ : Type} [LinearOrder κ] {ka : α → κ} {kb : β → κ} {kc : γ → κ}
  {f : Option α → Option β → Option γ} {as : List α} {bs : List β} {k : κ}

/-- The element with the smaller key comes first; elements with one key are taken together. -/
def merge (keyA : α → κ) (keyB : β → κ) (f : Option α → Option β → Option γ) : List α → List β → List γ
  | [], [] => []
  | a :: as, [] => (f (some a) none).toList ++ merge keyA keyB f as []
  | [], b :: bs => (f none (some b)).toList ++ merge keyA keyB f [] bs
  | a :: as, b :: bs =>
    if keyA a < keyB b then (f (some a) none).toList ++ merge keyA keyB f as (b :: bs)
    else if keyB b < keyA a then (f none (some b)).toList ++ merge keyA keyB f (a :: as) bs
    else (f (some a) (some b)).toList ++ merge keyA keyB f as bs
termination_by as bs => as.length + bs.length

def Ascends (key : α → κ) (xs : List α) : Prop := xs.Pairwise fun x y => key x < key y

/-- A list in the order of its keys is determined by what it has under each key. -/
theorem Ascends.ext {xs ys : List α} (hxs : Ascends ka xs) (hys : Ascends ka ys)
    (h : ∀ k, lookup ka k xs = lookup ka k ys) : xs = ys := by
  refine List.Pairwise.eq_of_mem_iff hxs hys fun x => ?_
  have hif := (lookup_eq_some hxs (x := x)).symm.trans ((h (ka x)) ▸ lookup_eq_some hys)
  simpa using hif

/-- What a function makes of elements has their key. -/
structure Keyed (keyA : α → κ) (keyB : β → κ) (keyC : γ → κ) (f : Option α → Option β → Option γ) :
    Prop where
  neither : f none none = none
  left : ∀ a, ∀ c ∈ f (some a) none, keyC c = keyA a
  right : ∀ b, ∀ c ∈ f none (some b), keyC c = keyB b
  both : ∀ a b, keyA a = keyB b → ∀ c ∈ f (some a) (some b), keyC c = keyA a

variable {cs : List γ} {c : Option γ}

theorem lookup_toList_append {k₀ : κ} (hc : ∀ x ∈ c, kc x = k₀)
    (hcs : lookup kc k₀ cs = none) :
    lookup kc k (c.toList ++ cs) = if k₀ = k then c else lookup kc k cs := by
  cases c with
  | none =>
    split_ifs with hk
    · exact hk ▸ hcs
    · rfl
  | some x => simp [lookup_cons, hc x rfl]

theorem lookup_of_lt {xs : List α} (h : ∀ x ∈ xs, k < ka x) : lookup ka k xs = none :=
  lookup_eq_none.2 fun x hx => (h x hx).ne'

theorem lookup_left {a : α} (hf : Keyed ka kb kc f) (hfr : ∀ x ∈ as, ka a < ka x)
    (hbs : lookup kb (ka a) bs = none)
    (ih : ∀ k, lookup kc k cs = f (lookup ka k as) (lookup kb k bs)) (k : κ) :
    lookup kc k ((f (some a) none).toList ++ cs) = f (lookup ka k (a :: as)) (lookup kb k bs) := by
  rw [lookup_toList_append (hf.left a), ih, lookup_cons]
  · split_ifs with hk
    · rw [← hk, hbs]
    · rfl
  · rw [ih, lookup_of_lt hfr, hbs, hf.neither]

theorem lookup_right {b : β} (hf : Keyed ka kb kc f) (hfr : ∀ x ∈ bs, kb b < kb x)
    (has : lookup ka (kb b) as = none)
    (ih : ∀ k, lookup kc k cs = f (lookup ka k as) (lookup kb k bs)) (k : κ) :
    lookup kc k ((f none (some b)).toList ++ cs) = f (lookup ka k as) (lookup kb k (b :: bs)) := by
  rw [lookup_toList_append (hf.right b), ih, lookup_cons]
  · split_ifs with hk
    · rw [← hk, has]
    · rfl
  · rw [ih, lookup_of_lt hfr, has, hf.neither]

theorem lookup_merge (hf : Keyed ka kb kc f) (has : Ascends ka as) (hbs : Ascends kb bs) (k : κ) :
    lookup kc k (merge ka kb f as bs) = f (lookup ka k as) (lookup kb k bs) := by
  fun_induction merge ka kb f as bs generalizing k with
  | case1 => exact hf.neither.symm
  | case2 a as ih =>
    obtain ⟨hfr, has⟩ := List.pairwise_cons.1 has
    exact lookup_left hf hfr rfl (ih has hbs) k
  | case3 b bs ih =>
    obtain ⟨hfr, hbs⟩ := List.pairwise_cons.1 hbs
    exact lookup_right hf hfr rfl (ih has hbs) k
  | case4 a as b bs hlt ih =>
    have ho : lookup kb (ka a) (b :: bs) = none := lookup_of_lt
      (List.forall_mem_cons.2 ⟨hlt, fun x hx => hlt.trans (List.rel_of_pairwise_cons hbs hx)⟩)
    obtain ⟨hfr, has⟩ := List.pairwise_cons.1 has
    exact lookup_left hf hfr ho (ih has hbs) k
  | case5 a as b bs hge hlt ih =>
    have ho : lookup ka (kb b) (a :: as) = none := lookup_of_lt
      (List.forall_mem_cons.2 ⟨hlt, fun x hx => hlt.trans (List.rel_of_pairwise_cons has hx)⟩)
    obtain ⟨hfr, hbs⟩ := List.pairwise_cons.1 hbs
    exact lookup_right hf hfr ho (ih has hbs) k
  | case6 a as b bs hge hle ih =>
    obtain ⟨hfr, has⟩ := List.pairwise_cons.1 has
    obtain ⟨hfr', hbs⟩ := List.pairwise_cons.1 hbs
    have hk : ka a = kb b := le_antisymm (not_lt.1 hle) (not_lt.1 hge)
    rw [lookup_toList_append (hf.both a b hk), ih has hbs, lookup_cons, lookup_cons, ← hk]
    · split_ifs <;> rfl
    · rw [ih has hbs, lookup_of_lt hfr, hk, lookup_of_lt hfr', hf.neither]

theorem lt_of_mem_merge (hf : Keyed ka kb kc f) (has : ∀ a ∈ as, k < ka a) (hbs : ∀ b ∈ bs, k < kb b) :
    ∀ c ∈ merge ka kb f as bs, k < kc c := by
  obtain ⟨-, hlf, hrg, hbt⟩ := hf
  simp only [Option.mem_def] at hlf hrg hbt
  fun_induction merge ka kb f as bs <;> grind

theorem ascends_toList_append (hc : ∀ x ∈ c, kc x = k)
    (hlt : ∀ x ∈ cs, k < kc x) (hcs : Ascends kc cs) : Ascends kc (c.toList ++ cs) := by
  cases c with
  | none => exact hcs
  | some x => exact List.pairwise_cons.2 ⟨fun y hy => hc x rfl ▸ hlt y hy, hcs⟩

theorem ascends_merge (hf : Keyed ka kb kc f) (has : Ascends ka as) (hbs : Ascends kb bs) :
    Ascends kc (merge ka kb f as bs) := by
  fun_induction merge ka kb f as bs with
  | case1 => exact .nil
  | case2 a as ih =>
    obtain ⟨hfr, has⟩ := List.pairwise_cons.1 has
    exact ascends_toList_append (hf.left a) (lt_of_mem_merge hf hfr (by simp)) (ih has hbs)
  | case3 b bs ih =>
    obtain ⟨hfr, hbs⟩ := List.pairwise_cons.1 hbs
    exact ascends_toList_append (hf.right b) (lt_of_mem_merge hf (by simp) hfr) (ih has hbs)
  | case4 a as b bs hlt ih =>
    obtain ⟨hfr, has⟩ := List.pairwise_cons.1 has
    refine ascends_toList_append (hf.left a) (lt_of_mem_merge hf hfr ?_) (ih has hbs)
    exact List.forall_mem_cons.2 ⟨hlt, fun x hx => hlt.trans (List.rel_of_pairwise_cons hbs hx)⟩
  | case5 a as b bs hge hlt ih =>
    obtain ⟨hfr, hbs⟩ := List.pairwise_cons.1 hbs
    refine ascends_toList_append (hf.right b) (lt_of_mem_merge hf ?_ hfr) (ih has hbs)
    exact List.forall_mem_cons.2 ⟨hlt, fun x hx => hlt.trans (List.rel_of_pairwise_cons has hx)⟩
  | case6 a as b bs hge hle ih =>
    obtain ⟨hfr, has⟩ := List.pairwise_cons.1 has
    obtain ⟨hfr', hbs⟩ := List.pairwise_cons.1 hbs
    have hk : ka a = kb b := le_antisymm (not_lt.1 hle) (not_lt.1 hge)
    exact ascends_toList_append (hf.both a b hk) (lt_of_mem_merge hf hfr (hk ▸ hfr')) (ih has hbs)

end Join
