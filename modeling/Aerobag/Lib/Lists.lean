import Mathlib.Data.List.Forall2

/-!
# Lists of corresponding members

What `List.Forall₂` says of two lists is said of the members at one place. A list that is spliced,
or in which one member is moved, has members of the list it was made of.
-/

open List Option

namespace Lists

variable {α β : Type} {R : α → β → Prop} {as : List α} {bs : List β}

theorem exists_of_forall₂_left (h : List.Forall₂ R as bs) {i : Nat} {a : α} (ha : as[i]? = some a) :
    ∃ b, bs[i]? = some b ∧ R a b := by
  obtain ⟨hlt, rfl⟩ := List.getElem?_eq_some_iff.1 ha
  exact ⟨_, getElem?_eq_getElem (h.length_eq ▸ hlt), h.get hlt (h.length_eq ▸ hlt)⟩

theorem exists_of_forall₂_right (h : List.Forall₂ R as bs) {i : Nat} {b : β}
    (hb : bs[i]? = some b) : ∃ a, as[i]? = some a ∧ R a b := by
  obtain ⟨hlt, rfl⟩ := List.getElem?_eq_some_iff.1 hb
  exact ⟨_, getElem?_eq_getElem (h.length_eq ▸ hlt), h.get (h.length_eq ▸ hlt) hlt⟩

theorem forall₂_trans {γ : Type} {S : β → γ → Prop} {T : α → γ → Prop}
    (h : ∀ a b c, R a b → S b c → T a c) {cs : List γ} (hab : List.Forall₂ R as bs)
    (hbc : List.Forall₂ S bs cs) : List.Forall₂ T as cs := by
  induction hab generalizing cs with
  | nil =>
    cases hbc
    exact .nil
  | cons hr _ ih =>
    cases hbc with
    | cons hs hrs => exact .cons (h _ _ _ hr hs) (ih hrs)

theorem forall₂_of_mapM {f : α → Option β} (h : as.mapM f = some bs) :
    List.Forall₂ (fun a b => f a = some b) as bs := by
  induction as generalizing bs with
  | nil =>
    obtain rfl : [] = bs := by simpa using h
    exact .nil
  | cons a as ih =>
    rw [mapM_cons] at h
    obtain ⟨b, hb, h⟩ := bind_eq_some_iff.1 h
    obtain ⟨r, hr, h⟩ := bind_eq_some_iff.1 h
    obtain rfl := some.inj h
    exact .cons hb (ih hr)

theorem isSome_mapM {f : α → Option β} (h : ∀ a ∈ as, (f a).isSome) : (as.mapM f).isSome := by
  induction as with
  | nil => rfl
  | cons a as ih =>
    obtain ⟨b, hb⟩ := isSome_iff_exists.1 (h a mem_cons_self)
    obtain ⟨bs, hbs⟩ := isSome_iff_exists.1 (ih fun a' ha' => h a' (mem_cons_of_mem _ ha'))
    rw [mapM_cons, hb, hbs]
    rfl

theorem exists_mem_of_forall₂ (h : List.Forall₂ R as bs) {b : β} (hb : b ∈ bs) : ∃ a ∈ as, R a b := by
  obtain ⟨i, hix⟩ := mem_iff_getElem?.1 hb
  obtain ⟨a, ha, hr⟩ := exists_of_forall₂_right h hix
  exact ⟨a, mem_of_getElem? ha, hr⟩

theorem forall₂_replicate {a : α} (h : ∀ b ∈ bs, R a b) :
    List.Forall₂ R (List.replicate bs.length a) bs := by
  induction bs with
  | nil => exact .nil
  | cons b bs ih => exact .cons (h b mem_cons_self) (ih fun b' hb' => h b' (mem_cons_of_mem _ hb'))

theorem take_append_drop_sublist (l : List α) {m n : Nat} (h : m ≤ n) :
    (l.take m ++ l.drop n).Sublist l := by
  have hdr : (l.drop n).Sublist (l.drop m) := drop_sublist_drop_left l h
  simpa using (List.Sublist.refl (l.take m)).append hdr

theorem moved_perm (l : List α) (i tg : Nat) : ((l.eraseIdx i).take tg ++ (l.drop i).take 1 ++
      (l.eraseIdx i).drop tg).Perm l := by
  have hfr : ((l.eraseIdx i).take tg ++ (l.drop i).take 1 ++
      (l.eraseIdx i).drop tg).Perm ((l.drop i).take 1 ++ l.eraseIdx i) := by
    rw [append_assoc]
    refine perm_append_comm_assoc _ _ _ |>.trans ?_
    rw [take_append_drop]
  refine hfr.trans ?_
  rw [eraseIdx_eq_take_drop_succ]
  refine perm_append_comm_assoc _ _ _ |>.trans (.of_eq ?_)
  rw [← drop_drop, take_append_drop, take_append_drop]

theorem moved_self (l : List α) (i : Nat) :
    (l.eraseIdx i).take i ++ (l.drop i).take 1 ++ (l.eraseIdx i).drop i = l := by
  by_cases h : i < l.length
  · have hl : (l.take i).length = i := by simp; omega
    rw [eraseIdx_eq_take_drop_succ, take_left' hl, drop_left' hl,
      append_assoc, ← drop_drop, take_append_drop, take_append_drop]
  · rw [eraseIdx_of_length_le (by omega), drop_of_length_le (by omega),
      take_of_length_le (by omega)]
    simp

theorem ascending_iff {κ : Type} {P : Option κ → List α → Prop} {C : α → Prop} {f : α → κ}
    {r : κ → κ → Prop} (htr : ∀ {i j k}, r i j → r j k → r i k) (hnl : ∀ {p}, P p [])
    (hcn : ∀ {p a as}, P p (a :: as) ↔
      C a ∧ (∀ bf ∈ p, r bf (f a)) ∧ P (some (f a)) as) {p : Option κ} :
    P p as ↔ (∀ a ∈ as, C a) ∧ as.Pairwise (fun a b => r (f a) (f b)) ∧
      ∀ bf ∈ p, ∀ a ∈ as, r bf (f a) := by
  induction as generalizing p with
  | nil => simp [hnl]
  | cons a as ih =>
    simp only [hcn, ih, forall_mem_cons, pairwise_cons, mem_some_iff, forall_eq']
    constructor
    · rintro ⟨ha, hbf, has, hac, haf⟩
      exact ⟨⟨ha, has⟩, ⟨haf, hac⟩, fun bf hm =>
        ⟨hbf bf hm, fun b hb => htr (hbf bf hm) (haf b hb)⟩⟩
    · rintro ⟨⟨ha, has⟩, ⟨haf, hac⟩, hbf⟩
      exact ⟨ha, fun bf hm => (hbf bf hm).1, has, hac, haf⟩

end Lists
