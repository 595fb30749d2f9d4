import Aerobag.NavKv.Proofs.RoundTripProofs
import Mathlib.Data.Finset.Card

/-!
# A store with some of the pages of a tree

The store finds the value that the reader finds, or reports pages that the reader asks for and it
does not have. A client that loads them and tries again gets the value in the end.
-/

open List Except

namespace Aerobag.NavKv

namespace NavKvStore

def loadPages (store : NavKvStore) (pages : List Bytes) (wanted : List Nat) : NavKvStore :=
  wanted.foldl (fun store page =>
    match pages[page]? with
    | some bytes => store.insertPage page bytes
    | none => store) store

/-- A client that loads the pages reported as missing and tries again, some number of times. -/
def getBytesLoading (pages : List Bytes) (fuel : Nat) (key : String) :
    Nat → NavKvStore → Except String NavKvLookup
  | 0, store => store.getBytes fuel key
  | rounds + 1, store =>
    match store.getBytes fuel key with
    | .ok (.missingPages missing) =>
      getBytesLoading pages fuel key rounds (store.loadPages pages missing)
    | result => result

end NavKvStore

def NavKvLookup.reported : NavKvLookup → List Nat
  | .missingPages pages => pages
  | _ => []

/-- The store has pages of the tree, and no others. -/
structure Loaded {root : NavKvRoot} (t : Tree root) (store : NavKvStore) : Prop where
  root : store.root = root
  page : ∀ {page : Nat} {bytes : Bytes}, store.pages[page]? = some bytes →
    t.pages[page]? = some bytes

namespace Loaded

variable {rt : NavKvRoot} {t : Tree rt} {store : NavKvStore}

theorem new (t : Tree rt) : Loaded t (NavKvStore.new rt) := ⟨rfl, by simp [NavKvStore.new]⟩

theorem insertPage (h : Loaded t store) {p : Nat} {bs : Bytes}
    (hb : t.pages[p]? = some bs) : Loaded t (store.insertPage p bs) := by
  refine ⟨h.root, fun {o f} hfd => ?_⟩
  rw [NavKvStore.insertPage, Std.ExtTreeMap.getElem?_insert] at hfd
  split at hfd
  · rename_i heq
    obtain rfl := Nat.compare_eq_eq.1 heq
    exact hb.trans hfd
  · exact h.page hfd

theorem get? (h : Loaded t store) {p : Nat} {bs : Bytes} (hb : t.pages[p]? = some bs) :
    store.pages[p]? = if p ∈ store.pages then some bs else none := by
  split
  · rename_i hm
    have hfd : store.pages[p]? = some store.pages[p] := Std.ExtTreeMap.getElem?_eq_some_getElem hm
    rw [hfd, ← h.page hfd, hb]
  · rename_i hm
    exact Std.ExtTreeMap.getElem?_eq_none hm

theorem loadPages {s : NavKvStore}
    (h : Loaded t s) (w : List Nat) : Loaded t (s.loadPages t.pages w) ∧ ∀ p,
      p ∈ (s.loadPages t.pages w).pages ↔ p ∈ s.pages ∨ p ∈ w ∧ p < t.pages.length := by
  induction w generalizing s with
  | nil => exact ⟨h, by simp [NavKvStore.loadPages]⟩
  | cons first r ih =>
    rw [NavKvStore.loadPages, foldl_cons]
    cases hf : t.pages[first]? with
    | none =>
      obtain ⟨hld, hm⟩ := ih h
      refine ⟨hld, fun p => (hm p).trans ?_⟩
      grind
    | some bs =>
      obtain ⟨hld, hm⟩ := ih (h.insertPage hf)
      refine ⟨hld, fun p => (hm p).trans ?_⟩
      simp only [NavKvStore.insertPage]
      grind

end Loaded

section Lookup

variable {rt : NavKvRoot} {t : Tree rt} {store : NavKvStore} (h : Loaded t store)

include h

theorem nodePageBytes_eq {p : Nat} {bs : Bytes} (hb : t.nodePages[p]? = some bs)
    (ms : Missing) : store.nodePageBytesOrRecordMissing p ms =
      if p ∈ store.pages then (some bs, ms) else (none, ms.insert p) := by
  have hnd : ¬ store.root.valuePageStart ≤ p := h.root ▸ t.serves.not_value hb
  rw [NavKvStore.nodePageBytesOrRecordMissing, if_neg hnd, h.get? (t.getElem?_nodePage hb)]
  by_cases hm : p ∈ store.pages
  · rw [if_pos hm, if_pos hm]
  · rw [if_neg hm, if_neg hm]

variable {key : Bytes} {lf fu : Nat} {path : List Nat} {ents : List LeafEntry}

/-- The store goes the way down to its end, or to the first page that it does not have. -/
theorem findLeafPageForKeyRef_of_way {p l n : Nat} {pt : List Nat} {es : List LeafEntry}
    (hw : Descends t.nodePages key p pt l es)
    (hfu : pt.length < n) (ms : Missing) : l ∈ store.pages ∧
      store.findLeafPageForKeyRef key n p ms = .ok (some l, ms) ∨ ∃ a ∈ pt ++ [l], a ∉ store.pages ∧
      store.findLeafPageForKeyRef key n p ms = .ok (none, ms.insert a) := by
  induction hw generalizing n with
  | @leaf p bs es nl hb hlf hnx =>
    obtain ⟨n, rfl⟩ := Nat.exists_eq_succ_of_ne_zero (Nat.ne_of_gt hfu)
    rw [NavKvStore.findLeafPageForKeyRef, nodePageBytes_eq h hb]
    by_cases hm : p ∈ store.pages
    · refine .inl ⟨hm, ?_⟩
      simp only [hm, if_true, hlf.kind]
      rfl
    · exact .inr ⟨p, by simp, hm, by simp [hm]⟩
  | @child p l bs g c pt es hb hnd hps hsr hch _ ih =>
    obtain ⟨n, rfl⟩ := Nat.exists_eq_succ_of_ne_zero (Nat.ne_of_gt (Nat.zero_lt_of_lt hfu))
    rw [NavKvStore.findLeafPageForKeyRef, nodePageBytes_eq h hb]
    by_cases hm : p ∈ store.pages
    · have ho : nodeKindInternal ≠ nodeKindLeaf := by decide
      simp only [hm, if_true, hnd.kind, hnd.childRef hps hch]
      rcases ih (Nat.lt_of_succ_lt_succ hfu) with hfd | ⟨a, hat, hnt, hr⟩
      · exact .inl hfd
      · exact .inr ⟨a, mem_cons_of_mem _ hat, hnt, hr⟩
    · exact .inr ⟨p, by simp, hm, by simp [hm]⟩

theorem findLeafEntryRef_of_way (hw : Descends t.nodePages key rt.rootPage path lf ents)
    (hac : KeysAscend ents) (hfu : path.length < fu) (ms : Missing) :
    store.findLeafEntryRef fu key ms = .ok ((entryFor key ents).map (·.value), ms) ∨
    ∃ a ∈ path ++ [lf], a ∉ store.pages ∧
      store.findLeafEntryRef fu key ms = .ok (none, ms.insert a) := by
  obtain ⟨bs, nl, hb, hlf, -⟩ := hw.leafAt
  unfold NavKvStore.findLeafEntryRef
  rw [h.root]
  rcases findLeafPageForKeyRef_of_way h hw hfu ms with ⟨hm, hfd⟩ | ⟨a, hat, hnt, hr⟩
  · left
    simp only [hfd, ok_bind, nodePageBytes_eq h hb, hm, if_true, hlf.valueRef hac]
    rfl
  · right
    refine ⟨a, hat, hnt, ?_⟩
    rw [hr]
    rfl

omit h in
theorem mem_foldl_absent {ins : List Nat} {po : Nat → Nat} {ms : Missing} {p : Nat} :
    p ∈ ins.foldl (fun ms i => if store.pages.contains (po i) then ms else ms.insert (po i)) ms ↔
      p ∈ ms ∨ p ∈ ins.map po ∧ p ∉ store.pages := by
  induction ins generalizing ms with
  | nil => simp
  | cons i r ih =>
    rw [foldl_cons, ih, map_cons]
    by_cases hm : po i ∈ store.pages
    · grind
    · grind

omit h in
theorem map_wrap_eq {off len : Nat} (hso : (LeafEntryValue.external off len).Stored t.valueBytes) :
    (inclusive (off / rt.pageSize) ((off + len - 1) / rt.pageSize)).map
      (fun i => wrap (rt.valuePageStart + i)) = Tree.valuePages rt (.external off len) := by
  refine map_congr_left fun i hix => Nat.mod_eq_of_lt ?_
  have hlt := (List.getElem?_eq_some_iff.1 (t.getElem?_of_stored hso hix)).1
  rw [t.length_pages] at hlt
  exact hlt.trans t.values.valid.pageCount

theorem recordMissing_eq {off len : Nat}
    (hso : (LeafEntryValue.external off len).Stored t.valueBytes) (ms : Missing) :
    ∃ rc, store.recordMissingExternalValuePages off len ms = .ok rc ∧ ∀ pg, pg ∈ rc ↔ pg ∈ ms ∨
        pg ∈ Tree.valuePages rt (.external off len) ∧ pg ∉ store.pages := by
  have hps := map_wrap_eq hso
  obtain ⟨hl, hin⟩ := hso
  have hln := t.values.length
  have hbd := t.values.valid.valueBytesLen
  rw [NavKvStore.recordMissingExternalValuePages, if_neg hl.ne', h.root]
  refine ⟨_, bind_eq_ok.2 ⟨(), rejectIf_eq_ok.2 (by omega), bind_eq_ok.2
    ⟨(), rejectIf_eq_ok.2 (by omega), rfl⟩⟩, fun pg => ?_⟩
  rw [mem_foldl_absent, hps]

omit h in
/-- With all pages there, the loop of the store does what the loop of the reader does. -/
theorem exists_gives_borrowed {p : Nat → Option Bytes} {st s : Nat} {ins : List Nat}
    (hps : ∀ i ∈ ins, ∃ bs, store.pages[wrap (store.root.valuePageStart + i)]? = some bs ∧
      p (wrap (store.root.valuePageStart + i)) = some bs) (m : Missing) :
    (store.readValuePagesBorrowed st s ins m).2 = m ∧
      ∃ rs, Gives (store.root.readValuePages p st s ins)
        (store.readValuePagesBorrowed st s ins m).1 rs := by
  induction ins with
  | nil => exact ⟨rfl, [], .pure []⟩
  | cons i r ih =>
    rw [forall_mem_cons] at hps
    obtain ⟨⟨bs, hst, hpr⟩, hr⟩ := hps
    obtain ⟨hsm, rs, hg⟩ := ih hr
    rw [NavKvStore.readValuePagesBorrowed, NavKvStore.valuePageBytesOrRecordMissing, hst]
    simp only
    split
    · rename_i hbd
      refine ⟨rfl, (Gives.fetch hpr).exists_bind ⟨[], ?_⟩⟩
      rw [if_pos hbd]
      exact .throw
    · rename_i hgd
      generalize store.readValuePagesBorrowed st s r m = result at hsm hg ⊢
      obtain ⟨os, rc⟩ := result
      obtain rfl : rc = m := hsm
      cases os with
      | none =>
        refine ⟨rfl, (Gives.fetch hpr).exists_bind ⟨rs, ?_⟩⟩
        rw [if_neg hgd]
        exact hg.bind_none
      | some os =>
        refine ⟨rfl, (Gives.fetch hpr).exists_bind ⟨rs ++ [], ?_⟩⟩
        rw [if_neg hgd]
        exact hg.bind (.pure _)

theorem readExternalValueBorrowed_eq {off len : Nat}
    (hso : (LeafEntryValue.external off len).Stored t.valueBytes)
    (hps : ∀ pg ∈ Tree.valuePages rt (.external off len), pg ∈ store.pages)
    (ms : Missing) : store.readExternalValueBorrowed off len ms =
      (some (between t.valueBytes off (off + len)), ms) := by
  have hwr := map_wrap_eq hso
  have hg := gives_readExternalValue t.values hso.1 hso.2 fun i hi => t.getElem?_of_stored hso hi
  have hbt : ∀ ix ∈ inclusive (off / rt.pageSize) ((off + len - 1) / rt.pageSize),
      ∃ bs, store.pages[wrap (store.root.valuePageStart + ix)]? = some bs ∧
        t.pages[wrap (store.root.valuePageStart + ix)]? = some bs := by
    intro ix hix
    rw [h.root]
    have hm : wrap (rt.valuePageStart + ix) ∈ Tree.valuePages rt (.external off len) :=
      hwr ▸ List.mem_map_of_mem hix
    have hfd := Std.ExtTreeMap.getElem?_eq_some_getElem (hps _ hm)
    exact ⟨_, hfd, h.page hfd⟩
  obtain ⟨hl, hin⟩ := hso
  have hln := t.values.length
  have hbd := t.values.valid.valueBytesLen
  rw [NavKvRoot.readExternalValue, if_neg hl.ne', if_neg (by omega), if_neg (by omega)] at hg
  rw [NavKvStore.readExternalValueBorrowed, h.root, if_neg hl.ne', if_neg (by omega),
    if_neg (by omega)]
  obtain ⟨hsm, rs, hbr⟩ := exists_gives_borrowed hbt ms
  rw [h.root] at hbr
  exact Prod.ext (hbr.value.symm.trans hg.value) hsm

/-- What a lookup in the store says is what the reader of the whole tree finds and asks for. -/
def Agrees (store : NavKvStore) (reading : Reading Bytes) : NavKvLookup → Prop
  | .hit bytes => reading.value = some bytes
  | .missingKey => reading.value = none
  | .missingPages pages => pages ≠ [] ∧ ∀ page ∈ pages, page ∉ store.pages ∧ page ∈ reading.asked

/-- The store gives what the reader gives, or reports pages that are missing. -/
theorem getBytes_agrees (key : String) (hfu : rt.pageCount ≤ fu) :
    ∃ r, store.getBytes fu key = .ok r ∧ store.missingPagesForKey fu key = .ok r.reported ∧
      Agrees store (rt.extractValue (t.pages[·]?) fu key) r := by
  obtain ⟨pt, l, es, hw, hl, hac, har⟩ := t.exists_way (strBytes key)
  have hl := hl.trans_le hfu
  have hfd : entryFor _ es = entryFor _ t.entries := har.lookup
  have hg := t.gives_extractValue hw hac hfd hl
  unfold NavKvStore.getBytes NavKvStore.missingPagesForKey
  rcases findLeafEntryRef_of_way h hw hac hl ∅ with he | ⟨a, hat, hnt, he⟩
  · rw [hfd] at he
    cases hcs : entryFor (strBytes key) t.entries with
    | none =>
      rw [hcs] at hg he
      refine ⟨.missingKey, ?_, ?_, hg.value⟩
      · rw [he]
        simp
      · rw [he]
        simp [NavKvLookup.reported]
    | some e =>
      have hso := t.stored_of_entryFor hcs
      rw [hcs] at hg he
      obtain ⟨ek, v⟩ := e
      cases v with
      | inline bs =>
        refine ⟨.hit bs, ?_, ?_, hg.value⟩
        · rw [he]
          rfl
        · rw [he]
          simp [NavKvLookup.reported]
      | external off len =>
        obtain ⟨rc, hr, hm⟩ := recordMissing_eq h hso ∅
        rw [he]
        simp only [Option.map_some, ok_bind, hr]
        by_cases hem : rc.isEmpty = true
        · obtain rfl := Std.ExtTreeSet.isEmpty_iff.1 hem
          have hps : ∀ p ∈ Tree.valuePages rt (.external off len), p ∈ store.pages := by
            intro p hpg
            by_contra hat
            exact Std.ExtTreeSet.not_mem_empty ((hm p).2 (.inr ⟨hpg, hat⟩))
          have hrd := readExternalValueBorrowed_eq h hso hps ∅
          refine ⟨.hit (between t.valueBytes off (off + len)), ?_, ?_, hg.value⟩
          · simp [hrd]
          · simp [NavKvLookup.reported]
        · refine ⟨.missingPages rc.toList, ?_, rfl, ?_, fun p hpg => ?_⟩
          · rw [if_pos hem]
            rfl
          · rwa [← isEmpty_eq_false_iff, Std.ExtTreeSet.isEmpty_toList, ← Bool.not_eq_true]
          · rw [Std.ExtTreeSet.mem_toList, hm] at hpg
            have hv := hpg.resolve_left Std.ExtTreeSet.not_mem_empty
            refine ⟨hv.2, ?_⟩
            rw [hg.asked]
            exact mem_append_right _ hv.1
  · have had : a ∈ (rt.extractValue (t.pages[·]?) fu key).asked := by
      rw [hg.asked]
      exact mem_append_left _ (mem_append_left _ hat)
    have hm : ∀ p ∈ ((∅ : Missing).insert a).toList, p = a := by
      intro p hpg
      rw [Std.ExtTreeSet.mem_toList, Std.ExtTreeSet.mem_insert, Nat.compare_eq_eq] at hpg
      exact (hpg.resolve_right Std.ExtTreeSet.not_mem_empty).symm
    have hem : ((∅ : Missing).insert a).isEmpty = false := by simp
    refine ⟨.missingPages ((∅ : Missing).insert a).toList, ?_, ?_, ?_, fun p hpg => ?_⟩
    · rw [he]
      rfl
    · rw [he]
      rfl
    · rwa [← isEmpty_eq_false_iff]
    · exact hm p hpg ▸ ⟨hnt, had⟩

theorem missingPagesForKeysFrom_eq (ks : List String) (ps : Missing) (hfu : rt.pageCount ≤ fu) :
    ∃ all, store.missingPagesForKeysFrom fu ps ks = .ok all ∧ ∀ p, p ∈ all ↔
      p ∈ ps ∨ ∃ key ∈ ks, ∃ res, store.getBytes fu key = .ok res ∧ p ∈ res.reported := by
  induction ks generalizing ps with
  | nil => exact ⟨ps, rfl, by simp⟩
  | cons key r ih =>
    obtain ⟨res, hr, hrp, -⟩ := getBytes_agrees h key hfu
    obtain ⟨all, hal, hm⟩ := ih (ps.insertMany res.reported)
    refine ⟨all, by rw [NavKvStore.missingPagesForKeysFrom, hrp]; exact hal, fun p => ?_⟩
    rw [hm, Std.ExtTreeSet.mem_insertMany_list, contains_iff_mem, or_assoc]
    simp [mem_cons, exists_eq_or_imp, hr, Except.ok.injEq, exists_eq_left']

end Lookup

section Loading

variable {rt : NavKvRoot} {t : Tree rt} {store : NavKvStore}

def absentPages (root : NavKvRoot) (store : NavKvStore) : Finset Nat :=
  (Finset.range root.pageCount).filter (· ∉ store.pages)

theorem absentPages_lt (h : Loaded t store) {key : String} {n : Nat} {ps : List Nat}
    (hag : Agrees store (rt.extractValue (t.pages[·]?) n key) (.missingPages ps)) :
    (absentPages rt (store.loadPages t.pages ps)).card < (absentPages rt store).card := by
  obtain ⟨hne, hps⟩ := hag
  obtain ⟨-, hm⟩ := h.loadPages ps
  obtain ⟨p, r, rfl⟩ := exists_cons_of_ne_nil hne
  obtain ⟨hat, had⟩ := hps p (by simp)
  have hlt := (asks_extractValue t.values.valid (t.pages[·]?) key n).asked p had
  refine Finset.card_lt_card (Finset.ssubset_iff_of_subset ?_ |>.2 ⟨p, ?_, ?_⟩)
  · intro o ho
    rw [absentPages, Finset.mem_filter, hm] at ho
    exact Finset.mem_filter.2 ⟨ho.1, fun hin => ho.2 (.inl hin)⟩
  · exact Finset.mem_filter.2 ⟨Finset.mem_range.2 hlt, hat⟩
  · rw [absentPages, Finset.mem_filter, hm, t.length_pages]
    exact fun hin => hin.2 (.inr ⟨by simp, hlt⟩)

/-- Loading what is reported leads to the value, because each round has fewer absent pages. -/
theorem getBytesLoading_ends {s : NavKvStore} (h : Loaded t s) (key : String) {n rs : Nat}
    (hfu : rt.pageCount ≤ n) (hrn : (absentPages rt s).card ≤ rs) :
    ∃ res, NavKvStore.getBytesLoading t.pages n key rs s = .ok res ∧
      ((∃ bs, res = .hit bs) ∨ res = .missingKey) := by
  induction rs generalizing s with
  | zero =>
    obtain ⟨res, hr, -, hag⟩ := getBytes_agrees h key hfu
    refine ⟨res, hr, ?_⟩
    cases res with
    | hit bs => exact .inl ⟨bs, rfl⟩
    | missingKey => exact .inr rfl
    | missingPages ps =>
      have := absentPages_lt h hag
      omega
  | succ rs ih =>
    obtain ⟨res, hr, -, hag⟩ := getBytes_agrees h key hfu
    rw [NavKvStore.getBytesLoading, hr]
    cases res with
    | hit bs => exact ⟨_, rfl, .inl ⟨bs, rfl⟩⟩
    | missingKey => exact ⟨_, rfl, .inr rfl⟩
    | missingPages ps =>
      have := absentPages_lt h hag
      exact ih (h.loadPages ps).1 (by omega)

end Loading

/-- A store into which some pages of a built tree have been inserted answers what the reader of all
pages finds, and reports what it asks for. -/
theorem store_agrees_with_tree {repair : Bytes → String} {pairs : List NavKvPair} {pageSize : Nat}
    {extra : List NavKvPrefetch} {out : NavKvBuildOutput}
    (h : buildNavKvStrictWithExtraPrefetchKeys repair pairs pageSize extra = .ok out) :
    ∃ root, NavKvRoot.parse out.rootBytes = .ok root ∧
      ∀ (inserted : List Nat) (fuel : Nat), out.pages.length ≤ fuel →
        let store := (NavKvStore.new root).loadPages out.pages inserted
        (∀ key, let reading := root.extractValue (out.pages[·]?) fuel key
          (∀ e, store.getBytes fuel key ≠ .error e) ∧
          (∀ v, store.getBytes fuel key = .ok (.hit v) → reading.value = some v) ∧
          (store.getBytes fuel key = .ok .missingKey → reading.value = none) ∧
          (∀ pages, store.getBytes fuel key = .ok (.missingPages pages) →
            pages ≠ [] ∧ ∀ page ∈ pages, page ∉ inserted ∧ page ∈ reading.asked) ∧
          ∀ rounds, out.pages.length ≤ rounds →
            (∃ v, NavKvStore.getBytesLoading out.pages fuel key rounds store = .ok (.hit v)) ∨
              NavKvStore.getBytesLoading out.pages fuel key rounds store = .ok .missingKey) ∧
        ∀ keys, store.missingPagesForKeys fuel keys = .ok [] ↔
          ∀ key ∈ keys, ∀ pages, store.getBytes fuel key ≠ .ok (.missingPages pages) := by
  obtain ⟨root, hrt, -, t, hps, -⟩ := exists_tree_of_build h
  refine ⟨root, hrt, fun inserted fuel hfu => ?_⟩
  rw [← hps] at hfu ⊢
  rw [t.length_pages] at hfu
  intro store
  obtain ⟨hld, hm⟩ := (Loaded.new t).loadPages inserted
  refine ⟨fun key => ?_, fun keys => ?_⟩
  · obtain ⟨result, hr, -, hag⟩ := getBytes_agrees hld key hfu
    rw [show store.getBytes fuel key = .ok result from hr]
    refine ⟨nofun, ?_, ?_, ?_, fun rounds hrn => ?_⟩
    · rintro v ⟨⟩
      exact hag
    · rintro ⟨⟩
      exact hag
    · rintro ps ⟨⟩
      refine ⟨hag.1, fun page hpg => ⟨fun hin => ?_, (hag.2 page hpg).2⟩⟩
      have hlt := (asks_extractValue t.values.valid (t.pages[·]?) key fuel).asked page
        (hag.2 page hpg).2
      exact (hag.2 page hpg).1 ((hm page).2 (.inr ⟨hin, t.length_pages ▸ hlt⟩))
    · have hcr : (absentPages root store).card ≤ rounds := by
        refine (Finset.card_filter_le _ _).trans ?_
        rwa [Finset.card_range, ← t.length_pages]
      obtain ⟨answer, han, ⟨v, rfl⟩ | rfl⟩ := getBytesLoading_ends hld key hfu hcr
      · exact .inl ⟨v, han⟩
      · exact .inr han
  · obtain ⟨all, hal, hall_mem⟩ := missingPagesForKeysFrom_eq hld keys ∅ hfu
    have hks : store.missingPagesForKeys fuel keys = .ok all.toList := by
      have hfr : store.missingPagesForKeysFrom fuel ∅ keys = .ok all := hal
      rw [NavKvStore.missingPagesForKeys, hfr]
      rfl
    rw [hks, Except.ok.injEq, eq_nil_iff_forall_not_mem]
    simp only [Std.ExtTreeSet.mem_toList, hall_mem, Std.ExtTreeSet.not_mem_empty, false_or]
    constructor
    · intro hn key hk ps hps
      obtain ⟨result, hr, -, hag⟩ := getBytes_agrees hld key hfu
      obtain rfl := Except.ok.inj (hr.symm.trans hps)
      obtain ⟨page, rest, rfl⟩ := exists_cons_of_ne_nil hag.1
      exact hn page ⟨key, hk, _, hr, by simp [NavKvLookup.reported]⟩
    · rintro hn page ⟨key, hk, result, hr, hrp⟩
      cases result with
      | hit bs => cases hrp
      | missingKey => cases hrp
      | missingPages ps => exact hn key hk ps hr

/-- A store with the first page of the sample tree. -/
theorem store_agrees_with_tree_sample : ∃ out root,
    buildNavKvStrictWithExtraPrefetchKeys (fun _ => "") (samplePairs.insertionSort KeyLe) 30 [] =
      .ok out ∧ NavKvRoot.parse out.rootBytes = .ok root ∧
    (∀ v, ((NavKvStore.new root).loadPages out.pages [0]).getBytes out.pages.length "b" =
      .ok (.hit v) → (root.extractValue (out.pages[·]?) out.pages.length "b").value = some v) ∧
    ∀ keys, ((NavKvStore.new root).loadPages out.pages [0]).missingPagesForKeys out.pages.length keys =
      .ok [] ↔ ∀ key ∈ keys, ∀ pages,
        ((NavKvStore.new root).loadPages out.pages [0]).getBytes out.pages.length key ≠
          .ok (.missingPages pages) := by
  have hok : (buildNavKvSorted (fun _ => "") samplePairs 30).toOption.isSome = true := by
    decide +kernel
  obtain ⟨out, ho⟩ := Option.isSome_iff_exists.1 hok
  have hbl := toOption_eq_some.1 ho
  obtain ⟨root, hrt, hst⟩ := store_agrees_with_tree hbl
  obtain ⟨hlk, hks⟩ := hst [0] out.pages.length le_rfl
  exact ⟨out, root, hbl, hrt, (hlk "b").2.1, hks⟩

end Aerobag.NavKv
