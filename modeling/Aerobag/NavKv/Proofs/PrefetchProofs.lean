import Aerobag.NavKv.Proofs.ScanProofs
import Mathlib.Data.Finset.Max

/-!
# Pages for the startup

The builder follows the requests of the startup and lists the pages that they touch. A store with these pages
answers the requests.
-/

open List

namespace Aerobag.NavKv

section Prefetch

variable {root : NavKvRoot} (t : Tree root) {st : NavKvStore} {n : Nat}

def Tree.bare : Tree root.bare :=
  { t with values := ⟨{ t.values.valid with }, t.values.logical, t.values.length⟩ }

theorem Tree.asked_bare (key : String) (hfu : root.pageCount ≤ n) :
    (root.extractValue (t.pages[·]?) n key).asked =
      (root.bare.extractValue (t.pages[·]?) t.pages.length key).asked := by
  obtain ⟨p, l, es, hw, hl, hac, har⟩ := t.exists_way (strBytes key)
  rw [(t.gives_extractValue hw hac har.lookup (hl.trans_le hfu)).asked]
  exact (t.bare.gives_extractValue hw hac har.lookup (t.length_pages ▸ hl)).asked.symm

theorem Tree.asked_getValueRange {key : String} {p : List Nat} {l : Nat} {es : List LeafEntry}
    (hw : Descends t.nodePages (strBytes key) root.rootPage p l es)
    (hac : KeysAscend es) (hl : p.length < n) :
    (root.getValueRange (t.pages[·]?) n key).asked = p ++ [l] ++ [l] := by
  have he := gives_findLeafEntry t.serves hw (fun _ _ => trivial) hac hl
  cases hcs : entryFor (strBytes key) es with
  | none => exact (hcs ▸ he).bind_none.asked
  | some e =>
    rw [hcs] at he
    obtain ⟨ek, v⟩ := e
    rw [← append_nil (_ ++ [l])]
    cases v with
    | inline bs => exact (he.bind (.pure (0, 0))).asked
    | external off len => exact (he.bind (.pure (off, wrap (off + len)))).asked

theorem getBytes_of_asked {t : Tree root} (h : Loaded t st) {key : String}
    (hfu : root.pageCount ≤ n)
    (hps : ∀ p ∈ (root.extractValue (t.pages[·]?) n key).asked, p ∈ st.pages) : st.getBytes n key =
      .ok ((root.extractValue (t.pages[·]?) n key).value.elim .missingKey .hit) := by
  obtain ⟨res, hr, -, hag⟩ := getBytes_agrees h key hfu
  rw [hr]
  cases res with
  | hit bs => rw [show _ = some bs from hag, Option.elim_some]
  | missingKey => rw [show _ = none from hag, Option.elim_none]
  | missingPages ps =>
    obtain ⟨p, r, rfl⟩ := exists_cons_of_ne_nil hag.1
    obtain ⟨hat, had⟩ := hag.2 p mem_cons_self
    exact absurd (hps p had) hat

/-- A key that starts with a prefix stands right after the prefix, or after an entry that starts with it. -/
theorem Tree.exists_neighbour {kp key : Bytes} (h : kp <+: key) :
    ∃ o, (o = kp ∨ ∃ e ∈ t.entries.filter (·.StartsWith kp), e.key = o) ∧
      ∀ e ∈ t.entries, (e.key ≤ key ↔ e.key ≤ o) := by
  by_cases han : ∃ e ∈ t.entries, e.key ≤ key ∧ kp ≤ e.key
  · let b := ((t.entries.map (·.key)).filter (· ≤ key)).toFinset
    have hm {k : Bytes} : k ∈ b ↔ (∃ e ∈ t.entries, e.key = k) ∧ k ≤ key := by simp [b]
    obtain ⟨first, hf, hle, hge⟩ := han
    have hne : b.Nonempty := ⟨first.key, hm.2 ⟨⟨first, hf, rfl⟩, hle⟩⟩
    obtain ⟨⟨l, hl, hk⟩, hls⟩ := hm.1 (b.max'_mem hne)
    have hmx {e : LeafEntry} he hle : e.key ≤ l.key := hk ▸ b.le_max' _ (hm.2 ⟨⟨e, he, rfl⟩, hle⟩)
    rw [← hk] at hls
    refine ⟨l.key, .inr ⟨l, mem_filter.2 ⟨hl, isPrefixOf_iff_prefix.2 ?_⟩, rfl⟩,
      fun e he => ⟨hmx he, fun hle => hle.trans hls⟩⟩
    rcases hls.eq_or_lt with heq | hlt
    · rwa [heq]
    · exact Search.prefix_of_between h (not_lt.2 (hge.trans (hmx hf hle))) hlt
  · refine ⟨kp, .inl rfl, fun e he => ⟨fun hle => ?_, fun hle => hle.trans (not_lt.1 fun hlt => h.le hlt)⟩⟩
    by_contra hgt
    exact han ⟨e, he, hle, (not_le.1 hgt).le⟩

/-- Pages on which the builder scans for a prefix and looks up what it finds: they are enough for every key
that starts with the prefix, and for the scan. -/
theorem Tree.prefix_served {r : Bytes → String} {ps : List NavKvPair}
    (hr : RepresentsAll t.valueBytes ps t.entries) (hne : ∀ g ∈ t.groups, g ≠ [])
    (hin : Internal (t.nodePages.drop t.groups.length)) {kp : String} {s : Nat → Prop}
    (hsc : ∀ p ∈ (root.bare.prefixKeys (t.pages[·]?) r t.pages.length kp).asked, s p)
    (hfn : ∀ key ∈ (root.bare.prefixKeys (t.pages[·]?) r t.pages.length kp).value.getD [],
      ∀ p ∈ (root.bare.extractValue (t.pages[·]?) t.pages.length key).asked, s p)
    (hfu : root.pageCount ≤ n) : (∀ key, strBytes kp <+: strBytes key →
      ∀ p ∈ (root.extractValue (t.pages[·]?) n key).asked, s p) ∧
    ∀ pr, Serves root pr t.nodePages s →
      (root.prefixKeys pr r n kp).value = some ((ps.map (·.key)).filter fun key =>
        (strBytes kp).isPrefixOf (strBytes key)) := by
  obtain ⟨pt, l, es, ls, hw, hl, hlv, hg⟩ := t.exists_scan hne hin (strBytes kp)
  have hbr := hg (fun ls => (ls.flatMap Prod.snd).map (fromUtf8Lossy r ·.key))
    t.bare.serves (fun _ _ => trivial) t.length_pages.ge
  rw [prefixKeys_eq] at hsc hfn
  have hsc := hbr.asked ▸ hsc
  have hfn := hbr.value ▸ hfn
  rw [Option.getD_some, hlv, forall_mem_map] at hfn
  have hk : ∀ e ∈ t.entries, e.key = strBytes (fromUtf8Lossy r e.key) := by
    intro e he
    obtain ⟨pai, -, hpr⟩ := RepresentsAll.exists_pair hr e he
    rw [hpr.key, fromUtf8Lossy_strBytes]
  refine ⟨fun key hp => ?_, fun pr hs => ?_⟩
  · obtain ⟨p', l', es', hw', hl', hac, har⟩ := t.exists_way (strBytes key)
    have hgk := t.gives_extractValue hw' hac har.lookup (hl'.trans_le hfu)
    cases hcs : entryFor (strBytes key) t.entries with
    | some e =>
      obtain ⟨hm, hek⟩ := (Search.lookup_eq_some t.ascend).1 hcs
      have hst : e.StartsWith (strBytes kp) := isPrefixOf_iff_prefix.2 (hek ▸ hp)
      have := hfn e (mem_filter.2 ⟨hm, hst⟩)
      rwa [hek, fromUtf8Lossy_strBytes, ← t.asked_bare key hfu] at this
    | none =>
      -- an absent key takes the way of the prefix or of an entry that is found
      rw [hgk.asked, hcs, Option.elim_none, append_nil]
      have hso : ∃ pt l es, Descends t.nodePages (strBytes key) root.rootPage pt l es ∧
          pt.length < root.pageCount ∧ ∀ p ∈ pt ++ [l], s p := by
        obtain ⟨o, rfl | ⟨e, he, rfl⟩, hsm⟩ := t.exists_neighbour hp
        · exact ⟨pt, l, es, hw _ hsm, hl, (forall_mem_append.1 hsc).1⟩
        · obtain ⟨pt, l, es, hw, hl, hac, har⟩ := t.exists_common_way e.key
          refine ⟨pt, l, es, hw _ hsm, hl, ?_⟩
          have hek := hk e (mem_filter.1 he).1
          have had := hfn e he
          rw [hek] at hw har
          rw [← t.asked_bare _ hfu, (t.gives_extractValue (hw _ fun _ _ => Iff.rfl) hac har.lookup
            (hl.trans_le hfu)).asked, append_assoc, append_assoc, ← append_assoc] at had
          exact (forall_mem_append.1 had).1
      obtain ⟨pt, l, es, hw, hl, hps⟩ := hso
      have hg' := gives_findLeafPageForKey t.serves hw' (fun _ _ => trivial) (hl'.trans_le hfu)
      rw [← (gives_findLeafPageForKey t.serves hw (fun _ _ => trivial) (hl.trans_le hfu)).asked,
        hg'.asked] at hps
      exact forall_mem_append.2 ⟨hps, fun p hpg => hps p (mem_append_right _ hpg)⟩
  · rw [prefixKeys_eq, (hg _ hs hsc hfu).value, hlv, ← map_pairOf r hr, List.map_map, filter_map]
    exact congrArg _ (congrArg _ (filter_congr fun e he => by
      simp [LeafEntry.StartsWith, Tree.pairOf, ← hk e he]))

end Prefetch

/-- **The prefetch pages are enough.** In a tree that has been built with a chart catalog, a store
that has the prefetch pages of the root answers the keys of the startup, all keys that start with
one of its prefixes, the scans for these prefixes and the extra values. -/
theorem startup_prefetch_sufficient {repair : Bytes → String} {pairs : List NavKvPair} {pageSize : Nat}
    {extra : List NavKvPrefetch} {out : NavKvBuildOutput}
    (h : buildNavKvStrictWithExtraPrefetchKeys repair pairs pageSize extra = .ok out)
    (hcat : "chart/catalog" ∈ pairs.map (·.key)) :
    ∃ root, NavKvRoot.parse out.rootBytes = .ok root ∧ root.prefetchPages.Pairwise (· < ·) ∧
      (∀ page ∈ root.prefetchPages, page < root.pageCount) ∧
      ∀ fuel, out.pages.length ≤ fuel →
        let store := (NavKvStore.new root).loadPages out.pages root.prefetchPages
        (∀ key, (key ∈ startupKeys ∨
            (∃ keyPrefix ∈ startupPrefixes, strBytes keyPrefix <+: strBytes key) ∨ .value key ∈ extra) →
          store.getBytes fuel key =
            .ok ((root.extractValue (out.pages[·]?) fuel key).value.elim .missingKey .hit)) ∧
        (∀ keyPrefix ∈ startupPrefixes, store.keysWithPrefixLookup repair fuel keyPrefix =
          .ok (.hit (strBytes ("\n".intercalate ((pairs.map (·.key)).filter fun key =>
            (strBytes keyPrefix).isPrefixOf (strBytes key)))))) ∧
        ∀ key, .lookup key ∈ extra → ∃ result, store.getBytes fuel key = .ok result ∧
          ∀ page ∈ result.reported, root.valuePageStart ≤ page := by
  obtain ⟨root, hrt, hac, t, hps, hr, hne, hint, hpr⟩ := exists_tree_of_build h
  obtain ⟨hsr, hal⟩ := startupPrefetchPages_eq_ok hpr
  rw [← hps] at hal ⊢
  have hin : ∀ page, page ∈ root.prefetchPages ↔
      page ∈ startupAsked repair root.bare t.pages extra := by
    refine hal.resolve_left fun hn => ?_
    obtain ⟨⟨_, v⟩, hm, rfl⟩ := List.mem_map.1 hcat
    obtain ⟨path, leaf, entries, hw, hl, hac, har⟩ := t.exists_way (strBytes "chart/catalog")
    have hg := t.bare.gives_extractValue hw hac har.lookup (t.length_pages ▸ hl)
    exact absurd (hn.1.symm.trans (hg.value.trans ((value_iff_mem hr).2 hm))) (by simp)
  obtain ⟨hld, hm⟩ := (Loaded.new t).loadPages root.prefetchPages
  have hlt : ∀ page ∈ root.prefetchPages, page < root.pageCount := fun page hpg =>
    startupAsked_lt t.bare.values.valid page ((hin page).1 hpg)
  refine ⟨root, hrt, hsr, hlt, fun fuel hfu => ?_⟩
  rw [t.length_pages] at hfu
  intro store
  have hst : ∀ page ∈ startupAsked repair root.bare t.pages extra,
      page ∈ store.pages := fun page hpg =>
    (hm page).2 (.inr ⟨(hin page).2 hpg, t.length_pages ▸ hlt page ((hin page).2 hpg)⟩)
  simp only [startupAsked, forall_mem_append, forall_mem_flatMap] at hst
  obtain ⟨⟨hks, hsc⟩, her⟩ := hst
  have hserved {kp : String} hp := t.prefix_served hr hne hint (hsc kp hp).1 (hsc kp hp).2 hfu
  refine ⟨fun key hk => getBytes_of_asked hld hfu ?_, fun kp hp => ?_, fun key hlk => ?_⟩
  · rcases hk with hk | ⟨kp, hp, hpr⟩ | hv
    · exact t.asked_bare key hfu ▸ hks key hk
    · exact (hserved hp).1 key hpr
    · exact t.asked_bare key hfu ▸ her (.value key) hv
  · have hs : Serves root (store.pages[·]?) t.nodePages (· ∈ store.pages) :=
      ⟨t.nodeCount, fun hpg hb => by rw [hld.get? (t.getElem?_nodePage hb), if_pos hpg]⟩
    rw [NavKvStore.keysWithPrefixLookup, show store.root = root from hld.root]
    simp [(hserved hp).2 _ hs]
  · obtain ⟨res, hrs, -, hag⟩ := getBytes_agrees hld key hfu
    refine ⟨res, hrs, ?_⟩
    cases res with
    | hit bs => exact forall_mem_nil _
    | missingKey => exact forall_mem_nil _
    | missingPages ps =>
      intro page hpg
      obtain ⟨hat, had⟩ := hag.2 page hpg
      obtain ⟨path, leaf, entries, hw, hl, hac, har⟩ := t.exists_way (strBytes key)
      have hno : (root.bare.getValueRange (t.pages[·]?) t.pages.length key).asked =
          path ++ [leaf] ++ [leaf] := t.bare.asked_getValueRange hw hac (t.length_pages ▸ hl)
      rw [(t.gives_extractValue hw hac har.lookup (hl.trans_le hfu)).asked, mem_append] at had
      rw [← hno] at had
      have hv := had.resolve_left fun hnd => hat (her (.lookup key) hlk page hnd)
      obtain hn | ⟨⟨_, _ | _⟩, hsm⟩ := (entryFor (strBytes key) t.entries).eq_none_or_eq_some
      · simp [hn] at hv
      · simp [hsm, Tree.valuePages] at hv
      · rw [hsm] at hv
        obtain ⟨i, -, rfl⟩ := List.mem_map.1 hv
        exact Nat.le_add_right ..

/-- With the prefetched pages the catalog is read, and for the package only its value is missing. -/
theorem startup_prefetch_sufficient_sample :
    let pairs : List NavKvPair := [⟨"chart/catalog", [1]⟩, ⟨"package/by-id/a", List.replicate 70 2⟩]
    ∃ out root, buildNavKvStrictWithExtraPrefetchKeys (fun _ => "") pairs 128
        [.lookup "package/by-id/a"] = .ok out ∧ NavKvRoot.parse out.rootBytes = .ok root ∧
      let store := (NavKvStore.new root).loadPages out.pages root.prefetchPages
      let fuel := out.pages.length
      root.prefetchPages.Pairwise (· < ·) ∧ store.getBytes fuel "chart/catalog" = .ok
        ((root.extractValue (out.pages[·]?) fuel "chart/catalog").value.elim .missingKey .hit) ∧
      ∃ result, store.getBytes fuel "package/by-id/a" = .ok result ∧
        ∀ page ∈ result.reported, root.valuePageStart ≤ page := by
  intro pairs
  have hok : (buildNavKvStrictWithExtraPrefetchKeys (fun _ => "") pairs 128
      [.lookup "package/by-id/a"]).toOption.isSome = true := by
    decide +kernel
  obtain ⟨out, ho⟩ := Option.isSome_iff_exists.1 hok
  have hbl := Except.toOption_eq_some.1 ho
  obtain ⟨root, hrt, hsr, -, hst⟩ := startup_prefetch_sufficient hbl (by simp [pairs])
  obtain ⟨hks, -, hlk⟩ := hst _ le_rfl
  exact ⟨out, root, hbl, hrt, hsr, hks _ (.inl (by decide)), hlk _ (by simp)⟩

end Aerobag.NavKv
