import Aerobag.LiveFeed.Proofs.BatchProofs
import Aerobag.LiveFeed.Proofs.CatchUpProofs
import Aerobag.LiveFeed.Sample

/-!
# Catching up with the NOTAMs from the durable cache

Once it knows the manifest, a cache asks as a session does: it follows the same chain.
`notam_catch_up_reaches_head` says when both reach the head.
-/

open List Option

namespace Aerobag.LiveFeed

open Command

section CatchUp

variable {env : FeedEnv} {manifest : VersionManifest} {entry : LiveFeedProductState}
  {s s₂ : LiveFeedsState}

/-- The installed states: those of other products, and the NOTAM state of a version if there is one. Its
hash is its version. -/
def installedWith (others : List LiveFeedDurableInstalledProduct) (position : Option String) :
    List LiveFeedDurableInstalledProduct :=
  others ++ position.toList.map fun version => ⟨"notams", version, version⟩

/-- The cache fetches what it asks for; a checkpoint or delta that it installs becomes the installed
version. -/
inductive DurableCatchUp (env : FeedEnv) (manifest : VersionManifest)
    (others : List LiveFeedDurableInstalledProduct) :
    LiveFeedsState → Option String → List LiveFeedCacheRequestKind → LiveFeedsState → Option String →
      Prop
  | done (s : LiveFeedsState) (position : Option String) :
    DurableCatchUp env manifest others s position [] s position
  | version {s s₁ s₂ : LiveFeedsState} {position position' : Option String}
    {requests : List LiveFeedCacheRequest} {request : LiveFeedCacheRequest} {bytes : Bytes}
    {kinds : List LiveFeedCacheRequestKind}
    (hasks : durableMissingRequests s (installedWith others position) = some requests)
    (hmem : request ∈ requests) (hkind : request.kind = .version "notams" manifest.version)
    (hbytes : decodeExact env env.readVersionManifest "live-feed version manifest" bytes
      liveFeedsSchemaVersion = .ok manifest)
    (hingest : (ingestDurableRequestResource env request bytes).run s = .ok () s₁)
    (hrest : DurableCatchUp env manifest others s₁ position kinds s₂ position') :
    DurableCatchUp env manifest others s position (request.kind :: kinds) s₂ position'
  | full {s s₂ : LiveFeedsState} {position position' : Option String}
    {requests : List LiveFeedCacheRequest} {request : LiveFeedCacheRequest} {version : String}
    {payloadKind installProfile : Option String} {kinds : List LiveFeedCacheRequestKind}
    (hasks : durableMissingRequests s (installedWith others position) = some requests)
    (hmem : request ∈ requests)
    (hkind : request.kind = .full "notams" version payloadKind installProfile)
    (hrest : DurableCatchUp env manifest others s (some version) kinds s₂ position') :
    DurableCatchUp env manifest others s position (request.kind :: kinds) s₂ position'
  | delta {s s₂ : LiveFeedsState} {position position' : Option String}
    {requests : List LiveFeedCacheRequest} {request : LiveFeedCacheRequest}
    {fromVersion toVersion : String} {payloadKind : Option String}
    {kinds : List LiveFeedCacheRequestKind}
    (hasks : durableMissingRequests s (installedWith others position) = some requests)
    (hmem : request ∈ requests)
    (hkind : request.kind = .delta "notams" fromVersion toVersion payloadKind)
    (hrest : DurableCatchUp env manifest others s (some toVersion) kinds s₂ position') :
    DurableCatchUp env manifest others s position (request.kind :: kinds) s₂ position'

def fetchKind : Chain.Fetch String → LiveFeedCacheRequestKind
  | .checkpoint version => .full "notams" version (some "notam_checkpoint_xz") none
  | .link link => .delta "notams" link.1 link.2 (some "notam_ordered_delta_xz")

section Durable

variable {os : List LiveFeedDurableInstalledProduct} {pos pos' : Option String}
  {rqs : List LiveFeedCacheRequest} {rq : LiveFeedCacheRequest}
  {kns : List LiveFeedCacheRequestKind} {k : LiveFeedCacheRequestKind}

theorem kinds_of_cacheRequests {id url : String}
    (h : cacheRequests s id url k = some rqs) : rqs.map (·.kind) = [k] := by
  obtain ⟨m, hmd, rfl⟩ := map_eq_some_iff.1 h
  obtain ⟨a, -, rfl⟩ := map_eq_some_iff.1 hmd
  rfl

theorem kind_of_cacheRequests {id url : String}
    (h : cacheRequests s id url k = some rqs) : ∀ r ∈ rqs, r.kind = k := by
  intro r hm
  have hkd : r.kind ∈ rqs.map (·.kind) := List.mem_map_of_mem hm
  rw [kinds_of_cacheRequests h] at hkd
  exact mem_singleton.1 hkd

/-- The requests are for the product, and can be made once there is a source root. -/
structure Asks (s : LiveFeedsState) (product : String) (made : Option (List LiveFeedCacheRequest)) :
    Prop where
  own : ∀ requests ∈ made, ∀ request ∈ requests, request.kind.product = product
  made : s.sourceRootUrl.isSome → made.isSome

namespace Asks

variable {pr version : String} {installed : List LiveFeedDurableInstalledProduct}
  {md : Option (List LiveFeedCacheRequest)}

theorem nothing : Asks s pr (some []) := ⟨by simp, fun _ => rfl⟩

theorem single {id url : String} (h : k.product = pr) : Asks s pr (cacheRequests s id url k) := by
  refine ⟨fun rs hmd r hm => ?_, fun hrt => ?_⟩
  · rw [kind_of_cacheRequests hmd r hm, h]
  · simpa [cacheRequests, cacheRequest, liveFeedUrl] using hrt

theorem frames {α : Type} {f : α → Option (List LiveFeedCacheRequest)} {as : List α}
    (h : Asks s pr md) (hfm : ∀ a, Asks s pr (f a)) : Asks s pr
      (md >>= fun c => as.mapM f >>= fun fs => pure (c ++ fs.flatten)) := by
  refine ⟨fun rs hmd r hm => ?_, fun hrt => ?_⟩
  · obtain ⟨c, hcr, hmd⟩ := bind_eq_some_iff.1 hmd
    obtain ⟨fs, hfr, hmd⟩ := bind_eq_some_iff.1 hmd
    obtain rfl := some.inj hmd
    rcases mem_append.1 hm with hm | hm
    · exact h.own c hcr r hm
    · obtain ⟨fr, hmd, hm⟩ := mem_flatten.1 hm
      obtain ⟨a, -, ha⟩ := Lists.exists_mem_of_forall₂ (Lists.forall₂_of_mapM hfr) hmd
      exact (hfm a).own fr ha r hm
  · obtain ⟨c, rfl⟩ := isSome_iff_exists.1 (h.made hrt)
    have hal : (as.mapM f).isSome := Lists.isSome_mapM fun a _ => (hfm a).made hrt
    obtain ⟨fs, hfr⟩ := isSome_iff_exists.1 hal
    rw [hfr]
    rfl

variable {url : Option String}

theorem ofVersion : Asks s pr (versionRequests s pr version url) := by
  unfold versionRequests
  split
  · exact nothing
  · exact single rfl

theorem ofNexrad {vm : Option VersionManifest} {p e : Option String}
    {fr : Option PayloadRef} : Asks s pr
      (durableNexradRequests s installed pr version vm url fr p e) := by
  unfold durableNexradRequests
  split
  · exact nothing
  · split
    · exact ofVersion
    · split
      · exact nothing
      · exact single rfl

theorem ofProduct {p : String} : Asks s pr (durableProductRequests s installed p pr) := by
  unfold durableProductRequests
  split
  · exact nothing
  · split
    · exact nothing
    · split_ifs
      · exact frames ofNexrad fun _ => ofNexrad
      · exact nothing
      · exact ofVersion
      · unfold durableNotamRequests
        split
        · exact single rfl
        · split
          · exact nothing
          · exact single rfl
      · unfold durableStateRequests
        dsimp only
        split
        · exact single rfl
        · split
          · exact nothing
          · exact single rfl

end Asks

variable {i : List LiveFeedDurableInstalledProduct}

theorem exists_own_requests
    (h : durableMissingRequests s i = some rqs) (hm : rq ∈ rqs) (hpr : rq.kind.product = "notams") :
    ∃ own, durableProductRequests s i "offline_0" "notams" = some own ∧ rq ∈ own := by
  unfold durableMissingRequests durableMissingRequestsWithNexradProfile at h
  split at h
  · obtain ⟨rs, hro, rfl⟩ := map_eq_some_iff.1 h
    obtain ⟨own, ho, hm⟩ := mem_flatten.1 hm
    obtain ⟨p, -, hrn⟩ := Lists.exists_mem_of_forall₂ (Lists.forall₂_of_mapM hro) ho
    obtain rfl : "notams" = p := hpr.symm.trans (Asks.ofProduct.own own hrn rq hm)
    exact ⟨own, hrn, hm⟩
  · obtain rfl := some.inj h
    exact absurd hm (by simp)

theorem installedByProduct_with (hos : ∀ state ∈ os, state.product ≠ "notams") :
    installedByProduct (installedWith os pos) "notams" = pos.map fun v => ⟨"notams", v, v⟩ := by
  unfold installedByProduct installedWith
  cases pos with
  | none => simpa using hos
  | some v => simp

/-- The manifest is known, with the version of the NOTAM state as its hash; the other installed states are
of other products. -/
structure Knows (manifest : VersionManifest) (others : List LiveFeedDurableInstalledProduct)
    (s : LiveFeedsState) (entry : LiveFeedProductState) : Prop where
  retained : Retained manifest
  found : s.products["notams"]? = some entry
  holds : entry.Holds manifest
  expected : ∀ hash ∈ entry.expectedStateSha256, hash = manifest.version
  others : ∀ state ∈ others, state.product ≠ "notams"

variable {own : List LiveFeedCacheRequest}

theorem durable_kinds (hs : Knows manifest os s entry)
    (h : durableProductRequests s (installedWith os pos) "offline_0" "notams" = some own) :
    own.map (·.kind) = (Chain.ask manifest.retained pos).toList.map fetchKind := by
  obtain ⟨hr, he, hh, hep, hos⟩ := hs
  have hkn : entry.versionManifest.isNone = false := by simpa using hh.known
  have hnm : ¬ ("notams" = "nexrad") := by decide
  unfold durableProductRequests at h
  simp only [he, hh.current, installedByProduct_with hos, hkn] at h
  by_cases hcr : pos = some manifest.version
  · have has : Chain.ask manifest.retained pos = none := Chain.ask_eq_none.2 hcr
    have hin : entry.expectedStateSha256.all (fun e => decide (manifest.version = e)) = true := by
      cases hha : entry.expectedStateSha256 with
      | none => rfl
      | some hsh => simp [hep hsh hha]
    simp only [hcr, map_some, any_some,
      LiveFeedProductState.installedProductIsCurrent, hh.current, hin] at h
    obtain rfl := some.inj h
    rw [has]
    rfl
  · have hnt : (Option.map (fun v => (⟨"notams", v, v⟩ :
        LiveFeedDurableInstalledProduct)) pos).any entry.installedProductIsCurrent = false := by
      cases pos with
      | none => rfl
      | some v =>
        have hne : ¬ manifest.version = v := fun heq => hcr (by rw [heq])
        simp [LiveFeedProductState.installedProductIsCurrent, hh.current, hne]
    rw [hnt] at h
    have hne : ¬ pos = some manifest.retained.target := hcr
    unfold durableNotamRequests at h
    rw [installedByProduct_with hos] at h
    unfold Chain.ask
    simp only [hne]
    cases pos with
    | none =>
      simp only [hh.state] at h
      rw [kinds_of_cacheRequests h, hr.stateKind]
      rfl
    | some v =>
      simp only [map_some, bind_some, notamDeltaFrom_eq hr hh] at h
      rw [bind_some, leaving_retained]
      cases hfn : manifest.recentDeltas.find? (·.fromVersion = v) with
      | none =>
        simp only [hfn, hh.state] at h
        rw [kinds_of_cacheRequests h, hr.stateKind]
        rfl
      | some d =>
        simp only [hfn] at h
        rw [kinds_of_cacheRequests h, hr.deltaKinds d (mem_of_find?_eq_some hfn)]
        rfl

/-- Before it knows the manifest, the cache asks for it and for no NOTAM state. -/
theorem durable_manifest_kinds (he : s.products["notams"]? = some entry)
    (hcr : entry.currentVersion = some manifest.version) (hm : entry.versionManifest = none)
    (h : durableProductRequests s i "offline_0" "notams" = some own) :
    ∀ r ∈ own, r.kind = .version "notams" manifest.version := by
  have hnm : ¬ ("notams" = "nexrad") := by decide
  unfold durableProductRequests at h
  simp only [he, hcr, hm, hnm, isNone_none, if_false, if_true] at h
  split at h
  · obtain rfl := some.inj h
    simp
  · unfold versionRequests at h
    split at h
    · obtain rfl := some.inj h
      simp
    · exact kind_of_cacheRequests h

theorem fetchKind_injective : Function.Injective fetchKind := by
  intro f g h
  match f, g with
  | .checkpoint _, .checkpoint _ => simpa [fetchKind] using h
  | .link l, .link m =>
    have heq : l.1 = m.1 ∧ l.2 = m.2 := by simpa [fetchKind] using h
    rw [Prod.ext heq.1 heq.2]

theorem fetch_of_request (hs : Knows manifest os s entry)
    (has : durableMissingRequests s (installedWith os pos) = some rqs)
    (hm : rq ∈ rqs) (hpr : rq.kind.product = "notams") :
    ∃ f, Chain.ask manifest.retained pos = some f ∧ fetchKind f = rq.kind := by
  obtain ⟨own, ho, hm⟩ := exists_own_requests has hm hpr
  have h : rq.kind ∈ own.map (·.kind) := List.mem_map_of_mem hm
  rw [durable_kinds hs ho] at h
  obtain ⟨f, hft, hkd⟩ := List.mem_map.1 h
  exact ⟨f, mem_toList.1 hft, hkd⟩

variable {p : Option String}

theorem follows_of_durableCatchUp (hs : Knows manifest os s entry)
    (h : DurableCatchUp env manifest os s p kns s₂ pos') :
    ∃ fs, Chain.Follows manifest.retained p fs pos' ∧ kns = fs.map fetchKind ∧ s₂ = s := by
  induction h with
  | done s p => exact ⟨[], .nil _, rfl, rfl⟩
  | version has hm hkd =>
    obtain ⟨f, -, heq⟩ := fetch_of_request hs has hm (by rw [hkd]; rfl)
    cases f <;> exact absurd (heq.trans hkd) (by simp [fetchKind])
  | full has hm hkd hr ih =>
    obtain ⟨f, hft, heq⟩ := fetch_of_request hs has hm (by rw [hkd]; rfl)
    obtain ⟨fs, hfl, rfl, rfl⟩ := ih hs
    rw [← heq]
    cases f with
    | link l => exact absurd (heq.trans hkd) (by simp [fetchKind])
    | checkpoint x =>
      have hnm := heq.trans hkd
      obtain ⟨rfl, -⟩ := hnm
      exact ⟨_, .cons hft hfl, rfl, rfl⟩
  | delta has hm hkd hr ih =>
    obtain ⟨f, hft, heq⟩ := fetch_of_request hs has hm (by rw [hkd]; rfl)
    obtain ⟨fs, hfl, rfl, rfl⟩ := ih hs
    rw [← heq]
    cases f with
    | checkpoint x => exact absurd (heq.trans hkd) (by simp [fetchKind])
    | link l =>
      have hnm := heq.trans hkd
      obtain ⟨-, rfl, -⟩ := hnm
      exact ⟨_, .cons hft hfl, rfl, rfl⟩

theorem exists_requests (hrt : s.sourceRootUrl.isSome) (hct : s.catalogLoaded = true)
    (he : s.products["notams"]? = some entry) (ins : List LiveFeedDurableInstalledProduct) :
    ∃ rs own, durableMissingRequests s ins = some rs ∧
      durableProductRequests s ins "offline_0" "notams" = some own ∧ ∀ r ∈ own, r ∈ rs := by
  have hal : ((sortDedup (s.products.toList.map Prod.fst)).mapM
      (durableProductRequests s ins "offline_0")).isSome :=
    Lists.isSome_mapM fun p _ => Asks.ofProduct.made hrt
  obtain ⟨rns, hrn⟩ := isSome_iff_exists.1 hal
  have hls : "notams" ∈ sortDedup (s.products.toList.map Prod.fst) :=
    mem_sortDedup (List.mem_map.2 ⟨("notams", entry),
      Std.ExtTreeMap.mem_toList_iff_getElem?_eq_some.2 he, rfl⟩)
  obtain ⟨i, hix⟩ := mem_iff_getElem?.1 hls
  obtain ⟨own, ho, hro⟩ := Lists.exists_of_forall₂_left (Lists.forall₂_of_mapM hrn) hix
  refine ⟨rns.flatten, own, ?_, hro, fun r hm => ?_⟩
  · rw [durableMissingRequests, durableMissingRequestsWithNexradProfile, if_pos hct, hrn]
    rfl
  · exact mem_flatten.2 ⟨own, mem_of_getElem? ho, hm⟩

theorem exists_durableCatchUp {p' : Option String}
    (hs : Knows manifest os s entry) (hrt : s.sourceRootUrl.isSome)
    (hct : s.catalogLoaded = true) {fs : List (Chain.Fetch String)}
    (h : Chain.Follows manifest.retained p fs p') :
    DurableCatchUp env manifest os s p (fs.map fetchKind) s p' := by
  induction h with
  | nil => exact .done s _
  | @cons p p' f fs has hr ih =>
    obtain ⟨rs, own, hrq, ho, hsb⟩ := exists_requests hrt hct hs.found (installedWith os p)
    have hkn := durable_kinds hs ho
    rw [has] at hkn
    obtain ⟨r, hm, hkd⟩ := List.mem_map.1
      (hkn ▸ mem_singleton_self (fetchKind f) : fetchKind f ∈ own.map (·.kind))
    rw [map_cons, ← hkd]
    cases f with
    | checkpoint v => exact .full hrq (hsb r hm) hkd ih
    | link l => exact .delta hrq (hsb r hm) hkd ih

theorem fetches_of_durableCatchUp {ks : List LiveFeedCacheRequestKind}
    (hs : Awaits manifest s entry)
    (hep : ∀ hsh ∈ entry.expectedStateSha256, hsh = manifest.version)
    (hos : ∀ st ∈ os, st.product ≠ "notams") (h : DurableCatchUp env manifest os s pos ks s₂ pos') :
    (ks = [] ∧ s₂ = s ∧ pos' = pos) ∨ ∃ a fs e', ks = a ++ fs.map fetchKind ∧
      (a = [] ∨ a = [.version "notams" manifest.version]) ∧
      Chain.Follows manifest.retained pos fs pos' ∧ Knows manifest os s₂ e' := by
  have hrt := retained_of_accepted hs.accepted
  rcases hs.manifest with ⟨hmn, hu⟩ | hh
  · cases h with
    | done => exact .inl ⟨rfl, rfl, rfl⟩
    | @version _ s₁ _ _ _ rs r bs ks has hm hkd hb hin hr =>
      unfold ingestDurableRequestResource at hin
      rw [hkd] at hin
      have he := holds_of_ingestResource hs.found hs.current hb hin
      have hkn : Knows manifest os s₁ (entry.withManifest "notams" manifest) :=
        ⟨hrt, he, Holds.withManifest hs.current,
          by simpa [LiveFeedProductState.withManifest] using hep, hos⟩
      obtain ⟨fs, hfl, rfl, rfl⟩ := follows_of_durableCatchUp hkn hr
      exact .inr ⟨[r.kind], fs, _, rfl, .inr (by rw [hkd]), hfl, hkn⟩
    | @full _ _ _ _ _ r _ _ _ _ has hm hkd =>
      obtain ⟨own, ho, hm⟩ := exists_own_requests has hm (by rw [hkd]; rfl)
      have hv := durable_manifest_kinds hs.found hs.current hmn ho r hm
      exact absurd (hv.symm.trans hkd) (by simp)
    | @delta _ _ _ _ _ r _ _ _ _ has hm hkd =>
      obtain ⟨own, ho, hm⟩ := exists_own_requests has hm (by rw [hkd]; rfl)
      have hv := durable_manifest_kinds hs.found hs.current hmn ho r hm
      exact absurd (hv.symm.trans hkd) (by simp)
  · have hkn : Knows manifest os s entry := ⟨hrt, hs.found, hh, hep, hos⟩
    obtain ⟨fs, hfl, rfl, rfl⟩ := follows_of_durableCatchUp hkn h
    exact .inr ⟨[], fs, entry, rfl, .inl rfl, hfl, hkn⟩

def LiveFeedCacheRequestKind.isFull : LiveFeedCacheRequestKind → Bool
  | .full .. => true
  | _ => false

def LiveFeedCacheRequestKind.isDelta : LiveFeedCacheRequestKind → Bool
  | .delta .. => true
  | _ => false

/-- The same of a cache that has installed a version; of its requests those for the NOTAMs are meant. -/
structure CacheCaughtUp (manifest : VersionManifest) (others : List LiveFeedDurableInstalledProduct)
    (kinds : List LiveFeedCacheRequestKind) (s : LiveFeedsState) (position : Option String) :
    Prop where
  distinct : kinds.Nodup
  checkpoints : kinds.countP (·.isFull) ≤ 1
  deltas : kinds.countP (·.isDelta) ≤ manifest.recentDeltas.length
  length : kinds.length ≤ manifest.recentDeltas.length + 2
  finished :
    durableProductRequests s (installedWith others position) "offline_0" "notams" = some [] →
      position = some manifest.version

theorem current_of_no_request (hs : Awaits manifest s entry)
    (hm : entry.versionManifest = none) (hu : entry.versionManifestUrl.isSome)
    (hos : ∀ st ∈ os, st.product ≠ "notams")
    (h : durableProductRequests s (installedWith os pos) "offline_0" "notams" = some []) :
    pos = some manifest.version := by
  have hnm : ¬ ("notams" = "nexrad") := by decide
  obtain ⟨url, hu⟩ := isSome_iff_exists.1 hu
  unfold durableProductRequests at h
  simp only [hs.found, hs.current, hm, hu, hnm, installedByProduct_with hos, if_false] at h
  split at h
  · rename_i hcr
    cases pos with
    | none => exact absurd hcr (by simp)
    | some v =>
      simp only [map_some, any_some, LiveFeedProductState.installedProductIsCurrent,
        hs.current, Bool.and_eq_true, decide_eq_true_eq] at hcr
      exact hcr.1.symm
  · exact absurd (kinds_of_cacheRequests h) (by simp)

theorem cache_of_clear {e : LiveFeedProductState} (hs : Awaits manifest s e)
    (he : ∀ hsh ∈ e.expectedStateSha256, hsh = manifest.version)
    (hos : ∀ st ∈ os, st.product ≠ "notams") (hcl : Chain.Clear manifest.retained p)
    (h : DurableCatchUp env manifest os s p kns s₂ pos') :
    CacheCaughtUp manifest os kns s₂ pos' := by
  have hr := retained_of_accepted hs.accepted
  have hln : manifest.retained.links.length = manifest.recentDeltas.length := by
    simp [VersionManifest.retained]
  have hkn : ∀ {s e} {p : Option String}, Knows manifest os s e →
      durableProductRequests s (installedWith os p) "offline_0" "notams" = some [] →
      p = some manifest.version := by
    intro s e p hks hn
    have hki := durable_kinds hks hn
    rw [map_nil, eq_comm, map_eq_nil_iff, toList_eq_nil_iff] at hki
    exact Chain.ask_eq_none.1 hki
  obtain ⟨start, hjn⟩ := hr.joined
  rcases fetches_of_durableCatchUp hs he hos h with ⟨rfl, rfl, rfl⟩ |
    ⟨asked, fetches, entry', rfl, had, hfo, hks⟩
  · refine ⟨nodup_nil, by simp, by simp, by simp, fun hn => ?_⟩
    rcases hs.manifest with ⟨hm, hu⟩ | hh
    · exact current_of_no_request hs hm hu hos hn
    · exact hkn ⟨hr, hs.found, hh, he, hos⟩ hn
  · have hfl : ∀ f, (fetchKind f).isFull = f.isCheckpoint := fun f => by cases f <;> rfl
    have hd : ∀ f, (fetchKind f).isDelta = !f.isCheckpoint := fun f => by cases f <;> rfl
    obtain ⟨hki, hst, hdl, hl⟩ := hfo.requests hjn hr.checkpoint
      hcl (fun f _ g _ h => fetchKind_injective h) hfl hd (had.imp_right (⟨·, rfl, rfl⟩))
    rw [hln] at hdl hl
    exact ⟨hki, hst, hdl, hl, hkn hks⟩

end Durable

/-- The current version occurs in the retained chain before the point where a follower enters it. -/
def ReturnsToHead (manifest : VersionManifest) (position : Option String) : Prop :=
  manifest.version ∈ (Chain.before manifest.retained.links
    (Chain.entrance manifest.retained position)).map (·.1)

/-- **Catching up with the NOTAMs.** From a version with a clear way a session, and a cache for
which the catalog's hash of the NOTAM state is its version, ask for nothing twice and reach the
current version. Conversely one that knows the manifest and never asks twice has a clear way, if the
chain has not been at the current version before the point where it is entered. -/
theorem notam_catch_up_reaches_head (hs : Awaits manifest s entry) :
    (Chain.Clear manifest.retained entry.loadedVersion →
      ∀ ids s₂, CatchUp env manifest s ids s₂ → SessionCaughtUp manifest ids s₂) ∧
    (∀ others position, (∀ state ∈ others, state.product ≠ "notams") →
      (∀ hash ∈ entry.expectedStateSha256, hash = manifest.version) →
      Chain.Clear manifest.retained position →
      ∀ kinds s₂ position', DurableCatchUp env manifest others s position kinds s₂ position' →
        CacheCaughtUp manifest others kinds s₂ position') ∧
    (entry.Holds manifest → PlainVersions manifest → ¬ ReturnsToHead manifest entry.loadedVersion →
      (∀ ids s₂, CatchUp env manifest s ids s₂ → ids.Nodup) →
      Chain.Clear manifest.retained entry.loadedVersion) ∧
    ∀ others position, (∀ state ∈ others, state.product ≠ "notams") →
      (∀ hash ∈ entry.expectedStateSha256, hash = manifest.version) →
      entry.Holds manifest → s.catalogLoaded = true → s.sourceRootUrl.isSome →
      ¬ ReturnsToHead manifest position →
      (∀ kinds s₂ position', DurableCatchUp env manifest others s position kinds s₂ position' →
        kinds.Nodup) →
      Chain.Clear manifest.retained position := by
  have hr := retained_of_accepted hs.accepted
  obtain ⟨start, hjn⟩ := hr.joined
  refine ⟨fun hcl ids s₂ h => session_of_clear hs hcl h, ?_, ?_, ?_⟩
  · intro others position hos he hcl kinds s₂ position' h
    exact cache_of_clear hs he hos hcl h
  · intro hh hpl hre hnd
    refine Chain.clear_of_nodup hjn hr.checkpoint hre fun fs position' h => ?_
    obtain ⟨s₂, hrn⟩ := exists_catchUp hr hpl h hs.found hh rfl
    exact .of_map _ (hnd _ _ hrn)
  · intro others position hos he hh hct hrt hre hnd
    refine Chain.clear_of_nodup hjn hr.checkpoint hre fun fs position' h => ?_
    exact .of_map _ (hnd _ _ _ (exists_durableCatchUp ⟨hr, hs.found, hh, he, hos⟩ hrt hct h))

end CatchUp

namespace Sample

theorem notamSession_entry (m : VersionManifest) (l : Option String) :
    (notamSession m l).products["notams"]? = some (notamEntry m l) := by
  simp [notamSession]

theorem notamEntry_holds (m : VersionManifest) (l : Option String) : (notamEntry m l).Holds m :=
  ⟨rfl, rfl, rfl, rfl, rfl⟩

theorem awaits_notamSession {manifest : VersionManifest}
    (hac : validateNotamVersionManifest manifest manifest.version = .ok ()) (l : Option String) :
    Awaits manifest (notamSession manifest l) (notamEntry manifest l) where
  accepted := hac
  found := notamSession_entry manifest l
  current := rfl
  manifest := .inr (notamEntry_holds manifest l)

theorem straightManifest_accepted :
    validateNotamVersionManifest straightManifest straightManifest.version = .ok () := by
  decide +kernel

theorem returningManifest_accepted :
    validateNotamVersionManifest returningManifest returningManifest.version = .ok () := by
  decide +kernel

/-- From the checkpoint the follower goes to the next state, back, and to the next state again. -/
theorem follows_returning : Chain.Follows returningManifest.retained (some "a")
    [.link ("a", "b"), .link ("b", "a"), .link ("a", "b")] (some "b") :=
  .cons (by decide +kernel) (.cons (by decide +kernel) (.cons (by decide +kernel) (.nil _)))

/-- Where the state comes back, both the session and the cache ask for the same delta again. -/
theorem returning_state_is_asked_for_twice :
    validateNotamVersionManifest returningManifest returningManifest.version = .ok () ∧
      (∃ s₂, CatchUp env returningManifest (notamSession returningManifest (some "a"))
        ["live_feeds/delta/notams/a/b", "live_feeds/delta/notams/b/a",
          "live_feeds/delta/notams/a/b"] s₂) ∧
      DurableCatchUp env returningManifest [] (notamSession returningManifest (some "a")) (some "a")
        [.delta "notams" "a" "b" (some "notam_ordered_delta_xz"),
          .delta "notams" "b" "a" (some "notam_ordered_delta_xz"),
          .delta "notams" "a" "b" (some "notam_ordered_delta_xz")]
        (notamSession returningManifest (some "a")) (some "b") := by
  have hr := retained_of_accepted returningManifest_accepted
  have hpl : PlainVersions returningManifest := by decide +kernel
  have his : [.link ("a", "b"), .link ("b", "a"), .link ("a", "b")].map fetchId =
      ["live_feeds/delta/notams/a/b", "live_feeds/delta/notams/b/a",
        "live_feeds/delta/notams/a/b"] := by
    decide +kernel
  refine ⟨returningManifest_accepted, ?_, ?_⟩
  · exact exists_catchUp hr hpl follows_returning (notamSession_entry _ _)
      (notamEntry_holds _ _) rfl
  · exact exists_durableCatchUp ⟨hr, notamSession_entry _ _, notamEntry_holds _ _,
      by rintro hash ⟨⟩; rfl, by simp⟩ rfl rfl follows_returning

/-- Two deltas bring a session and a cache from the checkpoint to the head. -/
theorem straight_chain_caught_up :
    (∃ s₂, CatchUp env straightManifest (notamSession straightManifest (some "a"))
        ["live_feeds/delta/notams/a/b", "live_feeds/delta/notams/b/c"] s₂ ∧
      SessionCaughtUp straightManifest
        ["live_feeds/delta/notams/a/b", "live_feeds/delta/notams/b/c"] s₂) ∧
      CacheCaughtUp straightManifest []
        [.delta "notams" "a" "b" (some "notam_ordered_delta_xz"),
          .delta "notams" "b" "c" (some "notam_ordered_delta_xz")]
        (notamSession straightManifest (some "a")) (some "c") ∧
      Chain.Clear straightManifest.retained (some "a") := by
  have hr := retained_of_accepted straightManifest_accepted
  have hfl : Chain.Follows straightManifest.retained (some "a")
      [.link ("a", "b"), .link ("b", "c")] (some "c") :=
    .cons (by decide +kernel) (.cons (by decide +kernel) (.nil _))
  have his : [.link ("a", "b"), .link ("b", "c")].map fetchId =
      ["live_feeds/delta/notams/a/b", "live_feeds/delta/notams/b/c"] := by
    decide +kernel
  have hcl : Chain.Clear straightManifest.retained (some "a") := by decide +kernel
  have he : ∀ hash ∈ (notamEntry straightManifest (some "a")).expectedStateSha256,
      hash = straightManifest.version := by
    rintro hash ⟨⟩
    rfl
  obtain ⟨s₂, hrn⟩ : ∃ s₂, CatchUp env straightManifest (notamSession straightManifest (some "a"))
      ["live_feeds/delta/notams/a/b", "live_feeds/delta/notams/b/c"] s₂ := by
    exact exists_catchUp hr (by decide +kernel) hfl (notamSession_entry _ _)
      (notamEntry_holds _ _) rfl
  have hrs := @notam_catch_up_reaches_head env _ _ _
    (awaits_notamSession straightManifest_accepted (some "a"))
  refine ⟨⟨s₂, hrn, hrs.1 hcl _ _ hrn⟩, ?_, hcl⟩
  exact hrs.2.1 [] (some "a") (by simp) he hcl _ _ _
    (exists_durableCatchUp ⟨hr, notamSession_entry _ _, notamEntry_holds _ _, he,
      by simp⟩ rfl rfl hfl)

end Sample

end Aerobag.LiveFeed
