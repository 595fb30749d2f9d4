import Aerobag.LiveFeed.Proofs.BatchProofs
import Aerobag.LiveFeed.Sample

/-!
# The state that is served has the hash that is advertised

An entry writes the current version, its hash, the loaded version and the state at different times.
They fit together (`Bound`) as long as one version of a product stands for one hash (`Agrees`).
-/

open List Option Except

namespace Aerobag.LiveFeed

open Command

/-- The products whose states are JSON documents that are hashed as a whole. -/
def servesJson (product : String) : Bool :=
  cachePolicy product ≠ some .navKv ∧ cachePolicy product ≠ some .nexradPackage

section Binding

variable {env : FeedEnv} {hashOf : String → String → String}
  {product version resourceId rest : String} {en : LiveFeedProductState} {s : LiveFeedsState}
  {rg : ProductRegistration} {bytes : Bytes} {el : PreparedLiveFeedEnvelope}

section Agreement

variable (env : FeedEnv) (hashOf : String → String → String)

def ProductRegistration.Agrees (registration : ProductRegistration) : Prop :=
  servesJson registration.product = true →
    registration.stateSha256 = hashOf registration.product registration.version

def Catalog.Agrees (catalog : Catalog) : Prop :=
  ∀ listed ∈ catalog.products.toList,
    (productRegistrationFromCatalog listed.1 listed.2).Agrees hashOf

def ParsedLiveFeedSseEvent.Agrees : ParsedLiveFeedSseEvent → Prop
  | .catalog listed => Catalog.Agrees hashOf listed
  | .product payload => (productRegistrationFromEvent payload).Agrees hashOf

/-- The manifest of a JSON product advertises the hash of its version, and for the version that its
delta leads to the hash of that version. The state in a NOTAM manifest is the checkpoint. -/
structure VersionManifest.Agrees (manifest : VersionManifest) : Prop where
  kind : manifest.state.kind ≠ some "nav_kv"
  state : manifest.product ≠ "notams" →
    manifest.state.stateSha256 = hashOf manifest.product manifest.version
  delta : supportsRecordDelta manifest.product = true → ∀ delta ∈ manifest.deltaFromPrevious,
    delta.toStateSha256 = hashOf manifest.product delta.toVersion

/-- A durable state has the hash of its version, the cache has compared the tree with it, and without
a tree it does not replace a version whose tree is kept. -/
def DurableAgrees (s : LiveFeedsState) (product version stateSha256 : String)
    (stateManifest : Option Json.Value) : Prop :=
  stateSha256 = hashOf product version ∧
    match stateManifest with
    | some tree => canonicalJsonSha256 env tree = stateSha256
    | none => ∀ entry ∈ s.products[product]?,
        entry.stateManifest.isNone ∨ entry.loadedVersion = some version

/-- Whatever an operation brings fits to one hash for each version. -/
def Agrees (s : LiveFeedsState) : Operation → Prop
  | .catalog bytes => ∀ catalog, decodeExact env env.readCatalog "live-feed catalog" bytes
      liveFeedsSchemaVersion = .ok catalog → Catalog.Agrees hashOf catalog
  | .events events => ∀ event ∈ events, ∀ parsed, parseLiveFeedSseEvent env event = .ok (some parsed) →
      parsed.Agrees hashOf
  | .resource _ bytes => ∀ manifest, decodeExact env env.readVersionManifest
      "live-feed version manifest" bytes liveFeedsSchemaVersion = .ok manifest →
      servesJson manifest.product = true → manifest.Agrees hashOf
  | .prepared _ _ => True
  | .durable product version stateSha256 _ stateManifest => servesJson product = true →
      DurableAgrees env hashOf s product version stateSha256 stateManifest
  | .noState _ => True

end Agreement

/-- What an entry holds has the hash that its version stands for. -/
structure Bound (env : FeedEnv) (hashOf : String → String → String) (product : String)
    (entry : LiveFeedProductState) : Prop where
  expected : ∀ version, entry.currentVersion = some version →
    entry.expectedStateSha256 = some (hashOf product version)
  fresh : entry.currentVersion = none → entry.expectedStateSha256 = none
  kind : entry.stateKind ≠ some "nav_kv"
  delta : supportsRecordDelta product = true → ∀ delta ∈ entry.deltaFromPrevious,
    delta.toStateSha256 = hashOf product delta.toVersion
  tree : ∀ tree, entry.stateManifest = some tree →
    ∃ version, entry.loadedVersion = some version ∧
      canonicalJsonSha256 env tree = hashOf product version

def AllBound (env : FeedEnv) (hashOf : String → String → String)
    (products : Std.ExtTreeMap String LiveFeedProductState) : Prop :=
  ∀ product entry, servesJson product = true → products[product]? = some entry →
    Bound env hashOf product entry

theorem Bound.empty : Bound env hashOf product .empty where
  expected := nofun
  fresh _ := rfl
  kind := nofun
  delta _ := by simp [LiveFeedProductState.empty]
  tree := nofun

theorem Bound.register (h : Bound env hashOf product en)
    (hpr : rg.product = product) (hjs : servesJson product = true) (hag : rg.Agrees hashOf) :
    Bound env hashOf product (en.register rg) := by
  subst hpr
  have hha : rg.stateSha256 = hashOf rg.product rg.version := hag hjs
  have he : ∀ v, some rg.version = some v → some rg.stateSha256 = some (hashOf rg.product v) := by
    rintro v hv
    obtain rfl := some.inj hv
    rw [hha]
  unfold LiveFeedProductState.register
  split
  · exact ⟨he, nofun, h.kind, h.delta, h.tree⟩
  · exact ⟨he, nofun, nofun, fun _ => by simp, h.tree⟩

theorem Bound.withManifest (h : Bound env hashOf product en) {man : VersionManifest}
    (hpr : man.product = product) (hcr : en.currentVersion = some man.version)
    (hag : man.Agrees hashOf) : Bound env hashOf product (en.withManifest product man) := by
  subst hpr
  refine ⟨fun v hv => ?_, fun hn => ?_, hag.kind, hag.delta, h.tree⟩
  rotate_left
  · exact absurd (hcr.symm.trans hn) (by simp)
  have hcr' : en.currentVersion = some v := hv
  change (if man.product ≠ "notams" then some man.state.stateSha256 else en.expectedStateSha256) = _
  split
  · rename_i hnt
    obtain rfl : man.version = v := some.inj (hcr.symm.trans hcr')
    rw [hag.state hnt]
  · exact h.expected v hcr'

theorem Bound.updateHistory (h : Bound env hashOf product en) (v : String)
    (u : LiveFeedProductHistoryState → LiveFeedProductHistoryState) :
    Bound env hashOf product (en.updateHistory v u) :=
  ⟨h.expected, h.fresh, h.kind, h.delta, h.tree⟩

theorem Bound.load (h : Bound env hashOf product en) {tree : Json.Value}
    (htr : canonicalJsonSha256 env tree = hashOf product version) (csm : Option Json.Value) :
    Bound env hashOf product
      { en with catalogStateManifest := csm, stateManifest := some tree, loadedVersion := some version } where
  expected := h.expected
  fresh := h.fresh
  kind := h.kind
  delta := h.delta
  tree _ heq := ⟨version, rfl, some.inj heq ▸ htr⟩

theorem Bound.unload (h : Bound env hashOf product en) (lv : Option String) :
    Bound env hashOf product { en with stateManifest := none, loadedVersion := lv } :=
  ⟨h.expected, h.fresh, h.kind, h.delta, nofun⟩

variable {sm : Option Json.Value} {ss : String}

theorem Bound.loadDurable (h : Bound env hashOf product en)
    (cl : Bool) (cau : Option String) (hha : ss = hashOf product version)
    (htr : ∀ t, sm = some t → canonicalJsonSha256 env t = ss)
    (hkp : sm = none → en.stateManifest = none ∨ en.loadedVersion = some version) :
    Bound env hashOf product (en.loadDurable cl version ss cau sm) := by
  subst hha
  have hcr : ∀ c, some (en.currentVersion.getD version) = some c →
      some (en.expectedStateSha256.getD (hashOf product version)) = some (hashOf product c) := by
    intro c heq
    obtain rfl := some.inj heq
    cases hkn : en.currentVersion with
    | none => rw [h.fresh hkn]; rfl
    | some k => rw [h.expected k hkn]; rfl
  unfold LiveFeedProductState.loadDurable
  dsimp only
  split
  · rename_i hr
    refine ⟨fun c heq => ?_, nofun, h.kind, h.delta, h.tree⟩
    cases hkn : en.currentVersion with
    | none =>
      -- the version itself became the current one, and no other hash was expected
      simp [hkn, h.fresh hkn] at hr
    | some k =>
      rw [hkn] at heq
      exact some.inj heq ▸ h.expected k hkn
  · refine ⟨hcr, nofun, h.kind, h.delta, fun t heq => ⟨version, rfl, ?_⟩⟩
    cases sm with
    | some g =>
      obtain rfl : g = t := some.inj heq
      exact htr g rfl
    | none =>
      obtain ⟨l, hld, hha⟩ := h.tree t heq
      rcases hkp rfl with hn | hsm
      · exact absurd (heq.symm.trans hn) (by simp)
      · obtain rfl : l = version := some.inj (hld.symm.trans hsm)
        exact hha

/-- The catalog's part comes from a bound entry, the state stays. Radar frames are no JSON product. -/
theorem Bound.mergeFrom {src : LiveFeedProductState} (h : Bound env hashOf product en)
    (hsr : Bound env hashOf product src) (hjs : servesJson product = true) :
    Bound env hashOf product (en.mergeFrom product src) := by
  have hnx : product ≠ "nexrad" := by
    rintro rfl
    exact absurd hjs (by decide)
  unfold LiveFeedProductState.mergeFrom
  simp only [hnx]
  exact ⟨hsr.expected, hsr.fresh, hsr.kind, hsr.delta, h.tree⟩

variable {prs : Std.ExtTreeMap String LiveFeedProductState}

theorem AllBound.empty : AllBound env hashOf ∅ := by
  intro p e _ he
  simp at he

theorem AllBound.getD (h : AllBound env hashOf prs) (hjs : servesJson product = true) :
    Bound env hashOf product (prs[product]?.getD .empty) := by
  cases he : prs[product]? with
  | none => exact .empty
  | some e => exact h product e hjs he

theorem AllBound.insert (h : AllBound env hashOf prs)
    (he : servesJson product = true → Bound env hashOf product en) :
    AllBound env hashOf (prs.insert product en) := by
  intro o found hjs hfd
  rw [Std.ExtTreeMap.getElem?_insert] at hfd
  split at hfd
  · rename_i heq
    obtain rfl := Std.LawfulEqCmp.eq_of_compare heq
    exact some.inj hfd ▸ he hjs
  · exact h o found hjs hfd

theorem AllBound.filter (h : AllBound env hashOf prs)
    (ks : String → LiveFeedProductState → Bool) : AllBound env hashOf (prs.filter ks) := by
  intro p e hjs he
  rw [Std.ExtTreeMap.getElem?_filter'] at he
  exact h p e hjs (eq_some_of_filter_eq_some he)

theorem AllBound.mergeEntries {ps : Std.ExtTreeMap String LiveFeedProductState}
    {l : List (String × LiveFeedProductState)}
    (h : AllBound env hashOf ps) (hls : ∀ p ∈ l, servesJson p.1 = true → Bound env hashOf p.1 p.2) :
    AllBound env hashOf (mergeEntries ps l) := by
  induction l generalizing ps with
  | nil => exact h
  | cons p r ih =>
    refine ih (h.insert fun hjs => ?_) fun p hpr => hls p (mem_cons_of_mem _ hpr)
    exact (h.getD hjs).mergeFrom (hls p mem_cons_self hjs) hjs

/-- The command leaves bound entries bound, whether it fails or not. -/
def Keeps (env : FeedEnv) (hashOf : String → String → String) {α : Type} (x : FeedM α)
    (s : LiveFeedsState) : Prop :=
  AllBound env hashOf s.products → Ends x s fun _ s' => AllBound env hashOf s'.products

section Rules

variable {α β : Type} {x : FeedM α} {f : α → FeedM β}

theorem keeps_pure {a : α} : Keeps env hashOf (pure a : FeedM α) s := id

theorem keeps_throw {e : String} : Keeps env hashOf (throw e : FeedM α) s := id

theorem Keeps.bind (hx : Keeps env hashOf x s) (hf : ∀ a s', Keeps env hashOf (f a) s') :
    Keeps env hashOf (x >>= f) s :=
  fun h => .bind (hx h) hf fun _ _ h' => h'

theorem keeps_attempt_bind {r : Except String α} (hf : ∀ a, r = .ok a → Keeps env hashOf (f a) s) :
    Keeps env hashOf (attempt r >>= f) s :=
  fun h => ends_attempt_bind.2 ⟨fun a ha => hf a ha h, fun _ _ => h⟩

theorem keeps_get_bind {f : LiveFeedsState → FeedM β} (hf : Keeps env hashOf (f s) s) :
    Keeps env hashOf (get >>= f) s := hf

theorem keeps_entryOrDefault_bind {f : LiveFeedProductState → FeedM β}
    (hf : ∀ e s', (servesJson product = true → Bound env hashOf product e) →
      Keeps env hashOf (f e) s') : Keeps env hashOf (entryOrDefault product >>= f) s :=
  fun h => hf _ _ h.getD (h.insert h.getD)

theorem keeps_setEntry (he : servesJson product = true → Bound env hashOf product en) :
    Keeps env hashOf (setEntry product en) s :=
  fun h => h.insert he

theorem keeps_clearResourceFailure {rid : String} :
    Keeps env hashOf (clearResourceFailure rid) s := id

theorem keeps_forM {f : α → FeedM PUnit} {xs : List α}
    (hf : ∀ a ∈ xs, ∀ s, Keeps env hashOf (f a) s) : Keeps env hashOf (xs.forM f) s := by
  induction xs generalizing s with
  | nil => exact keeps_pure
  | cons a as ih =>
    exact (hf a mem_cons_self s).bind fun _ _ => ih fun b hb => hf b (mem_cons_of_mem _ hb)

end Rules

theorem keeps_registerValidatedProduct (hag : rg.Agrees hashOf) :
    Keeps env hashOf (registerValidatedProduct rg) s :=
  keeps_entryOrDefault_bind fun _ _ he => keeps_setEntry fun hjs => (he hjs).register rfl hjs hag

variable {rs : List ProductRegistration}

theorem keeps_installValidatedCatalog
    (hag : ∀ r ∈ rs, r.Agrees hashOf) : Keeps env hashOf (installValidatedCatalog rs) s := by
  refine keeps_get_bind fun h => ends_modify_bind.2 ?_
  have hrg : Keeps env hashOf (rs.forM registerValidatedProduct) { s with
        catalogLoaded := true
        products := s.products.filter fun p _ => p ∈ rs.map (·.product) } :=
    keeps_forM fun r hm _ => keeps_registerValidatedProduct (hag r hm)
  exact (hrg.bind fun _ _ => keeps_pure) (h.filter _)

theorem agrees_of_validatedCatalogRegistrations {cat : Catalog}
    (hag : Catalog.Agrees hashOf cat)
    (h : validatedCatalogRegistrations cat = .ok rs) : ∀ r ∈ rs, r.Agrees hashOf := by
  obtain ⟨rfl, -⟩ := mapM_validate_iff.1 h
  exact List.forall_mem_map.2 hag

theorem keeps_ingestCatalogBytes (hag : Agrees env hashOf s (.catalog bytes)) :
    Keeps env hashOf (ingestCatalogBytes env bytes) s :=
  keeps_attempt_bind fun _ hct => keeps_attempt_bind fun _ hrg =>
    keeps_installValidatedCatalog (agrees_of_validatedCatalogRegistrations (hag _ hct) hrg)

variable {es : List LiveFeedSseEvent}

theorem collectSseEvents_agrees {cat cat' : Option Catalog}
    {l l' : Std.ExtTreeMap String CurrentEvent}
    (hag : ∀ ev ∈ es, ∀ p, parseLiveFeedSseEvent env ev = .ok (some p) →
      p.Agrees hashOf) (hct : ∀ k ∈ cat, Catalog.Agrees hashOf k)
    (hla : ∀ pr ∈ l.toList, (productRegistrationFromEvent pr.2).Agrees hashOf)
    (h : collectSseEvents env es cat l = .ok (cat', l')) : (∀ k ∈ cat', Catalog.Agrees hashOf k) ∧
      ∀ pr ∈ l'.toList, (productRegistrationFromEvent pr.2).Agrees hashOf := by
  induction es generalizing cat l with
  | nil =>
    obtain ⟨rfl, rfl⟩ : cat = cat' ∧ l = l' := by simpa [collectSseEvents] using h
    exact ⟨hct, hla⟩
  | cons ev es ih =>
    obtain ⟨p, hpa, h⟩ := bind_eq_ok.1 h
    have hr : ∀ ev ∈ es, ∀ p, parseLiveFeedSseEvent env ev = .ok (some p) →
        p.Agrees hashOf := fun ev hev => hag ev (mem_cons_of_mem _ hev)
    rcases p with _ | newer | payload
    · exact ih hr hct hla h
    · have hnw : Catalog.Agrees hashOf newer := hag ev mem_cons_self _ hpa
      refine ih hr ?_ ?_ h
      · rintro k ⟨⟩
        exact hnw
      · simp
    · have hpy : (productRegistrationFromEvent payload).Agrees hashOf := hag ev mem_cons_self _ hpa
      refine ih hr hct ?_ h
      rintro ⟨pro, o⟩ hpr
      rw [Std.ExtTreeMap.mem_toList_iff_getElem?_eq_some, Std.ExtTreeMap.getElem?_insert] at hpr
      split at hpr
      · obtain rfl := some.inj hpr
        exact hpy
      · exact hla (pro, o) (Std.ExtTreeMap.mem_toList_iff_getElem?_eq_some.2 hpr)

theorem keeps_ingestSseEvents
    (hag : Agrees env hashOf s (.events es)) : Keeps env hashOf (ingestSseEvents env es) s := by
  refine keeps_attempt_bind fun c hcl => ?_
  obtain ⟨cat, la⟩ := c
  obtain ⟨hct, hla⟩ := collectSseEvents_agrees hag (by simp) (by simp) hcl
  refine keeps_attempt_bind fun _ hrg => keeps_attempt_bind fun _ hps => ?_
  obtain ⟨rfl, -⟩ := mapM_catalog_iff.1 hrg
  obtain ⟨rfl, -⟩ := mapM_validate_iff.1 hps
  refine .bind ?_ fun a s' => ?_
  · match cat with
    | none => exact keeps_pure
    | some l => exact keeps_installValidatedCatalog (List.forall_mem_map.2 (hct l rfl))
  · refine .bind (keeps_forM fun r hm _ => ?_) fun _ _ => keeps_pure
    exact keeps_registerValidatedProduct (List.forall_mem_map.2 hla r hm)

theorem eq_of_checkVersionManifest {m : VersionManifest}
    (h : checkVersionManifest resourceId product version m = .ok ()) :
    m.product = product ∧ m.version = version := by
  simp only [checkVersionManifest, bind_eq_ok, rejectIf_eq_ok] at h
  obtain ⟨-, hnm, -⟩ := h
  simpa using hnm

theorem keeps_ingestVersionResource (hag : Agrees env hashOf s (.resource resourceId bytes)) :
    Keeps env hashOf (ingestVersionResource env resourceId rest bytes) s := by
  refine keeps_attempt_bind fun n _ => ?_
  obtain ⟨p, v⟩ := n
  refine keeps_attempt_bind fun man hm => ?_
  refine keeps_attempt_bind fun _ hch => ?_
  obtain ⟨rfl, rfl⟩ := eq_of_checkVersionManifest hch
  refine keeps_get_bind (keeps_attempt_bind fun _ _ => ?_)
  refine keeps_entryOrDefault_bind fun e s' he => ?_
  refine .bind (keeps_setEntry fun hjs => ?_) fun _ _ => keeps_clearResourceFailure
  split
  · rename_i hcr
    exact (he hjs).withManifest rfl hcr (hag man hm hjs)
  · exact (he hjs).updateHistory _ _

theorem hash_of_readStateResource {p : Json.Value} (he : Bound env hashOf product en)
    (hcr : en.currentVersion = some version)
    (h : readStateResource env resourceId en.stateKind en.expectedStateSha256
      (stateHash env resourceId en.stateKind) bytes = .ok p) :
    canonicalJsonSha256 env p = hashOf product version := by
  simp only [readStateResource, he.expected version hcr, checkStateHash, stateHash,
    he.kind, if_false, bind_eq_ok, pure_eq_ok, rejectIf_eq_ok, Except.ok.injEq] at h
  obtain ⟨d, -, v, -, -, ⟨a, rfl, hsm⟩, rfl⟩ := h
  exact not_not.1 hsm

variable {l : LiveFeedProductState}

theorem Bound.withState (he : Bound env hashOf product en)
    (h : en.withState env resourceId version bytes = .ok l) : Bound env hashOf product l := by
  unfold LiveFeedProductState.withState at h
  split at h
  · rename_i hcr
    obtain ⟨p, hpr, h⟩ := bind_eq_ok.1 h
    obtain rfl := pure_eq_ok.1 h
    exact he.load (hash_of_readStateResource he hcr hpr) _
  · split at h
    · exact Except.ok.inj h ▸ he
    · obtain ⟨p, -, h⟩ := bind_eq_ok.1 h
      obtain rfl := pure_eq_ok.1 h
      exact he.updateHistory _ _

theorem keeps_ingestStateResource :
    Keeps env hashOf (ingestStateResource env resourceId rest bytes) s := by
  refine keeps_attempt_bind fun n _ => ?_
  refine keeps_entryOrDefault_bind fun e s' he => keeps_attempt_bind fun l hld => ?_
  exact .bind (keeps_setEntry fun hjs => (he hjs).withState hld)
    fun _ _ => keeps_clearResourceFailure

theorem hash_of_applyDeltaResource {fv tv : String} {next : Json.Value}
    (he : Bound env hashOf product en) (hd : supportsRecordDelta product = true)
    (h : applyDeltaResource env resourceId product fv tv en bytes = .ok next) :
    canonicalJsonSha256 env next = hashOf product tv := by
  cases hr : en.deltaFromPrevious with
  | none => simp [applyDeltaResource, hr, bind_eq_ok] at h
  | some dr =>
    cases htr : en.stateManifest with
    | none => simp [applyDeltaResource, hr, htr, bind_eq_ok] at h
    | some t =>
      simp only [applyDeltaResource, hr, htr, bind_eq_ok, ok_bind, rejectIf_eq_ok, pure_eq_ok] at h
      obtain ⟨-, hnm, -, -, -, -, -, -, d, -, dl, -, state, -, -, ht, rfl⟩ := h
      have hto : dr.toVersion = tv := by
        by_contra hne
        exact hnm (.inr hne)
      rw [not_not.1 ht, he.delta hd dr hr, hto]

theorem Bound.withDelta {fv tv : String}
    (he : Bound env hashOf product en) (hd : supportsRecordDelta product = true)
    (h : en.withDelta env resourceId product fv tv bytes = .ok l) : Bound env hashOf product l := by
  unfold LiveFeedProductState.withDelta at h
  split at h
  · obtain ⟨next, hnx, h⟩ := bind_eq_ok.1 h
    obtain rfl := pure_eq_ok.1 h
    exact he.load (hash_of_applyDeltaResource he hd hnx) _
  · exact Except.ok.inj h ▸ he

theorem keeps_ingestDeltaResource :
    Keeps env hashOf (ingestDeltaResource env resourceId rest bytes) s := by
  refine keeps_attempt_bind fun n _ => ?_
  obtain ⟨p, fv, tv⟩ := n
  refine keeps_attempt_bind fun _ hsp => ?_
  have hd : supportsRecordDelta p = true := by simpa using rejectIf_eq_ok.1 hsp
  refine keeps_entryOrDefault_bind fun e s' he => keeps_attempt_bind fun l hld => ?_
  exact .bind (keeps_setEntry fun hjs => (he hjs).withDelta hd hld)
    fun _ _ => keeps_clearResourceFailure

theorem keeps_ingestResource (hag : Agrees env hashOf s (.resource resourceId bytes)) :
    Keeps env hashOf (ingestResource env resourceId bytes) s := by
  unfold ingestResource
  split
  · exact keeps_ingestVersionResource hag
  · split
    · exact keeps_ingestStateResource
    · split
      · exact keeps_ingestDeltaResource
      · exact keeps_throw

theorem keeps_ingestPreparedState :
    Keeps env hashOf (ingestPreparedState env resourceId el rest) s := by
  refine keeps_attempt_bind fun n _ => ?_
  obtain ⟨p, v⟩ := n
  refine keeps_attempt_bind fun _ _ => keeps_entryOrDefault_bind fun e s' he => ?_
  have hld : ∀ s'', Keeps env hashOf
      (setEntry p { e with stateManifest := none, loadedVersion := some v }) s'' :=
    fun _ => keeps_setEntry fun hjs => (he hjs).unload _
  split
  · exact keeps_attempt_bind fun _ _ => hld _
  · split
    · exact keeps_attempt_bind fun _ _ => hld _
    · exact keeps_pure

theorem keeps_ingestPreparedDelta :
    Keeps env hashOf (ingestPreparedDelta env resourceId el rest) s := by
  refine keeps_attempt_bind fun n _ => ?_
  refine keeps_attempt_bind fun _ _ => keeps_entryOrDefault_bind fun e s' he => ?_
  split
  · exact keeps_attempt_bind fun _ _ => keeps_setEntry fun hjs => (he hjs).unload _
  · exact keeps_pure

theorem keeps_ingestPreparedLiveFeed :
    Keeps env hashOf (ingestPreparedLiveFeed env resourceId el) s := by
  refine keeps_attempt_bind fun _ _ => keeps_attempt_bind fun _ _ => keeps_attempt_bind fun _ _ => ?_
  split
  · exact keeps_ingestPreparedState
  · split
    · exact keeps_ingestPreparedDelta
    · exact keeps_throw

theorem keeps_markDurableProductLoaded {cau : Option String}
    (hag : Agrees env hashOf s (.durable product version ss cau sm)) :
    Keeps env hashOf (markDurableProductLoaded product version ss cau sm) s := by
  intro h
  refine (h.insert h.getD).insert fun hjs => ?_
  obtain ⟨hha, htr⟩ := hag hjs
  refine (h.getD hjs).loadDurable _ _ hha ?_ ?_
  · rintro t rfl
    exact htr
  · rintro rfl
    cases he : s.products[product]? with
    | none => exact .inl rfl
    | some e => simpa using htr e he

theorem keeps_markProductNoState : Keeps env hashOf (markProductNoState product) s := by
  refine keeps_get_bind ?_
  intro h
  split
  · exact h
  · rename_i e he
    exact h.insert fun hjs => (h product e hjs he).unload none

theorem keeps_mergeCatalogFrom {src : LiveFeedsState}
    (hsr : AllBound env hashOf src.products) : Keeps env hashOf (mergeCatalogFrom src) s := by
  intro h
  refine .mergeEntries ?_ fun p hpr hjs =>
    hsr p.1 p.2 hjs (Std.ExtTreeMap.mem_toList_iff_getElem?_eq_some.1 hpr)
  split
  · exact h.filter _
  · exact h

/-- Every operation keeps the entries bound. -/
theorem keeps_operation {op : Operation} (hag : Agrees env hashOf s op) :
    Keeps env hashOf (op.run env) s := by
  cases op with
  | catalog bs => exact (keeps_ingestCatalogBytes hag).bind fun _ _ => keeps_pure
  | events es => exact (keeps_ingestSseEvents hag).bind fun _ _ => keeps_pure
  | resource rid bs => exact keeps_ingestResource hag
  | prepared rid e => exact keeps_ingestPreparedLiveFeed
  | durable p v ss cau sm => exact keeps_markDurableProductLoaded hag
  | noState p => exact keeps_markProductNoState

/-- In every state that is reached the entries are bound. -/
theorem allBound_of_reached (h : Reached env (Agrees env hashOf) s) :
    AllBound env hashOf s.products := by
  induction h with
  | empty => exact .empty
  | operation op hs hop ih => exact ends_iff.1 (keeps_operation hop ih)
  | merge hs hsr ih i => exact ends_iff.1 (keeps_mergeCatalogFrom i ih)

/-- **The served state is the advertised one.** Where one version of a product stands for one hash, a
JSON state that is served has the hash of its product's registration. -/
theorem served_state_has_registered_hash (h : Reached env (Agrees env hashOf) s)
    (hjson : servesJson product = true) {tree : Json.Value}
    (hserved : productStateManifest s product = some tree) :
    ∃ entry version, s.products[product]? = some entry ∧ entry.currentVersion = some version ∧
      entry.expectedStateSha256 = some (canonicalJsonSha256 env tree) ∧
      canonicalJsonSha256 env tree = hashOf product version := by
  obtain ⟨entry, he, htr⟩ := bind_eq_some_iff.1 hserved
  have hbd := allBound_of_reached h product entry hjson he
  split at htr
  · rename_i hcr
    obtain ⟨hsm, hld⟩ := hcr
    obtain ⟨version, hv⟩ := isSome_iff_exists.1 hsm
    obtain ⟨loaded, hld', hha⟩ := hbd.tree tree htr
    obtain rfl : loaded = version := some.inj (hld'.symm.trans (hld.trans hv))
    exact ⟨entry, loaded, he, hv, by rw [hbd.expected loaded hv, hha], hha⟩
  · exact absurd htr (by simp)

end Binding

namespace Sample

def loaded : LiveFeedsState :=
  final ((Operation.resource "live_feeds/state/metars/v1" (metars morning).write).run env)
    (final ((Operation.catalog (catalogJson morning).write).run env) .empty)

def registeredAgain : LiveFeedsState :=
  final ((Operation.catalog (catalogJson noon).write).run env) loaded

end Sample

open Sample in
/-- The METARs of the catalog, once they are loaded. -/
theorem morning_metars_served :
    ∃ tree, productStateManifest loaded "metars" = some tree ∧
      ∃ entry version, loaded.products["metars"]? = some entry ∧ entry.currentVersion = some version ∧
        entry.expectedStateSha256 = some (canonicalJsonSha256 env tree) ∧
        canonicalJsonSha256 env tree = metarsSha256 morning := by
  have hct : Agrees env (fun _ _ => metarsSha256 morning) .empty
      (.catalog (catalogJson morning).write) := by
    have hch : ((decodeExact env env.readCatalog "live-feed catalog" (catalogJson morning).write
        liveFeedsSchemaVersion).toOption.map fun listed =>
          decide (∀ pair ∈ listed.products.toList, pair.2.stateSha256 = metarsSha256 morning)) =
        some true := by decide +kernel
    intro listed hls pair hpr _
    rw [toOption_eq_some.2 hls] at hch
    exact of_decide_eq_true (some.inj hch) pair hpr
  have hst : ∀ s, Agrees env (fun _ _ => metarsSha256 morning) s
      (.resource "live_feeds/state/metars/v1" (metars morning).write) := by
    have hch : ((decodeExact env env.readVersionManifest "live-feed version manifest"
        (metars morning).write liveFeedsSchemaVersion).toOption.isSome) = false := by decide +kernel
    intro s man hm
    rw [toOption_eq_some.2 hm] at hch
    exact absurd hch (by simp)
  have hrc : Reached env (Agrees env fun _ _ => metarsSha256 morning) loaded :=
    .operation _ (.operation _ .empty hct) (hst _)
  have hserved : (productStateManifest loaded "metars").isSome = true := by decide +kernel
  obtain ⟨tree, htr⟩ := isSome_iff_exists.1 hserved
  exact ⟨tree, htr, served_state_has_registered_hash hrc (by decide) htr⟩

open Sample in
/-- The state of a version that is registered again with another hash is still served. -/
theorem state_served_under_new_hash :
    ∃ s, Reached env (fun _ op => ∀ product version stateSha256 collectedAtUtc tree,
        op = .durable product version stateSha256 collectedAtUtc (some tree) →
          canonicalJsonSha256 env tree = stateSha256) s ∧
      s.catalogLoaded = true ∧ servesJson "metars" = true ∧
      ∃ entry tree, s.products["metars"]? = some entry ∧ entry.stateKind ≠ some "nav_kv" ∧
        productStateManifest s "metars" = some tree ∧
        entry.expectedStateSha256 ≠ some (canonicalJsonSha256 env tree) := by
  have hch : ((registeredAgain.products["metars"]?).bind fun entry =>
      (productStateManifest registeredAgain "metars").map fun tree =>
        decide (registeredAgain.catalogLoaded = true ∧ entry.stateKind ≠ some "nav_kv" ∧
          entry.expectedStateSha256 ≠ some (canonicalJsonSha256 env tree))) = some true := by
    decide +kernel
  obtain ⟨entry, he, hch⟩ := bind_eq_some_iff.1 hch
  obtain ⟨tree, htr, hch⟩ := map_eq_some_iff.1 hch
  obtain ⟨hld, hkd, hha⟩ := of_decide_eq_true hch
  refine ⟨registeredAgain, ?_, hld, by decide, entry, tree, he, hkd, htr, hha⟩
  exact .operation _ (.operation _ (.operation _ .empty nofun) nofun) nofun

end Aerobag.LiveFeed
