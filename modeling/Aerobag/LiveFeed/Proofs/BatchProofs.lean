import Aerobag.LiveFeed.Sample

/-!
# Events that are ingested together

A batch keeps the last catalog and the last event of each product after it, and validates only
those. The entries then say what they say after the events one by one.
-/

open List Option Except

namespace Aerobag.LiveFeed

open Command

variable {env : FeedEnv} {s t : LiveFeedsState} {events : List LiveFeedSseEvent}
  {reg : ProductRegistration} {cat : Option Catalog}
  {lat : Std.ExtTreeMap String CurrentEvent}

/-- One event of its own; the outcome that is returned for it only reads the state. -/
def ingestSseEvent (env : FeedEnv) (event : LiveFeedSseEvent) : FeedM Unit := do
  let _ ← ingestSseEvents env [event]

/-- What an entry says about the current version of its product. -/
structure Registered where
  currentVersion : Option String
  versionManifestUrl : Option String
  stateUrl : Option String
  expectedStateSha256 : Option String
  publishedAtUtc : Option String
  collectedAtUtc : Option String
  historyVersions : List String

def LiveFeedProductState.registered (entry : LiveFeedProductState) : Registered :=
  ⟨entry.currentVersion, entry.versionManifestUrl, entry.stateUrl, entry.expectedStateSha256,
    entry.publishedAtUtc, entry.collectedAtUtc, entry.history.map (·.version)⟩

def ProductRegistration.registered (registration : ProductRegistration) : Registered :=
  ⟨registration.version, registration.versionManifestUrl, registration.stateUrl,
    registration.stateSha256, registration.publishedAtUtc, registration.collectedAtUtc,
    registration.history.map (·.version)⟩

def LiveFeedsState.registered (s : LiveFeedsState) (product : String) : Option Registered :=
  s.products[product]?.map (·.registered)

theorem syncHistoryEntries_versions (es : List CurrentProductHistoryEntry)
    (e : Std.ExtTreeMap String LiveFeedProductHistoryState) :
    (syncHistoryEntries e es).map (·.version) = es.map (·.version) := by
  induction es generalizing e with
  | nil => rfl
  | cons en es ih => exact congrArg (en.version :: ·) (ih _)

theorem registered_register (e : LiveFeedProductState) :
    (e.register reg).registered = reg.registered := by
  have hhs := syncHistoryEntries_versions reg.history (.insertAll (·.version) ∅ e.history)
  unfold LiveFeedProductState.register
  split <;> simp [LiveFeedProductState.registered, ProductRegistration.registered, syncHistory, hhs]

theorem ends_registerValidatedProduct :
    Ends (registerValidatedProduct reg) s fun r t => r = .ok ⟨⟩ ∧ ∀ p,
      t.products[p]? = if reg.product = p then some ((s.products[p]?.getD .empty).register reg)
      else s.products[p]? := by
  refine ⟨rfl, fun p => ?_⟩
  simp only [Std.ExtTreeMap.getElem?_insert, compare_eq_iff_eq]
  split
  · next hk => rw [hk]
  · rfl

theorem ends_registerAll (rs : List ProductRegistration) :
    Ends (rs.forM registerValidatedProduct) s fun r t => r = .ok ⟨⟩ ∧ ∀ p,
      (∃ rg ∈ rs, rg.product = p ∧ t.registered p = some rg.registered) ∨
      (p ∉ rs.map (·.product) ∧ t.products[p]? = s.products[p]?) := by
  induction rs generalizing s with
  | nil => exact ⟨rfl, fun p => .inr ⟨not_mem_nil, rfl⟩⟩
  | cons first rst ih =>
    refine ends_registerValidatedProduct.bind (fun _ s' ⟨_, hs⟩ => ?_) (fun e _ h => by simp at h)
    refine ih.imp fun r t ⟨hr, ht⟩ => ⟨hr, fun p => ?_⟩
    rcases ht p with ⟨rg, hm, hrg⟩ | ⟨hnm, heq⟩
    · exact .inl ⟨rg, mem_cons_of_mem _ hm, hrg⟩
    · rw [hs] at heq
      by_cases hk : first.product = p
      · refine .inl ⟨first, mem_cons_self, hk, ?_⟩
        rw [LiveFeedsState.registered, heq, if_pos hk, map_some, registered_register]
      · rw [if_neg hk] at heq
        exact .inr ⟨by simpa [hnm] using Ne.symm hk, heq⟩

section Mapped

variable {β : Type} {ls : Std.ExtTreeMap String β} {trn : String → β → ProductRegistration}
  (hk : ∀ k x, ls[k]? = some x → (trn k x).product = k)

include hk

theorem mem_products_iff {p : String} :
    p ∈ (ls.toList.map fun pr => trn pr.1 pr.2).map (·.product) ↔ ls[p]? ≠ none := by
  rw [List.map_map, List.mem_map, ne_none_iff_exists']
  constructor
  · rintro ⟨⟨k, x⟩, hm, hp⟩
    have hx := Std.ExtTreeMap.mem_toList_iff_getElem?_eq_some.1 hm
    obtain rfl := (hk k x hx).symm.trans hp
    exact ⟨x, hx⟩
  · rintro ⟨x, hx⟩
    exact ⟨(p, x), Std.ExtTreeMap.mem_toList_iff_getElem?_eq_some.2 hx, hk _ _ hx⟩

theorem ends_registerMap :
    Ends ((ls.toList.map fun pr => trn pr.1 pr.2).forM registerValidatedProduct)
      s fun r t => r = .ok ⟨⟩ ∧ ∀ p,
      t.registered p = (ls[p]?.map fun x => (trn p x).registered).or (s.registered p) ∧
        (ls[p]? = none → t.products[p]? = s.products[p]?) := by
  refine (ends_registerAll _).imp fun r t ⟨hr, ht⟩ => ⟨hr, fun p => ?_⟩
  rcases ht p with ⟨rg, hm, hp, hrg⟩ | ⟨hnm, heq⟩
  · obtain ⟨⟨k, x⟩, hx, rfl⟩ := mem_map.1 hm
    rw [Std.ExtTreeMap.mem_toList_iff_getElem?_eq_some] at hx
    obtain rfl := (hk k x hx).symm.trans hp
    simp [hx, hrg]
  · have hno := not_not.1 (mt (mem_products_iff hk).2 hnm)
    exact ⟨by simp [hno, LiveFeedsState.registered, heq], fun _ => heq⟩

end Mapped

theorem getElem?_insertAll_id {ns : List String} {map : Std.ExtTreeMap String String}
    {n : String} (h : n ∈ ns ∨ map[n]? = some n) :
    (Std.ExtTreeMap.insertAll id map ns)[n]? = some n := by
  induction ns generalizing map with
  | nil => exact h.resolve_left (by simp)
  | cons first ns ih =>
    refine ih ?_
    rw [Std.ExtTreeMap.getElem?_insert]
    by_cases heq : first = n
    · exact .inr (by simp [heq])
    · rcases h with hm | hmp
      · exact .inl ((mem_cons.1 hm).resolve_left fun h => heq h.symm)
      · exact .inr (by simpa [heq] using hmp)

theorem mem_sortDedup {ns : List String} {n : String} (h : n ∈ ns) : n ∈ sortDedup ns :=
  List.mem_map.2 ⟨(n, n),
    Std.ExtTreeMap.mem_toList_iff_getElem?_eq_some.2 (getElem?_insertAll_id (.inl h)), rfl⟩

theorem eq_of_validateProductRegistration {v : ProductRegistration}
    (h : validateProductRegistration reg = .ok v) : v = reg := by
  simp only [validateProductRegistration, normalizeProductHistory, bind_eq_ok, pure_eq_ok] at h
  obtain ⟨-, -, -, -, _, ⟨-, -, -, -, rfl⟩, rfl⟩ := h
  rfl

def ProductRegistration.Valid (registration : ProductRegistration) : Prop :=
  validateProductRegistration registration = .ok registration

/-- The registrations after a catalog and the events that follow it. -/
def registeredAfter (cat : Option Catalog) (latest : Std.ExtTreeMap String CurrentEvent)
    (before : String → Option Registered) (product : String) : Option Registered :=
  (latest[product]?.map fun payload => (productRegistrationFromEvent payload).registered).or
    (cat.elim (before product) fun listed => listed.products[product]?.map fun entry =>
      (productRegistrationFromCatalog product entry).registered)

def Catalog.registrations (listed : Catalog) : List ProductRegistration :=
  listed.products.toList.map fun pair => productRegistrationFromCatalog pair.1 pair.2

theorem registeredAfter_none (b : String → Option Registered) : registeredAfter none ∅ b = b := by
  funext product
  simp [registeredAfter]

theorem registeredAfter_insert (p : CurrentEvent) (b : String → Option Registered) :
    registeredAfter none ((∅ : Std.ExtTreeMap String CurrentEvent).insert p.product p)
        (registeredAfter cat lat b) = registeredAfter cat (lat.insert p.product p) b := by
  funext product
  by_cases hk : p.product = product <;> simp [registeredAfter, Std.ExtTreeMap.getElem?_insert, hk]

structure Accepted (cat : Option Catalog) (latest : Std.ExtTreeMap String CurrentEvent) : Prop where
  listed : ∀ listed ∈ cat, ∀ pair ∈ listed.products.toList,
    (productRegistrationFromCatalog pair.1 pair.2).Valid
  events : ∀ pair ∈ latest.toList, (productRegistrationFromEvent pair.2).Valid

theorem mapM_validate_iff {α : Type} {xs : List α} {tr : α → ProductRegistration}
    {v : List ProductRegistration} : xs.mapM (fun x => validateProductRegistration (tr x)) = .ok v ↔
      v = xs.map tr ∧ ∀ x ∈ xs, (tr x).Valid :=
  mapM_eq_ok_iff fun _ _ => eq_of_validateProductRegistration

theorem mapM_catalog_iff {v : Option (List ProductRegistration)} :
    cat.mapM validatedCatalogRegistrations = .ok v ↔
      v = cat.map Catalog.registrations ∧ ∀ l ∈ cat, ∀ p ∈ l.products.toList,
        (productRegistrationFromCatalog p.1 p.2).Valid := by
  cases cat with
  | none => exact pure_eq_ok.trans ⟨fun h => ⟨h.symm, by simp⟩, fun h => h.1.symm⟩
  | some l =>
    refine bind_eq_ok.trans ⟨?_, ?_⟩
    · rintro ⟨vl, hv, heq⟩
      obtain ⟨rfl, hvl⟩ := mapM_validate_iff.1 hv
      exact ⟨(pure_eq_ok.1 heq).symm, fun _ h => some.inj h ▸ hvl⟩
    · rintro ⟨rfl, hvl⟩
      exact ⟨_, mapM_validate_iff.2 ⟨rfl, hvl l rfl⟩, rfl⟩

theorem ends_installReceivedCatalog :
    Ends (installReceivedCatalog (cat.map Catalog.registrations)) s fun r t =>
      ∃ a, r = .ok a ∧ t.registered = registeredAfter cat ∅ s.registered ∧
        ∀ p, p ∉ a → t.products[p]? = s.products[p]? := by
  cases cat with
  | none => exact ⟨[], rfl, by funext; simp [registeredAfter], fun _ _ => rfl⟩
  | some l =>
    have hk : ∀ k x, l.products[k]? = some x →
      (productRegistrationFromCatalog k x).product = k := fun _ _ _ => rfl
    refine ends_get_bind.2 (ends_modify_bind.2 ?_)
    refine (ends_registerMap hk).bind (fun _ t ⟨_, ht⟩ => ?_) (fun e _ h => by simp at h)
    -- a product that the catalog does not list is dropped before the registrations
    have hun : ∀ p : String, l.products[p]? = none → t.products[p]? = none := by
      intro p hls
      rw [(ht p).2 hls, Std.ExtTreeMap.getElem?_filter', filter_eq_none_iff]
      exact fun _ _ hm => (mem_products_iff hk).1 (of_decide_eq_true hm) hls
    refine ⟨_, rfl, funext fun p => ?_, fun p hna => ?_⟩
    · cases hls : l.products[p]? with
      | some en => simp [(ht p).1, registeredAfter, hls]
      | none => simp [LiveFeedsState.registered, hun p hls, registeredAfter, hls]
    · obtain ⟨hkn, hls⟩ := not_or.1 (mt mem_append.2 (mt mem_sortDedup hna))
      rw [hun p (not_not.1 (mt (mem_products_iff hk).2 hls)), eq_comm, eq_none_iff_forall_ne_some]
      exact fun en he => hkn (List.mem_map.2 ⟨(p, en),
        Std.ExtTreeMap.mem_toList_iff_getElem?_eq_some.2 he, rfl⟩)

theorem collectSseEvents_keyed {l : Std.ExtTreeMap String CurrentEvent} {es : List LiveFeedSseEvent}
    {cat' : Option Catalog} {l' : Std.ExtTreeMap String CurrentEvent}
    (hk : ∀ (k : String) (x : CurrentEvent), l[k]? = some x → x.product = k)
    (h : collectSseEvents env es cat l = .ok (cat', l')) :
    ∀ (k : String) (x : CurrentEvent), l'[k]? = some x → x.product = k := by
  induction es generalizing cat l with
  | nil =>
    obtain ⟨-, rfl⟩ : cat = cat' ∧ l = l' := by simpa [collectSseEvents] using h
    exact hk
  | cons e es ih =>
    obtain ⟨p, -, h⟩ := bind_eq_ok.1 h
    match p with
    | none => exact ih hk h
    | some (.catalog newer) => exact ih (by simp) h
    | some (.product payload) =>
      refine ih (fun k x hx => ?_) h
      rw [Std.ExtTreeMap.getElem?_insert] at hx
      split at hx
      · next heq => exact some.inj hx ▸ compare_eq_iff_eq.1 heq
      · exact hk k x hx

/-- A batch fails without a change, or it ends with what its last catalog and last events say. -/
theorem ends_ingestSseEvents : Ends (ingestSseEvents env events) s fun
    | .error _, t => t = s ∧ ∀ cat l, collectSseEvents env events none ∅ = .ok (cat, l) →
      ¬ Accepted cat l
    | .ok a, t => (∃ cat l, collectSseEvents env events none ∅ = .ok (cat, l) ∧
        Accepted cat l ∧ t.registered = registeredAfter cat l s.registered) ∧
      ∀ p, p ∉ a → t.products[p]? = s.products[p]? := by
  refine ends_attempt_bind.2 ⟨fun c hcl => ?_, fun e he => ⟨rfl, fun _ _ h => by simp [he] at h⟩⟩
  obtain ⟨cat, l⟩ := c
  have hk : ∀ k x, l[k]? = some x → (productRegistrationFromEvent x).product = k :=
    collectSseEvents_keyed (by simp) hcl
  have hno : (¬ Accepted cat l) → ∀ cat l,
      collectSseEvents env events none ∅ = .ok (cat, l) → ¬ Accepted cat l := by
    rintro hna _ _ h
    cases hcl.symm.trans h
    exact hna
  refine ends_attempt_bind.2 ⟨fun _ hcr => ?_, fun e he => ⟨rfl, hno fun hac => ?_⟩⟩
  swap
  · cases he.symm.trans (mapM_catalog_iff.2 ⟨rfl, hac.listed⟩)
  refine ends_attempt_bind.2 ⟨fun _ hpr => ?_, fun e he => ⟨rfl, hno fun hac => ?_⟩⟩
  swap
  · cases he.symm.trans (mapM_validate_iff.2 ⟨rfl, hac.events⟩)
  obtain ⟨rfl, hct⟩ := mapM_catalog_iff.1 hcr
  obtain ⟨rfl, hev⟩ := mapM_validate_iff.1 hpr
  refine ends_installReceivedCatalog.bind (fun a s' ⟨_, ha, hs, hun⟩ => ?_)
    (fun _ _ ⟨_, ha, _⟩ => by simp at ha)
  obtain rfl := Except.ok.inj ha
  refine (ends_registerMap hk).bind (fun _ t ⟨_, ht⟩ => ?_) (fun _ _ h => by simp at h)
  refine ⟨⟨cat, l, hcl, ⟨hct, hev⟩, funext fun p => ?_⟩, fun p hna => ?_⟩
  · rw [(ht p).1, hs]
    simp [registeredAfter]
  · obtain ⟨hna, hls⟩ := not_or.1 (mt mem_append.2 (mt mem_sortDedup hna))
    exact ((ht p).2 (not_not.1 (mt (mem_products_iff hk).2 hls))).trans (hun p hna)

/-- The events one by one lead to what the whole batch collects. -/
theorem collect_of_oneByOne {la : Std.ExtTreeMap String CurrentEvent} {es : List LiveFeedSseEvent}
    {b : String → Option Registered} (hac : Accepted cat la)
    (hs : s.registered = registeredAfter cat la b)
    (h : (es.forM (ingestSseEvent env)).run s = .ok ⟨⟩ t) :
    ∃ cat' l', collectSseEvents env es cat la = .ok (cat', l') ∧
      Accepted cat' l' ∧ t.registered = registeredAfter cat' l' b := by
  induction es generalizing s cat la with
  | nil =>
    cases h
    exact ⟨cat, la, rfl, hac, hs⟩
  | cons e es ih =>
    obtain ⟨_, s', hev, h⟩ := run_bind_eq_ok.1 h
    obtain ⟨_, _, hev, hu⟩ := run_bind_eq_ok.1 hev
    cases hu
    obtain ⟨⟨c, l, hcl, hac', hs'⟩, -⟩ := ends_ingestSseEvents.of_ok hev
    obtain ⟨p, hps, hcl⟩ := bind_eq_ok.1 hcl
    rw [collectSseEvents, hps]
    match p with
    | none =>
      cases hcl
      exact ih hac (hs'.trans ((registeredAfter_none _).trans hs)) h
    | some (.catalog newer) =>
      cases hcl
      exact ih hac' hs' h
    | some (.product payload) =>
      cases hcl
      refine ih ⟨hac.listed, fun pr hpr => ?_⟩ ?_ h
      · rw [Std.ExtTreeMap.mem_toList_iff_getElem?_eq_some, Std.ExtTreeMap.getElem?_insert] at hpr
        split at hpr
        · exact hac'.events (payload.product, pr.2) (by simp [some.inj hpr])
        · exact hac.events pr (Std.ExtTreeMap.mem_toList_iff_getElem?_eq_some.2 hpr)
      · rw [hs', hs, registeredAfter_insert]

/-- **A batch of events.** A batch that fails changes nothing. When the events succeed one by one, the
batch succeeds and leaves the same registrations, and it reports every product that it changes. -/
theorem events_batched (env : FeedEnv) (s : LiveFeedsState) (events : List LiveFeedSseEvent) :
    (∀ e t, (ingestSseEvents env events).run s = .error e t → t = s) ∧
    (∀ t, (events.forM (ingestSseEvent env)).run s = .ok ⟨⟩ t →
      ∃ affected t', (ingestSseEvents env events).run s = .ok affected t' ∧
        t'.registered = t.registered) ∧
    ∀ affected t, (ingestSseEvents env events).run s = .ok affected t →
      ∀ product : String, t.products[product]? ≠ s.products[product]? → product ∈ affected := by
  refine ⟨fun e t h => (ends_ingestSseEvents.of_error h).1, fun t h => ?_, fun affected t h product =>
    not_imp_comm.1 ((ends_ingestSseEvents.of_ok h).2 product)⟩
  have hno : Accepted none ∅ := ⟨by simp, by simp⟩
  obtain ⟨cat, latest, hcl, hac, ht⟩ := collect_of_oneByOne hno (registeredAfter_none _).symm h
  cases hr : (ingestSseEvents env events).run s with
  | error e t' => exact absurd hac ((ends_ingestSseEvents.of_error hr).2 cat latest hcl)
  | ok affected t' =>
    obtain ⟨⟨_, _, hcl', -, ht'⟩, -⟩ := ends_ingestSseEvents.of_ok hr
    cases hcl.symm.trans hcl'
    exact ⟨affected, t', rfl, ht'.trans ht.symm⟩

namespace Sample

def burst : List LiveFeedSseEvent :=
  ⟨some "live-feed-catalog", (catalogJson morning).write⟩ ::
    eventVersions.map fun version => ⟨none, (metarsEventJson version).write⟩

end Sample

open Sample in
/-- A catalog and two events for the same product: the last one is registered. -/
theorem events_batched_burst :
    ∃ t affected t', (burst.forM (ingestSseEvent Sample.env)).run .empty = .ok ⟨⟩ t ∧
      (ingestSseEvents Sample.env burst).run .empty = .ok affected t' ∧ t'.registered = t.registered ∧
      (t'.registered "metars").bind (·.currentVersion) = some "v3" ∧ "metars" ∈ affected := by
  have hch : (match (burst.forM (ingestSseEvent Sample.env)).run .empty with
      | .ok _ t => (t.registered "metars").bind (·.currentVersion)
      | .error _ _ => none) = some "v3" := by decide +kernel
  obtain ⟨-, hbt, haf⟩ := events_batched Sample.env .empty burst
  generalize (burst.forM (ingestSseEvent Sample.env)).run .empty = result at hch hbt ⊢
  match result with
  | .error _ _ => nomatch hch
  | .ok _ t =>
    obtain ⟨affected, t', ht', hrg⟩ := hbt t rfl
    replace hch : (t'.registered "metars").bind (·.currentVersion) = some "v3" := hrg ▸ hch
    refine ⟨t, affected, t', rfl, ht', hrg, hch, haf affected t' ht' "metars" fun hno => ?_⟩
    simp [LiveFeedsState.registered, hno, LiveFeedsState.empty] at hch

end Aerobag.LiveFeed
