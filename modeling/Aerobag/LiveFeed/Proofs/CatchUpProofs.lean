import Aerobag.Lib.Chain
import Aerobag.Lib.Lists
import Aerobag.LiveFeed.Requests

/-!
# Catching up with the NOTAMs

The manifest retains a chain of deltas and a checkpoint on it. A session asks for the manifest, then
for the first delta that leaves its version, or the checkpoint: it is a follower (`Chain.Follows`).
-/

open List Option Except

namespace Aerobag.LiveFeed

open Command

section CatchUp

variable {env : FeedEnv} {man : VersionManifest} {en : LiveFeedProductState}
  {s s₁ s₂ : LiveFeedsState}

def DeltaRef.link (delta : DeltaRef) : String × String := (delta.fromVersion, delta.toVersion)

/-- The manifest as a source: a checkpoint, and links from version to version. -/
def VersionManifest.retained (manifest : VersionManifest) : Chain.Source String where
  links := manifest.recentDeltas.map DeltaRef.link
  checkpoint := manifest.state.stateSha256
  target := manifest.version

theorem validateNotamChain_joined {cp si f : String} {ds : List DeltaRef}
    {met met' : Bool} (h : validateNotamChain cp ds si met = .ok (f, met')) :
    Chain.Joined si (ds.map DeltaRef.link) f ∧
      (met' = true → met = true ∨ cp ∈ ds.map (·.toVersion)) ∧
      ∀ d ∈ ds, d.kind = some "notam_ordered_delta_xz" := by
  induction ds generalizing si met with
  | nil =>
    obtain ⟨rfl, rfl⟩ : si = f ∧ met = met' := by simpa [validateNotamChain] using h
    exact ⟨rfl, fun hm => .inl hm, by simp⟩
  | cons d ds ih =>
    simp only [validateNotamChain, bind_eq_ok, rejectIf_eq_ok, not_or, not_not] at h
    obtain ⟨-, ⟨hkd, hfr, -, hto, -⟩, hr⟩ := h
    obtain ⟨hjn, hm, hkn⟩ := ih hr
    refine ⟨⟨hfr, ?_⟩, fun hm' => ?_, forall_mem_cons.2 ⟨hkd, hkn⟩⟩
    · rw [← hto] at hjn
      exact hjn
    · rcases hm hm' with hnw | hla
      · rw [Bool.or_eq_true, decide_eq_true_eq] at hnw
        rcases hnw with hbf | hhr
        · exact .inl hbf
        · exact .inr (List.mem_map.2 ⟨d, mem_cons_self, hto.trans hhr⟩)
      · exact .inr (mem_cons_of_mem _ hla)

/-- What acceptance of a manifest says about the chain that it retains. -/
structure Retained (manifest : VersionManifest) : Prop where
  joined : ∃ start, Chain.Joined start manifest.retained.links manifest.retained.target
  checkpoint : manifest.retained.checkpoint = manifest.retained.target ∨
    (Chain.leaving manifest.retained.links manifest.retained.checkpoint).isSome
  latest : ∀ delta ∈ manifest.deltaFromPrevious, delta ∈ manifest.recentDeltas
  stateKind : manifest.state.kind = some "notam_checkpoint_xz"
  deltaKinds : ∀ delta ∈ manifest.recentDeltas, delta.kind = some "notam_ordered_delta_xz"

theorem isSome_leaving {ls : List (String × String)} {x : String}
    (h : x ∈ ls.map (·.1)) : (Chain.leaving ls x).isSome := by
  obtain ⟨l, hln, rfl⟩ := List.mem_map.1 h
  rw [Chain.leaving, find?_isSome]
  exact ⟨l, hln, by simp⟩

theorem retained_of_accepted
    (h : validateNotamVersionManifest man man.version = .ok ()) : Retained man := by
  simp only [validateNotamVersionManifest, bind_eq_ok, rejectIf_eq_ok] at h
  obtain ⟨-, -, -, hst, h⟩ := h
  rw [not_not] at hst
  cases hdl : man.recentDeltas with
  | nil =>
    simp only [hdl, bind_eq_ok, rejectIf_eq_ok, not_not] at h
    obtain ⟨-, hch, hla⟩ := h
    refine ⟨⟨man.version, ?_⟩, .inl hch, ?_, hst, by simp [hdl]⟩
    · simp [VersionManifest.retained, hdl, Chain.Joined]
    · intro d hd
      exact absurd (isSome_iff_exists.2 ⟨d, hd⟩) hla
  | cons first r =>
    simp only [hdl, bind_eq_ok, rejectIf_eq_ok, not_not] at h
    obtain ⟨⟨f, met⟩, hcn, -, hfn, -, hmt, hla⟩ := h
    obtain ⟨hjn, hwh, hkn⟩ := validateNotamChain_joined hcn
    have hln : man.retained.links = (first :: r).map DeltaRef.link := by
      rw [VersionManifest.retained, hdl]
    obtain rfl : f = man.version := hfn
    rw [← hln] at hjn
    refine ⟨⟨_, hjn⟩, ?_, ?_, hst, hdl ▸ hkn⟩
    · have hmt : met = true := by simpa using hmt
      rcases hwh hmt with hs | hlr
      · -- the checkpoint is where the chain starts
        refine .inr (isSome_leaving ?_)
        rw [hln] at hjn ⊢
        exact List.mem_map.2 ⟨first.link, by simp, hjn.1.trans (of_decide_eq_true hs)⟩
      · obtain ⟨d, hd, hto⟩ := List.mem_map.1 hlr
        have hm : d.link ∈ man.retained.links := by
          rw [hln]
          exact List.mem_map_of_mem hd
        have hsn : d.link.2 = man.retained.checkpoint := hto
        rcases Chain.snd_mem_of_joined hjn hm with hnx | he
        · exact .inr (isSome_leaving (hsn ▸ hnx))
        · exact .inl (hsn.symm.trans he)
    · intro d hd
      rw [mem_def.1 hd] at hla
      simp only [bind_eq_ok, rejectIf_eq_ok, not_not] at hla
      obtain ⟨-, -, hl⟩ := hla
      rw [hdl]
      exact mem_of_getLast? hl

/-- The entry has what the manifest says. -/
structure LiveFeedProductState.Holds (entry : LiveFeedProductState) (manifest : VersionManifest) :
    Prop where
  current : entry.currentVersion = some manifest.version
  known : entry.versionManifest.isSome
  state : entry.stateRef = some manifest.state
  deltas : entry.recentDeltas = manifest.recentDeltas
  latest : entry.deltaFromPrevious = manifest.deltaFromPrevious

theorem leaving_retained (v : String) : Chain.leaving man.retained.links v =
      (man.recentDeltas.find? (·.fromVersion = v)).map DeltaRef.link := by
  rw [Chain.leaving, VersionManifest.retained, find?_map]
  rfl

theorem find?_orElse_latest (hr : Retained man) (p : DeltaRef → Bool) :
    ((man.recentDeltas.find? p).orElse fun _ => man.deltaFromPrevious.filter p) =
      man.recentDeltas.find? p := by
  cases hfn : man.recentDeltas.find? p with
  | some d => rfl
  | none =>
    rw [find?_eq_none] at hfn
    change man.deltaFromPrevious.filter p = none
    rw [filter_eq_none_iff]
    intro d hd
    exact hfn d (hr.latest d hd)

theorem notamDeltaFrom_eq (hr : Retained man) (hh : en.Holds man) (v : String) :
    en.notamDeltaFrom v = man.recentDeltas.find? (·.fromVersion = v) := by
  rw [LiveFeedProductState.notamDeltaFrom, hh.deltas, hh.latest]
  exact find?_orElse_latest hr _

def fetchId : Chain.Fetch String → String
  | .checkpoint version => stateResourceId "notams" version
  | .link link => deltaResourceId "notams" link.1 link.2

theorem missingResourcesForProducts_notams :
    missingResourcesForProducts s ["notams"] = missingProductResources s "notams" := by
  have hsr : sortDedup ["notams"] = ["notams"] := by decide +kernel
  simp [missingResourcesForProducts, hsr]

theorem missing_ids (hr : Retained man) (he : s.products["notams"]? = some en)
    (hh : en.Holds man) : (missingResourcesForProducts s ["notams"]).map (·.id) =
      (Chain.ask man.retained en.loadedVersion).toList.map fetchId := by
  have hkn : en.versionManifest.isNone = false := by simpa using hh.known
  rw [missingResourcesForProducts_notams]
  unfold missingProductResources Chain.ask
  simp only [he, hh.current, hkn]
  by_cases hcr : en.loadedVersion = some man.version
  · simp [hcr, VersionManifest.retained]
  · have hne : ¬ en.loadedVersion = some man.retained.target := hcr
    simp only [hcr, hne]
    unfold missingNotamResources LiveFeedProductState.applicableNotamDelta
    cases hld : en.loadedVersion with
    | none => simp [hh.state, publicLiveFeedResource, fetchId, VersionManifest.retained]
    | some v =>
      simp only [bind_some, notamDeltaFrom_eq hr hh, leaving_retained]
      cases man.recentDeltas.find? (·.fromVersion = v) with
      | none => simp [hh.state, publicLiveFeedResource, fetchId, VersionManifest.retained]
      | some d => simp [publicLiveFeedResource, fetchId, DeltaRef.link]

def IsPart (text : String) : Prop := text ≠ "" ∧ Text.split '/' text = [text]

instance (text : String) : Decidable (IsPart text) := inferInstanceAs (Decidable (_ ∧ _))

/-- The versions of a link can be read from the id of its resource. -/
def Plain : Chain.Fetch String → Prop
  | .checkpoint _ => True
  | .link link => IsPart link.1 ∧ IsPart link.2

variable {l : String × String}

theorem split_link_id {rid : String} {ps : String × String × String} :
    splitProductFromTo rid ("notams" ++ "/" ++ l.1 ++ "/" ++ l.2) = .ok ps ↔
      Plain (.link l) ∧ ps = ("notams", l.1, l.2) := by
  have hnm : Text.split '/' "notams" = ["notams"] := by decide +kernel
  have hem : "notams".isEmpty = false := by decide
  have hsp : Text.split '/' ("notams" ++ "/" ++ l.1 ++ "/" ++ l.2) =
      ["notams"] ++ Text.split '/' l.1 ++ Text.split '/' l.2 := by
    rw [show "/" = String.singleton '/' from rfl, Text.split_append, Text.split_append, hnm]
  unfold splitProductFromTo
  rw [hsp]
  constructor
  · intro h
    obtain ⟨a, as, ha⟩ := exists_cons_of_ne_nil (Text.split_ne_nil '/' l.1)
    obtain ⟨b, bs, hb⟩ := exists_cons_of_ne_nil (Text.split_ne_nil '/' l.2)
    rw [ha, hb] at h
    -- three parts in all are one for each version
    obtain ⟨rfl, rfl⟩ : as = [] ∧ bs = [] := by
      match as, bs with
      | [], [] => exact ⟨rfl, rfl⟩
      | [], _ :: _ | [_], _ | _ :: _ :: _, _ => simp at h
    obtain rfl := Text.eq_of_split_eq_singleton ha
    obtain rfl := Text.eq_of_split_eq_singleton hb
    simp only [cons_append, nil_append] at h
    split at h
    · cases h
    · rename_i hnn
      simp only [hem, String.isEmpty_iff, Bool.false_eq_true, false_or, not_or] at hnn
      exact ⟨⟨⟨hnn.1, ha⟩, hnn.2, hb⟩, (Except.ok.inj h).symm⟩
  · rintro ⟨⟨⟨hf, ha⟩, hsc, hb⟩, rfl⟩
    rw [ha, hb]
    simp [String.isEmpty_iff, hf, hsc]

def loadPrepared (s : LiveFeedsState) (entry : LiveFeedProductState) (version : String) :
    LiveFeedsState :=
  let loaded := { entry with stateManifest := none, loadedVersion := some version }
  { s with products := (s.products.insert "notams" entry).insert "notams" loaded }

theorem splitProductVersion_notams (rid v : String) :
    splitProductVersion rid ("notams" ++ "/" ++ v) = .ok ("notams", v) := by
  rw [splitProductVersion, show "/" = String.singleton '/' from rfl,
    Text.splitOnce?_append (by decide)]

theorem versionResourceId_eq (p v : String) :
    versionResourceId p v = "live_feeds/version/" ++ (p ++ "/" ++ v) := by
  unfold versionResourceId
  simp [String.append_assoc]

theorem stateResourceId_eq (p v : String) :
    stateResourceId p v = "live_feeds/state/" ++ (p ++ "/" ++ v) := by
  unfold stateResourceId
  simp [String.append_assoc]

theorem deltaResourceId_eq (p fv tv : String) : deltaResourceId p fv tv =
      "live_feeds/delta/" ++ (p ++ "/" ++ fv ++ "/" ++ tv) := by
  unfold deltaResourceId
  simp [String.append_assoc]

theorem after?_state (f : Chain.Fetch String) :
    Text.after? "live_feeds/state/" (fetchId f) = match f with
      | .checkpoint v => some ("notams" ++ "/" ++ v)
      | .link _ => none := by
  cases f with
  | checkpoint v => rw [fetchId, stateResourceId_eq, Text.after?_append]
  | link l =>
    rw [fetchId, deltaResourceId_eq, Text.after?_append_of_ne _ _ _ (by decide) (by decide)]

theorem after?_delta (f : Chain.Fetch String) :
    Text.after? "live_feeds/delta/" (fetchId f) = match f with
      | .checkpoint _ => none
      | .link l => some ("notams" ++ "/" ++ l.1 ++ "/" ++ l.2) := by
  cases f with
  | checkpoint v =>
    rw [fetchId, stateResourceId_eq, Text.after?_append_of_ne _ _ _ (by decide) (by decide)]
  | link l => rw [fetchId, deltaResourceId_eq, Text.after?_append]

/-- The id of a manifest is none of a state or delta: its start is another one of the same length. -/
theorem after?_version (v : String) :
    Text.after? "live_feeds/state/" (versionResourceId "notams" v) = none ∧
      Text.after? "live_feeds/delta/" (versionResourceId "notams" v) = none := by
  have hct : versionResourceId "notams" v =
      "live_feeds/versio" ++ ("n/" ++ ("notams" ++ "/" ++ v)) := by
    rw [versionResourceId_eq, show "live_feeds/version/" = "live_feeds/versio" ++ "n/" by decide]
    exact String.append_assoc
  rw [hct]
  exact ⟨Text.after?_append_of_ne _ _ _ (by decide) (by decide),
    Text.after?_append_of_ne _ _ _ (by decide) (by decide)⟩

def isStateId (id : String) : Bool := (Text.after? "live_feeds/state/" id).isSome

def isDeltaId (id : String) : Bool := (Text.after? "live_feeds/delta/" id).isSome

theorem isStateId_fetchId (f : Chain.Fetch String) : isStateId (fetchId f) = f.isCheckpoint := by
  rw [isStateId, after?_state]
  cases f <;> rfl

theorem isDeltaId_fetchId (f : Chain.Fetch String) : isDeltaId (fetchId f) = !f.isCheckpoint := by
  rw [isDeltaId, after?_delta]
  cases f <;> rfl

theorem not_isStateId_version (v : String) : isStateId (versionResourceId "notams" v) = false := by
  rw [isStateId, (after?_version v).1]
  rfl

theorem not_isDeltaId_version (v : String) : isDeltaId (versionResourceId "notams" v) = false := by
  rw [isDeltaId, (after?_version v).2]
  rfl

theorem fetchId_ne_version (f : Chain.Fetch String) (v : String) :
    fetchId f ≠ versionResourceId "notams" v := by
  intro h
  have hst := isStateId_fetchId f
  have hd := isDeltaId_fetchId f
  rw [h, not_isStateId_version] at hst
  rw [h, not_isDeltaId_version, ← hst] at hd
  cases hd

variable {f : Chain.Fetch String}

theorem fetchId_injOn {g : Chain.Fetch String} (hf : Plain f) (hg : Plain g)
    (h : fetchId f = fetchId g) : f = g := by
  have hst := congrArg (Text.after? "live_feeds/state/") h
  have hd := congrArg (Text.after? "live_feeds/delta/") h
  rw [after?_state, after?_state] at hst
  rw [after?_delta, after?_delta] at hd
  match f, g with
  | .checkpoint x, .checkpoint y => rw [(String.append_right_inj _).1 (some.inj hst)]
  | .link l, .link m =>
    have hpr := congrArg (splitProductFromTo "") (some.inj hd)
    rw [split_link_id.2 ⟨hf, rfl⟩, split_link_id.2 ⟨hg, rfl⟩] at hpr
    simp only [Except.ok.injEq, Prod.mk.injEq, true_and] at hpr
    rw [Prod.ext hpr.1 hpr.2]

/-- The envelope has a payload of the NOTAMs, under this id. -/
structure Addressed (resourceId : String) (envelope : PreparedLiveFeedEnvelope) : Prop where
  schema : envelope.schemaVersion = 1
  resource : envelope.resourceId = resourceId
  product : envelope.payload.product = envelope.product
  notams : envelope.product = "notams"

section Ingest

variable {resourceId : String} {envelope : PreparedLiveFeedEnvelope} {version : String}

theorem run_entryOrDefault_bind {α : Type} {f : LiveFeedProductState → FeedM α} {p : String}
    (he : s.products[p]? = some en) : (entryOrDefault p >>= f).run s =
      (f en).run { s with products := s.products.insert p en } := by
  have hlk : s.products[p]?.getD .empty = en := by simp [he]
  rw [← hlk]
  rfl

theorem run_ingestPreparedState (he : s.products["notams"]? = some en) :
    (ingestPreparedState env resourceId envelope ("notams" ++ "/" ++ version)).run s = .ok () s₁ ↔
      envelope.product = "notams" ∧
        checkPreparedNotamCheckpoint env resourceId envelope version en = .ok () ∧
        s₁ = loadPrepared s en version := by
  unfold ingestPreparedState
  simp only [run_attempt_bind_eq_ok, splitProductVersion_notams, Except.ok.injEq, exists_eq_left',
    rejectIf_eq_ok, not_not, Unique.exists_iff, run_entryOrDefault_bind he, if_true]
  refine and_congr eq_comm (and_congr_right fun _ => ?_)
  exact ⟨fun h => (EStateM.Result.ok.inj h).2.symm, fun h => h ▸ rfl⟩

theorem run_ingestPreparedDelta (he : s.products["notams"]? = some en) :
    (ingestPreparedDelta env resourceId envelope
        ("notams" ++ "/" ++ l.1 ++ "/" ++ l.2)).run s = .ok () s₁ ↔
      Plain (.link l) ∧ envelope.product = "notams" ∧
        checkPreparedDelta env resourceId envelope "notams" l.1 l.2 en = .ok () ∧
        s₁ = loadPrepared s en l.2 := by
  have hsp : supportsLiveFeedDelta "notams" = true := by decide
  unfold ingestPreparedDelta
  simp only [run_attempt_bind_eq_ok, split_link_id, and_assoc, exists_and_left, exists_eq_left,
    rejectIf_eq_ok, not_or, not_not, hsp, Bool.true_eq_false, not_false_eq_true, true_and,
    Unique.exists_iff, run_entryOrDefault_bind he, true_or, if_true]
  refine and_congr_right fun _ => and_congr eq_comm (and_congr_right fun _ => ?_)
  exact ⟨fun h => (EStateM.Result.ok.inj h).2.symm, fun h => h ▸ rfl⟩

def checkFetch (env : FeedEnv) (envelope : PreparedLiveFeedEnvelope)
    (entry : LiveFeedProductState) (fetch : Chain.Fetch String) : Except String Unit :=
  match fetch with
  | .checkpoint version =>
    checkPreparedNotamCheckpoint env (fetchId fetch) envelope version entry
  | .link link => checkPreparedDelta env (fetchId fetch) envelope "notams" link.1 link.2 entry

theorem run_ingestPreparedLiveFeed (he : s.products["notams"]? = some en) :
    (ingestPreparedLiveFeed env (fetchId f) envelope).run s = .ok () s₁ ↔
      Addressed (fetchId f) envelope ∧ Plain f ∧
        checkFetch env envelope en f = .ok () ∧ s₁ = loadPrepared s en f.arrival := by
  have had : Addressed (fetchId f) envelope ↔ envelope.schemaVersion = 1 ∧
      envelope.resourceId = fetchId f ∧ envelope.payload.product = envelope.product ∧
      envelope.product = "notams" :=
    ⟨fun h => ⟨h.1, h.2, h.3, h.4⟩, fun h => ⟨h.1, h.2.1, h.2.2.1, h.2.2.2⟩⟩
  unfold ingestPreparedLiveFeed
  rw [had, after?_state, after?_delta]
  simp only [run_attempt_bind_eq_ok, rejectIf_eq_ok, not_not, exists_const, and_assoc]
  refine and_congr_right fun _ => and_congr_right fun _ => and_congr_right fun _ => ?_
  cases f with
  | checkpoint v => simp only [run_ingestPreparedState he, Plain, true_and]; rfl
  | link l =>
    simp only [run_ingestPreparedDelta he]
    exact and_left_comm

end Ingest

theorem loadPrepared_entry (s : LiveFeedsState) (e : LiveFeedProductState) (v : String) :
    (loadPrepared s e v).products["notams"]? =
      some { e with stateManifest := none, loadedVersion := some v } := by
  simp [loadPrepared]

theorem Holds.load (hh : en.Holds man) (v : String) :
    { en with stateManifest := none, loadedVersion := some v }.Holds man :=
  ⟨hh.current, hh.known, hh.state, hh.deltas, hh.latest⟩

/-- A session fetches what it asks for and takes it in: the manifest as it is, checkpoints and deltas
as they come from the preparation. The ids are those of the resources, in their order. -/
inductive CatchUp (env : FeedEnv) (manifest : VersionManifest) :
    LiveFeedsState → List String → LiveFeedsState → Prop
  | done (s : LiveFeedsState) : CatchUp env manifest s [] s
  | version {s s₁ s₂ : LiveFeedsState} {request : CoreResourceRequest} {bytes : Bytes}
    {ids : List String} (hasks : request ∈ missingResourcesForProducts s ["notams"])
    (hid : request.id = versionResourceId "notams" manifest.version)
    (hbytes : decodeExact env env.readVersionManifest "live-feed version manifest" bytes
      liveFeedsSchemaVersion = .ok manifest)
    (hingest : (ingestResource env request.id bytes).run s = .ok () s₁)
    (hrest : CatchUp env manifest s₁ ids s₂) : CatchUp env manifest s (request.id :: ids) s₂
  | prepared {s s₁ s₂ : LiveFeedsState} {request : CoreResourceRequest}
    {envelope : PreparedLiveFeedEnvelope} {ids : List String}
    (hasks : request ∈ missingResourcesForProducts s ["notams"])
    (hingest : (ingestPreparedLiveFeed env request.id envelope).run s = .ok () s₁)
    (hrest : CatchUp env manifest s₁ ids s₂) : CatchUp env manifest s (request.id :: ids) s₂

variable {ids : List String}

theorem follows_of_catchUp {e : LiveFeedProductState} (hrt : Retained man)
    (he : s.products["notams"]? = some e) (hh : e.Holds man) (h : CatchUp env man s ids s₂) :
    ∃ fs e', Chain.Follows man.retained e.loadedVersion fs e'.loadedVersion ∧
      ids = fs.map fetchId ∧ (∀ ft ∈ fs, Plain ft) ∧
      s₂.products["notams"]? = some e' ∧ e'.Holds man := by
  induction h generalizing e with
  | done s => exact ⟨[], e, .nil _, rfl, by simp, he, hh⟩
  | @version s _ _ req _ _ has hid =>
    have hm := List.mem_map_of_mem (f := (·.id)) has
    rw [missing_ids hrt he hh, hid] at hm
    obtain ⟨ft, -, heq⟩ := List.mem_map.1 hm
    exact absurd heq (fetchId_ne_version ft _)
  | @prepared s s₁ _ req el ids has hin hr ih =>
    have hm := List.mem_map_of_mem (f := (·.id)) has
    rw [missing_ids hrt he hh] at hm
    obtain ⟨ft, hft, hid⟩ := List.mem_map.1 hm
    rw [← hid, run_ingestPreparedLiveFeed he] at hin
    obtain ⟨-, hpn, -, rfl⟩ := hin
    obtain ⟨fs, e', hfl, rfl, hpl, he', hh'⟩ :=
      ih (loadPrepared_entry s e ft.arrival) (Holds.load hh ft.arrival)
    refine ⟨ft :: fs, e', .cons (mem_toList.1 hft) hfl, by simp [hid], ?_, he', hh'⟩
    intro f hf
    rcases mem_cons.1 hf with rfl | hf
    · exact hpn
    · exact hpl f hf

/-- The manifest is accepted as the one of the current version; the session knows it or can ask for
it. -/
structure Awaits (manifest : VersionManifest) (s : LiveFeedsState) (entry : LiveFeedProductState) :
    Prop where
  accepted : validateNotamVersionManifest manifest manifest.version = .ok ()
  found : s.products["notams"]? = some entry
  current : entry.currentVersion = some manifest.version
  manifest : entry.versionManifest = none ∧ entry.versionManifestUrl.isSome ∨ entry.Holds manifest

theorem holds_of_ingestResource {bs : Bytes} (he : s.products["notams"]? = some en)
    (hcr : en.currentVersion = some man.version)
    (hb : decodeExact env env.readVersionManifest "live-feed version manifest" bs
      liveFeedsSchemaVersion = .ok man)
    (h : (ingestResource env (versionResourceId "notams" man.version) bs).run s = .ok () s₁) :
    s₁.products["notams"]? = some (en.withManifest "notams" man) := by
  have haf : Text.after? "live_feeds/version/" (versionResourceId "notams" man.version) =
      some ("notams" ++ "/" ++ man.version) := by
    rw [versionResourceId_eq, Text.after?_append]
  unfold ingestResource at h
  rw [haf] at h
  obtain ⟨n, hnm, h⟩ := run_attempt_bind_eq_ok.1 h
  rw [splitProductVersion_notams] at hnm
  obtain rfl := Except.ok.inj hnm
  obtain ⟨d, hdc, h⟩ := run_attempt_bind_eq_ok.1 h
  obtain rfl : man = d := Except.ok.inj (hb.symm.trans hdc)
  obtain ⟨_, -, h⟩ := run_attempt_bind_eq_ok.1 h
  obtain ⟨_, _, hg, h⟩ := run_bind_eq_ok.1 h
  injection hg with hs hs'
  subst hs hs'
  obtain ⟨_, -, h⟩ := run_attempt_bind_eq_ok.1 h
  rw [run_entryOrDefault_bind he, if_pos hcr] at h
  injection h with _ hs₁
  rw [← hs₁]
  simp

theorem Holds.withManifest (hcr : en.currentVersion = some man.version) :
    (en.withManifest "notams" man).Holds man :=
  ⟨hcr, rfl, rfl, rfl, rfl⟩

theorem missing_manifest (he : s.products["notams"]? = some en)
    (hcr : en.currentVersion = some man.version)
    (hm : en.versionManifest = none) (hu : en.versionManifestUrl.isSome) :
    (missingResourcesForProducts s ["notams"]).map (·.id) =
      [versionResourceId "notams" man.version] := by
  obtain ⟨url, hu⟩ := isSome_iff_exists.1 hu
  rw [missingResourcesForProducts_notams]
  simp [missingProductResources, he, hcr, hm, hu, publicLiveFeedResource]

theorem ingestPreparedLiveFeed_version {e : PreparedLiveFeedEnvelope} {v : String} :
    ¬ (ingestPreparedLiveFeed env (versionResourceId "notams" v) e).run s = .ok () s₁ := by
  obtain ⟨hst, hd⟩ := after?_version v
  unfold ingestPreparedLiveFeed
  rw [hst, hd]
  simp only [run_attempt_bind_eq_ok, not_exists, not_and]
  exact fun _ _ _ _ _ _ => nofun

/-- What a session fetches: the manifest if it does not know it, then what a follower asks for. -/
theorem fetches_of_catchUp (hs : Awaits man s en)
    (h : CatchUp env man s ids s₂) : (ids = [] ∧ s₂ = s) ∨ ∃ a fs e', ids = a ++ fs.map fetchId ∧
      (a = [] ∨ a = [versionResourceId "notams" man.version]) ∧
      Chain.Follows man.retained en.loadedVersion fs e'.loadedVersion ∧
      (∀ ft ∈ fs, Plain ft) ∧ s₂.products["notams"]? = some e' ∧ e'.Holds man := by
  have hrt := retained_of_accepted hs.accepted
  rcases hs.manifest with ⟨hmn, hu⟩ | hh
  · have his := missing_manifest hs.found hs.current hmn hu
    cases h with
    | done => exact .inl ⟨rfl, rfl⟩
    | @version _ s₁ _ req bs ids has hid hb hin hr =>
      rw [hid] at hin
      have he := holds_of_ingestResource hs.found hs.current hb hin
      obtain ⟨fs, e', hfl, rfl, hpl, he', hh'⟩ :=
        follows_of_catchUp hrt he (Holds.withManifest hs.current) hr
      exact .inr ⟨[req.id], fs, e', rfl, .inr (by rw [hid]), hfl, hpl, he', hh'⟩
    | @prepared _ s₁ _ req e ids has hin hr =>
      have hm := List.mem_map_of_mem (f := (·.id)) has
      rw [his, mem_singleton] at hm
      have hid : req.id = versionResourceId "notams" man.version := hm
      rw [hid] at hin
      exact absurd hin ingestPreparedLiveFeed_version
  · obtain ⟨fs, e', hfl, rfl, hpl, he', hh'⟩ := follows_of_catchUp hrt hs.found hh h
    exact .inr ⟨[], fs, e', rfl, .inl rfl, hfl, hpl, he', hh'⟩

/-- A session has asked for no resource twice, for at most one checkpoint and no more deltas than the
manifest retains, and when nothing more is missing, it has loaded the current version. -/
structure SessionCaughtUp (manifest : VersionManifest) (ids : List String) (s : LiveFeedsState) :
    Prop where
  distinct : ids.Nodup
  checkpoints : ids.countP isStateId ≤ 1
  deltas : ids.countP isDeltaId ≤ manifest.recentDeltas.length
  length : ids.length ≤ manifest.recentDeltas.length + 2
  finished : ∃ entry, s.products["notams"]? = some entry ∧
    entry.currentVersion = some manifest.version ∧
    (missingResourcesForProducts s ["notams"] = [] → entry.loadedVersion = some manifest.version)

theorem current_of_nothing_missing (hr : Retained man)
    (he : s.products["notams"]? = some en) (hh : en.Holds man)
    (hn : missingResourcesForProducts s ["notams"] = []) : en.loadedVersion = some man.version := by
  have his := missing_ids hr he hh
  rw [hn, map_nil, eq_comm, map_eq_nil_iff, toList_eq_nil_iff] at his
  exact Chain.ask_eq_none.1 his

theorem session_of_clear (hs : Awaits man s en)
    (hcl : Chain.Clear man.retained en.loadedVersion)
    (h : CatchUp env man s ids s₂) : SessionCaughtUp man ids s₂ := by
  have hr := retained_of_accepted hs.accepted
  have hln : man.retained.links.length = man.recentDeltas.length := by
    simp [VersionManifest.retained]
  obtain ⟨st, hjn⟩ := hr.joined
  rcases fetches_of_catchUp hs h with ⟨rfl, rfl⟩ |
    ⟨asked, fetches, entry', rfl, had, hfl, hpl, he', hh'⟩
  · refine ⟨nodup_nil, by simp, by simp, by simp, en, hs.found, hs.current, fun hn => ?_⟩
    rcases hs.manifest with ⟨hm, hu⟩ | hh
    · have his := missing_manifest hs.found hs.current hm hu
      rw [hn] at his
      exact absurd his (by simp)
    · exact current_of_nothing_missing hr hs.found hh hn
  · obtain ⟨his, hst, hdl, hl⟩ := hfl.requests hjn hr.checkpoint hcl
      (fun f hf g hg => fetchId_injOn (hpl f hf) (hpl g hg)) isStateId_fetchId
      isDeltaId_fetchId (had.imp_right
        (⟨·, not_isStateId_version man.version, not_isDeltaId_version man.version⟩))
    rw [hln] at hdl hl
    exact ⟨his, hst, hdl, hl, entry', he', hh'.current, current_of_nothing_missing hr he' hh'⟩

def PlainVersions (manifest : VersionManifest) : Prop :=
  ∀ delta ∈ manifest.recentDeltas, IsPart delta.fromVersion ∧ IsPart delta.toVersion

instance (manifest : VersionManifest) : Decidable (PlainVersions manifest) :=
  inferInstanceAs (Decidable (∀ delta ∈ _, _))

/-- The envelope of a NOTAM resource, with a payload that has no records. -/
def envelopeFor (fetch : Chain.Fetch String) (fromStateSha256 stateSha256 blobSha256 : String) :
    PreparedLiveFeedEnvelope where
  schemaVersion := 1
  resourceId := fetchId fetch
  product := "notams"
  version := fetch.arrival
  stateSha256 := stateSha256
  fromVersion := match fetch with
    | .checkpoint _ => none
    | .link link => some link.1
  fromStateSha256 := some fromStateSha256
  deltaBlobSha256 := some blobSha256
  payload := .notams (match fetch with
    | .checkpoint version => .installDisplayCheckpoint ⟨5, version, []⟩
    | .link link => .applyDisplayDelta ⟨5, link.1, link.2, []⟩)

theorem exists_checkFetch (env : FeedEnv) (hr : Retained man)
    (hh : en.Holds man)
    (h : Chain.ask man.retained en.loadedVersion = some f) :
    ∃ e, Addressed (fetchId f) e ∧ checkFetch env e en f = .ok () := by
  unfold Chain.ask at h
  split at h
  · exact absurd h (by simp)
  · split at h
    · rename_i l hln
      obtain ⟨v, hld, hln⟩ := bind_eq_some_iff.1 hln
      obtain rfl := some.inj h
      rw [leaving_retained] at hln
      obtain ⟨dl, hd, rfl⟩ := map_eq_some_iff.1 hln
      obtain rfl : dl.fromVersion = v := by simpa using find?_some hd
      -- the first retained delta between these versions is the one that is compared with
      have hsm : (man.recentDeltas.find? fun d =>
          decide (d.fromVersion = dl.fromVersion ∧ d.toVersion = dl.toVersion)).isSome := by
        rw [find?_isSome]
        exact ⟨dl, mem_of_find?_eq_some hd, by simp⟩
      obtain ⟨fn, hfd⟩ := isSome_iff_exists.1 hsm
      have hnm : fn.fromVersion = dl.fromVersion ∧ fn.toVersion = dl.toVersion := by
        simpa using find?_some hfd
      have hnt : en.notamDelta dl.fromVersion dl.toVersion = some fn := by
        rw [LiveFeedProductState.notamDelta, hh.deltas, hh.latest]
        exact (find?_orElse_latest hr _).trans hfd
      refine ⟨envelopeFor (.link dl.link) fn.fromStateSha256 fn.toStateSha256 fn.blobSha256,
        ⟨rfl, rfl, rfl, rfl⟩, ?_⟩
      simp [checkFetch, checkPreparedDelta, hld, DeltaRef.link, hnt, hnm, envelopeFor,
        Chain.Fetch.arrival, PreparedLiveFeedPayload.versionLabel, Except.rejectIf]
    · obtain rfl := some.inj h
      refine ⟨envelopeFor (.checkpoint man.state.stateSha256) "" man.state.stateSha256
        man.state.blobSha256, ⟨rfl, rfl, rfl, rfl⟩, ?_⟩
      simp [checkFetch, checkPreparedNotamCheckpoint, hh.state, VersionManifest.retained,
        envelopeFor, Chain.Fetch.arrival, PreparedLiveFeedPayload.versionLabel, Except.rejectIf]

variable {pos : Option String}

theorem plain_of_ask (hpl : PlainVersions man)
    (h : Chain.ask man.retained pos = some f) : Plain f := by
  unfold Chain.ask at h
  split at h
  · exact absurd h (by simp)
  · split at h
    · rename_i l hln
      obtain ⟨v, -, hln⟩ := bind_eq_some_iff.1 hln
      obtain rfl := some.inj h
      rw [leaving_retained] at hln
      obtain ⟨d, hd, rfl⟩ := map_eq_some_iff.1 hln
      exact hpl d (mem_of_find?_eq_some hd)
    · obtain rfl := some.inj h
      trivial

/-- Whatever a follower of the retained chain asks for, a session can fetch. -/
theorem exists_catchUp {e : LiveFeedProductState} (hrt : Retained man) (hpl : PlainVersions man)
    {fs : List (Chain.Fetch String)} {pos' : Option String}
    (h : Chain.Follows man.retained pos fs pos')
    (he : s.products["notams"]? = some e) (hh : e.Holds man)
    (hp : e.loadedVersion = pos) : ∃ s₂, CatchUp env man s (fs.map fetchId) s₂ := by
  induction h generalizing s e with
  | nil => exact ⟨s, .done s⟩
  | @cons pos pos' f fs hs hr ih =>
    subst hp
    obtain ⟨el, had, hch⟩ := exists_checkFetch env hrt hh hs
    have hrn := (run_ingestPreparedLiveFeed he).2 ⟨had, plain_of_ask hpl hs, hch, rfl⟩
    obtain ⟨s₂, hs₂⟩ := ih (loadPrepared_entry s e f.arrival) (Holds.load hh f.arrival) rfl
    have his := missing_ids hrt he hh
    rw [hs] at his
    obtain ⟨req, hrq, hid⟩ := List.mem_map.1 (his ▸ mem_singleton_self (fetchId f) :
        fetchId f ∈ (missingResourcesForProducts s ["notams"]).map (·.id))
    rw [map_cons, ← hid]
    rw [← hid] at hrn
    exact ⟨s₂, .prepared hrq hrn hs₂⟩

end CatchUp

end Aerobag.LiveFeed
