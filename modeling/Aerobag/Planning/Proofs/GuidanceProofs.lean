import Aerobag.Planning.Proofs.DetailProofs
import Aerobag.Planning.Proofs.EditProofs

/-!
# Guidance stays on the route

`Tracks` relates the fields of a guidance state to each other and to the legs. Every operation keeps
it, except an edit while guidance flies direct to a row.
-/

open List Option Except

namespace Aerobag.Planning

variable {pl res o : FlightPlan} {gd : GuidanceState} {legIndex : Nat}

/-- If the route has legs, the active leg is one of them, and the active element is one of that leg. -/
def OnRoute (plan : FlightPlan) (legIndex : Nat) (detailIndex : Option Nat) : Prop :=
  plan.resolvedLegs ≠ [] → legIndex < plan.resolvedLegs.length ∧
    ∀ detail, detailIndex = some detail → Belongs plan legIndex detail

/-- The mode says what guidance does. -/
structure ModeFits (guidance : GuidanceState) : Prop where
  directTo : guidance.sequencingMode = .directTo ↔ guidance.directTo.isSome
  suspended : guidance.sequencingMode = .suspended → guidance.suspendReason.isSome

/-- Guidance is on the route, and its mode fits. -/
structure Tracks (plan : FlightPlan) (guidance : GuidanceState) : Prop extends ModeFits guidance where
  position : OnRoute plan guidance.activeLegIndex guidance.activeDetailIndex

/-- A plan whose guidance tracks its route. -/
structure Flown (plan : FlightPlan) : Prop where
  legs : plan.normalized.resolvedLegs = plan.resolvedLegs
  tracks : ∀ guidance, plan.guidance = some guidance → Tracks plan guidance

theorem Belongs.congr (h : pl.resolvedLegs = o.resolvedLegs) {di : Nat}
    (hbl : Belongs pl legIndex di) : Belongs o legIndex di := by
  have hrf : guidanceDetailRefs pl = guidanceDetailRefs o := by
    rw [guidanceDetailRefs, guidanceDetailRefs, h]
  obtain ⟨d, hd, hlg⟩ := hbl
  refine ⟨d, ?_, hlg⟩
  rw [guidanceDetailRefByIndex, ← hrf]
  exact hd

theorem OnRoute.congr (h : pl.resolvedLegs = o.resolvedLegs) {di : Option Nat}
    (hr : OnRoute pl legIndex di) : OnRoute o legIndex di := by
  intro hne
  rw [← h] at hne
  obtain ⟨hlt, hd⟩ := hr hne
  exact ⟨h ▸ hlt, fun d heq => (hd d heq).congr h⟩

theorem Tracks.congr (h : pl.resolvedLegs = o.resolvedLegs) (ht : Tracks pl gd) : Tracks o gd :=
  ⟨ht.toModeFits, ht.position.congr h⟩

/-- The legs of a normalized plan stay as they are, whatever guidance the plan gets. -/
theorem legs_of_normalized (p : FlightPlan) (hcm : res.routeComponents = p.routeComponents)
    (hlg : res.resolvedLegs = p.normalized.resolvedLegs) :
    res.normalized.resolvedLegs = res.resolvedLegs := by
  rw [normalized_resolvedLegs, hcm, hlg, normalized_resolvedLegs]
  by_cases hem : p.resolvedLegs.isEmpty = true
  · simp [hem]
  · simp [hem]

theorem Flown.normalized (h : Flown pl) : Flown pl.normalized :=
  ⟨legs_of_normalized pl normalized_routeComponents rfl, fun g hgd =>
    (h.tracks g hgd).congr h.legs.symm⟩

theorem flown_setGuidance {new : Option GuidanceState}
    (h : ∀ g, new = some g → Tracks pl.normalized g) : Flown (pl.normalized.setGuidance new) :=
  ⟨legs_of_normalized pl normalized_routeComponents setGuidance_resolvedLegs,
    fun g hgd => (h g hgd).congr setGuidance_resolvedLegs.symm⟩

theorem flown_of_pure (h : (pure (pl.normalized.withGuidance gd) : AppResult FlightPlan) = .ok res)
    (ht : Tracks pl.normalized gd) : Flown res :=
  pure_eq_ok.1 h ▸ flown_setGuidance fun _ hn => some.inj hn ▸ ht

theorem onRoute_first (h : legIndex < pl.resolvedLegs.length) :
    OnRoute pl legIndex (firstGuidanceDetailIndexForLeg pl legIndex) :=
  fun _ => ⟨h, fun _ => belongs_of_first⟩

theorem tracks_activatedDetail {di : Option Nat} (h : OnRoute pl legIndex di) :
    Tracks pl (guidanceStateForActivatedDetail pl legIndex di) := by
  refine ⟨⟨?_, ?_⟩, h⟩
  · simp only [guidanceStateForActivatedDetail]
    split <;> simp
  · simp only [guidanceStateForActivatedDetail]
    split <;> simp

theorem tracks_activatedLeg (h : legIndex < pl.resolvedLegs.length) :
    Tracks pl (guidanceStateForActivatedLeg pl legIndex) :=
  tracks_activatedDetail (onRoute_first h)

theorem Tracks.resumed (h : Tracks pl gd) : Tracks pl gd.resumed :=
  ⟨⟨by simp [GuidanceState.resumed], by simp [GuidanceState.resumed]⟩, h.position⟩

theorem tracks_suspendedFor {r : SuspendReason}
    (h : OnRoute pl gd.activeLegIndex gd.activeDetailIndex) : Tracks pl (gd.suspendedFor r) :=
  ⟨⟨by simp [GuidanceState.suspendedFor], by simp [GuidanceState.suspendedFor]⟩, h⟩

/-- Direct-to guidance stays on the leg of its target, or on the one it was on. -/
theorem tracks_directToGuidance {tli : Option Nat} {dt : DirectToState}
    (hp : ∀ g, pl.guidance = some g → Tracks pl g)
    (ht : ∀ li, tli = some li → li < pl.resolvedLegs.length) :
    Tracks pl (directToGuidance pl tli dt) := by
  refine ⟨⟨by simp [directToGuidance], by simp [directToGuidance]⟩, fun hne => ?_⟩
  cases tli with
  | some li => exact onRoute_first (ht li rfl) hne
  | none =>
    cases hgd : pl.guidance with
    | some g => simpa [directToGuidance, hgd] using ((hp g hgd).position hne).1
    | none => simpa [directToGuidance, hgd] using length_pos_iff.2 hne

section Operations

variable (hp : Flown pl) {legIndex : Nat} {directTo : DirectToState}

include hp

theorem flown_activateDirectTo {fp : LatLon} {tg : NavRef}
    (h : activateDirectTo pl fp tg = .ok res) : Flown res := by
  obtain ⟨ts, htr, h⟩ := bind_eq_ok.1 h
  obtain rfl := pure_eq_ok.1 h
  refine flown_of_pure rfl (tracks_directToGuidance hp.normalized.tracks ?_)
  intro li ht
  obtain ⟨p, hpl, hlg⟩ := bind_eq_some_iff.1 ht
  have hm : p ∈ ts := by
    split at hpl
    · obtain rfl := some.inj hpl
      exact mem_singleton_self _
    · cases hpl
  obtain ⟨row, hr, hpl⟩ := exists_of_mapM_eq_ok htr p hm
  obtain ⟨r, -, hpl⟩ := bind_eq_ok.1 hpl
  obtain rfl := pure_eq_ok.1 hpl
  exact projectIdentityRows_legIndex_lt (mem_of_mem_filter hr) hlg

theorem flown_activateDirectToRow {fp : LatLon} {tri : String}
    (h : activateDirectToRow pl fp tri = .ok res) : Flown res := by
  obtain ⟨⟨tg, p⟩, ht, h⟩ := bind_eq_ok.1 h
  obtain rfl := pure_eq_ok.1 h
  refine flown_of_pure rfl (tracks_directToGuidance hp.normalized.tracks ?_)
  intro li hlg
  rw [plannedDirectToTargetForRowId] at ht
  split at ht
  · cases ht
  · rename_i row hr
    split at ht
    · cases ht
    · split at ht
      · cases ht
      · obtain ⟨r, -, ht⟩ := bind_eq_ok.1 ht
        obtain ⟨rfl, rfl⟩ := ht
        exact projectIdentityRows_legIndex_lt (mem_of_find?_eq_some hr) hlg

theorem flown_restoreDirectTo (h : restoreDirectTo pl = .ok res) : Flown res := by
  simp only [restoreDirectTo] at h
  split at h
  · obtain rfl := pure_eq_ok.1 h
    exact hp.normalized
  · split at h
    · obtain rfl := pure_eq_ok.1 h
      exact hp.normalized
    · split at h
      · rename_i hem
        refine flown_of_pure h ⟨⟨by simp, by simp⟩, fun hne => ?_⟩
        exact absurd (List.isEmpty_iff.1 hem) hne
      · rename_i hne
        refine flown_of_pure h (tracks_activatedLeg ?_)
        have hps : 0 < pl.normalized.resolvedLegs.length :=
          length_pos_iff.2 fun hnl => hne (List.isEmpty_iff.2 hnl)
        omega

omit hp in
theorem flown_activateLeg (h : activateLeg pl legIndex = .ok res) : Flown res := by
  simp only [activateLeg] at h
  split at h
  · cases h
  · exact flown_of_pure h (tracks_activatedLeg (by omega))

omit hp in
theorem flown_activateLegAtDetailIndex {di : Nat}
    (h : activateLegAtDetailIndex pl legIndex di = .ok res) : Flown res := by
  simp only [activateLegAtDetailIndex] at h
  split at h
  · cases h
  · rename_i d hd
    split at h
    · cases h
    · rename_i how
      have hbl : Belongs pl.normalized legIndex di := ⟨d, hd, Classical.not_not.1 how⟩
      refine flown_of_pure h (tracks_activatedDetail fun _ => ⟨hbl.lt, ?_⟩)
      intro f hfd
      exact some.inj hfd ▸ hbl

omit hp in
theorem flown_activateNextLeg (h : activateNextLeg pl = .ok res) : Flown res := by
  simp only [activateNextLeg] at h
  split at h
  · cases h
  · split at h
    · rename_i hlt
      exact flown_of_pure h (tracks_activatedLeg hlt)
    · cases h

omit hp in
theorem flown_stopNavigation (h : stopNavigation pl = .ok res) : Flown res := by
  simp only [stopNavigation] at h
  split at h
  · cases h
  · obtain rfl := pure_eq_ok.1 h
    exact flown_setGuidance (by simp)

theorem flown_suspendSequencing (h : suspendSequencing pl = .ok res) : Flown res := by
  simp only [suspendSequencing] at h
  split at h
  · cases h
  · rename_i g hgd
    exact flown_of_pure h (tracks_suspendedFor (hp.normalized.tracks g hgd).position)

theorem flown_unsuspendSequencing (h : unsuspendSequencing pl = .ok res) : Flown res := by
  simp only [unsuspendSequencing] at h
  split at h
  · cases h
  · rename_i g hgd
    have ht := hp.normalized.tracks g hgd
    split at h
    · cases h
    · split at h
      · exact flown_of_pure h ht.resumed
      · split at h
        · exact flown_activateNextLeg h
        · exact flown_of_pure h ht.resumed

theorem flown_toggleSequencingSuspension (h : toggleSequencingSuspension pl = .ok res) :
    Flown res := by
  simp only [toggleSequencingSuspension] at h
  split at h
  · cases h
  · split at h
    · exact flown_unsuspendSequencing hp h
    · exact flown_suspendSequencing hp h

omit hp in
theorem directToResumeLegIndex_lt (h : directToResumeLegIndex pl directTo = some legIndex) :
    legIndex < pl.resolvedLegs.length := by
  obtain ⟨ri, -, h⟩ := bind_eq_some_iff.1 h
  obtain ⟨row, hr, h⟩ := bind_eq_some_iff.1 h
  exact projectIdentityRows_legIndex_lt (mem_of_find?_eq_some hr) h

omit hp in
theorem directToTargetLegIndex_lt (h : directToTargetLegIndex pl directTo = some legIndex) :
    legIndex < pl.resolvedLegs.length := by
  obtain ⟨row, hr, h⟩ := bind_eq_some_iff.1 h
  rw [directToTargetRow] at hr
  split at hr
  · cases hr
  · exact projectIdentityRows_legIndex_lt (mem_of_find?_eq_some hr) h

omit hp in
/-- When a direct-to ends, guidance goes on with a leg of the route. -/
theorem tracks_guidanceAfterDirectTo (h : Tracks pl gd) :
    Tracks pl (guidanceAfterDirectTo pl gd directTo) := by
  simp only [guidanceAfterDirectTo]
  split
  · rename_i li hrs
    exact tracks_activatedLeg (directToResumeLegIndex_lt (filter_eq_some_iff.1 hrs).1)
  · refine ⟨⟨by simp, by simp⟩, ?_⟩
    cases ht : directToTargetLegIndex pl directTo with
    | some li =>
      have hlt := directToTargetLegIndex_lt ht
      obtain ⟨first, hf⟩ := exists_first hlt
      have hr := onRoute_first hlt
      simpa [hf] using hr
    | none => simpa using h.position

theorem belongs_requireDetail {d : GuidanceDetailRef} (hgd : pl.guidance = some gd)
    (hne : pl.resolvedLegs ≠ []) (h : requireDetail pl (gd.detailOrFirst pl) = .ok d) :
    d.legIndex = gd.activeLegIndex ∧ Belongs pl gd.activeLegIndex d.detailIndex := by
  obtain ⟨hlt, hd⟩ := (hp.tracks gd hgd).position hne
  have hbl : Belongs pl gd.activeLegIndex (gd.detailOrFirst pl) := by
    rw [GuidanceState.detailOrFirst]
    cases hac : gd.activeDetailIndex with
    | some a => exact hd a hac
    | none =>
      obtain ⟨first, hf⟩ := exists_first hlt
      simpa [hf] using belongs_of_first hf
  obtain ⟨f, hfd, hlg⟩ := hbl
  rw [requireDetail, hfd] at h
  obtain rfl := pure_eq_ok.1 h
  have hm := mem_of_find?_eq_some hfd
  exact ⟨hlg, f, guidanceDetailRefByIndex_of_mem hm, hlg⟩

theorem flown_sequenceActiveLeg (h : sequenceActiveLeg pl = .ok res) : Flown res := by
  have hp := hp.normalized
  simp only [sequenceActiveLeg] at h
  split at h
  · cases h
  · rename_i gd hgd
    have ht := hp.tracks gd hgd
    split at h
    · split at h
      · cases h
      · exact flown_of_pure h (tracks_guidanceAfterDirectTo ht)
    · split at h
      · cases h
      · rename_i hne
        obtain ⟨d, hd, h⟩ := bind_eq_ok.1 h
        have hr : OnRoute pl.normalized gd.activeLegIndex (some d.detailIndex) := by
          intro hlg
          refine ⟨(ht.position hlg).1, fun active hac => ?_⟩
          exact some.inj hac ▸ (belongs_requireDetail hp hgd hlg hd).2
        split at h
        · exact flown_of_pure h (tracks_suspendedFor hr)
        · split at h
          · rename_i hlt
            exact flown_of_pure h (tracks_activatedLeg hlt)
          · exact flown_of_pure h (tracks_suspendedFor hr)
    · exact flown_of_pure h ht

theorem flown_sequenceAfterTerminalHold (hgd : pl.guidance = some gd)
    (h : sequenceAfterTerminalHold pl.normalized gd = .ok res) : Flown res := by
  rw [sequenceAfterTerminalHold] at h
  split at h
  · rename_i next hnx
    obtain rfl := pure_eq_ok.1 h
    exact flown_activateNextLeg hnx
  · split at h
    · exact flown_of_pure h (tracks_suspendedFor (hp.normalized.tracks gd hgd).position)
    · cases h

theorem flown_sequenceActiveDetail (h : sequenceActiveDetail pl = .ok res) : Flown res := by
  have hnr := hp.normalized
  simp only [sequenceActiveDetail] at h
  split at h
  · cases h
  · rename_i g hgd
    have ht := hnr.tracks g hgd
    split at h
    · exact flown_sequenceActiveLeg hnr h
    · obtain ⟨d, hd, h⟩ := bind_eq_ok.1 h
      split at h
      · split at h
        · exact flown_sequenceAfterTerminalHold hp hgd h
        · exact flown_sequenceActiveLeg hnr h
      · rename_i hnx
        have hr : OnRoute pl.normalized g.activeLegIndex (some (d.detailIndex + 1)) := by
          intro hlg
          refine ⟨(ht.position hlg).1, fun a hac => ?_⟩
          obtain rfl := some.inj hac
          cases hfn : guidanceDetailRefByIndex pl.normalized (d.detailIndex + 1) with
          | none => simp [hfn] at hnx
          | some next => exact ⟨next, hfn, by simpa [hfn] using hnx⟩
        split at h
        · exact flown_of_pure h (tracks_suspendedFor hr)
        · exact flown_of_pure h (tracks_activatedDetail hr)

end Operations

def fliesToPlannedRow (plan : FlightPlan) : Bool :=
  plan.guidance.any fun guidance => guidance.directTo.any (·.targetRow.isPlanned)

theorem modeFits_revalidateActiveDetail (p : FlightPlan) (h : ModeFits gd) :
    ModeFits (revalidateActiveDetail p gd) :=
  ⟨h.directTo, h.suspended⟩

/-- After an edit the active element is one of the active leg again. -/
theorem onRoute_revalidateActiveDetail (g : GuidanceState) (hne : pl.resolvedLegs ≠ []) :
    OnRoute pl (revalidateActiveDetail pl g).activeLegIndex
      (revalidateActiveDetail pl g).activeDetailIndex := by
  intro _
  have hps : 0 < pl.resolvedLegs.length := length_pos_iff.2 hne
  have hlt : min g.activeLegIndex (pl.resolvedLegs.length - 1) < pl.resolvedLegs.length := by omega
  refine ⟨hlt, fun d hd => ?_⟩
  have hlg := getElem?_eq_getElem hlt
  simp only [revalidateActiveDetail, hlg, map_some, getD_some] at hd ⊢
  split at hd
  · rename_i hv
    simp only [hd, any_some, Bool.and_eq_true, decide_eq_true_eq] at hv
    obtain ⟨e, rfl⟩ := Nat.exists_eq_add_of_le hv.1
    exact belongs_of_offset hlg (by omega)
  · obtain rfl := some.inj hd
    exact belongs_of_offset hlg (elementCount_pos _)

theorem tracks_revalidateDirectTo {dt : DirectToState} (hmd : ModeFits gd)
    (hr : OnRoute pl gd.activeLegIndex gd.activeDetailIndex)
    (hd : gd.directTo = some dt) (htm : dt.targetRow.isPlanned = false)
    {a : GuidanceState} (h : revalidateDirectTo pl gd dt = .ok a) : Tracks pl a := by
  have hro : directToTargetRow pl dt = none := by
    rw [directToTargetRow]
    split
    · rfl
    · rename_i hpl
      simp [hpl, DirectToTargetRow.isPlanned] at htm
  have hmd' : gd.sequencingMode = .directTo := hmd.directTo.2 (by simp [hd])
  simp only [revalidateDirectTo, hro, htm] at h
  obtain rfl := pure_eq_ok.1 h
  exact ⟨⟨by simp [hmd'], by simp [hmd']⟩, hr⟩

theorem tracks_revalidateGuidanceAfterPlanEdit {g : GuidanceState} {b : Option GuidanceState}
    (hmd : ∀ g, b = some g → ModeFits g) (htm : ∀ g dt, b = some g → g.directTo = some dt →
      dt.targetRow.isPlanned = false) (h : revalidateGuidanceAfterPlanEdit b pl = .ok (some g)) :
    Tracks pl g := by
  unfold revalidateGuidanceAfterPlanEdit at h
  split at h
  · cases h
  · rename_i hem
    have hne : pl.resolvedLegs ≠ [] := fun hnl => hem (List.isEmpty_iff.2 hnl)
    split at h
    · cases h
    · rename_i old
      have hmd := modeFits_revalidateActiveDetail pl (hmd old rfl)
      have hr := onRoute_revalidateActiveDetail old hne
      dsimp only at h
      split at h
      · obtain rfl := some.inj (pure_eq_ok.1 h)
        exact ⟨hmd, hr⟩
      · rename_i dt hd
        obtain ⟨a, haf, h⟩ := bind_eq_ok.1 h
        obtain rfl := some.inj (pure_eq_ok.1 h)
        exact tracks_revalidateDirectTo hmd hr hd (htm old dt rfl hd) haf

theorem tracks_restoreGuidanceFromRowUidAnchor {anc : ActiveGuidanceAnchor}
    (hmd : ModeFits anc.guidance) (hd : anc.guidance.sequencingMode ≠ .directTo)
    (h : restoreGuidanceFromRowUidAnchor pl anc = .ok (some gd)) : Tracks pl gd := by
  rw [restoreGuidanceFromRowUidAnchor] at h
  split at h
  · cases h
  · split at h
    · cases h
    · rename_i li hfn
      have hcn : ModeFits (candidateGuidance pl anc li) :=
        ⟨by simpa [candidateGuidance] using hd, hmd.suspended⟩
      refine (tracks_revalidateGuidanceAfterPlanEdit ?_ ?_ h).congr setGuidance_resolvedLegs
      · intro old hl
        exact some.inj hl ▸ hcn
      · intro old dt hl hsm
        obtain rfl := some.inj hl
        cases hsm

/-- Guidance that is carried over to an edited plan tracks its route. -/
theorem tracks_carryGuidance {op : FlightPlan} (hp : Flown pl)
    (hr : fliesToPlannedRow pl = false) (hl : op.guidance = pl.guidance)
    (h : carryGuidance op res = .ok (some gd)) : Tracks res gd := by
  have hmd : ∀ old, op.guidance = some old → ModeFits old :=
    fun old h => (hp.tracks old (hl.symm.trans h)).toModeFits
  rw [carryGuidance] at h
  split at h
  · rename_i anc han
    obtain ⟨old, hgd, han⟩ := bind_eq_some_iff.1 han
    split at han
    · cases han
    · rename_i hd
      obtain rfl := some.inj han
      exact tracks_restoreGuidanceFromRowUidAnchor (hmd old hgd) hd h
  · refine tracks_revalidateGuidanceAfterPlanEdit hmd ?_ h
    intro old dt hgd hd
    simpa [fliesToPlannedRow, ← hl, hgd, hd] using hr

section Edits

variable {G : Geodesy} {ed : Edit} (hp : Flown pl) (hrow : fliesToPlannedRow pl = false)
include hp hrow

theorem flown_edit (h : ed.apply G pl = .ok res) : Flown res := by
  rcases Edit.rebuilds_of_apply h with ⟨i, -, rfl⟩ | ⟨n, rb, p, -, hr⟩
  · exact hp.normalized
  · obtain ⟨r, hrt, g, hgd, rfl⟩ := rebuildPlanFromUidComponents_eq_ok.1 hr
    obtain ⟨-, -, -, -, rfl⟩ := rebuildRoute_eq_ok.1 hrt
    refine flown_setGuidance fun new hn => ?_
    rw [hn] at hgd
    cases p with
    | clear => cases hgd
    | preserveByRowUid => exact tracks_carryGuidance hp hrow (by simp) hgd

theorem flown_restore {hid : FlightPlan}
    (h : restoreFlightPlanDefinition pl hid = .ok res) : Flown res := by
  obtain ⟨g, hgd, h⟩ := bind_eq_ok.1 h
  obtain rfl := pure_eq_ok.1 h
  rw [setGuidance_setGuidance]
  refine flown_setGuidance fun new hn => ?_
  rw [hn] at hgd
  exact (tracks_carryGuidance hp hrow (by simp) hgd).congr setGuidance_resolvedLegs

end Edits

/-- No change of the route while guidance flies direct to one of its rows. -/
def Operation.SparesDirectTo (plan : FlightPlan) (operation : Operation) : Prop :=
  operation.changesRoute = true → fliesToPlannedRow plan = false

instance (plan : FlightPlan) (operation : Operation) : Decidable (operation.SparesDirectTo plan) :=
  inferInstanceAs (Decidable (_ → _))

/-- One step, by its operation. -/
theorem flown_step {G : Geodesy} {op : Operation} (hp : Flown pl)
    (hsp : op.SparesDirectTo pl) (h : step G pl op = some res) : Flown res := by
  have h := toOption_eq_some.1 h
  cases op with
  | activateDirectTo fp tg => exact flown_activateDirectTo hp h
  | activateDirectToRow fp ri => exact flown_activateDirectToRow hp h
  | restoreDirectTo => exact flown_restoreDirectTo hp h
  | activateLeg li => exact flown_activateLeg h
  | activateLegAtDetailIndex li di => exact flown_activateLegAtDetailIndex h
  | activateNextLeg => exact flown_activateNextLeg h
  | suspendSequencing => exact flown_suspendSequencing hp h
  | unsuspendSequencing => exact flown_unsuspendSequencing hp h
  | toggleSequencingSuspension => exact flown_toggleSequencingSuspension hp h
  | sequenceActiveLeg => exact flown_sequenceActiveLeg hp h
  | sequenceActiveDetail => exact flown_sequenceActiveDetail hp h
  | stopNavigation => exact flown_stopNavigation h
  | edit change => exact flown_edit hp (hsp rfl) h
  | restore hid => exact flown_restore hp (hsp rfl) h

/-- In every run from an accepted plan without guidance in which the route is not changed while
guidance flies direct to one of its rows, guidance is on a leg of the route and on an element of that
leg, and its mode says what it does. -/
theorem guidance_tracks_route {plan : FlightPlan}
    {G : Geodesy} {stored built : FlightPlan} {operations : List Operation}
    (hstored : stored.guidance = none) (hbuilt : buildFlightPlan G stored = .ok built)
    (hrun : Run.exec (step G) built operations = some plan)
    (hspares : Run.Steps (step G) (fun plan operation => operation.SparesDirectTo plan) built
      operations) :
    ∀ guidance, plan.guidance = some guidance → plan.resolvedLegs ≠ [] →
      guidance.activeLegIndex < plan.resolvedLegs.length ∧
      (∀ detailIndex, guidance.activeDetailIndex = some detailIndex →
        ∃ detail, guidanceDetailRefByIndex plan detailIndex = some detail ∧
          detail.legIndex = guidance.activeLegIndex) ∧
      (guidance.sequencingMode = .directTo ↔ guidance.directTo.isSome) ∧
      (guidance.sequencingMode = .suspended → guidance.suspendReason.isSome) := by
  have hfl : Flown built := by
    obtain ⟨rfl, -⟩ := buildFlightPlan_eq_ok hbuilt
    refine ⟨legs_of_normalized stored normalized_routeComponents rfl, fun guidance hgd => ?_⟩
    rw [normalized_guidance, hstored] at hgd
    cases hgd
  have hp : Flown plan :=
    Run.exec_inv_of_steps Flown (fun hst hspares hp => flown_step hp hspares hst) hfl hrun hspares
  intro guidance hgd hlg
  have ht := hp.tracks guidance hgd
  obtain ⟨hlt, hd⟩ := ht.position hlg
  exact ⟨hlt, hd, ht.directTo, ht.suspended⟩

def origin : LatLon := ⟨⟨0⟩, ⟨0⟩⟩

/-- The active leg is moved by the insertion before it, and its element with it. -/
theorem fixes_guidance_tracks_route : ∃ built plan guidance detailIndex,
    buildFlightPlan flatGeodesy fixes = .ok built ∧
      Run.exec (step flatGeodesy) built
        [.activateLeg 1, .edit (.insertWaypoint 1 true (.fix "X")), .suspendSequencing] = some plan ∧
      plan.guidance = some guidance ∧ guidance.activeDetailIndex = some detailIndex ∧
      guidance.sequencingMode = .suspended ∧
      guidance.activeLegIndex < plan.resolvedLegs.length ∧
      (∃ detail, guidanceDetailRefByIndex plan detailIndex = some detail ∧
        detail.legIndex = guidance.activeLegIndex) ∧
      (guidance.sequencingMode = .directTo ↔ guidance.directTo.isSome) ∧
      guidance.suspendReason.isSome := by
  refine ⟨?_, ?_, ?_, ?_, ?built, ?run, ?guidance, ?detail, ?mode,
    (guidance_tracks_route rfl ?built ?run ?spares _ ?guidance ?legs).imp_right fun h =>
      ⟨h.1 _ ?detail, h.2.1, h.2.2 ?mode⟩⟩
  case built => rfl
  case run => rfl
  case guidance => rfl
  case detail => rfl
  case mode => rfl
  case spares => decide +kernel
  case legs => exact cons_ne_nil _ _

/-- A waypoint is inserted before B while guidance flies direct to C: the active leg becomes the one
to C, the active element stays that of the leg to B. -/
theorem insertion_leaves_active_element : ∃ built plan guidance,
    buildFlightPlan flatGeodesy fixes = .ok built ∧
      Run.exec (step flatGeodesy) built
        [.activateDirectTo origin (.fix "C"), .edit (.insertWaypoint 1 true (.fix "X"))] =
        some plan ∧
      plan.guidance = some guidance ∧ guidance.activeLegIndex = 2 ∧
      guidance.activeDetailIndex = some 1 ∧
      (guidanceDetailRefByIndex plan 1).map (·.legIndex) = some 1 :=
  ⟨_, _, _, rfl, rfl, rfl, rfl, rfl, rfl⟩

end Aerobag.Planning
