import Aerobag.Planning.Proofs.RouteProofs

/-!
# Elements and row legs

The elements that guidance flies are numbered through the legs of a plan: `mem_guidanceDetailRefs`
says which number an element has. The legs that rows point to are legs of the plan.
-/

open List Option

namespace Aerobag.Planning

variable {pl : FlightPlan} {leg : ResolvedLeg} {elementIndex legIndex detailIndex ci oc : Nat}
  {dt : GuidanceDetailRef} {row : DisplayRow}

theorem elementCount_pos (leg : ResolvedLeg) : 0 < leg.elementCount := by
  rw [ResolvedLeg.elementCount]
  split <;> simp

/-- The number of elements before a leg. -/
def detailOffset (plan : FlightPlan) (legIndex : Nat) : Nat :=
  ((plan.resolvedLegs.take legIndex).map (·.elementCount)).sum

/-- The elements of all legs in order, each with its leg and its place there. -/
def legElements (first : Nat) (legs : List ResolvedLeg) : List (Nat × String × Nat) :=
  (legs.zipIdx first).flatMap fun (leg, legIndex) =>
    (List.range leg.elementCount).map fun elementIndex => (legIndex, leg.id, elementIndex)

variable {ls : List ResolvedLeg}

/-- Where an element of a leg stands. -/
theorem getElem?_legElements (first : Nat) {i : Nat}
    (hlg : ls[i]? = some leg) (he : elementIndex < leg.elementCount) :
    (legElements first ls)[((ls.take i).map (·.elementCount)).sum + elementIndex]? =
      some (first + i, leg.id, elementIndex) := by
  induction ls generalizing first i with
  | nil => simp at hlg
  | cons h ls ih =>
    rw [legElements, zipIdx_cons, flatMap_cons]
    cases i with
    | zero =>
      obtain rfl : h = leg := by simpa using hlg
      rw [getElem?_append_left (by simpa using he)]
      simp [he]
    | succ i =>
      have htl : ls[i]? = some leg := by simpa using hlg
      have hr := ih (first + 1) htl
      rw [getElem?_append_right (by simp; omega)]
      simp only [take_succ_cons, map_cons, sum_cons, length_map, length_range]
      rw [show h.elementCount + ((ls.take i).map (·.elementCount)).sum + elementIndex -
        h.elementCount = ((ls.take i).map (·.elementCount)).sum + elementIndex by omega]
      rw [show first + (i + 1) = first + 1 + i by omega]
      exact hr

/-- What stands at a place is an element of the leg that is named there. -/
theorem of_getElem?_legElements {first p : Nat} {li : String}
    (h : (legElements first ls)[p]? = some (legIndex, li, elementIndex)) :
    ∃ i leg, legIndex = first + i ∧ ls[i]? = some leg ∧ elementIndex < leg.elementCount ∧
      p = ((ls.take i).map (·.elementCount)).sum + elementIndex := by
  induction ls generalizing first p with
  | nil => simp [legElements] at h
  | cons hd ls ih =>
    rw [legElements, zipIdx_cons, flatMap_cons] at h
    by_cases hp : p < hd.elementCount
    · rw [getElem?_append_left (by simpa using hp)] at h
      obtain ⟨rfl, -, rfl⟩ : first = legIndex ∧ hd.id = li ∧ p = elementIndex := by
        simpa [hp] using h
      exact ⟨0, hd, rfl, rfl, hp, by simp⟩
    · rw [getElem?_append_right (by simpa using hp)] at h
      simp only [length_map, length_range] at h
      obtain ⟨i, leg, rfl, hlg, he, hr⟩ := ih h
      refine ⟨i + 1, leg, by omega, hlg, he, ?_⟩
      simp only [take_succ_cons, map_cons, sum_cons]
      omega

/-- The detail references are the elements of the legs, numbered. -/
theorem getElem?_guidanceDetailRefs :
    (guidanceDetailRefs pl)[detailIndex]? = (legElements 0 pl.resolvedLegs)[detailIndex]?.map
      fun (legIndex, legId, elementIndex) => { detailIndex, legIndex, legId, elementIndex } := by
  rw [guidanceDetailRefs, getElem?_map, getElem?_zipIdx, Option.map_map]
  congr 1
  funext element
  simp

theorem getElem?_of_mem_guidanceDetailRefs (h : dt ∈ guidanceDetailRefs pl) :
    (guidanceDetailRefs pl)[dt.detailIndex]? = some dt := by
  obtain ⟨i, hix⟩ := getElem?_of_mem h
  have hnm := hix
  rw [getElem?_guidanceDetailRefs, map_eq_some_iff] at hnm
  obtain ⟨e, -, rfl⟩ := hnm
  exact hix

theorem mem_guidanceDetailRefs (hlg : pl.resolvedLegs[legIndex]? = some leg)
    (he : elementIndex < leg.elementCount) :
    { detailIndex := detailOffset pl legIndex + elementIndex
      legIndex
      legId := leg.id
      elementIndex } ∈ guidanceDetailRefs pl := by
  refine mem_of_getElem? (i := detailOffset pl legIndex + elementIndex) ?_
  rw [getElem?_guidanceDetailRefs, detailOffset, getElem?_legElements 0 hlg he]
  simp

/-- A reference names a leg of the route and an element of it. -/
theorem of_mem_guidanceDetailRefs (h : dt ∈ guidanceDetailRefs pl) :
    ∃ leg, pl.resolvedLegs[dt.legIndex]? = some leg ∧ dt.elementIndex < leg.elementCount ∧
      dt.detailIndex = detailOffset pl dt.legIndex + dt.elementIndex := by
  have hg := getElem?_of_mem_guidanceDetailRefs h
  rw [getElem?_guidanceDetailRefs, map_eq_some_iff] at hg
  obtain ⟨⟨li, lid, ei⟩, he, hd⟩ := hg
  obtain ⟨i, leg, hix, hlg, hlt, hp⟩ := of_getElem?_legElements he
  obtain rfl : i = li := by omega
  rw [← hd]
  exact ⟨leg, hlg, hlt, hp⟩

theorem legIndex_lt_of_mem (h : dt ∈ guidanceDetailRefs pl) :
    dt.legIndex < pl.resolvedLegs.length := by
  obtain ⟨leg, hlg, -⟩ := of_mem_guidanceDetailRefs h
  exact (List.getElem?_eq_some_iff.1 hlg).1

/-- A reference is found by its index. -/
theorem guidanceDetailRefByIndex_of_mem (h : dt ∈ guidanceDetailRefs pl) :
    guidanceDetailRefByIndex pl dt.detailIndex = some dt := by
  cases hfn : guidanceDetailRefByIndex pl dt.detailIndex with
  | none =>
    have hn := find?_eq_none.1 hfn dt h
    simp at hn
  | some f =>
    have hnm : f.detailIndex = dt.detailIndex := by simpa using find?_some hfn
    have hfd := getElem?_of_mem_guidanceDetailRefs (mem_of_find?_eq_some hfn)
    rw [hnm, getElem?_of_mem_guidanceDetailRefs h] at hfd
    exact hfd.symm

/-- The detail with this index is an element of the leg. -/
def Belongs (plan : FlightPlan) (legIndex detailIndex : Nat) : Prop :=
  ∃ detail, guidanceDetailRefByIndex plan detailIndex = some detail ∧ detail.legIndex = legIndex

theorem Belongs.of_find {p : GuidanceDetailRef → Bool}
    (hp : ∀ d, p d = true → d.legIndex = legIndex)
    (h : ((guidanceDetailRefs pl).find? p).map (·.detailIndex) = some detailIndex) :
    Belongs pl legIndex detailIndex := by
  obtain ⟨d, hfn, rfl⟩ := map_eq_some_iff.1 h
  exact ⟨d, guidanceDetailRefByIndex_of_mem (mem_of_find?_eq_some hfn), hp d (find?_some hfn)⟩

/-- The first detail of a leg belongs to it. -/
theorem belongs_of_first (h : firstGuidanceDetailIndexForLeg pl legIndex = some detailIndex) :
    Belongs pl legIndex detailIndex :=
  .of_find (fun d hd => by simpa using hd) h

theorem Belongs.lt (h : Belongs pl legIndex detailIndex) : legIndex < pl.resolvedLegs.length := by
  obtain ⟨d, hfn, rfl⟩ := h
  exact legIndex_lt_of_mem (mem_of_find?_eq_some hfn)

/-- Each element of a leg belongs to it. -/
theorem belongs_of_offset (hlg : pl.resolvedLegs[legIndex]? = some leg)
    (he : elementIndex < leg.elementCount) :
    Belongs pl legIndex (detailOffset pl legIndex + elementIndex) :=
  ⟨_, guidanceDetailRefByIndex_of_mem (mem_guidanceDetailRefs hlg he), rfl⟩

/-- Every leg has a first detail. -/
theorem exists_first (h : legIndex < pl.resolvedLegs.length) :
    ∃ di, firstGuidanceDetailIndexForLeg pl legIndex = some di := by
  have hm := mem_guidanceDetailRefs (getElem?_eq_getElem h) (elementCount_pos _)
  cases hfn : (guidanceDetailRefs pl).find? (·.legIndex == legIndex) with
  | none =>
    have hn := find?_eq_none.1 hfn _ hm
    simp at hn
  | some d => exact ⟨d.detailIndex, by rw [firstGuidanceDetailIndexForLeg, hfn]; rfl⟩

theorem lt_of_mem_zipIdx_filter {p : ResolvedLeg × Nat → Bool} {i : ResolvedLeg × Nat}
    (h : i ∈ pl.resolvedLegs.zipIdx.filter p) : i.2 < pl.resolvedLegs.length :=
  snd_lt_of_mem_zipIdx (mem_of_mem_filter h)

theorem topLevelWaypointRowLegIndex_lt (h : topLevelWaypointRowLegIndex pl ci = some legIndex) :
    legIndex < pl.resolvedLegs.length := by
  rw [topLevelWaypointRowLegIndex] at h
  split at h
  · split at h
    · cases h
    · exact (findIdx?_eq_some_iff_findIdx_eq.1 h).1
  · cases h

theorem childWaypointRowLegIndex_lt {ii : Nat} {nr : NavRef}
    (h : childWaypointRowLegIndex pl ci ii oc nr = some legIndex) :
    legIndex < pl.resolvedLegs.length := by
  simp only [childWaypointRowLegIndex] at h
  split at h
  · obtain ⟨i, hm, rfl⟩ := List.mem_map.1 (mem_of_getElem? h)
    exact lt_of_mem_zipIdx_filter hm
  · obtain ⟨first, hf, h⟩ := bind_eq_some_iff.1 h
    obtain ⟨hpr, -⟩ := filter_eq_some_iff.1 h
    have hlt := (findIdx?_eq_some_iff_findIdx_eq.1 hf).1
    rw [checkedSub_eq_some] at hpr
    omega

theorem vectorDiscontinuityRowLegIndex_lt
    (h : vectorDiscontinuityRowLegIndex pl ci oc = some legIndex) :
    legIndex < pl.resolvedLegs.length := by
  obtain ⟨i, hg, rfl⟩ := map_eq_some_iff.1 h
  exact lt_of_mem_zipIdx_filter (mem_of_getElem? (filter_eq_some_iff.1 hg).1)

theorem lastGuidanceLegIndexForComponent_lt
    (h : lastGuidanceLegIndexForComponent pl ci = some legIndex) :
    legIndex < pl.resolvedLegs.length := by
  obtain ⟨i, hl, rfl⟩ := map_eq_some_iff.1 h
  exact lt_of_mem_zipIdx_filter (mem_of_getLast? hl)

variable {its : List ConcretizedNavItem} {cu : String}

theorem childRows_legIndex_lt {o : Nat} {k : RouteComponentViewKind}
    {ws vs : Nat} {ks : List String}
    (hrow : row ∈ childRows pl ci cu k o ws vs ks its)
    (h : row.legIndex = some legIndex) : legIndex < pl.resolvedLegs.length := by
  induction its generalizing o ws vs ks with
  | nil => simp [childRows] at hrow
  | cons i its ih =>
    cases i with
    | waypoint nr =>
      rcases mem_cons.1 hrow with rfl | hrow
      · exact childWaypointRowLegIndex_lt h
      · exact ih hrow
    | discontinuity d l =>
      rcases mem_cons.1 hrow with rfl | hrow
      · cases d with
        | vectors => exact vectorDiscontinuityRowLegIndex_lt h
        | hold => exact lastGuidanceLegIndexForComponent_lt h
        | other l => cases h
      · exact ih hrow

/-- The rows of a component name legs of the route. -/
theorem componentRows_legIndex_lt {c : RouteComponent}
    (hrow : row ∈ componentRows pl ci c cu its)
    (h : row.legIndex = some legIndex) : legIndex < pl.resolvedLegs.length := by
  cases c with
  | waypoint w =>
    obtain rfl := mem_singleton.1 hrow
    exact topLevelWaypointRowLegIndex_lt h
  | airway a =>
    rcases mem_cons.1 hrow with rfl | hrow
    · cases h
    · exact childRows_legIndex_lt hrow h
  | procedure p =>
    rcases mem_cons.1 hrow with rfl | hrow
    · cases h
    · exact childRows_legIndex_lt hrow h

theorem directToOverlayRow_legIndex (h : row ∈ directToOverlayRow pl) : row.legIndex = none := by
  rw [directToOverlayRow] at h
  split at h
  · split at h
    · cases h
    · rw [mem_singleton.1 h]
  · cases h

/-- Every row that names a leg names one of the route. -/
theorem projectIdentityRows_legIndex_lt (hrow : row ∈ projectIdentityRows pl)
    (h : row.legIndex = some legIndex) : legIndex < pl.resolvedLegs.length := by
  rcases mem_append.1 hrow with hrow | hrow
  · obtain ⟨⟨c, i⟩, -, hrow⟩ := mem_flatMap.1 hrow
    exact componentRows_legIndex_lt hrow h
  · rw [directToOverlayRow_legIndex hrow] at h
    cases h

end Aerobag.Planning
