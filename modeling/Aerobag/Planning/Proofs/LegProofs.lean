import Aerobag.Planning.Proofs.RouteProofs

/-!
# The legs of a rebuilt route

A rebuilt route has the legs of its airways and procedures, with bridges between them
(`rebuildResolvedLegs_cons`). The legs that a component has made are those that were handed in for it.
-/

open List Option

namespace Aerobag.Planning

variable {rb : List RebuiltRouteComponent}

/-- The leg was made up to join two components. -/
def ResolvedLeg.isBridge (leg : ResolvedLeg) : Bool :=
  match leg.source with
  | .syntheticBridge _ _ => true
  | .routeComponent _ => false

variable {leg : ResolvedLeg}

theorem isBridge_of_mem_syntheticBridgeIfNeeded {num tg : Nat}
    {p : Option (Nat × NavRef)} {nr : NavRef}
    (h : leg ∈ syntheticBridgeIfNeeded num p tg nr) : leg.isBridge = true := by
  unfold syntheticBridgeIfNeeded at h
  split at h
  · cases h
  · split at h
    · cases h
    · rw [mem_singleton.1 h]
      rfl

theorem rebuildResolvedLegs_cons (n : Nat) (p : Option (Nat × NavRef)) (i : Nat)
    (c : RouteComponent) (ls : Option (List ResolvedLeg))
    (r : List (RouteComponent × Option (List ResolvedLeg))) :
    ∃ bs n' ps', (∀ leg ∈ bs, leg.isBridge = true) ∧ rebuildResolvedLegs n p i ((c, ls) :: r) =
        bs ++ ls.getD [] ++ rebuildResolvedLegs n' ps' (i + 1) r := by
  rw [rebuildResolvedLegs.eq_def]
  dsimp only
  split
  · refine ⟨_, _, _, fun leg hlg => ?_, rfl⟩
    split at hlg
    · cases hlg
    · exact isBridge_of_mem_syntheticBridgeIfNeeded hlg
  · rename_i hls
    have hnl : ls.getD [] = [] := by
      cases ls with
      | none => rfl
      | some own =>
        cases own with
        | nil => rfl
        | cons first m => exact absurd rfl (hls first m)
    rw [hnl]
    cases c with
    | waypoint w =>
      simp only [append_nil]
      split_ifs
      · exact ⟨[], n, p, by simp, rfl⟩
      · exact ⟨_, _, _, fun leg => isBridge_of_mem_syntheticBridgeIfNeeded, rfl⟩
    | airway a => exact ⟨[], n, p, by simp, rfl⟩
    | procedure pc => exact ⟨[], n, _, by simp, rfl⟩

variable {i : Nat}

theorem not_ofComponent_of_isBridge (h : leg.isBridge = true) :
    leg.ofComponent i = false := by
  rw [ResolvedLeg.isBridge] at h
  split at h
  · rename_i hsr
    simp [ResolvedLeg.ofComponent, hsr]
  · cases h

/-- The legs that a component has made are those that it was rebuilt with. -/
theorem filter_ofComponent_rebuildResolvedLegs (num ix : Nat) (pr : Option (Nat × NavRef))
    {cs : List (RouteComponent × Option (List ResolvedLeg))}
    (hsr : ∀ (i : Nat) (c : RouteComponent) (ls : List ResolvedLeg), cs[i]? = some (c, some ls) →
      ∀ leg ∈ ls, leg.source = .routeComponent (ix + i)) (p : Nat) :
    (rebuildResolvedLegs num pr ix cs).filter (·.ofComponent p) =
      if ix ≤ p then (cs[p - ix]?.bind (·.2)).getD [] else [] := by
  induction cs generalizing num ix pr with
  | nil => simp [rebuildResolvedLegs]
  | cons h r ih =>
    obtain ⟨c, ls⟩ := h
    obtain ⟨bs, num', p', hbr, heq⟩ := rebuildResolvedLegs_cons num pr ix c ls r
    have hr := ih num' (ix + 1) p' fun i c ls hg leg hlg => by
      rw [hsr (i + 1) c ls (by simpa using hg) leg hlg]
      congr 1
      omega
    have hn : bs.filter (·.ofComponent p) = [] :=
      filter_eq_nil_iff.2 fun leg hlg => by simp [not_ofComponent_of_isBridge (hbr leg hlg)]
    have hof : ∀ leg ∈ ls.getD [], leg.ofComponent p = decide (ix = p) := by
      intro leg hlg
      cases ls with
      | none => cases hlg
      | some ls =>
        rw [ResolvedLeg.ofComponent, hsr 0 c ls rfl leg hlg, Bool.eq_iff_iff]
        simp
    rw [heq, filter_append, filter_append, hn, hr, filter_congr hof]
    by_cases hpc : ix = p
    · subst hpc
      simp
    · by_cases hle : ix ≤ p
      · obtain ⟨k, rfl⟩ := Nat.exists_eq_add_of_lt (lt_of_le_of_ne hle hpc)
        rw [if_pos hle, show ix + k + 1 - ix = k + 1 by omega]
        simp [hpc]
      · simp [hpc, hle, show ¬ ix + 1 ≤ p by omega]

theorem getElem?_zip_materializedLegs (i : Nat) :
    ((rb.map (·.component)).zip (materializedLegs rb))[i]? = rb[i]?.map fun c =>
      (c.component, c.preservedLegs.map (rewriteGroupedLegsSource · i)) := by
  rw [List.zip, getElem?_zipWith, materializedLegs, getElem?_map, getElem?_map, getElem?_zipIdx]
  cases rb[i]? with
  | none => rfl
  | some c => simp

/-- The legs that were given with the component at an index. -/
def givenLegs (rebuilt : List RebuiltRouteComponent) (index : Nat) : List ResolvedLeg :=
  rewriteGroupedLegsSource ((rebuilt[index]?.bind (·.preservedLegs)).getD []) index

/-- The legs of a component are the ones that were given with it. -/
theorem filter_ofComponent_rebuiltLegs (ix : Nat) :
    (rebuiltLegs rb).filter (·.ofComponent ix) = givenLegs rb ix := by
  rw [rebuiltLegs, rebuildResolvedLegsWithGroupedComponents, filter_ofComponent_rebuildResolvedLegs]
  · rw [Nat.sub_zero, getElem?_zip_materializedLegs, givenLegs]
    cases rb[ix]? with
    | none => rfl
    | some c =>
      rw [map_some, bind_some, bind_some]
      cases c.preservedLegs with
      | none => rfl
      | some ls => rfl
  · intro i c ls hg leg hlg
    rw [getElem?_zip_materializedLegs, map_eq_some_iff] at hg
    obtain ⟨g, -, heq⟩ := hg
    obtain ⟨own, -, rfl⟩ := map_eq_some_iff.1 (Prod.mk.inj heq).2
    obtain ⟨old, -, rfl⟩ := List.mem_map.1 hlg
    rw [Nat.zero_add]

end Aerobag.Planning
