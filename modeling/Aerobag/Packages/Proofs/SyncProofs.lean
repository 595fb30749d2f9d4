import Aerobag.Packages.Proofs.PlanProofs

/-!
# Synchronization of the packages

A plan is executed and the next one made from the files then installed. After one round nothing is
left to fetch; the second removes what the first had to keep.
-/

namespace Aerobag.Packages

variable {input : PackageManagementInput} {pkg : BundlePackageArtifact} {f id : String}

/-- Every fetched package is installed under the name that the bundle gives it, and the collected files
are removed. A file that has just been fetched is not removed. -/
def PackageManagementInput.execute (input : PackageManagementInput) : PackageManagementInput :=
  let plan := planOfflinePackages input
  { input with
    installed := input.installed.filter (·.filename ∉ plan.gc) ++
      (input.packages.filter (·.id ∈ plan.fetch)).map fun pkg => ⟨pkg.id, pkg.filename⟩ }

/-- The selected package can be installed: it may be fetched, or is there. -/
def Obtained (input : PackageManagementInput) (pkg : BundlePackageArtifact) : Prop :=
  pkg.Supported ∧ artifactPolicy input pkg.artifact = .desired ∧
    (pkg.filename ∉ input.suppressedFetchFilenames ∨ IsInstalled input pkg.id pkg.filename)

/-- The file stays for the package: it is the selected package, or a paused one, or an expired one that
no package can take the place of. -/
def Stays (input : PackageManagementInput) (pkg : BundlePackageArtifact) (filename : String) : Prop :=
  filename = pkg.filename ∧ (Obtained input pkg ∨ pkg.Supported ∧
    artifactPolicy input pkg.artifact = .protectedByPause ∧ IsInstalled input pkg.id filename) ∨
  pkg.Supported ∧ Stale input pkg.artifact filename ∧
    ∀ other ∈ input.packages, Obtained input other →
      other.filename ≠ filename ∧ artifactSlot other.artifact ≠ artifactSlot pkg.artifact

section Rounds

variable (hids : (input.packages.map (·.id)).Nodup)
  (hfiles : (input.packages.map (·.filename)).Nodup) (hforced : input.forcedGcInstalledFilenames = [])

theorem find?_kept (xs : List InstalledArtifact) (gc : List String) :
    (xs.filter (·.filename ∉ gc)).reverse.find? (·.filename = f) =
      if f ∈ gc then none else xs.reverse.find? (·.filename = f) := by
  rw [← List.filter_reverse, List.find?_filter]
  split_ifs with hgc
  · rw [List.find?_eq_none]
    rintro x - h
    simp only [decide_eq_true_eq] at h
    exact h.1 (h.2 ▸ hgc)
  · refine congrArg (List.find? · _) (funext fun x => ?_)
    by_cases hx : x.filename = f <;> simp [hx, hgc]

include hfiles hforced in
/-- What is installed after a plan was executed. -/
theorem installed_execute : IsInstalled input.execute id f ↔
    (∃ pkg ∈ input.packages, pkg.id ∈ (planOfflinePackages input).fetch ∧ pkg.id = id ∧
      pkg.filename = f) ∨
    (∀ pkg ∈ input.packages, pkg.id ∈ (planOfflinePackages input).fetch → pkg.filename ≠ f) ∧
      f ∉ (planOfflinePackages input).gc ∧ IsInstalled input id f := by
  simp only [IsInstalled, installedByFilename, PackageManagementInput.execute, hforced,
    List.not_mem_nil, not_false_eq_true, true_and, Std.ExtTreeMap.getElem?_insertAll,
    List.reverse_append, List.find?_append, find?_kept]
  generalize hx : List.find? _ (List.reverse (List.map _ _)) = found
  cases found with
  | none =>
    have hno : ∀ pkg ∈ input.packages, pkg.id ∈ (planOfflinePackages input).fetch →
        pkg.filename ≠ f := by
      intro pkg hm hft hf
      simp only [List.find?_eq_none, List.mem_reverse, List.mem_map, List.mem_filter] at hx
      exact hx _ ⟨pkg, ⟨hm, decide_eq_true hft⟩, rfl⟩ (decide_eq_true hf)
    rw [or_iff_right (by
      rintro ⟨pkg, hm, hft, -, hf⟩
      exact hno pkg hm hft hf), and_iff_right hno]
    by_cases hgc : f ∈ (planOfflinePackages input).gc <;> simp [hgc]
  | some x =>
    have hm := List.mem_of_find?_eq_some hx
    have hf : x.filename = f := by simpa using List.find?_some hx
    rw [List.mem_reverse, List.mem_map] at hm
    obtain ⟨pkg, hm, rfl⟩ := hm
    obtain ⟨hm, hft⟩ := List.mem_filter.1 hm
    rw [or_iff_left fun h => h.1 pkg hm (of_decide_eq_true hft) hf]
    simp only [Option.some_or, Option.map_some, Option.some.injEq]
    refine ⟨fun h => ⟨pkg, hm, of_decide_eq_true hft, h, hf⟩, ?_⟩
    rintro ⟨o, ho, -, rfl, hof⟩
    rw [List.inj_on_of_nodup_map hfiles hm ho (hf.trans hof.symm)]

include hids

theorem mem_fetch_iff (hpkg : pkg ∈ input.packages) : pkg.id ∈ (planOfflinePackages input).fetch ↔
    pkg.Supported ∧ Wanted input pkg.artifact :=
  mem_fetch.trans (mem_fetchSet_iff hids hpkg)

include hfiles hforced

/-- A file with the name that the bundle gives its package is not replaced by another package. -/
theorem installed_execute_own (hpkg : pkg ∈ input.packages) (hsp : pkg.Supported)
    (hpl : artifactPolicy input pkg.artifact ≠ .notSelected) :
    IsInstalled input.execute pkg.id pkg.filename ↔
      Wanted input pkg.artifact ∨ IsInstalled input pkg.id pkg.filename := by
  have hown : ∀ o ∈ input.packages, o.filename = pkg.filename → o = pkg :=
    fun o ho hf => List.inj_on_of_nodup_map hfiles ho hpkg hf
  rw [installed_execute hfiles hforced]
  by_cases hw : Wanted input pkg.artifact
  · exact iff_of_true (.inl ⟨pkg, hpkg, (mem_fetch_iff hids hpkg).2 ⟨hsp, hw⟩, rfl, rfl⟩) (.inl hw)
  · have hft : ∀ o ∈ input.packages, o.id ∈ (planOfflinePackages input).fetch →
        o.filename ≠ pkg.filename := by
      intro o ho hft hf
      obtain rfl := hown o ho hf
      exact hw ((mem_fetch_iff hids hpkg).1 hft).2
    rw [or_iff_right fun ⟨o, ho, h, _, hf⟩ => hft o ho h hf, or_iff_right hw, and_iff_right hft,
      and_iff_right_iff_imp]
    intro hin
    simp only [planOfflinePackages, Finset.mem_sort, collected_iff hids hpkg hin, not_not]
    exact ⟨hsp, .inl ⟨hin, .inr ⟨hpl, rfl⟩⟩⟩

theorem current_execute (hpkg : pkg ∈ input.packages) (hsp : pkg.Supported) :
    Current input.execute pkg.artifact ↔ Obtained input pkg := by
  have hpl : artifactPolicy input.execute pkg.artifact = artifactPolicy input pkg.artifact := rfl
  rw [Current, Obtained, hpl, and_iff_right hsp]
  refine and_congr_right fun hds => ?_
  have how := installed_execute_own hids hfiles hforced hpkg hsp (by simp [hds])
  refine how.trans ?_
  by_cases hin : IsInstalled input pkg.id pkg.filename
  · exact iff_of_true (.inr hin) (.inr hin)
  · rw [or_iff_left hin, or_iff_left hin]
    exact ⟨fun h => h.2.2, fun h => ⟨hds, hin, h⟩⟩

/-- Nothing is wanted a second time. -/
theorem not_wanted_execute (hpkg : pkg ∈ input.packages) (hsp : pkg.Supported) :
    ¬ Wanted input.execute pkg.artifact := by
  rintro ⟨hds, hni, hsu⟩
  exact hni ((current_execute hids hfiles hforced hpkg hsp).2 ⟨hsp, hds, .inl hsu⟩).2

omit hids hfiles hforced

/-- The file is kept when nothing is fetched any more. -/
def Remains (input : PackageManagementInput) (pkg : BundlePackageArtifact) (filename : String) : Prop :=
  pkg.Supported ∧ (artifactPolicy input pkg.artifact ≠ .notSelected ∧ filename = pkg.filename ∨
    Stale input pkg.artifact filename ∧ ¬ SlotCurrent input pkg.artifact)

section Settled

variable (hnw : ∀ pkg ∈ input.packages, pkg.Supported → ¬ Wanted input pkg.artifact)

include hnw

theorem fetchSet_eq_empty : (planWork input).fetchSet = ∅ := by
  refine Finset.eq_empty_of_forall_notMem fun id hid => ?_
  obtain ⟨a, ha, hw, -⟩ := mem_fetchSet.1 hid
  obtain ⟨pkg, hm, hsp, rfl⟩ := mem_availableArtifacts.1 ha
  exact hnw pkg hm hsp hw

theorem fetch_eq_nil : (planOfflinePackages input).fetch = [] := by
  refine List.eq_nil_iff_forall_not_mem.2 fun id hid => ?_
  simp [mem_fetch, fetchSet_eq_empty hnw] at hid

include hforced

theorem mem_gc_iff : f ∈ (planOfflinePackages input).gc ↔
    ∃ id, IsInstalled input id f ∧ ¬ ∃ pkg ∈ input.packages, pkg.id = id ∧ Remains input pkg f := by
  simp only [planOfflinePackages, Finset.mem_sort, mem_collectedFiles, hforced, List.not_mem_nil,
    false_or, fetchSet_eq_empty hnw, Finset.notMem_empty, not_false_eq_true, and_true]
  refine exists_congr fun id => and_congr_right fun hin => not_congr ?_
  rw [mem_retainedFiles, ← exists_or]
  constructor
  · rintro ⟨a, ⟨ha, hr⟩ | ⟨ha, hst, hsl⟩⟩ <;>
      obtain ⟨pkg, hm, hsp, rfl⟩ := mem_availableArtifacts.1 ha
    · exact ⟨pkg, hm, hr.1.unique hin, hsp, .inl (hr.2.resolve_left (hnw pkg hm hsp))⟩
    · exact ⟨pkg, hm, hst.2.2.unique hin, hsp, .inr ⟨hst, hsl⟩⟩
  · rintro ⟨pkg, hm, rfl, hsp, hr⟩
    refine ⟨pkg.artifact, ?_⟩
    rw [← and_or_left]
    exact ⟨mem_availableArtifacts.2 ⟨pkg, hm, hsp, rfl⟩, hr.imp (fun h => ⟨hin, .inr h⟩) id⟩

include hfiles

theorem installed_settled : IsInstalled input.execute id f ↔
    IsInstalled input id f ∧ ∃ pkg ∈ input.packages, pkg.id = id ∧ Remains input pkg f := by
  rw [installed_execute hfiles hforced, fetch_eq_nil hnw]
  simp only [List.not_mem_nil, false_and, and_false, exists_false, false_or, false_imp_iff,
    implies_true, true_and, mem_gc_iff hforced hnw]
  grind [IsInstalled.unique]

include hids

/-- When nothing is wanted, one round removes all that is to be removed. -/
theorem gc_settled : (planOfflinePackages input.execute).gc = [] := by
  have hset {id f} := @installed_settled input f id hfiles hforced hnw
  refine List.eq_nil_iff_forall_not_mem.2 fun f hf => ?_
  obtain ⟨id, hin, hno⟩ := (@mem_gc_iff input.execute _ hforced fun pkg hm hsp =>
    not_wanted_execute hids hfiles hforced hm hsp).1 hf
  obtain ⟨-, pkg, hm, rfl, hsp, hr⟩ := hset.1 hin
  refine hno ⟨pkg, hm, rfl, hsp, hr.imp_right fun ⟨hst, hsl⟩ => ⟨⟨hst.1, hst.2.1, hin⟩, ?_⟩⟩
  rintro ⟨other, ho, ⟨hds, hcr⟩, hs⟩
  exact hsl ⟨other, ho, ⟨hds, (hset.1 hcr).1⟩, hs⟩

end Settled

include hids hfiles hforced

theorem slotCurrent_execute {artifact : AvailablePackageArtifact} : SlotCurrent input.execute artifact ↔
    ∃ other ∈ input.packages, Obtained input other ∧
      artifactSlot other.artifact = artifactSlot artifact := by
  constructor
  · rintro ⟨a, ha, hcr, hs⟩
    obtain ⟨other, hm, hsp, rfl⟩ := mem_availableArtifacts.1 ha
    exact ⟨other, hm, (current_execute hids hfiles hforced hm hsp).1 hcr, hs⟩
  · rintro ⟨other, hm, hob, hs⟩
    exact ⟨_, mem_availableArtifacts.2 ⟨other, hm, hob.1, rfl⟩,
      (current_execute hids hfiles hforced hm hob.1).2 hob, hs⟩

theorem stale_execute (hpkg : pkg ∈ input.packages) (hsp : pkg.Supported) :
    Stale input.execute pkg.artifact f ∧ ¬ SlotCurrent input.execute pkg.artifact ↔
      Stale input pkg.artifact f ∧ ∀ other ∈ input.packages, Obtained input other →
        other.filename ≠ f ∧ artifactSlot other.artifact ≠ artifactSlot pkg.artifact := by
  rw [slotCurrent_execute hids hfiles hforced]
  have hnd : isExpired input pkg.artifact → artifactPolicy input pkg.artifact ≠ .desired := by
    simp +contextual [artifactPolicy_eq_desired]
  have hown : ∀ o ∈ input.packages, o.id = pkg.id → o = pkg :=
    fun o ho hid => List.inj_on_of_nodup_map hids ho hpkg hid
  constructor
  · rintro ⟨⟨hex, hpl, hin⟩, hno⟩
    -- an expired package is not fetched, so that its file can only be replaced by another one
    obtain ⟨o, ho, hft, hid, -⟩ | ⟨hnf, -, hin⟩ := (installed_execute hfiles hforced).1 hin
    · obtain rfl := hown o ho hid
      exact absurd ((mem_fetch_iff hids hpkg).1 hft).2.1 (hnd hex)
    · refine ⟨⟨hex, hpl, hin⟩, fun o ho hob => ⟨?_, fun hs => hno ⟨o, ho, hob, hs⟩⟩⟩
      rintro rfl
      have hni : ¬ IsInstalled input o.id o.filename := by
        intro h
        obtain rfl := hown o ho (h.unique hin)
        exact hnd hex hob.2.1
      exact hnf o ho ((mem_fetch_iff hids ho).2
        ⟨hob.1, hob.2.1, hni, hob.2.2.resolve_right hni⟩) rfl
  · rintro ⟨hst, hno⟩
    refine ⟨⟨hst.1, hst.2.1, (installed_execute hfiles hforced).2 (.inr ⟨?_, ?_, hst.2.2⟩)⟩,
      fun ⟨o, ho, hob, hs⟩ => (hno o ho hob).2 hs⟩
    · intro o ho hft
      obtain ⟨hsp, hw⟩ := (mem_fetch_iff hids ho).1 hft
      exact (hno o ho ⟨hsp, hw.1, .inl hw.2.2⟩).1
    · simp only [planOfflinePackages, Finset.mem_sort, collected_iff hids hpkg hst.2.2, not_not]
      refine ⟨hsp, .inr (.inl ⟨hst, ?_⟩)⟩
      rintro ⟨a, ha, hcr, hs⟩
      obtain ⟨o, ho, hsp, rfl⟩ := mem_availableArtifacts.1 ha
      exact (hno o ho ⟨hsp, hcr.1, .inr hcr.2⟩).2 hs

/-- What is installed after two rounds. -/
theorem installed_execute_execute : IsInstalled input.execute.execute id f ↔
    ∃ pkg ∈ input.packages, pkg.id = id ∧ Stays input pkg f := by
  rw [@installed_settled input.execute f id hfiles hforced fun pkg hm hsp =>
    not_wanted_execute hids hfiles hforced hm hsp]
  constructor
  · rintro ⟨hin, pkg, hm, rfl, hsp, ⟨hpl, rfl⟩ | hst⟩
    · refine ⟨pkg, hm, rfl, .inl ⟨rfl, ?_⟩⟩
      have how := (installed_execute_own hids hfiles hforced hm hsp hpl).1 hin
      cases hp : artifactPolicy input pkg.artifact with
      | desired => exact .inl ⟨hsp, hp, how.imp_left (·.2.2)⟩
      | protectedByPause =>
        exact .inr ⟨hsp, rfl, how.resolve_left fun hw => by simp [Wanted, hp] at hw⟩
      | notSelected => exact absurd hp hpl
    · exact ⟨pkg, hm, rfl, .inr ⟨hsp, (stale_execute hids hfiles hforced hm hsp).1 hst⟩⟩
  · rintro ⟨pkg, hm, rfl, ⟨rfl, hob | ⟨hsp, hp, hin⟩⟩ | ⟨hsp, hst⟩⟩
    · have hcr := (current_execute hids hfiles hforced hm hob.1).2 hob
      exact ⟨hcr.2, pkg, hm, rfl, hob.1, .inl ⟨by simp [hcr.1], rfl⟩⟩
    · have hpl : artifactPolicy input pkg.artifact ≠ .notSelected := by simp [hp]
      exact ⟨(installed_execute_own hids hfiles hforced hm hsp hpl).2 (.inr hin), pkg, hm, rfl, hsp,
        .inl ⟨hpl, rfl⟩⟩
    · have hst := (stale_execute hids hfiles hforced hm hsp).2 hst
      exact ⟨hst.1.2.2, pkg, hm, rfl, hsp, .inr hst⟩

omit hids hfiles hforced in
/-- After two rounds nothing is left to do, and the packages that could be obtained are installed with
the paused ones and those expired ones that none could replace. -/
theorem synchronization_converges (input : PackageManagementInput)
    (hids : (input.packages.map (·.id)).Nodup) (hfiles : (input.packages.map (·.filename)).Nodup)
    (hforced : input.forcedGcInstalledFilenames = []) :
    (planOfflinePackages input.execute.execute).fetch = [] ∧
    (planOfflinePackages input.execute.execute).gc = [] ∧
    ∀ artifactId filename, IsInstalled input.execute.execute artifactId filename ↔
      ∃ pkg ∈ input.packages, pkg.id = artifactId ∧ Stays input pkg filename := by
  have hnw : ∀ pkg ∈ input.packages, pkg.Supported → ¬ Wanted input.execute pkg.artifact :=
    fun pkg hm hsp => not_wanted_execute hids hfiles hforced hm hsp
  refine ⟨?_, @gc_settled input.execute hids hfiles hforced hnw,
    fun _ _ => installed_execute_execute hids hfiles hforced⟩
  exact fetch_eq_nil fun pkg hm hsp => @not_wanted_execute input.execute pkg hids hfiles hforced hm hsp

end Rounds

open Sample

/-- The older edition of a selected package is replaced in the first round and removed in the second.
The paused file stays, and so does the expired one. -/
theorem synchronization_converges_regions :
    (planOfflinePackages threeRegions.execute.execute).fetch = [] ∧
    (planOfflinePackages threeRegions.execute.execute).gc = [] ∧
    (planOfflinePackages threeRegions).fetch = ["tpp-sw"] ∧
    (planOfflinePackages threeRegions.execute).gc = ["tpp-sw-1.zip"] ∧
    ∀ pkg ∈ threeRegions.packages, Stays threeRegions pkg pkg.filename := by
  have hfiles : (threeRegions.packages.map (·.filename)).Nodup := by decide
  obtain ⟨hft, hgc, hin⟩ := synchronization_converges threeRegions (by decide) hfiles rfl
  refine ⟨hft, hgc, by decide +kernel, by decide +kernel, fun pkg hm => ?_⟩
  have hst : ∀ pkg ∈ threeRegions.packages,
      IsInstalled threeRegions.execute.execute pkg.id pkg.filename := by decide +kernel
  obtain ⟨pkg', hm', hid, h⟩ := (hin _ _).1 (hst pkg hm)
  rwa [List.inj_on_of_nodup_map (by decide) hm' hm hid] at h

/-- A suppressed package that is installed already stays. -/
theorem suppressed_stays :
    "tpp-nw-2.zip" ∈ (withInstalled .play "tpp-nw-2.zip" ["tpp-nw-2.zip"]).suppressedFetchFilenames ∧
    artifactPolicy (withInstalled .play "tpp-nw-2.zip" ["tpp-nw-2.zip"]) procedures.artifact =
      .desired ∧
    (withInstalled .play "tpp-nw-2.zip" ["tpp-nw-2.zip"]).execute.execute.installed =
      [⟨"tpp-nw", "tpp-nw-2.zip"⟩] ∧
    planOfflinePackages (withInstalled .play "tpp-nw-2.zip" ["tpp-nw-2.zip"]).execute.execute =
      ⟨[], ["tpp-nw-2.zip"], [], []⟩ := by
  decide +kernel

end Aerobag.Packages
