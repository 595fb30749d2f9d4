import Aerobag.Packages.Plan

/-!
# What the plan keeps and removes

The loop over the artifacts is read off by what each adds to its variables. From that the retained
and the removed files are known.
-/

namespace Aerobag.Packages

variable {input : PackageManagementInput} {artifact : AvailablePackageArtifact} {wr : PlanWork}
  {f aid : String}

/-- The file is installed for the artifact and is not to be removed in any case. -/
def IsInstalled (input : PackageManagementInput) (artifactId filename : String) : Prop :=
  filename ∉ input.forcedGcInstalledFilenames ∧
    (installedByFilename input)[filename]?.map (·.artifactId) = some artifactId
  deriving Decidable

/-- The selected artifact is installed as the bundle has it. -/
def Current (input : PackageManagementInput) (artifact : AvailablePackageArtifact) : Prop :=
  artifactPolicy input artifact = .desired ∧ IsInstalled input artifact.artifactId artifact.filename
  deriving Decidable

/-- The selected artifact is not installed as the bundle has it, and may be fetched. -/
def Wanted (input : PackageManagementInput) (artifact : AvailablePackageArtifact) : Prop :=
  artifactPolicy input artifact = .desired ∧
    ¬ IsInstalled input artifact.artifactId artifact.filename ∧
    artifact.filename ∉ input.suppressedFetchFilenames

/-- The file is kept for the artifact. -/
def Retains (input : PackageManagementInput) (artifact : AvailablePackageArtifact)
    (filename : String) : Prop :=
  IsInstalled input artifact.artifactId filename ∧
    (Wanted input artifact ∨
      artifactPolicy input artifact ≠ .notSelected ∧ filename = artifact.filename)

/-- The file belongs to a selected artifact that has expired. -/
def Stale (input : PackageManagementInput) (artifact : AvailablePackageArtifact)
    (filename : String) : Prop :=
  isExpired input artifact ∧ selectedState input artifact = .play ∧
    IsInstalled input artifact.artifactId filename

/-- A current package with the product, the region and the tier of the artifact is installed. -/
def SlotCurrent (input : PackageManagementInput) (artifact : AvailablePackageArtifact) : Prop :=
  ∃ other ∈ availableArtifacts input, Current input other ∧ artifactSlot other = artifactSlot artifact

theorem mem_matchingInstalledFilenames :
    f ∈ matchingInstalledFilenames input aid ↔ IsInstalled input aid f := by
  simp only [matchingInstalledFilenames, IsInstalled, List.mem_map, List.mem_filter, Prod.exists]
  grind

theorem artifactPolicy_eq_desired : artifactPolicy input artifact = .desired ↔
      selectedState input artifact = .play ∧ isExpired input artifact = false := by
  rw [artifactPolicy]
  cases selectedState input artifact <;> cases isExpired input artifact <;> simp

theorem artifactPolicy_eq_notSelected :
    artifactPolicy input artifact = .notSelected ↔ selectedState input artifact = .unselected ∨
      selectedState input artifact = .play ∧ isExpired input artifact = true := by
  rw [artifactPolicy]
  cases selectedState input artifact <;> cases isExpired input artifact <;> simp

section Round

variable (input artifact wr)

theorem mem_retainInstalled_planArtifact : f ∈ (planArtifact input artifact wr).retainInstalled ↔
      f ∈ wr.retainInstalled ∨ Retains input artifact f := by
  unfold planArtifact pushFetchArtifact Retains Wanted
  cases artifactPolicy input artifact <;> dsimp only <;> split_ifs <;>
    grind [mem_matchingInstalledFilenames, List.mem_toFinset]

theorem mem_slots_planArtifact {s : ArtifactSlot} :
    s ∈ (planArtifact input artifact wr).slotsWithCurrentInstalled ↔
      s ∈ wr.slotsWithCurrentInstalled ∨ Current input artifact ∧ artifactSlot artifact = s := by
  unfold planArtifact pushFetchArtifact Current
  simp only [mem_matchingInstalledFilenames]
  cases artifactPolicy input artifact <;> grind

theorem mem_stale_planArtifact {s : AvailablePackageArtifact × String} :
    s ∈ (planArtifact input artifact wr).staleSelectedInstalled ↔
      s ∈ wr.staleSelectedInstalled ∨ Stale input artifact s.2 ∧ artifact = s.1 := by
  have hpl := @artifactPolicy_eq_notSelected input artifact
  unfold planArtifact pushFetchArtifact Stale
  cases h : artifactPolicy input artifact <;> grind [mem_matchingInstalledFilenames]

theorem mem_fetchSet_planArtifact : aid ∈ (planArtifact input artifact wr).fetchSet ↔
      aid ∈ wr.fetchSet ∨ Wanted input artifact ∧ artifact.artifactId = aid := by
  unfold planArtifact pushFetchArtifact Wanted
  simp only [mem_matchingInstalledFilenames]
  cases artifactPolicy input artifact <;> grind

def PlanWork.Listed (work : PlanWork) : Prop :=
  (work.fetchCandidates.map (·.2)).Nodup ∧
    ∀ artifactId, artifactId ∈ work.fetchCandidates.map (·.2) ↔ artifactId ∈ work.fetchSet

theorem listed_planArtifact (h : wr.Listed) : (planArtifact input artifact wr).Listed := by
  have hps : (pushFetchArtifact artifact wr).Listed := by
    unfold pushFetchArtifact
    split
    · exact h
    · rename_i hn
      refine ⟨?_, fun id => by simp [← h.2, or_comm]⟩
      rw [List.map_append, List.nodup_append]
      refine ⟨h.1, List.nodup_singleton _, ?_⟩
      rintro id hid _ hsn rfl
      exact hn (by simpa [List.mem_singleton.1 hsn] using (h.2 id).1 hid)
  unfold planArtifact
  cases artifactPolicy input artifact <;> dsimp only <;> repeat' split
  all_goals first | exact h | exact hps

end Round

/-- What the loop over the artifacts collects, when each step adds what it finds. -/
theorem planWork_iff {P : PlanWork → Prop} {Q : AvailablePackageArtifact → Prop}
    (hrn : ∀ a w, P (planArtifact input a w) ↔ P w ∨ Q a) (hin : ¬ P ⟨[], ∅, ∅, ∅, ∅, []⟩) :
    P (planWork input) ↔ ∃ a ∈ availableArtifacts input, Q a := by
  have hlp : ∀ (ars : List AvailablePackageArtifact) w,
      P (ars.foldl (fun w a => planArtifact input a w) w) ↔ P w ∨ ∃ a ∈ ars, Q a := by
    intro ars
    induction ars with
    | nil => simp
    | cons a ars ih => intro w; simp [ih, hrn, or_assoc]
  rw [planWork, hlp]
  simp [hin]

theorem listed_planWork (i : PackageManagementInput) : (planWork i).Listed := by
  have hlp : ∀ (ars : List AvailablePackageArtifact) w, w.Listed → PlanWork.Listed
      (ars.foldl (fun w a => planArtifact i a w) w) := by
    intro ars
    induction ars with
    | nil => exact fun _ h => h
    | cons a ars ih => exact fun w h => ih _ (listed_planArtifact _ _ _ h)
  exact hlp _ _ ⟨List.nodup_nil, by simp⟩

theorem mem_fetchSet : aid ∈ (planWork input).fetchSet ↔
    ∃ a ∈ availableArtifacts input, Wanted input a ∧ a.artifactId = aid :=
  planWork_iff (P := fun w => aid ∈ w.fetchSet) (fun _ _ => mem_fetchSet_planArtifact ..) (by simp)

theorem mem_slots {s : ArtifactSlot} : s ∈ (planWork input).slotsWithCurrentInstalled ↔
    ∃ a ∈ availableArtifacts input, Current input a ∧ artifactSlot a = s :=
  planWork_iff (P := fun w => s ∈ w.slotsWithCurrentInstalled)
    (fun _ _ => mem_slots_planArtifact ..) (by simp)

theorem mem_stale {s : AvailablePackageArtifact × String} :
    s ∈ (planWork input).staleSelectedInstalled ↔
      s.1 ∈ availableArtifacts input ∧ Stale input s.1 s.2 := by
  rw [planWork_iff (P := fun w => s ∈ w.staleSelectedInstalled)
    (fun _ _ => mem_stale_planArtifact ..) (by simp)]
  grind

theorem fetch_perm (i : PackageManagementInput) :
    (planOfflinePackages i).fetch.Perm ((planWork i).fetchCandidates.map (·.2)) :=
  ((planWork i).fetchCandidates.mergeSort_perm fetchesBefore).map _

theorem mem_fetch : aid ∈ (planOfflinePackages input).fetch ↔ aid ∈ (planWork input).fetchSet :=
  (fetch_perm input).mem_iff.trans ((listed_planWork input).2 _)

/-- Files are kept for an artifact, or as long as nothing replaces what has expired. -/
theorem mem_retainedFiles : f ∈ retainedFiles input ↔
    (∃ a ∈ availableArtifacts input, Retains input a f) ∨
      ∃ a ∈ availableArtifacts input, Stale input a f ∧ ¬ SlotCurrent input a := by
  rw [retainedFiles, Finset.mem_union, planWork_iff (P := fun w => f ∈ w.retainInstalled)
      (fun _ _ => mem_retainInstalled_planArtifact ..) (by simp)]
  simp [mem_stale, mem_slots, SlotCurrent, and_assoc]

/-- Files are removed by force, or when they are neither kept nor about to be replaced. -/
theorem mem_collectedFiles : f ∈ collectedFiles input ↔ f ∈ input.forcedGcInstalledFilenames ∨
      ∃ a, IsInstalled input a f ∧ f ∉ retainedFiles input ∧ a ∉ (planWork input).fetchSet := by
  simp only [collectedFiles, Finset.mem_union, List.mem_toFinset, List.mem_map, List.mem_filter,
    Prod.exists, IsInstalled]
  grind

theorem installed_of_retained (h : f ∈ retainedFiles input) : ∃ a, IsInstalled input a f := by
  rcases mem_retainedFiles.1 h with ⟨art, -, hrt⟩ | ⟨art, -, hst, -⟩
  · exact ⟨_, hrt.1⟩
  · exact ⟨_, hst.2.2⟩

theorem IsInstalled.unique {o : String} (h : IsInstalled input aid f)
    (ho : IsInstalled input o f) : aid = o :=
  Option.some.inj (h.2.symm.trans ho.2)

theorem mem_availableArtifacts : artifact ∈ availableArtifacts input ↔
    ∃ pkg ∈ input.packages, pkg.Supported ∧ pkg.artifact = artifact := by
  simp [availableArtifacts, bundlePackageToArtifact]

section Package

variable {pkg : BundlePackageArtifact} (hids : (input.packages.map (·.id)).Nodup)
  (hpkg : pkg ∈ input.packages) (hit : IsInstalled input pkg.id f)

include hids hpkg

theorem available_id_iff {Q : AvailablePackageArtifact → Prop} :
    (∃ a ∈ availableArtifacts input, a.artifactId = pkg.id ∧ Q a) ↔
      pkg.Supported ∧ Q pkg.artifact := by
  constructor
  · rintro ⟨a, hav, hid, hq⟩
    obtain ⟨o, ho, hsp, rfl⟩ := mem_availableArtifacts.1 hav
    obtain rfl : o = pkg := List.inj_on_of_nodup_map hids ho hpkg hid
    exact ⟨hsp, hq⟩
  · exact fun ⟨hsp, hq⟩ => ⟨pkg.artifact, mem_availableArtifacts.2 ⟨pkg, hpkg, hsp, rfl⟩, rfl, hq⟩

theorem mem_fetchSet_iff :
    pkg.id ∈ (planWork input).fetchSet ↔ pkg.Supported ∧ Wanted input pkg.artifact := by
  rw [mem_fetchSet, ← available_id_iff hids hpkg]
  simp [and_comm]

include hit

/-- The same for a file of a package of the bundle. -/
theorem collected_iff : f ∈ collectedFiles input ↔ ¬ (pkg.Supported ∧
    (Retains input pkg.artifact f ∨ Stale input pkg.artifact f ∧ ¬ SlotCurrent input pkg.artifact ∨
      Wanted input pkg.artifact)) := by
  have how {P : AvailablePackageArtifact → Prop}
      (hP : ∀ a, P a → IsInstalled input a.artifactId f) :
      (∃ a ∈ availableArtifacts input, P a) ↔ pkg.Supported ∧ P pkg.artifact := by
    rw [← available_id_iff hids hpkg]
    exact exists_congr fun a => and_congr_right fun _ =>
      ⟨fun h => ⟨(hP _ h).unique hit, h⟩, And.right⟩
  have hr : f ∈ retainedFiles input ↔ pkg.Supported ∧ (Retains input pkg.artifact f ∨
        Stale input pkg.artifact f ∧ ¬ SlotCurrent input pkg.artifact) := by
    rw [mem_retainedFiles, how fun _ h => h.1, how fun _ h => h.1.2.2, ← and_or_left]
  have hgc : f ∈ collectedFiles input ↔
      f ∉ retainedFiles input ∧ pkg.id ∉ (planWork input).fetchSet := by
    rw [mem_collectedFiles, or_iff_right hit.1]
    refine ⟨fun ⟨_, ho, h⟩ => ?_, fun h => ⟨_, hit, h⟩⟩
    obtain rfl := hit.unique ho
    exact h
  rw [hgc, hr, mem_fetchSet_iff hids hpkg, ← not_or, ← and_or_left, or_assoc]

end Package

/-- A paused file is not removed, and a selected one only for a current package in its place. -/
def Covered (input : PackageManagementInput) (pkg : BundlePackageArtifact) (filename : String) : Prop :=
  (selectedState input pkg.artifact = .pause → filename ∉ (planOfflinePackages input).gc) ∧
    (selectedState input pkg.artifact = .play → filename ∈ (planOfflinePackages input).gc →
      SlotCurrent input pkg.artifact)

/-- The app supports the package; a paused file has the name the bundle gives it; and a selected
package that is suppressed and has not expired is installed, or another of its slot is. -/
def Keepable (input : PackageManagementInput) (pkg : BundlePackageArtifact) (filename : String) :
    Prop :=
  (selectedState input pkg.artifact = .pause → pkg.Supported ∧ filename = pkg.filename) ∧
    (selectedState input pkg.artifact = .play →
      pkg.Supported ∧ (isExpired input pkg.artifact ∨
        pkg.filename ∉ input.suppressedFetchFilenames ∨ IsInstalled input pkg.id pkg.filename) ∨
      SlotCurrent input pkg.artifact)

/-- Coverage, from what is removed. -/
theorem covered_iff {pkg : BundlePackageArtifact} (hs : (input.packages.map (·.id)).Nodup)
    (hp : pkg ∈ input.packages) (hin : IsInstalled input pkg.id f) :
    Covered input pkg f ↔ Keepable input pkg f := by
  have hds := @artifactPolicy_eq_desired input pkg.artifact
  have hnt := @artifactPolicy_eq_notSelected input pkg.artifact
  have hcr : pkg.Supported → Current input pkg.artifact → SlotCurrent input pkg.artifact :=
    fun hsp h => ⟨_, mem_availableArtifacts.2 ⟨pkg, hp, hsp, rfl⟩, h, rfl⟩
  simp only [Covered, Keepable, planOfflinePackages, Finset.mem_sort, collected_iff hs hp hin]
  simp only [Retains, Stale, Wanted, Current] at hcr ⊢
  rw [show pkg.artifact.artifactId = pkg.id from rfl, show pkg.artifact.filename = pkg.filename from rfl]
    at *
  all_goals grind

/-- **The plan.** A file is retained, removed or replaced by a fetch, and a fetch is planned for just the
desired packages that are missing. An installed file is covered exactly if it is keepable. -/
theorem plan_opens_no_gap (hids : (input.packages.map (·.id)).Nodup) :
    (∀ filename ∈ (planOfflinePackages input).retainInstalled,
      filename ∉ (planOfflinePackages input).gc) ∧
    (∀ filename installed, (installedByFilename input)[filename]? = some installed →
      filename ∈ (planOfflinePackages input).retainInstalled ∨
      filename ∈ (planOfflinePackages input).gc ∨
      installed.artifactId ∈ (planOfflinePackages input).fetch) ∧
    (planOfflinePackages input).fetch.Nodup ∧
    (∀ artifactId, artifactId ∈ (planOfflinePackages input).fetch ↔
      ∃ artifact ∈ availableArtifacts input, (artifactPolicy input artifact = .desired ∧
        ¬ IsInstalled input artifact.artifactId artifact.filename ∧
        artifact.filename ∉ input.suppressedFetchFilenames) ∧ artifact.artifactId = artifactId) ∧
    ∀ pkg ∈ input.packages, ∀ filename, IsInstalled input pkg.id filename →
      (Covered input pkg filename ↔ Keepable input pkg filename) := by
  refine ⟨?_, ?_, (fetch_perm input).nodup_iff.2 (listed_planWork input).1,
    fun _ => mem_fetch.trans mem_fetchSet,
    fun pkg hpkg filename hinst => covered_iff hids hpkg hinst⟩
  · simp only [planOfflinePackages, Finset.mem_sort]
    rintro filename hr hgc
    obtain ⟨_, hinst⟩ := installed_of_retained hr
    rcases mem_collectedFiles.1 hgc with hfr | ⟨_, -, hnt, -⟩
    · exact hinst.1 hfr
    · exact hnt hr
  · intro filename installed hfl
    rw [mem_fetch]
    simp only [planOfflinePackages, Finset.mem_sort]
    by_cases hfr : filename ∈ input.forcedGcInstalledFilenames
    · exact .inr (.inl (mem_collectedFiles.2 (.inl hfr)))
    · by_contra hn
      simp only [not_or] at hn
      exact hn.2.1 (mem_collectedFiles.2 (.inr
        ⟨_, ⟨hfr, by rw [hfl, Option.map_some]⟩, hn.1, hn.2.2⟩))

namespace Sample

def procedures : BundlePackageArtifact :=
  ⟨"tpp-nw", "tpp", "TPP1", some "nw", "tpp-nw-2.zip", none, none⟩

def withInstalled (region : OfflinePackageSelection) (filename : String) (suppressed : List String) :
    PackageManagementInput where
  nowEpochMs := 0
  preferences := ⟨.ofList [("nw", region)], .ofList [("tpp", OfflinePackageSelection.play)]⟩
  packages := [procedures]
  installed := [⟨"tpp-nw", filename⟩]
  forcedGcInstalledFilenames := []
  suppressedFetchFilenames := suppressed

/-- A paused region, a selected one with an older edition, and a selected one whose edition has
expired. -/
def threeRegions : PackageManagementInput where
  nowEpochMs := 10 ^ 12
  preferences := ⟨.ofList [("nw", OfflinePackageSelection.pause), ("sw", .play), ("ne", .play)],
    .ofList [("tpp", OfflinePackageSelection.play)]⟩
  packages := [procedures,
    ⟨"tpp-sw", "tpp", "TPP1", some "sw", "tpp-sw-2.zip", none, none⟩,
    ⟨"tpp-ne", "tpp", "TPP1", some "ne", "tpp-ne-1.zip", some "2001-01-01", none⟩]
  installed := [⟨"tpp-nw", "tpp-nw-2.zip"⟩, ⟨"tpp-sw", "tpp-sw-1.zip"⟩, ⟨"tpp-ne", "tpp-ne-1.zip"⟩]
  forcedGcInstalledFilenames := []
  suppressedFetchFilenames := []

end Sample

open Sample

/-- The file of each region is covered; only the older edition is replaced. -/
theorem plan_opens_no_gap_regions :
    (∀ entry ∈ threeRegions.packages.zip (threeRegions.installed.map (·.filename)),
      IsInstalled threeRegions entry.1.id entry.2 ∧ Covered threeRegions entry.1 entry.2) ∧
    (planOfflinePackages threeRegions).fetch = ["tpp-sw"] ∧ (planOfflinePackages threeRegions).gc = [] := by
  have hkp : ∀ entry ∈ threeRegions.packages.zip (threeRegions.installed.map (·.filename)),
      IsInstalled threeRegions entry.1.id entry.2 ∧ entry.1.Supported ∧
        (selectedState threeRegions entry.1.artifact = .pause → entry.2 = entry.1.filename) := by
    decide +kernel
  refine ⟨fun entry he => ?_, by decide +kernel, by decide +kernel⟩
  obtain ⟨hin, hsp, hps⟩ := hkp entry he
  have hcv := (plan_opens_no_gap (by decide)).2.2.2.2 entry.1 (List.of_mem_zip he).1 entry.2 hin
  exact ⟨hin, hcv.2 ⟨fun h => ⟨hsp, hps h⟩, fun _ => .inl ⟨hsp, .inr (.inl (by simp [threeRegions]))⟩⟩⟩

/-- The older edition of a paused package is removed, and so is that of a selected package whose
current edition is not to be fetched. -/
theorem older_edition_collected :
    (selectedState (withInstalled .pause "tpp-nw-1.zip" []) procedures.artifact = .pause ∧
      planOfflinePackages (withInstalled .pause "tpp-nw-1.zip" []) = ⟨[], [], ["tpp-nw-1.zip"], []⟩) ∧
    selectedState (withInstalled .play "tpp-nw-1.zip" ["tpp-nw-2.zip"]) procedures.artifact = .play ∧
      planOfflinePackages (withInstalled .play "tpp-nw-1.zip" ["tpp-nw-2.zip"]) =
        ⟨[], [], ["tpp-nw-1.zip"], []⟩ := by
  decide +kernel

end Aerobag.Packages
