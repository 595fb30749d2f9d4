import Aerobag.Lib.Map
import Aerobag.Lib.Text
import Aerobag.Server.Auth
import Mathlib.Data.Finset.Sort
import Mathlib.Data.Prod.Lex

/-!
# The plan for the offline packages (`app-core/src/package_management.rs`)

From the packages of a bundle, the user's preferences and the installed files the plan says what to
fetch, keep and remove. Sets of names are finite sets, listed in order.
-/

namespace Aerobag.Packages

inductive OfflinePackageSelection where
  | play
  | pause
  | unselected
  deriving DecidableEq, Repr

inductive ChartPackageTier where
  | wide
  | regional
  | detail
  deriving DecidableEq, Repr

structure OfflinePackagePreferences where
  regions : Std.ExtTreeMap String OfflinePackageSelection
  products : Std.ExtTreeMap String OfflinePackageSelection

structure BundlePackageArtifact where
  id : String
  familyId : String
  contractId : String
  regionId : Option String
  filename : String
  expirationDate : Option String
  chartPackageTier : Option ChartPackageTier
  deriving DecidableEq, Repr

structure InstalledArtifact where
  artifactId : String
  filename : String
  deriving DecidableEq, Repr

structure PackageManagementInput where
  nowEpochMs : Int
  preferences : OfflinePackagePreferences
  packages : List BundlePackageArtifact
  installed : List InstalledArtifact
  forcedGcInstalledFilenames : List String
  suppressedFetchFilenames : List String

structure PackageManagementPlan where
  fetch : List String
  retainInstalled : List String
  gc : List String
  protectedByPause : List String
  deriving DecidableEq, Repr

structure AvailablePackageArtifact where
  artifactId : String
  filename : String
  productId : String
  regionId : Option String
  chartPackageTier : Option ChartPackageTier
  expiresAtEpochMs : Option Int
  deriving DecidableEq, Repr

def productContracts : List (String × String) :=
  [("nav-db", "NAV29"), ("sec", "SEC1"), ("tac", "TAC1"), ("enr-l", "ENL1"), ("enr-h", "ENH1"),
    ("tpp", "TPP1"), ("csup", "CSUP1"), ("terrain", "TER2"), ("shaded-relief", "SHD1"),
    ("world-basemap", "WBM1"), ("geo", "GEO1")]

def requiredPackageContractId (familyId : String) : Option String :=
  (productContracts.find? (·.1 = familyId)).map (·.2)

def packageContractIsSupported (pkg : BundlePackageArtifact) : Bool :=
  requiredPackageContractId pkg.familyId = some pkg.contractId

/-- The arithmetic is that of `i32`. -/
def daysFromCivil (year : Int32) (month day : Int32) : Int :=
  let year := year - if month ≤ 2 then 1 else 0
  let era := (if 0 ≤ year then year else year - 399) / 400
  let yoe := year - era * 400
  let doy := (153 * (month + if 2 < month then -3 else 9) + 2) / 5 + day - 1
  let doe := yoe * 365 + yoe / 4 - yoe / 100 + doy
  (era * 146097 + doe - 719468).toInt

def parseU32 (text : String) : Option Int :=
  if text.toList.head? = some '-' then none
  else (Server.parseI64 text).filter fun n => decide (n < 2 ^ 32)

def ymdDateToEpochMs (date : String) : Option Int :=
  match Text.split '-' date with
  | [year, month, day] => do
    let year ← (Server.parseI64 year).filter fun n => decide (-(2 ^ 31) ≤ n ∧ n < 2 ^ 31)
    let month ← parseU32 month
    let day ← parseU32 day
    if 1 ≤ month ∧ month ≤ 12 ∧ 1 ≤ day ∧ day ≤ 31 then
      some (daysFromCivil (.ofInt year) (.ofInt month) (.ofInt day) * 86400000)
    else none
  | _ => none

def BundlePackageArtifact.artifact (pkg : BundlePackageArtifact) : AvailablePackageArtifact :=
  ⟨pkg.id, pkg.filename, pkg.familyId, pkg.regionId, pkg.chartPackageTier,
    pkg.expirationDate.bind ymdDateToEpochMs⟩

def BundlePackageArtifact.Supported (pkg : BundlePackageArtifact) : Prop :=
  packageContractIsSupported pkg ∧ pkg.familyId ∈ ["sec", "tac", "shaded-relief", "enr-l", "enr-h",
    "tpp", "csup", "nav-db", "geo", "terrain", "world-basemap"]
  deriving Decidable

def bundlePackageToArtifact (pkg : BundlePackageArtifact) : Option AvailablePackageArtifact :=
  if pkg.Supported then some pkg.artifact else none

abbrev ArtifactSlot := String × Option String × Option ChartPackageTier

def artifactSlot (artifact : AvailablePackageArtifact) : ArtifactSlot :=
  (artifact.productId, artifact.regionId, artifact.chartPackageTier)

inductive ArtifactPolicy where
  | desired
  | protectedByPause
  | notSelected
  deriving DecidableEq, Repr

variable (input : PackageManagementInput) (artifact : AvailablePackageArtifact)

def otherRegions : List OfflinePackageSelection :=
  (input.preferences.regions.toList.filter fun (regionId, _) =>
    artifact.regionId ≠ some regionId).map (·.2)

def wideAngleSelectedState : OfflinePackageSelection :=
  let product := input.preferences.products[artifact.productId]?.getD .unselected
  let regions := otherRegions input artifact
  if product = .unselected ∨ regions = [] then .unselected
  else
    match product with
    | .pause => .pause
    | .play => if .play ∈ regions then .play else if .pause ∈ regions then .pause else .unselected
    | .unselected => .unselected

def selectedState : OfflinePackageSelection :=
  if artifact.regionId = some "wide" then wideAngleSelectedState input artifact
  else
    match artifact.regionId with
    | none => input.preferences.products[artifact.productId]?.getD .play
    | some regionId =>
      let product := input.preferences.products[artifact.productId]?.getD .unselected
      let region := input.preferences.regions[regionId]?.getD .unselected
      let highResolution :=
        if artifact.chartPackageTier = some .detail then
          input.preferences.products["chart-high-resolution"]?.getD .unselected
        else .play
      if .unselected ∈ [region, product, highResolution] then .unselected
      else if .pause ∈ [region, product, highResolution] then .pause
      else .play

def isExpired : Bool := artifact.expiresAtEpochMs.any fun expires => decide (expires ≤ input.nowEpochMs)

def artifactPolicy : ArtifactPolicy :=
  if isExpired input artifact then
    match selectedState input artifact with
    | .pause => .protectedByPause
    | .play | .unselected => .notSelected
  else
    match selectedState input artifact with
    | .play => .desired
    | .pause => .protectedByPause
    | .unselected => .notSelected

def availableArtifacts : List AvailablePackageArtifact :=
  input.packages.filterMap bundlePackageToArtifact

/-- Of files with one name the last one counts. -/
def installedByFilename : Std.ExtTreeMap String InstalledArtifact :=
  .insertAll (·.filename) ∅ input.installed

/-- `effective_installed_filenames_by_artifact_id`, of one artifact. -/
def matchingInstalledFilenames (artifactId : String) : List String :=
  ((installedByFilename input).toList.filter fun (filename, installed) =>
    filename ∉ input.forcedGcInstalledFilenames ∧ installed.artifactId = artifactId).map (·.1)

def fetchProductPriority (productId : String) : Nat :=
  if productId = "nav-db" then 0 else if productId = "geo" then 1 else 2

/-- The variables of the loop over the artifacts. -/
structure PlanWork where
  fetchCandidates : List (Nat × String)
  fetchSet : Finset String
  retainInstalled : Finset String
  protectedByPause : Finset String
  slotsWithCurrentInstalled : Finset ArtifactSlot
  staleSelectedInstalled : List (AvailablePackageArtifact × String)

def pushFetchArtifact (work : PlanWork) : PlanWork :=
  if artifact.artifactId ∈ work.fetchSet then work
  else { work with
    fetchSet := insert artifact.artifactId work.fetchSet
    fetchCandidates := work.fetchCandidates ++
      [(fetchProductPriority artifact.productId, artifact.artifactId)] }

def planArtifact (work : PlanWork) : PlanWork :=
  let files := matchingInstalledFilenames input artifact.artifactId
  match artifactPolicy input artifact with
  | .desired =>
    if artifact.filename ∈ files then { work with
      retainInstalled := insert artifact.filename work.retainInstalled
      slotsWithCurrentInstalled := insert (artifactSlot artifact) work.slotsWithCurrentInstalled }
    else if artifact.filename ∈ input.suppressedFetchFilenames then work
    else
      let work := pushFetchArtifact artifact work
      { work with retainInstalled := work.retainInstalled ∪ files.toFinset }
  | .protectedByPause =>
    if artifact.filename ∈ files then { work with
      retainInstalled := insert artifact.filename work.retainInstalled
      protectedByPause := insert artifact.filename work.protectedByPause }
    else work
  | .notSelected =>
    if isExpired input artifact ∧ selectedState input artifact = .play then { work with
      staleSelectedInstalled := work.staleSelectedInstalled ++ files.map (artifact, ·) }
    else work

def planWork : PlanWork :=
  (availableArtifacts input).foldl (fun work artifact => planArtifact input artifact work)
    ⟨[], ∅, ∅, ∅, ∅, []⟩

/-- Expired files are retained without a current package. -/
def retainedFiles : Finset String :=
  let work := planWork input
  work.retainInstalled ∪ ((work.staleSelectedInstalled.filter fun (artifact, _) =>
    artifactSlot artifact ∉ work.slotsWithCurrentInstalled).map (·.2)).toFinset

def collectedFiles : Finset String :=
  (((installedByFilename input).toList.filter fun (filename, installed) =>
    filename ∉ retainedFiles input ∧ ¬ (installed.artifactId ∈ (planWork input).fetchSet ∧
      filename ∉ input.forcedGcInstalledFilenames)).map (·.1)).toFinset ∪
    input.forcedGcInstalledFilenames.toFinset

def fetchesBefore (left right : Nat × String) : Bool := toLex left ≤ toLex right

def planOfflinePackages : PackageManagementPlan where
  fetch := ((planWork input).fetchCandidates.mergeSort fetchesBefore).map (·.2)
  retainInstalled := (retainedFiles input).sort (· ≤ ·)
  gc := (collectedFiles input).sort (· ≤ ·)
  protectedByPause := (planWork input).protectedByPause.sort (· ≤ ·)

end Aerobag.Packages
