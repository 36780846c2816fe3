import Reposcout.Properties.Findings.Compare
import Reposcout.Review.Run

/-!
# Which change a deep review gives a finding to

A deep review moves the locations of the base to the new paths before it compares them with the old
ranges of the changed files.  The old ranges at a new path can be those of another file: in a chain
of renames, in a swap, or where the new path existed before.
-/

namespace Reposcout.Review

open Findings Option KeyedList

/-! ## Renames -/

variable {oldPath path : PathBuf}

lemma exists_renamed {files : List ReviewChangedFile}
    (h : get? oldPath (renames files) = some path) :
    ∃ file ∈ files, renamedPaths file = some (oldPath, path) := by
  have hall : ∀ entry ∈ renames files, entry ∈ files.filterMap renamedPaths := by
    refine List.foldlRecOn (motive := fun map =>
      ∀ entry ∈ map, entry ∈ files.filterMap renamedPaths) _ _ (by simp) ?_
    intro map hmap rename hmem entry hentry
    exact forall_mem_alter (P := fun oldPath path =>
      (oldPath, path) ∈ files.filterMap renamedPaths) hmap hmem (fun _ _ => hmem) entry hentry
  obtain ⟨file, hmem, hfile⟩ := List.mem_filterMap.mp (hall _ (mem_of_get? h))
  exact ⟨file, hmem, hfile⟩

variable {file : ReviewChangedFile}

lemma renamedPaths_eq_some (h : renamedPaths file = some (oldPath, path)) :
    file.status = "renamed" ∧ file.oldPath = some oldPath ∧ file.path = some path := by
  unfold renamedPaths at h
  split at h
  · next hstatus =>
    split at h
    · next old new hold hnew =>
      obtain ⟨rfl, rfl⟩ : old = oldPath ∧ new = path := by simpa using h
      exact ⟨hstatus, hold, hnew⟩
    · cases h
  · cases h

section

variable {K : Type} (xxh3_128 : List UInt8 → BitVec 128)

def remapped (files : List ReviewChangedFile) (finding : FindingRecord K) : FindingRecord K :=
  if renames files = [] then finding else remapFinding xxh3_128 (renames files) finding

/-- A finding keeps its lines. -/
lemma locations_remapped (files : List ReviewChangedFile) (finding : FindingRecord K) :
    locations (remapped xxh3_128 files finding) =
      (locations finding).map (remapLocation (renames files)) := by
  unfold remapped
  by_cases h : renames files = []
  · have hid : remapLocation (renames files) = id := by
      funext location
      simp [remapLocation, renamedPath, h]
    rw [if_pos h, hid, List.map_id]
  · rw [if_neg h]
    unfold remapFinding locations
    dsimp only
    split <;> rfl

end

/-! ## Attribution -/

def OnChangedLine (files : List ReviewChangedFile) (location : FindingLocation) : Prop :=
  ∃ file ∈ files, file.path = some location.path ∧ touches location file.ranges = true

/-- A location has a changed line of the file that started from its path. -/
def OnOldChangedLine (files : List ReviewChangedFile) (location : FindingLocation) : Prop :=
  ∃ file ∈ files, file.oldPath = some location.path ∧ touches location file.oldRanges = true

def StartsOnce (files : List ReviewChangedFile) : Prop :=
  ∀ file ∈ files, ∀ other ∈ files, ∀ path,
    file.oldPath = some path → other.oldPath = some path → file = other

structure OwnRangesOnly (files : List ReviewChangedFile) (path : PathBuf) : Prop where
  started : ∀ file ∈ files, file.oldRanges ≠ [] →
    file.oldPath = some (renamedPath (renames files) path) → renamedPath (renames files) path = path
  renamed : ∀ file ∈ files, file.oldRanges ≠ [] → file.status = "renamed" →
    file.path = some (renamedPath (renames files) path) → file.oldPath = some path

variable {location : FindingLocation}

lemma locationChanged_iff {files : List ReviewChangedFile} :
    locationChanged files location = true ↔ OnChangedLine files location := by
  simp [locationChanged, OnChangedLine]

lemma comparedWith_of_started {files : List ReviewChangedFile} (hstarts : StartsOnce files)
    (hmem : file ∈ files) {path : PathBuf} (hfile : file.oldPath = some path) :
    comparedWith (renamedPath (renames files) path) file = true := by
  cases hrename : get? path (renames files) with
  | none => simp [comparedWith, renamedPath, hrename, hfile]
  | some new =>
    obtain ⟨other, hother, hpaths⟩ := exists_renamed hrename
    obtain ⟨hstatus, hold, hnew⟩ := renamedPaths_eq_some hpaths
    obtain rfl := hstarts file hmem other hother path hfile hold
    simp [comparedWith, renamedPath, hrename, hstatus, hnew]

lemma ownRangesOnly_iff {files : List ReviewChangedFile} {path : PathBuf} :
    OwnRangesOnly files path ↔ ∀ file ∈ files, file.oldRanges ≠ [] →
        comparedWith (renamedPath (renames files) path) file = true → file.oldPath = some path := by
  constructor
  · rintro ⟨hstarted, hrenamed⟩ file hmem hranges hcompared
    simp only [comparedWith, Bool.or_eq_true, decide_eq_true_eq, Bool.and_eq_true] at hcompared
    rcases hcompared with hold | ⟨hstatus, hpath⟩
    · rw [hstarted file hmem hranges hold] at hold
      exact hold
    · exact hrenamed file hmem hranges hstatus hpath
  · intro h
    refine ⟨fun file hmem hranges hold => ?_, fun file hmem hranges hstatus hpath => ?_⟩
    · have hown := h file hmem hranges (by simp [comparedWith, hold])
      exact some.inj (hold.symm.trans hown)
    · exact h file hmem hranges (by simp [comparedWith, hstatus, hpath])

lemma ranges_ne_nil {ranges : List LineRange}
    (h : touches location ranges = true) : ranges ≠ [] := by
  rintro rfl
  cases h

/-- **A moved location is compared as the original one** if the old ranges are its own. -/
lemma oldLocationChanged_iff {files : List ReviewChangedFile} (hstarts : StartsOnce files)
    (hown : OwnRangesOnly files location.path) :
    oldLocationChanged files (remapLocation (renames files) location) = true ↔
      OnOldChangedLine files location := by
  simp only [oldLocationChanged, List.any_eq_true, Bool.and_eq_true, OnOldChangedLine]
  constructor
  · rintro ⟨file, hmem, hcompared, htouches⟩
    exact ⟨file, hmem,
      ownRangesOnly_iff.mp hown file hmem (ranges_ne_nil htouches) hcompared, htouches⟩
  · rintro ⟨file, hmem, hstarted, htouches⟩
    exact ⟨file, hmem, comparedWith_of_started hstarts hmem hstarted, htouches⟩

section

variable {K : Type} [Field K] [LinearOrder K] (xxh3_128 : List UInt8 → BitVec 128)
  (before after : FindingCatalog K) (files : List ReviewChangedFile)

def reviewedChanges : List (FindingChange K) :=
  (compare (remapRenames xxh3_128 before files) after).changes

def Reported (change : FindingChange K) : Prop :=
  ∃ item ∈ deepFindings xxh3_128 before after files, reviewChange change = some item

/-- The finding of the base before the renames that a change is about, if it is about one. -/
inductive IsOrigin (change : FindingChange K) : Option (FindingRecord K) → Prop where
  | none (h : change.before = none) : IsOrigin change none
  | some (original : FindingRecord K) (hmem : original ∈ before.findings)
      (h : change.before = some (remapped xxh3_128 files original)) :
      IsOrigin change (some original)

/-- A change is about something other than a risk. -/
def NotRisk (change : FindingChange K) : Prop :=
  ∃ finding, changeFinding change = some finding ∧ finding.kind ≠ "risk"

/-- A deep review reports the changes on changed lines, at the original paths of the base, and
compares no location of the base with the old ranges of another file. -/
structure Attributed : Prop where
  reported : ∀ change ∈ reviewedChanges xxh3_128 before after files, ∀ origin,
    IsOrigin xxh3_128 before files change origin →
    (Reported xxh3_128 before after files change ↔ NotRisk change ∧
      ((∃ finding, change.after = some finding ∧
          ∃ location ∈ locations finding, OnChangedLine files location) ∨
        ∃ original, origin = some original ∧
          ∃ location ∈ locations original, OnOldChangedLine files location))
  own : ∀ original ∈ before.findings, ∀ location ∈ locations original, ∀ file ∈ files,
    file.oldRanges ≠ [] →
    comparedWith (remapLocation (renames files) location).path file = true →
    file.oldPath = some location.path

variable {xxh3_128 before after files}

omit [Field K] [LinearOrder K] in
/-- Different changes are reported differently. -/
lemma reviewChange_injective {change other : FindingChange K} {item : ReviewFinding K}
    (h : reviewChange change = some item) (hother : reviewChange other = some item) :
    change = other := by
  obtain ⟨finding, _, rfl⟩ := map_eq_some_iff.mp h
  obtain ⟨finding', _, heq⟩ := map_eq_some_iff.mp hother
  obtain ⟨state, before, after⟩ := change
  obtain ⟨rfl, _, rfl, rfl⟩ := heq
  rfl

lemma reported_iff {change : FindingChange K}
    (hmem : change ∈ reviewedChanges xxh3_128 before after files) :
    Reported xxh3_128 before after files change ↔
      NotRisk change ∧ changeIntersects change files = true := by
  simp only [Reported, deepFindings, List.mem_filterMap, List.mem_filter]
  constructor
  · rintro ⟨item, ⟨other, ⟨⟨_, hrisk⟩, hintersects⟩, hitem⟩, hchange⟩
    obtain rfl := reviewChange_injective hchange hitem
    obtain ⟨finding, hfinding, hkind⟩ := (Option.any_eq_true _ _).mp hrisk
    exact ⟨⟨finding, hfinding, by simpa using hkind⟩, hintersects⟩
  · rintro ⟨⟨finding, hfinding, hkind⟩, hintersects⟩
    have hitem : reviewChange change =
        some ⟨.change change.state, finding, change.before, change.after⟩ := by
      simp [reviewChange, hfinding]
    exact ⟨_, ⟨change, ⟨⟨hmem, by simp [hfinding, hkind]⟩, hintersects⟩, hitem⟩, hitem⟩

omit [Field K] [LinearOrder K] in
lemma findingIntersects_new {finding : FindingRecord K} :
    findingIntersects finding files false = true ↔
      ∃ location ∈ locations finding, OnChangedLine files location := by
  simp [findingIntersects, locationChanged_iff]

omit [Field K] [LinearOrder K] in
lemma findingIntersects_old (hstarts : StartsOnce files) {original : FindingRecord K}
    (hown : ∀ location ∈ locations original, OwnRangesOnly files location.path) :
    findingIntersects (remapped xxh3_128 files original) files true = true ↔
      ∃ location ∈ locations original, OnOldChangedLine files location := by
  simp only [findingIntersects, if_true, locations_remapped, List.any_map, List.any_eq_true,
    Function.comp_apply]
  exact exists_congr fun location => and_congr_right fun hmem =>
    oldLocationChanged_iff hstarts (hown location hmem)

/-- **A deep review attributes findings to the right changes** exactly if, for every location of
the base, the old ranges at its new path are those of its own file. -/
theorem attributed_iff_ownRangesOnly (xxh3_128 : List UInt8 → BitVec 128)
    (before after : FindingCatalog K) (files : List ReviewChangedFile)
    (hstarts : StartsOnce files) :
    Attributed xxh3_128 before after files ↔
      ∀ original ∈ before.findings, ∀ location ∈ locations original,
        OwnRangesOnly files location.path := by
  constructor
  · intro h original hmem location hlocation
    exact ownRangesOnly_iff.mpr fun file hfile => h.own original hmem location hlocation file hfile
  · intro hown
    refine ⟨fun change hchange origin horigin => ?_, fun original hmem location hlocation =>
      ownRangesOnly_iff.mp (hown original hmem location hlocation)⟩
    rw [reported_iff hchange, changeIntersects, Bool.or_eq_true]
    refine and_congr_right fun _ => or_congr ?_ ?_
    · simp only [Option.any_eq_true, findingIntersects_new]
    · cases horigin with
      | none h => simp [h]
      | some original hmem h =>
        simp only [h, any_some, some.injEq, exists_eq_left']
        exact findingIntersects_old hstarts (hown original hmem)

end

/-! ## A chain of renames -/

/-- A finding on the fifth line of a file. -/
def markerAt (path : PathBuf) : FindingRecord ℚ where
  fingerprint := "marker:v1:todo"
  identity := "todo"
  kind := "marker"
  severity := "note"
  message := "TODO marker"
  primaryLocation := { path, startLine := 5, endLine := 5 }
  relatedLocations := []
  metrics := []

/-- The file `a.rs` was renamed to `b.rs`, and the former `b.rs` to `c.rs` with a changed fifth
line. -/
def chainedRenames : List ReviewChangedFile :=
  [{ oldPath := some ⟨["a.rs"]⟩
     path := some ⟨["b.rs"]⟩
     status := "renamed"
     oldRanges := []
     ranges := []
     binary := false },
   { oldPath := some ⟨["b.rs"]⟩
     path := some ⟨["c.rs"]⟩
     status := "renamed"
     oldRanges := [⟨5, 5⟩]
     ranges := [⟨5, 5⟩]
     binary := false }]

/-- The base has a finding in `a.rs`. -/
def chainBase : FindingCatalog ℚ := ⟨1, [markerAt ⟨["a.rs"]⟩]⟩

lemma startsOnce_chainedRenames : StartsOnce chainedRenames := by
  unfold StartsOnce chainedRenames
  simp

theorem attributed_iff_ownRangesOnly_chainedRenames :
    Attributed (fun _ => 0) chainBase ⟨1, []⟩ chainedRenames ↔
      ∀ original ∈ chainBase.findings, ∀ location ∈ locations original,
        OwnRangesOnly chainedRenames location.path :=
  attributed_iff_ownRangesOnly _ chainBase ⟨1, []⟩ chainedRenames startsOnce_chainedRenames

/-- The finding of `a.rs` counts as resolved on a changed line, though no line of `a.rs` changed. -/
theorem not_attributed_chainedRenames :
    ((deepFindings (fun _ => 0) chainBase ⟨1, []⟩ chainedRenames).map ReviewFinding.state =
        [.change .resolved]) ∧
      (¬ ∃ original ∈ chainBase.findings, ∃ location ∈ locations original,
        OnOldChangedLine chainedRenames location) ∧
      ¬ Attributed (fun _ => 0) chainBase ⟨1, []⟩ chainedRenames := by
  refine ⟨by decide +kernel, ?_, fun h => ?_⟩
  · simp [chainBase, markerAt, locations, OnOldChangedLine, chainedRenames, touches]
  · have hown := h.own (markerAt ⟨["a.rs"]⟩) (by simp [chainBase])
      (markerAt ⟨["a.rs"]⟩).primaryLocation (by simp [locations])
      (chainedRenames.get ⟨1, by decide⟩) (by decide) (by decide) (by decide)
    revert hown
    decide

end Reposcout.Review
