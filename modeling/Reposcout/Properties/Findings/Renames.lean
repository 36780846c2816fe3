import Reposcout.Findings.Build
import Reposcout.Properties.Findings.Compare

/-!
# Renames do not change a comparison

A catalog whose paths are renamed holds the same findings, under the fingerprints of the new paths.
Once the renames are applied to the catalog before them, the comparison of both reports nothing.
-/

namespace Reposcout.Findings

open List KeyedList

variable {K : Type} (xxh3_128 : List UInt8 → BitVec 128)

/-! ## Renamed catalogs -/

/-- The fingerprint under which `build` files a finding: that of the content for a duplicate, that
of the path for any other finding. -/
def builtFingerprint (finding : FindingRecord K) : String :=
  if finding.kind = "duplication" then finding.fingerprint
  else pathFingerprint xxh3_128 finding.kind finding.primaryLocation.path.toStringLossy
    finding.identity

/-- Every finding has the fingerprint under which `build` files it. -/
def Built (catalog : FindingCatalog K) : Prop :=
  ∀ finding ∈ catalog.findings, finding.fingerprint = builtFingerprint xxh3_128 finding

def FindingLocation.rename (rename : PathBuf → PathBuf) (location : FindingLocation) :
    FindingLocation :=
  { location with path := rename location.path }

/-- A finding at the renamed paths, with its fingerprint computed again. -/
def FindingRecord.rename (rename : PathBuf → PathBuf) (finding : FindingRecord K) :
    FindingRecord K :=
  let moved :=
    { finding with
      primaryLocation := finding.primaryLocation.rename rename
      relatedLocations := finding.relatedLocations.map (FindingLocation.rename rename) }
  { moved with fingerprint := builtFingerprint xxh3_128 moved }

def FindingCatalog.rename (rename : PathBuf → PathBuf) (catalog : FindingCatalog K) :
    FindingCatalog K :=
  { catalog with findings := catalog.findings.map (FindingRecord.rename xxh3_128 rename) }

def locationPaths (finding : FindingRecord K) : List PathBuf :=
  finding.primaryLocation.path :: finding.relatedLocations.map FindingLocation.path

def ListsRenames (changedFiles : List ReviewChangedFile) (rename : PathBuf → PathBuf)
    (catalog : FindingCatalog K) : Prop :=
  ∀ finding ∈ catalog.findings, ∀ path ∈ locationPaths finding,
    renamedPath (renames changedFiles) path = rename path

def renamedFiles (rename : PathBuf → PathBuf) (catalog : FindingCatalog K) :
    List ReviewChangedFile :=
  (catalog.findings.flatMap locationPaths).map fun path =>
    { oldPath := some path
      path := some (rename path)
      status := "renamed"
      oldRanges := []
      ranges := []
      binary := false }

def filedUnder (catalog : FindingCatalog K) (fingerprint : String) : List (FindingRecord K) :=
  catalog.findings.filter fun finding => finding.fingerprint = fingerprint

/-- Two catalogs with the same findings, where those of one fingerprint keep their order. -/
structure SameFindings (catalog other : FindingCatalog K) : Prop where
  version : catalog.version = other.version
  filed : ∀ fingerprint, filedUnder catalog fingerprint = filedUnder other fingerprint

lemma SameFindings.refl (catalog : FindingCatalog K) : SameFindings catalog catalog :=
  ⟨rfl, fun _ => rfl⟩

lemma SameFindings.trans {first second third : FindingCatalog K} (h : SameFindings first second)
    (h' : SameFindings second third) : SameFindings first third :=
  ⟨h.version.trans h'.version, fun fingerprint => (h.filed fingerprint).trans (h'.filed fingerprint)⟩

variable {catalog other : FindingCatalog K}

lemma SameFindings.symm (h : SameFindings catalog other) : SameFindings other catalog :=
  ⟨h.version.symm, fun fingerprint => (h.filed fingerprint).symm⟩

/-- The findings of one fingerprint keep their order in a sort by fingerprint. -/
lemma SameFindings.sort (catalog : FindingCatalog K) : SameFindings
      { catalog with
        findings := sortBy (fun a b => Ord.compare a.fingerprint b.fingerprint)
          catalog.findings }
      catalog := by
  refine ⟨rfl, fun fingerprint => ?_⟩
  refine filter_sortBy (fun a b ha hb => ?_) catalog.findings
  rw [of_decide_eq_true ha, of_decide_eq_true hb, compare_eq_iff_eq.mpr rfl]
  decide

lemma SameFindings.recordAt (h : SameFindings catalog other) (fingerprint : String) :
    recordAt catalog fingerprint = recordAt other fingerprint := by
  rw [recordAt_eq, recordAt_eq, get?_indexBy, get?_indexBy]
  exact congrArg getLast? (h.filed fingerprint)

/-! ## The remapping -/

lemma get?_renames_renamedFiles (rename : PathBuf → PathBuf) (catalog : FindingCatalog K)
    {path : PathBuf} (h : path ∈ catalog.findings.flatMap locationPaths) :
    get? path (renames (renamedFiles rename catalog)) = some (rename path) := by
  unfold renames renamedFiles
  generalize catalog.findings.flatMap locationPaths = paths at h
  rw [filterMap_map]
  induction paths using reverseRecOn with
  | nil => cases h
  | append_singleton paths last ih =>
    rw [filterMap_append, foldl_append]
    change get? path (KeyedList.alter last (fun _ => rename last) _) = _
    rw [get?_alter]
    by_cases hlast : path = last
    · rw [if_pos hlast, hlast]
    · rw [if_neg hlast]
      exact ih ((mem_append.mp h).resolve_right (by simpa using hlast))

lemma listsRenames_renamedFiles (rename : PathBuf → PathBuf) (catalog : FindingCatalog K) :
    ListsRenames (renamedFiles rename catalog) rename catalog := by
  intro finding hfinding path hpath
  unfold renamedPath
  rw [get?_renames_renamedFiles rename catalog (mem_flatMap.mpr ⟨finding, hfinding, hpath⟩)]
  rfl

lemma renames_renamedFiles (rename : PathBuf → PathBuf) (catalog : FindingCatalog K) :
    renames (renamedFiles rename catalog) ≠ [] ∨ Built xxh3_128 catalog := by
  cases hfindings : catalog.findings with
  | nil =>
    right
    intro finding hfinding
    rw [hfindings] at hfinding
    cases hfinding
  | cons finding rest =>
    left
    intro hnone
    have hpath : finding.primaryLocation.path ∈ catalog.findings.flatMap locationPaths := by
      rw [hfindings]
      exact mem_flatMap.mpr ⟨finding, mem_cons_self .., mem_cons_self ..⟩
    have hget := get?_renames_renamedFiles rename catalog hpath
    rw [hnone] at hget
    cases hget

variable {rename : PathBuf → PathBuf} {changedFiles : List ReviewChangedFile}
variable {finding : FindingRecord K}

lemma remapFinding_eq
    (h : ∀ path ∈ locationPaths finding, renamedPath (renames changedFiles) path = rename path) :
    remapFinding xxh3_128 (renames changedFiles) finding = finding.rename xxh3_128 rename := by
  have hprimary : remapLocation (renames changedFiles) finding.primaryLocation =
      finding.primaryLocation.rename rename := by
    unfold remapLocation FindingLocation.rename
    rw [h _ (mem_cons_self ..)]
  have hrelated : finding.relatedLocations.map (remapLocation (renames changedFiles)) =
      finding.relatedLocations.map (FindingLocation.rename rename) := by
    refine map_congr_left fun location hlocation => ?_
    unfold remapLocation FindingLocation.rename
    rw [h _ (mem_cons_of_mem _ (mem_map_of_mem hlocation))]
  unfold remapFinding FindingRecord.rename builtFingerprint
  rw [hprimary, hrelated]
  by_cases hkind : finding.kind = "duplication"
  · simp [hkind]
  · simp [hkind]

lemma rename_eq_self (hbuilt : finding.fingerprint = builtFingerprint xxh3_128 finding)
    (h : ∀ path ∈ locationPaths finding, rename path = path) :
    finding.rename xxh3_128 rename = finding := by
  have hprimary : finding.primaryLocation.rename rename = finding.primaryLocation := by
    unfold FindingLocation.rename
    rw [h _ (mem_cons_self ..)]
  have hrelated : finding.relatedLocations.map (FindingLocation.rename rename) = finding.relatedLocations := by
    conv_rhs => rw [← map_id finding.relatedLocations]
    refine map_congr_left fun location hlocation => ?_
    unfold FindingLocation.rename
    rw [h _ (mem_cons_of_mem _ (mem_map_of_mem hlocation))]
    rfl
  unfold FindingRecord.rename
  rw [hprimary, hrelated]
  dsimp only
  rw [← hbuilt]

/-- **The remapped catalog has the findings at the renamed paths.** -/
lemma sameFindings_remapRenames {catalog : FindingCatalog K}
    (hlists : ListsRenames changedFiles rename catalog)
    (hbuilt : renames changedFiles ≠ [] ∨ Built xxh3_128 catalog) :
    SameFindings (remapRenames xxh3_128 catalog changedFiles)
      (catalog.rename xxh3_128 rename) := by
  unfold remapRenames FindingCatalog.rename
  by_cases hnone : renames changedFiles = []
  · have hself : catalog.findings.map (FindingRecord.rename xxh3_128 rename) =
        catalog.findings := by
      conv_rhs => rw [← map_id catalog.findings]
      refine map_congr_left fun finding hfinding => ?_
      refine rename_eq_self xxh3_128 (hbuilt.resolve_left (absurd hnone) finding hfinding) ?_
      intro path hpath
      rw [← hlists finding hfinding path hpath, hnone]
      rfl
    rw [if_pos hnone, hself]
    exact .refl catalog
  · rw [if_neg hnone]
    have hmap : catalog.findings.map (remapFinding xxh3_128 (renames changedFiles)) =
        catalog.findings.map (FindingRecord.rename xxh3_128 rename) :=
      map_congr_left fun finding hfinding =>
        remapFinding_eq xxh3_128 (hlists finding hfinding)
    rw [hmap]
    exact SameFindings.sort { catalog with
      findings := catalog.findings.map (FindingRecord.rename xxh3_128 rename) }

/-! ## The comparison -/

section

variable [Field K] [LinearOrder K] [IsStrictOrderedRing K]

/-- Nothing is reported. -/
def NoChanges (delta : FindingDelta K) : Prop := delta.changes = [] ∧ delta.counts = {}

lemma noChanges_of_recordAt {before after : FindingCatalog K}
    (h : ∀ fingerprint, recordAt before fingerprint = recordAt after fingerprint) :
    NoChanges (compare before after) := by
  have hnone : allChanges before after = [] := by
    rw [eq_nil_iff_forall_not_mem]
    intro change hmem
    obtain ⟨fingerprint, hchange⟩ := mem_allChanges_iff.mp hmem
    unfold changeAt at hchange
    rw [h fingerprint] at hchange
    cases hrecord : recordAt after fingerprint with
    | none => simp [hrecord] at hchange
    | some record => simp [hrecord, compareSeverity_self] at hchange
  by_cases hversion : before.version ≠ after.version ∨ before.version = 0
  · unfold compare
    rw [if_pos hversion]
    exact ⟨rfl, rfl⟩
  · have hchanges : (byId after).filterMap (currentChange (byId before)) ++
        (byId before).filterMap (previousChange (byId after)) = [] := hnone
    unfold compare
    rw [if_neg hversion]
    dsimp only
    rw [hchanges]
    exact ⟨rfl, rfl⟩

/-- **A comparison across renames reports nothing**, whether every path is listed or only those
that change. -/
theorem remapRenames_transparent (rename : PathBuf → PathBuf) (before after : FindingCatalog K)
    (hafter : SameFindings after (before.rename xxh3_128 rename)) :
    NoChanges (compare (remapRenames xxh3_128 before (renamedFiles rename before)) after) ∧
      ∀ changedFiles, ListsRenames changedFiles rename before →
        renames changedFiles ≠ [] ∨ Built xxh3_128 before →
        NoChanges (compare (remapRenames xxh3_128 before changedFiles) after) := by
  have hall : ∀ changedFiles, ListsRenames changedFiles rename before →
      renames changedFiles ≠ [] ∨ Built xxh3_128 before →
      NoChanges (compare (remapRenames xxh3_128 before changedFiles) after) := by
    intro changedFiles hlists hbuilt
    have hsame := (sameFindings_remapRenames xxh3_128 hlists hbuilt).trans hafter.symm
    exact noChanges_of_recordAt hsame.recordAt
  exact ⟨hall _ (listsRenames_renamedFiles rename before)
    (renames_renamedFiles xxh3_128 rename before), hall⟩

end

/-- A marker of a renamed file, and a duplicate that it shares with another file. -/
theorem remapRenames_transparent_moved :
    let before := build (fun _ => 0) [⟨⟨["old.rs"]⟩, none, [⟨"TODO", 3, 1, "c", 1⟩]⟩]
      ⟨[⟨9, 60, 1, "rust", "dup:v1:0",
        [⟨⟨["keep.rs"]⟩, 1, 9, 1, 2, 0, 90, 1, 60⟩, ⟨⟨["old.rs"]⟩, 1, 9, 1, 2, 0, 90, 1, 60⟩]⟩], []⟩
      [] ⟨10⟩
    let rename := fun path : PathBuf => if path = ⟨["old.rs"]⟩ then ⟨["new.rs"]⟩ else path
    NoChanges (compare
      (remapRenames (fun _ => 0) before
        [⟨some ⟨["old.rs"]⟩, some ⟨["new.rs"]⟩, "renamed", [], [], false⟩])
      (before.rename (fun _ => 0) rename)) := by
  intro before rename
  have hrenamed := remapRenames_transparent (fun _ => 0) rename before _ (.refl _)
  refine hrenamed.2 _ ?_ (.inl (by decide))
  unfold ListsRenames
  decide +kernel

end Reposcout.Findings
