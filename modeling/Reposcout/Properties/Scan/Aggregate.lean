import Mathlib.Algebra.Order.BigOperators.Group.List
import Reposcout.Properties.Dup.Coverage
import Reposcout.Properties.Metrics.TestRegions
import Reposcout.Scan.Aggregate

/-!
# Coherent duplication ratios

The totals of a summary are the sums over its files and over its languages, and nothing has more
duplicated than analyzed lines, the production sources without their test regions included.
-/

namespace Reposcout.Scan.Aggregate

open Dup List KeyedList Intervals LanguageDuplication
open Metrics.TestCov (MergedRegions)

/-! ## Languages -/

variable {ofLanguage : LanguageDuplication → ℕ} {ofFile : FileDuplication → ℕ}
variable (fileCoverage : List FileDuplication)

lemma languagesOf_sum
    (hnew : ∀ name, ofLanguage (.new name) = 0)
    (hadd : ∀ language file, ofLanguage (language.addFile file) = ofLanguage language + ofFile file) :
    ((languagesOf fileCoverage).map fun language => ofLanguage language.2).sum =
      (fileCoverage.map ofFile).sum := by
  have hfold : ∀ (files : List FileDuplication) (languages : List (String × LanguageDuplication)),
      ((files.foldl (fun languages file => alter file.format
        (fun language => (language.getD (.new file.format)).addFile file) languages) languages).map
          fun language => ofLanguage language.2).sum =
        (languages.map fun language => ofLanguage language.2).sum + (files.map ofFile).sum := by
    intro files
    induction files with
    | nil => exact fun languages => rfl
    | cons file rest ih =>
      intro languages
      have halter := sum_map_alter (k := file.format)
        (g := fun language => (language.getD (.new file.format)).addFile file) ofLanguage languages
      have hold : ofLanguage ((get? file.format languages).getD (.new file.format)) =
          ((get? file.format languages).map ofLanguage).getD 0 := by
        cases get? file.format languages with
        | none => exact hnew file.format
        | some language => rfl
      rw [hadd, hold] at halter
      rw [foldl_cons, ih, map_cons, sum_cons]
      omega
  rw [languagesOf, hfold]
  exact Nat.zero_add _

variable {P : LanguageDuplication → Prop}

lemma languagesOf_forall (hnew : ∀ name, P (.new name))
    (hadd : ∀ language, P language → ∀ file ∈ fileCoverage, P (language.addFile file)) :
    ∀ language ∈ languagesOf fileCoverage, P language.2 := by
  have hfold : ∀ (files : List FileDuplication) (languages : List (String × LanguageDuplication)),
      (∀ file ∈ files, file ∈ fileCoverage) → (∀ language ∈ languages, P language.2) →
      ∀ language ∈ files.foldl (fun languages file => alter file.format
        (fun language => (language.getD (.new file.format)).addFile file) languages) languages,
        P language.2 := by
    intro files
    induction files with
    | nil => exact fun languages _ h => h
    | cons file rest ih =>
      intro languages hfiles h
      have hfile := hfiles file mem_cons_self
      refine ih _ (fun other hother => hfiles other (mem_cons_of_mem file hother)) ?_
      exact forall_mem_alter (P := fun _ language => P language) h
        (hadd _ (hnew _) file hfile) fun language hlanguage => hadd language hlanguage file hfile
  exact hfold fileCoverage [] (fun file hfile => hfile) nofun

structure Counts (ofLanguage : LanguageDuplication → ℕ) : Prop where
  addGroup : ∀ exact language, ofLanguage (language.addGroup exact) = ofLanguage language
  withPercentages : ∀ language, ofLanguage language.withPercentages = ofLanguage language

lemma counts_duplicatedLines : Counts duplicatedLines :=
  ⟨fun exact _ => by cases exact <;> rfl, fun _ => rfl⟩

lemma counts_duplicatedTokens : Counts duplicatedTokens :=
  ⟨fun exact _ => by cases exact <;> rfl, fun _ => rfl⟩

lemma countGroups_counts (exact : Bool)
    (groups : List (CloneGroup ℚ)) (languages : List (String × LanguageDuplication))
    (h : Counts ofLanguage) :
    ((groups.foldl (countGroup fileCoverage exact) languages).map fun entry =>
      ofLanguage entry.2) = languages.map fun entry => ofLanguage entry.2 := by
  induction groups generalizing languages with
  | nil => rfl
  | cons group rest ih =>
    rw [foldl_cons, ih, countGroup, map_map]
    apply map_congr_left
    intro entry _
    rw [Function.comp_apply]
    split_ifs
    · exact h.addGroup exact entry.2
    · rfl

lemma duplicationByLanguage_sum (duplication : Findings.Duplication)
    (fileCoverage : List FileDuplication) (h : Counts ofLanguage) :
    ((duplicationByLanguage duplication fileCoverage).map ofLanguage).sum =
      ((languagesOf fileCoverage).map fun entry => ofLanguage entry.2).sum := by
  rw [duplicationByLanguage, ((sortBy_perm compareLanguages _).map ofLanguage).sum_eq, map_map]
  have hpercentages : ofLanguage ∘ (fun entry : String × LanguageDuplication =>
      entry.2.withPercentages) = fun entry => ofLanguage entry.2 :=
    funext fun entry => h.withPercentages entry.2
  rw [hpercentages, countGroups_counts _ _ _ _ h, countGroups_counts _ _ _ _ h]

lemma duplicationByLanguage_forall (duplication : Findings.Duplication)
    (fileCoverage : List FileDuplication)
    (hgroup : ∀ exact language, P language → P (language.addGroup exact))
    (hpercentages : ∀ language, P language → P language.withPercentages)
    (h : ∀ entry ∈ languagesOf fileCoverage, P entry.2) :
    ∀ language ∈ duplicationByLanguage duplication fileCoverage, P language := by
  have hgroups : ∀ (exact : Bool) (groups : List (CloneGroup ℚ))
      (languages : List (String × LanguageDuplication)), (∀ entry ∈ languages, P entry.2) →
      ∀ entry ∈ groups.foldl (countGroup fileCoverage exact) languages, P entry.2 := by
    intro exact groups
    induction groups with
    | nil => exact fun languages hlanguages => hlanguages
    | cons group rest ih =>
      intro languages hlanguages
      refine ih _ fun entry hentry => ?_
      obtain ⟨old, hold, rfl⟩ := mem_map.mp hentry
      split_ifs
      · exact hgroup exact old.2 (hlanguages old hold)
      · exact hlanguages old hold
  intro language hlanguage
  obtain ⟨entry, hentry, rfl⟩ := mem_map.mp (mem_sortBy.mp hlanguage)
  exact hpercentages entry.2 (hgroups false _ _ (hgroups true _ _ h) entry hentry)

/-! ## Files -/

variable {coverage : DuplicateCoverage}

lemma mem_buildFileDuplicationCoverage {files : List FileReport} {tokenCounts : List (PathBuf × ℕ)}
    {formats : List (PathBuf × String)} {entry : FileDuplication} :
    entry ∈ buildFileDuplicationCoverage files coverage tokenCounts formats ↔
      ∃ file ∈ files, ∃ tokens, get? file.path tokenCounts = some tokens ∧
        fileDuplication coverage formats file tokens = entry := by
  simp [buildFileDuplicationCoverage]

lemma buildFileDuplicationCoverage_paths (files : List FileReport) (coverage : DuplicateCoverage)
    (tokenCounts : List (PathBuf × ℕ)) (formats : List (PathBuf × String)) :
    (buildFileDuplicationCoverage files coverage tokenCounts formats).map FileDuplication.path =
      (files.map FileReport.path).filter fun path =>
        (get? path tokenCounts).isSome := by
  induction files with
  | nil => rfl
  | cons file rest ih =>
    rw [buildFileDuplicationCoverage, filterMap_cons, map_cons, filter_cons]
    cases get? file.path tokenCounts with
    | none => exact ih
    | some tokens => exact congrArg (file.path :: ·) ih

variable {sets : List (PathBuf × IntervalSet)}

/-- The covered paths are among the analyzed ones, so the total is the sum over the files. -/
lemma total_eq_sum_files (hsets : SetsOk sets)
    {entries : List FileDuplication} (hentries : (entries.map FileDuplication.path).Nodup)
    (hpaths : ∀ path ∈ keys sets, path ∈ entries.map FileDuplication.path)
    (hfile : ∀ entry ∈ entries,
      ofFile entry = ((get? entry.path sets).map IntervalSet.len).getD 0) :
    (sets.map fun set => set.2.len).sum = (entries.map ofFile).sum := by
  rw [sum_map_eq_sum_get? hsets.nodup hentries hpaths, map_map]
  congr 1
  apply map_congr_left
  exact fun entry hentry => (hfile entry hentry).symm

/-! ## Production sources -/

def productionLines (file : FileReport) (regions : List LineRange) : Finset ℕ :=
  (Finset.Icc 1 file.loc).filter fun line =>
    ∀ range ∈ regions, ¬(range.start ≤ line ∧ line ≤ range.stop)

/-- The regions as intervals of lines counted from zero. -/
def regionIntervals (regions : List LineRange) : List Intervals.Interval :=
  regions.map fun range => (range.start - 1, range.stop)

variable {regions : List LineRange}

lemma spaced_regionIntervals (h : MergedRegions regions) :
    Intervals.Spaced (regionIntervals regions) := by
  constructor
  · intro r hr
    obtain ⟨range, hrange, rfl⟩ := mem_map.mp hr
    have hbounds := h.nonempty range hrange
    omega
  · apply Pairwise.map _ _ h.gaps
    intro a b hgap
    omega

lemma mem_points_regionIntervals {n : ℕ} :
    n ∈ points (regionIntervals regions) ↔
      ∃ range ∈ regions, range.start ≤ n + 1 ∧ n + 1 ≤ range.stop := by
  rw [mem_points, regionIntervals]
  constructor
  · rintro ⟨r, hr, hle, hlt⟩
    obtain ⟨range, hrange, rfl⟩ := mem_map.mp hr
    exact ⟨range, hrange, by omega, by omega⟩
  · rintro ⟨range, hrange, hle, hlt⟩
    refine ⟨_, mem_map_of_mem hrange, ?_, ?_⟩
    · dsimp only
      omega
    · exact hlt

/-- The lines outside of the regions, counted from zero. -/
lemma card_productionLines_eq (file : FileReport) (regions : List LineRange) :
    (productionLines file regions).card =
      (Finset.range file.loc \ points (regionIntervals regions)).card := by
  rw [← Finset.card_map (s := Finset.range file.loc \ _) (addRightEmbedding 1)]
  congr 1
  ext line
  rw [productionLines, Finset.mem_filter, Finset.mem_Icc, Finset.mem_map]
  constructor
  · rintro ⟨⟨hone, hle⟩, houtside⟩
    refine ⟨line - 1, ?_, Nat.sub_add_cancel hone⟩
    rw [Finset.mem_sdiff, Finset.mem_range, mem_points_regionIntervals, Nat.sub_add_cancel hone]
    refine ⟨by omega, ?_⟩
    rintro ⟨range, hrange, hin⟩
    exact houtside range hrange hin
  · rintro ⟨n, hn, rfl⟩
    rw [Finset.mem_sdiff, Finset.mem_range, mem_points_regionIntervals] at hn
    refine ⟨⟨?_, ?_⟩, ?_⟩
    · exact Nat.le_add_left 1 n
    · exact hn.1
    · exact fun range hrange hin => hn.2 ⟨range, hrange, hin⟩

variable {file : FileReport}

/-- Regions past the end of the file are clipped, so exactly the lines outside of all regions are
left. -/
lemma card_productionLines (h : MergedRegions regions) :
    (productionLines file regions).card = file.loc - testLines file regions := by
  have hinter : points (regionIntervals regions) ∩ Finset.range file.loc =
      (points (regionIntervals regions)).filter (· < file.loc) := by
    ext n
    simp
  have hsum : ((regionIntervals regions).map fun r => min r.2 file.loc - r.1) =
      regions.map fun range => min range.stop file.loc - (range.start - 1) := by
    rw [regionIntervals, map_map]
    rfl
  rw [card_productionLines_eq, Finset.card_sdiff, hinter, (spaced_regionIntervals h).card_below,
    hsum, Finset.card_range, testLines]
  omega

open DuplicateCoverage

lemma points_excludedSet (h : MergedRegions regions) :
    (excludedSet regions).points =
      points (regionIntervals regions) := by
  ext n
  rw [(excludedSet_spec regions).2, mem_points_regionIntervals]
  constructor
  · rintro ⟨range, hrange, -, hin⟩
    exact ⟨range, hrange, hin⟩
  · rintro ⟨range, hrange, hin⟩
    exact ⟨range, hrange, (h.nonempty range hrange).1, hin⟩

lemma coveredLinesExcluding_le (hsets : SetsOk coverage.linesByPath)
    (hbelow : pointsAt file.path coverage.linesByPath ⊆ Finset.range file.loc)
    (h : MergedRegions regions) :
    coverage.coveredLinesExcluding file.path regions ≤ (productionLines file regions).card := by
  rw [coveredLinesExcluding_eq hsets, points_excludedSet h,
    card_productionLines_eq]
  exact Finset.card_le_card (Finset.sdiff_subset_sdiff hbelow (Finset.Subset.refl _))

lemma foldl_add_pairs {α : Type} (f g : α → ℕ) (l : List α) (totals : ℕ × ℕ) :
    l.foldl (fun totals x => (totals.1 + f x, totals.2 + g x)) totals =
      (totals.1 + (l.map f).sum, totals.2 + (l.map g).sum) := by
  induction l generalizing totals with
  | nil => rfl
  | cons x rest ih =>
    rw [foldl_cons, ih, map_cons, sum_cons, map_cons, sum_cons, Nat.add_assoc, Nat.add_assoc]

lemma productionDuplication_eq (isSource : PathBuf → Bool) (files : List FileReport)
    (coverage : DuplicateCoverage) (testRegions : List (PathBuf × List LineRange))
    (complete : Bool) :
    (productionDuplication isSource files coverage testRegions complete).duplicatedLines =
        ((files.filter fun file => isSource file.path).map fun file =>
          coverage.coveredLinesExcluding file.path
            ((get? file.path testRegions).getD [])).sum ∧
      (productionDuplication isSource files coverage testRegions complete).analyzedLines =
        ((files.filter fun file => isSource file.path).map fun file =>
          file.loc - testLines file ((get? file.path testRegions).getD [])).sum := by
  have htotals := foldl_add_pairs
    (fun file : FileReport => coverage.coveredLinesExcluding file.path
      ((get? file.path testRegions).getD []))
    (fun file => file.loc - testLines file ((get? file.path testRegions).getD []))
    (files.filter fun file => isSource file.path) (0, 0)
  rw [productionDuplication]
  rw [htotals]
  exact ⟨Nat.zero_add _, Nat.zero_add _⟩

/-! ## Coherence -/

/-- Every instance lies in an analyzed file, within its lines and its tokens. -/
def InBounds (files : List FileReport) (tokenCounts : List (PathBuf × ℕ))
    (duplication : Findings.Duplication) : Prop :=
  ∀ group ∈ duplication.exact ++ duplication.near, ∀ item ∈ group.instances,
    ∃ file ∈ files, ∃ tokens, file.path = item.path ∧ get? item.path tokenCounts = some tokens ∧
      occupiedEndLine item ≤ file.loc ∧ item.endToken ≤ tokens

/-- What the numbers of a scan have in common. -/
structure Coherent (isSource : PathBuf → Bool) (files : List FileReport)
    (testRegions : List (PathBuf × List LineRange)) (fileCoverage : List FileDuplication)
    (summary : DuplicationSummary) (production : ProductionDuplication) : Prop where
  filesLines : summary.duplicatedLines = (fileCoverage.map FileDuplication.duplicatedLines).sum
  filesTokens : summary.duplicatedTokens = (fileCoverage.map FileDuplication.duplicatedTokens).sum
  languagesLines : summary.duplicatedLines =
    (summary.byLanguage.map LanguageDuplication.duplicatedLines).sum
  languagesTokens : summary.duplicatedTokens =
    (summary.byLanguage.map LanguageDuplication.duplicatedTokens).sum
  fileBounds : ∀ file ∈ fileCoverage,
    file.duplicatedLines ≤ file.lines ∧ file.duplicatedTokens ≤ file.tokens
  languageBounds : ∀ language ∈ summary.byLanguage,
    language.duplicatedLines ≤ language.lines ∧ language.duplicatedTokens ≤ language.tokens
  productionBound : production.duplicatedLines ≤ production.analyzedLines
  productionLines : production.analyzedLines =
    ((files.filter fun file => isSource file.path).map fun file =>
      (productionLines file ((get? file.path testRegions).getD [])).card).sum

section

variable {files : List FileReport} {tokenCounts : List (PathBuf × ℕ)}
  {duplication : Findings.Duplication}

def linesOf (files : List FileReport) (path : PathBuf) : ℕ :=
  ((get? path (indexBy FileReport.path files)).map FileReport.loc).getD 0

lemma linesOf_of_mem (hpaths : (files.map FileReport.path).Nodup)
    (hfile : file ∈ files) : linesOf files file.path = file.loc := by
  rw [linesOf, get?_indexBy_of_mem hpaths hfile]
  rfl

lemma InBounds.within (hpaths : (files.map FileReport.path).Nodup)
    (h : InBounds files tokenCounts duplication) :
    (fromDuplication duplication).Within
      (fun path => path ∈ (files.map FileReport.path).filter fun path =>
        (get? path tokenCounts).isSome)
      (linesOf files) fun path => (get? path tokenCounts).getD 0 := by
  apply within_fromDuplication
  intro group hgroup item hitem
  obtain ⟨file, hfile, tokens, hpath, htokens, hlines, hend⟩ := h group hgroup item hitem
  refine ⟨?_, ?_, ?_⟩
  · rw [mem_filter, htokens, ← hpath]
    exact ⟨mem_map_of_mem hfile, rfl⟩
  · rw [← hpath, linesOf_of_mem hpaths hfile]
    exact hlines
  · rw [htokens]
    exact hend

/-- A set below a bound covers at most as much. -/
lemma len_le (hsets : SetsOk sets) {path : PathBuf}
    {bound : ℕ} (h : pointsAt path sets ⊆ Finset.range bound) :
    ((get? path sets).map IntervalSet.len).getD 0 ≤ bound := by
  rw [hsets.len_eq, ← Finset.card_range bound]
  exact Finset.card_le_card h

lemma fileBounds (hpaths : (files.map FileReport.path).Nodup)
    (h : InBounds files tokenCounts duplication) (formats : List (PathBuf × String)) :
    ∀ entry ∈ buildFileDuplicationCoverage files (.fromDuplication duplication) tokenCounts formats,
      entry.duplicatedLines ≤ entry.lines ∧ entry.duplicatedTokens ≤ entry.tokens := by
  intro entry hentry
  obtain ⟨file, hfile, tokens, htokens, rfl⟩ := mem_buildFileDuplicationCoverage.mp hentry
  have hwithin := h.within hpaths
  constructor
  · have hbelow := hwithin.linesBelow file.path
    rw [linesOf_of_mem hpaths hfile] at hbelow
    exact len_le hwithin.linesOk hbelow
  · apply len_le hwithin.tokensOk
    have hbelow := hwithin.tokensBelow file.path
    rw [htokens] at hbelow
    exact hbelow

/-- No more is duplicated than analyzed. -/
def LanguageDuplication.Bounded (language : LanguageDuplication) : Prop :=
  language.duplicatedLines ≤ language.lines ∧ language.duplicatedTokens ≤ language.tokens

lemma languageBounds {fileCoverage : List FileDuplication} (h : ∀ file ∈ fileCoverage,
      file.duplicatedLines ≤ file.lines ∧ file.duplicatedTokens ≤ file.tokens)
    (duplication : Findings.Duplication) :
    ∀ language ∈ duplicationByLanguage duplication fileCoverage, language.Bounded := by
  have hfiles : ∀ entry ∈ languagesOf fileCoverage, entry.2.Bounded := by
    apply languagesOf_forall (P := Bounded)
    · exact fun name => ⟨Nat.le_refl 0, Nat.le_refl 0⟩
    · intro language hlanguage file hfile
      obtain ⟨hlines, htokens⟩ := h file hfile
      exact ⟨Nat.add_le_add hlanguage.1 hlines, Nat.add_le_add hlanguage.2 htokens⟩
  apply duplicationByLanguage_forall (P := Bounded) _ _ _ _ hfiles
  · intro exact language hlanguage
    cases exact with
    | true => exact hlanguage
    | false => exact hlanguage
  · exact fun language hlanguage => hlanguage

/-- **The ratios of a scan are coherent.** -/
theorem duplication_coherent (hpaths : (files.map FileReport.path).Nodup)
    (hbounds : InBounds files tokenCounts duplication) (formats : List (PathBuf × String))
    {testRegions : List (PathBuf × List LineRange)}
    (hregions : ∀ entry ∈ testRegions, MergedRegions entry.2) (isSource : PathBuf → Bool)
    (complete : Bool) :
    Coherent isSource files testRegions
      (buildFileDuplicationCoverage files (.fromDuplication duplication) tokenCounts formats)
      (summarizeDuplication duplication
        (buildFileDuplicationCoverage files (.fromDuplication duplication) tokenCounts formats)
        (.fromDuplication duplication))
      (productionDuplication isSource files (.fromDuplication duplication) testRegions
        complete) := by
  let fileCoverage :=
    buildFileDuplicationCoverage files (.fromDuplication duplication) tokenCounts formats
  have hwithin := hbounds.within hpaths
  have hcovered := fileBounds hpaths hbounds formats
  have hnames : fileCoverage.map FileDuplication.path = (files.map FileReport.path).filter
      fun path => (get? path tokenCounts).isSome :=
    buildFileDuplicationCoverage_paths files _ tokenCounts formats
  have hnodup : (fileCoverage.map FileDuplication.path).Nodup := hnames ▸ hpaths.filter _
  have hlines : (fromDuplication duplication).totalLines =
      (fileCoverage.map FileDuplication.duplicatedLines).sum := by
    apply total_eq_sum_files hwithin.linesOk hnodup
    · rw [hnames]
      exact hwithin.linesAllowed
    · intro entry hentry
      obtain ⟨file, -, tokens, -, rfl⟩ := mem_buildFileDuplicationCoverage.mp hentry
      rfl
  have htokens : (fromDuplication duplication).totalTokens =
      (fileCoverage.map FileDuplication.duplicatedTokens).sum := by
    apply total_eq_sum_files hwithin.tokensOk hnodup
    · rw [hnames]
      exact hwithin.tokensAllowed
    · intro entry hentry
      obtain ⟨file, -, tokens, -, rfl⟩ := mem_buildFileDuplicationCoverage.mp hentry
      rfl
  have hmerged : ∀ path, MergedRegions ((get? path testRegions).getD []) := by
    intro path
    cases hget : get? path testRegions with
    | none => exact ⟨nofun, Pairwise.nil⟩
    | some regions => exact hregions (path, regions) (mem_of_get? hget)
  obtain ⟨hduplicated, hanalyzed⟩ := productionDuplication_eq isSource files
    (.fromDuplication duplication) testRegions complete
  constructor
  · exact hlines
  · exact htokens
  · exact (hlines.trans (languagesOf_sum fileCoverage (fun _ => rfl) fun _ _ => rfl).symm).trans
      (duplicationByLanguage_sum duplication fileCoverage counts_duplicatedLines).symm
  · exact (htokens.trans (languagesOf_sum fileCoverage (fun _ => rfl) fun _ _ => rfl).symm).trans
      (duplicationByLanguage_sum duplication fileCoverage counts_duplicatedTokens).symm
  · exact hcovered
  · exact languageBounds hcovered duplication
  · rw [hduplicated, hanalyzed]
    apply sum_le_sum
    intro file hfile
    have hmem := (mem_filter.mp hfile).1
    rw [← card_productionLines (hmerged file.path)]
    apply coveredLinesExcluding_le hwithin.linesOk _ (hmerged file.path)
    rw [← linesOf_of_mem hpaths hmem]
    exact hwithin.linesBelow file.path
  · rw [hanalyzed]
    congr 1
    apply map_congr_left
    exact fun file _ => (card_productionLines (hmerged file.path)).symm

/-- A test region from the first line on, and one past the end of its file. -/
theorem duplication_coherent_clipped :
    let files : List FileReport :=
      [⟨.ofString "a.rs", "Rust", 10⟩, ⟨.ofString "b.rs", "Rust", 5⟩]
    let duplication : Findings.Duplication :=
      ⟨[⟨5, 9, 1, "Rust", "f", [⟨.ofString "a.rs", 2, 6, 1, 9, 10, 90, 3, 11⟩,
        ⟨.ofString "b.rs", 1, 5, 1, 9, 0, 80, 1, 9⟩]⟩], []⟩
    let tokenCounts := [(.ofString "a.rs", 20), (.ofString "b.rs", 9)]
    let testRegions := [(.ofString "a.rs", [⟨1, 3⟩, ⟨8, 40⟩])]
    let fileCoverage :=
      buildFileDuplicationCoverage files (.fromDuplication duplication) tokenCounts []
    let production :=
      productionDuplication (fun _ => true) files (.fromDuplication duplication) testRegions true
    Coherent (fun _ => true) files testRegions fileCoverage
        (summarizeDuplication duplication fileCoverage (.fromDuplication duplication)) production ∧
      (production.duplicatedLines, production.analyzedLines) = (8, 9) := by
  refine ⟨duplication_coherent ?_ ?_ [] ?_ _ true, ?_⟩
  · decide +kernel
  · intro group hgroup item hitem
    rw [mem_singleton.mp hgroup] at hitem
    rcases mem_cons.mp hitem with rfl | hitem
    · exact ⟨_, mem_cons_self, 20, by decide +kernel⟩
    · rw [mem_singleton.mp hitem]
      exact ⟨_, mem_cons_of_mem _ mem_cons_self, 9, by decide +kernel⟩
  · intro entry hentry
    rw [mem_singleton.mp hentry]
    exact ⟨by decide, by decide⟩
  · decide +kernel

end

end Reposcout.Scan.Aggregate
