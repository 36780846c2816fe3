import Reposcout.Properties.Metrics.Markers
import Reposcout.Scan.FileAnalysis

/-!
# Cached analyses are transparent

An entry of a cache file is a part of the complete analysis of its path and content, under every
configuration with the profile of the file.  So a hit, completed by the families it lacks, is the
analysis from scratch.

A profile forgets how often a marker is listed, while an analysis reports the occurrences of a
marker once for each listing.  So the configurations must not repeat a marker.
-/

namespace Reposcout.Scan

open Option KeyedList ArtifactRequirements SourceAnalysis HealthPolicy

open Metrics (SyntaxNode MarkerScan)

variable (A : Analyzers)

/-! ## Requirements -/

/-- Every fact family. -/
def ArtifactRequirements.all : ArtifactRequirements := ⟨true, true, true, true⟩

def SourceAnalysis.restrict {A : Analyzers} (requirements : ArtifactRequirements)
    (analysis : SourceAnalysis A) : SourceAnalysis A :=
  { analysis with
    symbolOutlines := if requirements.needsDefinitions then analysis.symbolOutlines else none
    definitions := if requirements.needsDefinitions then analysis.definitions else none
    lexicalFacts := if requirements.lexicalFacts then analysis.lexicalFacts else none
    definitionPlans := if requirements.definitionPlans then analysis.definitionPlans else none
    graphFacts := if requirements.graphFacts then analysis.graphFacts else none }

section

variable (info : LangInfo) (content : String) (tree : Option SyntaxNode) (config : AnalysisConfig)

/-- The counts of symbols, which no requirement changes. -/
def symbolCounts : Option A.SymbolCounts := (symbolFacts A info content tree config {}).1

lemma symbolFacts_eq (requirements : ArtifactRequirements) :
    symbolFacts A info content tree config requirements = (symbolCounts A info content tree config,
        if requirements.needsDefinitions then
          (some (declarationFacts A info.firstClass content tree).1,
            some (declarationFacts A info.firstClass content tree).2)
        else (none, none)) := by
  unfold symbolCounts symbolFacts declarationFacts
  cases requirements.needsDefinitions <;> cases info.firstClass <;> cases tree <;> rfl

lemma graphFacts_eq (relPath : String) (requirements : ArtifactRequirements)
    (definitions : DefinitionFacts) :
    graphFacts A info relPath content tree requirements definitions =
      if requirements.graphFacts then graphFacts A info relPath content tree .all definitions
      else none := by
  unfold graphFacts
  cases requirements.graphFacts <;> rfl

end

lemma needsDefinitions_of {requirements : ArtifactRequirements}
    (h : requirements.lexicalFacts ∨ requirements.definitionPlans ∨ requirements.graphFacts) :
    requirements.needsDefinitions = true := by
  unfold needsDefinitions
  rcases h with h | h | h <;> simp [h]

/-- **A required family does not depend on what else is required.** -/
lemma analyzeSourceDetails_eq (path : A.Path) (content : String) (config : AnalysisConfig)
    (policy : HealthPolicy) (counter : Option TokenEncoding)
    (requirements : ArtifactRequirements) :
    analyzeSourceDetails A path content config policy counter requirements =
      (analyzeSourceDetails A path content config policy counter .all).map
        (restrict requirements) := by
  unfold analyzeSourceDetails
  rw [Option.map_map]
  congr 1
  funext info
  have hall : all.needsDefinitions = true := rfl
  have hdefinitions : requirements.lexicalFacts ∨ requirements.definitionPlans ∨
      requirements.graphFacts → requirements.needsDefinitions = true := needsDefinitions_of
  simp only [symbolFacts_eq A]
  rw [graphFacts_eq A info content _ _ requirements, hall]
  unfold restrict
  cases hneeds : requirements.needsDefinitions with
  | true => simp [all]
  | false =>
    rw [hneeds] at hdefinitions
    simp only [not_or, Bool.not_eq_true, imp_false, Bool.false_eq_true] at hdefinitions
    simp [hdefinitions]

/-! ## Parts of an analysis -/

variable {A}

structure PartOf (cached : CachedAnalysis A) (analysis : SourceAnalysis A) : Prop where
  report : cached.report = analysis.report
  testRegions : cached.testRegions = analysis.testRegions
  symbolOutlines : ∀ facts, cached.symbolOutlines = some facts →
    analysis.symbolOutlines = some facts
  definitions : ∀ facts, cached.definitions = some facts → analysis.definitions = some facts
  lexicalFacts : ∀ facts, cached.lexicalFacts = some facts → analysis.lexicalFacts = some facts
  definitionPlans : ∀ facts, cached.definitionPlans = some facts →
    analysis.definitionPlans = some facts
  graphFacts : ∀ facts, cached.graphFacts = some facts → analysis.graphFacts = some facts

lemma partOf_toCached (requirements : ArtifactRequirements) (analysis : SourceAnalysis A) :
    PartOf (analysis.restrict requirements).toCached analysis := by
  constructor
  case report => rfl
  case testRegions => rfl
  all_goals
    intro facts h
    simp only [toCached, restrict] at h
    split_ifs at h
    exact h

lemma duplicationArtifact_eq (relPath content : String) :
    hintIsDuplicationArtifact (classify A relPath content).hint =
      (classify A relPath content).duplicationArtifact := by
  unfold classify hintIsDuplicationArtifact
  split_ifs <;> decide

section

variable {path : A.Path} {content : String} {config : AnalysisConfig} {policy : HealthPolicy}
  {counter : Option TokenEncoding} {requirements : ArtifactRequirements}
  {cached : CachedAnalysis A} {analysis : SourceAnalysis A}

structure Complete (path : A.Path) (content : String) (counter : Option TokenEncoding)
    (info : LangInfo) (analysis : SourceAnalysis A) : Prop where
  detected : A.detect path = some info
  language : analysis.report.language = info.name
  artifact : hintIsDuplicationArtifact analysis.report.skipHint = analysis.duplicationArtifact
  symbolOutlines : analysis.symbolOutlines =
    some (declarationFacts A info.firstClass content (parseFile A info content)).1
  definitions : analysis.definitions =
    some (declarationFacts A info.firstClass content (parseFile A info content)).2
  lexicalFacts : analysis.lexicalFacts = some (A.extractLexical path info.name content
    (parseFile A info content)
    (declarationFacts A info.firstClass content (parseFile A info content)).2)
  definitionPlans : analysis.definitionPlans = counter.map fun counter =>
    A.extractPlanning info.name content (parseFile A info content)
      (declarationFacts A info.firstClass content (parseFile A info content)).2 counter
  graphFacts : analysis.graphFacts = graphFacts A info (A.toStringLossy path) content
    (parseFile A info content) .all
    (declarationFacts A info.firstClass content (parseFile A info content)).2

lemma complete_of_analyze
    (h : analyzeSourceDetails A path content config policy counter .all = some analysis) :
    ∃ info, Complete path content counter info analysis := by
  obtain ⟨info, hinfo, rfl⟩ := map_eq_some_iff.mp h
  refine ⟨info, ?_⟩
  have hall : all.needsDefinitions = true := rfl
  simp only [symbolFacts_eq A, hall, if_true, getD_some]
  constructor
  case detected => exact hinfo
  case artifact => exact duplicationArtifact_eq _ _
  all_goals rfl

variable {info : LangInfo}

/-- The families that a cached analysis lacks are completed, the others stay. -/
lemma enrichCachedFacts_snd
    (hcomplete : Complete path content counter info analysis) (hpart : PartOf cached analysis) :
    (enrichCachedFacts path content counter requirements cached).2 =
      { report := cached.report
        testRegions := cached.testRegions
        symbolOutlines :=
          if requirements.needsDefinitions &&
              (cached.symbolOutlines.isNone || cached.definitions.isNone) then
            analysis.symbolOutlines
          else cached.symbolOutlines
        graphFacts :=
          if requirements.graphFacts && cached.graphFacts.isNone then analysis.graphFacts
          else cached.graphFacts
        definitions :=
          if requirements.needsDefinitions &&
              (cached.symbolOutlines.isNone || cached.definitions.isNone) then
            analysis.definitions
          else cached.definitions
        lexicalFacts :=
          if requirements.lexicalFacts && cached.lexicalFacts.isNone then analysis.lexicalFacts
          else cached.lexicalFacts
        definitionPlans :=
          if requirements.definitionPlans && cached.definitionPlans.isNone then
            analysis.definitionPlans
          else cached.definitionPlans } := by
  have hlanguage : cached.report.language = info.name := by
    rw [hpart.report, hcomplete.language]
  have htree : (info.firstClass.bind fun language => A.parse language content) =
      parseFile A info content := rfl
  -- where a family is completed, the definitions of the file are known
  have hdefinitions : (requirements.lexicalFacts ∨ requirements.definitionPlans ∨
      requirements.graphFacts) → (requirements.needsDefinitions &&
        (cached.symbolOutlines.isNone || cached.definitions.isNone)) = false →
      cached.definitions.getD emptyDefinitions =
        (declarationFacts A info.firstClass content (parseFile A info content)).2 := by
    intro hneeds hkept
    rw [needsDefinitions_of hneeds, Bool.true_and, Bool.or_eq_false_iff] at hkept
    cases hfound : cached.definitions with
    | none => simp [hfound] at hkept
    | some facts =>
      have hfacts := hpart.definitions facts hfound
      rw [hcomplete.definitions, some.injEq] at hfacts
      rw [hfacts, getD_some]
  have hgraph : requirements.graphFacts = true →
      ∀ definitions, graphFacts A info (A.toStringLossy path) content (parseFile A info content)
        requirements definitions = graphFacts A info (A.toStringLossy path) content
          (parseFile A info content) .all definitions := by
    intro hneeds definitions
    rw [graphFacts_eq, if_pos hneeds]
  obtain ⟨report, testRegions, outlines, graph, definitions, lexical, plans⟩ := cached
  unfold enrichCachedFacts
  simp only [hcomplete.detected, bind_some, htree]
  rw [hcomplete.symbolOutlines, hcomplete.definitions, hcomplete.lexicalFacts,
    hcomplete.definitionPlans, hcomplete.graphFacts]
  cases hO : requirements.needsDefinitions && (outlines.isNone || definitions.isNone) <;>
  cases hL : requirements.lexicalFacts && lexical.isNone <;>
  cases hP : requirements.definitionPlans && plans.isNone <;>
  cases hG : requirements.graphFacts && graph.isNone <;>
  cases hC : counter <;>
  simp_all

lemma partOf_enrich (requirements : ArtifactRequirements)
    (hcomplete : Complete path content counter info analysis)
    (hpart : PartOf cached analysis) :
    PartOf (enrichCachedFacts path content counter requirements cached).2 analysis := by
  rw [enrichCachedFacts_snd hcomplete hpart]
  constructor
  case report => exact hpart.report
  case testRegions => exact hpart.testRegions
  all_goals
    intro facts h
    dsimp only at h
    split_ifs at h
    · exact h
    · first
        | exact hpart.symbolOutlines facts h
        | exact hpart.definitions facts h
        | exact hpart.lexicalFacts facts h
        | exact hpart.definitionPlans facts h
        | exact hpart.graphFacts facts h

/-- **A completed hit has the families of the analysis from scratch.** -/
lemma toFile_enrich (requirements : ArtifactRequirements)
    (hcomplete : Complete path content counter info analysis)
    (hpart : PartOf cached analysis) :
    (enrichCachedFacts path content counter requirements cached).2.toFile content requirements
        (hintIsDuplicationArtifact cached.report.skipHint) =
      (analysis.restrict requirements).toFile content := by
  have hkept : ∀ {α : Type} {needed lacks : Bool} {old new : Option α},
      (old = none → lacks = true) → (∀ facts, old = some facts → new = some facts) →
      (if needed then (if needed && lacks then new else old) else none) =
        if needed then new else none := by
    intro α needed lacks old new hlacks hold
    cases needed with
    | false => rfl
    | true =>
      cases hfound : old with
      | none => simp [hlacks hfound]
      | some facts => simp [hold facts hfound]
  have hnone : ∀ {α : Type} {old : Option α}, old = none → old.isNone = true := by
    rintro α old rfl
    rfl
  rw [enrichCachedFacts_snd hcomplete hpart]
  unfold CachedAnalysis.toFile toFile restrict
  rw [hkept hnone hpart.lexicalFacts, hkept hnone hpart.definitionPlans,
    hkept hnone hpart.graphFacts, hkept (fun h => by simp [h]) hpart.symbolOutlines,
    hkept (fun h => by simp [h]) hpart.definitions, hpart.report, hpart.testRegions,
    hcomplete.artifact]

end

/-! ## Profiles -/

/-- No marker that is looked for is listed twice. -/
def PlainMarkers (config : AnalysisConfig) : Prop :=
  config.enabled.markers → (config.markers.filter (· ≠ "")).Nodup

def effectiveMarkers (config : AnalysisConfig) : List String :=
  if config.enabled.markers then config.markers.filter (· ≠ "") else []

lemma canonicalMarkers_perm {markers : List String} (h : (markers.filter (· ≠ "")).Nodup) :
    (canonicalMarkers markers).Perm (markers.filter (· ≠ "")) := by
  have hsorted : (sortBy compare (markers.filter (· ≠ ""))).Nodup :=
    (sortBy_perm _ _).nodup_iff.mpr h
  unfold canonicalMarkers
  rw [eraseReps_eq_self hsorted]
  exact sortBy_perm _ _

open AnalysisProfile

lemma effectiveMarkers_perm {config config' : AnalysisConfig} (h : PlainMarkers config)
    (h' : PlainMarkers config')
    (hprofile : fromConfig config = fromConfig config') :
    (effectiveMarkers config).Perm (effectiveMarkers config') := by
  have hcanonical : ∀ {config : AnalysisConfig}, PlainMarkers config →
      (fromConfig config).markers.Perm (effectiveMarkers config) := by
    intro config hplain
    unfold effectiveMarkers fromConfig
    dsimp only
    split_ifs with henabled
    · exact canonicalMarkers_perm (hplain henabled)
    · exact List.Perm.refl []
  exact (hcanonical h).symm.trans (hprofile ▸ hcanonical h')

lemma tokenEncoding_new_eq (encoding : String) : TokenEncoding.new encoding =
      if canonicalTokenEncoding encoding = "o200k_base" then some .o200k
      else if canonicalTokenEncoding encoding = "cl100k_base" then some .cl100k
      else none := by
  unfold TokenEncoding.new canonicalTokenEncoding
  dsimp only
  split_ifs with h₁ h₂ h₃ h₄ <;> simp_all

lemma tokenCounter_of_profile {config config' : AnalysisConfig}
    (hprofile : fromConfig config = fromConfig config')
    {counter counter' : Option TokenEncoding} (h : tokenCounter config = some counter)
    (h' : tokenCounter config' = some counter') : counter = counter' := by
  have hencoding : (if config.enabled.tokens then some (canonicalTokenEncoding config.encoding)
      else none) =
      if config'.enabled.tokens then some (canonicalTokenEncoding config'.encoding) else none :=
    congrArg tokenEncoding hprofile
  have hsame : tokenCounter config = tokenCounter config' := by
    unfold tokenCounter
    rw [tokenEncoding_new_eq, tokenEncoding_new_eq]
    split_ifs at hencoding ⊢ <;> simp_all
  exact some.inj (h.symm.trans (hsame.trans h'))

/-- An analyzer whose facts depend on the health policy is on. -/
def HealthEnabled (config : AnalysisConfig) : Prop :=
  config.enabled.complexity ∨ (AnalysisProfile.fromConfig config).markers ≠ []

lemma healthPolicy_new {config : AnalysisConfig} {policy : HealthPolicy}
    (h : new A config = some policy) :
    policy = ⟨config.healthScope, config.healthIncludes, config.healthExcludes⟩ := by
  unfold new at h
  split_ifs at h
  exact (some.inj h).symm

/-- **The health policy is a matter of the profile, where it matters.** -/
lemma eligible_of_profile {config config' : AnalysisConfig}
    (hprofile : fromConfig config = fromConfig config')
    (henabled : HealthEnabled config) {policy policy' : HealthPolicy}
    (h : new A config = some policy) (h' : new A config' = some policy')
    (path : A.Path) (info : LangInfo) :
    policy.eligible A path info = policy'.eligible A path info := by
  have hcomplexity : config.enabled.complexity = config'.enabled.complexity :=
    congrArg complexity hprofile
  have henabled' : HealthEnabled config' := by
    unfold HealthEnabled
    rw [← hcomplexity, ← hprofile]
    exact henabled
  have hhealth : ∀ {config : AnalysisConfig}, HealthEnabled config →
      (fromConfig config).healthScope = some config.healthScope ∧
      (config.healthScope = .source → ∀ format,
        format ∈ (fromConfig config).healthIncludes ↔
          format ∈ config.healthIncludes) ∧
      ∀ pattern, pattern ∈ (fromConfig config).healthExcludes ↔
        pattern ∈ config.healthExcludes := by
    intro config henabled
    have hflag : (config.enabled.complexity ||
        decide ((if config.enabled.markers then canonicalMarkers config.markers else []) ≠ [])) =
        true := by
      rw [Bool.or_eq_true, decide_eq_true_eq]
      exact henabled
    refine ⟨?_, fun hsource format => ?_, fun pattern => ?_⟩ <;>
      simp only [fromConfig, hflag, if_true, Bool.true_and, mem_eraseReps,
        mem_sortBy]
    rw [hsource, decide_eq_true rfl, if_pos rfl]
  obtain ⟨hscope, hincludes, hexcludes⟩ := hhealth henabled
  obtain ⟨hscope', hincludes', hexcludes'⟩ := hhealth henabled'
  have hsame : config.healthScope = config'.healthScope := by
    rw [hprofile] at hscope
    exact some.inj (hscope.symm.trans hscope')
  rw [healthPolicy_new h, healthPolicy_new h']
  unfold eligible includedInHealth
  have hpatterns : (config.healthExcludes.any fun pattern => A.globMatches pattern path) =
      config'.healthExcludes.any fun pattern => A.globMatches pattern path := by
    rw [Bool.eq_iff_iff, List.any_eq_true, List.any_eq_true]
    refine exists_congr fun pattern => and_congr_left fun _ => ?_
    rw [← hexcludes, hprofile, hexcludes']
  rw [hpatterns, ← hsame]
  by_cases hsource : config.healthScope = .source
  · have hformats : (config.healthIncludes.any fun format => format.languageName = info.name) =
        config'.healthIncludes.any fun format => format.languageName = info.name := by
      rw [Bool.eq_iff_iff, List.any_eq_true, List.any_eq_true]
      refine exists_congr fun format => and_congr_left fun _ => ?_
      rw [← hincludes hsource, hprofile, hincludes' (hsame ▸ hsource)]
    rw [hformats]
  · have hall : config.healthScope = .all := by
      cases hscope : config.healthScope with
      | source => exact absurd hscope hsource
      | all => rfl
    rw [hall]
    simp

variable (A) in
def scanFile (info : LangInfo) (content : String) (tree : Option SyntaxNode)
    (markers : List String) : MarkerScan :=
  match info.firstClass, tree with
  | some _, some tree => Metrics.scanDetailedInTree (contextHash A) content.toList markers tree
  | _, _ => Metrics.scanDetailed (contextHash A) content.toList markers

lemma scanFile_filter (info : LangInfo) (content : String) (tree : Option SyntaxNode)
    (markers : List String) :
    scanFile A info content tree (markers.filter (· ≠ "")) =
      scanFile A info content tree markers := by
  unfold scanFile
  cases info.firstClass <;> cases tree <;> exact Metrics.scanRanges_filter _ _ _ _

lemma scanFile_nil (info : LangInfo) (content : String) (tree : Option SyntaxNode) :
    scanFile A info content tree [] = .empty := by
  unfold scanFile
  cases info.firstClass <;> cases tree <;> rfl

lemma markerFacts_eq (info : LangInfo) (content : String) (tree : Option SyntaxNode)
    (config : AnalysisConfig) (healthEligible : Bool) :
    markerFacts A info content tree config healthEligible =
      if healthEligible then scanFile A info content tree (effectiveMarkers config) else .empty := by
  unfold markerFacts effectiveMarkers
  cases henabled : config.enabled.markers with
  | false => simp [scanFile_nil]
  | true =>
    cases healthEligible with
    | false => rfl
    | true =>
      simp only [Bool.not_true, Bool.or_self, Bool.false_eq_true, if_false, if_true,
        scanFile_filter]
      rfl

lemma scanFile_of_perm (info : LangInfo) (content : String) (tree : Option SyntaxNode)
    {markers markers' : List String} (h : markers.Nodup) (hperm : markers'.Perm markers) :
    scanFile A info content tree markers' = scanFile A info content tree markers := by
  unfold scanFile
  cases info.firstClass <;> cases tree <;> exact Metrics.scanRanges_of_perm _ _ _ h hperm

lemma nodup_effectiveMarkers {config : AnalysisConfig} (h : PlainMarkers config) :
    (effectiveMarkers config).Nodup := by
  unfold effectiveMarkers
  split_ifs with henabled
  · exact h henabled
  · exact List.nodup_nil

/-- **Two configurations with one profile give the same facts for every content.** -/
lemma analyzeSourceDetails_of_profile {config config' : AnalysisConfig}
    (hprofile : fromConfig config = fromConfig config')
    (hplain : PlainMarkers config) (hplain' : PlainMarkers config') {policy policy' : HealthPolicy}
    (h : new A config = some policy) (h' : new A config' = some policy')
    {counter counter' : Option TokenEncoding} (hcounter : tokenCounter config = some counter)
    (hcounter' : tokenCounter config' = some counter') (path : A.Path) (content : String)
    (requirements : ArtifactRequirements) :
    analyzeSourceDetails A path content config policy counter requirements =
      analyzeSourceDetails A path content config' policy' counter' requirements := by
  obtain rfl := tokenCounter_of_profile hprofile hcounter hcounter'
  have hcomplexity : config.enabled.complexity = config'.enabled.complexity :=
    congrArg complexity hprofile
  have himports : config.enabled.imports = config'.enabled.imports :=
    congrArg imports hprofile
  have hperm := effectiveMarkers_perm hplain hplain' hprofile
  have hmarkers : ∀ info tree, markerFacts A info content tree config
      (policy.eligible A path info) = markerFacts A info content tree config'
        (policy'.eligible A path info) := by
    intro info tree
    rw [markerFacts_eq, markerFacts_eq,
      scanFile_of_perm info content tree (nodup_effectiveMarkers hplain') hperm]
    by_cases henabled : HealthEnabled config
    · rw [eligible_of_profile hprofile henabled h h']
    · have hnone : effectiveMarkers config' = [] := by
        have hcanonical : (fromConfig config').markers = [] := by
          rw [← hprofile]
          exact not_not.mp (not_or.mp henabled).2
        unfold fromConfig at hcanonical
        unfold effectiveMarkers
        split_ifs with hon
        · dsimp only at hcanonical
          rw [if_pos hon] at hcanonical
          have hempty := canonicalMarkers_perm (hplain' hon)
          rw [hcanonical] at hempty
          exact hempty.symm.eq_nil
        · rfl
      rw [hnone, scanFile_nil]
      split_ifs <;> rfl
  have hcomplexities : ∀ info tree lineStats, complexityFacts A info content tree lineStats config
      (policy.eligible A path info) = complexityFacts A info content tree lineStats config'
        (policy'.eligible A path info) := by
    intro info tree lineStats
    unfold complexityFacts
    rw [← hcomplexity]
    cases hon : config.enabled.complexity with
    | false => rfl
    | true => rw [eligible_of_profile hprofile (.inl hon) h h']
  have hsymbols : ∀ info tree, symbolFacts A info content tree config requirements =
      symbolFacts A info content tree config' requirements := by
    intro info tree
    unfold symbolFacts
    rw [hcomplexity, himports]
  have himport : ∀ info tree, importFacts A info content tree config =
      importFacts A info content tree config' := by
    intro info tree
    unfold importFacts
    rw [himports]
  unfold analyzeSourceDetails
  simp only [hmarkers, hcomplexities, hsymbols, himport]

end Reposcout.Scan
