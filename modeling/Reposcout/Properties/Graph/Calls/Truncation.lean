import Reposcout.Graph.Calls.Extract
import Reposcout.Properties.Graph.Calls.Resolve

/-!
# Bindings and truncated facts

That a declaration is the only one a site can mean is a statement about all declarations of its
file.  A relation of a file whose facts were cut off is never bound, but the facts of the file it
is bound into are not asked whether they were: an edge holds up against completing the facts
exactly when no usable relation reaches a file with incomplete facts.
-/

namespace Reposcout.Graph.Calls

open List Option KeyedList CallReferenceFacts

/-! ## Complete facts -/

/-- Facts that were not cut off. -/
def Complete (file : CallReferenceFacts) : Prop :=
  file.status ≠ .workTruncated ∧ file.status ≠ .factTruncated ∧ file.status ≠ .parseErrors

instance (file : CallReferenceFacts) : Decidable (Complete file) :=
  inferInstanceAs (Decidable (_ ∧ _ ∧ _))

/-- One entry for each file, whose declarations and owners carry its path. -/
structure WellFormed (facts : List CallReferenceFacts) : Prop where
  distinct : (facts.map CallReferenceFacts.sourcePath).Nodup
  declared : ∀ file ∈ facts, ∀ declaration ∈ file.declarations,
    declaration.symbol.path = file.sourcePath
  owned : ∀ file ∈ facts, ∀ relation ∈ file.relations, ∀ owner ∈ relation.owner,
    owner.path = file.sourcePath

lemma WellFormed.eq_of_path {facts : List CallReferenceFacts} (h : WellFormed facts)
    {file other : CallReferenceFacts} (hfile : file ∈ facts) (hother : other ∈ facts)
    (hpath : file.sourcePath = other.sourcePath) : file = other :=
  inj_on_of_nodup_map h.distinct hfile hother hpath

variable {file : CallReferenceFacts}

lemma get?_declarationIndex_of_mem {facts : List CallReferenceFacts}
    (hfacts : (facts.map sourcePath).Nodup)
    (hfile : file ∈ facts) :
    get? file.sourcePath (declarationIndex facts) =
      some (sortBy declarationOrder file.declarations) := by
  unfold declarationIndex
  rw [get?_map, (get?_groupBy_eq_some hfacts).mpr ⟨file, hfile, rfl, rfl⟩]
  rfl

/-! ## The edges of a topology -/

variable {edge : ResolvedCallReference}

lemma mem_edges {facts : List CallReferenceFacts} {modules : List CallModuleResolution} :
    edge ∈ (resolve facts modules).edges ↔ ∃ file ∈ facts, ∃ relation ∈ file.relations,
      outcome (declarationIndex facts) (moduleIndex modules) (file, relation) = .ok edge := by
  obtain ⟨_, topology, htally, heq⟩ := resolve_tally facts modules
  have hedges := htally.edges
  rw [heq, mem_sortBy, hedges]
  simp only [nil_append, mem_filterMap, Prod.exists, mem_relationsOf]
  have hperm := orderedFacts_perm facts
  constructor
  · rintro ⟨file, relation, ⟨hfile, hrelation⟩, hedge⟩
    refine ⟨file, hperm.mem_iff.mp hfile, relation, hrelation, ?_⟩
    unfold edgeOf at hedge
    split at hedge
    · cases hedge
    · next found houtcome => rw [houtcome, some.inj hedge]
  · rintro ⟨file, hfile, relation, hrelation, houtcome⟩
    refine ⟨file, relation, ⟨hperm.mem_iff.mpr hfile, hrelation⟩, ?_⟩
    simp [edgeOf, houtcome]

variable {relation : CallReferenceFact} {declarations : List (String × List CallDeclaration)}

lemma outcome_eq_ok {modules : List (CallModuleRequest × List CallModuleResolution)} :
    outcome declarations modules (file, relation) = .ok edge ↔ ∃ target resolver source,
        resolveRelation declarations modules file relation = .ok (target, resolver) ∧
        relation.owner.or (moduleSource file) = some source ∧
        edge = ⟨source, target, relation.site, relation.kind, relation.syntaxForm, resolver⟩ := by
  unfold outcome
  cases hresolve : resolveRelation declarations modules file relation with
  | error reason => simp
  | ok result =>
    cases hsource : relation.owner.or (moduleSource file) with
    | none => simp
    | some source =>
      obtain ⟨target, resolver⟩ := result
      simp only [Except.ok.injEq, Prod.mk.injEq, some.injEq]
      constructor
      · rintro rfl
        exact ⟨target, resolver, source, ⟨rfl, rfl⟩, rfl, rfl⟩
      · rintro ⟨_, _, _, ⟨rfl, rfl⟩, rfl, rfl⟩
        rfl

/-! ## Routes -/

inductive Asks (modules : List (CallModuleRequest × List CallModuleResolution))
    (file : CallReferenceFacts) (relation : CallReferenceFact) : String → String → String → Prop
  | imported {targetPath resolver : String} (binding : CallImportBinding)
      (hroute : relation.syntaxForm = .importedBinding)
      (hbinding : retainNarrowestImportScope
        (importsInScope file relation.candidate.root relation.site) = [binding])
      (hpath : resolvedModuleTarget modules file binding = .ok targetPath)
      (hresolver : importResolver modules binding file = .ok resolver) :
      Asks modules file relation targetPath
        (relation.candidate.member.getD binding.importedName) resolver
  | qualifiedImport {targetPath resolver : String} (binding : CallImportBinding)
      (hroute : relation.syntaxForm = .moduleQualified)
      (hbinding : retainNarrowestImportScope
        ((importsInScope file relation.candidate.root relation.site).filter (canQualify file)) =
          [binding])
      (hpath : resolvedModuleTarget modules file binding = .ok targetPath)
      (hresolver : importResolver modules binding file = .ok resolver) :
      Asks modules file relation targetPath
        (relation.candidate.member.getD relation.candidate.root) resolver
  | qualified {targetPath : String} (qualifier : String) (resolution : CallModuleResolution)
      (hroute : relation.syntaxForm = .moduleQualified)
      (hnone : retainNarrowestImportScope
        ((importsInScope file relation.candidate.root relation.site).filter (canQualify file)) = [])
      (hqualifier : relation.candidate.qualifier = some qualifier)
      (hresolution : uniqueModuleResolution
        (get? (qualifierRequest file relation qualifier) modules) = .ok resolution)
      (hpath : moduleTargetPath file.sourcePath resolution = .ok targetPath) :
      Asks modules file relation targetPath
        (relation.candidate.member.getD relation.candidate.root)
        ("rust-qualified+" ++ resolution.resolver.getD "local-module")

variable {target : CallSymbolIdentity}

lemma resolveThrough_eq_ok
    {modules : List (CallModuleRequest × List CallModuleResolution)}
    {binding : CallImportBinding} {name resolver : String} :
    resolveThrough declarations modules file relation binding name = .ok (target, resolver) ↔
      ∃ targetPath, resolvedModuleTarget modules file binding = .ok targetPath ∧
        importResolver modules binding file = .ok resolver ∧
        resolveTarget declarations targetPath name file.sourcePath relation.kind = .ok target := by
  unfold resolveThrough
  cases hpath : resolvedModuleTarget modules file binding with
  | error reason => simp
  | ok targetPath =>
    cases htarget : resolveTarget declarations targetPath name file.sourcePath relation.kind with
    | error reason => simp [htarget]
    | ok symbol =>
      cases hresolver : importResolver modules binding file with
      | error reason => simp [htarget]
      | ok known => simp [htarget, and_comm]

lemma resolveImported_eq_ok {modules : List (CallModuleRequest × List CallModuleResolution)}
    {resolver : String} :
    resolveImported declarations modules file relation = .ok (target, resolver) ↔
      ∃ binding, retainNarrowestImportScope
          (importsInScope file relation.candidate.root relation.site) = [binding] ∧
        resolveThrough declarations modules file relation binding
          (relation.candidate.member.getD binding.importedName) = .ok (target, resolver) := by
  unfold resolveImported
  match retainNarrowestImportScope
      (importsInScope file relation.candidate.root relation.site) with
  | [] => simp [uniqueImport]
  | [binding] => simp [uniqueImport]
  | _ :: _ :: _ => simp [uniqueImport]

/-- **What a bound relation asks for**: a declaration in a scope around it, or a name in the file of
a module. -/
lemma resolveRelation_eq_ok {modules : List (CallModuleRequest × List CallModuleResolution)}
    {resolver : String} :
    resolveRelation declarations modules file relation = .ok (target, resolver) ↔
      refusal file relation = none ∧ ((relation.syntaxForm = .localDirect ∧
            resolveLocal declarations file relation = .ok (target, resolver)) ∨
          ∃ targetPath name, Asks modules file relation targetPath name resolver ∧
            resolveTarget declarations targetPath name file.sourcePath relation.kind =
              .ok target) := by
  constructor
  · intro h
    unfold resolveRelation at h
    split at h
    · cases h
    · next hrefusal =>
      refine ⟨hrefusal, ?_⟩
      split at h
      · next hroute => exact .inl ⟨hroute, h⟩
      · next hroute =>
        obtain ⟨binding, hbinding, hthrough⟩ := resolveImported_eq_ok.mp h
        obtain ⟨targetPath, hpath, hresolver, htarget⟩ := resolveThrough_eq_ok.mp hthrough
        exact .inr ⟨_, _, .imported binding hroute hbinding hpath hresolver, htarget⟩
      · next hroute =>
        unfold resolveQualified at h
        dsimp only at h
        split at h
        · cases h
        · next binding hbinding =>
          obtain ⟨targetPath, hpath, hresolver, htarget⟩ := resolveThrough_eq_ok.mp h
          exact .inr ⟨_, _, .qualifiedImport binding hroute hbinding hpath hresolver, htarget⟩
        · next hnone =>
          split at h
          · cases h
          · next qualifier hqualifier =>
            split at h
            · cases h
            · next resolution hresolution =>
              split at h
              · cases h
              · next targetPath hpath =>
                split at h
                · cases h
                · next symbol htarget =>
                  cases h
                  exact .inr ⟨_, _,
                    .qualified qualifier resolution hroute hnone hqualifier hresolution hpath,
                    htarget⟩
      · cases h
      · cases h
  · rintro ⟨hrefusal, ⟨hroute, hlocal⟩ | ⟨targetPath, name, hasks, htarget⟩⟩
    · rw [resolveRelation, hrefusal, hroute]
      exact hlocal
    · rw [resolveRelation, hrefusal]
      cases hasks with
      | imported binding hroute hbinding hpath hresolver =>
        rw [hroute]
        exact resolveImported_eq_ok.mpr
          ⟨binding, hbinding, resolveThrough_eq_ok.mpr ⟨targetPath, hpath, hresolver, htarget⟩⟩
      | qualifiedImport binding hroute hbinding hpath hresolver =>
        rw [hroute]
        rw [resolveQualified, hbinding]
        exact resolveThrough_eq_ok.mpr ⟨targetPath, hpath, hresolver, htarget⟩
      | qualified qualifier resolution hroute hnone hqualifier hresolution hpath =>
        rw [hroute]
        rw [resolveQualified, hnone, hqualifier]
        dsimp only
        rw [hresolution]
        dsimp only
        rw [hpath]
        dsimp only
        rw [htarget]

lemma source_complete {facts : List CallReferenceFacts} (h : WellFormed facts)
    (hfile : file ∈ facts) (hrelation : relation ∈ file.relations)
    (hrefusal : refusal file relation = none) {source : CallSymbolIdentity}
    (hsource : relation.owner.or (moduleSource file) = some source) :
    source.path = file.sourcePath ∧ Complete file := by
  refine ⟨?_, ?_⟩
  · cases howner : relation.owner with
    | some owner =>
      rw [howner, some_or] at hsource
      rw [← some.inj hsource]
      exact h.owned file hfile relation hrelation owner howner
    | none =>
      rw [howner, none_or, moduleSource, map_eq_some_iff] at hsource
      obtain ⟨_, _, rfl⟩ := hsource
      rfl
  · obtain ⟨hstatus, _⟩ := refusal_eq_none hrefusal
    rcases hstatus with hstatus | hstatus <;> simp [Complete, hstatus]

/-! ## Targets -/

/-- A file has one declaration that a relation of another file can mean by a name, and it is not
overloaded. -/
def OnlyDeclares (file target : CallReferenceFacts) (relation : CallReferenceFact) (name : String)
    (declaration : CallDeclaration) : Prop :=
  target.declarations.filter
      (targetMatches target.sourcePath name file.sourcePath relation.kind) = [declaration] ∧
    declaration.overloaded = false

/-- **A target is found** in a file exactly when it is the symbol of its only declaration. -/
lemma resolveTarget_eq_ok {facts : List CallReferenceFacts}
    (hfacts : (facts.map sourcePath).Nodup)
    {targetPath name : String} {symbol : CallSymbolIdentity} :
    resolveTarget (declarationIndex facts) targetPath name file.sourcePath relation.kind =
        .ok symbol ↔
      ∃ target ∈ facts, target.sourcePath = targetPath ∧ ∃ declaration,
        OnlyDeclares file target relation name declaration ∧ declaration.symbol = symbol := by
  constructor
  · intro h
    obtain ⟨target, htarget, rfl, declaration, honly, hsymbol, hoverloaded⟩ :=
      resolveTarget_ok hfacts h
    exact ⟨target, htarget, rfl, declaration, ⟨honly, hoverloaded⟩, hsymbol⟩
  · rintro ⟨target, htarget, rfl, declaration, ⟨honly, hoverloaded⟩, rfl⟩
    have hperm := (sortBy_perm declarationOrder target.declarations).filter
      (targetMatches target.sourcePath name file.sourcePath relation.kind)
    rw [honly, perm_singleton] at hperm
    unfold resolveTarget
    rw [get?_declarationIndex_of_mem hfacts htarget]
    dsimp only
    rw [hperm, if_neg (by simp [hoverloaded])]
    rfl

/-! ## What completing the facts can change -/

structure DeclarationGrows (old new : CallDeclaration) : Prop where
  symbol : new.symbol = old.symbol
  scopeSpan : new.scopeSpan = old.scopeSpan
  exportNames : old.exportNames ⊆ new.exportNames
  overloaded : old.overloaded = true → new.overloaded = true

/-- Completing the facts of a file: complete facts stay, others gain declarations, exports and
overload marks. -/
structure Completes (old new : CallReferenceFacts) : Prop where
  path : new.sourcePath = old.sourcePath
  complete : Complete old → new = old
  declarations : ∃ kept, List.Forall₂ DeclarationGrows old.declarations kept ∧
    kept.Sublist new.declarations

/-- Every edge has its source and its target in files with complete facts. -/
def EdgesComplete (facts : List CallReferenceFacts) (modules : List CallModuleResolution) : Prop :=
  ∀ edge ∈ (resolve facts modules).edges, ∀ file ∈ facts,
    file.sourcePath = edge.source.path ∨ file.sourcePath = edge.target.path → Complete file

instance (facts : List CallReferenceFacts) (modules : List CallModuleResolution) :
    Decidable (EdgesComplete facts modules) :=
  inferInstanceAs (Decidable (∀ edge ∈ (resolve facts modules).edges, ∀ file ∈ facts, _ → _))

/-- Every edge is still there, with its target, when the facts are completed. -/
def EdgesPersist (facts : List CallReferenceFacts) (modules : List CallModuleResolution) : Prop :=
  ∀ completed, List.Forall₂ Completes facts completed →
    ∀ edge ∈ (resolve facts modules).edges, edge ∈ (resolve completed modules).edges

/-- No relation that can be bound asks for the only declaration of a file with incomplete facts. -/
def NoIncompleteTarget (facts : List CallReferenceFacts) (modules : List CallModuleResolution) :
    Prop :=
  ∀ file ∈ facts, ∀ relation ∈ file.relations, refusal file relation = none →
    ∀ target ∈ facts, ∀ name resolver declaration,
      Asks (moduleIndex modules) file relation target.sourcePath name resolver →
      OnlyDeclares file target relation name declaration → Complete target

lemma edgesComplete_iff {facts : List CallReferenceFacts} {modules : List CallModuleResolution}
    (h : WellFormed facts) : EdgesComplete facts modules ↔ NoIncompleteTarget facts modules := by
  constructor
  · intro hedges file hfile relation hrelation hrefusal target htarget name resolver declaration
      hasks honly
    obtain ⟨source, hsource⟩ := isSome_iff_exists.mp (refusal_eq_none hrefusal).2.2
    have hok := resolveRelation_eq_ok.mpr ⟨hrefusal, .inr ⟨_, _, hasks,
      (resolveTarget_eq_ok h.distinct).mpr ⟨target, htarget, rfl, declaration, honly, rfl⟩⟩⟩
    have hedge := mem_edges.mpr ⟨file, hfile, relation, hrelation,
      outcome_eq_ok.mpr ⟨_, _, source, hok, hsource, rfl⟩⟩
    have hmem : declaration ∈ [declaration] := mem_singleton_self declaration
    rw [← honly.1] at hmem
    have hpath := h.declared target htarget declaration (mem_filter.mp hmem).1
    exact hedges _ hedge target htarget (.inr hpath.symm)
  · intro hnone edge hedge file hfile hpath
    obtain ⟨sourceFile, hsourceFile, relation, hrelation, houtcome⟩ := mem_edges.mp hedge
    obtain ⟨symbol, resolver, source, hok, hsource, rfl⟩ := outcome_eq_ok.mp houtcome
    obtain ⟨hrefusal, hroute⟩ := resolveRelation_eq_ok.mp hok
    obtain ⟨hsourcePath, hcomplete⟩ := source_complete h hsourceFile hrelation hrefusal hsource
    rcases hpath with hpath | hpath
    · rw [h.eq_of_path hfile hsourceFile (hpath.trans hsourcePath)]
      exact hcomplete
    · rcases hroute with ⟨_, hlocal⟩ | ⟨targetPath, name, hasks, htarget⟩
      · -- A declaration in scope is one of the own file.
        obtain ⟨declaration, honly, hsymbol, _⟩ :=
          resolveLocal_ok h.distinct hsourceFile hlocal
        have hmem : declaration ∈ [declaration] := mem_singleton_self declaration
        rw [← honly] at hmem
        have hdeclared := h.declared sourceFile hsourceFile declaration
          (mem_filter.mp (mem_filter.mp hmem).1).1
        rw [hsymbol] at hdeclared
        rw [h.eq_of_path hfile hsourceFile (hpath.trans hdeclared)]
        exact hcomplete
      · obtain ⟨target, htargetMem, rfl, declaration, honly, hsymbol⟩ :=
          (resolveTarget_eq_ok h.distinct).mp htarget
        have hmem : declaration ∈ [declaration] := mem_singleton_self declaration
        rw [← honly.1] at hmem
        have hdeclared := h.declared target htargetMem declaration (mem_filter.mp hmem).1
        rw [hsymbol] at hdeclared
        rw [h.eq_of_path hfile htargetMem (hpath.trans hdeclared)]
        exact hnone sourceFile hsourceFile relation hrelation hrefusal target htargetMem name
          resolver declaration hasks honly

/-! ## Completing the facts -/

lemma paths_of_completes {facts completed : List CallReferenceFacts}
    (h : List.Forall₂ Completes facts completed) :
    completed.map sourcePath = facts.map sourcePath := by
  induction h with
  | nil => rfl
  | cons hfile _ ih => rw [map_cons, map_cons, hfile.path, ih]

lemma mem_of_completes {facts completed : List CallReferenceFacts}
    (h : List.Forall₂ Completes facts completed) (hfile : file ∈ facts)
    (hcomplete : Complete file) : file ∈ completed := by
  induction h with
  | nil => simp at hfile
  | cons hhead _ ih =>
    rcases mem_cons.mp hfile with rfl | hfile
    · rw [hhead.complete hcomplete]
      exact mem_cons_self
    · exact mem_cons_of_mem _ (ih hfile)

lemma edgesPersist_of_edgesComplete {facts : List CallReferenceFacts}
    {modules : List CallModuleResolution} (h : WellFormed facts)
    (hedges : EdgesComplete facts modules) : EdgesPersist facts modules := by
  intro completed hcompletes edge hedge
  have hdistinct : (completed.map sourcePath).Nodup := by
    rw [paths_of_completes hcompletes]
    exact h.distinct
  obtain ⟨file, hfile, relation, hrelation, houtcome⟩ := mem_edges.mp hedge
  obtain ⟨symbol, resolver, source, hok, hsource, rfl⟩ := outcome_eq_ok.mp houtcome
  obtain ⟨hrefusal, hroute⟩ := resolveRelation_eq_ok.mp hok
  obtain ⟨_, hcomplete⟩ := source_complete h hfile hrelation hrefusal hsource
  have hfile' : file ∈ completed := mem_of_completes hcompletes hfile hcomplete
  refine mem_edges.mpr ⟨file, hfile', relation, hrelation,
    outcome_eq_ok.mpr ⟨symbol, resolver, source, ?_, hsource, rfl⟩⟩
  refine resolveRelation_eq_ok.mpr ⟨hrefusal, ?_⟩
  rcases hroute with ⟨hform, hlocal⟩ | ⟨targetPath, name, hasks, htarget⟩
  · refine .inl ⟨hform, ?_⟩
    unfold resolveLocal at hlocal ⊢
    rw [get?_declarationIndex_of_mem hdistinct hfile']
    rw [get?_declarationIndex_of_mem h.distinct hfile] at hlocal
    exact hlocal
  · refine .inr ⟨targetPath, name, hasks, ?_⟩
    obtain ⟨target, htargetMem, rfl, declaration, honly, hsymbol⟩ :=
      (resolveTarget_eq_ok h.distinct).mp htarget
    have hmem : declaration ∈ [declaration] := mem_singleton_self declaration
    rw [← honly.1] at hmem
    have hdeclared := h.declared target htargetMem declaration (mem_filter.mp hmem).1
    rw [hsymbol] at hdeclared
    have htargetComplete : Complete target :=
      hedges _ hedge target htargetMem (.inr hdeclared.symm)
    exact (resolveTarget_eq_ok hdistinct).mpr
      ⟨target, mem_of_completes hcompletes htargetMem htargetComplete, rfl, declaration, honly,
        hsymbol⟩

namespace CutOff

def span (startByte endByte : ℕ) : SourceSpan := ⟨startByte, endByte, 1, 1⟩

/-- A file whose syntax tree was not walked to its end. -/
def library : CallReferenceFacts where
  status := .workTruncated
  language := "TypeScript"
  sourcePath := "b.ts"
  sourceHash := "hash"
  declarations :=
    [⟨⟨"b.ts", "hash", "work", "function", span 7 25⟩, ["work"], span 0 900000, false⟩]
  imports := []
  relations := []
  moduleSpan := some (span 0 900000)
  coverage := ⟨0⟩

/-- `import { work } from './b'; work();` -/
def consumer : CallReferenceFacts where
  status := .available
  language := "TypeScript"
  sourcePath := "main.ts"
  sourceHash := "hash"
  declarations := []
  imports := [⟨"./b", "work", "work", .namedImport, span 0 27, span 0 36, []⟩]
  relations := [⟨.call, .importedBinding, span 28 34, none, ⟨"work", none, none, [], false⟩⟩]
  moduleSpan := some (span 0 36)
  coverage := ⟨0⟩

def facts : List CallReferenceFacts := [library, consumer]

def modules : List CallModuleResolution :=
  [⟨⟨"main.ts", "TypeScript", "./b", []⟩, some "b.ts", some "js-relative", .resolved⟩]

lemma wellFormed_facts : WellFormed facts where
  distinct := by decide
  declared := by decide
  owned := by decide

end CutOff

end Reposcout.Graph.Calls
