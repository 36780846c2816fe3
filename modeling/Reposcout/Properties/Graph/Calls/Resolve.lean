import Reposcout.Graph.Calls.Resolve

/-!
# What an edge of the call graph stands for

An edge is bound by scope, by an import or by a qualifying path, and in each case its target is the
only declaration that could be meant.  Every relation gives one edge or one unresolved record, and
neither depends on the order in which the files and the module resolutions come.
-/

namespace Reposcout.Graph.Calls

open List KeyedList CallReferenceFacts CallModuleResolution

/-! ## Only targets -/

def OnlyNarrowest {α : Type} (scope : α → SourceSpan) (values : List α) (value : α) : Prop :=
  values.filter (fun other => spanLen (scope other) ≤ spanLen (scope value)) = [value]

lemma onlyNarrowest_of_retainNarrowest {α : Type} {scope : α → SourceSpan} {values : List α}
    {value : α} (h : retainNarrowest scope values = [value]) :
    OnlyNarrowest scope values value := by
  unfold retainNarrowest at h
  cases hmin : (values.map fun value => spanLen (scope value)).min? with
  | none =>
    rw [min?_eq_none_iff, map_eq_nil_iff] at hmin
    subst hmin
    cases h
  | some shortest =>
    rw [hmin] at h
    dsimp only at h
    have hmem : value ∈ values.filter fun value => spanLen (scope value) = shortest := by
      rw [h]
      exact mem_singleton_self value
    obtain ⟨_, hvalue⟩ := mem_filter.mp hmem
    have hle : ∀ other ∈ values, shortest ≤ spanLen (scope other) := fun other hother =>
      (min?_eq_some_iff.mp hmin).2 _ (mem_map_of_mem hother)
    unfold OnlyNarrowest
    rw [← h]
    refine filter_congr fun other hother => ?_
    rw [of_decide_eq_true hvalue]
    have := hle other hother
    exact decide_eq_decide.mpr (by omega)

lemma eq_nil_of_retainNarrowest {α : Type} {scope : α → SourceSpan} {values : List α}
    (h : retainNarrowest scope values = []) : values = [] := by
  unfold retainNarrowest at h
  split at h
  · exact h
  · rename_i shortest hmin
    obtain ⟨value, hvalue, hshortest⟩ := mem_map.mp (min?_eq_some_iff.mp hmin).1
    exact absurd (filter_eq_nil_iff.mp h value hvalue) (by simpa using hshortest)

variable {target : CallSymbolIdentity} {candidates : List CallDeclaration}

lemma uniqueTarget_ok (h : uniqueTarget candidates = .ok target) :
    ∃ declaration, candidates = [declaration] ∧ declaration.symbol = target := by
  match candidates, h with
  | [declaration], h => exact ⟨declaration, rfl, Except.ok.inj h⟩

variable {binding : CallImportBinding}

lemma uniqueImport_ok {imports : List CallImportBinding} (h : uniqueImport imports = .ok binding) :
    imports = [binding] := by
  match imports, h with
  | [only], h => rw [Except.ok.inj h]

structure ModuleFile (facts : List CallReferenceFacts) (modules : List CallModuleResolution)
    (file : CallReferenceFacts) (request : CallModuleRequest) (resolution : CallModuleResolution)
    (target : CallReferenceFacts) : Prop where
  resolution_mem : resolution ∈ modules
  resolution_request : resolution.request = request
  single : ∀ other ∈ modules, other.request = request → other = resolution
  target_mem : target ∈ facts
  target_path : (resolution.status = .resolved ∧ resolution.targetPath = some target.sourcePath) ∨
    (resolution.status = .sameFile ∧ target.sourcePath = file.sourcePath)

def OnlyTarget (facts : List CallReferenceFacts) (modules : List CallModuleResolution)
    (file : CallReferenceFacts) (relation : CallReferenceFact) (request : CallModuleRequest)
    (name : String) (declaration : CallDeclaration) : Prop :=
  ∃ resolution target, ModuleFile facts modules file request resolution target ∧
    target.declarations.filter
      (targetMatches target.sourcePath name file.sourcePath relation.kind) = [declaration]

/-- **What binds a relation to a declaration.** -/
inductive Bound (facts : List CallReferenceFacts) (modules : List CallModuleResolution)
    (file : CallReferenceFacts) (relation : CallReferenceFact) (declaration : CallDeclaration) :
    Prop where
  /-- It is the only candidate in a narrowest scope around the site. -/
  | scope (hroute : relation.syntaxForm = .localDirect)
      (honly : OnlyNarrowest CallDeclaration.scopeSpan
        (file.declarations.filter (localMatches relation)) declaration)
  /-- It is the only target in the module of the narrowest import of the name. -/
  | imported (hroute : relation.syntaxForm = .importedBinding) (binding : CallImportBinding)
      (hbinding : OnlyNarrowest CallImportBinding.scopeSpan
        (importsInScope file relation.candidate.root relation.site) binding)
      (honly : OnlyTarget facts modules file relation (importRequest file binding)
        (relation.candidate.member.getD binding.importedName) declaration)
  /-- It is the only target in the module of the narrowest import that can qualify a site. -/
  | qualifiedImport (hroute : relation.syntaxForm = .moduleQualified)
      (binding : CallImportBinding)
      (hbinding : OnlyNarrowest CallImportBinding.scopeSpan
        ((importsInScope file relation.candidate.root relation.site).filter (canQualify file))
        binding)
      (honly : OnlyTarget facts modules file relation (importRequest file binding)
        (relation.candidate.member.getD relation.candidate.root) declaration)
  /-- It is the only target in the module of the qualifying path, and no import can qualify. -/
  | qualified (hroute : relation.syntaxForm = .moduleQualified) (qualifier : String)
      (hqualifier : relation.candidate.qualifier = some qualifier)
      (hnone : (importsInScope file relation.candidate.root relation.site).filter
        (canQualify file) = [])
      (honly : OnlyTarget facts modules file relation (qualifierRequest file relation qualifier)
        (relation.candidate.member.getD relation.candidate.root) declaration)

section

variable {facts : List CallReferenceFacts} {modules : List CallModuleResolution}

lemma get?_declarationIndex (hfacts : (facts.map sourcePath).Nodup)
    {path : String} {declarations : List CallDeclaration}
    (h : get? path (declarationIndex facts) = some declarations) :
    ∃ file ∈ facts, file.sourcePath = path ∧
      declarations = sortBy declarationOrder file.declarations := by
  unfold declarationIndex at h
  rw [get?_map, Option.map_eq_some_iff] at h
  obtain ⟨found, hfound, rfl⟩ := h
  obtain ⟨file, hfile, hpath, rfl⟩ := (get?_groupBy_eq_some hfacts).mp hfound
  exact ⟨file, hfile, hpath, rfl⟩

lemma filter_sortBy_eq_singleton {p : CallDeclaration → Bool} {declaration : CallDeclaration}
    (h : (sortBy declarationOrder candidates).filter p = [declaration]) :
    candidates.filter p = [declaration] := by
  have hperm := (sortBy_perm declarationOrder candidates).filter p
  rw [h] at hperm
  exact (singleton_perm.mp hperm).symm

variable {resolution : CallModuleResolution}

lemma uniqueModuleResolution_ok (hmodules : (modules.map request).Nodup)
    {request : CallModuleRequest}
    (h : uniqueModuleResolution (get? request (moduleIndex modules)) = .ok resolution) :
    resolution ∈ modules ∧ resolution.request = request ∧
      ∀ other ∈ modules, other.request = request → other = resolution := by
  cases hget : get? request (moduleIndex modules) with
  | none =>
    rw [hget] at h
    cases h
  | some resolutions =>
    obtain ⟨only, honly, hrequest, rfl⟩ :=
      (get?_groupBy_eq_some hmodules).mp hget
    have hsame : resolution = only := by
      rw [hget] at h
      by_cases hstatus : only.status = .resolved ∨ only.status = .sameFile
      · have hfilter : [only].filter (fun resolution : CallModuleResolution =>
            decide (resolution.status = .resolved) || decide (resolution.status = .sameFile)) =
            [only] := by simpa using hstatus
        unfold uniqueModuleResolution at h
        dsimp only at h
        rw [hfilter] at h
        exact (Except.ok.inj h).symm
      · have hfilter : [only].filter (fun resolution : CallModuleResolution =>
            decide (resolution.status = .resolved) || decide (resolution.status = .sameFile)) =
            [] := by simpa using hstatus
        unfold uniqueModuleResolution at h
        dsimp only at h
        rw [hfilter] at h
        cases h
    subst hsame
    exact ⟨honly, hrequest, fun other hother hsame =>
      inj_on_of_nodup_map hmodules hother honly (hsame.trans hrequest.symm)⟩

lemma moduleTargetPath_ok {sourcePath path : String}
    (h : moduleTargetPath sourcePath resolution = .ok path) :
    (resolution.status = .resolved ∧ resolution.targetPath = some path) ∨
      (resolution.status = .sameFile ∧ path = sourcePath) := by
  unfold moduleTargetPath at h
  cases hstatus : resolution.status with
  | resolved =>
    rw [hstatus] at h
    cases htarget : resolution.targetPath with
    | none =>
      rw [htarget] at h
      cases h
    | some target =>
      rw [htarget] at h
      exact .inl ⟨rfl, congrArg some (Except.ok.inj h)⟩
  | sameFile =>
    rw [hstatus] at h
    exact .inr ⟨rfl, (Except.ok.inj h).symm⟩
  | external =>
    rw [hstatus] at h
    cases h
  | unresolved =>
    rw [hstatus] at h
    cases h

lemma resolveTarget_ok (hfacts : (facts.map sourcePath).Nodup)
    {targetPath targetName sourcePath : String} {kind : CallReferenceKind}
    (h : resolveTarget (declarationIndex facts) targetPath targetName sourcePath kind =
      .ok target) :
    ∃ file ∈ facts, file.sourcePath = targetPath ∧ ∃ declaration,
      file.declarations.filter (targetMatches targetPath targetName sourcePath kind) =
        [declaration] ∧ declaration.symbol = target ∧ declaration.overloaded = false := by
  unfold resolveTarget at h
  split at h
  · cases h
  · rename_i declarations hget
    obtain ⟨file, hfile, hpath, rfl⟩ := get?_declarationIndex hfacts hget
    dsimp only at h
    split_ifs at h with hoverloaded
    obtain ⟨declaration, honly, htarget⟩ := uniqueTarget_ok h
    refine ⟨file, hfile, hpath, declaration, filter_sortBy_eq_singleton honly, htarget, ?_⟩
    rw [honly] at hoverloaded
    simpa using hoverloaded

variable {relation : CallReferenceFact} {file : CallReferenceFacts}

lemma onlyTarget_of_ok (hfacts : (facts.map sourcePath).Nodup)
    (hmodules : (modules.map request).Nodup)
    {request : CallModuleRequest} {name targetPath : String}
    (hresolution : uniqueModuleResolution (get? request (moduleIndex modules)) = .ok resolution)
    (hpath : moduleTargetPath file.sourcePath resolution = .ok targetPath)
    (htarget : resolveTarget (declarationIndex facts) targetPath name file.sourcePath
      relation.kind = .ok target) :
    ∃ declaration, OnlyTarget facts modules file relation request name declaration ∧
      declaration.symbol = target ∧ declaration.overloaded = false := by
  obtain ⟨hmem, hrequest, hsingle⟩ := uniqueModuleResolution_ok hmodules hresolution
  obtain ⟨targetFile, htargetMem, rfl, declaration, honly, hsymbol, hoverloaded⟩ :=
    resolveTarget_ok hfacts htarget
  exact ⟨declaration, ⟨resolution, targetFile,
    ⟨hmem, hrequest, hsingle, htargetMem, moduleTargetPath_ok hpath⟩, honly⟩, hsymbol,
    hoverloaded⟩

/-! ## Routes -/

variable {result : CallSymbolIdentity × String}

section

variable (hfacts : (facts.map CallReferenceFacts.sourcePath).Nodup)

include hfacts

lemma resolveLocal_ok
    (hfile : file ∈ facts)
    (h : resolveLocal (declarationIndex facts) file relation = .ok result) :
    ∃ declaration, OnlyNarrowest CallDeclaration.scopeSpan
        (file.declarations.filter (localMatches relation)) declaration ∧
      declaration.symbol = result.1 ∧ declaration.overloaded = false := by
  unfold resolveLocal at h
  split at h
  · cases h
  · rename_i declarations hget
    obtain ⟨same, hsame, hpath, rfl⟩ := get?_declarationIndex hfacts hget
    obtain rfl := inj_on_of_nodup_map hfacts hsame hfile hpath
    dsimp only at h
    split_ifs at h with hoverloaded
    split at h
    · cases h
    · rename_i target htarget
      cases h
      obtain ⟨declaration, honly, hsymbol⟩ := uniqueTarget_ok htarget
      have hnarrowest := onlyNarrowest_of_retainNarrowest honly
      have hmem : declaration ∈ (sortBy declarationOrder same.declarations).filter
          (localMatches relation) := by
        have hself : declaration ∈ [declaration] := mem_singleton_self declaration
        rw [← hnarrowest] at hself
        exact (mem_filter.mp hself).1
      refine ⟨declaration, ?_, hsymbol, ?_⟩
      · unfold OnlyNarrowest at hnarrowest ⊢
        rw [filter_filter] at hnarrowest ⊢
        exact filter_sortBy_eq_singleton hnarrowest
      · rw [any_eq_true, not_exists] at hoverloaded
        simpa [hmem] using hoverloaded declaration

variable (hmodules : (modules.map request).Nodup)

include hmodules

lemma resolveThrough_ok {name : String}
    (h : resolveThrough (declarationIndex facts) (moduleIndex modules) file relation binding name =
      .ok result) :
    ∃ declaration, OnlyTarget facts modules file relation (importRequest file binding) name
        declaration ∧ declaration.symbol = result.1 ∧ declaration.overloaded = false := by
  unfold resolveThrough at h
  split at h
  · cases h
  · rename_i targetPath hpath
    split at h
    · cases h
    · rename_i target htarget
      split at h
      · cases h
      · cases h
        unfold resolvedModuleTarget at hpath
        split at hpath
        · cases hpath
        · rename_i resolution hresolution
          exact onlyTarget_of_ok hfacts hmodules hresolution hpath htarget

lemma resolveImported_ok (hroute : relation.syntaxForm = .importedBinding)
    (h : resolveImported (declarationIndex facts) (moduleIndex modules) file relation =
      .ok result) : ∃ declaration, Bound facts modules file relation declaration ∧
      declaration.symbol = result.1 ∧ declaration.overloaded = false := by
  unfold resolveImported at h
  split at h
  · cases h
  · rename_i binding hbinding
    obtain ⟨declaration, honly, htarget⟩ := resolveThrough_ok hfacts hmodules h
    exact ⟨declaration, .imported hroute binding
      (onlyNarrowest_of_retainNarrowest (uniqueImport_ok hbinding)) honly, htarget⟩

lemma resolveQualified_ok (hroute : relation.syntaxForm = .moduleQualified)
    (h : resolveQualified (declarationIndex facts) (moduleIndex modules) file relation =
      .ok result) : ∃ declaration, Bound facts modules file relation declaration ∧
      declaration.symbol = result.1 ∧ declaration.overloaded = false := by
  unfold resolveQualified at h
  dsimp only at h
  split at h
  · cases h
  · rename_i binding hbinding
    obtain ⟨declaration, honly, htarget⟩ := resolveThrough_ok hfacts hmodules h
    exact ⟨declaration, .qualifiedImport hroute binding
      (onlyNarrowest_of_retainNarrowest hbinding) honly, htarget⟩
  · rename_i hnone
    split at h
    · cases h
    · rename_i qualifier hqualifier
      split at h
      · cases h
      · rename_i resolution hresolution
        split at h
        · cases h
        · rename_i targetPath hpath
          split at h
          · cases h
          · rename_i target htarget
            cases h
            obtain ⟨declaration, honly, htarget⟩ :=
              onlyTarget_of_ok hfacts hmodules hresolution hpath htarget
            exact ⟨declaration, .qualified hroute qualifier hqualifier
              (eq_nil_of_retainNarrowest hnone) honly, htarget⟩

end

/-- Nothing is bound that has an unusable file, form or name. -/
lemma refusal_eq_none (h : refusal file relation = none) :
    (file.status = .available ∨ file.status = .unavailable) ∧ relation.candidate.shadowed = false ∧
      (relation.owner.or (moduleSource file)).isSome := by
  unfold refusal at h
  split at h
  iterate 6 cases h
  split_ifs at h with hshadowed howner
  refine ⟨?_, by simpa using hshadowed, ?_⟩
  · cases hstatus : file.status <;> simp_all
  · unfold moduleSource
    cases howns : relation.owner with
    | some owner => rfl
    | none =>
      cases hspan : file.moduleSpan with
      | some span => rfl
      | none => exact absurd ⟨howns, hspan⟩ howner

/-- **A resolved relation is bound.** -/
lemma resolveRelation_ok (hfacts : (facts.map sourcePath).Nodup)
    (hmodules : (modules.map request).Nodup)
    (hfile : file ∈ facts)
    (h : resolveRelation (declarationIndex facts) (moduleIndex modules) file relation =
      .ok result) :
    ∃ declaration, Bound facts modules file relation declaration ∧
      declaration.symbol = result.1 ∧ declaration.overloaded = false := by
  unfold resolveRelation at h
  split at h
  · cases h
  · cases hroute : relation.syntaxForm with
    | localDirect =>
      rw [hroute] at h
      obtain ⟨declaration, honly, htarget⟩ := resolveLocal_ok hfacts hfile h
      exact ⟨declaration, .scope hroute honly, htarget⟩
    | importedBinding =>
      rw [hroute] at h
      exact resolveImported_ok hfacts hmodules hroute h
    | moduleQualified =>
      rw [hroute] at h
      exact resolveQualified_ok hfacts hmodules hroute h
    | receiver =>
      rw [hroute] at h
      cases h
    | dynamic =>
      rw [hroute] at h
      cases h

end

/-! ## Accounting -/

def relationsOf (facts : List CallReferenceFacts) :
    List (CallReferenceFacts × CallReferenceFact) :=
  facts.flatMap fun file => file.relations.map fun relation => (file, relation)

variable {site : CallReferenceFacts × CallReferenceFact}

lemma mem_relationsOf {facts : List CallReferenceFacts}
    :
    site ∈ relationsOf facts ↔ site.1 ∈ facts ∧ site.2 ∈ site.1.relations := by
  unfold relationsOf
  rw [mem_flatMap]
  constructor
  · rintro ⟨file, hfile, hsite⟩
    obtain ⟨relation, hrelation, rfl⟩ := mem_map.mp hsite
    exact ⟨hfile, hrelation⟩
  · rintro ⟨hfile, hrelation⟩
    exact ⟨site.1, hfile, mem_map.mpr ⟨site.2, hrelation, rfl⟩⟩

section

variable (declarations : List (String × List CallDeclaration))
  (modules : List (CallModuleRequest × List CallModuleResolution))

/-- The edge of a relation, or why there is none. -/
def outcome (site : CallReferenceFacts × CallReferenceFact) :
    Except CallUnresolvedReason ResolvedCallReference :=
  match resolveRelation declarations modules site.1 site.2 with
  | .error reason => .error reason
  | .ok (target, resolver) =>
    match site.2.owner.or (moduleSource site.1) with
    | none => .error .missingOwner
    | some source =>
      .ok ⟨source, target, site.2.site, site.2.kind, site.2.syntaxForm, resolver⟩

def edgeOf (site : CallReferenceFacts × CallReferenceFact) : Option ResolvedCallReference :=
  match outcome declarations modules site with
  | .error _ => none
  | .ok edge => some edge

def recordOf (site : CallReferenceFacts × CallReferenceFact) : Option UnresolvedCallReference :=
  match outcome declarations modules site with
  | .error reason => some ⟨site.1.sourcePath, site.1.sourceHash, site.2.site, site.2.kind,
      site.2.syntaxForm, site.2.candidate, reason⟩
  | .ok _ => none

/-- What examining some relations adds to a topology. -/
structure Tally (sites : List (CallReferenceFacts × CallReferenceFact))
    (topology examined : CallReferenceTopology) : Prop where
  edges : examined.edges = topology.edges ++ sites.filterMap (edgeOf declarations modules)
  unresolved : examined.unresolved =
    topology.unresolved ++ sites.filterMap (recordOf declarations modules)
  examinedCount : examined.coverage.examined = topology.coverage.examined + sites.length
  resolvedCount : examined.coverage.resolved =
    topology.coverage.resolved + (sites.filterMap (edgeOf declarations modules)).length
  unresolvedCount : examined.coverage.unresolved =
    topology.coverage.unresolved + (sites.filterMap (recordOf declarations modules)).length

variable {declarations modules}

lemma Tally.refl (topology : CallReferenceTopology) :
    Tally declarations modules [] topology topology :=
  ⟨by simp, by simp, rfl, rfl, rfl⟩

lemma Tally.trans {first second : List (CallReferenceFacts × CallReferenceFact)}
    {start middle final : CallReferenceTopology} (h : Tally declarations modules first start middle)
    (h' : Tally declarations modules second middle final) :
    Tally declarations modules (first ++ second) start final where
  edges := by rw [h'.edges, h.edges, filterMap_append, append_assoc]
  unresolved := by rw [h'.unresolved, h.unresolved, filterMap_append, append_assoc]
  examinedCount := by
    rw [h'.examinedCount, h.examinedCount, length_append, Nat.add_assoc]
  resolvedCount := by
    rw [h'.resolvedCount, h.resolvedCount, filterMap_append, length_append, Nat.add_assoc]
  unresolvedCount := by
    rw [h'.unresolvedCount, h.unresolvedCount, filterMap_append, length_append, Nat.add_assoc]

variable (file : CallReferenceFacts)

lemma tally_examine (relation : CallReferenceFact) (topology : CallReferenceTopology) :
    Tally declarations modules [(file, relation)] topology
      (examine declarations modules file topology relation) := by
  unfold examine
  cases hresolve : resolveRelation declarations modules file relation with
  | error reason =>
    have houtcome : outcome declarations modules (file, relation) = .error reason := by
      simp [outcome, hresolve]
    constructor <;> simp [pushUnresolved, edgeOf, recordOf, houtcome] <;> split_ifs <;> rfl
  | ok result =>
    cases howner : relation.owner.or (moduleSource file) with
    | none =>
      have houtcome : outcome declarations modules (file, relation) = .error .missingOwner := by
        simp [outcome, hresolve, howner]
      constructor <;> simp [pushUnresolved, edgeOf, recordOf, houtcome]
    | some source =>
      have houtcome : outcome declarations modules (file, relation) =
          .ok ⟨source, result.1, relation.site, relation.kind, relation.syntaxForm, result.2⟩ := by
        simp [outcome, hresolve, howner]
      constructor <;> simp [edgeOf, recordOf, houtcome]

lemma tally_relations (relations : List CallReferenceFact) (topology : CallReferenceTopology) :
    Tally declarations modules (relations.map fun relation => (file, relation)) topology
      (relations.foldl (examine declarations modules file) topology) := by
  induction relations generalizing topology with
  | nil => exact Tally.refl topology
  | cons relation relations ih =>
    exact (tally_examine file relation topology).trans
      (ih (examine declarations modules file topology relation))

lemma tally_files (files : List CallReferenceFacts) (topology : CallReferenceTopology) :
    Tally declarations modules (relationsOf files) topology
      (files.foldl (fun topology file =>
        file.relations.foldl (examine declarations modules file) topology) topology) := by
  induction files generalizing topology with
  | nil => exact Tally.refl topology
  | cons file files ih =>
    exact (tally_relations file file.relations topology).trans (ih _)

lemma edges_records_perm (sites : List (CallReferenceFacts × CallReferenceFact)) :
    (((sites.filterMap (edgeOf declarations modules)).map fun edge =>
        (edge.site, edge.kind, edge.syntaxForm)) ++
      ((sites.filterMap (recordOf declarations modules)).map fun record =>
        (record.site, record.kind, record.syntaxForm))).Perm
      (sites.map fun site => (site.2.site, site.2.kind, site.2.syntaxForm)) := by
  induction sites with
  | nil => exact Perm.nil
  | cons site sites ih =>
    cases houtcome : outcome declarations modules site with
    | error reason =>
      have hedge : edgeOf declarations modules site = none := by simp [edgeOf, houtcome]
      have hrecord : recordOf declarations modules site = some ⟨site.1.sourcePath,
          site.1.sourceHash, site.2.site, site.2.kind, site.2.syntaxForm, site.2.candidate,
          reason⟩ := by
        simp [recordOf, houtcome]
      rw [filterMap_cons_none hedge, filterMap_cons_some hrecord]
      exact perm_middle.trans (ih.cons _)
    | ok edge =>
      have hedge : edgeOf declarations modules site = some edge := by simp [edgeOf, houtcome]
      have hrecord : recordOf declarations modules site = none := by simp [recordOf, houtcome]
      have hsite : (edge.site, edge.kind, edge.syntaxForm) =
          (site.2.site, site.2.kind, site.2.syntaxForm) := by
        unfold outcome at houtcome
        split at houtcome
        · cases houtcome
        · split at houtcome
          · cases houtcome
          · rw [← Except.ok.inj houtcome]
      rw [filterMap_cons_some hedge, filterMap_cons_none hrecord, map_cons, map_cons, hsite]
      exact ih.cons _

end

/-! ## The order of the inputs -/

instance : Std.TransCmp fun left right : CallReferenceFacts =>
    compare left.sourcePath right.sourcePath :=
  inferInstanceAs (Std.TransCmp (compareOn CallReferenceFacts.sourcePath))

lemma orderedFacts_perm (facts : List CallReferenceFacts) : (orderedFacts facts).Perm facts :=
  sortBy_perm _ facts

lemma orderedFacts_of_perm {facts permuted : List CallReferenceFacts}
    (hfacts : (facts.map sourcePath).Nodup) (hperm : permuted.Perm facts) :
    orderedFacts permuted = orderedFacts facts :=
  sortBy_eq_of_perm
    (fun _ hleft _ hright heq =>
      inj_on_of_nodup_map hfacts hleft hright (Std.LawfulEqOrd.eq_of_compare heq)) hperm

section

variable {declarations declarations' : List (String × List CallDeclaration)}
  {modules modules' : List (CallModuleRequest × List CallModuleResolution)}

variable (hdeclarations : ∀ path, get? path declarations' = get? path declarations)
  (hmodules : ∀ request, get? request modules' = get? request modules)

include hdeclarations hmodules

/-- Only what the indexes hold under a key matters. -/
lemma resolveRelation_congr (file : CallReferenceFacts) (relation : CallReferenceFact) :
    resolveRelation declarations' modules' file relation =
      resolveRelation declarations modules file relation := by
  unfold resolveRelation resolveLocal resolveImported resolveQualified resolveThrough
    resolvedModuleTarget importResolver resolveTarget
  simp only [hdeclarations, hmodules]

lemma examine_congr : examine declarations' modules' = examine declarations modules := by
  funext file topology relation
  unfold examine
  rw [resolveRelation_congr hdeclarations hmodules]

end

lemma satAdd_right_comm (left middle right : ℕ) :
    satAdd (satAdd left middle) right = satAdd (satAdd left right) middle := by
  unfold satAdd
  omega

lemma foldl_satAdd_of_perm {values permuted : List ℕ} (hperm : permuted.Perm values)
    (start : ℕ) : permuted.foldl satAdd start = values.foldl satAdd start :=
  hperm.foldl_eq' (fun left _ right _ start => satAdd_right_comm start left right) start

/-- **Binding does not depend on the order of the files or of the module resolutions.** -/
lemma resolve_of_perm {facts permuted : List CallReferenceFacts}
    {modules reordered : List CallModuleResolution}
    (hfacts : (facts.map sourcePath).Nodup)
    (hmodules : (modules.map request).Nodup)
    (hpermuted : permuted.Perm facts) (hreordered : reordered.Perm modules) :
    resolve permuted reordered = resolve facts modules := by
  have hdeclarations : ∀ path, get? path (declarationIndex permuted) =
      get? path (declarationIndex facts) := by
    intro path
    unfold declarationIndex
    rw [get?_map, get?_map, get?_groupBy_of_perm hfacts hpermuted]
  have hindex : ∀ request, get? request (moduleIndex reordered) =
      get? request (moduleIndex modules) :=
    get?_groupBy_of_perm hmodules hreordered
  unfold resolve
  dsimp only
  rw [examine_congr hdeclarations hindex, orderedFacts_of_perm hfacts hpermuted,
    foldl_satAdd_of_perm (hpermuted.map _)]

/-! ## Soundness -/

/-- **What an edge stands for:** a relation of a usable file, in a form that names its target, and
the declaration it is bound to, whose name is not overloaded. -/
def SoundEdge (facts : List CallReferenceFacts) (modules : List CallModuleResolution)
    (edge : ResolvedCallReference) : Prop :=
  ∃ file ∈ facts, ∃ relation ∈ file.relations, ∃ declaration,
    Bound facts modules file relation declaration ∧
      relation.owner.or (moduleSource file) = some edge.source ∧
      edge.target = declaration.symbol ∧ edge.site = relation.site ∧ edge.kind = relation.kind ∧
      edge.syntaxForm = relation.syntaxForm ∧ declaration.overloaded = false ∧
      relation.candidate.shadowed = false ∧ relation.syntaxForm ≠ .receiver ∧
      relation.syntaxForm ≠ .dynamic ∧
      (file.status = .available ∨ file.status = .unavailable)

lemma soundEdge_of_outcome {facts : List CallReferenceFacts} {modules : List CallModuleResolution}
    (hfacts : (facts.map sourcePath).Nodup)
    (hmodules : (modules.map request).Nodup)
    (hfile : site.1 ∈ facts)
    (hrelation : site.2 ∈ site.1.relations) {edge : ResolvedCallReference}
    (h : outcome (declarationIndex facts) (moduleIndex modules) site = .ok edge) :
    SoundEdge facts modules edge := by
  unfold outcome at h
  split at h
  · cases h
  · rename_i target resolver hresolve
    split at h
    · cases h
    · rename_i source hsource
      cases h
      obtain ⟨declaration, hbound, htarget, hoverloaded⟩ :=
        resolveRelation_ok hfacts hmodules hfile hresolve
      have hrefusal : refusal site.1 site.2 = none := by
        unfold resolveRelation at hresolve
        split at hresolve
        · cases hresolve
        · assumption
      obtain ⟨hstatus, hshadowed, _⟩ := refusal_eq_none hrefusal
      have hform : site.2.syntaxForm ≠ .receiver ∧ site.2.syntaxForm ≠ .dynamic := by
        cases hbound <;> simp_all
      exact ⟨site.1, hfile, site.2, hrelation, declaration, hbound, hsource, htarget.symm, rfl, rfl,
        rfl, hoverloaded, hshadowed, hform.1, hform.2, hstatus⟩

lemma resolve_tally (facts : List CallReferenceFacts) (modules : List CallModuleResolution) :
    ∃ omitted topology, Tally (declarationIndex facts) (moduleIndex modules)
        (relationsOf (orderedFacts facts)) ⟨[], [], ⟨0, 0, 0, 0, omitted⟩⟩ topology ∧
      resolve facts modules =
        { topology with
          edges := sortBy edgeOrder topology.edges
          unresolved := sortBy unresolvedOrder topology.unresolved } :=
  ⟨_, _, tally_files _ _, rfl⟩

/-- **Bindings are sound and accounted for.** Every relation is examined once and gives one edge or
one unresolved record, every edge is sound, and the order of the inputs does not matter. -/
theorem call_resolution_sound (facts : List CallReferenceFacts)
    (modules : List CallModuleResolution)
    (hfacts : (facts.map CallReferenceFacts.sourcePath).Nodup)
    (hmodules : (modules.map CallModuleResolution.request).Nodup) :
    let topology := resolve facts modules
    topology.coverage.examined = (relationsOf facts).length ∧
      topology.coverage.examined = topology.coverage.resolved + topology.coverage.unresolved ∧
      topology.coverage.resolved = topology.edges.length ∧
      topology.coverage.unresolved = topology.unresolved.length ∧
      ((topology.edges.map fun edge => (edge.site, edge.kind, edge.syntaxForm)) ++
        (topology.unresolved.map fun record =>
          (record.site, record.kind, record.syntaxForm))).Perm
        ((relationsOf facts).map fun site => (site.2.site, site.2.kind, site.2.syntaxForm)) ∧
      (∀ edge ∈ topology.edges, SoundEdge facts modules edge) ∧
      ∀ permuted reordered, permuted.Perm facts → reordered.Perm modules →
        resolve permuted reordered = topology := by
  obtain ⟨omitted, topology, htally, heq⟩ := resolve_tally facts modules
  have hsites : (relationsOf (orderedFacts facts)).Perm (relationsOf facts) :=
    (orderedFacts_perm facts).flatMap_right _
  have hedges : topology.edges = (relationsOf (orderedFacts facts)).filterMap
        (edgeOf (declarationIndex facts) (moduleIndex modules)) := htally.edges
  have hrecords : topology.unresolved = (relationsOf (orderedFacts facts)).filterMap
        (recordOf (declarationIndex facts) (moduleIndex modules)) := htally.unresolved
  have hexamined : topology.coverage.examined = (relationsOf (orderedFacts facts)).length :=
    htally.examinedCount.trans (Nat.zero_add _)
  have hresolved : topology.coverage.resolved = topology.edges.length := by
    rw [hedges]
    exact htally.resolvedCount.trans (Nat.zero_add _)
  have hunresolved : topology.coverage.unresolved = topology.unresolved.length := by
    rw [hrecords]
    exact htally.unresolvedCount.trans (Nat.zero_add _)
  have hperm : ((topology.edges.map fun edge => (edge.site, edge.kind, edge.syntaxForm)) ++
      (topology.unresolved.map fun record =>
        (record.site, record.kind, record.syntaxForm))).Perm
      ((relationsOf (orderedFacts facts)).map fun site =>
        (site.2.site, site.2.kind, site.2.syntaxForm)) := by
    rw [hedges, hrecords]
    exact edges_records_perm _
  have hlength := hperm.length_eq
  simp only [length_append, length_map] at hlength
  refine ⟨?_, ?_, ?_, ?_, ?_, ?_, ?_⟩
  · rw [heq, ← hsites.length_eq]
    exact hexamined
  · rw [heq]
    dsimp only
    omega
  · rw [heq, length_sortBy]
    exact hresolved
  · rw [heq, length_sortBy]
    exact hunresolved
  · rw [heq]
    exact (((sortBy_perm _ _).map _).append ((sortBy_perm _ _).map _)).trans
      (hperm.trans (hsites.map _))
  · intro edge hedge
    rw [heq, mem_sortBy, hedges] at hedge
    obtain ⟨site, hsite, hedgeOf⟩ := mem_filterMap.mp hedge
    obtain ⟨hfile, hrelation⟩ := mem_relationsOf.mp (hsites.mem_iff.mp hsite)
    refine soundEdge_of_outcome hfacts hmodules hfile hrelation ?_
    unfold edgeOf at hedgeOf
    split at hedgeOf
    · cases hedgeOf
    · rename_i found houtcome
      rw [houtcome, Option.some.inj hedgeOf]
  · intro permuted reordered hpermuted hreordered
    exact resolve_of_perm hfacts hmodules hpermuted hreordered

/-! ### Two imports of one name

In a TypeScript file `api.work()` goes through the namespace import of `api`, also where `api` is a
named import in a narrower scope.
-/

namespace TwoImports

def span (startByte endByte : ℕ) : SourceSpan := ⟨startByte, endByte, 1, 1⟩

/-- `export function work() {}` -/
def library (path : String) : CallReferenceFacts where
  status := .available
  language := "TypeScript"
  sourcePath := path
  sourceHash := "hash"
  declarations := [⟨⟨path, "hash", "work", "function", span 7 25⟩, ["work"], span 0 26, false⟩]
  imports := []
  relations := []
  moduleSpan := some (span 0 26)
  coverage := ⟨0⟩

/-- `import * as api from './b'` around a scope with `import { api } from './a'` and
`api.work()`. -/
def consumer : CallReferenceFacts where
  status := .available
  language := "TypeScript"
  sourcePath := "main.ts"
  sourceHash := "hash"
  declarations := []
  imports := [⟨"./b", "*", "api", .namespaceImport, span 0 28, span 0 100, []⟩,
    ⟨"./a", "api", "api", .namedImport, span 42 45, span 30 90, []⟩]
  relations := [⟨.call, .moduleQualified, span 60 70, none, ⟨"api", some "work", none, [], false⟩⟩]
  moduleSpan := some (span 0 100)
  coverage := ⟨0⟩

def facts : List CallReferenceFacts := [library "a.ts", library "b.ts", consumer]

def modules : List CallModuleResolution :=
  [⟨⟨"main.ts", "TypeScript", "./a", []⟩, some "a.ts", some "js-relative", .resolved⟩,
    ⟨⟨"main.ts", "TypeScript", "./b", []⟩, some "b.ts", some "js-relative", .resolved⟩]

end TwoImports

theorem call_resolution_sound_twoImports :
    (resolve TwoImports.facts TwoImports.modules).coverage.examined = 1 ∧
      ∀ edge ∈ (resolve TwoImports.facts TwoImports.modules).edges,
        SoundEdge TwoImports.facts TwoImports.modules edge := by
  obtain ⟨hexamined, _, _, _, _, hsound, _⟩ := call_resolution_sound TwoImports.facts
    TwoImports.modules (by decide) (by decide)
  exact ⟨hexamined, hsound⟩

/-- Not every edge into another file is given by the resolution of the narrowest import of its root
or of its qualifier. -/
theorem not_narrowest_import_twoImports :
    ¬ ∀ edge ∈ (resolve TwoImports.facts TwoImports.modules).edges,
      edge.target.path ≠ edge.source.path →
        ∃ file ∈ TwoImports.facts, ∃ relation ∈ file.relations, relation.site = edge.site ∧
          ∃ resolution ∈ TwoImports.modules, resolution.status = .resolved ∧
            resolution.targetPath = some edge.target.path ∧
            ((∃ binding ∈ importsInScope file relation.candidate.root relation.site,
                (∀ other ∈ importsInScope file relation.candidate.root relation.site,
                  spanLen binding.scopeSpan ≤ spanLen other.scopeSpan) ∧
                resolution.request = importRequest file binding) ∨
              ∃ qualifier ∈ relation.candidate.qualifier,
                resolution.request = qualifierRequest file relation qualifier) := by
  decide +kernel

end Reposcout.Graph.Calls
