import Reposcout.Graph.Calls.Rust
import Reposcout.Properties.Graph.Calls.Resolve
import Reposcout.Properties.Graph.RustModules

/-!
# Which Rust paths are bound to what they name

A path is bound in the deepest file on it, by its last name alone.  So it is bound to what it names
exactly if the segments below that file are the inline modules around the declaration.  Where they
are not, they have been ignored: a path into a submodule is then bound to an item of the file with
the same name.
-/

namespace Reposcout.Graph.Calls

open RustResolver List Option KeyedList CallModuleResolution CallReferenceFacts

/-! ## The path of a site -/

/-- The path a site is written as: the path that is searched, with the inline modules around it, the
segments below it and the item. -/
structure SitePath where
  specifier : String
  inlineModules : List String
  below : List String
  item : String

/-- The path of a site. A name or path that starts with an imported name continues the path of the
narrowest import. -/
def sitePath (file : CallReferenceFacts) (relation : CallReferenceFact) : Option SitePath :=
  match retainNarrowestImportScope
    (importsInScope file relation.candidate.root relation.site) with
  | [] => relation.candidate.qualifier.map fun qualifier =>
    ⟨qualifier, relation.candidate.inlineModules, relation.candidate.member.toList,
      relation.candidate.member.getD relation.candidate.root⟩
  | [binding] => some ⟨binding.moduleSpecifier, binding.inlineModules,
    match relation.candidate.qualifier with
    | none => []
    | some qualifier => (pathSegments qualifier).tail ++ relation.candidate.member.toList,
    relation.candidate.member.getD binding.importedName⟩
  | _ => none

/-- What the searched part of a path denotes in its file. -/
def placeOf (resolver : RustResolver) (file : CallReferenceFacts) (path : SitePath) :
    Option (String × List String) :=
  (get? file.sourcePath resolver.files).bind fun module =>
    resolver.denoted module path.inlineModules (pathSegments path.specifier)

/-- **The path of a site names a target:** it is the path of the module of its file, followed by the
inline modules around the target and by the item. -/
def PathNames (resolver : RustResolver) (sources : List RustSource) (file : CallReferenceFacts)
    (relation : CallReferenceFact) (target : CallSymbolIdentity) : Prop :=
  ∃ path ∈ sitePath file relation, ∃ place ∈ placeOf resolver file path, ∃ home ∈ sources,
    ∃ definition ∈ home.definitions, identity home.path home.sourceHash definition.1 = target ∧
      resolver.SourceRootOf home.path place.1 ∧
      ∃ module ∈ get? home.path resolver.files, pathText (place.2 ++ path.below) =
          pathText (RustFileModule.module module ++ definition.2 ++ [path.item])

instance (resolver : RustResolver) (sources : List RustSource) (file : CallReferenceFacts)
    (relation : CallReferenceFact) (target : CallSymbolIdentity) :
    Decidable (PathNames resolver sources file relation target) :=
  inferInstanceAs (Decidable (∃ _ ∈ _, _))

/-- **No segment of a path is ignored:** below the deepest file on the searched path there are only
the inline modules around the target and the item. -/
def NoSegmentIgnored (resolver : RustResolver) (sources : List RustSource)
    (file : CallReferenceFacts) (relation : CallReferenceFact) (target : CallSymbolIdentity) :
    Prop :=
  ∃ path ∈ sitePath file relation, ∃ place ∈ placeOf resolver file path, ∃ home ∈ sources,
    ∃ definition ∈ home.definitions, identity home.path home.sourceHash definition.1 = target ∧
      pathText (place.2.drop (resolver.fileDepth place.1 place.2) ++ path.below) =
        pathText (definition.2 ++ [path.item])

/-! ## Facts of a Rust file -/

section

variable (isUppercase : Char → Bool) (source : RustSource)

/-- Pushing imports and relations leaves the file as it is. -/
lemma state_file : (source.state isUppercase).language = "Rust" ∧
      (source.state isUppercase).path = source.path ∧
      (source.state isUppercase).sourceHash = source.sourceHash := by
  refine foldlRecOn (motive := fun state : State => state.language = "Rust" ∧
    state.path = source.path ∧ state.sourceHash = source.sourceHash) _ _ ?_ ?_
  · refine foldlRecOn (motive := fun state : State => state.language = "Rust" ∧
      state.path = source.path ∧ state.sourceHash = source.sourceHash) _ _ ⟨rfl, rfl, rfl⟩ ?_
    intro state h binding _
    unfold State.pushImport
    split_ifs <;> exact h
  · intro state h relation _
    unfold State.pushRelation
    split_ifs <;> exact h

variable {declaration : CallDeclaration}

lemma symbol_path_of_mem_declarations (h : declaration ∈ (source.facts isUppercase).declarations) :
    declaration.symbol.path = (source.facts isUppercase).sourcePath := by
  obtain ⟨definition, _, rfl⟩ := mem_map.mp h
  rfl

end

/-! ## Module requests -/

lemma nodup_moduleRequests (calls : List CallReferenceFacts) : (moduleRequests calls).Nodup :=
  (sortBy_perm _ _).nodup_iff.mpr (nodup_dedup _)

lemma moduleResolution_request (request : CallModuleRequest) (answer : ImportResolution) :
    (moduleResolution request answer).request = request := by
  cases answer <;> rfl

section

variable (rust : RustResolver) (javascript : String → String → ImportResolution)
  (calls : List CallReferenceFacts)

/-- Every request is answered once. -/
lemma nodup_moduleResolutions :
    ((moduleResolutions rust javascript calls).map CallModuleResolution.request).Nodup := by
  unfold moduleResolutions
  rw [List.map_map]
  have hid : ∀ request ∈ moduleRequests calls, (CallModuleResolution.request ∘ fun request =>
      moduleResolution request (resolveModule rust javascript request)) request = id request :=
    fun request _ => moduleResolution_request request _
  rw [map_congr_left hid, List.map_id]
  exact nodup_moduleRequests calls

variable {rust javascript calls}

lemma leadsTo_of_moduleFile {file target : CallReferenceFacts} {request : CallModuleRequest}
    {resolution : CallModuleResolution} (hlanguage : request.language = "Rust")
    (hpath : request.sourcePath = file.sourcePath)
    (h : ModuleFile calls (moduleResolutions rust javascript calls) file request resolution
      target) :
    LeadsTo file.sourcePath
      (rust.resolve file.sourcePath request.moduleSpecifier request.inlineModules)
      target.sourcePath := by
  obtain ⟨asked, _, hresolution⟩ := mem_map.mp h.resolution_mem
  have hasked : asked = request := by
    rw [← h.resolution_request, ← hresolution, moduleResolution_request]
  subst hasked
  have hanswer : resolveModule rust javascript asked =
      rust.resolve file.sourcePath asked.moduleSpecifier asked.inlineModules := by
    unfold resolveModule
    rw [hlanguage, if_neg (by decide), if_pos rfl, hpath]
  rw [hanswer] at hresolution
  have htarget := h.target_path
  rw [← hresolution] at htarget
  generalize rust.resolve file.sourcePath asked.moduleSpecifier asked.inlineModules = answer
    at htarget ⊢
  cases answer with
  | resolved path name =>
    rcases htarget with ⟨_, hpath⟩ | ⟨hstatus, _⟩
    · exact .inl ⟨name, by rw [← some.inj hpath]⟩
    · cases hstatus
  | sameFile =>
    rcases htarget with ⟨hstatus, _⟩ | ⟨_, hsame⟩
    · cases hstatus
    · exact .inr ⟨rfl, hsame⟩
  | _ => rcases htarget with ⟨hstatus, _⟩ | ⟨hstatus, _⟩ <;> cases hstatus

end

/-! ## Bound paths -/

lemma retainNarrowest_of_onlyNarrowest {α : Type} {scope : α → SourceSpan} {values : List α}
    {value : α} (h : OnlyNarrowest scope values value) : retainNarrowest scope values = [value] := by
  have honly : ∀ other ∈ values, spanLen (scope other) ≤ spanLen (scope value) → other = value := by
    intro other hother hle
    have hmem : other ∈ values.filter (fun other =>
        spanLen (scope other) ≤ spanLen (scope value)) :=
      mem_filter.mpr ⟨hother, decide_eq_true hle⟩
    rw [h] at hmem
    exact mem_singleton.mp hmem
  have hvalue : value ∈ values := by
    have hmem : value ∈ [value] := mem_singleton_self value
    rw [← h] at hmem
    exact (mem_filter.mp hmem).1
  have hmin : (values.map fun value => spanLen (scope value)).min? =
      some (spanLen (scope value)) := by
    rw [min?_eq_some_iff]
    refine ⟨mem_map_of_mem hvalue, fun length hlength => ?_⟩
    obtain ⟨other, hother, rfl⟩ := mem_map.mp hlength
    rcases Nat.le_total (spanLen (scope value)) (spanLen (scope other)) with hle | hle
    · exact hle
    · rw [honly other hother hle]
  unfold retainNarrowest
  rw [hmin]
  rw [← h]
  refine filter_congr fun other hother => decide_eq_decide.mpr ⟨fun heq => heq.le, ?_⟩
  exact fun hle => by rw [honly other hother hle]

variable {place : String × List String} {relation : CallReferenceFact} {file : CallReferenceFacts}

/-- The searched part of a path is what the bound request asks for. -/
lemma deepestFile_of_onlyTarget {rust : RustResolver} (hrust : rust.Indexed)
    {javascript : String → String → ImportResolution} {calls : List CallReferenceFacts}
    {request : CallModuleRequest} {name : String} (hlanguage : request.language = "Rust")
    (hpath : request.sourcePath = file.sourcePath)
    (honly : OnlyTarget calls (moduleResolutions rust javascript calls) file relation request name
      declaration)
    {path : SitePath} (hspecifier : path.specifier = request.moduleSpecifier)
    (hinline : path.inlineModules = request.inlineModules)
    (hplace : place ∈ placeOf rust file path) :
    ∃ target ∈ calls, declaration ∈ target.declarations ∧
      rust.DeepestFile place target.sourcePath := by
  obtain ⟨resolution, target, hmodule, hfilter⟩ := honly
  have hleads := leadsTo_of_moduleFile hlanguage hpath hmodule
  obtain ⟨module, hmoduleFile, hdenoted⟩ := bind_eq_some_iff.mp hplace
  have hdeclaration : declaration ∈ target.declarations := by
    have hmem : declaration ∈ [declaration] := mem_singleton_self declaration
    rw [← hfilter] at hmem
    exact (mem_filter.mp hmem).1
  refine ⟨target, hmodule.target_mem, hdeclaration, ?_⟩
  unfold RustResolver.resolve at hleads
  rw [hmoduleFile] at hleads
  rw [hspecifier, hinline] at hdenoted
  exact hrust.resolveUse_leadsTo hmoduleFile hdenoted hleads

/-- **A bound path leads to the deepest file on its searched part.** -/
lemma deepestFile_of_bound {rust : RustResolver} (hrust : rust.Indexed)
    {javascript : String → String → ImportResolution} {calls : List CallReferenceFacts}
    (hlanguage : file.language = "Rust") (hform : relation.syntaxForm ≠ .localDirect)
    (hbound : Bound calls (moduleResolutions rust javascript calls) file relation declaration)
    {path : SitePath} (hpath : path ∈ sitePath file relation)
    (hplace : place ∈ placeOf rust file path) :
    ∃ target ∈ calls, declaration ∈ target.declarations ∧
      rust.DeepestFile place target.sourcePath := by
  have hall : (importsInScope file relation.candidate.root relation.site).filter
      (canQualify file) = importsInScope file relation.candidate.root relation.site := by
    rw [filter_eq_self]
    intro binding _
    simp [canQualify, hlanguage]
  unfold sitePath retainNarrowestImportScope at hpath
  cases hbound with
  | scope hroute => exact absurd hroute hform
  | imported hroute binding hbinding honly =>
    rw [retainNarrowest_of_onlyNarrowest hbinding] at hpath
    cases hpath
    exact deepestFile_of_onlyTarget hrust hlanguage rfl honly rfl rfl hplace
  | qualifiedImport hroute binding hbinding honly =>
    rw [hall] at hbinding
    rw [retainNarrowest_of_onlyNarrowest hbinding] at hpath
    cases hpath
    exact deepestFile_of_onlyTarget hrust hlanguage rfl honly rfl rfl hplace
  | qualified hroute qualifier hqualifier hnone honly =>
    rw [hall] at hnone
    rw [hnone, hqualifier] at hpath
    cases hpath
    exact deepestFile_of_onlyTarget hrust hlanguage rfl honly rfl rfl hplace

lemma pathText_iff {rust : RustResolver} {target : String}
    (h : rust.DeepestFile place target) {module : RustFileModule}
    (hmodule : get? target rust.files = some module) (below named : List String) :
    pathText (place.2 ++ below) = pathText (module.module ++ named) ↔
      pathText (place.2.drop (rust.fileDepth place.1 place.2) ++ below) = pathText named := by
  obtain ⟨found, hfound, htext⟩ := h.module
  obtain rfl := some.inj (hfound.symm.trans hmodule)
  have hsplit : pathText place.2 = pathText found.module ++
      pathText (place.2.drop (rust.fileDepth place.1 place.2)) := by
    rw [← htext, ← pathText_append, take_append_drop]
  rw [pathText_append, pathText_append, pathText_append, hsplit, append_assoc,
    append_cancel_left_eq]

lemma bound_of_edgeOf {calls : List CallReferenceFacts} {modules : List CallModuleResolution}
    (hcalls : (calls.map sourcePath).Nodup)
    (hmodules : (modules.map request).Nodup)
    {site : CallReferenceFacts × CallReferenceFact} (hfile : site.1 ∈ calls)
    {edge : ResolvedCallReference}
    (h : edgeOf (declarationIndex calls) (moduleIndex modules) site = some edge) :
    ∃ declaration, Bound calls modules site.1 site.2 declaration ∧
      edge.target = declaration.symbol := by
  unfold edgeOf outcome at h
  split at h
  · cases h
  · rename_i found houtcome
    cases h
    split at houtcome
    · cases houtcome
    · rename_i target resolver hresolve
      split at houtcome
      · cases houtcome
      · cases houtcome
        obtain ⟨declaration, hbound, htarget, _⟩ :=
          resolveRelation_ok hcalls hmodules hfile hresolve
        exact ⟨declaration, hbound, htarget.symm⟩

/-! ## Soundness of Rust paths -/

def callsOf (isUppercase : Char → Bool) (sources : List RustSource) : List CallReferenceFacts :=
  sources.map fun source => source.facts isUppercase

/-- The edge of a relation when all files of a repository are resolved. -/
def resolvedEdge (isUppercase : Char → Bool) (rust : RustResolver)
    (javascript : String → String → ImportResolution) (sources : List RustSource)
    (site : CallReferenceFacts × CallReferenceFact) : Option ResolvedCallReference :=
  let calls := callsOf isUppercase sources
  edgeOf (declarationIndex calls) (moduleIndex (moduleResolutions rust javascript calls)) site

lemma sourcePath_facts (isUppercase : Char → Bool) (source : RustSource) :
    (source.facts isUppercase).sourcePath = source.path := (state_file isUppercase source).2.1

lemma nodup_callsOf {isUppercase : Char → Bool} {sources : List RustSource}
    (hsources : (sources.map RustSource.path).Nodup) :
    ((callsOf isUppercase sources).map sourcePath).Nodup := by
  unfold callsOf
  rw [List.map_map]
  have hpaths : ∀ source ∈ sources, (sourcePath ∘ fun source : RustSource =>
      source.facts isUppercase) source = source.path :=
    fun source _ => sourcePath_facts isUppercase source
  rw [map_congr_left hpaths]
  exact hsources

namespace Submodule

def span (startByte endByte : ℕ) : SourceSpan := ⟨startByte, endByte, 1, 1⟩

def function (name : String) (bytes : SourceSpan) : DefinitionFact :=
  ⟨⟨name, "function", "", 1, true, []⟩, bytes, none⟩

/-- `pub fn work() {} pub fn other() {} pub mod inner { pub use super::other as work; }` -/
def dep : RustSource where
  path := "src/dep.rs"
  sourceHash := "dep"
  rootSpan := span 0 90
  fileSpan := span 0 90
  rootHasError := false
  definitionStatus := .available
  definitions := [(function "work" (span 0 16), []), (function "other" (span 17 34), [])]
  uses := [⟨"super::other", "work", span 59 79, span 50 88, ["inner"]⟩]
  expressions := []
  shadows := []
  declarationScopes := [((0, 16), span 0 90), ((17, 34), span 0 90)]
  hoistedDeclarations := [(0, 16), (17, 34)]
  nodesTruncated := false

/-- `mod dep; fn run() { crate::dep::inner::work(); crate::dep::work(); }` -/
def consumer : RustSource where
  path := "src/lib.rs"
  sourceHash := "lib"
  rootSpan := span 0 70
  fileSpan := span 0 70
  rootHasError := false
  definitionStatus := .available
  definitions := [(function "run" (span 9 70), [])]
  uses := []
  expressions := [⟨.call, span 20 45, .scopedIdentifier "crate::dep::inner::work", []⟩,
    ⟨.call, span 47 66, .scopedIdentifier "crate::dep::work", []⟩]
  shadows := []
  declarationScopes := [((9, 70), span 0 70)]
  hoistedDeclarations := [(9, 70)]
  nodesTruncated := false

def sources : List RustSource := [consumer, dep]

def rust : RustResolver := discover ["src/dep.rs", "src/lib.rs"] []

def calls : List CallReferenceFacts := callsOf Char.isUpper sources

def javascript (_ _ : String) : ImportResolution := .unresolved

end Submodule

end Reposcout.Graph.Calls
