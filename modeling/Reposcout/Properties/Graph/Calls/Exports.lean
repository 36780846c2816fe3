import Reposcout.Graph.Calls.JavaScript
import Reposcout.Properties.Graph.Calls.Resolve

/-!
# Which declarations of a module are exported

The walk files the scopes and the names of declarations under their bytes, and the names of export
lists under the simple names that these mention.  A declaration gets an export name without being
in the scope of the module exactly where one of these two is shared.
-/

namespace Reposcout.Graph.Calls.JavaScript

open List Option KeyedList State

variable (definitions : DefinitionFacts)

/-! ## What a node records -/

/-- The declaration whose scope and export a node records. -/
def declaredKey (node : Node) : Option DeclarationKey :=
  if node.kind ∈ metadataKinds ∧ ¬ (node.kind = "variable_declarator" ∧ ¬ isCallableVariable node)
  then matchDefinition node definitions
  else none

def scopeEntry (node : Node) : Option (DeclarationKey × SourceSpan) :=
  (declaredKey definitions node).map fun key => (key, declarationScope node)

def exportEntry (node : Node) : Option (DeclarationKey × String) :=
  (declaredKey definitions node).bind fun key => (directExport node).map fun name => (key, name)

def aliasEntries (node : Node) : List (String × String) :=
  if node.kind = "export_statement" then exportedAliases node.tree else []

/-- The fields that decide about exports. -/
structure SameExports (state other : State) : Prop where
  definitions : other.definitions = state.definitions
  rootSpan : other.rootSpan = state.rootSpan
  scopes : other.declarationScopes = state.declarationScopes
  direct : other.directExports = state.directExports
  aliases : other.exportAliases = state.exportAliases

lemma SameExports.refl (state : State) : SameExports state state := ⟨rfl, rfl, rfl, rfl, rfl⟩

lemma SameExports.trans {first second third : State} (h : SameExports first second)
    (h' : SameExports second third) : SameExports first third where
  definitions := h'.definitions.trans h.definitions
  rootSpan := h'.rootSpan.trans h.rootSpan
  scopes := h'.scopes.trans h.scopes
  direct := h'.direct.trans h.direct
  aliases := h'.aliases.trans h.aliases

lemma SameExports.foldl {α : Type} {f : State → α → State}
    (hf : ∀ state value, SameExports state (f state value)) (values : List α) (state : State) :
    SameExports state (values.foldl f state) := by
  induction values generalizing state with
  | nil => exact .refl state
  | cons value values ih => exact (hf state value).trans (ih (f state value))

variable {state : State}

lemma SameExports.ite {c : Prop} [Decidable c] {first second : State}
    (h : c → SameExports state first) (h' : ¬ c → SameExports state second) :
    SameExports state (if c then first else second) := by
  by_cases hc : c
  · rw [if_pos hc]
    exact h hc
  · rw [if_neg hc]
    exact h' hc

lemma sameExports_pushRelation (state : State) (relation : ObservedRelation) :
    SameExports state (state.pushRelation relation) := by
  unfold pushRelation
  split_ifs <;> exact ⟨rfl, rfl, rfl, rfl, rfl⟩

lemma sameExports_pushImport (state : State) (binding : CallImportBinding) :
    SameExports state (state.pushImport binding) := by
  unfold pushImport
  split_ifs <;> exact ⟨rfl, rfl, rfl, rfl, rfl⟩

lemma sameExports_shadowIn (scope : SourceSpan) (state : State) (name : String) :
    SameExports state (shadowIn scope state name) := ⟨rfl, rfl, rfl, rfl, rfl⟩

lemma sameExports_extractImport (node : Node) (state : State) :
    SameExports state (extractImport node state) := by
  unfold extractImport
  split
  · exact .refl state
  · split
    · exact .refl state
    · exact SameExports.foldl (fun state _ => sameExports_pushImport state _) _ state

lemma sameExports_recordVariableShadow (node : Node) (state : State) :
    SameExports state (recordVariableShadow node state) := by
  unfold recordVariableShadow
  split
  · exact .refl state
  · exact SameExports.foldl (sameExports_shadowIn _) _ state

lemma sameExports_recordOverload (node : Node) (state : State) :
    SameExports state (recordOverload node state) := by
  unfold recordOverload
  split
  · exact .refl state
  · exact ⟨rfl, rfl, rfl, rfl, rfl⟩

lemma sameExports_recordParameters (node : Node) (state : State) :
    SameExports state (recordParameters node state) :=
  SameExports.foldl (sameExports_shadowIn _) _ state

lemma sameExports_recordArrowParameter (node : Node) (state : State) :
    SameExports state (recordArrowParameter node state) := by
  unfold recordArrowParameter
  split
  · exact .refl state
  · exact sameExports_shadowIn _ state _

lemma sameExports_recordCatchParameter (node : Node) (state : State) :
    SameExports state (recordCatchParameter node state) := by
  unfold recordCatchParameter
  split
  · exact .refl state
  · exact SameExports.foldl (sameExports_shadowIn _) _ state

lemma sameExports_recordLoopBinding (node : Node) (state : State) :
    SameExports state (recordLoopBinding node state) := by
  unfold recordLoopBinding
  split
  · exact .refl state
  · split
    · exact .refl state
    · exact SameExports.foldl (sameExports_shadowIn _) _ state

lemma sameExports_recordCall (node : Node) (state : State) :
    SameExports state (recordCall node state) := by
  unfold recordCall
  split_ifs
  · exact sameExports_pushRelation state _
  · split
    · exact .refl state
    · exact sameExports_pushRelation state _

lemma sameExports_recordIdentifier (node : Node) (state : State) :
    SameExports state (recordIdentifier node state) := by
  unfold recordIdentifier
  split_ifs
  · exact .refl state
  · exact sameExports_pushRelation state _

/-- What a visit adds to the fields that decide about exports. -/
structure Visited (state : State) (node : Node) (next : State) : Prop where
  definitions : next.definitions = state.definitions
  rootSpan : next.rootSpan = state.rootSpan
  scopes : next.declarationScopes =
    (scopeEntry state.definitions node).elim state.declarationScopes fun entry =>
      KeyedList.alter entry.1 (fun _ => entry.2) state.declarationScopes
  direct : next.directExports =
    (exportEntry state.definitions node).elim state.directExports fun entry =>
      KeyedList.alter entry.1 (fun names => names.getD [] ++ [entry.2]) state.directExports
  aliases : next.exportAliases =
    (aliasEntries node).foldl (fun map entry =>
      KeyedList.alter entry.1 (fun names => names.getD [] ++ [entry.2]) map) state.exportAliases

variable {node : Node}

lemma SameExports.visited {next : State} (h : SameExports state next)
    (hdeclared : declaredKey state.definitions node = none) (haliases : aliasEntries node = []) :
    Visited state node next where
  definitions := h.definitions
  rootSpan := h.rootSpan
  scopes := by
    unfold scopeEntry
    rw [hdeclared]
    exact h.scopes
  direct := by
    unfold exportEntry
    rw [hdeclared]
    exact h.direct
  aliases := by
    rw [haliases]
    exact h.aliases

lemma declaredKey_eq_none (h : node.kind ∉ metadataKinds) : declaredKey definitions node = none :=
  if_neg fun hdeclared => h hdeclared.1

lemma aliasEntries_eq_nil (h : node.kind ≠ "export_statement") : aliasEntries node = [] :=
  if_neg h

variable (entries : List (String × String))

lemma foldl_addExportAlias (state : State) : entries.foldl addExportAlias state =
      { state with
        exportAliases := entries.foldl (fun map entry =>
          KeyedList.alter entry.1 (fun names => names.getD [] ++ [entry.2]) map)
            state.exportAliases } := by
  induction entries generalizing state with
  | nil => rfl
  | cons entry entries ih => exact ih (state.addExportAlias entry)

lemma visited_recordDeclarationMetadata (hkind : node.kind ∈ metadataKinds) :
    Visited state node (recordDeclarationMetadata node state) := by
  have haliases : aliasEntries node = [] := by
    refine aliasEntries_eq_nil fun h => ?_
    rw [h] at hkind
    revert hkind
    decide
  unfold recordDeclarationMetadata
  by_cases hvariable : node.kind = "variable_declarator" ∧ ¬ isCallableVariable node
  · rw [if_pos hvariable]
    refine (sameExports_recordVariableShadow node state).visited ?_ haliases
    exact if_neg fun h => h.2 hvariable
  · rw [if_neg hvariable]
    have hdeclared : declaredKey state.definitions node = matchDefinition node state.definitions :=
      if_pos ⟨hkind, hvariable⟩
    cases hmatch : matchDefinition node state.definitions with
    | none => exact (SameExports.refl state).visited (hdeclared.trans hmatch) haliases
    | some key =>
      rw [hmatch] at hdeclared
      have hscope : scopeEntry state.definitions node = some (key, declarationScope node) := by
        unfold scopeEntry
        rw [hdeclared, map_some]
      cases hexport : directExport node with
      | none =>
        have hentry : exportEntry state.definitions node = none := by
          unfold exportEntry
          rw [hdeclared, bind_some, hexport, map_none]
        split_ifs
        all_goals
          refine ⟨rfl, rfl, ?_, ?_, ?_⟩
          · rw [hscope]
            rfl
          · rw [hentry]
            rfl
          · rw [haliases]
            rfl
      | some name =>
        have hentry : exportEntry state.definitions node = some (key, name) := by
          unfold exportEntry
          rw [hdeclared, bind_some, hexport, map_some]
        split_ifs
        all_goals
          refine ⟨rfl, rfl, ?_, ?_, ?_⟩
          · rw [hscope]
            rfl
          · rw [hentry]
            rfl
          · rw [haliases]
            rfl

/-- **A visit files the scope and the export of one declaration, or some aliases.** -/
lemma visited_visit (state : State) (node : Node) : Visited state node (visit state node) := by
  by_cases hexport : node.kind = "export_statement"
  · have hvisit : visit state node = extractExportAliases node state := by
      unfold visit
      rw [hexport]
      rfl
    have hdeclared : declaredKey state.definitions node = none := by
      refine declaredKey_eq_none _ ?_
      rw [hexport]
      decide
    rw [hvisit, extractExportAliases, foldl_addExportAlias]
    refine ⟨rfl, rfl, ?_, ?_, ?_⟩
    · unfold scopeEntry
      rw [hdeclared]
      rfl
    · unfold exportEntry
      rw [hdeclared]
      rfl
    · unfold aliasEntries
      rw [if_pos hexport]
  · by_cases hmetadata : node.kind ∈ metadataKinds
    · have hvisit : visit state node = recordDeclarationMetadata node state := by
        unfold visit
        rw [if_neg (by intro h; rw [h] at hmetadata; revert hmetadata; decide), if_neg hexport,
          if_pos hmetadata]
      rw [hvisit]
      exact visited_recordDeclarationMetadata hmetadata
    · refine SameExports.visited ?_ (declaredKey_eq_none _ hmetadata)
        (aliasEntries_eq_nil hexport)
      refine .ite (fun _ => sameExports_extractImport node state) fun _ => ?_
      refine .ite (fun h => absurd h hexport) fun _ => ?_
      refine .ite (fun h => absurd h hmetadata) fun _ => ?_
      refine .ite (fun _ => sameExports_recordOverload node state) fun _ => ?_
      refine .ite (fun _ => sameExports_recordParameters node state) fun _ => ?_
      refine .ite (fun _ => sameExports_recordArrowParameter node state) fun _ => ?_
      refine .ite (fun _ => sameExports_recordCatchParameter node state) fun _ => ?_
      refine .ite (fun _ => sameExports_recordLoopBinding node state) fun _ => ?_
      refine .ite (fun _ => sameExports_recordCall node state) fun _ => ?_
      refine .ite (fun _ => sameExports_pushRelation state _) fun _ => ?_
      refine .ite (fun _ => sameExports_pushRelation state _) fun _ => ?_
      exact .ite (fun _ => sameExports_recordIdentifier node state) fun _ => .refl state

/-! ## The walk -/

/-- What the visits of some nodes leave in a state. -/
structure Walked (facts : DefinitionFacts) (rootSpan : SourceSpan) (nodes : List Node)
    (state : State) : Prop where
  definitions : state.definitions = facts
  rootSpan : state.rootSpan = rootSpan
  scopes : ∀ key, get? key state.declarationScopes =
    ((nodes.filterMap (scopeEntry facts)).filter fun entry => entry.1 = key).getLast?.map Prod.snd
  direct : ∀ key, (get? key state.directExports).getD [] =
    ((nodes.filterMap (exportEntry facts)).filter fun entry => entry.1 = key).map Prod.snd
  aliases : ∀ name, (get? name state.exportAliases).getD [] =
    ((nodes.flatMap aliasEntries).filter fun entry => entry.1 = name).map Prod.snd

lemma getD_foldl_append (map : List (String × List String)) (name : String) :
    (get? name (entries.foldl (fun map entry =>
        KeyedList.alter entry.1 (fun names => names.getD [] ++ [entry.2]) map) map)).getD [] =
      (get? name map).getD [] ++
        (entries.filter fun entry => entry.1 = name).map Prod.snd := by
  induction entries generalizing map with
  | nil => simp
  | cons entry entries ih =>
    rw [foldl_cons, ih, get?_alter]
    by_cases hname : name = entry.1
    · rw [if_pos hname, getD_some, filter_cons_of_pos (by simp [hname]), hname,
        map_cons, append_assoc]
      rfl
    · rw [if_neg hname, filter_cons_of_neg (by simp [Ne.symm hname])]

lemma Walked.visit {facts : DefinitionFacts} {rootSpan : SourceSpan} {nodes : List Node}
    (h : Walked facts rootSpan nodes state) (node : Node) :
    Walked facts rootSpan (nodes ++ [node]) (visit state node) := by
  have hvisited := visited_visit state node
  obtain ⟨rfl, rfl, hscopes, hdirect, haliases⟩ := h
  refine ⟨hvisited.definitions, hvisited.rootSpan, ?_, ?_, ?_⟩
  · intro key
    rw [hvisited.scopes, filterMap_append, filter_append]
    cases hentry : scopeEntry state.definitions node with
    | none => simp [hentry, hscopes key]
    | some entry =>
      rw [elim_some, get?_alter]
      by_cases hkey : key = entry.1
      · simp [hentry, hkey]
      · rw [if_neg hkey, hscopes key]
        simp [hentry, Ne.symm hkey]
  · intro key
    rw [hvisited.direct, filterMap_append, filter_append, map_append, ← hdirect key]
    cases hentry : exportEntry state.definitions node with
    | none => simp [hentry]
    | some entry =>
      rw [elim_some, get?_alter]
      by_cases hkey : key = entry.1
      · simp [hentry, hkey]
      · rw [if_neg hkey]
        simp [hentry, Ne.symm hkey]
  · intro name
    rw [hvisited.aliases, getD_foldl_append, haliases, flatMap_append, filter_append, map_append]
    simp

lemma walked_foldl {facts : DefinitionFacts} {rootSpan : SourceSpan} {initial : State}
    (h : Walked facts rootSpan [] initial) (nodes : List Node) :
    Walked facts rootSpan nodes (nodes.foldl JavaScript.visit initial) := by
  induction nodes using List.reverseRecOn with
  | nil => exact h
  | append_singleton nodes node ih =>
    rw [foldl_append]
    exact ih.visit node

lemma walked_walk (language path sourceHash content : String) (root : Cst)
    (rootHasError : Bool) :
    Walked definitions root.span (visited root)
      (walk language path sourceHash content root rootHasError definitions) := by
  have hnew : Walked definitions root.span []
      (new language path sourceHash content root rootHasError definitions) :=
    ⟨rfl, rfl, fun _ => rfl, fun _ => rfl, fun _ => rfl⟩
  have hwalked := walked_foldl hnew (visited root)
  unfold walk
  split_ifs
  · exact ⟨hwalked.definitions, hwalked.rootSpan, hwalked.scopes, hwalked.direct, hwalked.aliases⟩
  · exact hwalked

/-! ## Exports -/

/-- The scope of the last node of a declaration that the walk visits, or the whole file. -/
def scopeAt (root : Cst) (key : DeclarationKey) : SourceSpan :=
  ((((visited root).filterMap (scopeEntry definitions)).filter
    fun entry => entry.1 = key).getLast?.map Prod.snd).getD root.span

/-- No declaration below the scope of the module is exported where it stands, as a member of an
exported class is, and none has the simple name of a local name in a list of exports. -/
def OnlyModuleExports (root : Cst) : Prop :=
  ∀ definition ∈ definitions.definitions.take maxDeclarationsPerFile,
    scopeAt definitions root (declarationKey definition) ≠ root.span → ∀ node ∈ visited root,
        (∀ entry, exportEntry definitions node = some entry → entry.1 ≠ declarationKey definition) ∧
        ∀ entry ∈ aliasEntries node, entry.1 ≠ simpleName definition.symbol.name

lemma exportNames_eq_nil_iff (state : State) (definition : DefinitionFact) :
    (state.declarationOf definition).exportNames = [] ↔ state.exportsOf definition = [] := by
  constructor
  · intro h
    by_contra hne
    obtain ⟨name, hname⟩ := exists_mem_of_ne_nil _ hne
    have hmem : name ∈ (state.declarationOf definition).exportNames :=
      mem_eraseReps.mpr (mem_sortBy.mpr hname)
    rw [h] at hmem
    cases hmem
  · intro h
    unfold declarationOf
    rw [h]
    rfl

/-- A declaration below the scope of the module has the names that are filed for it. -/
lemma exportsOf_eq_nil_iff {definition : DefinitionFact}
    (h : state.scopeOf (declarationKey definition) ≠ state.rootSpan) :
    state.exportsOf definition = [] ↔
      (get? (declarationKey definition) state.directExports).getD [] = [] ∧
      (get? (simpleName definition.symbol.name) state.exportAliases).getD [] = [] := by
  unfold exportsOf
  dsimp only
  rw [if_neg fun hall => h hall.2.1, append_eq_nil_iff]

lemma declarations_extract (language path sourceHash content : String) (root : Cst)
    (rootHasError : Bool) :
    (extract language path sourceHash content root rootHasError definitions).declarations =
      (definitions.definitions.take maxDeclarationsPerFile).map
        (walk language path sourceHash content root rootHasError definitions).declarationOf := by
  have hwalked := walked_walk definitions language path sourceHash content root rootHasError
  unfold extract finish finishDeclarations
  rw [hwalked.definitions]
  rfl

/-- **Only declarations in the scope of the module are exported, exactly if no other one shares its
bytes or its simple name with an export.** -/
theorem module_scope_exports_iff (language path sourceHash content : String) (root : Cst)
    (rootHasError : Bool) :
    (∀ declaration ∈
        (extract language path sourceHash content root rootHasError definitions).declarations,
      declaration.exportNames ≠ [] → declaration.scopeSpan = root.span) ↔
    OnlyModuleExports definitions root := by
  have hwalked := walked_walk definitions language path sourceHash content root rootHasError
  rw [declarations_extract]
  generalize walk language path sourceHash content root rootHasError definitions = state at hwalked
  have hscope : ∀ definition, state.scopeOf (declarationKey definition) =
      scopeAt definitions root (declarationKey definition) := by
    intro definition
    unfold State.scopeOf scopeAt
    rw [hwalked.scopes, hwalked.rootSpan]
  have hnames : ∀ definition, scopeAt definitions root (declarationKey definition) ≠ root.span →
      ((state.declarationOf definition).exportNames = [] ↔ ∀ node ∈ visited root,
        (∀ entry, exportEntry definitions node = some entry → entry.1 ≠ declarationKey definition) ∧
        ∀ entry ∈ aliasEntries node, entry.1 ≠ simpleName definition.symbol.name) := by
    intro definition hne
    rw [exportNames_eq_nil_iff, exportsOf_eq_nil_iff (by rw [hscope, hwalked.rootSpan]; exact hne),
      hwalked.direct, hwalked.aliases]
    simp only [map_eq_nil_iff, filter_eq_nil_iff, mem_filterMap, mem_flatMap, decide_eq_true_eq]
    constructor
    · rintro ⟨hdirect, haliases⟩ node hnode
      exact ⟨fun entry hentry => hdirect entry ⟨node, hnode, hentry⟩,
        fun entry hentry => haliases entry ⟨node, hnode, hentry⟩⟩
    · intro hall
      exact ⟨fun entry ⟨node, hnode, hentry⟩ => (hall node hnode).1 entry hentry,
        fun entry ⟨node, hnode, hentry⟩ => (hall node hnode).2 entry hentry⟩
  constructor
  · intro hall definition hdefinition hne
    refine (hnames definition hne).mp ?_
    by_contra hexported
    have hfile := hall _ (List.mem_map_of_mem hdefinition) hexported
    exact hne ((hscope definition).symm.trans hfile)
  · intro hall declaration hdeclaration hexported
    obtain ⟨definition, hdefinition, rfl⟩ := List.mem_map.mp hdeclaration
    by_contra hne
    have hscoped : scopeAt definitions root (declarationKey definition) ≠ root.span := by
      rw [← hscope]
      exact hne
    exact hexported ((hnames definition hscoped).mpr (hall definition hdefinition hscoped))

/-! ### A nested function with the name of an exported import -/

namespace Reexported

def content : String :=
  "import \x7b helper \x7d from \"./other\";\nexport \x7b helper \x7d;\n" ++
    "function outer() \x7b function helper() \x7b\x7d \x7d"

def on (line start stop : ℕ) : SourceSpan := ⟨start, stop, line, line⟩

/-- The function `helper` in the body of `outer`. -/
def nested : Cst :=
  .node 30 "function_declaration" none true (on 3 72 92) "function helper() \x7b\x7d"
    [.node 31 "identifier" (some "name") true (on 3 81 87) "helper" [],
      .node 32 "formal_parameters" (some "parameters") true (on 3 87 89) "()" [],
      .node 33 "statement_block" (some "body") true (on 3 90 92) "\x7b\x7d" []]

def importStatement : Cst :=
  .node 1 "import_statement" none true (on 1 0 33) "import \x7b helper \x7d from \"./other\";"
    [.node 2 "import_clause" none true (on 1 7 17) "\x7b helper \x7d"
      [.node 3 "named_imports" none true (on 1 7 17) "\x7b helper \x7d"
        [.node 4 "import_specifier" none true (on 1 9 15) "helper"
          [.node 5 "identifier" (some "name") true (on 1 9 15) "helper" []]]],
      .node 6 "string" (some "source") true (on 1 23 32) "\"./other\"" []]

def exportStatement : Cst :=
  .node 10 "export_statement" none true (on 2 34 52) "export \x7b helper \x7d;"
    [.node 11 "export_clause" none true (on 2 41 51) "\x7b helper \x7d"
      [.node 12 "export_specifier" none true (on 2 43 49) "helper"
        [.node 13 "identifier" (some "name") true (on 2 43 49) "helper" []]]]

def outer : Cst :=
  .node 20 "function_declaration" none true (on 3 53 94)
    "function outer() \x7b function helper() \x7b\x7d \x7d"
    [.node 21 "identifier" (some "name") true (on 3 62 67) "outer" [],
      .node 22 "formal_parameters" (some "parameters") true (on 3 67 69) "()" [],
      .node 23 "statement_block" (some "body") true (on 3 70 94)
        "\x7b function helper() \x7b\x7d \x7d" [nested]]

def root : Cst :=
  .node 0 "program" none true ⟨0, 94, 1, 3⟩ content [importStatement, exportStatement, outer]

def declared : DefinitionFacts :=
  ⟨.available,
    [⟨⟨"outer", "function", "function outer()", 3, false, []⟩, on 3 53 94, some (on 3 53 94)⟩,
      ⟨⟨"helper", "function", "function helper()", 3, false, []⟩, on 3 72 92, some (on 3 72 92)⟩]⟩

def facts : CallReferenceFacts :=
  extract "JavaScript" "lib.js" "a1" content root false declared

end Reexported

/-- The nested function is exported, and an import of the name in another file is bound to it. -/
theorem not_module_scope_exports : (¬ ∀ declaration ∈ Reexported.facts.declarations,
      declaration.exportNames ≠ [] → declaration.scopeSpan = Reexported.root.span) ∧
      (resolveTarget [("lib.js", Reexported.facts.declarations)] "lib.js" "helper" "main.js"
        .call).toOption = some ⟨"lib.js", "a1", "helper", "function", Reexported.on 3 72 92⟩ := by
  decide +kernel

end Reposcout.Graph.Calls.JavaScript
