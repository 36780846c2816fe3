import Reposcout.Properties.Context.Definitions
import Reposcout.Properties.Query.Source.Budget
import Reposcout.Query.Plan

/-!
# A plan and its source

A plan names a definition by its file and position, but its source is requested by name.  With
room for everything, the definitions whose name is unique in their file are delivered with
exactly their spans, and any other one resolves as ambiguous and is not delivered.
-/

namespace Reposcout.Query

open Context.Definitions Laminar List Option KeyedList

/-! ## Requested files -/

/-- If every element is mapped, so is the list. -/
lemma mapM_ok {α β : Type} {f : α → Except String β} {R : α → β → Prop} {l : List α}
    (h : ∀ x ∈ l, ∃ y, f x = .ok y ∧ R x y) : ∃ ys, l.mapM f = .ok ys ∧ List.Forall₂ R l ys := by
  induction l with
  | nil => exact ⟨[], rfl, Forall₂.nil⟩
  | cons x l ih =>
    obtain ⟨y, hy, hxy⟩ := h x mem_cons_self
    obtain ⟨ys, hys, hl⟩ := ih fun z hz => h z (mem_cons_of_mem x hz)
    refine ⟨y :: ys, ?_, Forall₂.cons hxy hl⟩
    rw [mapM_cons, hy, hys]
    rfl

lemma nodup_keys_groupPaths (targets : List SourceQueryTarget) :
    (keys (groupPaths targets)).Nodup :=
  foldlRecOn (motive := fun requests : List SourceRequest =>
    (keys requests).Nodup) targets _ (by simp)
    (fun _ h _ _ => nodup_keys_alter h)

lemma get?_groupPaths (targets : List SourceQueryTarget) (snapshot : SourceRevision) :
    get? snapshot (groupPaths targets) =
      let paths := (targets.filter fun target => target.snapshot = snapshot).map (·.path)
      if paths = [] then none else some paths := by
  induction targets using reverseRecOn with
  | nil => rfl
  | append_singleton targets target ih =>
    have hstep : groupPaths (targets ++ [target]) = alter target.snapshot
        (fun paths => paths.getD [] ++ [target.path]) (groupPaths targets) := foldl_append
    rw [hstep, get?_alter]
    by_cases hsnapshot : snapshot = target.snapshot
    · subst hsnapshot
      rw [if_pos rfl, ih]
      by_cases hnil : (targets.filter fun other => other.snapshot = target.snapshot) = []
      · simp [hnil]
      · simp [hnil]
    · rw [if_neg hsnapshot, ih]
      simp [Ne.symm hsnapshot]

lemma mem_planRequests {targets : List SourceQueryTarget} {request : SourceRequest}
    (h : request ∈ planRequests targets) (path : PathBuf) :
    path ∈ request.2 ↔ ∃ target ∈ targets, target.snapshot = request.1 ∧ target.path = path := by
  have hget := get?_of_mem (nodup_keys_groupPaths targets)
    (k := request.1) (v := request.2) (mem_sortBy.mp h)
  rw [get?_groupPaths] at hget
  dsimp only at hget
  split_ifs at hget with hnil
  rw [← some.inj hget, List.mem_map]
  simp [and_assoc]

lemma exists_planRequest {targets : List SourceQueryTarget} {target : SourceQueryTarget}
    (h : target ∈ targets) : ∃ paths, (target.snapshot, paths) ∈ planRequests targets := by
  have hget := get?_groupPaths targets target.snapshot
  rw [if_neg] at hget
  · exact ⟨_, mem_sortBy.mpr (mem_of_get? hget)⟩
  · intro hnil
    have hmem : target.path ∈
        (targets.filter fun other => other.snapshot = target.snapshot).map (·.path) :=
      mem_map_of_mem (mem_filter.mpr ⟨h, by simp⟩)
    rw [hnil] at hmem
    cases hmem

/-! ## Described files -/

lemma nodup_orderedPaths (paths : List PathBuf) : (orderedPaths paths).Nodup :=
  (sortBy_perm _ _).nodup_iff.mpr (nodup_dedup paths)

variable {paths : List PathBuf}

lemma mem_orderedPaths {path : PathBuf} :
    path ∈ orderedPaths paths ↔ path ∈ paths := by
  unfold orderedPaths
  rw [mem_sortBy, mem_dedup]

variable (sourceHash : String → String) (offset : ℕ) (batch : SourceRevision × ExplicitSourceBatch)

lemma keys_describeBatch (paths : List PathBuf) :
    keys (describeBatch sourceHash offset batch paths) = orderedPaths paths := by
  unfold describeBatch describeFiles KeyedList.keys
  rw [List.map_map, List.map_map]
  exact zipIdx_map_fst 0 (orderedPaths paths)

lemma ids_describeBatch (paths : List PathBuf) :
    (describeBatch sourceHash offset batch paths).map (fun entry => entry.2.id) =
      List.range' (offset + 1) (describeBatch sourceHash offset batch paths).length := by
  unfold describeBatch describeFiles
  rw [List.map_map, List.map_map, length_map, length_map, length_zipIdx]
  have hid : ∀ l : List PathBuf, ∀ start, (l.zipIdx start).map
      (fun item : PathBuf × ℕ => item.2 + 1 + offset) = List.range' (start + 1 + offset) l.length := by
    intro l
    induction l with
    | nil => intro start; rfl
    | cons path l ih =>
      intro start
      rw [zipIdx_cons, map_cons, ih, length_cons, range'_succ]
      congr 2
      omega
  rw [show offset + 1 = 0 + 1 + offset by omega]
  exact hid (orderedPaths paths) 0

lemma exists_description {path : PathBuf} (h : path ∈ paths) :
    ∃ file, get? path (describeBatch sourceHash offset batch paths) = some file ∧
      file.path = path ∧ file.snapshot = batch.1 ∧
      file.sha256 = (get? path batch.2.files).map fun loaded =>
        sourceHash loaded.content := by
  obtain ⟨index, hindex, hpath⟩ := getElem_of_mem (mem_orderedPaths.mpr h)
  have hmem : (path, index) ∈ (orderedPaths paths).zipIdx := by
    rw [mem_zipIdx_iff_getElem?, getElem?_eq_getElem hindex, hpath]
  have hnodup : (keys (describeBatch sourceHash offset batch paths)).Nodup := by
    rw [keys_describeBatch]
    exact nodup_orderedPaths paths
  refine ⟨_, get?_of_mem hnodup (mem_map_of_mem (mem_map_of_mem hmem)), rfl, rfl, rfl⟩

lemma ids_describeBatches
    (batches : List (SourceRevision × ExplicitSourceBatch)) (requests : List SourceRequest) :
    (describeBatches sourceHash offset batches requests).flatten.map (fun entry => entry.2.id) =
      range' (offset + 1)
        (describeBatches sourceHash offset batches requests).flatten.length := by
  induction batches generalizing offset requests with
  | nil => rfl
  | cons batch batches ih =>
    cases requests with
    | nil => rfl
    | cons request requests =>
      rw [describeBatches, flatten_cons, map_append, ids_describeBatch, ih,
        length_append, ← range'_append_1]
      congr 2
      omega

variable {batches : List (SourceRevision × ExplicitSourceBatch)}

lemma describeBatches_getElem? {requests : List SourceRequest} {group : ℕ}
    {batch : SourceRevision × ExplicitSourceBatch} {request : SourceRequest}
    (hbatch : batches[group]? = some batch) (hrequest : requests[group]? = some request) :
    ∃ start, (describeBatches sourceHash offset batches requests)[group]? =
      some (describeBatch sourceHash start batch request.2) := by
  induction batches generalizing offset requests group with
  | nil => cases hbatch
  | cons first batches ih =>
    cases requests with
    | nil => cases hrequest
    | cons request' requests =>
      cases group with
      | zero =>
        cases hbatch
        cases hrequest
        exact ⟨offset, rfl⟩
      | succ group => exact ih _ hbatch hrequest

/-! ## Planned targets -/

section

variable {inputs : List DefinitionPlanInput}

lemma find?_planFile (inputs : List DefinitionPlanInput) (start index : ℕ) :
    ((inputs.zipIdx start).map fun item => planFile item.1 item.2).find?
        (fun file => file.id = start + index + 1) =
      inputs[index]?.map fun input => planFile input (start + index) := by
  induction inputs generalizing start index with
  | nil => rfl
  | cons input inputs ih =>
    rw [zipIdx_cons, map_cons]
    cases index with
    | zero => rw [find?_cons_of_pos (by simp [planFile])]; rfl
    | succ index =>
      rw [find?_cons_of_neg (by simp [planFile])]
      have hnext := ih (start + 1) index
      rw [show start + 1 + index = start + (index + 1) by omega] at hnext
      exact hnext

structure PlannedAt (inputs : List DefinitionPlanInput) (item : PlannedDefinition)
    (input : DefinitionPlanInput) (fact : DefinitionFact) : Prop where
  at_input : inputs[item.file - 1]? = some input
  one_based : item.file = item.file - 1 + 1
  at_fact : input.definitions.definitions[item.definition]? = some fact
  available : unavailable input = none
  costed : ∃ planning ∈ input.planning.definitions, planning.definition = item.definition
  name : item.name = fact.symbol.name
  declaration_span : item.declarationSpan = fact.declarationSpan
  source_span : fact.sourceSpan = some item.sourceSpan

variable {item : PlannedDefinition}

lemma exists_plannedAt (h : PlannedFrom inputs item) :
    ∃ input fact, PlannedAt inputs item input fact := by
  obtain ⟨⟨file, definition⟩, fact, planning, hposition, havailable, hfact, hcost, hname, _,
    hdeclaration, hspan, _⟩ := h.exists_fact
  obtain ⟨hfile, rfl⟩ := Prod.mk.inj hposition
  have hone : item.file = file.val + 1 := hfile
  have hindex : item.file - 1 = file := by omega
  refine ⟨inputs[file], fact, ⟨?_, by omega, hfact, havailable, ?_, hname, hdeclaration, hspan⟩⟩
  · rw [hindex]
    exact getElem?_eq_getElem file.isLt
  · have hdefinition := find?_some hcost
    exact ⟨planning, mem_of_find?_eq_some hcost, of_decide_eq_true hdefinition⟩

def requestOf (input : DefinitionPlanInput) (item : PlannedDefinition) : SourceQueryTarget :=
  ⟨input.path, .symbol item.name, some input.planning.sha256, input.snapshot⟩

lemma planTarget_ok {report : DefinitionPlanReport} {input : DefinitionPlanInput}
    {fact : DefinitionFact}
    (hfiles : report.files = inputs.zipIdx.map fun item => planFile item.1 item.2)
    (h : PlannedAt inputs item input fact) :
    planTarget report item = .ok (requestOf input item) := by
  have hfind := find?_planFile inputs 0 (item.file - 1)
  rw [Nat.zero_add, ← h.one_based, h.at_input] at hfind
  unfold planTarget
  rw [hfiles, hfind]
  rfl

end

/-! ## Resolving a planned definition -/

structure ReadsAgain (inputs : List DefinitionPlanInput)
    (contents : SourceRevision → PathBuf → String) (sourceHash : String → String)
    (load : List SourceRequest → Except String (List (SourceRevision × ExplicitSourceBatch))) :
    Prop where
  hashed : ∀ input ∈ inputs, sourceHash (contents input.snapshot input.path) = input.planning.sha256
  costed : ∀ input ∈ inputs, ∀ planning ∈ input.planning.definitions,
    ∀ fact, input.definitions.definitions[planning.definition]? = some fact →
      ∀ span ∈ fact.sourceSpan,
        (getBytes (contents input.snapshot input.path) span.startByte span.endByte).isSome
  loaded : ∀ requests : List SourceRequest, (∀ request ∈ requests, ∀ path ∈ request.2,
      ∃ input ∈ inputs, input.snapshot = request.1 ∧ input.path = path) →
    ∃ batches, load requests = .ok batches ∧
      List.Forall₂ (fun request batch => batch.1 = request.1 ∧ ∀ path ∈ request.2,
        get? path batch.2.failures = none ∧
        ∃ loaded, get? path batch.2.files = some loaded ∧ loaded.content = contents request.1 path ∧
          ∀ input ∈ inputs, input.snapshot = request.1 → input.path = path →
            loaded.definitions = input.definitions) requests batches

def sameName (input : DefinitionPlanInput) (name : String) : List DefinitionFact :=
  input.definitions.definitions.filter fun fact => fact.symbol.name = name

def UniqueName (inputs : List DefinitionPlanInput) (item : PlannedDefinition) : Prop :=
  ∀ input ∈ inputs[item.file - 1]?, (sameName input item.name).length = 1

section

variable {inputs : List DefinitionPlanInput} {item : PlannedDefinition}
  {input : DefinitionPlanInput} {fact : DefinitionFact}

variable (h : PlannedAt inputs item input fact)

include h

lemma PlannedAt.mem_sameName :
    fact ∈ sameName input item.name :=
  mem_filter.mpr ⟨mem_of_getElem? h.at_fact, decide_eq_true h.name.symm⟩

lemma PlannedAt.uniqueName_iff :
    UniqueName inputs item ↔ (sameName input item.name).length = 1 := by
  unfold UniqueName
  rw [h.at_input]
  simp

lemma PlannedAt.select_eq :
    select input.definitions.definitions (.symbol item.name) =
      (sameName input item.name, "exact-qualified-name") := by
  exact if_pos (ne_nil_of_mem h.mem_sameName)

lemma resolveDefinition_unique {content : String} (hunique : (sameName input item.name).length = 1)
    (hslice : (getBytes content item.sourceSpan.startByte item.sourceSpan.endByte).isSome)
    (resolved : ResolvedTarget) (extraction : DefinitionStatus) :
    resolveDefinition resolved content input.definitions.definitions extraction
        (.symbol item.name) =
      { resolved with
        result :=
          { resolved.result with
            selection := some "exact-qualified-name"
            totalCandidates := 1
            definition := some (describe fact false)
            status := .complete }
        source := some (content, item.sourceSpan) } := by
  have hsingle : sameName input item.name = [fact] := by
    obtain ⟨other, hother⟩ := length_eq_one_iff.mp hunique
    have hmem := h.mem_sameName
    rw [hother, mem_singleton] at hmem
    rw [hother, hmem]
  unfold resolveDefinition
  rw [h.select_eq, hsingle]
  dsimp only
  rw [h.source_span]
  dsimp only
  rw [if_pos hslice]
  rfl

lemma resolveDefinition_ambiguous (content : String)
    (hunique : (sameName input item.name).length ≠ 1) (resolved : ResolvedTarget)
    (extraction : DefinitionStatus) :
    ∃ selection total definitions omitted,
      resolveDefinition resolved content input.definitions.definitions extraction
          (.symbol item.name) =
        { resolved with
          result :=
            { resolved.result with
              selection := selection
              totalCandidates := total
              status := .ambiguous
              candidates := definitions
              omittedCandidates := omitted } } := by
  unfold resolveDefinition
  rw [h.select_eq]
  cases hsame : sameName input item.name with
  | nil => exact absurd h.mem_sameName (by rw [hsame]; exact not_mem_nil)
  | cons first rest =>
    cases rest with
    | nil => exact absurd (by rw [hsame]; rfl) hunique
    | cons second rest => exact ⟨_, _, _, _, rfl⟩

variable {loaded : ExplicitSourceFile}

lemma resolve_planned {batch : ExplicitSourceBatch} {files : List (PathBuf × SourceQueryFile)}
    {file : SourceQueryFile} (index : ℕ) (hfile : get? input.path files = some file)
    (hhash : file.sha256 = some input.planning.sha256)
    (hfailure : get? input.path batch.failures = none)
    (hloaded : get? input.path batch.files = some loaded)
    (hdefinitions : loaded.definitions = input.definitions) :
    (resolve index (requestOf input item) (some input.path) batch files 0).1 =
      resolveDefinition ⟨some file, emptyResult index (some file.id), none⟩ loaded.content
        input.definitions.definitions input.definitions.status (.symbol item.name) := by
  have hmatches : hashMatches (some file) (requestOf input item).expectedHash = true := by
    simp [hashMatches, requestOf, hhash]
  unfold resolve
  rw [bind_some, hfile]
  dsimp only
  rw [hfailure, hloaded]
  dsimp only
  rw [if_pos hmatches]
  unfold resolveLoaded requestOf
  rw [hdefinitions]
  have havailable := h.available
  unfold unavailable at havailable
  cases hstatus : input.definitions.status with
  | available => rfl
  | parseErrors => rfl
  | unsupported => rw [hstatus] at havailable; cases havailable
  | unavailable => rw [hstatus] at havailable; cases havailable

end

/-- The outcome for a planned definition: its span if its name is unique, nothing otherwise. -/
structure ResolvedAs (contents : SourceRevision → PathBuf → String)
    (files : ℕ → SourceQueryFile) (input : DefinitionPlanInput) (item : PlannedDefinition)
    (fact : DefinitionFact) (index : ℕ) (resolved : ResolvedTarget) : Prop where
  file : ∃ file, resolved.file = some file ∧ resolved.result.file = some file.id ∧
    file = files file.id ∧ file.path = input.path ∧ file.snapshot = input.snapshot
  target : resolved.result.target = index + 1
  unsourced : resolved.result.source = none
  unique : (sameName input item.name).length = 1 → resolved.result.status = .complete ∧
    resolved.result.definition = some (describe fact false) ∧
    resolved.source = some (contents input.snapshot input.path, item.sourceSpan)
  ambiguous : (sameName input item.name).length ≠ 1 → resolved.result.status = .ambiguous ∧
    resolved.source = none

def fileById (descriptions : List (List (PathBuf × SourceQueryFile))) (id : ℕ) : SourceQueryFile :=
  (get? id (descriptions.flatten.map fun entry => (entry.2.id, entry.2))).getD default

variable {descriptions : List (List (PathBuf × SourceQueryFile))}

lemma fileById_eq
    (hids : (descriptions.flatten.map fun entry => entry.2.id).Nodup)
    {entry : PathBuf × SourceQueryFile} (h : entry ∈ descriptions.flatten) :
    fileById descriptions entry.2.id = entry.2 := by
  have hkeys : (keys
      (descriptions.flatten.map fun entry => (entry.2.id, entry.2))).Nodup := by
    unfold KeyedList.keys
    rw [List.map_map]
    exact hids
  unfold fileById
  rw [get?_of_mem hkeys (List.mem_map_of_mem h)]
  rfl

lemma forall₂_getElem? {α β : Type} {R : α → β → Prop} {l : List α} {l' : List β}
    (h : List.Forall₂ R l l') {i : ℕ} {x : α} (hx : l[i]? = some x) :
    ∃ y, l'[i]? = some y ∧ R x y := by
  induction h generalizing i with
  | nil => cases hx
  | cons hxy _ ih =>
    cases i with
    | zero =>
      cases hx
      exact ⟨_, rfl, hxy⟩
    | succ i => exact ih hx

lemma exists_group {targets : List SourceQueryTarget} {target : SourceQueryTarget}
    (h : target ∈ targets) {R : SourceRequest → SourceRevision × ExplicitSourceBatch → Prop}
    (hbatches : List.Forall₂ R (planRequests targets) batches) : ∃ group request batch,
      (planRequests targets).findIdx? (fun request => request.1 = target.snapshot) = some group ∧
      (planRequests targets)[group]? = some request ∧ batches[group]? = some batch ∧
      request.1 = target.snapshot ∧ target.path ∈ request.2 ∧ R request batch := by
  obtain ⟨paths, hpaths⟩ := exists_planRequest h
  have hsome : ((planRequests targets).findIdx?
      fun request => request.1 = target.snapshot).isSome := by
    rw [findIdx?_isSome, List.any_eq_true]
    exact ⟨_, hpaths, decide_eq_true rfl⟩
  obtain ⟨group, hgroup⟩ := isSome_iff_exists.mp hsome
  obtain ⟨hlt, hfound, _⟩ := findIdx?_eq_some_iff_getElem.mp hgroup
  have hsnapshot : (planRequests targets)[group].1 = target.snapshot := of_decide_eq_true hfound
  obtain ⟨batch, hbatch, hrelated⟩ := forall₂_getElem? hbatches (getElem?_eq_getElem hlt)
  refine ⟨group, _, batch, hgroup, getElem?_eq_getElem hlt, hbatch, hsnapshot, ?_, hrelated⟩
  exact (mem_planRequests (getElem_mem hlt) _).mpr ⟨target, h, hsnapshot.symm, rfl⟩

lemma resolvedAs_of_found {inputs : List DefinitionPlanInput}
    {contents : SourceRevision → PathBuf → String} {context : QueryContext}
    (hread : ReadsAgain inputs contents context.sourceHash context.load) {item : PlannedDefinition}
    {input : DefinitionPlanInput} {fact : DefinitionFact}
    (hplanned : PlannedAt inputs item input fact) {batch : SourceRevision × ExplicitSourceBatch}
    (hrevision : batch.1 = input.snapshot) (hfailure : get? input.path batch.2.failures = none)
    (hloaded : get? input.path batch.2.files = some loaded)
    (hcontent : loaded.content = contents input.snapshot input.path)
    (hdefinitions : loaded.definitions = input.definitions) {group start : ℕ}
    (hpath : input.path ∈ paths)
    (hdescription : descriptions[group]? =
      some (describeBatch context.sourceHash start batch paths))
    (hids : (descriptions.flatten.map fun entry => entry.2.id).Nodup) (index : ℕ) :
    ResolvedAs contents (fileById descriptions) input item fact index
      (resolve (index + 1) (requestOf input item) (some input.path) batch.2
        (describeBatch context.sourceHash start batch paths) 0).1 := by
  have hinput : input ∈ inputs := mem_of_getElem? hplanned.at_input
  obtain ⟨file, hfile, hfilePath, hfileSnapshot, hfileHash⟩ :=
    exists_description context.sourceHash start batch hpath
  have hentry : (input.path, file) ∈ descriptions.flatten :=
    mem_flatten.mpr ⟨_, mem_of_getElem? hdescription, mem_of_get? hfile⟩
  have hidentified : fileById descriptions file.id = file := fileById_eq hids hentry
  have hhash : file.sha256 = some input.planning.sha256 := by
    rw [hfileHash, hloaded, map_some, hcontent, hread.hashed input hinput]
  have hslice : (getBytes loaded.content item.sourceSpan.startByte
      item.sourceSpan.endByte).isSome := by
    obtain ⟨planning, hplanning, hdefinition⟩ := hplanned.costed
    rw [hcontent]
    exact hread.costed input hinput planning hplanning fact (hdefinition ▸ hplanned.at_fact)
      item.sourceSpan hplanned.source_span
  have hfound : ∃ other, some file = some other ∧ some file.id = some other.id ∧
      other = fileById descriptions other.id ∧ other.path = input.path ∧
      other.snapshot = input.snapshot :=
    ⟨file, rfl, rfl, hidentified.symm, hfilePath, hfileSnapshot.trans hrevision⟩
  rw [resolve_planned hplanned (index + 1) hfile hhash hfailure hloaded hdefinitions]
  by_cases hunique : (sameName input item.name).length = 1
  · rw [resolveDefinition_unique hplanned hunique hslice]
    exact ⟨hfound, rfl, rfl, fun _ => ⟨rfl, rfl, by rw [hcontent]⟩,
      fun hne => absurd hunique hne⟩
  · obtain ⟨selection, total, definitions, omitted, hresolution⟩ :=
      resolveDefinition_ambiguous hplanned loaded.content hunique
        ⟨some file, emptyResult (index + 1) (some file.id), none⟩ input.definitions.status
    rw [hresolution]
    exact ⟨hfound, rfl, rfl, fun hone => absurd hone hunique, fun _ => ⟨rfl, rfl⟩⟩

lemma resolvePlan_ok {inputs : List DefinitionPlanInput}
    {contents : SourceRevision → PathBuf → String} {context : QueryContext}
    (hread : ReadsAgain inputs contents context.sourceHash context.load)
    {targets : List SourceQueryTarget}
    (htargets : ∀ target ∈ targets, ∃ item input fact,
      PlannedAt inputs item input fact ∧ target = requestOf input item) :
    ∃ resolved files, resolvePlan context targets = .ok resolved ∧
      List.Forall₂ (fun target resolved => ∀ item input fact, PlannedAt inputs item input fact →
        target.1 = requestOf input item →
          ResolvedAs contents files input item fact target.2 resolved) targets.zipIdx resolved := by
  have hrequests : ∀ request ∈ planRequests targets, ∀ path ∈ request.2,
      ∃ input ∈ inputs, input.snapshot = request.1 ∧ input.path = path := by
    intro request hrequest path hpath
    obtain ⟨target, htarget, hsnapshot, rfl⟩ := (mem_planRequests hrequest path).mp hpath
    obtain ⟨item, input, fact, hplanned, rfl⟩ := htargets target htarget
    exact ⟨input, mem_of_getElem? hplanned.at_input, hsnapshot, rfl⟩
  obtain ⟨batches, hload, hbatches⟩ := hread.loaded (planRequests targets) hrequests
  have hids := ids_describeBatches context.sourceHash 0 batches (planRequests targets)
  have hgroups := @describeBatches_getElem? context.sourceHash 0 batches (planRequests targets)
  have hresolve : resolvePlan context targets = targets.zipIdx.mapM fun item =>
      resolvePlanned (planRequests targets) batches
        (describeBatches context.sourceHash 0 batches (planRequests targets)) item.1 item.2 := by
    unfold resolvePlan
    dsimp only
    rw [hload]
    rfl
  generalize describeBatches context.sourceHash 0 batches (planRequests targets) = descriptions
    at hids hgroups hresolve
  have hnodup : (descriptions.flatten.map fun entry => entry.2.id).Nodup := by
    rw [hids]
    exact nodup_range'
  rw [hresolve]
  refine (mapM_ok ?_).imp fun resolved h => ⟨fileById descriptions, h⟩
  rintro ⟨target, index⟩ hmem
  have htarget : target ∈ targets := (mem_zipIdx' hmem).2 ▸ getElem_mem _
  obtain ⟨group, request, batch, hgroup, hrequest, hbatch, hsnapshot, hpath, hrevision, hfound⟩ :=
    exists_group htarget hbatches
  obtain ⟨start, hdescription⟩ := hgroups hbatch hrequest
  refine ⟨_, by unfold resolvePlanned; rw [hgroup]; dsimp only; rw [hbatch, hdescription], ?_⟩
  intro item input fact hplanned heq
  subst heq
  have hinput : input ∈ inputs := mem_of_getElem? hplanned.at_input
  obtain ⟨hfailure, loaded, hloaded, hcontent, hdefinitions⟩ := hfound input.path hpath
  rw [hsnapshot] at hcontent
  exact resolvedAs_of_found hread hplanned (hrevision.trans hsnapshot) hfailure hloaded hcontent
    (hdefinitions input hinput hsnapshot.symm rfl) hpath hdescription hnodup index

/-! ## The planned definitions of a query -/

lemma pushOmission_files (report : DefinitionPlanReport) (omission : DefinitionPlanOmission) :
    (pushOmission report omission).files = report.files ∧
      (pushOmission report omission).selected = report.selected := by
  unfold pushOmission
  split_ifs <;> exact ⟨rfl, rfl⟩

/-- Targets that could not be captured do not change what is planned. -/
lemma pushFailure_files (report : DefinitionPlanReport) (failure : DefinitionPlanOmission) :
    (pushFailure report failure).files = report.files ∧
      (pushFailure report failure).selected = report.selected := by
  unfold pushFailure
  obtain ⟨hfiles, hselected⟩ := pushOmission_files
    (if failure.reason = "not-found" ∨ failure.reason = "invalid-path" then
      { report with unresolvedSeeds := report.unresolvedSeeds + 1 }
    else { report with unavailableSeeds := report.unavailableSeeds + 1 }) failure
  rw [hfiles, hselected]
  split_ifs <;> exact ⟨rfl, rfl⟩

lemma foldl_pushFailure_files (failures : List DefinitionPlanOmission)
    (report : DefinitionPlanReport) :
    (failures.foldl pushFailure report).files = report.files ∧
      (failures.foldl pushFailure report).selected = report.selected := by
  induction failures generalizing report with
  | nil => exact ⟨rfl, rfl⟩
  | cons failure failures ih =>
    obtain ⟨hfiles, hselected⟩ := pushFailure_files report failure
    rw [foldl_cons, (ih _).1, (ih _).2]
    exact ⟨hfiles, hselected⟩

lemma queryReport_files (context : QueryContext) (options : DefinitionPlanQueryOptions)
    (captured : CapturedPlan) : (queryReport context options captured).files =
      captured.inputs.zipIdx.map fun item => planFile item.1 item.2 := by
  unfold queryReport
  rw [(foldl_pushFailure_files _ _).1]
  dsimp only
  split_ifs <;> exact plan_files _ _ _

lemma queryReport_planned (context : QueryContext) (options : DefinitionPlanQueryOptions)
    (captured : CapturedPlan) :
    ∀ item ∈ (queryReport context options captured).selected,
      ∃ input fact, PlannedAt captured.inputs item input fact := by
  unfold queryReport
  rw [(foldl_pushFailure_files _ _).2]
  intro item hitem
  split_ifs at hitem
  · cases hitem
  · exact exists_plannedAt (plan_planned _ _ _ item hitem)

/-! ## Delivering a plan -/

/-- The definition planned at a position is delivered with its own span, in a chunk of its
file. -/
def DeliversAt (inputs : List DefinitionPlanInput) (contents : SourceRevision → PathBuf → String)
    (source : SourceQueryReport) (index : ℕ) (item : PlannedDefinition) : Prop :=
  ∃ input ∈ inputs[item.file - 1]?, ∃ result ∈ source.results, ∃ file ∈ source.files,
    ∃ chunk ∈ source.sources, ∃ definition, result.target = index + 1 ∧ result.status = .complete ∧
      result.definition = some definition ∧ definition.name = item.name ∧
      definition.declarationSpan = item.declarationSpan ∧
      definition.sourceSpan = some item.sourceSpan ∧
      result.file = some file.id ∧ file.path = input.path ∧ file.snapshot = input.snapshot ∧
      result.source = some chunk.id ∧ chunk.file = file.id ∧
      chunk.span.Contains item.sourceSpan ∧
      getBytes (contents input.snapshot input.path) chunk.span.startByte chunk.span.endByte =
        some chunk.content

def PlannedByte (inputs : List DefinitionPlanInput) (selected : List PlannedDefinition)
    (file : SourceQueryFile) (byte : ℕ) : Prop :=
  ∃ item ∈ selected, ∃ input ∈ inputs[item.file - 1]?,
    file.path = input.path ∧ file.snapshot = input.snapshot ∧
    item.sourceSpan.startByte ≤ byte ∧ byte < item.sourceSpan.endByte

/-- **The source delivers the plan**: one result for each planned definition, with the span of
that definition, and no byte outside the planned spans. -/
structure Delivers (inputs : List DefinitionPlanInput)
    (contents : SourceRevision → PathBuf → String) (selected : List PlannedDefinition)
    (source : SourceQueryReport) : Prop where
  targets : source.results.map (·.target) = List.range' 1 selected.length
  delivered : ∀ index item, selected[index]? = some item →
    DeliversAt inputs contents source index item
  nothing_else : ∀ chunk ∈ source.sources, ∀ byte,
    chunk.span.startByte ≤ byte → byte < chunk.span.endByte →
      ∃ file ∈ source.files, chunk.file = file.id ∧ PlannedByte inputs selected file byte

/-- The source report after the first `count` targets of a plan when nothing is left out. -/
def deliveredPrefix (context : QueryContext) (options : DefinitionPlanQueryOptions)
    (report : DefinitionPlanReport) (count : ℕ) : Except String SourceQueryReport := do
  let targets ← report.selected.mapM (planTarget report)
  let resolved ← resolvePlan context targets
  admitAll options.byteBudget (fun _ => true)
    (planSource context options report.selected.length) (resolved.take count)

structure LargeEnough (context : QueryContext) (options : DefinitionPlanQueryOptions)
    (report : DefinitionPlanReport) : Prop where
  spans : ∀ item ∈ report.selected,
    item.sourceSpan.endByte - item.sourceSpan.startByte ≤ options.byteBudget
  envelope : context.fits
    { report with source := some (planSource context options report.selected.length) } = true
  admitted : ∀ count source, deliveredPrefix context options report count = .ok source →
    context.fits { report with source := some source } = true

structure Included (inputs : List DefinitionPlanInput)
    (contents : SourceRevision → PathBuf → String) (selected : List PlannedDefinition)
    (files : ℕ → SourceQueryFile) (resolved : List ResolvedTarget) (source : SourceQueryReport) :
    Prop where
  report_ok : ReportOk files (fun id => contents (files id).snapshot (files id).path) resolved
    source
  length_eq : resolved.length = selected.length
  resolved_as : ∀ index item, selected[index]? = some item → ∃ input fact target,
    PlannedAt inputs item input fact ∧ resolved[index]? = some target ∧
      ResolvedAs contents files input item fact index target

section

variable {inputs : List DefinitionPlanInput} {contents : SourceRevision → PathBuf → String}
  {context : QueryContext}

variable {input : DefinitionPlanInput} {item : PlannedDefinition} {fact : DefinitionFact}
variable (hread : ReadsAgain inputs contents context.sourceHash context.load)

include hread

lemma ReadsAgain.slice (hplanned : PlannedAt inputs item input fact) :
    (getBytes (contents input.snapshot input.path) item.sourceSpan.startByte
      item.sourceSpan.endByte).isSome := by
  obtain ⟨planning, hplanning, hdefinition⟩ := hplanned.costed
  exact hread.costed input (mem_of_getElem? hplanned.at_input) planning hplanning fact
    (hdefinition ▸ hplanned.at_fact) item.sourceSpan hplanned.source_span

variable {files : ℕ → SourceQueryFile} {index : ℕ}

lemma ResolvedAs.deliverable {target : ResolvedTarget} (hplanned : PlannedAt inputs item input fact)
    (h : ResolvedAs contents files input item fact index target) :
    Deliverable files (fun id => contents (files id).snapshot (files id).path) target := by
  obtain ⟨file, hfile, hid, hidentified, hpath, hsnapshot⟩ := h.file
  refine ⟨h.unsourced, fun other hother => ?_, fun content span hsource => ?_⟩
  · cases hfile.symm.trans hother
    exact hidentified
  · by_cases hunique : (sameName input item.name).length = 1
    · rw [(h.unique hunique).2.2] at hsource
      cases hsource
      refine ⟨file.id, hid, ?_, hread.slice hplanned⟩
      show _ = contents (files file.id).snapshot (files file.id).path
      rw [← hidentified, hpath, hsnapshot]
    · rw [(h.ambiguous hunique).2] at hsource
      cases hsource

omit hread

lemma ResolvedAs.source_span {target : ResolvedTarget}
    (h : ResolvedAs contents files input item fact index target) {content : String}
    {span : SourceSpan} (hsource : target.source = some (content, span)) :
    span = item.sourceSpan := by
  by_cases hunique : (sameName input item.name).length = 1
  · rw [(h.unique hunique).2.2] at hsource
    exact (Prod.mk.inj (some.inj hsource)).2.symm
  · rw [(h.ambiguous hunique).2] at hsource
    cases hsource

variable {report : DefinitionPlanReport}
variable (hread : ReadsAgain inputs contents context.sourceHash context.load)
  (hfiles : report.files = inputs.zipIdx.map fun item => planFile item.1 item.2)

include hread hfiles

variable (hplanned : ∀ item ∈ report.selected, ∃ input fact, PlannedAt inputs item input fact)

include hplanned

lemma resolve_plan_ok :
    ∃ targets resolved files, report.selected.mapM (planTarget report) = .ok targets ∧
      targets.length = report.selected.length ∧ resolvePlan context targets = .ok resolved ∧
      resolved.length = report.selected.length ∧
      ∀ index item, report.selected[index]? = some item → ∃ input fact target,
        PlannedAt inputs item input fact ∧ resolved[index]? = some target ∧
          ResolvedAs contents files input item fact index target := by
  have htarget : ∀ item ∈ report.selected, ∃ target, planTarget report item = .ok target ∧
      ∃ input fact, PlannedAt inputs item input fact ∧ target = requestOf input item := by
    intro item hitem
    obtain ⟨input, fact, h⟩ := hplanned item hitem
    exact ⟨_, planTarget_ok hfiles h, input, fact, h, rfl⟩
  obtain ⟨targets, htargets, hrelated⟩ := mapM_ok htarget
  have hall : ∀ target ∈ targets, ∃ item input fact,
      PlannedAt inputs item input fact ∧ target = requestOf input item := by
    intro target hmem
    obtain ⟨index, hindex⟩ := mem_iff_getElem?.mp hmem
    obtain ⟨item, _, input, fact, h, heq⟩ := forall₂_getElem? hrelated.flip hindex
    exact ⟨item, input, fact, h, heq⟩
  obtain ⟨resolved, files, hresolved, hresolution⟩ := resolvePlan_ok hread hall
  refine ⟨targets, resolved, files, htargets, hrelated.length_eq.symm, hresolved, ?_, ?_⟩
  · rw [← hresolution.length_eq, length_zipIdx, hrelated.length_eq]
  · intro index item hitem
    obtain ⟨target, htarget, input, fact, h, heq⟩ := forall₂_getElem? hrelated hitem
    have hindexed : targets.zipIdx[index]? = some (target, index) := by
      rw [getElem?_zipIdx, htarget, map_some, Nat.zero_add]
    obtain ⟨outcome, houtcome, hresolvedAs⟩ := forall₂_getElem? hresolution hindexed
    exact ⟨input, fact, outcome, h, houtcome, hresolvedAs item input fact h heq⟩

/-- **A plan with enough room is included with its source.** -/
lemma includeSource_ok {options : DefinitionPlanQueryOptions}
    (hlarge : LargeEnough context options report) : ∃ source files resolved,
      includeSource context options report = .ok { report with source := some source } ∧
        Included inputs contents report.selected files resolved source := by
  obtain ⟨targets, resolved, files, htargets, hlength, hresolve, hcount, hresolved⟩ :=
    resolve_plan_ok hread hfiles hplanned
  have hat : ∀ target ∈ resolved, ∃ item ∈ report.selected, ∃ input fact index,
      PlannedAt inputs item input fact ∧ ResolvedAs contents files input item fact index target := by
    intro target hmem
    obtain ⟨index, hindex⟩ := mem_iff_getElem?.mp hmem
    have hlt : index < report.selected.length := by
      rw [← hcount]
      exact (List.getElem?_eq_some_iff.mp hindex).1
    obtain ⟨input, fact, other, h, hother, hresolvedAs⟩ :=
      hresolved index _ (getElem?_eq_getElem hlt)
    cases hindex.symm.trans hother
    exact ⟨_, getElem_mem hlt, input, fact, index, h, hresolvedAs⟩
  have hempty : ReportOk files (fun id => contents (files id).snapshot (files id).path) []
      (planSource context options report.selected.length) := reportOk_empty _ _ rfl rfl rfl
  obtain ⟨source, hrun, hok⟩ := @admitAll_ok options.byteBudget _ _ _ resolved _ hempty
    (fun target hmem => by
      obtain ⟨item, _, input, fact, index, h, hresolvedAs⟩ := hat target hmem
      exact hresolvedAs.deliverable hread h)
    (fun target hmem content span hsource => by
      obtain ⟨item, hitem, input, fact, index, h, hresolvedAs⟩ := hat target hmem
      rw [hresolvedAs.source_span hsource]
      exact hlarge.spans item hitem)
  have hfits : admitAll options.byteBudget
      (fun candidate => context.fits { report with source := some candidate })
      (planSource context options report.selected.length) resolved = .ok source :=
    admitAll_of_fits hrun fun count next hnext => hlarge.admitted count next (by
      unfold deliveredPrefix
      rw [htargets]
      show (resolvePlan context targets >>= _) = _
      rw [hresolve]
      exact hnext)
  refine ⟨source, files, resolved, ?_, by rwa [nil_append] at hok, hcount, hresolved⟩
  unfold includeSource
  rw [project_of_fits hlarge.envelope]
  show (report.selected.mapM (planTarget report) >>= _) = _
  rw [htargets]
  show (resolvePlan context targets >>= _) = _
  rw [hresolve, hlength]
  show (admitAll options.byteBudget
    (fun candidate => context.fits { report with source := some candidate })
    (planSource context options report.selected.length) resolved >>= _) = _
  rw [hfits]
  rfl

end

/-! ## What is delivered -/

section

variable {inputs : List DefinitionPlanInput} {contents : SourceRevision → PathBuf → String}
  {selected : List PlannedDefinition} {files : ℕ → SourceQueryFile}
  {resolved : List ResolvedTarget} {source : SourceQueryReport}

variable {item : PlannedDefinition}

lemma Included.result_at (h : Included inputs contents selected files resolved source)
    (hitem : selected[index]? = some item) :
    ∃ input fact target result, PlannedAt inputs item input fact ∧ target ∈ resolved ∧
      ResolvedAs contents files input item fact index target ∧
      source.results[index]? = some result ∧ Backed source.sources target result := by
  obtain ⟨input, fact, target, hplanned, htarget, hresolved⟩ := h.resolved_as index item hitem
  obtain ⟨result, hresult, hbacked⟩ := forall₂_getElem? h.report_ok.backed htarget
  exact ⟨input, fact, target, result, hplanned, mem_of_getElem? htarget, hresolved, hresult,
    hbacked⟩

lemma Backed.target_eq {sources : List SourceQueryChunk} {target : ResolvedTarget}
    {result : SourceQueryResult} (h : Backed sources target result) :
    result.target = target.result.target ∧ result.status = target.result.status ∧
      result.file = target.result.file ∧ result.definition = target.result.definition := by
  rw [← h.unsourced]
  exact ⟨rfl, rfl, rfl, rfl⟩

variable (h : Included inputs contents selected files resolved source)

include h

/-- There is one result for each planned definition, in the order of the plan. -/
lemma Included.targets :
    source.results.map (·.target) = List.range' 1 selected.length := by
  have hlength : source.results.length = selected.length :=
    h.report_ok.backed.length_eq.symm.trans h.length_eq
  refine ext_getElem (by simp [hlength]) fun index hleft hright => ?_
  have hindex : index < selected.length := by simpa using hright
  obtain ⟨input, fact, target, result, _, _, hresolved, hresult, hbacked⟩ :=
    h.result_at (getElem?_eq_getElem hindex)
  obtain ⟨_, hresult⟩ := List.getElem?_eq_some_iff.mp hresult
  rw [getElem_map, hresult, hbacked.target_eq.1, hresolved.target, getElem_range']
  omega

/-- **Every delivered byte is a planned one.** -/
lemma Included.nothing_else {chunk : SourceQueryChunk} (hchunk : chunk ∈ source.sources) {byte : ℕ}
    (hstart : chunk.span.startByte ≤ byte) (hend : byte < chunk.span.endByte) :
    ∃ file ∈ source.files, chunk.file = file.id ∧ PlannedByte inputs selected file byte := by
  obtain ⟨target, htarget, span, ⟨hfile, content, hsource⟩, hspan⟩ :=
    h.report_ok.chunks.requested chunk hchunk byte hstart hend
  obtain ⟨index, hindex⟩ := mem_iff_getElem?.mp htarget
  have hlt : index < selected.length := by
    rw [← h.length_eq]
    exact (List.getElem?_eq_some_iff.mp hindex).1
  have hitem := getElem?_eq_getElem hlt
  obtain ⟨input, fact, other, hplanned, hother, hresolved⟩ := h.resolved_as index _ hitem
  cases hindex.symm.trans hother
  obtain ⟨file, hlisted, hid, _, hpath, hsnapshot⟩ := hresolved.file
  refine ⟨file, h.report_ok.listed target htarget file hlisted,
    some.inj (hfile.symm.trans hid), selected[index], getElem_mem hlt, input,
    hplanned.at_input, hpath, hsnapshot, ?_⟩
  rwa [← hresolved.source_span hsource]

/-- **A planned definition is delivered exactly if its name is unique in its file.** -/
lemma Included.deliversAt_iff (hitem : selected[index]? = some item) :
    DeliversAt inputs contents source index item ↔ UniqueName inputs item := by
  obtain ⟨input, fact, target, result, hplanned, htarget, hresolved, hresult, hbacked⟩ :=
    h.result_at hitem
  rw [hplanned.uniqueName_iff]
  obtain ⟨htargetEq, hstatusEq, hfileEq, hdefinitionEq⟩ := hbacked.target_eq
  constructor
  · rintro ⟨_, _, other, hother, _, _, _, _, _, hposition, hstatus, _⟩
    -- The result with the number of the definition is the one at its position.
    obtain ⟨place, hplace⟩ := mem_iff_getElem?.mp hother
    have hnumber : (source.results.map (·.target))[place]? = some (index + 1) := by
      rw [getElem?_map, hplace, ← hposition]
      rfl
    rw [h.targets] at hnumber
    obtain ⟨_, hvalue⟩ := List.getElem?_eq_some_iff.mp hnumber
    rw [getElem_range'] at hvalue
    obtain rfl : place = index := by omega
    cases hplace.symm.trans hresult
    by_contra hambiguous
    rw [hstatusEq, (hresolved.ambiguous hambiguous).1] at hstatus
    cases hstatus
  · intro hunique
    obtain ⟨hstatus, hdefinition, hsource⟩ := hresolved.unique hunique
    obtain ⟨chunk, hchunk, hid, hchunkFile, hcovers⟩ := hbacked.source _ _ hsource
    obtain ⟨file, hlisted, hfile, hidentified, hpath, hsnapshot⟩ := hresolved.file
    have hsame : chunk.file = file.id := some.inj (hchunkFile.symm.trans hfile)
    have htext := h.report_ok.chunks.text chunk hchunk
    rw [hsame, ← hidentified, hpath, hsnapshot] at htext
    refine ⟨input, hplanned.at_input, result, mem_of_getElem? hresult, file,
      h.report_ok.listed target htarget file hlisted, chunk, hchunk, describe fact false,
      htargetEq.trans hresolved.target, hstatusEq.trans hstatus, hdefinitionEq.trans hdefinition,
      hplanned.name.symm, hplanned.declaration_span.symm, hplanned.source_span,
      hfileEq.trans hfile, hpath, hsnapshot, hid, hsame, hcovers, htext⟩

end

def DeliversPlan (context : QueryContext) (options : DefinitionPlanQueryOptions)
    (captured : CapturedPlan) (contents : SourceRevision → PathBuf → String) : Prop :=
  ∃ report source,
    includeSource context options (queryReport context options captured) = .ok report ∧
      report.source = some source ∧
      Delivers captured.inputs contents (queryReport context options captured).selected source

/-- **The source of a plan is delivered exactly if every planned name is unique in its file**,
for every plan, and for output budgets with room for all planned spans. -/
theorem deliversPlan_iff (context : QueryContext) (options : DefinitionPlanQueryOptions)
    (captured : CapturedPlan) (contents : SourceRevision → PathBuf → String)
    (hread : ReadsAgain captured.inputs contents context.sourceHash context.load)
    (hlarge : LargeEnough context options (queryReport context options captured)) :
    DeliversPlan context options captured contents ↔
      ∀ item ∈ (queryReport context options captured).selected,
        UniqueName captured.inputs item := by
  obtain ⟨source, files, resolved, hrun, hincluded⟩ := includeSource_ok hread
    (queryReport_files context options captured) (queryReport_planned context options captured)
    hlarge
  constructor
  · rintro ⟨report, other, hreport, hsource, hdelivers⟩ item hitem
    cases hrun.symm.trans hreport
    cases hsource
    obtain ⟨index, hindex⟩ := mem_iff_getElem?.mp hitem
    exact (hincluded.deliversAt_iff hindex).mp (hdelivers.delivered index item hindex)
  · intro hunique
    refine ⟨_, source, hrun, rfl, hincluded.targets, fun index item hindex => ?_,
      fun chunk hchunk byte => hincluded.nothing_else hchunk⟩
    exact (hincluded.deliversAt_iff hindex).mpr (hunique item (mem_of_getElem? hindex))

instance (inputs : List DefinitionPlanInput) (item : PlannedDefinition) :
    Decidable (UniqueName inputs item) :=
  inferInstanceAs (Decidable (∀ input ∈ inputs[item.file - 1]?, _))

/-! ### Two functions with a nested one of the same name -/

namespace Nested

def path : PathBuf := ⟨["nested.rs"]⟩

def text : String :=
  "fn one() { fn nested() {} nested(); }\nfn two() { fn nested() {} nested(); }\n"

/-- The SHA-256 of the text. -/
def hash : String := "72d3662a28e33017f2ee75192937fd17d678a1e4e18fc41dbf142b963c7256c0"

def fact (name : String) (start stop line : ℕ) : DefinitionFact where
  symbol := ⟨name, "function", "fn " ++ name ++ "()", line, false, []⟩
  declarationSpan := ⟨start, stop, line, line⟩
  sourceSpan := some ⟨start, stop, line, line⟩

def definitions : DefinitionFacts where
  status := .available
  definitions :=
    [fact "one" 0 37 1, fact "nested" 11 25 1, fact "two" 38 75 2, fact "nested" 49 63 2]

def input : DefinitionPlanInput where
  path := path
  snapshot := .worktree
  definitions := definitions
  planning := ⟨hash, "o200k_base", [⟨0, 12, [], []⟩, ⟨1, 5, [], []⟩, ⟨2, 12, [], []⟩,
    ⟨3, 5, [], []⟩], 0⟩

/-- The file is planned from one seed. -/
def captured (selector : DefinitionSelector) : CapturedPlan where
  inputs := [input]
  seeds := [⟨path, .worktree, selector⟩]
  failures := []
  unavailableFiles := 0
  incomplete := false

def target (selector : SourceSelector) : SourceQueryTarget := ⟨path, selector, none, .worktree⟩

def options (selector : SourceSelector) : DefinitionPlanQueryOptions where
  targets := [target selector]
  tokenBudget := 4000
  contextBudget := 2000
  byteBudget := 1000000
  maxFiles := 8
  maxDefinitions := 32
  includeSource := true

/-- Every request is answered with the file, and every report fits. -/
def context : QueryContext where
  root := some "/work"
  encoding := "o200k_base"
  load requests := .ok (requests.map fun request =>
    (request.1, ⟨[(path, ⟨text, "Rust", definitions, some 2⟩)], []⟩))
  sourceHash _ := hash
  fits _ := true

def contents : SourceRevision → PathBuf → String := fun _ _ => text

lemma readsAgain (selector : DefinitionSelector) :
    ReadsAgain (captured selector).inputs contents context.sourceHash context.load := by
  refine ⟨fun other hother => ?_, fun other hother planning hplanning fact hfact span hspan => ?_,
    fun requests hrequests => ⟨_, rfl, ?_⟩⟩
  · rw [mem_singleton.mp hother]
    rfl
  · obtain rfl := mem_singleton.mp hother
    have hslices : ∀ planning ∈ input.planning.definitions,
        ∀ fact ∈ input.definitions.definitions[planning.definition]?, ∀ span ∈ fact.sourceSpan,
          (getBytes text span.startByte span.endByte).isSome := by
      decide +kernel
    exact hslices planning hplanning fact hfact span hspan
  · refine forall₂_map_right_iff.mpr (forall₂_same.mpr fun request hrequest => ?_)
    refine ⟨rfl, fun other hother => ?_⟩
    obtain ⟨known, hknown, _, rfl⟩ := hrequests request hrequest other hother
    obtain rfl := mem_singleton.mp hknown
    refine ⟨rfl, ⟨text, "Rust", definitions, some 2⟩, rfl, rfl, fun again hagain _ _ => ?_⟩
    rw [mem_singleton.mp hagain]
    rfl

lemma largeEnough (selector : SourceSelector) (planned : DefinitionPlanReport)
    (h : ∀ item ∈ planned.selected, item.sourceSpan.endByte - item.sourceSpan.startByte ≤ 1000000) :
    LargeEnough context (options selector) planned :=
  ⟨h, rfl, fun _ _ _ => rfl⟩

end Nested

open Nested

/-- The plan for `one` is delivered. -/
theorem deliversPlan_nested_one :
    DeliversPlan Nested.context (Nested.options (.symbol "one")) (Nested.captured (.symbol "one"))
      Nested.contents :=
  (deliversPlan_iff context (options (.symbol "one"))
    (captured (.symbol "one")) contents (readsAgain _)
    (largeEnough _ _ (by decide +kernel))).mpr (by decide +kernel)

/-- The function nested in `one` is planned by its line, with room for everything, and its source
is not delivered. -/
theorem not_deliversPlan_nested_line :
    ReadsAgain (Nested.captured (.line 1)).inputs Nested.contents Nested.context.sourceHash
        Nested.context.load ∧
      LargeEnough Nested.context (Nested.options (.line 1))
        (queryReport Nested.context (Nested.options (.line 1)) (Nested.captured (.line 1))) ∧
      ¬ DeliversPlan Nested.context (Nested.options (.line 1)) (Nested.captured (.line 1))
        Nested.contents := by
  have hread := readsAgain (.line 1)
  have hlarge : LargeEnough context (options (.line 1))
      (queryReport context (options (.line 1)) (captured (.line 1))) :=
    largeEnough _ _ (by decide +kernel)
  refine ⟨hread, hlarge, ?_⟩
  obtain ⟨source, files, resolved, hrun, hincluded⟩ := includeSource_ok hread
    (queryReport_files _ _ _) (queryReport_planned _ _ _) hlarge
  rintro ⟨report, other, hreport, hsource, hdelivers⟩
  cases hrun.symm.trans hreport
  cases hsource
  have hselected : (queryReport context (options (.line 1))
      (captured (.line 1))).selected = [⟨1, 1, "nested", "function", ⟨11, 25, 1, 1⟩,
        ⟨11, 25, 1, 1⟩, 5, "direct", ["explicit-line"], []⟩] := by
    decide +kernel
  have hat := (congrArg (fun selected : List PlannedDefinition => selected[0]?) hselected).trans rfl
  have hunique := (hincluded.deliversAt_iff hat).mp (hdelivers.delivered 0 _ hat)
  revert hunique
  decide +kernel

end Reposcout.Query
