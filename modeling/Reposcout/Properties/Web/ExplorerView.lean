import Reposcout.Properties.Web.ExplorerCoverage

/-!
# Views partition their scope

Every edge that meets the scope is counted once, between the entities that its ends are in.  Every
file of the scope is covered once, if the scope is a directory and, at the root, the files are
apart.
-/

namespace Reposcout.Web

open List KeyedList ExplorerConnection

open scoped List

variable {indexes : ModelIndexes}

lemma bind_eq_ok {ε α β : Type} {x : Except ε α} {f : α → Except ε β} {b : β}
    (h : x >>= f = .ok b) : ∃ a, x = .ok a ∧ f a = .ok b := by
  cases x with
  | error e => exact absurd (show Except.error e = Except.ok b from h) (by simp)
  | ok a => exact ⟨a, rfl, h⟩

/-! ## The ends of an edge -/

/-- An entity has a path: it is the file, or a directory with the path in it. -/
def Holds (entity : ExplorerEntity) (path : String) : Prop :=
  match entity with
  | .file summary => summary.path = path
  | .scope summary => pathInScope path summary.path = true

/-- The id of the entity that a path outside of the entities gets. -/
def boundaryId (currentScope path : String) : String :=
  if boundaryScopeForPath currentScope path = "" then fileId path true
  else scopeId (boundaryScopeForPath currentScope path) true

def entityId (mapped : List (String × String)) (currentScope path : String) : String :=
  (get? path mapped).getD (boundaryId currentScope path)

/-- Each of the entities stays, and none is added that is not external. -/
structure Extends (indexes : ModelIndexes) (entities entities' : List (String × ExplorerEntity)) :
    Prop where
  filed : Filed indexes entities'
  subset : ∀ entity ∈ entities.map Prod.snd, entity ∈ entities'.map Prod.snd
  external : ∀ entity ∈ entities'.map Prod.snd,
    entity ∈ entities.map Prod.snd ∨ entity.external = true

variable {entities : List (String × ExplorerEntity)}

lemma Extends.refl (h : Filed indexes entities) : Extends indexes entities entities :=
  ⟨h, fun _ hmem => hmem, fun _ hmem => .inl hmem⟩

lemma Extends.trans {first second third : List (String × ExplorerEntity)}
    (h : Extends indexes first second) (h' : Extends indexes second third) :
    Extends indexes first third :=
  ⟨h'.filed, fun entity hmem => h'.subset entity (h.subset entity hmem),
    fun entity hmem => (h'.external entity hmem).elim (h.external entity) Or.inr⟩

def Entered (entities : List (String × ExplorerEntity)) (id path : String) : Prop :=
  ∃ entity ∈ entities.map Prod.snd, entity.id = id ∧ Holds entity path

variable {entities' : List (String × ExplorerEntity)} {path : String}

lemma Entered.extends {id : String} (h : Entered entities id path)
    (hextends : Extends indexes entities entities') : Entered entities' id path := by
  obtain ⟨entity, hmem, hid, hholds⟩ := h
  exact ⟨entity, hextends.subset entity hmem, hid, hholds⟩

variable {entity : ExplorerEntity}

lemma extends_setEntity (h : Filed indexes entities) (hknown : Known indexes entity)
    (hexternal : entity.external = true) :
    Extends indexes entities (setEntity entities entity) := by
  obtain ⟨hfiled, hmem⟩ := h.setEntity hknown
  refine ⟨hfiled, fun other hother => (hmem other).mpr (.inl hother), fun other hother => ?_⟩
  refine ((hmem other).mp hother).imp id ?_
  rintro rfl
  exact hexternal

variable {currentScope : String}

lemma pathInScope_boundary (h : boundaryScopeForPath currentScope path ≠ "") :
    pathInScope path (boundaryScopeForPath currentScope path) = true := by
  rw [boundaryScopeForPath] at h ⊢
  dsimp only at h ⊢
  split_ifs at h ⊢ with hdirectory hshared
  · exact absurd rfl h
  · exact absurd rfl h
  · have hslash : ∀ part ∈ (splitPath path).dropLast, '/' ∉ part.toList := fun part hpart =>
      notMem_of_mem_splitPath (dropLast_subset _ hpart)
    have hne : (splitPath path).dropLast ≠ [] := by
      intro hnil
      rw [pathParent, hnil] at hdirectory
      exact hdirectory rfl
    have hparent : splitPath (pathParent path) = (splitPath path).dropLast :=
      splitPath_joinParts hne hslash
    rw [hparent] at h ⊢
    set count := min (splitPath path).dropLast.length
      (sharedLength (names currentScope) (splitPath path).dropLast + 1)
    have htake : (splitPath path).dropLast.take count ≠ [] := by
      intro hnil
      rw [hnil] at h
      exact h rfl
    rw [pathInScope_iff, names, if_neg h, splitPath_joinParts htake fun part hpart =>
      hslash part (mem_of_mem_take hpart)]
    exact (List.take_prefix _ _).trans (List.dropLast_prefix _)

lemma ensureBoundaryEntity_spec (h : Filed indexes entities) {id : String}
    (hok : ensureBoundaryEntity indexes entities currentScope path = .ok (id, entities')) :
    id = boundaryId currentScope path ∧ Extends indexes entities entities' ∧
      Entered entities' id path := by
  rw [ensureBoundaryEntity] at hok
  rw [boundaryId]
  dsimp only at hok
  split_ifs at hok ⊢ with hempty hmem
  · obtain ⟨file, hfile, hok⟩ := bind_eq_ok hok
    rw [summarizeFile] at hfile
    split_ifs at hfile
    cases hfile
    cases hok
    have hknown : Known indexes (.file (fileSummary path true)) := .inr ⟨path, true, rfl⟩
    exact ⟨rfl, extends_setEntity h hknown rfl, _, ((h.setEntity hknown).2 _).mpr (.inr rfl), rfl,
      rfl⟩
  · cases hok
    obtain ⟨entry, hentry, hkey⟩ := mem_map.mp hmem
    have hin : entry.2 ∈ entities.map Prod.snd := mem_map_of_mem hentry
    have hid : entry.2.id = scopeId (boundaryScopeForPath currentScope path) true :=
      (h.keyed entry hentry).trans hkey
    have hknown : Known indexes
        (.scope (summarizeScope indexes (boundaryScopeForPath currentScope path) true)) :=
      Or.inl ⟨_, true, hempty, rfl⟩
    refine ⟨rfl, .refl h, entry.2, hin, hid, ?_⟩
    rw [(h.known_of_mem hin).eq_of_id hknown hid]
    exact pathInScope_boundary hempty
  · cases hok
    have hknown : Known indexes
        (.scope (summarizeScope indexes (boundaryScopeForPath currentScope path) true)) :=
      Or.inl ⟨_, true, hempty, rfl⟩
    exact ⟨rfl, extends_setEntity h hknown rfl, _, ((h.setEntity hknown).2 _).mpr (.inr rfl), rfl,
      pathInScope_boundary hempty⟩

/-- The ids of the files of the graph are ids of entities. -/
def Mapped (mapped : List (String × String)) (entities : List (String × ExplorerEntity)) : Prop :=
  ∀ path id, get? path mapped = some id → Entered entities id path

variable {mapped : List (String × String)}

lemma endEntity_spec (h : Filed indexes entities) (hmapped : Mapped mapped entities) {id : String}
    (hok : endEntity indexes mapped entities currentScope path = .ok (id, entities')) :
    id = entityId mapped currentScope path ∧ Extends indexes entities entities' ∧
      Entered entities' id path := by
  rw [endEntity] at hok
  rw [entityId]
  cases hfound : get? path mapped with
  | some found =>
    rw [hfound] at hok
    obtain ⟨rfl, rfl⟩ := Prod.mk.inj (Except.ok.inj hok)
    exact ⟨rfl, .refl h, hmapped path found hfound⟩
  | none =>
    rw [hfound] at hok
    exact ensureBoundaryEntity_spec h hok

lemma entityForPath_eq_some {entities : List ExplorerEntity}
    (h : entityForPath path currentScope entities = some entity) :
    entity ∈ entities ∧ Holds entity path := by
  rw [entityForPath] at h
  split_ifs at h
  refine ⟨mem_of_find?_eq_some h, ?_⟩
  have hholds := find?_some h
  cases entity with
  | scope summary => exact hholds
  | file summary =>
    show summary.path = path
    exact of_decide_eq_true hholds

lemma mapped_mapGraphFiles (scopePath : String) (entities : List (String × ExplorerEntity)) :
    Mapped (mapGraphFiles indexes scopePath entities) entities := by
  refine foldlRecOn (motive := fun mapped => Mapped mapped entities) indexes.graph.files _
    (fun _ _ h => nomatch h) fun mapped hmapped file _ => ?_
  split
  next entity hentity =>
    intro path id hid
    rw [get?_alter] at hid
    split_ifs at hid with heq
    · cases hid
      obtain ⟨hmem, hholds⟩ := entityForPath_eq_some hentity
      exact ⟨entity, hmem, rfl, heq ▸ hholds⟩
    · exact hmapped path id hid
  · exact hmapped

/-- An edge between two entities, with the ids of both. -/
def between (mapped : List (String × String)) (scopePath : String) (edge : GraphEdge) : Bool :=
  meetsScope scopePath edge &&
    entityId mapped scopePath edge.source ≠ entityId mapped scopePath edge.target

variable {scopePath : String}

/-- What the loop over the edges makes of them. -/
lemma connectEdges_spec (h : Filed indexes entities) (hmapped : Mapped mapped entities)
    {edges : List GraphEdge} {connected : List (GraphEdge × String × String)}
    (hok : connectEdges indexes mapped scopePath entities edges = .ok (connected, entities')) :
    connected = (edges.filter (between mapped scopePath)).map (fun edge =>
        (edge, entityId mapped scopePath edge.source, entityId mapped scopePath edge.target)) ∧
      Extends indexes entities entities' ∧
      ∀ edge ∈ edges, meetsScope scopePath edge = true →
        Entered entities' (entityId mapped scopePath edge.source) edge.source ∧
        Entered entities' (entityId mapped scopePath edge.target) edge.target := by
  induction edges generalizing entities connected with
  | nil =>
    cases hok
    exact ⟨rfl, .refl h, nofun⟩
  | cons edge rest ih =>
    rw [connectEdges] at hok
    split_ifs at hok with hmeets
    · obtain ⟨⟨source, first⟩, hsource, hok⟩ := bind_eq_ok hok
      obtain ⟨⟨target, second⟩, htarget, hok⟩ := bind_eq_ok hok
      obtain ⟨⟨more, third⟩, hmore, hok⟩ := bind_eq_ok hok
      obtain ⟨rfl, hextends, hentered⟩ := endEntity_spec h hmapped hsource
      obtain ⟨rfl, hextends', hentered'⟩ := endEntity_spec hextends.filed
        (fun path id hid => (hmapped path id hid).extends hextends) htarget
      have hmapped' : Mapped mapped second := fun path id hid =>
        ((hmapped path id hid).extends hextends).extends hextends'
      cases hok
      obtain ⟨rfl, hextends'', hrest⟩ := ih hextends'.filed hmapped' hmore
      refine ⟨?_, (hextends.trans hextends').trans hextends'', fun other hother hmeets' => ?_⟩
      · rw [filter_cons, between, hmeets, Bool.true_and]
        split_ifs with heq hne hne
        · exact absurd heq (of_decide_eq_true hne)
        · rfl
        · rfl
        · exact absurd (decide_eq_true heq) hne
      · rcases mem_cons.mp hother with rfl | hother
        · exact ⟨(hentered.extends hextends').extends hextends'', hentered'.extends hextends''⟩
        · exact hrest other hother hmeets'
    · obtain ⟨rfl, hextends, hrest⟩ := ih h hmapped hok
      refine ⟨?_, hextends, fun other hother hmeets' => ?_⟩
      · rw [filter_cons, between, Bool.eq_false_of_not_eq_true hmeets, Bool.false_and,
          if_neg Bool.false_ne_true]
      · rcases mem_cons.mp hother with rfl | hother
        · exact absurd hmeets' hmeets
        · exact hrest other hother hmeets'

/-! ## Connections -/

lemma flatMap_groupEdge (grouped : List (String × String × String × List GraphEdge))
    (entry : GraphEdge × String × String) :
    (groupEdge grouped entry).flatMap (fun group => group.2.2.2) ~
      grouped.flatMap (fun group => group.2.2.2) ++ [entry.1] := by
  rw [groupEdge]
  induction grouped with
  | nil => exact Perm.refl _
  | cons group rest ih =>
    rw [alter]
    split_ifs
    · rw [flatMap_cons, flatMap_cons]
      show (group.2.2.2 ++ [entry.1]) ++ _ ~ (group.2.2.2 ++ _) ++ [entry.1]
      rw [append_assoc, append_assoc]
      exact perm_append_comm.append_left _
    · rw [flatMap_cons, flatMap_cons, append_assoc]
      exact ih.append_left _

lemma flatMap_foldl_groupEdge (edges : List (GraphEdge × String × String)) :
    (edges.foldl groupEdge []).flatMap (fun group => group.2.2.2) ~ edges.map Prod.fst := by
  induction edges using reverseRecOn with
  | nil => exact Perm.refl _
  | append_singleton edges entry ih =>
    rw [foldl_append, foldl_cons, foldl_nil, map_append, map_singleton]
    exact (flatMap_groupEdge _ entry).trans (ih.append_right _)

variable (locale : Collation)

lemma aggregateConnections_spec
    (edges : List (GraphEdge × String × String)) :
    (aggregateConnections locale edges).flatMap fileEdges ~ edges.map Prod.fst ∧
      ∀ connection ∈ aggregateConnections locale edges,
        connection.count = connection.fileEdges.length := by
  constructor
  · refine ((sortBy_perm _ _).flatMap_right _).trans
      (Perm.trans ?_ (flatMap_foldl_groupEdge edges))
    induction edges.foldl groupEdge [] with
    | nil => exact Perm.refl _
    | cons group rest ih =>
      exact (sortBy_perm _ group.2.2.2).append ih
  · intro connection hconnection
    rw [aggregateConnections, mem_sortBy, mem_map] at hconnection
    obtain ⟨group, -, rfl⟩ := hconnection
    exact (length_sortBy _ group.2.2.2).symm

/-- No edge is listed twice. -/
lemma nodup_structuralFileEdges (graph : DependencyGraph) :
    (structuralFileEdges locale graph).Nodup := by
  refine (sortBy_perm _ _).nodup_iff.mpr ?_
  set listed := graph.edgeList ++ graph.symbolEdges.filterMap
    (symbolFileEdge (indexBy GraphSymbol.id graph.symbols))
  have hkeys := nodup_keys_indexBy edgeKey listed
  have hkeyed : ∀ entry ∈ indexBy edgeKey listed, edgeKey entry.2 = entry.1 := by
    intro entry hentry
    exact (mem_of_get?_indexBy (get?_of_mem hkeys hentry)).1
  have hmap : ((indexBy edgeKey listed).map Prod.snd).map edgeKey =
      keys (indexBy edgeKey listed) := by
    rw [map_map, KeyedList.keys]
    exact map_congr_left hkeyed
  exact Nodup.of_map edgeKey (hmap ▸ hkeys)

/-! ## Views -/

/-- Every file in the scope is covered by one entity that is not external. -/
def CoveredOnce (indexes : ModelIndexes) (scopePath : String) (whole : WholeView) : Prop :=
  ∀ file ∈ indexes.reportFiles, pathInScope file.path scopePath = true →
    ∃! entity, (entity ∈ whole.entities ∧ entity.external = false) ∧ Covers entity file.path

structure CountedOnce (indexes : ModelIndexes) (scopePath : String) (whole : WholeView)
    (entityOf : String → String) : Prop where
  ends : ∀ edge ∈ indexes.structuralEdges, meetsScope scopePath edge = true →
    ∀ path ∈ [edge.source, edge.target],
      ∃ entity ∈ whole.entities, entity.id = entityOf path ∧ Holds entity path
  internal : ∀ edge ∈ indexes.structuralEdges, entityOf edge.source = entityOf edge.target →
    ∀ connection ∈ whole.connections, edge ∉ connection.fileEdges
  counted : ∀ edge ∈ indexes.structuralEdges, meetsScope scopePath edge = true →
    entityOf edge.source ≠ entityOf edge.target →
    ∃! connection, connection ∈ whole.connections ∧ edge ∈ connection.fileEdges
  once : (whole.connections.flatMap ExplorerConnection.fileEdges).Nodup
  sum : (whole.connections.map ExplorerConnection.count).sum =
    (indexes.structuralEdges.filter fun edge =>
      meetsScope scopePath edge && entityOf edge.source ≠ entityOf edge.target).length

def Partitions (indexes : ModelIndexes) (scopePath : String) (whole : WholeView) : Prop :=
  CoveredOnce indexes scopePath whole ∧ ∃ entityOf, CountedOnce indexes scopePath whole entityOf

lemma countedOnce_aggregate (hnodup : indexes.structuralEdges.Nodup) {whole : WholeView}
    (hconnections : whole.connections = aggregateConnections locale
      ((indexes.structuralEdges.filter (between mapped scopePath)).map fun edge =>
        (edge, entityId mapped scopePath edge.source, entityId mapped scopePath edge.target)))
    (hends : ∀ edge ∈ indexes.structuralEdges, meetsScope scopePath edge = true →
      ∀ path ∈ [edge.source, edge.target],
        ∃ entity ∈ whole.entities, entity.id = entityId mapped scopePath path ∧ Holds entity path) :
    CountedOnce indexes scopePath whole (entityId mapped scopePath) := by
  obtain ⟨hperm, hcount⟩ := aggregateConnections_spec locale
    ((indexes.structuralEdges.filter (between mapped scopePath)).map fun edge =>
      (edge, entityId mapped scopePath edge.source, entityId mapped scopePath edge.target))
  rw [← hconnections] at hperm hcount
  have hmap : ((indexes.structuralEdges.filter (between mapped scopePath)).map fun edge =>
      (edge, entityId mapped scopePath edge.source, entityId mapped scopePath edge.target)).map
        Prod.fst = indexes.structuralEdges.filter (between mapped scopePath) := by
    rw [map_map]
    exact map_id _
  rw [hmap] at hperm
  have hmem : ∀ edge, edge ∈ whole.connections.flatMap fileEdges ↔
      edge ∈ indexes.structuralEdges ∧ between mapped scopePath edge = true := by
    intro edge
    rw [hperm.mem_iff, mem_filter]
  have honce : (whole.connections.flatMap fileEdges).Nodup :=
    hperm.nodup_iff.mpr (hnodup.filter _)
  refine ⟨hends, fun edge hedge hsame connection hconnection hin => ?_,
    fun edge hedge hmeets hne => ?_, honce, ?_⟩
  · have hbetween := ((hmem edge).mp (mem_flatMap.mpr ⟨connection, hconnection, hin⟩)).2
    rw [between, Bool.and_eq_true, decide_eq_true_eq] at hbetween
    exact hbetween.2 hsame
  · have hbetween : between mapped scopePath edge = true := by
      rw [between, hmeets, Bool.true_and]
      exact decide_eq_true hne
    obtain ⟨connection, hconnection, hin⟩ := mem_flatMap.mp ((hmem edge).mpr ⟨hedge, hbetween⟩)
    refine ⟨connection, ⟨hconnection, hin⟩, fun other hother => ?_⟩
    by_contra hdiffer
    -- Two different connections have no edge in common.
    have hsymm : Std.Symm (Function.onFun List.Disjoint fileEdges) :=
      ⟨fun _ _ h => h.symm⟩
    exact (nodup_flatMap.mp honce).2.forall hother.1 hconnection hdiffer hother.2 hin
  · have hsum : (whole.connections.map count).sum =
        (whole.connections.flatMap fileEdges).length := by
      rw [length_flatMap]
      exact congrArg sum (map_congr_left hcount)
    rw [hsum, hperm.length_eq]
    rfl

lemma wholeView_spec {whole : WholeView}
    (hnodup : indexes.structuralEdges.Nodup) (h : wholeView locale indexes scopePath = .ok whole) :
    (∀ entity, entity ∈ whole.entities ∧ entity.external = false ↔
      entity ∈ (scopeEntities locale indexes scopePath).1.map Prod.snd) ∧
      ∃ entityOf, CountedOnce indexes scopePath whole entityOf := by
  obtain ⟨hfiled, hinner⟩ : Filed indexes (scopeEntities locale indexes scopePath).1 ∧
      ∀ entity ∈ (scopeEntities locale indexes scopePath).1.map Prod.snd,
        entity.external = false := by
    by_cases hscope : scopePath = ""
    · subst hscope
      obtain ⟨hfiled, hmem⟩ := root_entities locale indexes
      refine ⟨hfiled, fun entity hentity => ?_⟩
      rcases (hmem entity).mp hentity with ⟨root, -, hshown⟩ | ⟨file, -, rfl⟩
      · rw [shown] at hshown
        split_ifs at hshown
        · rw [mem_singleton.mp hshown]
          rfl
        · rcases mem_contents.mp hshown with ⟨child, -, rfl⟩ | ⟨file, -, rfl⟩
          · rfl
          · rfl
      · rfl
    · obtain ⟨hfiled, hmem⟩ := @scope_entities indexes locale scopePath hscope
      refine ⟨hfiled, fun entity hentity => ?_⟩
      rcases (hmem entity).mp hentity with ⟨child, -, rfl⟩ | ⟨file, -, rfl⟩
      · rfl
      · rfl
  obtain ⟨⟨connected, entities⟩, hconnect, hok⟩ := bind_eq_ok h
  obtain ⟨rfl, hextends, hends⟩ :=
    connectEdges_spec hfiled (mapped_mapGraphFiles scopePath _) hconnect
  cases hok
  refine ⟨fun entity => ?_, _, countedOnce_aggregate locale hnodup rfl ?_⟩
  · constructor
    · rintro ⟨hmem, hexternal⟩
      refine (hextends.external entity hmem).resolve_right fun houter => ?_
      rw [hexternal] at houter
      exact Bool.false_ne_true houter
    · exact fun hmem => ⟨hextends.subset entity hmem, hinner entity hmem⟩
  · intro edge hedge hmeets path hpath
    rcases mem_cons.mp hpath with rfl | hpath
    · exact (hends edge hedge hmeets).1
    · rw [mem_singleton.mp hpath]
      exact (hends edge hedge hmeets).2

/-- The scope is a directory, and at the root every file is apart. -/
def Partitionable (indexes : ModelIndexes) (scopePath : String) : Prop :=
  (∀ file ∈ indexes.reportFiles, file.path ≠ scopePath) ∧
    (scopePath = "" → ∀ file ∈ indexes.reportFiles, Apart indexes file)

/-- A view partitions its scope if and only if the scope is no file and, at the root, every file
below a directory of a container that has files of its own is all there is in this directory. -/
theorem partitions_iff (locale : Collation) (toLowerCase : String → String)
    (graph : DependencyGraph) (report : ScanReport) {scopePath : String} {whole : WholeView}
    (h : wholeView locale (modelIndexes locale toLowerCase graph report) scopePath = .ok whole) :
    Partitions (modelIndexes locale toLowerCase graph report) scopePath whole ↔
      Partitionable (modelIndexes locale toLowerCase graph report) scopePath := by
  obtain ⟨hentities, hcounted⟩ := wholeView_spec locale (nodup_structuralFileEdges locale graph) h
  rw [Partitions, and_iff_left hcounted, CoveredOnce, Partitionable]
  simp only [hentities]
  by_cases hscope : scopePath = ""
  · subst hscope
    constructor
    · intro hcovered
      refine ⟨fun file _ => file.named.ne_empty, fun _ file hfile => ?_⟩
      exact (root_covered_iff locale hfile).mp (hcovered file hfile rfl)
    · rintro ⟨-, hapart⟩ file hfile -
      exact (root_covered_iff locale hfile).mpr (hapart rfl file hfile)
  · rw [and_iff_left fun heq => absurd heq hscope]
    constructor
    · rintro hcovered file hfile rfl
      have hself : pathInScope file.path file.path = true := by
        rw [pathInScope_iff, file.named.names]
      exact ((scope_covered_iff locale hscope hfile).mp (hcovered file hfile hself)).2 rfl
    · intro hfiles file hfile hin
      exact (scope_covered_iff locale hscope hfile).mpr ⟨hin, hfiles file hfile⟩

/-! ## What is shown of a view -/

/-- The entities that fit are shown, those inside of the scope first, with the connections between
them and the groups of which some are shown. -/
structure Shows (whole : WholeView) (view : ExplorerView) : Prop where
  bounded : view.entities.length ≤ max 1 (explorerNodeLimit - whole.groups.length)
  subperm : view.entities.Subperm whole.entities
  total : view.totalEntities = whole.entities.length
  complete : view.truncated = false → view.entities.Perm whole.entities
  inner_first : ∀ entity ∈ whole.entities, entity ∉ view.entities →
    ∀ shown ∈ view.entities, shown.external = true → entity.external = true
  connections : ∀ connection, connection ∈ view.connections ↔ connection ∈ whole.connections ∧
    ∀ id ∈ [connection.source, connection.target], id ∈ view.entities.map ExplorerEntity.id
  groups : ∀ group ∈ view.groups, group.members ≠ [] ∧
    ∀ member ∈ group.members, member.id ∈ view.entities.map ExplorerEntity.id

lemma pairwise_rankEntities (locale : Collation) (entities : List ExplorerEntity)
    (connections : List ExplorerConnection) : (rankEntities locale entities connections).Pairwise
      fun left right => left.external = true → right.external = true := by
  have htrans : IsTrans ExplorerEntity fun left right =>
      left.external = true → right.external = true := ⟨fun _ _ _ h h' => h' ∘ h⟩
  refine pairwise_sortBy_of htrans (fun left right h => ?_) (fun left right h => ?_) entities
  · intro hleft
    by_contra hright
    rw [hleft, Bool.eq_false_of_not_eq_true hright] at h
    exact h rfl
  · intro hright
    by_contra hleft
    rw [hright, Bool.eq_false_of_not_eq_true hleft] at h
    exact nomatch (show Ordering.lt = .gt from h)

/-- **A view** shows what fits its node limit, and says whether that is all. -/
theorem shows_buildView (locale : Collation) {view : ExplorerView}
    (h : buildView locale indexes scopePath = .ok view) :
    ∃ whole, wholeView locale indexes scopePath = .ok whole ∧ Shows whole view := by
  obtain ⟨whole, hwhole, hok⟩ := bind_eq_ok h
  cases hok
  refine ⟨whole, hwhole, ?_⟩
  have hperm : (rankEntities locale whole.entities whole.connections).Perm whole.entities :=
    sortBy_perm _ _
  have hsorted := pairwise_rankEntities locale whole.entities whole.connections
  generalize rankEntities locale whole.entities whole.connections = ranked at hperm hsorted
  generalize hroom : max 1 (explorerNodeLimit - whole.groups.length) = room
  have hids : ∀ id,
      id ∈ (sortBy (compareEntities locale) (ranked.take room)).map ExplorerEntity.id ↔
      id ∈ (ranked.take room).map ExplorerEntity.id := fun id => by simp only [mem_map, mem_sortBy]
  refine ⟨?_, ?_, hperm.length_eq, fun hall => ?_, fun entity hentity hleft => ?_,
    fun connection => ?_, fun group hgroup => ?_⟩
  · rw [length_sortBy, hroom]
    exact length_take_le _ _
  · exact (sortBy_perm _ _).subperm.trans ((take_sublist _ _).subperm.trans hperm.subperm)
  · have hfits : ranked.length ≤ room := by
      have := of_decide_eq_false hall
      omega
    rw [take_of_length_le hfits]
    exact (sortBy_perm _ _).trans hperm
  · intro shown hshown
    rw [mem_sortBy] at hleft hshown
    rw [← hperm.mem_iff, ← take_append_drop room ranked] at hentity
    rw [← take_append_drop room ranked] at hsorted
    exact (pairwise_append.mp hsorted).2.2 shown hshown entity
      ((mem_append.mp hentity).resolve_left hleft)
  · simp only [hids, mem_filter]
    simp
  · simp only [hids]
    obtain ⟨hgroup, hne⟩ := mem_filter.mp hgroup
    obtain ⟨original, -, rfl⟩ := mem_map.mp hgroup
    exact ⟨of_decide_eq_true hne, fun member hmember => of_decide_eq_true (mem_filter.mp hmember).2⟩

/-! ## A container with a file of its own -/

/-- The path of a short report. -/
lemma isPath_of_decide (h : (splitPath path).all (· ≠ "") = true) :
    IsPath path := fun part hpart => of_decide_eq_true (all_eq_true.mp h part hpart)

/-- A container with a file of its own, and a directory with two files. -/
def crateReport : ScanReport where
  files := [⟨"crates/README.md", isPath_of_decide (by decide +kernel)⟩,
    ⟨"crates/core/lib.rs", isPath_of_decide (by decide +kernel)⟩,
    ⟨"crates/core/run.rs", isPath_of_decide (by decide +kernel)⟩]

theorem partitions_iff_crateReport :
    ∃ whole, wholeView plainLocale (modelIndexes plainLocale id {} crateReport) "crates" =
        .ok whole ∧
      (Partitions (modelIndexes plainLocale id {} crateReport) "crates" whole ↔
        Partitionable (modelIndexes plainLocale id {} crateReport) "crates") := by
  have hok : (wholeView plainLocale (modelIndexes plainLocale id {} crateReport) "crates").isOk =
      true := by decide +kernel
  cases h : wholeView plainLocale (modelIndexes plainLocale id {} crateReport) "crates" with
  | error e =>
    rw [h] at hok
    cases hok
  | ok whole => exact ⟨whole, rfl, partitions_iff plainLocale id {} crateReport h⟩

theorem shows_buildView_crateReport :
    ∃ view, buildView plainLocale (modelIndexes plainLocale id {} crateReport) "crates" = .ok view ∧
      ∃ whole, wholeView plainLocale (modelIndexes plainLocale id {} crateReport) "crates" =
        .ok whole ∧ Shows whole view := by
  have hok : (buildView plainLocale (modelIndexes plainLocale id {} crateReport) "crates").isOk =
      true := by decide +kernel
  cases h : buildView plainLocale (modelIndexes plainLocale id {} crateReport) "crates" with
  | error e =>
    rw [h] at hok
    cases hok
  | ok view => exact ⟨view, rfl, shows_buildView plainLocale h⟩

/-- At the root a file of the directory is covered by the directory and by itself. -/
theorem crateReport_covered_twice :
    ¬ ∀ whole, wholeView plainLocale (modelIndexes plainLocale id {} crateReport) "" = .ok whole →
      Partitions (modelIndexes plainLocale id {} crateReport) "" whole := by
  intro hall
  have hok : ((wholeView plainLocale (modelIndexes plainLocale id {} crateReport) "").toOption.any
      fun whole => decide
        (scopeEntity (modelIndexes plainLocale id {} crateReport) "crates/core" ∈ whole.entities ∧
          fileEntity "crates/core/lib.rs" ∈ whole.entities)) = true := by decide +kernel
  cases h : wholeView plainLocale (modelIndexes plainLocale id {} crateReport) "" with
  | error e =>
    rw [h] at hok
    cases hok
  | ok whole =>
    rw [h] at hok
    obtain ⟨hscope, hfile⟩ := of_decide_eq_true hok
    have hreport : (⟨"crates/core/lib.rs", isPath_of_decide (by decide +kernel)⟩ : FileReport) ∈
        (modelIndexes plainLocale id {} crateReport).reportFiles :=
      mem_sortBy.mpr (mem_cons_of_mem _ mem_cons_self)
    obtain ⟨entity, -, honly⟩ := (hall whole h).1 _ hreport rfl
    have hinside : Inside "crates/core/lib.rs" "crates/core" := ⟨by decide +kernel, by decide⟩
    have hsame := (honly _ ⟨⟨hscope, rfl⟩, hinside⟩).trans (honly _ ⟨⟨hfile, rfl⟩, rfl⟩).symm
    exact ExplorerEntity.noConfusion hsame

end Reposcout.Web
