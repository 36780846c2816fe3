import Reposcout.Properties.Web.ExplorerRoots

/-!
# Which files a view covers once

Below the root every file of a scope is covered once.  At the root a file is covered twice if it is
below a directory of a container that has files of its own, unless it is all there is in this
directory.
-/

namespace Reposcout.Web

open List KeyedList

variable {indexes : ModelIndexes}

/-! ## Roots as they are shown -/

/-- A root that is shown as one entity. -/
def Single (indexes : ModelIndexes) (root : String) : Prop :=
  (addScopeContents indexes root [] false).length = 0 ∨
    ((addScopeContents indexes root [] false).length = 1 ∧ root ∉ indexes.anchorDirectories)

instance (root : String) : Decidable (Single indexes root) :=
  inferInstanceAs (Decidable (_ ∨ _))

def shown (indexes : ModelIndexes) (root : String) : List ExplorerEntity :=
  if Single indexes root then [scopeEntity indexes root] else contents indexes root

variable {root : String} {file : FileReport}

lemma shown_cover (hfile : file ∈ indexes.reportFiles) :
    (Inside file.path root → ∃! entity, entity ∈ shown indexes root ∧ Covers entity file.path) ∧
      ∀ entity ∈ shown indexes root, Covers entity file.path → Inside file.path root := by
  rw [shown]
  split_ifs
  · refine ⟨fun hinside => ⟨scopeEntity indexes root, ⟨mem_singleton_self _, hinside⟩, ?_⟩, ?_⟩
    · exact fun entity hentity => mem_singleton.mp hentity.1
    · intro entity hentity hcovers
      rw [mem_singleton.mp hentity] at hcovers
      exact hcovers
  · exact contents_cover hfile

variable (locale : Collation)

lemma addRoot_spec
    {state : List (String × ExplorerEntity) × List ExplorerGroup} (hstate : Filed indexes state.1)
    (hroot : root ≠ "") :
    Filed indexes (addRoot locale indexes state root).1 ∧
      (∀ entity, entity ∈ (addRoot locale indexes state root).1.map Prod.snd ↔
        entity ∈ state.1.map Prod.snd ∨ entity ∈ shown indexes root) ∧
      ((addRoot locale indexes state root).2 = [] ↔ state.2 = [] ∧ Single indexes root) := by
  by_cases hsingle : Single indexes root
  · have heq : addRoot locale indexes state root =
        (setEntity state.1 (scopeEntity indexes root), state.2) := if_pos hsingle
    rw [heq, shown, if_pos hsingle]
    obtain ⟨hfiled, hmem⟩ := hstate.setEntity (known_scopeEntity hroot)
    refine ⟨hfiled, fun entity => ?_, (and_iff_left hsingle).symm⟩
    rw [hmem, mem_singleton]
  · obtain ⟨group, heq⟩ : ∃ group, addRoot locale indexes state root =
        (((addScopeContents indexes root [] false).map Prod.snd).foldl setEntity state.1,
          state.2 ++ [group]) := ⟨_, if_neg hsingle⟩
    rw [heq, shown, if_neg hsingle]
    obtain ⟨hmembers, hcontents⟩ := @filed_members indexes root
    obtain ⟨hfiled, hmem⟩ := hstate.foldl fun entity hentity => hmembers.known_of_mem hentity
    refine ⟨hfiled, fun entity => ?_, iff_of_false ?_ fun h => hsingle h.2⟩
    · exact (hmem entity).trans (or_congr_right (hcontents entity))
    · exact append_ne_nil_of_right_ne_nil _ (cons_ne_nil _ _)

lemma foldl_addRoot_spec {roots : List String} (hroots : ∀ root ∈ roots, root ≠ "")
    {state : List (String × ExplorerEntity) × List ExplorerGroup} (hstate : Filed indexes state.1) :
    Filed indexes (roots.foldl (addRoot locale indexes) state).1 ∧
      (∀ entity, entity ∈ (roots.foldl (addRoot locale indexes) state).1.map Prod.snd ↔
        entity ∈ state.1.map Prod.snd ∨ ∃ root ∈ roots, entity ∈ shown indexes root) ∧
      ((roots.foldl (addRoot locale indexes) state).2 = [] ↔
        state.2 = [] ∧ ∀ root ∈ roots, Single indexes root) := by
  induction roots generalizing state with
  | nil =>
    refine ⟨hstate, fun entity => (or_iff_left ?_).symm, (and_iff_left ?_).symm⟩
    · rintro ⟨root, hroot, -⟩
      exact not_mem_nil hroot
    · exact nofun
  | cons root rest ih =>
    obtain ⟨hadd, hmem, hgroups⟩ := addRoot_spec locale hstate (hroots root mem_cons_self)
    obtain ⟨hfiled, hmem', hgroups'⟩ :=
      ih (fun other hother => hroots other (mem_cons_of_mem _ hother)) hadd
    refine ⟨hfiled, fun entity => ?_, ?_⟩
    · rw [foldl_cons, hmem', hmem, exists_mem_cons_iff, or_assoc]
    · rw [foldl_cons, hgroups', hgroups, forall_mem_cons, and_assoc]

lemma mem_rootChildScopes :
    root ∈ rootChildScopes indexes ↔ ∃ file ∈ indexes.reportFiles, ∃ initial,
      rootOf file.path = some initial ∧ root = collapseScope indexes initial := by
  rw [rootChildScopes, mem_sortBy, InsertionSet.mem_ofList, mem_map]
  simp only [mem_filterMap]
  constructor
  · rintro ⟨initial, ⟨file, hfile, hinitial⟩, rfl⟩
    exact ⟨file, hfile, initial, hinitial, rfl⟩
  · rintro ⟨file, hfile, initial, hinitial, rfl⟩
    exact ⟨initial, ⟨file, hfile, hinitial⟩, rfl⟩

lemma rootOf_ne_empty (hroot : rootOf file.path = some root) : root ≠ "" := by
  rintro rfl
  rcases rootOf_eq_some_iff.mp hroot with ⟨name, hpath⟩ | ⟨first, second, name, rest, hpath, heq⟩
  · exact file.named "" (hpath ▸ mem_cons_self) rfl
  · have hfirst : IsName first := file.named.isName (hpath ▸ mem_cons_self)
    have hsecond : IsName second :=
      file.named.isName (hpath ▸ mem_cons_of_mem _ mem_cons_self)
    have hnames := congrArg names heq
    split_ifs at hnames
    · rw [names_pair hfirst hsecond] at hnames
      exact cons_ne_nil _ _ hnames.symm
    · rw [names_singleton hfirst] at hnames
      exact cons_ne_nil _ _ hnames.symm

lemma ne_empty_of_mem_roots (h : root ∈ rootChildScopes indexes) :
    root ≠ "" := by
  obtain ⟨file, -, initial, hinitial, rfl⟩ := mem_rootChildScopes.mp h
  exact collapse_ne_empty (rootOf_ne_empty hinitial)

lemma root_entities (indexes : ModelIndexes) :
    Filed indexes (scopeEntities locale indexes "").1 ∧
      ∀ entity, entity ∈ (scopeEntities locale indexes "").1.map Prod.snd ↔
        (∃ root ∈ rootChildScopes indexes, entity ∈ shown indexes root) ∨
          ∃ file ∈ directFiles indexes "", entity = fileEntity file.path := by
  obtain ⟨hroots, hmem, hgroups⟩ := @foldl_addRoot_spec indexes locale
    (rootChildScopes indexes) (fun _ => ne_empty_of_mem_roots) ([], []) filed_nil
  have hdirect : ∀ entity ∈ (directFiles indexes "").map fun file => fileEntity file.path,
      Known indexes entity := by
    intro entity hentity
    obtain ⟨file, -, rfl⟩ := mem_map.mp hentity
    exact known_fileEntity file.path
  obtain ⟨hfiled, hmem'⟩ := hroots.foldl hdirect
  set roots := (rootChildScopes indexes).foldl (addRoot locale indexes) ([], []) with hrootsDef
  have hentitiesEq : (buildArchitectureGroups locale indexes "").1 =
      ((directFiles indexes "").map fun file => fileEntity file.path).foldl setEntity roots.1 := rfl
  have hbase : ∀ entity, entity ∈ (buildArchitectureGroups locale indexes "").1.map Prod.snd ↔
        (∃ root ∈ rootChildScopes indexes, entity ∈ shown indexes root) ∨
          ∃ file ∈ directFiles indexes "", entity = fileEntity file.path := by
    intro entity
    rw [hentitiesEq, hmem', hmem]
    show (entity ∈ ([] : List ExplorerEntity) ∨ _) ∨ _ ↔ _
    rw [or_iff_right not_mem_nil, mem_map]
    simp only [eq_comm]
  have hscope : scopeEntities locale indexes "" =
      (if (buildArchitectureGroups locale indexes "").2 = [] then
        addScopeContents indexes "" (buildArchitectureGroups locale indexes "").1 true
      else (buildArchitectureGroups locale indexes "").1,
        (buildArchitectureGroups locale indexes "").2) := rfl
  rw [hscope]
  split_ifs with hnone
  · -- Without groups every root is one entity, and so adding them again adds nothing.
    have hsingle := (hgroups.mp hnone).2
    have hvisible : addScopeContents indexes "" (buildArchitectureGroups locale indexes "").1 true =
        ((rootChildScopes indexes).map (scopeEntity indexes) ++
          (directFiles indexes "").map fun file => fileEntity file.path).foldl setEntity
          (buildArchitectureGroups locale indexes "").1 := by
      rw [foldl_append]
      rfl
    have hknown : ∀ entity ∈ (rootChildScopes indexes).map (scopeEntity indexes) ++
        (directFiles indexes "").map fun file => fileEntity file.path, Known indexes entity := by
      intro entity hentity
      rcases mem_append.mp hentity with hentity | hentity
      · obtain ⟨root, hroot, rfl⟩ := mem_map.mp hentity
        exact known_scopeEntity (ne_empty_of_mem_roots hroot)
      · exact hdirect entity hentity
    obtain ⟨hfiled', hmem''⟩ := (hentitiesEq ▸ hfiled).foldl hknown
    show Filed indexes (addScopeContents indexes "" _ true) ∧ ∀ entity,
      entity ∈ (addScopeContents indexes "" _ true).map Prod.snd ↔ _
    rw [hvisible]
    refine ⟨hfiled', fun entity => ?_⟩
    rw [hmem'', hbase, or_iff_left_iff_imp]
    intro hentity
    rcases mem_append.mp hentity with hentity | hentity
    · obtain ⟨root, hroot, rfl⟩ := mem_map.mp hentity
      refine .inl ⟨root, hroot, ?_⟩
      rw [shown, if_pos (hsingle root hroot)]
      exact mem_singleton_self _
    · obtain ⟨file, hfile, rfl⟩ := mem_map.mp hentity
      exact .inr ⟨file, hfile, rfl⟩
  · exact ⟨hentitiesEq ▸ hfiled, hbase⟩

/-! ## Scopes below the root -/

variable {scope : String}

lemma scope_entities (hscope : scope ≠ "") : Filed indexes (scopeEntities locale indexes scope).1 ∧
      ∀ entity, entity ∈ (scopeEntities locale indexes scope).1.map Prod.snd ↔
        (∃ child ∈ immediateChildScopes indexes scope,
          entity = scopeEntity indexes (collapseScope indexes child)) ∨
        ∃ file ∈ directFiles indexes scope, entity = fileEntity file.path := by
  have hgroups : buildArchitectureGroups locale indexes scope = ([], []) := if_pos hscope
  have hcontents : (scopeEntities locale indexes scope).1 = ((sortBy compareCodeUnits
        ((immediateChildScopes indexes scope).map (collapseScope indexes))).map
          (scopeEntity indexes) ++
        (directFiles indexes scope).map fun file => fileEntity file.path).foldl setEntity [] := by
    rw [scopeEntities, hgroups, foldl_append]
    show addScopeContents indexes scope [] true = _
    rw [addScopeContents, if_pos rfl, visibleChildScopes, if_neg hscope]
  have hmem : ∀ entity, entity ∈ (sortBy compareCodeUnits
      ((immediateChildScopes indexes scope).map (collapseScope indexes))).map
        (scopeEntity indexes) ++
      ((directFiles indexes scope).map fun file => fileEntity file.path) ↔
        (∃ child ∈ immediateChildScopes indexes scope,
          entity = scopeEntity indexes (collapseScope indexes child)) ∨
        ∃ file ∈ directFiles indexes scope, entity = fileEntity file.path := by
    intro entity
    rw [mem_append, mem_map, mem_map]
    simp [@eq_comm _ _ entity]
  rw [hcontents]
  obtain ⟨hfiled, hfold⟩ := (@filed_nil indexes).foldl fun entity hentity => by
    rcases (hmem entity).mp hentity with ⟨child, hchild, rfl⟩ | ⟨file, -, rfl⟩
    · exact known_scopeEntity (collapse_ne_empty (ne_empty_of_mem_children hchild))
    · exact known_fileEntity file.path
  refine ⟨hfiled, fun entity => ((hfold entity).trans (or_iff_right ?_)).trans (hmem entity)⟩
  exact not_mem_nil

lemma scope_covered_iff (hscope : scope ≠ "") (hfile : file ∈ indexes.reportFiles) :
    (∃! entity, entity ∈ (scopeEntities locale indexes scope).1.map Prod.snd ∧
      Covers entity file.path) ↔ Inside file.path scope := by
  obtain ⟨-, hmem⟩ := @scope_entities indexes locale scope hscope
  -- A collapsed child covers what the child covers.
  have hsame : ∀ child, Covers (scopeEntity indexes (collapseScope indexes child)) file.path ↔
      Covers (scopeEntity indexes child) file.path := fun child =>
    inside_collapseScope child hfile
  constructor
  · rintro ⟨entity, ⟨hentity, hcovers⟩, -⟩
    rcases (hmem entity).mp hentity with ⟨child, hchild, rfl⟩ | ⟨other, hother, rfl⟩
    · exact (contents_cover hfile).2 _ (mem_contents.mpr (.inl ⟨child, hchild, rfl⟩))
        ((hsame child).mp hcovers)
    · exact (contents_cover hfile).2 _ (mem_contents.mpr (.inr ⟨other, hother, rfl⟩)) hcovers
  · intro hinside
    obtain ⟨name, rest, hpath⟩ := (inside_iff file.named).mp hinside
    have hiff := fun entity => @covers_contents_iff indexes scope entity file hfile
    cases rest with
    | nil =>
      have hdirect := mem_directFiles.mpr ⟨hfile, name, hpath⟩
      refine ⟨fileEntity file.path, ⟨(hmem _).mpr (.inr ⟨file, hdirect, rfl⟩), rfl⟩, ?_⟩
      rintro entity ⟨hentity, hcovers⟩
      rcases (hmem entity).mp hentity with ⟨child, hchild, rfl⟩ | ⟨other, hother, rfl⟩
      · have hin := mem_contents.mpr (.inl ⟨child, hchild, rfl⟩)
        rcases (hiff _).mp ⟨hin, (hsame child).mp hcovers⟩ with ⟨_, -, heq⟩ |
          ⟨name', next', rest', hpath', -⟩
        · exact ExplorerEntity.noConfusion heq
        · rw [hpath, append_cancel_left_eq] at hpath'
          exact absurd (cons.inj hpath').2.symm (cons_ne_nil next' rest')
      · exact congrArg fileEntity hcovers
    | cons next rest =>
      have hchild : joinPath scope name ∈ immediateChildScopes indexes scope :=
        mem_immediateChildScopes.mpr ⟨file, hfile, name, next, rest, hpath, rfl⟩
      have hcovers := ((hiff _).mpr (.inr ⟨name, next, rest, hpath, rfl⟩)).2
      refine ⟨_, ⟨(hmem _).mpr (.inl ⟨_, hchild, rfl⟩), (hsame _).mpr hcovers⟩, ?_⟩
      rintro entity ⟨hentity, hcovers'⟩
      rcases (hmem entity).mp hentity with ⟨child, hchild', rfl⟩ | ⟨other, hother, rfl⟩
      · have hin := mem_contents.mpr (.inl ⟨child, hchild', rfl⟩)
        obtain ⟨first, -, hfirst⟩ := (contents_cover hfile).1 hinside
        have heq := (hfirst _ ⟨hin, (hsame child).mp hcovers'⟩).trans (hfirst _
          ⟨mem_contents.mpr (.inl ⟨_, hchild, rfl⟩), hcovers⟩).symm
        have hpathEq : child = joinPath scope name := congrArg ExplorerEntity.path heq
        rw [hpathEq]
      · obtain ⟨-, name', hpath'⟩ := mem_directFiles.mp hother
        have heq : other.path = file.path := hcovers'
        rw [heq, hpath, append_cancel_left_eq] at hpath'
        exact absurd (cons.inj hpath').2 (cons_ne_nil next rest)

/-! ## The root -/

structure Lone (indexes : ModelIndexes) (file : FileReport) (directory : String) : Prop where
  notPackage : directory ∉ indexes.anchorDirectories
  direct : pathParent file.path = directory
  alone : ∀ other ∈ indexes.reportFiles, Inside other.path directory → other.path = file.path

/-- A file is apart from the roots it is not shown in: if it is below a directory of a container
that has files of its own, it is all there is in this directory. -/
def Apart (indexes : ModelIndexes) (file : FileReport) : Prop :=
  ∀ container ∈ architectureContainers,
    (∃ other ∈ indexes.reportFiles, pathParent other.path = container) →
    ∀ directory name rest, splitPath file.path = container :: directory :: name :: rest →
      Lone indexes file (container ++ "/" ++ directory)

lemma isName_container {container : String} (h : container ∈ architectureContainers) :
    IsName container := by
  have hall : ∀ container ∈ architectureContainers, container ≠ "" ∧ '/' ∉ container.toList := by
    decide
  exact hall container h

variable {directory : String}

lemma directlyIn_iff (h : IsName directory) :
    DirectlyIn file directory ↔ pathParent file.path = directory := by
  constructor
  · rintro ⟨name, hpath⟩
    refine names_injective ?_
    rw [@names_parent file [directory] name hpath, names_singleton h]
  · intro hparent
    refine ⟨(splitPath file.path).getLast (splitPath_ne_nil _), ?_⟩
    have hnames := file.named.names_pathParent
    rw [hparent, names_singleton h] at hnames
    rw [← singleton_append, hnames, dropLast_append_getLast]

lemma collapseScope_of_direct (h : directFiles indexes scope ≠ []) :
    collapseScope indexes scope = scope := by
  rw [collapseScope]
  cases (indexes.reportFiles.map fun file => (splitPath file.path).length).sum with
  | zero => rfl
  | succ fuel => rw [collapseFrom, if_neg fun hnot => h hnot.2]

/-- Members that are all one entity are one member. -/
lemma Filed.length_eq_one {entities : List (String × ExplorerEntity)} (h : Filed indexes entities)
    {entity : ExplorerEntity} (hmem : ∀ other, other ∈ entities.map Prod.snd ↔ other = entity) :
    entities.length = 1 := by
  match entities, h, hmem with
  | [], _, hmem => exact absurd ((hmem entity).mpr rfl) not_mem_nil
  | [_], _, _ => rfl
  | first :: second :: rest, h, hmem =>
    have hfirst : first.2 = entity := (hmem _).mp mem_cons_self
    have hsecond : second.2 = entity :=
      (hmem _).mp (mem_cons_of_mem _ mem_cons_self)
    have hsame : first.1 = second.1 := by
      rw [← h.keyed first mem_cons_self,
        ← h.keyed second (mem_cons_of_mem _ mem_cons_self), hfirst, hsecond]
    refine absurd ?_ (nodup_cons.mp h.nodup).1
    rw [hsame]
    exact mem_cons_self

lemma single_iff_lone (hfile : file ∈ indexes.reportFiles) (hinside : Inside file.path directory) :
    collapseScope indexes directory = directory ∧ Single indexes directory ↔
      Lone indexes file directory := by
  obtain ⟨hfiled, hmembers⟩ := @filed_members indexes directory
  obtain ⟨entity, ⟨hentity, hcovers⟩, -⟩ := (contents_cover hfile).1 hinside
  constructor
  · rintro ⟨hcollapse, hsingle⟩
    have hne : (addScopeContents indexes directory [] false).length ≠ 0 := by
      intro hzero
      have hmem := (hmembers entity).mpr hentity
      rw [eq_nil_of_length_eq_zero hzero] at hmem
      exact not_mem_nil hmem
    obtain ⟨hone, hpackage⟩ := hsingle.resolve_left hne
    obtain ⟨entry, hentry⟩ := length_eq_one_iff.mp hone
    have hsame : ∀ other ∈ contents indexes directory, other = entity := by
      intro other hother
      have hother' := (hmembers other).mpr hother
      have hentity' := (hmembers entity).mpr hentity
      rw [hentry, map_singleton, mem_singleton] at hother' hentity'
      exact hother'.trans hentity'.symm
    -- The one entity is the file: a directory would have been collapsed.
    have hdirect : ∃ name, splitPath file.path = names directory ++ [name] ∧
        entity = fileEntity file.path := by
      refine ((covers_contents_iff hfile).mp ⟨hentity, hcovers⟩).resolve_right ?_
      rintro ⟨name, next, rest, hpath, rfl⟩
      have hchild : joinPath directory name ∈ immediateChildScopes indexes directory :=
        mem_immediateChildScopes.mpr ⟨file, hfile, name, next, rest, hpath, rfl⟩
      have hchildren : immediateChildScopes indexes directory = [joinPath directory name] := by
        refine perm_singleton.mp ((perm_ext_iff_of_nodup (InsertionSet.nodup_ofList _)
          (nodup_singleton _)).mpr fun child => ?_)
        rw [mem_singleton]
        constructor
        · intro hother
          exact congrArg ExplorerEntity.path
            (hsame _ (mem_contents.mpr (.inl ⟨child, hother, rfl⟩)))
        · rintro rfl
          exact hchild
      have hnone : directFiles indexes directory = [] := by
        refine eq_nil_iff_forall_not_mem.mpr fun other hother => ?_
        exact ExplorerEntity.noConfusion
          (hsame _ (mem_contents.mpr (.inr ⟨other, hother, rfl⟩)))
      have hstops := @collapseScope_stops indexes directory
      rw [hcollapse] at hstops
      rcases hstops with h | h | h
      · exact hpackage h
      · exact h hnone
      · exact h _ hchildren
    obtain ⟨name, hpath, rfl⟩ := hdirect
    refine ⟨hpackage, names_injective (names_parent file hpath), fun other hother hin => ?_⟩
    obtain ⟨found, ⟨hfound, hcovers'⟩, -⟩ := (contents_cover hother).1 hin
    rw [hsame found hfound] at hcovers'
    exact hcovers'.symm
  · intro hlone
    have hmem : file ∈ directFiles indexes directory :=
      mem_filter.mpr ⟨hfile, decide_eq_true hlone.direct⟩
    refine ⟨collapseScope_of_direct (ne_nil_of_mem hmem), .inr ⟨?_, hlone.notPackage⟩⟩
    refine @Filed.length_eq_one indexes _ hfiled (fileEntity file.path) fun other => ?_
    rw [hmembers, mem_contents]
    constructor
    · rintro (⟨child, hchild, rfl⟩ | ⟨other, hother, rfl⟩)
      · obtain ⟨other, hother, name, next, rest, hpath, rfl⟩ := mem_immediateChildScopes.mp hchild
        have heq := hlone.alone other hother ((inside_iff other.named).mpr ⟨_, _, hpath⟩)
        obtain ⟨-, name', hpath'⟩ := mem_directFiles.mp hmem
        rw [← heq, hpath, append_cancel_left_eq] at hpath'
        exact absurd (cons.inj hpath').2 (cons_ne_nil next rest)
      · obtain ⟨hother', name, hpath⟩ := mem_directFiles.mp hother
        rw [hlone.alone other hother' ((inside_iff other.named).mpr ⟨_, _, hpath⟩)]
    · rintro rfl
      exact .inr ⟨file, hmem, rfl⟩

lemma mem_shown_scope (h : scopeEntity indexes directory ∈ shown indexes root)
    (hbelow : names directory <+: names root) :
    directory = root ∧ Single indexes root := by
  rw [shown] at h
  split_ifs at h with hsingle
  · exact ⟨congrArg ExplorerEntity.path (mem_singleton.mp h), hsingle⟩
  · rcases mem_contents.mp h with ⟨child, hchild, heq⟩ | ⟨_, _, heq⟩
    · obtain ⟨file, -, name, next, rest, hpath, rfl⟩ := mem_immediateChildScopes.mp hchild
      have hpathEq : directory = joinPath root name := congrArg ExplorerEntity.path heq
      have hlength := hbelow.length_le
      rw [hpathEq, names_child hpath, length_append, length_singleton] at hlength
      omega
    · exact ExplorerEntity.noConfusion heq

lemma shown_container {container name : String} {rest : List String}
    {file other : FileReport} (hcontainer : container ∈ architectureContainers)
    (hfile : file ∈ indexes.reportFiles)
    (hpath : splitPath file.path = container :: directory :: name :: rest)
    (hother : other ∈ indexes.reportFiles) (hdirect : DirectlyIn other container) :
    collapseScope indexes container = container ∧
      scopeEntity indexes (container ++ "/" ++ directory) ∈ shown indexes container ∧
      Covers (scopeEntity indexes (container ++ "/" ++ directory)) file.path := by
  have hname := isName_container hcontainer
  have hnames := names_singleton hname
  have hjoin : joinPath container directory = container ++ "/" ++ directory := if_neg hname.1
  have hpath' : splitPath file.path = names container ++ directory :: name :: rest := by
    rw [hnames, singleton_append]
    exact hpath
  obtain ⟨hmem, hcovers⟩ := (covers_contents_iff hfile).mpr
    (.inr ⟨directory, name, rest, hpath', rfl⟩)
  obtain ⟨name', hother'⟩ := hdirect
  have hin : other ∈ directFiles indexes container :=
    mem_directFiles.mpr ⟨hother, name', by rw [hnames]; exact hother'⟩
  have hcollapse := collapseScope_of_direct (ne_nil_of_mem hin)
  rw [← hjoin]
  refine ⟨hcollapse, ?_, hcovers⟩
  rw [shown, if_neg]
  · exact hmem
  · intro hsingle
    have hinside : Inside other.path container :=
      (inside_iff other.named).mpr ⟨name', [], by rw [hnames]; exact hother'⟩
    have hlone := (single_iff_lone hother hinside).mp ⟨hcollapse, hsingle⟩
    have heq := hlone.alone file hfile ((inside_iff file.named).mpr ⟨_, _, hpath'⟩)
    rw [← heq, hpath] at hother'
    exact cons_ne_nil _ _ (cons.inj (cons.inj hother').2).2

lemma root_covered_iff (hfile : file ∈ indexes.reportFiles) :
    (∃! entity, entity ∈ (scopeEntities locale indexes "").1.map Prod.snd ∧
      Covers entity file.path) ↔ Apart indexes file := by
  obtain ⟨-, hmem⟩ := root_entities locale indexes
  have hdirectIff : ∀ other : FileReport, other ∈ directFiles indexes "" →
      ∃ name, splitPath other.path = [name] := fun other hother =>
    (mem_directFiles.mp hother).2
  cases hroot : rootOf file.path with
  | none =>
    -- The file lies at the root, and is below no directory.
    obtain ⟨name, hpath⟩ : ∃ name, splitPath file.path = [name] := by
      obtain ⟨first, tail, hpath⟩ := exists_cons_of_ne_nil (splitPath_ne_nil file.path)
      match tail, hpath with
      | [], hpath => exact ⟨first, hpath⟩
      | [name], hpath => exact absurd (hroot.symm.trans (rootOf_child hpath)) (by simp)
      | second :: name :: rest, hpath =>
        exact absurd (hroot.symm.trans (rootOf_deep hpath)) (by simp)
    refine iff_of_true ⟨fileEntity file.path, ⟨(hmem _).mpr (.inr ⟨file, ?_, rfl⟩), rfl⟩, ?_⟩ ?_
    · exact mem_directFiles.mpr ⟨hfile, name, hpath⟩
    · rintro entity ⟨hentity, hcovers⟩
      rcases (hmem entity).mp hentity with ⟨root, hin, hshown⟩ | ⟨other, -, rfl⟩
      · obtain ⟨other, -, initial, hinitial, rfl⟩ := mem_rootChildScopes.mp hin
        have hinside := (inside_collapseScope initial hfile).mp
          ((shown_cover hfile).2 entity hshown hcovers)
        rcases (inside_root_iff hinitial).mp hinside with h | ⟨-, -, second, name', rest, h⟩
        · exact absurd (hroot.symm.trans h) (by simp)
        · rw [hpath] at h
          exact absurd (cons.inj h).2.symm (cons_ne_nil _ _)
      · exact congrArg fileEntity hcovers
    · intro container _ _ directory name' rest h
      rw [hpath] at h
      exact absurd (cons.inj h).2.symm (cons_ne_nil _ _)
  | some initial =>
    have hin : collapseScope indexes initial ∈ rootChildScopes indexes :=
      mem_rootChildScopes.mpr ⟨file, hfile, initial, hroot, rfl⟩
    have hinside : Inside file.path (collapseScope indexes initial) :=
      (inside_collapseScope initial hfile).mpr ((inside_root_iff hroot).mpr (.inl hroot))
    obtain ⟨own, ⟨hown, hcovers⟩, hunique⟩ := (shown_cover hfile).1 hinside
    have hnotDirect : ∀ other ∈ directFiles indexes "", other.path ≠ file.path := by
      intro other hother heq
      obtain ⟨name, hpath⟩ := hdirectIff other hother
      rw [heq] at hpath
      rw [rootOf_direct hpath] at hroot
      exact Option.some_ne_none initial hroot.symm
    constructor
    · rintro ⟨entity, -, hall⟩ container hcontainer ⟨other, hother, hparent⟩ directory name rest
        hpath
      have hdirect := (directlyIn_iff (isName_container hcontainer)).mpr hparent
      obtain ⟨hcollapse, hshown, hcovers'⟩ :=
        shown_container hcontainer hfile hpath hother hdirect
      have hcontainerIn : container ∈ rootChildScopes indexes := by
        refine mem_rootChildScopes.mpr ⟨other, hother, container, ?_, hcollapse.symm⟩
        exact rootOf_eq_some_iff.mpr (.inl hdirect)
      have hsame : own = scopeEntity indexes (container ++ "/" ++ directory) :=
        (hall own ⟨(hmem own).mpr (.inl ⟨_, hin, hown⟩), hcovers⟩).trans
          (hall _ ⟨(hmem _).mpr (.inl ⟨_, hcontainerIn, hshown⟩), hcovers'⟩).symm
      have hinitial : initial = container ++ "/" ++ directory := by
        rw [rootOf_deep hpath, if_pos hcontainer] at hroot
        exact (Option.some.inj hroot).symm
      obtain ⟨heq, hsingle⟩ := mem_shown_scope (hsame ▸ hown)
        (hinitial ▸ names_prefix_collapseScope initial)
      have hinsideDirectory : Inside file.path (container ++ "/" ++ directory) := hcovers'
      refine (single_iff_lone hfile hinsideDirectory).mp ?_
      subst hinitial
      rw [← heq] at hsingle
      exact ⟨heq.symm, hsingle⟩
    · intro hapart
      refine ⟨own, ⟨(hmem own).mpr (.inl ⟨_, hin, hown⟩), hcovers⟩, ?_⟩
      rintro entity ⟨hentity, hcovers'⟩
      rcases (hmem entity).mp hentity with ⟨root, hrootIn, hshown⟩ | ⟨other, hother, rfl⟩
      · obtain ⟨other, hother, initial', hinitial', rfl⟩ := mem_rootChildScopes.mp hrootIn
        have hinside' := (inside_collapseScope initial' hfile).mp
          ((shown_cover hfile).2 entity hshown hcovers')
        rcases (inside_root_iff hinitial').mp hinside' with h |
          ⟨hcontainer, hdirect, directory, name, rest, hpath⟩
        · rw [hroot] at h
          rw [← Option.some.inj h] at hshown
          exact hunique entity ⟨hshown, hcovers'⟩
        · -- Below a container with files of its own the file is alone in its directory.
          have hlone := hapart initial' hcontainer ⟨other, hother,
            (directlyIn_iff (isName_container hcontainer)).mp hdirect⟩ directory name rest hpath
          obtain ⟨hcollapse, hshown', hcovers''⟩ :=
            shown_container hcontainer hfile hpath hother hdirect
          have hinitial : initial = initial' ++ "/" ++ directory := by
            rw [rootOf_deep hpath, if_pos hcontainer] at hroot
            exact (Option.some.inj hroot).symm
          have hinsideDirectory : Inside file.path (initial' ++ "/" ++ directory) := hcovers''
          obtain ⟨hstays, hsingle⟩ := (single_iff_lone hfile hinsideDirectory).mpr hlone
          obtain ⟨first, -, hfirst⟩ :=
            (@shown_cover indexes (collapseScope indexes initial') file hfile).1
              ((inside_collapseScope initial' hfile).mpr hinside')
          rw [hcollapse] at hfirst hshown
          rw [hinitial, hstays, shown, if_pos hsingle, mem_singleton] at hown
          rw [hown, hfirst entity ⟨hshown, hcovers'⟩, hfirst _ ⟨hshown', hcovers''⟩]
      · exact absurd hcovers' (hnotDirect other hother)

end Reposcout.Web
