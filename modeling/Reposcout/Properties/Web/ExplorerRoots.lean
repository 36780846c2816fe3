import Reposcout.Properties.Web.ExplorerScopes

/-!
# The entities of a view

The entities of a view are kept by their ids, and the id of an entity says what it is.  At the root
a file may lie below two of the directories that are shown: below a container that has files of its
own, and below a directory of this container.
-/

namespace Reposcout.Web

open List KeyedList String

variable {indexes : ModelIndexes}

/-! ## Entities by their ids -/

/-- An entity as a view makes it. -/
def Known (indexes : ModelIndexes) (entity : ExplorerEntity) : Prop :=
  (∃ scope external, scope ≠ "" ∧ entity = .scope (summarizeScope indexes scope external)) ∨
    ∃ path external, entity = .file (fileSummary path external)

variable {scope : String}

lemma known_scopeEntity (h : scope ≠ "") : Known indexes (scopeEntity indexes scope) :=
  Or.inl ⟨scope, false, h, rfl⟩

lemma known_fileEntity (path : String) : Known indexes (fileEntity path) :=
  Or.inr ⟨path, false, rfl⟩

lemma toList_scopeId (h : scope ≠ "") (external : Bool) :
    (scopeId scope external).toList =
      (if external then "external-scope:".toList else "scope:".toList) ++ scope.toList := by
  rw [scopeId, if_neg h]
  cases external with
  | true | false =>
    rw [toList_append, toList_append]
    rfl

lemma toList_fileId (path : String) (external : Bool) : (fileId path external).toList =
      (if external then "external-file:".toList else "file:".toList) ++ path.toList := by
  rw [fileId]
  cases external with
  | true | false =>
    rw [toList_append, toList_append]
    rfl

variable {entity : ExplorerEntity}

lemma Known.eq_of_id {entity' : ExplorerEntity} (h : Known indexes entity)
    (h' : Known indexes entity') (hid : entity.id = entity'.id) : entity = entity' := by
  have hlist := congrArg toList hid
  obtain ⟨scope, external, hne, rfl⟩ | ⟨path, external, rfl⟩ := h <;>
    obtain ⟨scope', external', hne', rfl⟩ | ⟨path', external', rfl⟩ := h'
  · have hids : (scopeId scope external).toList = (scopeId scope' external').toList := hlist
    rw [toList_scopeId hne, toList_scopeId hne'] at hids
    cases external <;> cases external'
    · rw [toList_injective (append_cancel_left hids)]
    · simp at hids
    · simp at hids
    · rw [toList_injective (append_cancel_left hids)]
  · have hids : (scopeId scope external).toList = (fileId path' external').toList := hlist
    rw [toList_scopeId hne, toList_fileId] at hids
    cases external <;> cases external' <;> simp at hids
  · have hids : (fileId path external).toList = (scopeId scope' external').toList := hlist
    rw [toList_scopeId hne', toList_fileId] at hids
    cases external <;> cases external' <;> simp at hids
  · have hids : (fileId path external).toList = (fileId path' external').toList := hlist
    rw [toList_fileId, toList_fileId] at hids
    cases external <;> cases external'
    · rw [toList_injective (append_cancel_left hids)]
    · simp at hids
    · simp at hids
    · rw [toList_injective (append_cancel_left hids)]

/-- Entities that are kept by their ids. -/
structure Filed (indexes : ModelIndexes) (entities : List (String × ExplorerEntity)) : Prop where
  nodup : (KeyedList.keys entities).Nodup
  keyed : ∀ entry ∈ entities, entry.2.id = entry.1
  known : ∀ entry ∈ entities, Known indexes entry.2

lemma filed_nil : Filed indexes [] :=
  ⟨nodup_nil, fun _ h => absurd h not_mem_nil, nofun⟩

variable {entities : List (String × ExplorerEntity)}

lemma Filed.mem_iff (h : Filed indexes entities) :
    entity ∈ entities.map Prod.snd ↔ get? entity.id entities = some entity := by
  rw [get?_eq_some_iff h.nodup, List.mem_map]
  constructor
  · rintro ⟨entry, hentry, rfl⟩
    rw [h.keyed entry hentry]
    exact hentry
  · exact fun hentry => ⟨_, hentry, rfl⟩

lemma Filed.known_of_mem (h : Filed indexes entities) (hmem : entity ∈ entities.map Prod.snd) :
    Known indexes entity := by
  obtain ⟨entry, hentry, rfl⟩ := List.mem_map.mp hmem
  exact h.known entry hentry

/-- Setting an entity adds it. -/
lemma Filed.setEntity {entities : List (String × ExplorerEntity)} (h : Filed indexes entities)
    {entity : ExplorerEntity} (hknown : Known indexes entity) :
    Filed indexes (setEntity entities entity) ∧
      ∀ other, other ∈ (Web.setEntity entities entity).map Prod.snd ↔
        other ∈ entities.map Prod.snd ∨ other = entity := by
  have hfiled : Filed indexes (Web.setEntity entities entity) := by
    refine ⟨nodup_keys_alter h.nodup, ?_, ?_⟩
    · exact forall_mem_alter (P := fun id entity => ExplorerEntity.id entity = id)
        h.keyed rfl fun _ _ => rfl
    · exact forall_mem_alter (P := fun _ entity => Known indexes entity) h.known hknown
        fun _ _ => hknown
  refine ⟨hfiled, fun other => ?_⟩
  rw [hfiled.mem_iff, Web.setEntity, get?_alter, h.mem_iff]
  split_ifs with hid
  · constructor
    · exact fun heq => .inr (Option.some.inj heq).symm
    · rintro (hmem | rfl)
      · rw [(h.known_of_mem (h.mem_iff.mpr hmem)).eq_of_id hknown hid]
      · rfl
  · refine (or_iff_left ?_).symm
    rintro rfl
    exact hid rfl

lemma Filed.foldl (h : Filed indexes entities) {added : List ExplorerEntity}
    (hknown : ∀ entity ∈ added, Known indexes entity) :
    Filed indexes (added.foldl Web.setEntity entities) ∧
      ∀ other, other ∈ (added.foldl Web.setEntity entities).map Prod.snd ↔
        other ∈ entities.map Prod.snd ∨ other ∈ added := by
  induction added generalizing entities with
  | nil => exact ⟨h, fun _ => (or_iff_left not_mem_nil).symm⟩
  | cons entity rest ih =>
    obtain ⟨hset, hmem⟩ := h.setEntity (hknown entity mem_cons_self)
    obtain ⟨hrest, hmem'⟩ :=
      ih hset fun other hother => hknown other (mem_cons_of_mem _ hother)
    refine ⟨hrest, fun other => ?_⟩
    rw [foldl_cons, hmem', hmem, mem_cons, or_assoc]

/-! ## The contents of a scope -/

lemma ne_empty_of_mem_children {child : String} (h : child ∈ immediateChildScopes indexes scope) :
    child ≠ "" := by
  obtain ⟨file, -, name, next, rest, hpath, rfl⟩ := mem_immediateChildScopes.mp h
  intro hempty
  have hnames := names_child hpath
  rw [hempty] at hnames
  exact append_ne_nil_of_right_ne_nil _ (cons_ne_nil name []) hnames.symm

lemma collapse_ne_empty (h : scope ≠ "") : collapseScope indexes scope ≠ "" := by
  intro hempty
  have hbelow := @names_prefix_collapseScope indexes scope
  rw [hempty] at hbelow
  refine h (names_injective ?_)
  exact prefix_nil.mp hbelow

lemma known_contents {scope : String} {entity : ExplorerEntity}
    (h : entity ∈ contents indexes scope) : Known indexes entity := by
  rcases mem_contents.mp h with ⟨child, hchild, rfl⟩ | ⟨file, -, rfl⟩
  · exact known_scopeEntity (ne_empty_of_mem_children hchild)
  · exact known_fileEntity file.path

lemma addScopeContents_eq (scope : String) (entities : List (String × ExplorerEntity)) :
    addScopeContents indexes scope entities false =
      (contents indexes scope).foldl setEntity entities := by
  rw [contents, foldl_append]
  rfl

lemma filed_members (scope : String) : Filed indexes (addScopeContents indexes scope [] false) ∧
      ∀ entity, entity ∈ (addScopeContents indexes scope [] false).map Prod.snd ↔
        entity ∈ contents indexes scope := by
  rw [addScopeContents_eq]
  obtain ⟨hfiled, hmem⟩ := filed_nil.foldl fun _ => @known_contents indexes scope _
  refine ⟨hfiled, fun entity => (hmem entity).trans (or_iff_right ?_)⟩
  exact not_mem_nil

/-! ## Roots -/

lemma names_singleton {name : String} (h : IsName name) : names name = [name] := by
  have hjoin := names_joinPath "" h
  exact hjoin

variable {first second : String}

lemma names_pair (h : IsName first) (h' : IsName second) :
    names (first ++ "/" ++ second) = [first, second] := by
  have hjoin := names_joinPath first h'
  rw [joinPath, if_neg h.1, names_singleton h] at hjoin
  exact hjoin

lemma names_parent (file : FileReport) {front : List String} {name : String}
    (hpath : splitPath file.path = front ++ [name]) : names (pathParent file.path) = front := by
  rw [file.named.names_pathParent, hpath, dropLast_concat]

variable {file : FileReport}

lemma rootOf_direct {name : String} (hpath : splitPath file.path = [name]) :
    rootOf file.path = none := by
  have hnames : names (pathParent file.path) = names "" :=
    @names_parent file [] name (by rw [hpath, nil_append])
  rw [rootOf, if_pos (names_injective hnames)]

lemma splitPath_parent (file : FileReport) {front : List String} {name : String}
    (hpath : splitPath file.path = front ++ [name]) (hne : front ≠ []) :
    pathParent file.path ≠ "" ∧ splitPath (pathParent file.path) = front := by
  have hnames := names_parent file hpath
  have hempty : pathParent file.path ≠ "" := by
    intro hempty
    rw [hempty] at hnames
    exact hne hnames.symm
  rw [names, if_neg hempty] at hnames
  exact ⟨hempty, hnames⟩

lemma rootOf_child {name : String}
    (hpath : splitPath file.path = [first, name]) : rootOf file.path = some first := by
  obtain ⟨hne, hparent⟩ := @splitPath_parent file [first] name hpath (cons_ne_nil _ _)
  rw [rootOf, if_neg hne, hparent]
  rfl

lemma rootOf_deep {name : String} {rest : List String}
    (hpath : splitPath file.path = first :: second :: name :: rest) :
    rootOf file.path =
      some (if first ∈ architectureContainers then first ++ "/" ++ second else first) := by
  have hlast : splitPath file.path = (first :: second :: (name :: rest).dropLast) ++
        [(name :: rest).getLast (cons_ne_nil _ _)] := by
    rw [hpath, cons_append, cons_append, dropLast_append_getLast]
  obtain ⟨hne, hparent⟩ := splitPath_parent file hlast (cons_ne_nil _ _)
  rw [rootOf, if_neg hne, hparent]

def DirectlyIn (file : FileReport) (directory : String) : Prop :=
  ∃ name, splitPath file.path = [directory, name]

variable {root : String}

lemma rootOf_eq_some_iff : rootOf file.path = some root ↔
      DirectlyIn file root ∨ ∃ first second name rest,
        splitPath file.path = first :: second :: name :: rest ∧
          root = if first ∈ architectureContainers then first ++ "/" ++ second else first := by
  constructor
  · intro hroot
    obtain ⟨first, tail, hpath⟩ := exists_cons_of_ne_nil (splitPath_ne_nil file.path)
    match tail, hpath with
    | [], hpath =>
      rw [rootOf_direct hpath] at hroot
      exact absurd hroot.symm (Option.some_ne_none root)
    | [name], hpath =>
      rw [rootOf_child hpath] at hroot
      exact .inl ⟨name, Option.some.inj hroot ▸ hpath⟩
    | second :: name :: rest, hpath =>
      rw [rootOf_deep hpath] at hroot
      exact .inr ⟨first, second, name, rest, hpath, (Option.some.inj hroot).symm⟩
  · rintro (⟨name, hpath⟩ | ⟨first, second, name, rest, hpath, rfl⟩)
    · exact rootOf_child hpath
    · exact rootOf_deep hpath

lemma not_isName_pair (first second : String) : ¬ IsName (first ++ "/" ++ second) := by
  intro h
  refine h.2 ?_
  rw [toList_append, toList_append]
  exact mem_append_left _ (mem_append_right _ (by decide))

lemma inside_name_iff (hroot : IsName root) :
    Inside file.path root ↔ rootOf file.path = some root ∨ root ∈ architectureContainers ∧
        ∃ second name rest, splitPath file.path = root :: second :: name :: rest := by
  rw [inside_iff file.named, names_singleton hroot]
  constructor
  · rintro ⟨name, rest, hpath⟩
    cases rest with
    | nil => exact .inl (rootOf_child hpath)
    | cons next rest =>
      by_cases hcontainer : root ∈ architectureContainers
      · exact .inr ⟨hcontainer, name, next, rest, hpath⟩
      · rw [rootOf_deep hpath, if_neg hcontainer]
        exact .inl rfl
  · rintro (hfound | ⟨-, name, next, rest, hpath⟩)
    · rcases rootOf_eq_some_iff.mp hfound with
        ⟨name, hpath⟩ | ⟨first, second, name, rest, hpath, heq⟩
      · exact ⟨name, [], hpath⟩
      · split_ifs at heq
        · exact absurd (heq ▸ hroot) (not_isName_pair first second)
        · exact ⟨second, name :: rest, heq ▸ hpath⟩
    · exact ⟨name, next :: rest, hpath⟩

/-- The files below a root that is a directory of a container. -/
lemma inside_pair_iff (hfirst : IsName first) (hsecond : IsName second)
    (hcontainer : first ∈ architectureContainers) :
    Inside file.path (first ++ "/" ++ second) ↔
      rootOf file.path = some (first ++ "/" ++ second) := by
  rw [inside_iff file.named, names_pair hfirst hsecond]
  constructor
  · rintro ⟨name, rest, hpath⟩
    rw [rootOf_deep hpath, if_pos hcontainer]
  · intro hfound
    rcases rootOf_eq_some_iff.mp hfound with ⟨name, hpath⟩ |
      ⟨first', second', name, rest, hpath, heq⟩
    · exact absurd (file.named.isName (hpath ▸ mem_cons_self)) (not_isName_pair first second)
    · have hfirst' : IsName first' := file.named.isName (hpath ▸ mem_cons_self)
      have hsecond' : IsName second' :=
        file.named.isName (hpath ▸ mem_cons_of_mem _ mem_cons_self)
      split_ifs at heq
      · have hnames := congrArg names heq
        rw [names_pair hfirst hsecond, names_pair hfirst' hsecond'] at hnames
        exact ⟨name, rest, hnames ▸ hpath⟩
      · exact absurd (heq ▸ hfirst') (not_isName_pair first second)

lemma inside_root_iff {other : FileReport} (hroot : rootOf other.path = some root) :
    Inside file.path root ↔ rootOf file.path = some root ∨
      root ∈ architectureContainers ∧ DirectlyIn other root ∧
        ∃ second name rest, splitPath file.path = root :: second :: name :: rest := by
  rcases rootOf_eq_some_iff.mp hroot with hdirect | ⟨first, second, name, rest, hother, rfl⟩
  · obtain ⟨name, hother⟩ := id hdirect
    rw [inside_name_iff (other.named.isName (hother ▸ mem_cons_self)), and_iff_right hdirect]
  · have hfirst : IsName first := other.named.isName (hother ▸ mem_cons_self)
    have hdirect : ∀ directory, ¬ (directory ∈ architectureContainers ∧
        DirectlyIn other directory ∧ ∃ second name rest,
          splitPath file.path = directory :: second :: name :: rest) := by
      rintro directory ⟨-, ⟨name', hother'⟩, -⟩
      rw [hother] at hother'
      exact cons_ne_nil _ _ (cons.inj (cons.inj hother').2).2
    rw [or_iff_left (hdirect _)]
    split_ifs with hcontainer
    · have hsecond : IsName second :=
        other.named.isName (hother ▸ mem_cons_of_mem _ mem_cons_self)
      exact inside_pair_iff hfirst hsecond hcontainer
    · rw [inside_name_iff hfirst, or_iff_left fun h => hcontainer h.1]

end Reposcout.Web
