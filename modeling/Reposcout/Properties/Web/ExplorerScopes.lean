import Reposcout.Model.Text
import Reposcout.Web.ExplorerModel

/-!
# What the entities of a scope cover

The children of a scope and its direct files cover every file below it once, and collapsing a
child covers the same files.
-/

/-!
## Paths by their names

The functions on the texts of paths, in terms of the names that the paths are made of.
-/

namespace Reposcout.Web

open List

/-- A text that may stand between two separators. -/
def IsName (name : String) : Prop := name ≠ "" ∧ '/' ∉ name.toList

/-! ## Splitting and joining -/

lemma joinParts_toList (parts : List String) :
    (joinParts parts).toList = ['/'].intercalate (parts.map String.toList) := by
  rw [joinParts, String.toList_intercalate]
  rfl

lemma joinParts_splitPath (path : String) : joinParts (splitPath path) = path := by
  refine String.toList_injective ?_
  rw [joinParts_toList, splitPath, map_map]
  have hid : String.toList ∘ String.ofList = id := funext fun _ => String.toList_ofList
  rw [hid, map_id, intercalate_splitOn]

lemma splitPath_joinParts {parts : List String} (hne : parts ≠ [])
    (hparts : ∀ part ∈ parts, '/' ∉ part.toList) : splitPath (joinParts parts) = parts := by
  have hslash : ∀ l ∈ parts.map String.toList, '/' ∉ l := by
    intro l hl
    obtain ⟨part, hpart, rfl⟩ := mem_map.mp hl
    exact hparts part hpart
  rw [splitPath, joinParts_toList, splitOn_intercalate '/' hslash (by simpa using hne),
    map_map]
  have hid : String.ofList ∘ String.toList = id := funext fun _ => String.ofList_toList
  rw [hid, map_id]

lemma splitPath_ne_nil (path : String) : splitPath path ≠ [] := by
  rw [splitPath, Ne, map_eq_nil_iff]
  exact splitOn_ne_nil _ _

variable {path : String}

lemma notMem_of_mem_splitPath {part : String} (h : part ∈ splitPath path) :
    '/' ∉ part.toList := by
  obtain ⟨l, hl, rfl⟩ := mem_map.mp h
  rw [String.toList_ofList]
  exact fun hslash => (mem_of_mem_splitOn hl hslash).2 rfl

lemma splitPath_append (front back : String) :
    splitPath (front ++ "/" ++ back) = splitPath front ++ splitPath back := by
  have htext : (front ++ "/" ++ back).toList = front.toList ++ '/' :: back.toList := by
    rw [String.toList_append, String.toList_append, append_assoc]
    rfl
  rw [splitPath, splitPath, splitPath, htext, ← map_append, splitOn_append_cons_self]

lemma joinParts_append {front back : List String} (hfront : front ≠ []) (hback : back ≠ []) :
    joinParts (front ++ back) = joinParts front ++ "/" ++ joinParts back := by
  refine String.toList_injective ?_
  rw [String.toList_append, String.toList_append, joinParts_toList, joinParts_toList,
    joinParts_toList, map_append]
  have hfront' : front.map String.toList ≠ [] := by simpa using hfront
  have hback' : back.map String.toList ≠ [] := by simpa using hback
  generalize front.map String.toList = parts at hfront'
  induction parts with
  | nil => exact absurd rfl hfront'
  | cons part rest ih =>
    obtain ⟨next, others, hnext⟩ := exists_cons_of_ne_nil hback'
    cases rest with
    | nil =>
      rw [hnext, singleton_append, intercalate_cons_cons, intercalate_singleton]
      rfl
    | cons second more =>
      rw [cons_append, cons_append, intercalate_cons_cons,
        intercalate_cons_cons, ← cons_append, ih (cons_ne_nil second more)]
      simp

/-! ## Names -/

lemma splitPath_empty : splitPath "" = [""] := by decide

lemma splitPath_injective {path' : String} (h : splitPath path = splitPath path') :
    path = path' := by
  rw [← joinParts_splitPath path, h, joinParts_splitPath]

lemma names_injective {path' : String} (h : names path = names path') : path = path' := by
  rw [names, names] at h
  split_ifs at h with hempty hempty' hempty'
  · exact hempty.trans hempty'.symm
  · exact absurd h.symm (splitPath_ne_nil path')
  · exact absurd h (splitPath_ne_nil path)
  · exact splitPath_injective h

lemma names_joinParts {parts : List String} (hparts : ∀ part ∈ parts, IsName part) :
    names (joinParts parts) = parts := by
  by_cases hne : parts = []
  · subst hne
    rfl
  · have hsplit := splitPath_joinParts hne fun part hpart => (hparts part hpart).2
    rw [names, if_neg, hsplit]
    intro hempty
    rw [hempty, splitPath_empty] at hsplit
    exact (hparts "" (hsplit ▸ mem_cons_self)).1 rfl

lemma IsPath.ne_empty (h : IsPath path) : path ≠ "" := by
  rintro rfl
  exact h "" (splitPath_empty ▸ mem_cons_self) rfl

lemma IsPath.names (h : IsPath path) : names path = splitPath path :=
  if_neg h.ne_empty

lemma IsPath.isName {part : String} (h : IsPath path) (hpart : part ∈ splitPath path) :
    IsName part :=
  ⟨h part hpart, notMem_of_mem_splitPath hpart⟩

lemma IsPath.names_pathParent (h : IsPath path) :
    Web.names (pathParent path) = (splitPath path).dropLast :=
  names_joinParts fun _ hpart => h.isName (dropLast_subset _ hpart)

lemma names_joinPath (parent : String) {child : String} (h : IsName child) :
    names (joinPath parent child) = names parent ++ [child] := by
  have hsplit : splitPath child = [child] := by
    have hjoin : joinParts [child] = child := by
      rw [joinParts, String.intercalate_singleton]
    rw [← hjoin, splitPath_joinParts (cons_ne_nil child [])]
    · rw [hjoin]
    · intro part hpart
      rw [mem_singleton.mp hpart]
      exact h.2
  rw [joinPath]
  split_ifs with hempty
  · rw [names, if_neg h.1, hsplit, names, if_pos hempty, nil_append]
  · have hne : parent ++ "/" ++ child ≠ "" := by
      intro heq
      have hnil := congrArg String.toList heq
      rw [String.toList_append, String.toList_append] at hnil
      exact append_ne_nil_of_left_ne_nil
        (append_ne_nil_of_right_ne_nil _ (by decide)) _ hnil
    rw [names, if_neg hne, splitPath_append, hsplit, names, if_neg hempty]

/-! ## Scopes -/

variable {scope : String}

lemma pathInScope_iff :
    pathInScope path scope = true ↔ names scope <+: splitPath path := by
  rw [pathInScope, Bool.or_eq_true, Bool.or_eq_true, decide_eq_true_eq, decide_eq_true_eq,
    isPrefixOf_iff_prefix, names]
  split_ifs with hempty
  · exact iff_of_true (.inl (.inl hempty)) nil_prefix
  · rw [or_iff_right hempty]
    constructor
    · rintro (rfl | ⟨rest, hrest⟩)
      · exact prefix_refl _
      · have hpath : path = scope ++ "/" ++ String.ofList rest := by
          refine String.toList_injective ?_
          rw [String.toList_append, String.toList_append, @String.toList_ofList rest, ← hrest]
          rfl
        rw [hpath, splitPath_append]
        exact prefix_append _ _
    · rintro ⟨rest, hrest⟩
      by_cases hnil : rest = []
      · rw [hnil, append_nil] at hrest
        exact .inl (splitPath_injective hrest.symm)
      · refine .inr ⟨(joinParts rest).toList, ?_⟩
        rw [← joinParts_splitPath path, ← hrest, joinParts_append (splitPath_ne_nil scope) hnil,
          joinParts_splitPath, String.toList_append, String.toList_append]
        rfl

lemma splitPath_relativeToScope {rest : List String}
    (hpath : splitPath path = names scope ++ rest) (hne : rest ≠ []) :
    splitPath (relativeToScope path scope) = rest := by
  rw [relativeToScope, names] at *
  split_ifs at hpath ⊢ with hempty
  · rw [hpath, nil_append]
  · have hrest : ∀ part ∈ rest, '/' ∉ part.toList := fun part hpart =>
      notMem_of_mem_splitPath (hpath ▸ mem_append_right _ hpart)
    have htext : path = scope ++ "/" ++ joinParts rest := by
      rw [← joinParts_splitPath path, hpath, joinParts_append (splitPath_ne_nil scope) hne,
        joinParts_splitPath]
    have hdrop : path.toList.drop (scope.toList.length + 1) = (joinParts rest).toList := by
      rw [htext, String.toList_append, String.toList_append, append_assoc, ← drop_drop, drop_left]
      rfl
    rw [hdrop, String.ofList_toList, splitPath_joinParts hne hrest]

/-- Nothing is left of a path that is the scope itself. -/
lemma splitPath_relativeToScope_self (hpath : splitPath path = names scope) :
    splitPath (relativeToScope path scope) = [""] := by
  rw [relativeToScope, names] at *
  split_ifs at hpath ⊢ with hempty
  · exact absurd hpath (splitPath_ne_nil path)
  · obtain rfl := splitPath_injective hpath
    rw [drop_eq_nil_of_le (Nat.le_succ _)]
    exact splitPath_empty

open Option

/-! ## Files below a scope -/

/-- The file is in the scope, and not the scope itself. -/
def Inside (path scope : String) : Prop := pathInScope path scope = true ∧ path ≠ scope

variable {scope : String}

lemma inside_iff {path : String} (h : IsPath path) :
    Inside path scope ↔ ∃ name rest, splitPath path = names scope ++ name :: rest := by
  rw [Inside, pathInScope_iff]
  constructor
  · rintro ⟨⟨rest, hrest⟩, hne⟩
    cases rest with
    | nil =>
      rw [append_nil, ← h.names] at hrest
      exact absurd (names_injective hrest).symm hne
    | cons name rest => exact ⟨name, rest, hrest.symm⟩
  · rintro ⟨name, rest, hpath⟩
    refine ⟨⟨name :: rest, hpath.symm⟩, ?_⟩
    rintro rfl
    rw [h.names] at hpath
    exact cons_ne_nil name rest (self_eq_append_right.mp hpath)

variable {indexes : ModelIndexes}

lemma mem_directFiles {file : FileReport} : file ∈ directFiles indexes scope ↔
      file ∈ indexes.reportFiles ∧ ∃ name, splitPath file.path = names scope ++ [name] := by
  rw [directFiles, mem_filter, decide_eq_true_eq]
  refine and_congr_right fun _ => ?_
  constructor
  · rintro rfl
    refine ⟨(splitPath file.path).getLast (splitPath_ne_nil _), ?_⟩
    rw [file.named.names_pathParent, dropLast_append_getLast]
  · rintro ⟨name, hpath⟩
    refine names_injective ?_
    rw [file.named.names_pathParent, hpath, dropLast_concat]

lemma mem_immediateChildScopes {child : String} :
    child ∈ immediateChildScopes indexes scope ↔ ∃ file ∈ indexes.reportFiles, ∃ name next rest,
        splitPath file.path = names scope ++ name :: next :: rest ∧
          child = joinPath scope name := by
  rw [immediateChildScopes, InsertionSet.mem_ofList, mem_filterMap]
  constructor
  · rintro ⟨file, hfile, hchild⟩
    rw [filesInScope, mem_filter, pathInScope_iff] at hfile
    obtain ⟨hfile, rest, hrest⟩ := hfile
    rw [childScope] at hchild
    cases rest with
    | nil =>
      rw [append_nil] at hrest
      rw [splitPath_relativeToScope_self hrest.symm] at hchild
      exact absurd hchild (some_ne_none child).symm
    | cons name rest =>
      rw [splitPath_relativeToScope hrest.symm (cons_ne_nil name rest)] at hchild
      cases rest with
      | nil => exact absurd hchild (some_ne_none child).symm
      | cons next rest =>
        exact ⟨file, hfile, name, next, rest, hrest.symm, (some.inj hchild).symm⟩
  · rintro ⟨file, hfile, name, next, rest, hpath, rfl⟩
    refine ⟨file, mem_filter.mpr ⟨hfile, pathInScope_iff.mpr ⟨_, hpath.symm⟩⟩, ?_⟩
    rw [childScope, splitPath_relativeToScope hpath (cons_ne_nil name (next :: rest))]

lemma names_child {name : String} {rest : List String} {file : FileReport}
    (hpath : splitPath file.path = names scope ++ name :: rest) :
    names (joinPath scope name) = names scope ++ [name] :=
  names_joinPath scope (file.named.isName (hpath ▸ mem_append_right _ mem_cons_self))

/-! ## Collapsed scopes -/

/-- A step of the loop keeps the files below the scope. -/
lemma inside_child_iff {child : String} (hdirect : directFiles indexes scope = [])
    (hchildren : immediateChildScopes indexes scope = [child]) {file : FileReport}
    (hfile : file ∈ indexes.reportFiles) : Inside file.path child ↔ Inside file.path scope := by
  have hchild : child ∈ immediateChildScopes indexes scope := hchildren ▸ mem_cons_self
  obtain ⟨other, -, name, next, rest, hother, rfl⟩ := mem_immediateChildScopes.mp hchild
  rw [inside_iff file.named, inside_iff file.named, names_child hother]
  constructor
  · rintro ⟨next', rest', hpath⟩
    rw [append_assoc, singleton_append] at hpath
    exact ⟨name, next' :: rest', hpath⟩
  · rintro ⟨name', rest', hpath⟩
    cases rest' with
    | nil =>
      have hmem := mem_directFiles.mpr ⟨hfile, name', hpath⟩
      rw [hdirect] at hmem
      cases hmem
    | cons next' rest' =>
      have hmem := mem_immediateChildScopes.mpr ⟨file, hfile, name', next', rest', hpath, rfl⟩
      rw [hchildren, mem_singleton] at hmem
      have heq := congrArg names hmem
      rw [names_child hpath, names_child hother, append_cancel_left_eq] at heq
      refine ⟨next', rest', ?_⟩
      rw [hpath, append_assoc, ← (cons.inj heq).1, singleton_append]

lemma collapseFrom_spec (fuel : ℕ) (scope : String) :
    names scope <+: names (collapseFrom indexes fuel scope) ∧ ∀ file ∈ indexes.reportFiles,
        (Inside file.path (collapseFrom indexes fuel scope) ↔ Inside file.path scope) := by
  induction fuel generalizing scope with
  | zero => exact ⟨prefix_refl _, fun _ _ => Iff.rfl⟩
  | succ fuel ih =>
    rw [collapseFrom]
    split
    next h =>
      split
      next child hchildren =>
        have hchild : child ∈ immediateChildScopes indexes scope :=
          hchildren ▸ mem_cons_self
        obtain ⟨other, -, name, next, rest, hother, heq⟩ := mem_immediateChildScopes.mp hchild
        have hnames : names scope <+: names child := by
          rw [heq, names_child hother]
          exact prefix_append _ _
        obtain ⟨hbelow, hsame⟩ := ih child
        exact ⟨hnames.trans hbelow, fun file hfile =>
          (hsame file hfile).trans (inside_child_iff h.2 hchildren hfile)⟩
      · exact ⟨prefix_refl _, fun _ _ => Iff.rfl⟩
    · exact ⟨prefix_refl _, fun _ _ => Iff.rfl⟩

lemma inside_collapseScope (scope : String) {file : FileReport}
    (hfile : file ∈ indexes.reportFiles) :
    Inside file.path (collapseScope indexes scope) ↔ Inside file.path scope :=
  (collapseFrom_spec _ scope).2 file hfile

lemma names_prefix_collapseScope (scope : String) :
    names scope <+: names (collapseScope indexes scope) :=
  (collapseFrom_spec _ scope).1

lemma collapseFrom_stops {fuel : ℕ}
    (hfuel : ∀ file ∈ indexes.reportFiles, (splitPath file.path).length ≤
      fuel + (names scope).length) :
    collapseFrom indexes fuel scope ∈ indexes.anchorDirectories ∨
      directFiles indexes (collapseFrom indexes fuel scope) ≠ [] ∨
      ∀ child, immediateChildScopes indexes (collapseFrom indexes fuel scope) ≠ [child] := by
  induction fuel generalizing scope with
  | zero =>
    refine .inr (.inr fun child hchildren => ?_)
    have hchild : child ∈ immediateChildScopes indexes scope := hchildren ▸ mem_cons_self
    obtain ⟨other, hother, name, next, rest, hpath, -⟩ := mem_immediateChildScopes.mp hchild
    have hle := hfuel other hother
    rw [hpath, length_append, length_cons, length_cons] at hle
    omega
  | succ fuel ih =>
    rw [collapseFrom]
    split
    next h =>
      split
      next child hchildren =>
        have hchild : child ∈ immediateChildScopes indexes scope :=
          hchildren ▸ mem_cons_self
        obtain ⟨other, -, name, next, rest, hother, heq⟩ := mem_immediateChildScopes.mp hchild
        refine ih fun file hfile => (hfuel file hfile).trans ?_
        rw [heq, names_child hother, length_append, length_singleton]
        omega
      next hmany => exact .inr (.inr hmany)
    next h =>
      rw [not_and_or, not_not] at h
      exact h.imp id Or.inl

/-- The loop ends by itself. -/
lemma collapseScope_stops (scope : String) :
    collapseScope indexes scope ∈ indexes.anchorDirectories ∨
      directFiles indexes (collapseScope indexes scope) ≠ [] ∨
      ∀ child, immediateChildScopes indexes (collapseScope indexes scope) ≠ [child] := by
  refine collapseFrom_stops fun file hfile => Nat.le_add_right_of_le ?_
  obtain ⟨front, back, heq⟩ := append_of_mem hfile
  rw [heq, map_append, map_cons, sum_append, sum_cons]
  omega

/-! ## Entities -/

/-- An entity covers a file: it is the file, or a directory that the file is in. -/
def Covers (entity : ExplorerEntity) (path : String) : Prop :=
  match entity with
  | .file summary => summary.path = path
  | .scope summary => Inside path summary.path

/-- The entities that `addScopeContents` adds for a scope whose children are not collapsed. -/
def contents (indexes : ModelIndexes) (scope : String) : List ExplorerEntity :=
  (KeyedList.sortBy compareCodeUnits (immediateChildScopes indexes scope)).map
    (scopeEntity indexes) ++ (directFiles indexes scope).map fun file => fileEntity file.path

lemma mem_contents {entity : ExplorerEntity} : entity ∈ contents indexes scope ↔
      (∃ child ∈ immediateChildScopes indexes scope, entity = scopeEntity indexes child) ∨
      ∃ file ∈ directFiles indexes scope, entity = fileEntity file.path := by
  rw [contents, mem_append, List.mem_map, List.mem_map]
  simp [eq_comm]

lemma covers_contents_iff {scope : String} {entity : ExplorerEntity} {file : FileReport}
    (hfile : file ∈ indexes.reportFiles) :
    entity ∈ contents indexes scope ∧ Covers entity file.path ↔
      (∃ name, splitPath file.path = names scope ++ [name] ∧ entity = fileEntity file.path) ∨
      ∃ name next rest, splitPath file.path = names scope ++ name :: next :: rest ∧
        entity = scopeEntity indexes (joinPath scope name) := by
  rw [mem_contents]
  constructor
  · rintro ⟨⟨child, hchild, rfl⟩ | ⟨other, hother, rfl⟩, hcovers⟩
    · obtain ⟨other, -, name, next, rest, hother, rfl⟩ := mem_immediateChildScopes.mp hchild
      have hinside : Inside file.path (joinPath scope name) := hcovers
      obtain ⟨next', rest', hpath⟩ := (inside_iff file.named).mp hinside
      rw [names_child hother, append_assoc, singleton_append] at hpath
      exact .inr ⟨name, next', rest', hpath, rfl⟩
    · obtain ⟨-, name, hpath⟩ := mem_directFiles.mp hother
      have heq : other.path = file.path := hcovers
      exact .inl ⟨name, heq ▸ hpath, congrArg fileEntity heq⟩
  · rintro (⟨name, hpath, rfl⟩ | ⟨name, next, rest, hpath, rfl⟩)
    · exact ⟨.inr ⟨file, mem_directFiles.mpr ⟨hfile, name, hpath⟩, rfl⟩, rfl⟩
    · refine ⟨.inl ⟨_, mem_immediateChildScopes.mpr ⟨file, hfile, name, next, rest, hpath, rfl⟩,
        rfl⟩, (inside_iff file.named).mpr ⟨next, rest, ?_⟩⟩
      show splitPath file.path = names (joinPath scope name) ++ next :: rest
      rw [hpath, names_child hpath, append_assoc, singleton_append]

lemma contents_cover {file : FileReport} (hfile : file ∈ indexes.reportFiles) :
    (Inside file.path scope → ∃! entity, entity ∈ contents indexes scope ∧
      Covers entity file.path) ∧
      ∀ entity ∈ contents indexes scope, Covers entity file.path → Inside file.path scope := by
  constructor
  · intro hinside
    obtain ⟨name, rest, hpath⟩ := (inside_iff file.named).mp hinside
    have hiff := fun entity => @covers_contents_iff indexes scope entity file hfile
    cases rest with
    | nil =>
      refine ⟨_, (hiff _).mpr (.inl ⟨name, hpath, rfl⟩), fun entity hentity => ?_⟩
      rcases (hiff entity).mp hentity with ⟨_, -, rfl⟩ | ⟨name', next', rest', hpath', -⟩
      · rfl
      · rw [hpath, append_cancel_left_eq] at hpath'
        exact absurd (cons.inj hpath').2.symm (cons_ne_nil next' rest')
    | cons next rest =>
      refine ⟨_, (hiff _).mpr (.inr ⟨name, next, rest, hpath, rfl⟩), fun entity hentity => ?_⟩
      rcases (hiff entity).mp hentity with ⟨name', hpath', -⟩ | ⟨name', next', rest', hpath', rfl⟩
      · rw [hpath, append_cancel_left_eq] at hpath'
        exact absurd (cons.inj hpath').2 (cons_ne_nil next rest)
      · rw [hpath, append_cancel_left_eq] at hpath'
        rw [(cons.inj hpath').1]
  · intro entity hentity hcovers
    refine (inside_iff file.named).mpr ?_
    rcases (covers_contents_iff hfile).mp ⟨hentity, hcovers⟩ with
      ⟨name, hpath, -⟩ | ⟨name, next, rest, hpath, -⟩
    · exact ⟨name, [], hpath⟩
    · exact ⟨name, next :: rest, hpath⟩

end Reposcout.Web
