import Mathlib.Data.List.Induction
import Reposcout.Framework.PathWalk

/-!
# Trees of files with symbolic links

A tree holds directories, regular files and symbolic links.  A path is resolved from a place step
by step; at a link the steps of its target are taken first, and only so many links are followed.
-/

/-- What stands at a place.  The target of a link is a path from the root or from the directory
of the link. -/
inductive FileNode (α : Type) where
  | directory
  | file
  | link (absolute : Bool) (steps : List (PathStep α))
  deriving DecidableEq

/-- What stands at each place.  Whatever stands below a place, that place is a directory. -/
structure FileTree (α : Type) where
  node : List α → Option (FileNode α)
  root : node [] = some .directory
  parent : ∀ place name, node (place ++ [name]) ≠ none → node place = some .directory

namespace FileTree

open PathStep List Option

variable {α : Type}

/-! ## Places -/

variable {more : List α} {place : List α}

lemma directory_of_prefix (tree : FileTree α) (hmore : more ≠ [])
    (h : tree.node (place ++ more) ≠ none) : tree.node place = some .directory := by
  induction more using List.reverseRecOn with
  | nil => exact absurd rfl hmore
  | append_singleton more name ih =>
    rw [← append_assoc] at h
    have habove := tree.parent _ name h
    cases more with
    | nil => rwa [append_nil] at habove
    | cons first more =>
      exact ih (cons_ne_nil _ _) (habove ▸ some_ne_none _)

lemma ne_none_of_append (tree : FileTree α)
    (h : tree.node (place ++ more) ≠ none) : tree.node place ≠ none := by
  by_cases hmore : more = []
  · rwa [hmore, append_nil] at h
  · rw [tree.directory_of_prefix hmore h]
    exact some_ne_none _

lemma not_link_of_prefix (tree : FileTree α) {absolute : Bool}
    {steps : List (PathStep α)} (h : tree.node (place ++ more) = some .file) :
    tree.node place ≠ some (.link absolute steps) := by
  intro hlink
  by_cases hmore : more = []
  · rw [hmore, append_nil, hlink] at h
    cases h
  · have hdirectory := tree.directory_of_prefix hmore (h ▸ some_ne_none _)
    cases hdirectory.symm.trans hlink

/-! ## Following paths -/

variable [DecidableEq α]

def follow (tree : FileTree α)
    (onLink : List α → List (PathStep α) → Option (List α)) :
    List α → List (PathStep α) → Option (List α)
  | place, [] => some place
  | place, stay :: rest =>
    if tree.node place = some .directory then tree.follow onLink place rest else none
  | place, up :: rest =>
    if tree.node place = some .directory then tree.follow onLink place.dropLast rest else none
  | place, down name :: rest =>
    match tree.node (place ++ [name]) with
    | none => none
    | some (.link absolute steps) => onLink (if absolute then [] else place) (steps ++ rest)
    | some _ => tree.follow onLink (place ++ [name]) rest

/-- Where the steps lead, with at most so many links on the way. -/
def realpath (tree : FileTree α) : ℕ → List α → List (PathStep α) → Option (List α)
  | 0 => tree.follow fun _ _ => none
  | links + 1 => tree.follow (tree.realpath links)

/-- What stands at the end of the steps, a link at the end not followed. -/
def lstat (tree : FileTree α) (links : ℕ) (place : List α) (steps : List (PathStep α)) :
    Option (FileNode α) :=
  match steps.getLast? with
  | some (down name) =>
    (tree.realpath links place steps.dropLast).bind fun parent => tree.node (parent ++ [name])
  | _ => (tree.realpath links place steps).bind tree.node

/-! ## Resolved paths -/

section

variable {tree : FileTree α} {onLink : List α → List (PathStep α) → Option (List α)}

lemma follow_down {name : α} {node : FileNode α} (h : tree.node (place ++ [name]) = some node)
    (hlink : ∀ absolute steps, node ≠ .link absolute steps) (rest : List (PathStep α)) :
    tree.follow onLink place (down name :: rest) =
      tree.follow onLink (place ++ [name]) rest := by
  rw [follow, h]
  cases node with
  | directory => rfl
  | file => rfl
  | link absolute steps => exact absurd rfl (hlink absolute steps)

lemma follow_map_down {place names : List α} {node : FileNode α}
    (h : tree.node (place ++ names) = some node)
    (hlink : ∀ absolute steps, node ≠ .link absolute steps) (rest : List (PathStep α)) :
    tree.follow onLink place (names.map down ++ rest) =
      tree.follow onLink (place ++ names) rest := by
  induction names generalizing place with
  | nil => rw [map_nil, nil_append, append_nil]
  | cons name names ih =>
    rw [← singleton_append, ← append_assoc] at h
    have hstep : tree.follow onLink place (down name :: (names.map down ++ rest)) =
        tree.follow onLink (place ++ [name]) (names.map down ++ rest) := by
      by_cases hnames : names = []
      · rw [hnames, append_nil] at h
        exact follow_down h hlink _
      · refine follow_down (tree.directory_of_prefix hnames (h ▸ some_ne_none _)) ?_ _
        exact fun absolute steps hnode => nomatch hnode
    rw [map_cons, cons_append, hstep, ih h, append_assoc, singleton_append]

lemma realpath_eq_follow (tree : FileTree α) (links : ℕ) :
    ∃ onLink, tree.realpath links = tree.follow onLink := by
  cases links with
  | zero => exact ⟨_, rfl⟩
  | succ links => exact ⟨_, rfl⟩

@[simp] lemma realpath_nil (links : ℕ) (place : List α) :
    tree.realpath links place [] = some place := by
  obtain ⟨onLink, h⟩ := tree.realpath_eq_follow links
  rw [h, follow]

lemma realpath_map_down (links : ℕ) {place names : List α} {node : FileNode α}
    (h : tree.node (place ++ names) = some node)
    (hlink : ∀ absolute steps, node ≠ .link absolute steps) (rest : List (PathStep α)) :
    tree.realpath links place (names.map down ++ rest) =
      tree.realpath links (place ++ names) rest := by
  obtain ⟨onLink, hfollow⟩ := tree.realpath_eq_follow links
  rw [hfollow, follow_map_down h hlink]

lemma realpath_stay (links : ℕ) (h : tree.node place = some .directory) (rest : List (PathStep α)) :
    tree.realpath links place (stay :: rest) = tree.realpath links place rest := by
  obtain ⟨onLink, hfollow⟩ := tree.realpath_eq_follow links
  rw [hfollow, follow, if_pos h]

lemma realpath_stay_of_file (links : ℕ) (h : tree.node place = some .file)
    (rest : List (PathStep α)) : tree.realpath links place (stay :: rest) = none := by
  obtain ⟨onLink, hfollow⟩ := tree.realpath_eq_follow links
  rw [hfollow, follow, if_neg]
  exact fun hdirectory => nomatch h.symm.trans hdirectory

variable {steps : List (PathStep α)}

lemma follow_induction
    (hlinks : ∀ place steps last, tree.node place = some .directory →
      onLink place steps = some last →
      tree.node last = some .directory ∨ tree.node last = some .file) {place last : List α}
    (hplace : tree.node place = some .directory ∨ tree.node place = some .file)
    (h : tree.follow onLink place steps = some last) :
    tree.node last = some .directory ∨ tree.node last = some .file := by
  induction steps generalizing place with
  | nil => exact some.inj h ▸ hplace
  | cons step rest ih =>
    cases step with
    | stay =>
      rw [follow] at h
      split at h
      · exact ih hplace h
      · exact absurd h (some_ne_none _).symm
    | up =>
      rw [follow] at h
      split at h
      case isTrue hdirectory =>
        refine ih (.inl ?_) h
        induction place using List.reverseRecOn with
        | nil => exact hdirectory
        | append_singleton place name =>
          rw [dropLast_concat]
          exact tree.parent _ name (hdirectory ▸ some_ne_none _)
      · exact absurd h (some_ne_none _).symm
    | down name =>
      rw [follow] at h
      split at h
      · exact absurd h (some_ne_none _).symm
      case _ absolute steps hnode =>
        refine hlinks _ _ _ ?_ h
        cases absolute with
        | true => exact tree.root
        | false => exact tree.parent _ name (hnode ▸ some_ne_none _)
      case _ node hnot hnode =>
        refine ih ?_ h
        cases node with
        | directory => exact .inl hnode
        | file => exact .inr hnode
        | link absolute steps => exact (hnot absolute steps rfl).elim

variable {links : ℕ}

lemma node_of_realpath {place last : List α}
    (hplace : tree.node place = some .directory ∨ tree.node place = some .file)
    (h : tree.realpath links place steps = some last) :
    tree.node last = some .directory ∨ tree.node last = some .file := by
  induction links generalizing place last steps with
  | zero => exact follow_induction (fun _ _ _ _ h => absurd h (some_ne_none _).symm) hplace h
  | succ links ih =>
    exact follow_induction (fun place steps last hdirectory => ih (.inl hdirectory)) hplace h

lemma follow_append (hrealpath : tree.realpath links = tree.follow onLink)
    (hlinks : ∀ place first, (∀ rest, onLink place (first ++ rest) = none) ∨
      ∃ left middle, ∀ rest, onLink place (first ++ rest) = tree.realpath left middle rest)
    (place : List α) (first : List (PathStep α)) :
    (∀ rest, tree.follow onLink place (first ++ rest) = none) ∨ ∃ left middle, ∀ rest,
        tree.follow onLink place (first ++ rest) = tree.realpath left middle rest := by
  induction first generalizing place with
  | nil => exact .inr ⟨links, place, fun rest => by rw [hrealpath, nil_append]⟩
  | cons step first ih =>
    cases step with
    | stay =>
      simp only [cons_append, follow]
      by_cases hdirectory : tree.node place = some .directory
      · simp only [if_pos hdirectory]
        exact ih place
      · exact .inl fun rest => if_neg hdirectory
    | up =>
      simp only [cons_append, follow]
      by_cases hdirectory : tree.node place = some .directory
      · simp only [if_pos hdirectory]
        exact ih place.dropLast
      · exact .inl fun rest => if_neg hdirectory
    | down name =>
      simp only [cons_append, follow]
      cases tree.node (place ++ [name]) with
      | none => exact .inl fun rest => rfl
      | some node =>
        cases node with
        | directory => exact ih (place ++ [name])
        | file => exact ih (place ++ [name])
        | link absolute steps =>
          simp only [← append_assoc]
          exact hlinks _ _

lemma directory_of_realpath {place last : List α} (hsteps : steps ≠ [])
    (h : tree.realpath links place steps = some last) : tree.node place = some .directory := by
  obtain ⟨onLink, hfollow⟩ := tree.realpath_eq_follow links
  obtain ⟨step, rest, rfl⟩ := exists_cons_of_ne_nil hsteps
  rw [hfollow] at h
  by_contra hnot
  cases step with
  | stay =>
    rw [follow, if_neg hnot] at h
    cases h
  | up =>
    rw [follow, if_neg hnot] at h
    cases h
  | down name =>
    have hnone : tree.node (place ++ [name]) = none := by
      by_contra hsome
      exact hnot (tree.parent place name hsome)
    rw [follow, hnone] at h
    cases h

/-- The start of a path leads nowhere, or to a place from which the rest is resolved. -/
lemma realpath_append (links : ℕ) (place : List α) (first : List (PathStep α)) :
    (∀ rest, tree.realpath links place (first ++ rest) = none) ∨ ∃ left middle, ∀ rest,
        tree.realpath links place (first ++ rest) = tree.realpath left middle rest := by
  induction links generalizing place first with
  | zero =>
    have hzero : tree.realpath 0 = tree.follow fun _ _ => none := rfl
    exact follow_append hzero (fun _ _ => .inl fun _ => rfl) place first
  | succ links ih =>
    have hsucc : tree.realpath (links + 1) = tree.follow (tree.realpath links) := rfl
    exact follow_append hsucc ih place first

/-- Where a path goes on from, a directory stands. -/
lemma realpath_stay_of_down {place last : List α} {first rest : List (PathStep α)} {name : α}
    (h : tree.realpath links place (first ++ down name :: rest) = some last) :
    ∃ middle, tree.realpath links place (first ++ [stay]) = some middle := by
  rcases tree.realpath_append links place first with hnone | ⟨left, middle, hsome⟩
  · exact absurd ((hnone _).symm.trans h) (some_ne_none _).symm
  · have hdirectory : tree.node middle = some .directory := by
      rw [hsome] at h
      exact directory_of_realpath (cons_ne_nil _ _) h
    exact ⟨middle, by rw [hsome, realpath_stay left hdirectory, realpath_nil]⟩

end

/-! ## Trees of finitely many places -/

def HasBelow (entries : List (List α × FileNode α)) (place : List α) : Prop :=
  ∃ entry ∈ entries, place <+: entry.1 ∧ place ≠ entry.1

instance (entries : List (List α × FileNode α)) (place : List α) :
    Decidable (HasBelow entries place) :=
  inferInstanceAs (Decidable (∃ entry ∈ entries, place <+: entry.1 ∧ place ≠ entry.1))

/-- The tree with these entries, and the directories that they stand in. -/
def ofEntries (entries : List (List α × FileNode α)) : FileTree α where
  node place :=
    if place = [] ∨ HasBelow entries place then some .directory
    else (entries.find? fun entry => entry.1 = place).map Prod.snd
  root := if_pos (.inl rfl)
  parent place name h := by
    have hshorter : place ≠ place ++ [name] := fun heq =>
      cons_ne_nil name [] (append_cancel_left (heq.symm.trans (append_nil _).symm))
    refine if_pos (.inr ?_)
    by_cases hbelow : HasBelow entries (place ++ [name])
    · obtain ⟨entry, hentry, hprefix, -⟩ := hbelow
      refine ⟨entry, hentry, (prefix_append place [name]).trans hprefix, fun heq => ?_⟩
      have hlength := hprefix.length_le
      rw [← heq, length_append, length_singleton] at hlength
      omega
    · rw [if_neg (not_or.mpr ⟨append_ne_nil_of_right_ne_nil _ (cons_ne_nil _ _), hbelow⟩)]
        at h
      cases hfind : entries.find? fun entry => entry.1 = place ++ [name] with
      | none => exact absurd (by rw [hfind, map_none]) h
      | some entry =>
        have hentry : entry.1 = place ++ [name] := by simpa using find?_some hfind
        exact ⟨entry, mem_of_find?_eq_some hfind, hentry ▸ prefix_append place [name],
          hentry ▸ hshorter⟩

/-- The names in the tree are those of its entries. -/
lemma forall_name_ofEntries {P : α → Prop} {entries : List (List α × FileNode α)}
    (hentries : ∀ entry ∈ entries, ∀ name ∈ entry.1, P name) (place : List α) (name : α)
    (h : (ofEntries entries).node (place ++ [name]) ≠ none) : P name := by
  have hname : ∀ entry ∈ entries, place ++ [name] <+: entry.1 → P name :=
    fun entry hentry hfront =>
      hentries entry hentry name (hfront.subset (mem_append_right _ mem_cons_self))
  by_cases hbelow : HasBelow entries (place ++ [name])
  · obtain ⟨entry, hentry, hprefix, -⟩ := hbelow
    exact hname entry hentry hprefix
  · have hne : place ++ [name] ≠ [] :=
      append_ne_nil_of_right_ne_nil _ (cons_ne_nil _ _)
    have hnode : (ofEntries entries).node (place ++ [name]) =
        (entries.find? fun entry => entry.1 = place ++ [name]).map Prod.snd :=
      if_neg (not_or.mpr ⟨hne, hbelow⟩)
    rw [hnode] at h
    cases hfind : entries.find? fun entry => entry.1 = place ++ [name] with
    | none => exact absurd (by rw [hfind, map_none]) h
    | some entry =>
      have hentry : entry.1 = place ++ [name] := by simpa using find?_some hfind
      exact hname entry (mem_of_find?_eq_some hfind) (hentry ▸ prefix_rfl)

end FileTree
