import Reposcout.Properties.TaskDiagnostics.Paths

/-!
# Diagnostics stay inside the repository

A path is checked as the names below the root, and written down as a text.  The two agree as long
as the names are texts without backslashes.
-/

namespace Reposcout.TaskDiagnostics

open List Option Utf8 FileSystem

/-! ## What is asked of an outcome -/

/-- A text is the path of a regular file below a place, with no link on the way. -/
structure FileBelow (fs : FileSystem) (root : List Name) (path : String) (names : List Name) :
    Prop where
  components : (RawPath.ofText path.toList).components = names.map .normal
  file : fs.node (root ++ names) = some .file
  no_link : ∀ shorter, shorter <+: names → ∀ absolute steps,
    fs.node (root ++ shorter) ≠ some (.link absolute steps)

def LiesIn (fs : FileSystem) (target : RawPath) (place : List Name) : Prop :=
  ∃ inner, fs.canonicalize target = some inner ∧ inner <+: place

/-- The path of a record is one of the inventory, and that of a file below the root, which is
resolved exactly if the file is in the target.  A record without a path has a reason. -/
def Contained (fs : FileSystem) (root target : RawPath) (inventory : List String)
    (record : TaskDiagnostic) : Prop :=
  match record.path with
  | none => record.reason ≠ none
  | some path => path ∈ inventory ∧ ∃ place names, fs.canonicalize root = some place ∧
      FileBelow fs place path names ∧
      (record.status = .resolved ↔ LiesIn fs target (place ++ names))

/-! ## Written paths -/

lemma FileSystem.proper_of_node (fs : FileSystem) {place names : List Name}
    (h : fs.node (place ++ names) ≠ none) : ∀ name ∈ names, ProperName name := by
  induction names using reverseRecOn with
  | nil => exact nofun
  | append_singleton names name ih =>
    rw [← append_assoc] at h
    intro other hother
    rcases mem_append.mp hother with hother | hother
    · refine ih ?_ other hother
      rw [fs.parent _ name h]
      exact some_ne_none _
    · rw [mem_singleton.mp hother]
      exact fs.proper _ name h

lemma encode_intercalate (parts : List (List Char)) :
    intercalate [47] (parts.map encode) = encode (intercalate ['/'] parts) := by
  induction parts with
  | nil => rfl
  | cons part parts ih =>
    cases parts with
    | nil => rw [map_singleton, intercalate_singleton, intercalate_singleton]
    | cons other parts =>
      rw [map_cons, map_cons, intercalate_cons_cons, intercalate_cons_cons,
        ← map_cons, ih, encode_append, encode_append]
      rfl

lemma exists_parts_of_isText {names : List Name} (h : ∀ name ∈ names, IsText name) :
    ∃ parts : List (List Char), names = parts.map encode ∧ ∀ part ∈ parts, '\\' ∉ part := by
  induction names with
  | nil => exact ⟨[], rfl, nofun⟩
  | cons name names ih =>
    obtain ⟨part, rfl, hpart⟩ := h name mem_cons_self
    obtain ⟨parts, rfl, hparts⟩ := ih fun other hother => h other (mem_cons_of_mem _ hother)
    exact ⟨part :: parts, rfl, forall_mem_cons.mpr ⟨hpart, hparts⟩⟩

lemma notMem_intercalate {c : Char} (hc : c ≠ '/') {parts : List (List Char)}
    (h : ∀ part ∈ parts, c ∉ part) : c ∉ intercalate ['/'] parts := by
  induction parts with
  | nil => exact not_mem_nil
  | cons part parts ih =>
    obtain ⟨hpart, hparts⟩ := forall_mem_cons.mp h
    cases parts with
    | nil => rwa [intercalate_singleton]
    | cons other parts =>
      rw [intercalate_cons_cons]
      intro hmem
      rcases mem_append.mp hmem with hmem | hmem
      · rcases mem_append.mp hmem with hmem | hmem
        · exact hpart hmem
        · exact hc (mem_singleton.mp hmem)
      · exact ih hparts hmem

open RawPath

lemma components_identity {names : List Name} (htext : ∀ name ∈ names, IsText name)
    (hproper : ∀ name ∈ names, ProperName name) :
    (ofText (identity names).toList).components = names.map .normal := by
  have hplain : Plain names := fun name hname => (hproper name hname).step_eq
  obtain ⟨parts, rfl, hparts⟩ := exists_parts_of_isText htext
  have hidentity : (identity (parts.map encode)).toList = intercalate ['/'] parts := by
    rw [identity, String.toList_ofList, encode_intercalate, decodeLossy_encode,
      replaceBackslashes_eq (notMem_intercalate (by decide) hparts)]
  rw [hidentity]
  by_cases hne : parts = []
  · subst hne
    rfl
  · have hslash : ∀ part ∈ parts, '/' ∉ part := fun part hpart hmem =>
      (hproper _ (mem_map_of_mem hpart)).separator
        (mem_flatMap.mpr ⟨'/', hmem, by decide⟩)
    rw [ofText, splitOn_intercalate '/' hslash hne, components_of_plain hplain]

variable {path : RawPath}

lemma mem_of_mem_components {name : Name}
    (h : Component.normal name ∈ path.components) : name ∈ path := by
  have hbody : ∀ names : List Name, Component.normal name ∈ names.filterMap bodyComponent →
      name ∈ names := by
    intro names hmem
    obtain ⟨other, hother, hcomponent⟩ := mem_filterMap.mp hmem
    rw [bodyComponent] at hcomponent
    cases hstep : step other with
    | stay =>
      rw [hstep] at hcomponent
      cases hcomponent
    | up =>
      rw [hstep] at hcomponent
      cases hcomponent
    | down inner =>
      rw [hstep] at hcomponent
      obtain rfl := Component.normal.inj (some.inj hcomponent)
      exact eq_of_step hstep ▸ hother
  cases path with
  | nil => cases h
  | cons first rest =>
    rw [components] at h
    split at h
    · rcases mem_cons.mp h with h | h
      · cases h
      · exact mem_cons_of_mem _ (hbody rest h)
    · split at h
      · rcases mem_cons.mp h with h | h
        · cases h
        · exact mem_cons_of_mem _ (hbody rest h)
      · exact hbody _ h

/-- What is written consists of texts. -/
lemma isText_of_fileBelow {fs : FileSystem} {root names others : List Name}
    (h : FileBelow fs root (identity names) others) : ∀ name ∈ others, IsText name := by
  intro name hname
  have hcomponent : Component.normal name ∈
      (ofText (identity names).toList).components := by
    rw [h.components]
    exact mem_map_of_mem hname
  refine isText_of_mem_ofText ?_ (mem_of_mem_components hcomponent)
  rw [identity, String.toList_ofList]
  exact notMem_replaceBackslashes _

lemma fileBelow_identity {fs : FileSystem} {root names : List Name}
    (hfile : fs.node (root ++ names) = some .file) (htext : ∀ name ∈ names, IsText name) :
    FileBelow fs root (identity names) names where
  components := components_identity htext
    (fs.proper_of_node (hfile ▸ some_ne_none _))
  file := hfile
  no_link shorter hshorter absolute steps := by
    obtain ⟨rest, rfl⟩ := hshorter
    rw [← append_assoc] at hfile
    exact fs.toFileTree.not_link_of_prefix hfile

/-! ## Candidates -/

def isListed (root : List Name) (inventory : List String) (candidate : RawPath) : Bool :=
  (candidate.stripPrefix root).any fun relative => identity relative ∈ inventory

/-- The candidate is not the path of a file, whatever the check of its names says. -/
def Unlocated (fs : FileSystem) (root : List Name) (candidate : RawPath) : Prop :=
  ∀ relative, candidate.stripPrefix root = some relative → noSymlink fs root relative = true →
    fs.canonicalize candidate = none

/-- A place is named by the original path, on its own, below the root or below the target. -/
def Traced (fs : FileSystem) (root : List Name) (target : RawPath) (whole : List Name) : Prop :=
  ∃ above names, whole = above ++ names ∧ (∀ name ∈ names, IsText name) ∧
    (above = [] ∨ above = root ∨ ∃ inner, fs.canonicalize target = some inner ∧ above <+: inner)

section

variable {fs : FileSystem} {root : List Name} {target : RawPath} {place : List Name}

lemma plain_of_resolved (h : fs.node place = some .directory ∨ fs.node place = some .file) :
    Plain place := by
  refine fs.plain_of_node ?_
  rcases h with h | h
  · exact h ▸ some_ne_none _
  · exact h ▸ some_ne_none _

lemma resolved_of_canonicalize (h : fs.canonicalize path = some place) :
    fs.node place = some .directory ∨ fs.node place = some .file := by
  rw [canonicalize] at h
  split at h
  · cases h
  case isFalse hempty =>
    have hsteps : path.map step ≠ [] := by
      rw [Ne, map_eq_nil_iff]
      rintro rfl
      exact hempty rfl
    exact FileTree.node_of_realpath (.inl (FileTree.directory_of_realpath hsteps h)) h

variable {names : List Name}

lemma not_unlocated_of_file (hroot : fs.node root = some .directory ∨ fs.node root = some .file)
    (hfile : fs.node (root ++ names) = some .file) :
    ¬ Unlocated fs root (.ofPlace (root ++ names)) := by
  intro h
  have hplain := plain_of_resolved (.inr hfile)
  have hnone := h names ((stripPrefix_ofPlace_eq_some_iff hplain).mpr rfl)
    ((noSymlink_iff hroot hplain.of_append.2).mpr hfile)
  rw [canonicalize_ofPlace (.inr hfile)] at hnone
  cases hnone

lemma namesAfter_slash {place whole : List Name} (h : Plain whole) (hne : whole ≠ []) :
    namesAfter place (whole ++ [[]]) = namesAfter place whole := by
  induction whole generalizing place with
  | nil => exact absurd rfl hne
  | cons name whole ih =>
    have hstep : step name ≠ .stay := by
      rw [h name mem_cons_self]
      exact fun heq => nomatch heq
    cases place with
    | nil =>
      rw [namesAfter, namesAfter, cons_append,
        dropWhile_cons_of_neg (by simpa using hstep),
        dropWhile_cons_of_neg (by simpa using hstep), ← cons_append,
        rdropWhile_concat_pos _ _ _ (by decide)]
    | cons other place =>
      rw [cons_append, namesAfter, namesAfter, if_neg hstep, if_neg hstep]
      by_cases hname : name = other
      · rw [if_pos hname, if_pos hname]
        by_cases hwhole : whole = []
        · subst hwhole
          cases place with
          | nil => rfl
          | cons => rfl
        · exact ih (fun other hother => h other (mem_cons_of_mem _ hother)) hwhole
      · rw [if_neg hname, if_neg hname]

lemma unlocated_slash (hroot : fs.node root = some .directory ∨ fs.node root = some .file)
    (hplain : Plain place) : Unlocated fs root ((ofPlace place).join [[]]) := by
  intro relative hstrip hcheck
  by_cases hne : place = []
  · subst hne
    have hempty := (stripPrefix_ofPlace_eq_some_iff hplain).mp hstrip
    obtain ⟨rfl, rfl⟩ := append_eq_nil_iff.mp hempty.symm
    have hfile := (noSymlink_iff hroot hplain).mp hcheck
    cases fs.root.symm.trans hfile
  · have hlast : (ofPlace place).getLast? ≠ some [] := by
      rw [ofPlace, if_neg hne, getLast?_cons_of_ne_nil hne]
      exact fun hlast => hplain.ne_nil (mem_of_getLast? hlast)
    have hjoin : (ofPlace place).join [[]] = ofPlace place ++ [[]] := by
      rw [RawPath.join, RawPath.isEmpty_ofPlace, Bool.or_false]
      exact if_neg hlast
    have hnames : (ofPlace place ++ [[]]).stripPrefix root =
        namesAfter root (place ++ [[]]) := by
      obtain ⟨name, rest, rfl⟩ := exists_cons_of_ne_nil hne
      rfl
    rw [hjoin, hnames, namesAfter_slash hplain hne, namesAfter_eq_some_iff hplain] at hstrip
    subst hstrip
    rw [hjoin]
    exact canonicalize_slash ((noSymlink_iff hroot hplain.of_append.2).mp hcheck)

lemma isAbsolute_ofNames (h : Plain names) : (ofNames names).isAbsolute = false := by
  rw [ofNames]
  split
  · rfl
  · exact isAbsolute_of_plain h

lemma isAbsolute_cons {first : Name} {rest : List Name} :
    isAbsolute (first :: rest) = true ↔ first = [] ∧ rest ≠ [] := by
  cases first with
  | nil =>
    cases rest with
    | nil => exact ⟨fun h => (nomatch h), fun h => absurd rfl h.2⟩
    | cons => exact ⟨fun _ => ⟨rfl, cons_ne_nil _ _⟩, fun _ => rfl⟩
  | cons => exact ⟨fun h => (nomatch h), fun h => (nomatch h.1)⟩

/-- A path that begins with the names of another one is resolved from the same place. -/
lemma start_cons {first : Name} {rest others : List Name} (h : first = [] → rest ≠ [])
    (hothers : first = [] → others ≠ []) :
    fs.start (first :: rest) = fs.start (first :: others) := by
  have hiff : isAbsolute (first :: rest) = isAbsolute (first :: others) := by
    rw [Bool.eq_iff_iff, isAbsolute_cons, isAbsolute_cons]
    exact ⟨fun habsolute => ⟨habsolute.1, hothers habsolute.1⟩,
      fun habsolute => ⟨habsolute.1, h habsolute.1⟩⟩
  rw [start, start, hiff]

lemma realpath_of_canonicalize (h : fs.canonicalize path = some place) :
    fs.realpath fs.maxLinks (fs.start path) (path.map step) = some place := by
  rw [canonicalize] at h
  split at h
  · cases h
  · exact h

/-- Behind a path that does not resolve, nothing does. -/
lemma unlocated_unresolved (hnames : Plain names) (htarget : fs.canonicalize target = none) :
    Unlocated fs root (target.join (.ofNames names)) := by
  intro relative hstrip _
  by_cases hempty : target.isEmpty = true
  · have hjoin : target.join (.ofNames names) = .ofNames names := by
      rw [RawPath.join, hempty, Bool.or_true, if_pos rfl]
    rw [hjoin, stripPrefix, isAbsolute_ofNames hnames, if_neg Bool.false_ne_true] at hstrip
    cases hstrip
  · have hunresolved := htarget
    rw [canonicalize, if_neg hempty] at hunresolved
    obtain ⟨first, rest, rfl⟩ : ∃ first rest, target = first :: rest := by
      cases target with
      | nil => exact absurd rfl hempty
      | cons first rest => exact ⟨first, rest, rfl⟩
    have hrest : first = [] → rest ≠ [] := by
      rintro rfl rfl
      exact hempty rfl
    have hjoin : join (first :: rest) (.ofNames names) =
        if (first :: rest).getLast? = some [] then
          (first :: rest).dropLast ++ ofNames names
        else first :: rest ++ ofNames names := by
      rw [RawPath.join, isAbsolute_ofNames hnames, Bool.false_or, if_neg hempty]
    rw [hjoin]
    by_contra hresolved
    obtain ⟨place, hplace⟩ := ne_none_iff_exists'.mp hresolved
    have hsteps := realpath_of_canonicalize hplace
    by_cases hlast : (first :: rest).getLast? = some []
    · -- The target ends with a separator, and the names stand behind that.
      obtain ⟨front, hfront⟩ := getLast?_eq_some_iff.mp hlast
      rw [if_pos hlast, hfront, dropLast_concat] at hsteps hplace
      by_cases hne : names = []
      · rw [hne, ofNames, if_pos rfl, ← hfront, htarget] at hplace
        cases hplace
      · rw [ofNames, if_neg hne] at hsteps
        obtain ⟨name, others, rfl⟩ := exists_cons_of_ne_nil hne
        cases front with
        | nil =>
          cases hfront
          exact hempty rfl
        | cons head front =>
          cases hfront
          rw [cons_append, start_cons (fun _ => append_ne_nil_of_right_ne_nil _ hne)
            hrest, ← cons_append, map_append, hnames.map_step, map_cons] at hsteps
          obtain ⟨middle, hmiddle⟩ := FileTree.realpath_stay_of_down hsteps
          have hback : step first :: front.map step ++ [.stay] =
              (first :: (front ++ [[]])).map step := by
            rw [map_cons, map_append]
            rfl
          rw [hback] at hmiddle
          cases hunresolved.symm.trans hmiddle
    · rw [if_neg hlast, cons_append, start_cons
        (fun heq => append_ne_nil_of_left_ne_nil (hrest heq) _) hrest, ← cons_append,
        map_append] at hsteps
      rcases fs.toFileTree.realpath_append fs.maxLinks (fs.start (first :: rest))
        ((first :: rest).map step) with hnone | ⟨left, middle, hsome⟩
      · cases (hnone _).symm.trans hsteps
      · have hmiddle := hsome []
        rw [append_nil, hunresolved, FileTree.realpath_nil] at hmiddle
        cases hmiddle

/-! ## The loop over the candidates -/

variable {inventory : List String} {record : TaskDiagnostic}

lemma resolveCandidates_of_not_listed {candidate : RawPath} (rest : List RawPath)
    (h : ¬ isListed root inventory candidate) :
    resolveCandidates fs root target inventory record (candidate :: rest) =
      resolveCandidates fs root target inventory record rest := by
  rw [resolveCandidates]
  cases hstrip : candidate.stripPrefix root with
  | none => rfl
  | some relative =>
    rw [isListed, hstrip, any_some, decide_eq_true_eq] at h
    exact if_pos h

lemma isListed_ofPlace {whole : List Name} (hplain : Plain whole) :
    isListed root inventory (.ofPlace whole) = true ↔
      ∃ names, whole = root ++ names ∧ identity names ∈ inventory := by
  rw [isListed, Option.any_eq_true]
  simp only [decide_eq_true_eq]
  exact exists_congr fun names => and_congr_left' (stripPrefix_ofPlace_eq_some_iff hplain)

lemma resolveCandidates_of_listed
    (hroot : fs.node root = some .directory ∨ fs.node root = some .file)
    (hplain : Plain (root ++ names)) (hlisted : identity names ∈ inventory) (rest : List RawPath) :
    resolveCandidates fs root target inventory record (.ofPlace (root ++ names) :: rest) =
      if fs.node (root ++ names) = some .file then
        record.located (identity names) ((ofPlace (root ++ names)).startsWith target)
      else record.rejected "symlink-or-unavailable-path" := by
  have hstrip : (ofPlace (root ++ names)).stripPrefix root = some names :=
    (stripPrefix_ofPlace_eq_some_iff hplain).mpr rfl
  have hcheck := noSymlink_iff hroot hplain.of_append.2
  rw [resolveCandidates, hstrip]
  dsimp only
  rw [if_neg (not_not_intro hlisted)]
  by_cases hfile : fs.node (root ++ names) = some .file
  · have hstarts : (ofPlace (root ++ names)).startsWith (.ofPlace root) = true :=
      (startsWith_ofPlace hplain hplain.of_append.1).mpr (prefix_append _ _)
    rw [if_neg (not_not_intro (hcheck.mpr hfile)), if_pos hfile,
      canonicalize_ofPlace (.inr hfile)]
    exact if_neg (not_not_intro hstarts)
  · rw [if_pos (mt hcheck.mp hfile), if_neg hfile]

lemma resolveCandidates_of_unlocated {candidates : List RawPath}
    (h : ∀ candidate ∈ candidates, Unlocated fs root candidate) :
    ∃ reason, resolveCandidates fs root target inventory record candidates =
      record.rejected reason := by
  induction candidates with
  | nil => exact ⟨_, rfl⟩
  | cons candidate rest ih =>
    obtain ⟨hcandidate, hrest⟩ := forall_mem_cons.mp h
    by_cases hlisted : isListed root inventory candidate = true
    · obtain ⟨relative, hstrip, hmem⟩ := (Option.any_eq_true _ _).mp hlisted
      rw [resolveCandidates, hstrip]
      dsimp only
      rw [if_neg (not_not_intro (of_decide_eq_true hmem))]
      by_cases hcheck : noSymlink fs root relative = true
      · rw [if_neg (not_not_intro hcheck), hcandidate relative hstrip hcheck]
        exact ih hrest
      · rw [if_pos hcheck]
        exact ⟨_, rfl⟩
    · rw [resolveCandidates_of_not_listed rest hlisted]
      exact ih hrest

def Chosen (fs : FileSystem) (root : List Name) (inventory : List String)
    (candidates : List RawPath) (names : List Name) : Prop :=
  candidates.find? (isListed root inventory) = some (.ofPlace (root ++ names)) ∧
    fs.node (root ++ names) = some .file

variable (hroot : fs.node root = some .directory ∨ fs.node root = some .file)

include hroot

lemma resolveCandidates_cases {places : List (List Name)} {others : List RawPath}
    (hplaces : ∀ whole ∈ places, Plain whole)
    (hothers : ∀ candidate ∈ others, Unlocated fs root candidate) :
    (∃ names, Chosen fs root inventory (places.map .ofPlace ++ others) names ∧
      resolveCandidates fs root target inventory record (places.map .ofPlace ++ others) =
        record.located (identity names) ((ofPlace (root ++ names)).startsWith target)) ∨
    ((∀ names, ¬ Chosen fs root inventory (places.map .ofPlace ++ others) names) ∧
      ∃ reason, resolveCandidates fs root target inventory record
        (places.map .ofPlace ++ others) = record.rejected reason) := by
  induction places with
  | nil =>
    refine .inr ⟨fun names hchosen => ?_, resolveCandidates_of_unlocated hothers⟩
    exact not_unlocated_of_file hroot hchosen.2
      (hothers _ (mem_of_find?_eq_some hchosen.1))
  | cons whole places ih =>
    obtain ⟨hplain, hrest⟩ := forall_mem_cons.mp hplaces
    rw [map_cons, cons_append]
    by_cases hlisted : isListed root inventory (.ofPlace whole) = true
    · obtain ⟨names, rfl, hmem⟩ := (isListed_ofPlace hplain).mp hlisted
      have hfind : (ofPlace (root ++ names) :: (places.map .ofPlace ++ others)).find?
          (isListed root inventory) = some (.ofPlace (root ++ names)) :=
        find?_cons_of_pos hlisted
      rw [resolveCandidates_of_listed hroot hplain hmem]
      by_cases hfile : fs.node (root ++ names) = some .file
      · exact .inl ⟨names, ⟨hfind, hfile⟩, if_pos hfile⟩
      · refine .inr ⟨fun other hchosen => hfile ?_, _, if_neg hfile⟩
        have heq := some.inj (hfind.symm.trans hchosen.1)
        rw [ofPlace_injective hplain (plain_of_resolved (.inr hchosen.2)) heq]
        exact hchosen.2
    · have hskip : ∀ names, Chosen fs root inventory
          (ofPlace whole :: (places.map .ofPlace ++ others)) names ↔
          Chosen fs root inventory (places.map .ofPlace ++ others) names := fun names => by
        rw [Chosen, Chosen, find?_cons_of_neg hlisted]
      simp only [hskip, resolveCandidates_of_not_listed _ hlisted]
      exact ih hrest

lemma exists_places_of_candidates (hplain : Plain names) (htext : ∀ name ∈ names, IsText name)
    (hpath : path = .ofPlace names ∨ path = .ofNames names) {paths : List RawPath}
    (h : candidates fs root target path = some paths) :
    ∃ (places : List (List Name)) (others : List RawPath), paths = places.map .ofPlace ++ others ∧
      (∀ whole ∈ places, Plain whole ∧ Traced fs root target whole) ∧
      ∀ candidate ∈ others, Unlocated fs root candidate := by
  rcases hpath with rfl | rfl
  · rw [candidates, if_pos (isAbsolute_ofPlace names)] at h
    split at h
    · cases h
      refine ⟨[names], [], rfl, fun whole hwhole => ?_,
        nofun⟩
      rw [mem_singleton.mp hwhole]
      exact ⟨hplain, [], names, rfl, htext, .inl rfl⟩
    · cases h
  · rw [candidates, isAbsolute_ofNames hplain, if_neg Bool.false_ne_true] at h
    cases h
    have hrootPlain := plain_of_resolved hroot
    by_cases hne : names = []
    · subst hne
      refine ⟨[], _, rfl, nofun, fun candidate hmem => ?_⟩
      rcases mem_cons.mp hmem with rfl | hmem
      · exact unlocated_slash hroot hrootPlain
      · rw [mem_singleton.mp hmem, anchor]
        cases htarget : fs.canonicalize target with
        | none => exact unlocated_unresolved hplain htarget
        | some inner =>
          have hinner := plain_of_resolved (resolved_of_canonicalize htarget)
          refine unlocated_slash hroot ?_
          split
          · exact fun name hname => hinner name (dropLast_subset inner hname)
          · exact hinner
    · have hnames : ofNames names = names := if_neg hne
      rw [hnames, join_ofPlace hrootPlain hplain hne]
      have hfirst : Plain (root ++ names) ∧ Traced fs root target (root ++ names) :=
        ⟨hrootPlain.append hplain, root, names, rfl, htext, .inr (.inl rfl)⟩
      cases htarget : fs.canonicalize target with
      | none =>
        refine ⟨[root ++ names], [target.join names], ?_, fun whole hwhole => ?_,
          fun candidate hmem => ?_⟩
        · rw [anchor, htarget]
          rfl
        · rw [mem_singleton.mp hwhole]
          exact hfirst
        · rw [mem_singleton.mp hmem, ← hnames]
          exact unlocated_unresolved hplain htarget
      | some inner =>
        have hinner := plain_of_resolved (resolved_of_canonicalize htarget)
        obtain ⟨above, habove, hfront⟩ : ∃ above, anchor fs target = .ofPlace above ∧
            above <+: inner := by
          rw [anchor, htarget]
          refine ⟨_, rfl, ?_⟩
          split
          · exact dropLast_prefix inner
          · exact prefix_rfl
        have hplainAbove : Plain above := fun name hname => hinner name (hfront.subset hname)
        rw [habove, join_ofPlace hplainAbove hplain hne]
        refine ⟨[root ++ names, above ++ names], [], rfl, fun whole hwhole => ?_,
          nofun⟩
        rcases mem_cons.mp hwhole with rfl | hwhole
        · exact hfirst
        · rw [mem_singleton.mp hwhole]
          exact ⟨hplainAbove.append hplain, above, names, rfl, htext,
            Or.inr (.inr ⟨inner, htarget, hfront⟩)⟩

end

/-! ## The outcome -/

/-- A record without a reason leads to a file below the root. -/
def Found (fs : FileSystem) (root target : RawPath) (inventory : List String) (uri : Bool)
    (record : TaskDiagnostic) (place names : List Name) : Prop :=
  record.reason = none ∧ fs.canonicalize root = some place ∧
    ∃ original path paths, record.originalPath = some original ∧
      localPath original.toList uri = some path ∧
      candidates fs place target path = some paths ∧ Chosen fs place inventory paths names

/-- A file is written by its own names, or by those of another file while it is not in the target,
and the target resolves, or is not compared with success. -/
def WrittenAsFound (fs : FileSystem) (target : RawPath) (place names : List Name) : Prop :=
  ((∀ name ∈ names, IsText name) ∨ (∃ others, FileBelow fs place (identity names) others) ∧
      ¬ LiesIn fs target (place ++ names)) ∧
  (fs.canonicalize target ≠ none ∨ (RawPath.ofPlace (place ++ names)).startsWith target = false)

section

variable {fs : FileSystem} {root target : RawPath} {inventory : List String} {uri : Bool}
  {record : TaskDiagnostic} {place names : List Name}

lemma Found.unique (h : Found fs root target inventory uri record place names)
    {otherPlace otherNames : List Name}
    (hother : Found fs root target inventory uri record otherPlace otherNames) :
    otherPlace = place ∧ otherNames = names := by
  obtain ⟨-, hplace, original, path, paths, horiginal, hpath, hpaths, hchosen⟩ := h
  obtain ⟨-, hplace', original', path', paths', horiginal', hpath', hpaths', hchosen'⟩ := hother
  cases hplace.symm.trans hplace'
  cases horiginal.symm.trans horiginal'
  cases hpath.symm.trans hpath'
  cases hpaths.symm.trans hpaths'
  have heq := ofPlace_injective (plain_of_resolved (.inr hchosen.2))
    (plain_of_resolved (.inr hchosen'.2))
    (some.inj (hchosen.1.symm.trans hchosen'.1))
  exact ⟨rfl, (append_cancel_left heq).symm⟩

lemma resolve_cases (fs : FileSystem) (root target : RawPath) (inventory : List String)
    (uri : Bool) (record : TaskDiagnostic) :
    (∃ place names, Found fs root target inventory uri record place names ∧
      Traced fs place target (place ++ names) ∧
      resolve fs root target inventory uri record = record.located (identity names)
        ((ofPlace (place ++ names)).startsWith (canonicalTarget fs target))) ∨
    ((∀ place names, ¬ Found fs root target inventory uri record place names) ∧
      (resolve fs root target inventory uri record).path = record.path ∧
      (resolve fs root target inventory uri record).reason ≠ none) := by
  rw [resolve]
  by_cases hreason : record.reason.isSome = true
  · refine .inr ⟨fun place names h => ?_, ?_⟩
    · rw [h.1] at hreason
      cases hreason
    · rw [if_pos hreason]
      exact ⟨rfl, isSome_iff_ne_none.mp hreason⟩
  · rw [if_neg hreason]
    cases horiginal : record.originalPath with
    | none =>
      refine .inr ⟨fun place names h => ?_, rfl, some_ne_none _⟩
      obtain ⟨-, -, original, _, _, horiginal', -⟩ := h
      cases horiginal.symm.trans horiginal'
    | some original =>
      dsimp only
      cases hpath : localPath original.toList uri with
      | none =>
        refine .inr ⟨fun place names h => ?_, rfl, some_ne_none _⟩
        obtain ⟨-, -, original', path, _, horiginal', hpath', -⟩ := h
        cases horiginal.symm.trans horiginal'
        cases hpath.symm.trans hpath'
      | some path =>
        cases hplace : fs.canonicalize root with
        | none =>
          refine .inr ⟨fun place names h => ?_, rfl, some_ne_none _⟩
          cases hplace.symm.trans h.2.1
        | some place =>
          dsimp only
          have hfound : ∀ otherPlace names,
              Found fs root target inventory uri record otherPlace names →
              ∃ paths, candidates fs place target path = some paths ∧
                Chosen fs place inventory paths names := by
            rintro otherPlace names
              ⟨-, hplace', original', path', paths, horiginal', hpath', hpaths, hchosen⟩
            cases hplace.symm.trans hplace'
            cases horiginal.symm.trans horiginal'
            cases hpath.symm.trans hpath'
            exact ⟨paths, hpaths, hchosen⟩
          cases hpaths : candidates fs place target path with
          | none =>
            refine .inr ⟨fun otherPlace names h => ?_, rfl, some_ne_none _⟩
            obtain ⟨paths, hpaths', -⟩ := hfound otherPlace names h
            cases hpaths.symm.trans hpaths'
          | some paths =>
            dsimp only
            have hroot := resolved_of_canonicalize hplace
            obtain ⟨names, hplain, htext, hform⟩ := exists_names_of_localPath hpath
            obtain ⟨places, others, rfl, hplaces, hothers⟩ :=
              exists_places_of_candidates hroot hplain htext hform hpaths
            have hall : ∀ whole ∈ places, Plain whole := fun whole hwhole =>
              (hplaces whole hwhole).1
            rcases @resolveCandidates_cases fs place (canonicalTarget fs target) inventory record
              hroot places others hall hothers with ⟨names, hchosen, heq⟩ | ⟨hnone, reason, heq⟩
            · refine .inl ⟨place, names, ⟨not_isSome_iff_eq_none.mp hreason, hplace,
                original, path, _, horiginal, hpath, hpaths, hchosen⟩, ?_, heq⟩
              have hmem := mem_of_find?_eq_some hchosen.1
              rcases mem_append.mp hmem with hmem | hmem
              · obtain ⟨whole, hwhole, hof⟩ := mem_map.mp hmem
                rw [← ofPlace_injective (hall whole hwhole)
                  (plain_of_resolved (.inr hchosen.2)) hof]
                exact (hplaces whole hwhole).2
              · exact absurd (hothers _ hmem) (not_unlocated_of_file hroot hchosen.2)
            · refine .inr ⟨fun otherPlace names h => ?_, ?_⟩
              · obtain ⟨paths, hpaths', hchosen⟩ := hfound otherPlace names h
                cases hpaths.symm.trans hpaths'
                exact hnone names hchosen
              · rw [heq]
                exact ⟨rfl, some_ne_none _⟩

lemma Traced.isText_or_anchored (h : Traced fs place target (place ++ names)) :
    (∀ name ∈ names, IsText name) ∨
      ∃ inner above rest, fs.canonicalize target = some inner ∧ place ++ above <+: inner ∧
        names = above ++ rest ∧ ∀ name ∈ rest, IsText name := by
  obtain ⟨above, pathNames, heq, htext, habove⟩ := h
  rcases append_eq_append_iff.mp heq with ⟨middle, hmiddle, hnames⟩ | ⟨middle, hmiddle, hnames⟩
  · rcases habove with rfl | rfl | ⟨inner, htarget, hprefix⟩
    · obtain ⟨-, rfl⟩ := append_eq_nil_iff.mp hmiddle.symm
      exact .inl (hnames ▸ htext)
    · obtain rfl := append_right_eq_self.mp hmiddle.symm
      exact .inl (hnames ▸ htext)
    · exact .inr ⟨inner, middle, pathNames, htarget, hmiddle ▸ hprefix, hnames, htext⟩
  · exact .inl fun name hname => htext name (hnames ▸ mem_append_right _ hname)

lemma Chosen.mem {root : List Name} {paths : List RawPath} {names : List Name}
    (h : Chosen fs root inventory paths names) : identity names ∈ inventory := by
  obtain ⟨others, heq, hmem⟩ := (isListed_ofPlace (plain_of_resolved (.inr h.2))).mp
    (find?_some h.1)
  exact append_cancel_left heq ▸ hmem

lemma located_status_iff (record : TaskDiagnostic) (path : String) (inTarget : Bool) :
    (record.located path inTarget).status = .resolved ↔ inTarget = true := by
  cases inTarget with
  | false => exact ⟨fun h => (nomatch h), fun h => (nomatch h)⟩
  | true => exact ⟨fun _ => rfl, fun _ => rfl⟩

/-- For a target that resolves, the comparison says whether the place is in it. -/
lemma startsWith_canonicalTarget_iff {inner whole : List Name}
    (htarget : fs.canonicalize target = some inner) (hplain : Plain whole) :
    (ofPlace whole).startsWith (canonicalTarget fs target) = true ↔
      LiesIn fs target whole := by
  rw [canonicalTarget, htarget]
  show (ofPlace whole).startsWith (.ofPlace inner) = true ↔ _
  rw [startsWith_ofPlace hplain (plain_of_resolved (resolved_of_canonicalize htarget))]
  refine ⟨fun h => ⟨inner, htarget, h⟩, ?_⟩
  rintro ⟨other, hother, h⟩
  exact some.inj (htarget.symm.trans hother) ▸ h

lemma not_liesIn_of_fileBelow (htraced : Traced fs place target (place ++ names))
    (htext : ¬ ∀ name ∈ names, IsText name) {others : List Name}
    (hothers : FileBelow fs place (identity names) others) :
    ¬ LiesIn fs target (place ++ others) := by
  rintro ⟨inner, htarget, hprefix⟩
  rcases htraced.isText_or_anchored with hall | ⟨inner', above, rest, htarget', habove, rfl, hrest⟩
  · exact htext hall
  · cases htarget.symm.trans htarget'
    have hinside : above <+: others :=
      (prefix_append_right_inj place).mp (habove.trans hprefix)
    refine htext fun name hname => ?_
    rcases mem_append.mp hname with hname | hname
    · exact isText_of_fileBelow hothers name (hinside.subset hname)
    · exact hrest name hname

lemma contained_located_iff (hfound : Found fs root target inventory uri record place names)
    (htraced : Traced fs place target (place ++ names)) :
    Contained fs root target inventory (record.located (identity names)
      ((ofPlace (place ++ names)).startsWith (canonicalTarget fs target))) ↔
      WrittenAsFound fs target place names := by
  obtain ⟨-, hplace, _, _, _, -, -, -, hchosen⟩ := hfound
  have hplain := plain_of_resolved (.inr hchosen.2)
  have hcontained : Contained fs root target inventory (record.located (identity names)
      ((ofPlace (place ++ names)).startsWith (canonicalTarget fs target))) ↔
      ∃ others, FileBelow fs place (identity names) others ∧
        ((ofPlace (place ++ names)).startsWith (canonicalTarget fs target) = true ↔
          LiesIn fs target (place ++ others)) := by
    constructor
    · rintro ⟨-, otherPlace, others, hother, hbelow, hstatus⟩
      cases hplace.symm.trans hother
      exact ⟨others, hbelow, (located_status_iff _ _ _).symm.trans hstatus⟩
    · rintro ⟨others, hbelow, hstatus⟩
      exact ⟨hchosen.mem, place, others, hplace, hbelow, (located_status_iff _ _ _).trans hstatus⟩
  rw [hcontained]
  by_cases htext : ∀ name ∈ names, IsText name
  · have hnames := fileBelow_identity hchosen.2 htext
    cases htarget : fs.canonicalize target with
    | none =>
      have hnot : ∀ whole, ¬ LiesIn fs target whole := by
        rintro whole ⟨inner, hinner, -⟩
        cases htarget.symm.trans hinner
      have hcanonical : canonicalTarget fs target = target := by
        rw [canonicalTarget, htarget]
        rfl
      rw [hcanonical]
      constructor
      · rintro ⟨others, -, hstatus⟩
        exact ⟨.inl htext, .inr (Bool.eq_false_iff.mpr fun h => hnot _ (hstatus.mp h))⟩
      · rintro ⟨-, hresolves | hstarts⟩
        · exact absurd htarget hresolves
        · refine ⟨names, hnames, fun h => ?_, fun h => absurd h (hnot _)⟩
          exact absurd (hstarts.symm.trans h) Bool.false_ne_true
    | some inner =>
      refine iff_of_true ⟨names, hnames, startsWith_canonicalTarget_iff htarget hplain⟩
        ⟨.inl htext, .inl ?_⟩
      rw [htarget]
      exact some_ne_none _
  · obtain ⟨inner, htarget⟩ : ∃ inner, fs.canonicalize target = some inner := by
      rcases htraced.isText_or_anchored with hall | ⟨inner, _, _, htarget, -⟩
      · exact absurd hall htext
      · exact ⟨inner, htarget⟩
    rw [startsWith_canonicalTarget_iff htarget hplain]
    constructor
    · rintro ⟨others, hbelow, hstatus⟩
      refine ⟨.inr ⟨⟨others, hbelow⟩, fun h => ?_⟩, .inl ?_⟩
      · exact not_liesIn_of_fileBelow htraced htext hbelow (hstatus.mp h)
      · rw [htarget]
        exact some_ne_none _
    · rintro ⟨hall | ⟨⟨others, hbelow⟩, hnot⟩, -⟩
      · exact absurd hall htext
      · exact ⟨others, hbelow, iff_of_false hnot (not_liesIn_of_fileBelow htraced htext hbelow)⟩

/-- A resolved record is contained exactly if the file that it leads to, if any, is written as it
was found. -/
theorem contained_resolve_iff (fs : FileSystem) (root target : RawPath) (inventory : List String)
    (uri : Bool) (record : TaskDiagnostic) (hpath : record.path = none) :
    Contained fs root target inventory (resolve fs root target inventory uri record) ↔
      ∀ place names, Found fs root target inventory uri record place names →
        WrittenAsFound fs target place names := by
  rcases resolve_cases fs root target inventory uri record with
    ⟨place, names, hfound, htraced, heq⟩ | ⟨hnone, hkept, hreason⟩
  · rw [heq, contained_located_iff hfound htraced]
    refine ⟨fun h otherPlace otherNames hother => ?_, fun h => h place names hfound⟩
    obtain ⟨rfl, rfl⟩ := hfound.unique hother
    exact h
  · refine iff_of_true ?_ fun place names h => absurd h (hnone place names)
    rw [Contained, hkept, hpath]
    exact hreason

end

/-! ## A directory with a backslash in its name -/

instance (name : Name) : Decidable (ProperName name) :=
  decidable_of_iff (name ≠ [] ∧ name ≠ [46] ∧ name ≠ [46, 46] ∧ 47 ∉ name)
    ⟨fun h => ⟨h.1, h.2.1, h.2.2.1, h.2.2.2⟩, fun h => ⟨h.1, h.2, h.3, h.4⟩⟩

/-- One file, `x.rs`, in a directory whose name has a backslash. -/
def backslashEntries : List (List Name × FileNode Name) :=
  [(["r", "a\\b", "x.rs"].map fun name => Utf8.encode name.toList, .file)]

def backslashFiles : FileSystem where
  toFileTree := .ofEntries backslashEntries
  proper := FileTree.forall_name_ofEntries (P := ProperName) (by decide +kernel)
  currentDir := []
  maxLinks := 40

/-- The path `x.rs` of a diagnostic, from the root or the target. -/
def relativeRecord : TaskDiagnostic := { originalPath := some "x.rs" }

theorem contained_resolve_relativeRecord :
    Contained backslashFiles (.ofText "/r".toList) (.ofText "/r".toList) ["x.rs"]
      (resolve backslashFiles (.ofText "/r".toList) (.ofText "/r".toList) ["x.rs"] false
        relativeRecord) ↔
      ∀ place names, Found backslashFiles (.ofText "/r".toList) (.ofText "/r".toList) ["x.rs"]
        false relativeRecord place names →
        WrittenAsFound backslashFiles (.ofText "/r".toList) place names :=
  contained_resolve_iff backslashFiles _ _ _ _ _ rfl

/-- With the directory as the target, the file is found and another one is named, which does not
exist. -/
theorem not_contained_backslash :
    ¬ Contained backslashFiles (.ofText "/r".toList) (.ofText "/r/a\\b".toList) ["a/b/x.rs"]
      (resolve backslashFiles (.ofText "/r".toList) (.ofText "/r/a\\b".toList) ["a/b/x.rs"] false
        relativeRecord) := by
  intro h
  have hpath : (resolve backslashFiles (.ofText "/r".toList) (.ofText "/r/a\\b".toList)
      ["a/b/x.rs"] false relativeRecord).path = some "a/b/x.rs" := by
    decide +kernel
  have hroot : backslashFiles.canonicalize (.ofText "/r".toList) =
      some [Utf8.encode "r".toList] := by
    decide +kernel
  have hwritten : (ofText "a/b/x.rs".toList).components =
      (["a", "b", "x.rs"].map fun name => Utf8.encode name.toList).map .normal := by
    decide +kernel
  rw [Contained, hpath] at h
  obtain ⟨-, place, names, hplace, hbelow, -⟩ := h
  obtain rfl := some.inj (hroot.symm.trans hplace)
  have hnames := map_injective_iff.mpr (fun _ _ => Component.normal.inj)
    (hbelow.components.symm.trans hwritten)
  have hfile := hbelow.file
  rw [hnames] at hfile
  exact absurd hfile (by decide +kernel)

end Reposcout.TaskDiagnostics
