import Reposcout.TaskDiagnostics.Paths

/-!
# Paths of files

The path of a place leads to it, unless there is a link on the way, and a local path is made of
texts without backslashes.
-/

namespace Reposcout.TaskDiagnostics

open PathStep List Option FileTree RawPath

/-! ## Names of paths -/

/-- The names are steps down. -/
def Plain (names : List Name) : Prop := ∀ name ∈ names, step name = .down name

/-- The bytes of a text without backslashes. -/
def IsText (name : Name) : Prop := ∃ text, name = Utf8.encode text ∧ '\\' ∉ text

variable {name : Name}

lemma ProperName.step_eq (h : ProperName name) : step name = .down name := by
  rw [step, if_neg (not_or.mpr ⟨h.ne_nil, h.ne_dot⟩), if_neg h.ne_dotdot]

lemma ne_of_step (h : step name = .down name) : name ≠ [] ∧ name ≠ [46] := by
  refine not_or.mp fun hstay => ?_
  rw [step, if_pos hstay] at h
  cases h

lemma eq_of_step {other : Name} (h : step name = .down other) : other = name := by
  rw [step] at h
  split at h
  · cases h
  · split at h
    · cases h
    · exact (PathStep.down.inj h).symm

lemma Plain.append {names others : List Name} (h : Plain names) (hothers : Plain others) :
    Plain (names ++ others) := fun name hname =>
  (mem_append.mp hname).elim (h name) (hothers name)

lemma Plain.of_append {names others : List Name} (h : Plain (names ++ others)) :
    Plain names ∧ Plain others :=
  ⟨fun name hname => h name (mem_append_left _ hname),
    fun name hname => h name (mem_append_right _ hname)⟩

variable {names : List Name}

lemma Plain.map_step (h : Plain names) : names.map step = names.map down :=
  map_congr_left h

lemma Plain.ne_nil (h : Plain names) : [] ∉ names := fun hmem =>
  (ne_of_step (h [] hmem)).1 rfl

lemma Plain.filterMap_bodyComponent (h : Plain names) :
    names.filterMap bodyComponent = names.map .normal := by
  rw [← filterMap_eq_map]
  refine filterMap_congr fun name hname => ?_
  rw [bodyComponent, h name hname]
  rfl

variable {place : List Name}

/-- What stands in the tree has plain names on the way. -/
lemma FileSystem.plain_of_node (fs : FileSystem) (h : fs.node place ≠ none) : Plain place := by
  induction place using List.reverseRecOn with
  | nil => exact nofun
  | append_singleton place name ih =>
    refine (ih ?_).append fun other hother => ?_
    · rw [fs.parent place name h]
      exact some_ne_none _
    · rw [mem_singleton.mp hother]
      exact (fs.proper place name h).step_eq

/-! ## Paths of places -/

namespace RawPath

lemma components_of_plain (h : Plain names) :
    components names = names.map .normal := by
  cases names with
  | nil => rfl
  | cons name rest =>
    have hname := ne_of_step (h name mem_cons_self)
    rw [components, if_neg fun hroot => hname.1 hroot.1, if_neg hname.2, h.filterMap_bodyComponent]

lemma components_ofPlace (h : Plain place) :
    components (ofPlace place) = .rootDir :: place.map .normal := by
  by_cases hplace : place = []
  · rw [hplace]
    rfl
  · rw [ofPlace, if_neg hplace, components, if_pos ⟨rfl, hplace⟩, h.filterMap_bodyComponent]

lemma isAbsolute_ofPlace (place : List Name) : (ofPlace place).isAbsolute = true := by
  by_cases hplace : place = []
  · rw [hplace]
    rfl
  · obtain ⟨name, rest, rfl⟩ := exists_cons_of_ne_nil hplace
    rfl

lemma isEmpty_ofPlace (place : List Name) : (ofPlace place).isEmpty = false := by
  by_cases hplace : place = []
  · rw [hplace]
    rfl
  · obtain ⟨name, rest, rfl⟩ := exists_cons_of_ne_nil hplace
    rfl

lemma isAbsolute_of_plain (h : Plain names) : isAbsolute names = false := by
  cases names with
  | nil => rfl
  | cons name rest =>
    cases name with
    | nil => exact absurd rfl (ne_of_step (h [] mem_cons_self)).1
    | cons byte name => rfl

lemma join_ofPlace {place names : List Name} (hplace : Plain place) (hnames : Plain names)
    (hne : names ≠ []) : (ofPlace place).join names = ofPlace (place ++ names) := by
  rw [join, isAbsolute_of_plain hnames, isEmpty_ofPlace, Bool.or_false, if_neg Bool.false_ne_true]
  by_cases hroot : place = []
  · rw [hroot, nil_append, ofPlace, ofPlace, if_pos rfl, if_neg hne]
    rfl
  · have hlast : (ofPlace place).getLast? ≠ some [] := by
      rw [ofPlace, if_neg hroot, getLast?_cons_of_ne_nil hroot]
      exact fun hlast => hplace.ne_nil (mem_of_getLast? hlast)
    rw [if_neg hlast, ofPlace, if_neg hroot, ofPlace,
      if_neg (append_ne_nil_of_left_ne_nil hroot names), cons_append]

lemma ofPlace_injective {place other : List Name} (hplace : Plain place) (hother : Plain other)
    (h : ofPlace place = ofPlace other) : place = other := by
  have hcomponents := congrArg components h
  rw [components_ofPlace hplace, components_ofPlace hother] at hcomponents
  exact map_injective_iff.mpr (fun _ _ => Component.normal.inj) (cons.inj hcomponents).2

/-- A place begins with another one. -/
lemma startsWith_ofPlace {place other : List Name} (hplace : Plain place)
    (hother : Plain other) :
    (ofPlace place).startsWith (ofPlace other) = true ↔ other <+: place := by
  rw [startsWith, isPrefixOf_iff_prefix, components_ofPlace hplace,
    components_ofPlace hother, cons_prefix_cons]
  refine ⟨fun h => ?_, fun h => ⟨rfl, h.map _⟩⟩
  obtain ⟨rest, hrest⟩ := h.2
  obtain ⟨left, right, rfl, hleft, -⟩ := map_eq_append_iff.mp hrest.symm
  have heq : left = other :=
    map_injective_iff.mpr (fun _ _ => Component.normal.inj) hleft
  exact heq ▸ prefix_append left right

lemma namesAfter_eq_some_iff {place whole names : List Name} (h : Plain whole) :
    namesAfter place whole = some names ↔ whole = place ++ names := by
  induction whole generalizing place with
  | nil =>
    cases place with
    | nil => exact ⟨fun hsome => some.inj hsome, fun heq => congrArg some heq⟩
    | cons name place => exact ⟨fun hsome => (nomatch hsome), fun heq => (nomatch heq)⟩
  | cons other whole ih =>
    have hstep := h other mem_cons_self
    have hstay : step other ≠ .stay := by
      rw [hstep]
      exact fun heq => nomatch heq
    cases place with
    | nil =>
      have hlast : ∀ name ∈ (other :: whole).getLast?, ¬ step name = .stay := fun name hname => by
        rw [h name (mem_of_getLast? hname)]
        exact fun heq => nomatch heq
      have htrim : ((other :: whole).dropWhile fun name => step name = .stay).rdropWhile
          (fun name => step name = .stay) = other :: whole := by
        rw [dropWhile_cons_of_neg (by simpa using hstay), rdropWhile_eq_self_iff]
        intro hne
        simpa using hlast _ (getLast?_eq_some_getLast hne)
      rw [namesAfter, htrim, some.injEq, nil_append]
    | cons name place =>
      rw [namesAfter, if_neg hstay, cons_append, cons.injEq]
      by_cases hname : other = name
      · rw [if_pos hname, ih (fun name hmem => h name (mem_cons_of_mem _ hmem))]
        exact ⟨fun heq => ⟨hname, heq⟩, fun heq => heq.2⟩
      · rw [if_neg hname]
        exact ⟨fun hsome => (nomatch hsome), fun heq => absurd heq.1 hname⟩

lemma stripPrefix_ofPlace_eq_some_iff {place whole names : List Name} (h : Plain whole) :
    stripPrefix (ofPlace whole) place = some names ↔ whole = place ++ names := by
  rw [stripPrefix, if_pos (isAbsolute_ofPlace whole)]
  by_cases hwhole : whole = []
  · subst hwhole
    show namesAfter place [[]] = some names ↔ [] = place ++ names
    cases place with
    | nil =>
      show some [] = some names ↔ [] = names
      rw [some.injEq]
    | cons name place => exact ⟨fun hsome => (nomatch hsome), fun heq => (nomatch heq)⟩
  · rw [ofPlace, if_neg hwhole]
    exact namesAfter_eq_some_iff h

end RawPath

/-! ## Questions to the file system -/

namespace FileSystem

variable {fs : FileSystem}

open RawPath

lemma map_step_ofPlace (h : Plain place) (hne : place ≠ []) :
    (ofPlace place).map step = .stay :: place.map down := by
  rw [ofPlace, if_neg hne, map_cons, h.map_step]
  rfl

variable (h : fs.node place = some .directory ∨ fs.node place = some .file)

include h

lemma ne_link_of_resolved {node : FileNode Name} (hnode : fs.node place = some node) :
    ∀ absolute steps, node ≠ .link absolute steps := by
  rintro absolute steps rfl
  rcases h with h | h
  · cases h.symm.trans hnode
  · cases h.symm.trans hnode

lemma realpath_place (rest : List (PathStep Name)) :
    fs.realpath fs.maxLinks [] (.stay :: (place.map down ++ rest)) =
      fs.realpath fs.maxLinks place rest := by
  obtain ⟨node, hnode⟩ : ∃ node, fs.node place = some node := by
    rcases h with h | h
    · exact ⟨_, h⟩
    · exact ⟨_, h⟩
  rw [realpath_stay _ fs.root]
  exact @realpath_map_down Name _ fs.toFileTree fs.maxLinks [] place node hnode
    (ne_link_of_resolved h hnode) rest

lemma canonicalize_ofPlace : fs.canonicalize (.ofPlace place) = some place := by
  have hplain : Plain place := fs.plain_of_node (by
    rcases h with h | h
    · exact h ▸ some_ne_none _
    · exact h ▸ some_ne_none _)
  rw [canonicalize, isEmpty_ofPlace, if_neg Bool.false_ne_true, start,
    isAbsolute_ofPlace, if_pos rfl]
  by_cases hne : place = []
  · subst hne
    show fs.realpath fs.maxLinks [] [.stay, .stay] = some []
    rw [realpath_stay _ fs.root, realpath_stay _ fs.root, realpath_nil]
  · rw [map_step_ofPlace hplain hne, ← append_nil (place.map down), realpath_place h,
      realpath_nil]

omit h

lemma canonicalize_slash (h : fs.node place = some .file) :
    fs.canonicalize (ofPlace place ++ [[]]) = none := by
  have hplain : Plain place := fs.plain_of_node (h ▸ some_ne_none _)
  have hne : place ≠ [] := by
    rintro rfl
    cases fs.root.symm.trans h
  obtain ⟨name, rest, hcons⟩ := exists_cons_of_ne_nil hne
  have hform : ofPlace place ++ [[]] = [] :: name :: (rest ++ [[]]) := by
    rw [ofPlace, if_neg hne, hcons]
    rfl
  have hsteps : (ofPlace place ++ [[]]).map step = .stay :: (place.map down ++ [.stay]) := by
    rw [map_append, map_step_ofPlace hplain hne]
    rfl
  rw [canonicalize, hsteps, hform]
  show fs.realpath fs.maxLinks [] (.stay :: (place.map down ++ [.stay])) = none
  rw [realpath_place (.inr h), realpath_stay_of_file _ h]

variable (h : fs.node place = some .directory ∨ fs.node place = some .file)

include h

lemma symlinkMetadata_ofPlace (hplain : Plain (place ++ [name])) :
    fs.symlinkMetadata (.ofPlace (place ++ [name])) = fs.node (place ++ [name]) := by
  have hne : place ++ [name] ≠ [] := append_ne_nil_of_right_ne_nil _ (cons_ne_nil _ _)
  have hsteps : (ofPlace (place ++ [name])).map step =
      (stay :: (place.map down ++ [])) ++ [down name] := by
    rw [map_step_ofPlace hplain hne, map_append, append_nil]
    rfl
  rw [symlinkMetadata, isEmpty_ofPlace, if_neg Bool.false_ne_true, start,
    isAbsolute_ofPlace, if_pos rfl, lstat, hsteps, getLast?_concat]
  show (fs.realpath fs.maxLinks []
    ((stay :: (place.map down ++ [])) ++ [down name]).dropLast).bind _ = _
  rw [dropLast_concat, realpath_place h, realpath_nil, bind_some]

lemma isFile_ofPlace : fs.isFile (.ofPlace place) = true ↔ fs.node place = some .file := by
  rw [isFile, canonicalize_ofPlace h, bind_some, decide_eq_true_eq]

end FileSystem

/-- The check follows plain names to a file that is reached without a link. -/
lemma noSymlink_iff {fs : FileSystem} {root names : List Name}
    (hroot : fs.node root = some .directory ∨ fs.node root = some .file) (hnames : Plain names) :
    noSymlink fs root names = true ↔ fs.node (root ++ names) = some .file := by
  rw [noSymlink, components_of_plain hnames]
  induction names generalizing root with
  | nil => rw [map_nil, noSymlinkFrom, FileSystem.isFile_ofPlace hroot, append_nil]
  | cons name rest ih =>
    have hplain : Plain root := fs.plain_of_node (by
      rcases hroot with h | h
      · exact h ▸ some_ne_none _
      · exact h ▸ some_ne_none _)
    have hname : Plain [name] := fun other hother =>
      hnames other (mem_singleton.mp hother ▸ mem_cons_self)
    have hjoin : (ofPlace root).join (Component.normal name).path =
        .ofPlace (root ++ [name]) := join_ofPlace hplain hname (cons_ne_nil _ _)
    have happend : root ++ name :: rest = (root ++ [name]) ++ rest := by
      rw [append_assoc, singleton_append]
    rw [map_cons, noSymlinkFrom, hjoin,
      FileSystem.symlinkMetadata_ofPlace hroot (hplain.append hname), happend]
    have hrest : ∀ other ∈ rest, step other = .down other := fun other hother =>
      hnames other (mem_cons_of_mem _ hother)
    cases hnode : fs.node (root ++ [name]) with
    | none =>
      refine ⟨fun h => absurd h Bool.false_ne_true, fun h => ?_⟩
      have hprefix := fs.toFileTree.ne_none_of_append (h ▸ some_ne_none _)
      exact absurd hnode hprefix
    | some node =>
      cases node with
      | directory => exact ih (.inl hnode) hrest
      | file => exact ih (.inr hnode) hrest
      | link absolute steps =>
        refine ⟨fun h => absurd h Bool.false_ne_true, fun h => ?_⟩
        exact absurd hnode (fs.toFileTree.not_link_of_prefix h)

/-! ## Local paths -/

lemma notMem_replaceBackslashes (text : List Char) : '\\' ∉ replaceBackslashes text := by
  intro h
  obtain ⟨c, -, hc⟩ := List.mem_map.mp h
  split at hc
  · cases hc
  · exact absurd hc ‹_›

lemma replaceBackslashes_eq {text : List Char} (h : '\\' ∉ text) :
    replaceBackslashes text = text := by
  conv_rhs => rw [← List.map_id text]
  refine map_congr_left fun c hc => if_neg ?_
  rintro rfl
  exact h hc

lemma isText_of_mem_ofText {text : List Char} (htext : '\\' ∉ text)
    (h : name ∈ ofText text) : IsText name := by
  obtain ⟨part, hpart, rfl⟩ := List.mem_map.mp h
  exact ⟨part, rfl, fun hmem => htext (mem_of_mem_splitOn hpart hmem).1⟩

lemma exists_names_of_body (h : .parentDir ∉ names.filterMap bodyComponent) :
    ∃ inner, Plain inner ∧ (∀ name ∈ inner, name ∈ names) ∧
      names.filterMap bodyComponent = inner.map .normal := by
  induction names with
  | nil => exact ⟨[], nofun, fun _ hname => hname, rfl⟩
  | cons name names ih =>
    have hkeep : ∀ inner : List Name, (∀ other ∈ inner, other ∈ names) →
        ∀ other ∈ inner, other ∈ name :: names :=
      fun inner hinner other hother => mem_cons_of_mem _ (hinner other hother)
    cases hstep : step name with
    | stay =>
      have hbody : bodyComponent name = none := by rw [bodyComponent, hstep]
      rw [filterMap_cons_none hbody] at h ⊢
      obtain ⟨inner, hplain, hinner, heq⟩ := ih h
      exact ⟨inner, hplain, hkeep inner hinner, heq⟩
    | up =>
      have hbody : bodyComponent name = some .parentDir := by rw [bodyComponent, hstep]
      rw [filterMap_cons_some hbody] at h
      exact absurd mem_cons_self h
    | down other =>
      obtain rfl := eq_of_step hstep
      have hbody : bodyComponent other = some (.normal other) := by rw [bodyComponent, hstep]
      rw [filterMap_cons_some hbody] at h ⊢
      obtain ⟨inner, hplain, hinner, heq⟩ := ih fun hmem => h (mem_cons_of_mem _ hmem)
      refine ⟨other :: inner, fun name hname => ?_, fun name hname => ?_, by rw [heq]; rfl⟩
      · rcases mem_cons.mp hname with rfl | hname
        · exact hstep
        · exact hplain name hname
      · rcases mem_cons.mp hname with rfl | hname
        · exact mem_cons_self
        · exact hkeep inner hinner name hname

namespace RawPath

def ofNames (names : List Name) : RawPath := if names = [] then [[]] else names

lemma foldl_join_ofPlace {place names : List Name} (hplace : Plain place)
    (hnames : Plain names) :
    (names.map Component.normal).foldl (fun path component => path.join component.path)
      (ofPlace place) = ofPlace (place ++ names) := by
  induction names generalizing place with
  | nil => rw [map_nil, foldl_nil, append_nil]
  | cons name names ih =>
    have hname : Plain [name] := fun other hother =>
      hnames other (mem_singleton.mp hother ▸ mem_cons_self)
    have hjoin : (ofPlace place).join (Component.normal name).path = ofPlace (place ++ [name]) :=
      join_ofPlace hplace hname (cons_ne_nil _ _)
    rw [map_cons, foldl_cons, hjoin,
      ih (hplace.append hname) fun other hother => hnames other (mem_cons_of_mem _ hother),
      append_assoc, singleton_append]

lemma join_of_plain {names others : List Name} (hnames : Plain names) (hothers : Plain others)
    (hne : names ≠ []) : join names others = names ++ others := by
  have hempty : isEmpty names = false := by
    obtain ⟨name, rest, rfl⟩ := exists_cons_of_ne_nil hne
    cases name with
    | nil => exact absurd rfl (ne_of_step (hnames [] mem_cons_self)).1
    | cons byte name => rfl
  have hlast : names.getLast? ≠ some [] := fun hlast =>
    hnames.ne_nil (mem_of_getLast? hlast)
  rw [join, isAbsolute_of_plain hothers, hempty, Bool.or_false, if_neg Bool.false_ne_true,
    if_neg hlast]

lemma foldl_join_names {names others : List Name} (hnames : Plain names)
    (hothers : Plain others) (hne : names ≠ []) :
    (others.map Component.normal).foldl
      (fun (path : RawPath) component => path.join component.path) names =
      names ++ others := by
  induction others generalizing names with
  | nil => rw [map_nil, foldl_nil, append_nil]
  | cons name others ih =>
    have hname : Plain [name] := fun other hother =>
      hothers other (mem_singleton.mp hother ▸ mem_cons_self)
    have hjoin : join names (Component.normal name).path = names ++ [name] :=
      join_of_plain hnames hname hne
    rw [map_cons, foldl_cons, hjoin,
      ih (hnames.append hname) (fun other hother => hothers other (mem_cons_of_mem _ hother))
        (append_ne_nil_of_left_ne_nil hne _),
      append_assoc, singleton_append]

lemma collect_root (h : Plain names) :
    collect (.rootDir :: names.map .normal) = ofPlace names :=
  @foldl_join_ofPlace [] names (nofun) h

lemma collect_normal (h : Plain names) :
    collect (names.map .normal) = ofNames names := by
  cases names with
  | nil => rfl
  | cons name names =>
    have hname : Plain [name] := fun other hother =>
      h other (mem_singleton.mp hother ▸ mem_cons_self)
    have hfirst : join [[]] (Component.normal name).path = [name] :=
      if_pos (Bool.or_true _)
    rw [collect, map_cons, foldl_cons, hfirst, ofNames, if_neg (cons_ne_nil _ _)]
    exact foldl_join_names hname (fun other hother => h other (mem_cons_of_mem _ hother))
      (cons_ne_nil _ _)

end RawPath

lemma filter_normal (names : List Name) :
    (names.map Component.normal).filter (fun component => component ≠ .curDir) =
      names.map .normal := by
  refine filter_eq_self.mpr fun component hcomponent => ?_
  obtain ⟨name, -, rfl⟩ := List.mem_map.mp hcomponent
  exact decide_eq_true fun heq => nomatch heq

/-- A local path is made of texts, none of them a step up. -/
lemma exists_names_of_localPath {value : List Char} {uri : Bool} {path : RawPath}
    (h : localPath value uri = some path) :
    ∃ names, Plain names ∧ (∀ name ∈ names, IsText name) ∧
      (path = .ofPlace names ∨ path = .ofNames names) := by
  obtain ⟨text, -, h⟩ := bind_eq_some_iff.mp h
  split at h
  · cases h
  dsimp only at h
  split at h
  · cases h
  case isFalse hparent =>
    cases h
    have htext : ∀ name ∈ ofText (replaceBackslashes text), IsText name :=
      fun name hname => isText_of_mem_ofText (notMem_replaceBackslashes text) hname
    revert hparent htext
    cases ofText (replaceBackslashes text) with
    | nil =>
      intro hparent htext
      exact ⟨[], nofun,
        nofun, .inr rfl⟩
    | cons first rest =>
      intro hparent htext
      rw [components] at hparent ⊢
      by_cases hroot : first = [] ∧ rest ≠ []
      · rw [if_pos hroot] at hparent ⊢
        obtain ⟨names, hplain, hmem, hbody⟩ := exists_names_of_body fun hmem =>
          hparent (mem_cons_of_mem _ hmem)
        refine ⟨names, hplain,
          fun name hname => htext name (mem_cons_of_mem _ (hmem name hname)), .inl ?_⟩
        rw [hbody, filter_cons_of_pos rfl, filter_normal, collect_root hplain]
      · rw [if_neg hroot] at hparent ⊢
        by_cases hcur : first = [46]
        · rw [if_pos hcur] at hparent ⊢
          obtain ⟨names, hplain, hmem, hbody⟩ := exists_names_of_body fun hmem =>
            hparent (mem_cons_of_mem _ hmem)
          refine ⟨names, hplain,
            fun name hname => htext name (mem_cons_of_mem _ (hmem name hname)), .inr ?_⟩
          rw [hbody, filter_cons_of_neg (by decide), filter_normal, collect_normal hplain]
        · rw [if_neg hcur] at hparent ⊢
          obtain ⟨names, hplain, hmem, hbody⟩ := exists_names_of_body hparent
          refine ⟨names, hplain, fun name hname => htext name (hmem name hname), .inr ?_⟩
          rw [hbody, filter_normal, collect_normal hplain]

end Reposcout.TaskDiagnostics
