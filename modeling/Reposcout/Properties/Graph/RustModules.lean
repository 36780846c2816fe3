import Reposcout.Graph.RustModules

/-!
# What a Rust path denotes

A path is read from the crate root, from the current module or from the root of a workspace crate,
and any other first name is read from the crate root.  The resolver answers with the file of the
deepest module on the way that has one, however many segments of the path are left below it.
-/

namespace Reposcout.Graph

open List Option KeyedList

/-! ## Module paths -/

/-- The characters of a module path, each segment behind its separator. -/
def pathText (segments : List String) : List Char :=
  segments.flatMap fun segment => ':' :: ':' :: segment.toList

@[simp] lemma pathText_append (left right : List String) :
    pathText (left ++ right) = pathText left ++ pathText right :=
  flatMap_append

variable {segments : List String}

/-- The joined path, with one separator more. -/
lemma pathText_eq_cons (h : segments ≠ []) :
    pathText segments = ':' :: ':' :: ("::".intercalate segments).toList := by
  induction segments with
  | nil => exact absurd rfl h
  | cons first rest ih =>
    cases rest with
    | nil => simp [pathText]
    | cons second rest =>
      have hrest := ih (cons_ne_nil second rest)
      have hcons : pathText (first :: second :: rest) =
          ':' :: ':' :: (first.toList ++ pathText (second :: rest)) := by
        simp [pathText]
      rw [hcons, hrest, String.toList_intercalate, String.toList_intercalate]
      simp

variable {left right : List String}

lemma pathText_eq_of_intercalate (hleft : left ≠ []) (hright : right ≠ [])
    (h : "::".intercalate left = "::".intercalate right) : pathText left = pathText right := by
  rw [pathText_eq_cons hleft, pathText_eq_cons hright, h]

/-- A path without empty names is not joined to nothing. -/
lemma ne_nil_of_intercalate (hleft : left ≠ []) (hnames : "" ∉ left)
    (h : "::".intercalate left = "::".intercalate right) : right ≠ [] := by
  rintro rfl
  have htext := pathText_eq_cons hleft
  rw [h] at htext
  cases left with
  | nil => exact hleft rfl
  | cons first rest =>
    have hfirst : first.toList ≠ [] := by
      intro hempty
      apply hnames
      rw [mem_cons]
      exact .inl (String.toList_eq_nil_iff.mp hempty).symm
    simp [pathText, hfirst] at htext

/-! ## The index of the modules -/

namespace RustResolver

structure Indexed (resolver : RustResolver) : Prop where
  mem_modules : ∀ key target, (∃ targets, get? key resolver.modules = some targets ∧
    target ∈ targets) ↔ ∃ entry ∈ resolver.files, entry.1 = target ∧
      moduleKey entry.2.sourceRoot entry.2.module = key
  get?_files : ∀ entry ∈ resolver.files, get? entry.1 resolver.files = some entry.2

lemma get?_map_self {rustFiles : List String} (module : String → RustFileModule) {path : String}
    (h : path ∈ rustFiles) :
    get? path (rustFiles.map fun path => (path, module path)) = some (module path) := by
  induction rustFiles with
  | nil => cases h
  | cons other others ih =>
    show (if other = path then some (module other) else get? path _) = _
    by_cases hsame : other = path
    · rw [if_pos hsame, hsame]
    · rw [if_neg hsame]
      exact ih ((mem_cons.mp h).resolve_left fun heq => hsame heq.symm)

variable {target : String}

@[simp] lemma mem_orderedTargets {targets : List String} :
    target ∈ orderedTargets targets ↔ target ∈ targets := by
  unfold orderedTargets
  rw [mem_eraseReps, mem_sortBy]

variable (rustFiles : List String) (packages : List RustPackage)

lemma indexed_fromFiles : (fromFiles rustFiles packages).Indexed where
  mem_modules key target := by
    unfold fromFiles
    rw [get?_map, get?_groupBy]
    constructor
    · rintro ⟨targets, htargets, htarget⟩
      obtain ⟨found, hfound, rfl⟩ := map_eq_some_iff.mp htargets
      split_ifs at hfound with hkey
      cases hfound
      rw [mem_orderedTargets, mem_flatMap] at htarget
      obtain ⟨path, hpath, htarget⟩ := htarget
      obtain rfl := mem_singleton.mp htarget
      obtain ⟨hmem, hsame⟩ := mem_filter.mp hpath
      exact ⟨_, List.mem_map_of_mem hmem, rfl, of_decide_eq_true hsame⟩
    · rintro ⟨entry, hentry, rfl, hkey⟩
      obtain ⟨path, hpath, rfl⟩ := List.mem_map.mp hentry
      rw [if_pos (List.mem_map.mpr ⟨path, hpath, hkey⟩)]
      refine ⟨_, rfl, ?_⟩
      rw [mem_orderedTargets, mem_flatMap]
      exact ⟨path, mem_filter.mpr ⟨hpath, decide_eq_true hkey⟩, mem_singleton_self path⟩
  get?_files entry hentry := by
    obtain ⟨path, hpath, rfl⟩ := List.mem_map.mp hentry
    exact get?_map_self _ hpath

lemma addCrate_files (target : RustCrateTarget) (resolver : RustResolver) (name : String) :
    (addCrate target resolver name).files = resolver.files ∧
      (addCrate target resolver name).modules = resolver.modules := by
  unfold addCrate
  split_ifs <;> exact ⟨rfl, rfl⟩

/-- Registering crates leaves the files and their modules as they are. -/
lemma indexed_discover : (discover rustFiles packages).Indexed := by
  have hcrate : ∀ (target : RustCrateTarget) (names : List String) (resolver : RustResolver),
      resolver.Indexed → (names.foldl (addCrate target) resolver).Indexed := by
    intro target names resolver h
    refine List.foldlRecOn names _ h fun resolver h name _ => ?_
    obtain ⟨hfiles, hmodules⟩ := addCrate_files target resolver name
    exact ⟨by rw [hmodules, hfiles]; exact h.mem_modules, by rw [hfiles]; exact h.get?_files⟩
  refine List.foldlRecOn _ _ (indexed_fromFiles rustFiles _) fun resolver h package _ => ?_
  split_ifs
  · exact hcrate _ _ resolver h
  · exact h

/-! ## The deepest file on a path -/

variable {resolver : RustResolver}

/-- Some file is of the module of a path. -/
def NamesFile (resolver : RustResolver) (sourceRoot : String) (segments : List String) : Prop :=
  ∃ entry ∈ resolver.files,
    moduleKey entry.2.sourceRoot entry.2.module = moduleKey sourceRoot segments

instance (sourceRoot : String) (segments : List String) :
    Decidable (resolver.NamesFile sourceRoot segments) :=
  inferInstanceAs (Decidable (∃ _ ∈ _, _))

/-- The number of segments of a path up to the deepest one that names a file. -/
def fileDepth (resolver : RustResolver) (sourceRoot : String) (segments : List String) : ℕ :=
  Nat.findGreatest (fun length => 0 < length ∧ resolver.NamesFile sourceRoot (segments.take length))
    segments.length

variable {sourceRoot importerRel : String} {module : List String}

lemma Indexed.moduleTarget_some (h : resolver.Indexed)
    (htarget : resolver.moduleTarget sourceRoot module importerRel = some target) :
    ∃ entry ∈ resolver.files, entry.1 = target ∧
      moduleKey entry.2.sourceRoot entry.2.module = moduleKey sourceRoot module := by
  obtain ⟨targets, htargets, hchosen⟩ := bind_eq_some_iff.mp htarget
  refine (h.mem_modules _ target).mp ⟨targets, htargets, ?_⟩
  rcases or_eq_some_iff.mp hchosen with hfind | ⟨_, hhead⟩
  · exact mem_of_find?_eq_some hfind
  · exact mem_of_head? hhead

lemma Indexed.moduleTarget_none (h : resolver.Indexed)
    (htarget : resolver.moduleTarget sourceRoot module importerRel = none) :
    ¬ resolver.NamesFile sourceRoot module := by
  rintro ⟨entry, hentry, hkey⟩
  obtain ⟨targets, htargets, hmem⟩ := (h.mem_modules _ entry.1).mpr ⟨entry, hentry, rfl, hkey⟩
  unfold moduleTarget at htarget
  rw [htargets, bind_some, or_eq_none_iff] at htarget
  rw [head?_eq_none_iff.mp htarget.2] at hmem
  cases hmem

/-- The search goes down from a length to the deepest file. -/
lemma prefixTarget_spec (resolver : RustResolver) (sourceRoot : String) (module : List String) (importerRel : String)
    (bound : ℕ) :
    (∃ length target, resolver.prefixTarget sourceRoot module importerRel bound = some target ∧
        0 < length ∧ length ≤ bound ∧
        resolver.moduleTarget sourceRoot (module.take length) importerRel = some target ∧
        ∀ longer, length < longer → longer ≤ bound →
          resolver.moduleTarget sourceRoot (module.take longer) importerRel = none) ∨
      (resolver.prefixTarget sourceRoot module importerRel bound = none ∧
        ∀ length, 0 < length → length ≤ bound →
          resolver.moduleTarget sourceRoot (module.take length) importerRel = none) := by
  induction bound with
  | zero => exact .inr ⟨rfl, fun length hpos hle => by omega⟩
  | succ bound ih =>
    unfold prefixTarget
    cases htarget : resolver.moduleTarget sourceRoot (module.take (bound + 1)) importerRel with
    | some target =>
      exact .inl ⟨bound + 1, target, rfl, by omega, le_refl _, htarget,
        fun longer hlonger hle => by omega⟩
    | none =>
      have hlast : ∀ longer, bound < longer → longer ≤ bound + 1 →
          resolver.moduleTarget sourceRoot (module.take longer) importerRel = none := by
        intro longer hlonger hle
        obtain rfl : longer = bound + 1 := by omega
        exact htarget
      rcases ih with ⟨length, target, hfound, hpos, hle, hlength, hlonger⟩ | ⟨hnone, hall⟩
      · refine .inl ⟨length, target, hfound, hpos, by omega, hlength, fun longer hlt hbound => ?_⟩
        by_cases hmore : bound < longer
        · exact hlast longer hmore hbound
        · exact hlonger longer hlt (by omega)
      · refine .inr ⟨hnone, fun length hpos hbound => ?_⟩
        by_cases hmore : bound < length
        · exact hlast length hmore hbound
        · exact hall length hpos (by omega)

/-- **The search finds a file of the deepest module on the path that has one.** -/
lemma Indexed.resolveModulePrefix_some (h : resolver.Indexed)
    (htarget : resolver.resolveModulePrefix sourceRoot module importerRel = some target) :
    0 < resolver.fileDepth sourceRoot module ∧ ∃ entry ∈ resolver.files, entry.1 = target ∧
      moduleKey entry.2.sourceRoot entry.2.module =
        moduleKey sourceRoot (module.take (resolver.fileDepth sourceRoot module)) := by
  rcases prefixTarget_spec resolver sourceRoot module importerRel module.length with
    ⟨length, found, hfound, hpos, hle, hlength, hlonger⟩ | ⟨hnone, _⟩
  · cases hfound.symm.trans htarget
    obtain ⟨entry, hentry, hpath, hkey⟩ := h.moduleTarget_some hlength
    have hdepth : resolver.fileDepth sourceRoot module = length := by
      unfold fileDepth
      rw [Nat.findGreatest_eq_iff]
      refine ⟨hle, fun _ => ⟨hpos, entry, hentry, hkey⟩, fun longer hlt hbound hnames => ?_⟩
      exact h.moduleTarget_none (hlonger longer hlt hbound) hnames.2
    rw [hdepth]
    exact ⟨hpos, entry, hentry, hpath, hkey⟩
  · unfold resolveModulePrefix at htarget
    rw [hnone] at htarget
    cases htarget

lemma Indexed.resolveModulePrefix_none (h : resolver.Indexed)
    (hnone : resolver.resolveModulePrefix sourceRoot module importerRel = none) :
    (∀ length, 0 < length → length ≤ module.length →
        ¬ resolver.NamesFile sourceRoot (module.take length)) ∧
      resolver.fileDepth sourceRoot module = 0 := by
  have hall : ∀ length, 0 < length → length ≤ module.length →
      ¬ resolver.NamesFile sourceRoot (module.take length) := by
    rcases prefixTarget_spec resolver sourceRoot module importerRel module.length
      with ⟨length, found, hfound, _⟩ | ⟨_, hall⟩
    · unfold resolveModulePrefix at hnone
      rw [hfound] at hnone
      cases hnone
    · exact fun length hpos hle => h.moduleTarget_none (hall length hpos hle)
  refine ⟨hall, ?_⟩
  unfold fileDepth
  rw [Nat.findGreatest_eq_zero_iff]
  exact fun length hpos hle hnames => hall length hpos hle hnames.2

/-! ## What a path denotes -/

/-- **What a path denotes:** the source root it is read from and the segments from there.  A crate
by itself is the module of its root file, and a path with an empty name denotes nothing. -/
def denoted (resolver : RustResolver) (file : RustFileModule)
    (inlineModules segments : List String) : Option (String × List String) :=
  (match segments with
    | [] => none
    | first :: rest =>
      if first = "crate" then some (file.sourceRoot, rest)
      else if first = "super" then
        let popped := RustUseCursor.popSupers (file.module ++ inlineModules) (first :: rest)
        some (file.sourceRoot, popped.1 ++ popped.2)
      else if first = "self" then some (file.sourceRoot, file.module ++ inlineModules ++ rest)
      else if first ∈ resolver.ambiguousCrates then none
      else
        match get? first resolver.crates with
        | none => some (file.sourceRoot, first :: rest)
        | some target =>
          if rest = [] then
            (get? target.rootFile resolver.files).map fun file : RustFileModule =>
              (file.sourceRoot, file.module)
          else some (target.sourceRoot, rest)).filter fun place => "" ∉ place.2

/-- The source root of a file, or of a crate whose root file it is. -/
def SourceRootOf (resolver : RustResolver) (path sourceRoot : String) : Prop :=
  (∃ module ∈ get? path resolver.files, module.sourceRoot = sourceRoot) ∨
    ∃ entry ∈ resolver.crates, entry.2.rootFile = path ∧ entry.2.sourceRoot = sourceRoot

instance (path sourceRoot : String) : Decidable (resolver.SourceRootOf path sourceRoot) :=
  inferInstanceAs (Decidable (_ ∨ _))

def LeadsTo (importerRel : String) (answer : ImportResolution) (target : String) : Prop :=
  (∃ name, answer = .resolved target name) ∨ (answer = .sameFile ∧ target = importerRel)

/-- What the answer to a path says about the file it leads to: the deepest file on the path. -/
structure DeepestFile (resolver : RustResolver) (place : String × List String) (target : String) :
    Prop where
  sourceRoot : resolver.SourceRootOf target place.1
  module : ∃ module, get? target resolver.files = some module ∧
    pathText (place.2.take (resolver.fileDepth place.1 place.2)) = pathText module.module

lemma fileDepth_le (sourceRoot : String) (segments : List String) :
    resolver.fileDepth sourceRoot segments ≤ segments.length := Nat.findGreatest_le _

/-- A file of exactly the module of a path is the deepest one. -/
lemma fileDepth_eq_length (h : resolver.NamesFile sourceRoot segments) :
    resolver.fileDepth sourceRoot segments = segments.length := by
  rcases Nat.eq_zero_or_pos segments.length with hzero | hpos
  · have := resolver.fileDepth_le sourceRoot segments
    omega
  · apply Nat.le_antisymm (resolver.fileDepth_le sourceRoot segments)
    refine Nat.le_findGreatest (le_refl _) ⟨hpos, ?_⟩
    rw [take_length]
    exact h

/-- What the search of a path needs if the item may be in the file itself. -/
structure ItemScope (resolver : RustResolver) (importerRel : String) (search : RustUseSearch) :
    Prop where
  sourceRoot : resolver.SourceRootOf importerRel search.sourceRoot
  module : ∃ file, get? importerRel resolver.files = some file ∧
    file.module <+: search.module ∧ (file.module = [] ∨ file.sourceRoot = search.sourceRoot)

variable {search : RustUseSearch}

lemma Indexed.finishUseResolution_leadsTo (h : resolver.Indexed) (hnames : "" ∉ search.module)
    (hscope : search.fileLocalScope = true → resolver.ItemScope importerRel search)
    (htarget : LeadsTo importerRel (resolver.finishUseResolution importerRel search) target) :
    resolver.DeepestFile (search.sourceRoot, search.module) target := by
  unfold finishUseResolution at htarget
  cases hfound : resolver.resolveModulePrefix search.sourceRoot search.module importerRel with
  | some found =>
    rw [hfound] at htarget
    dsimp only at htarget
    obtain rfl : target = found := by
      rcases htarget with ⟨name, hname⟩ | ⟨hsame, rfl⟩
      · split_ifs at hname
        exact (ImportResolution.resolved.inj hname).1.symm
      · split_ifs at hsame with heq
        exact heq.symm
    obtain ⟨hpos, entry, hentry, rfl, hkey⟩ := h.resolveModulePrefix_some hfound
    have hfile := h.get?_files entry hentry
    refine ⟨.inl ⟨entry.2, hfile, congrArg Prod.fst hkey⟩, entry.2, hfile, ?_⟩
    have hle := resolver.fileDepth_le search.sourceRoot search.module
    have hne : search.module.take (resolver.fileDepth search.sourceRoot search.module) ≠ [] := by
      rw [← length_pos_iff, length_take]
      omega
    have hjoined := (congrArg Prod.snd hkey).symm
    exact pathText_eq_of_intercalate hne
      (ne_nil_of_intercalate hne (fun hmem => hnames (mem_of_mem_take hmem)) hjoined) hjoined
  | none =>
    rw [hfound] at htarget
    -- Without a file on the path the answer leads to the file itself, which is a crate root.
    obtain ⟨hlocal, rfl⟩ : search.fileLocalScope = true ∧ target = importerRel := by
      rcases htarget with ⟨name, hname⟩ | ⟨hsame, rfl⟩
      · split_ifs at hname
      · split_ifs at hsame with hlocal
        exact ⟨hlocal, rfl⟩
    obtain ⟨hroot, file, hfile, hmodule, hsource⟩ := hscope hlocal
    obtain ⟨hnone, hdepth⟩ := h.resolveModulePrefix_none hfound
    refine ⟨hroot, file, hfile, ?_⟩
    rw [hdepth, take_zero]
    rcases hsource with hempty | hsource
    · rw [hempty]
    · by_cases hempty : file.module = []
      · rw [hempty]
      · refine absurd ⟨(target, file), mem_of_get? hfile, ?_⟩
          (hnone file.module.length (length_pos_iff.mpr hempty) hmodule.length_le)
        rw [← prefix_iff_eq_take.mp hmodule, hsource]

variable {file : RustFileModule} {cursor : RustUseCursor}

lemma module_of_itemOfFile (h : cursor.itemOfFile file = true) : file.module <+: cursor.module := by
  unfold RustUseCursor.itemOfFile at h
  rw [Bool.and_eq_true] at h
  exact isPrefixOf_iff_prefix.mp h.2

lemma itemScope_of_itemOfFile (hfile : get? importerRel resolver.files = some file)
    (hlocal : cursor.itemOfFile file = true) (hroot : file.sourceRoot = search.sourceRoot)
    (hmodule : cursor.module <+: search.module) : resolver.ItemScope importerRel search :=
  ⟨.inl ⟨file, hfile, hroot⟩, file, hfile, (module_of_itemOfFile hlocal).trans hmodule,
    Or.inr hroot⟩

/-- **The answer to a path leads to the deepest file on what the path denotes.** -/
lemma Indexed.resolveUse_leadsTo (h : resolver.Indexed) {path : String}
    (hfile : get? importerRel resolver.files = some file)
    {inlineModules : List String} {place : String × List String}
    (hplace : resolver.denoted file inlineModules (pathSegments path) = some place)
    (htarget : LeadsTo importerRel (resolver.resolveUse importerRel file path inlineModules)
      target) : resolver.DeepestFile place target := by
  obtain ⟨hplace, hnames⟩ := filter_eq_some_iff.mp hplace
  have hnames : "" ∉ place.2 := of_decide_eq_true hnames
  unfold resolveUse at htarget
  cases hsegments : pathSegments path with
  | nil =>
    rw [hsegments] at hplace
    cases hplace
  | cons first rest =>
    rw [hsegments, if_neg (cons_ne_nil first rest)] at htarget
    rw [hsegments] at hplace
    dsimp only at hplace
    unfold prepareUse at htarget
    dsimp only at htarget
    by_cases hcrate : first = "crate"
    · rw [if_pos hcrate] at htarget hplace
      cases hplace
      exact h.finishUseResolution_leadsTo hnames
        (fun hlocal => itemScope_of_itemOfFile hfile hlocal rfl (prefix_append _ _)) htarget
    rw [if_neg hcrate] at htarget hplace
    by_cases hsuper : first = "super"
    · rw [if_pos hsuper] at htarget hplace
      cases hplace
      exact h.finishUseResolution_leadsTo hnames
        (fun hlocal => itemScope_of_itemOfFile hfile hlocal rfl (prefix_append _ _)) htarget
    rw [if_neg hsuper] at htarget hplace
    by_cases hself : first = "self"
    · rw [if_pos hself] at htarget hplace
      cases hplace
      exact h.finishUseResolution_leadsTo hnames
        (fun hlocal => itemScope_of_itemOfFile hfile hlocal rfl (prefix_append _ _)) htarget
    rw [if_neg hself] at htarget hplace
    unfold prepareNamedUse at htarget
    by_cases hambiguous : first ∈ resolver.ambiguousCrates
    · rw [if_pos hambiguous] at hplace
      cases hplace
    rw [if_neg hambiguous] at htarget hplace
    cases hcrates : get? first resolver.crates with
    | none =>
      rw [hcrates] at htarget hplace
      cases hplace
      exact h.finishUseResolution_leadsTo hnames (fun hlocal => by cases hlocal) htarget
    | some crateTarget =>
      rw [hcrates] at htarget hplace
      dsimp only [RustUseCursor.new, tail_cons] at htarget hplace
      have hcrate := mem_of_get? hcrates
      by_cases hrest : rest = []
      · -- A crate by itself leads to its root file.
        rw [if_pos (List.isEmpty_iff.mpr hrest)] at htarget
        rw [if_pos hrest] at hplace
        obtain ⟨module, hmodule, rfl⟩ := map_eq_some_iff.mp hplace
        obtain rfl : target = crateTarget.rootFile := by
          split_ifs at htarget with hown
          · rcases htarget with ⟨name, hname⟩ | ⟨_, rfl⟩
            · cases hname
            · exact hown.symm
          · rcases htarget with ⟨name, hname⟩ | ⟨hsame, _⟩
            · exact (ImportResolution.resolved.inj hname).1.symm
            · cases hsame
        refine ⟨.inl ⟨module, hmodule, rfl⟩, module, hmodule, ?_⟩
        rw [fileDepth_eq_length ⟨_, mem_of_get? hmodule, rfl⟩, take_length]
      · rw [if_neg (fun hempty => hrest (List.isEmpty_iff.mp hempty))] at htarget
        rw [if_neg hrest] at hplace
        cases hplace
        refine h.finishUseResolution_leadsTo hnames (fun hlocal => ?_) htarget
        obtain ⟨hown, hitem⟩ := Bool.and_eq_true_iff.mp hlocal
        have hroot : file.module = [] := prefix_nil.mp (module_of_itemOfFile hitem)
        refine ⟨.inr ⟨_, hcrate, of_decide_eq_true hown, rfl⟩, file, hfile, ?_, .inl hroot⟩
        rw [hroot]
        exact nil_prefix

end RustResolver

end Reposcout.Graph
