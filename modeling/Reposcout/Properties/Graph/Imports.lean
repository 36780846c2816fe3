import Reposcout.Properties.Graph.Paths
import Reposcout.Properties.Graph.RustModules

/-!
# Relative imports stay in the repository

Normalising drops a `..` at the root.  An import that leaves the repository is therefore looked for
at another place, and is resolved if a file of the graph happens to lie there.
-/

namespace Reposcout.Graph

open PathStep List Option KeyedList ImportResolution

/-! ## What an import names -/

structure GraphPath where
  names : List String
  plain : ∀ name ∈ names, PlainName name
  nonempty : names ≠ []

namespace GraphPath

variable (path : GraphPath)

def text : String := placeText path.names

def directory : List String := path.names.dropLast

lemma plain_directory : ∀ name ∈ path.directory, PlainName name :=
  fun name h => path.plain name (dropLast_subset _ h)

lemma pathParent_text : pathParent path.text = placeText path.directory := by
  rw [pathParent, text, splitSlash_placeText path.nonempty path.plain]
  rfl

end GraphPath

/-- What an import names: some steps from a directory, and the files that the rules of the language
accept for the place they lead to. -/
structure Lookup where
  directory : List String
  steps : List (PathStep String)
  accepts : String → String → Prop

namespace Lookup

/-- The place that is named, absent if it is not in the repository. -/
def place (lookup : Lookup) : Option (List String) := walk lookup.directory lookup.steps

def Names (lookup : Lookup) (file : String) : Prop :=
  ∃ place, lookup.place = some place ∧ lookup.accepts (placeText place) file

/-- The place with the steps out of the repository dropped. -/
def clamped (lookup : Lookup) : String := placeText (clamp lookup.directory lookup.steps)

/-- None of some files is at the clamped place. -/
def Misses (lookup : Lookup) (files : List String) : Prop :=
  ∀ file ∈ files, ¬lookup.accepts lookup.clamped file

/-- The place is in the repository, or nothing is at the clamped place. -/
def StaysOrMisses (lookup : Lookup) (files : List String) : Prop :=
  lookup.place ≠ none ∨ lookup.Misses files

lemma clamped_of_place {lookup : Lookup} {place : List String} (h : lookup.place = some place) :
    lookup.clamped = placeText place := by
  rw [clamped, clamp_of_walk h]

end Lookup

/-- **Imports that leave the repository resolve to nothing, the others only to what they name.** -/
structure Contained (lookups : List Lookup) (resolutions : List ImportResolution) : Prop where
  outside : (∀ lookup, lookups.head? = some lookup → lookup.place = none) →
    ∀ target resolver, .resolved target resolver ∉ resolutions
  inside : ∀ target resolver, .resolved target resolver ∈ resolutions →
    ∃ lookup ∈ lookups, lookup.Names target

lemma contained_singleton_iff {lookup : Lookup} {Missed : Prop}
    {resolutions : List ImportResolution}
    (hsound : ∀ target resolver, .resolved target resolver ∈ resolutions →
      lookup.accepts lookup.clamped target)
    (hmissed : lookup.place = none →
      ((∃ target resolver, .resolved target resolver ∈ resolutions) ↔ ¬Missed)) :
    Contained [lookup] resolutions ↔ lookup.place ≠ none ∨ Missed := by
  constructor
  · intro h
    by_cases hplace : lookup.place = none
    · refine .inr (by_contra fun hfound => ?_)
      obtain ⟨target, resolver, hmem⟩ := (hmissed hplace).mpr hfound
      refine h.outside ?_ target resolver hmem
      intro other hother
      cases hother
      exact hplace
    · exact .inl hplace
  · intro h
    by_cases hplace : lookup.place = none
    · have hnone : ∀ target resolver, .resolved target resolver ∉ resolutions := by
        intro target resolver hmem
        exact (hmissed hplace).mp ⟨target, resolver, hmem⟩
          (h.resolve_left (not_not.mpr hplace))
      exact ⟨fun _ => hnone, fun target resolver hmem => absurd hmem (hnone target resolver)⟩
    · refine ⟨fun hnone => absurd (hnone lookup rfl) hplace, fun target resolver hmem => ?_⟩
      obtain ⟨place, hsome⟩ := ne_none_iff_exists'.mp hplace
      refine ⟨lookup, mem_singleton_self _, place, hsome, ?_⟩
      rw [← Lookup.clamped_of_place hsome]
      exact hsound target resolver hmem

lemma contained_find_iff {lookup : Lookup} {candidates files : List String}
    {resolution : ImportResolution} (name : String)
    (haccepts : ∀ file, lookup.accepts lookup.clamped file ↔ file ∈ candidates)
    (hresolution : ∀ target resolver, resolution = .resolved target resolver ↔
      resolver = name ∧ candidates.find? (· ∈ files) = some target) :
    Contained [lookup] [resolution] ↔ lookup.StaysOrMisses files := by
  refine contained_singleton_iff ?_ fun _ => ?_
  · intro target resolver hmem
    obtain ⟨_, hfind⟩ := (hresolution target resolver).mp (mem_singleton.mp hmem).symm
    exact (haccepts target).mpr (mem_of_find?_eq_some hfind)
  · simp only [mem_singleton]
    constructor
    · rintro ⟨target, resolver, hmem⟩ hfiles
      obtain ⟨_, hfind⟩ := (hresolution target resolver).mp hmem.symm
      have hfile : target ∈ files := by simpa using find?_some hfind
      exact hfiles target hfile ((haccepts target).mpr (mem_of_find?_eq_some hfind))
    · intro hfiles
      simp only [Lookup.Misses, haccepts, not_forall, not_not] at hfiles
      obtain ⟨file, hfile, hcandidate⟩ := hfiles
      have hsome : (candidates.find? (· ∈ files)).isSome := by
        rw [find?_isSome]
        exact ⟨file, hcandidate, by simpa using hfile⟩
      obtain ⟨target, hfind⟩ := isSome_iff_exists.mp hsome
      exact ⟨target, name, ((hresolution target name).mpr ⟨rfl, hfind⟩).symm⟩

/-! ## JavaScript -/

section

variable (importer : GraphPath)

def jsLookup (spec : String) : Lookup where
  directory := importer.directory
  steps := pathSteps spec
  accepts place file := file ∈ jsCandidates place

variable {spec : String} {nodes : List String} {target : String}

lemma resolveRelativeImport_eq_resolved_iff {resolver : String} :
    resolveRelativeImport importer.text spec nodes = .resolved target resolver ↔
      resolver = "relative" ∧
        (jsCandidates (jsLookup importer spec).clamped).find? (· ∈ nodes) = some target := by
  have hjoined : normalizePath (if pathParent importer.text = "" then spec
      else pathParent importer.text ++ "/" ++ spec) = (jsLookup importer spec).clamped := by
    rw [importer.pathParent_text]
    split_ifs with hempty
    · rw [placeText_eq_empty_iff importer.plain_directory] at hempty
      simp only [Lookup.clamped, jsLookup, hempty, normalizePath_eq]
    · have hne := mt (placeText_eq_empty_iff importer.plain_directory).mpr hempty
      exact normalizePath_join hne importer.plain_directory spec
  simp only [resolveRelativeImport, hjoined, tryResolveJs]
  cases hfind : (jsCandidates (jsLookup importer spec).clamped).find? (· ∈ nodes) with
  | none => simp
  | some found =>
    simp only [resolved.injEq, some.injEq]
    exact ⟨fun ⟨htarget, hname⟩ => ⟨hname.symm, htarget⟩,
      fun ⟨hname, htarget⟩ => ⟨htarget, hname.symm⟩⟩

/-- **When a JavaScript import stays in the repository.** -/
lemma javascript_contained_iff (resolver : JsResolver) (hrelative : isDotSpecifier spec)
    (nodes : List String) :
    Contained [jsLookup importer spec] [resolver.resolve importer.text spec nodes] ↔
      isJsNonGraphSpecifier spec ∨ (jsLookup importer spec).StaysOrMisses nodes := by
  by_cases hgraph : isJsNonGraphSpecifier spec
  · have hresolve : resolver.resolve importer.text spec nodes = .nonGraph := by
      rw [JsResolver.resolve, if_pos hgraph]
    rw [hresolve]
    refine ⟨fun _ => .inl hgraph, fun _ => ⟨fun _ _ _ => ?_, fun _ _ => ?_⟩⟩ <;> simp
  · have hresolve : resolver.resolve importer.text spec nodes =
        resolveRelativeImport importer.text spec nodes := by
      rw [JsResolver.resolve, if_neg hgraph, if_pos hrelative]
    rw [hresolve, or_iff_right hgraph]
    apply contained_find_iff "relative" (fun _ => Iff.rfl)
    exact fun _ _ => resolveRelativeImport_eq_resolved_iff importer

/-! ## Rust -/

def rustLookup (path : String) : Lookup where
  directory := importer.directory
  steps := pathSteps path
  accepts place file := file = place

open RustResolver

variable {path : String}

lemma isSome_get?_discover {rustFiles : List String} {packages : List RustPackage} :
    (get? path (discover rustFiles packages).files).isSome ↔
      path ∈ rustFiles := by
  have hcrates : ∀ (target : RustCrateTarget) (names : List String) (resolver : RustResolver),
      (names.foldl (addCrate target) resolver).files = resolver.files := by
    intro target names
    induction names with
    | nil => exact fun _ => rfl
    | cons name names ih =>
      intro resolver
      rw [foldl_cons, ih, (addCrate_files target resolver name).1]
  have hpackages : ∀ (packages : List RustPackage) (resolver : RustResolver),
      (packages.foldl (fun resolver package =>
        if package.libPath ∈ rustFiles then
          package.names.foldl
            (addCrate ⟨pathParent package.libPath, package.libPath⟩) resolver
        else resolver) resolver).files = resolver.files := by
    intro packages
    induction packages with
    | nil => exact fun _ => rfl
    | cons package packages ih =>
      intro resolver
      rw [foldl_cons, ih]
      split_ifs
      · exact hcrates _ _ resolver
      · rfl
  have hfiles : ∃ module : String → RustFileModule,
      (discover rustFiles packages).files =
        rustFiles.map fun path => (path, module path) := ⟨_, hpackages _ _⟩
  obtain ⟨module, hmodule⟩ := hfiles
  have hkeys : keys (rustFiles.map fun path => (path, module path)) = rustFiles := by
    simp [KeyedList.keys, Function.comp_def]
  rw [hmodule, isSome_iff_ne_none, ne_eq, get?_eq_none_iff, not_not, hkeys]

/-- **When a Rust module with a path stays in the repository.** -/
lemma rust_contained_iff (rustFiles : List String) (packages : List RustPackage)
    (name path : String) (inlineModules nodes : List String) :
    Contained [rustLookup importer path] [(RustResolver.discover rustFiles packages).resolveImport
        importer.text (.module name (some path) inlineModules) nodes] ↔
      importer.text ∉ rustFiles ∨ (rustLookup importer path).StaysOrMisses nodes := by
  have htarget : normalizePath (joinGraphPath (pathParent importer.text) path) =
      (rustLookup importer path).clamped := by
    rw [importer.pathParent_text, joinGraphPath_eq importer.plain_directory,
      normalizePath_placeText (plain_clamp importer.plain_directory path)]
    rfl
  cases hfile : get? importer.text (discover rustFiles packages).files with
  | none =>
    have hnot : importer.text ∉ rustFiles := by
      rw [← isSome_get?_discover, hfile]
      simp
    simp only [resolveImport, hfile]
    refine ⟨fun _ => .inl hnot, fun _ => ⟨fun _ _ _ => ?_, fun _ _ => ?_⟩⟩ <;> simp
  | some file =>
    have hmem : importer.text ∈ rustFiles := by
      rw [← isSome_get?_discover, hfile]
      rfl
    rw [or_iff_right (not_not.mpr hmem)]
    have haccepts : ∀ target, (rustLookup importer path).accepts
        (rustLookup importer path).clamped target ↔
        target ∈ [(rustLookup importer path).clamped] := by
      intro target
      rw [mem_singleton]
      rfl
    apply contained_find_iff "rust-path" haccepts
    intro target resolver
    simp only [resolveImport, hfile, htarget]
    by_cases hnode : (rustLookup importer path).clamped ∈ nodes
    · rw [if_pos hnode, find?_singleton, decide_eq_true hnode, if_pos rfl]
      simp only [resolved.injEq, some.injEq]
      exact ⟨fun h => ⟨h.2.symm, h.1⟩, fun h => ⟨h.2, h.1.symm⟩⟩
    · simp [hnode]

/-! ## Go -/

def goLookup (package : String) : Lookup where
  directory := importer.directory
  steps := pathSteps package
  accepts place file := pathParent file = place

lemma goRepresentative_of_mem (directory : String) {paths : List String} (h : path ∈ paths) :
    ∃ found, goRepresentative directory paths = some found := by
  refine ne_none_iff_exists'.mp fun hnone => ?_
  rw [← mem_sortBy, head?_eq_none_iff.mp hnone] at h
  cases h

lemma get?_discoverPackages (goFiles : List String) (directory : String) :
    (∀ target, get? directory (GoResolver.discoverPackages goFiles) = some target →
      pathParent target = directory) ∧
    ((get? directory (GoResolver.discoverPackages goFiles)).isSome ↔
      ∃ file ∈ goFiles, pathParent file = directory) := by
  have hnodup : (keys
      (groupBy pathParent (fun path => [path]) goFiles)).Nodup :=
    nodup_keys_groupBy _ _ _
  have hentry : ∀ entry, entry ∈ groupBy pathParent (fun path => [path]) goFiles ↔
      entry.1 ∈ goFiles.map pathParent ∧
        entry.2 = goFiles.filter fun file => pathParent file = entry.1 := by
    intro entry
    have hget := get?_groupBy pathParent (fun path : String => [path]) goFiles entry.1
    rw [show entry = (entry.1, entry.2) from rfl, ← get?_eq_some_iff hnodup, hget]
    simp [eq_comm]
  have hrepresentative : ∀ target paths, goRepresentative directory paths = some target →
      target ∈ paths := by
    intro target paths h
    have hmem := mem_of_mem_head? h
    rwa [mem_sortBy] at hmem
  constructor
  · intro target hget
    obtain ⟨entry, hmem, htarget⟩ := mem_filterMap.mp (mem_of_get? hget)
    obtain ⟨found, hfound, heq⟩ := map_eq_some_iff.mp htarget
    cases heq
    have hpaths := hrepresentative _ _ hfound
    rw [((hentry entry).mp hmem).2] at hpaths
    exact of_decide_eq_true (mem_filter.mp hpaths).2
  · rw [isSome_iff_ne_none, ne_eq, get?_eq_none_iff, not_not]
    constructor
    · intro hkey
      obtain ⟨item, hitem, rfl⟩ := mem_map.mp hkey
      obtain ⟨entry, hmem, htarget⟩ := mem_filterMap.mp hitem
      obtain ⟨found, hfound, rfl⟩ := map_eq_some_iff.mp htarget
      obtain ⟨file, hfile, hparent⟩ := mem_map.mp ((hentry entry).mp hmem).1
      exact ⟨file, hfile, hparent⟩
    · rintro ⟨file, hfile, rfl⟩
      have hmem := (hentry (pathParent file, goFiles.filter fun other =>
        pathParent other = pathParent file)).mpr ⟨mem_map_of_mem hfile, rfl⟩
      have hpath : file ∈ goFiles.filter fun other => pathParent other = pathParent file :=
        mem_filter.mpr ⟨hfile, decide_eq_true rfl⟩
      obtain ⟨found, hfound⟩ := goRepresentative_of_mem (pathParent file) hpath
      refine mem_map.mpr ⟨(pathParent file, found), mem_filterMap.mpr ⟨_, hmem, ?_⟩, rfl⟩
      simp [hfound]

/-- **When a relative Go package stays in the repository.** -/
lemma go_contained_iff (goFiles : List String) (other : String → ImportResolution)
    {package : String} (hrelative : isDotSpecifier package) :
    Contained [goLookup importer package]
        [GoResolver.resolve ⟨GoResolver.discoverPackages goFiles, other⟩ importer.text package] ↔
      (goLookup importer package).StaysOrMisses goFiles := by
  have hdirectory : normalizePath (joinGraphPath (pathParent importer.text) package) =
      (goLookup importer package).clamped := by
    rw [importer.pathParent_text, joinGraphPath_eq importer.plain_directory,
      normalizePath_placeText (plain_clamp importer.plain_directory package)]
    rfl
  obtain ⟨hsound, hsome⟩ :=
    get?_discoverPackages goFiles (goLookup importer package).clamped
  have hmisses : (goLookup importer package).Misses goFiles ↔
      ¬∃ file ∈ goFiles, pathParent file = (goLookup importer package).clamped := by
    simp only [not_exists, not_and]
    rfl
  simp only [GoResolver.resolve, if_pos hrelative, hdirectory]
  cases hget : get? (goLookup importer package).clamped
      (GoResolver.discoverPackages goFiles) with
  | none =>
    rw [hget] at hsome
    refine contained_singleton_iff ?_ fun _ => ?_
    · simp
    · rw [hmisses, not_not, ← hsome]
      simp
  | some target =>
    rw [hget] at hsome
    refine contained_singleton_iff ?_ fun _ => ?_
    · intro found resolver hmem
      obtain ⟨rfl, rfl⟩ := resolved.inj (mem_singleton.mp hmem)
      exact hsound _ hget
    · rw [hmisses, not_not, ← hsome]
      simp

/-! ## Python -/

/-- The steps of a specifier: up for each dot but the first, then down. -/
def pythonSteps (spec : String) : List (PathStep String) :=
  List.replicate (pythonLevel spec - 1) .up ++ (pythonRemainder spec).map .down

def pythonLookup (spec : String) : Lookup where
  directory := importer.directory
  steps := pythonSteps spec
  accepts place file := file ∈ relativeCandidates spec place

lemma pythonRelativeBase_eq (spec : String) :
    pythonRelativeBase importer.text spec = (pythonLookup importer spec).clamped := by
  have hplain : ∀ name ∈ clamp importer.directory (replicate (pythonLevel spec - 1) .up),
      PlainName name := by
    refine forall_mem_clamp importer.plain_directory fun name hmem => ?_
    cases eq_of_mem_replicate hmem
  have hclamped : (pythonLookup importer spec).clamped = placeText
      (clamp importer.directory (replicate (pythonLevel spec - 1) .up) ++
        pythonRemainder spec) := by
    rw [Lookup.clamped, pythonLookup, pythonSteps, clamp_append, clamp_map_down]
  rw [hclamped, pythonRelativeBase, importer.pathParent_text, goUp_eq importer.plain_directory]
  simp only [placeText_eq_empty_iff hplain]
  split_ifs with hstart hremainder
  · rw [hstart, nil_append]
    rfl
  · rw [hremainder, append_nil]
  · rw [placeText_append hstart hremainder]
    rfl

variable (resolver : PythonResolver)

lemma python_resolve_eq_resolved_iff
    (hrelative : hasPrefix spec ".") {name : String} :
    resolver.resolve importer.text spec nodes = .resolved target name ↔
      name = "python-relative" ∧ (relativeCandidates spec (pythonLookup importer spec).clamped).find?
        (· ∈ nodes) = some target := by
  rw [PythonResolver.resolve, if_pos hrelative, resolvePy, if_pos hrelative, pythonRelativeBase_eq]
  cases hfind : (relativeCandidates spec (pythonLookup importer spec).clamped).find?
      (· ∈ nodes) with
  | none =>
    split_ifs <;> simp
  | some found =>
    simp only [resolved.injEq, some.injEq]
    exact ⟨fun ⟨htarget, hname⟩ => ⟨hname.symm, htarget⟩,
      fun ⟨hname, htarget⟩ => ⟨htarget, hname.symm⟩⟩

/-- **When a relative Python module stays in the repository.** -/
lemma python_contained_iff (hrelative : hasPrefix spec ".") (nodes : List String) :
    Contained [pythonLookup importer spec] [resolver.resolve importer.text spec nodes] ↔
      (pythonLookup importer spec).StaysOrMisses nodes := by
  apply contained_find_iff "python-relative" (fun _ => Iff.rfl)
  exact fun _ _ => python_resolve_eq_resolved_iff importer resolver hrelative

/-! ### Imports of names from a module -/

structure PythonName (name : String) : Prop where
  not_empty : name ≠ ""
  not_dot : '.' ∉ name.toList
  not_slash : '/' ∉ name.toList

variable {name : String}

lemma PythonName.plain (h : PythonName name) : PlainName name where
  not_empty := h.not_empty
  not_dot := by
    rintro rfl
    exact h.not_dot (by decide)
  not_parent := by
    rintro rfl
    exact h.not_dot (by decide)
  not_slash := h.not_slash

lemma splitOn_dot_of_pythonName (h : PythonName name) :
    name.toList.splitOn '.' = [name.toList] := by
  apply splitOnP_eq_singleton
  intro c hc
  simpa using fun heq : c = '.' => h.not_dot (heq ▸ hc)

/-- The names after the dots are names of modules. -/
lemma pythonName_of_mem_remainder (hslash : '/' ∉ spec.toList)
    (h : name ∈ pythonRemainder spec) : PythonName name := by
  obtain ⟨hpart, hne⟩ := mem_filter.mp h
  obtain ⟨chars, hchars, rfl⟩ := mem_map.mp hpart
  refine ⟨of_decide_eq_true hne, ?_, ?_⟩
  · rw [String.toList_ofList]
    intro hdot
    simpa using (mem_of_mem_splitOnP hchars hdot).2
  · rw [String.toList_ofList]
    intro hmem
    exact hslash (mem_of_mem_drop (mem_of_mem_splitOnP hchars hmem).1)

lemma exists_dots_append (h : isAllDots spec = false) :
    ∃ dots c rest, spec.toList = dots ++ c :: rest ∧ (∀ d ∈ dots, d = '.') ∧ c ≠ '.' := by
  rw [isAllDots, List.all_eq_false] at h
  obtain ⟨d, hd, hdot⟩ := h
  cases hrest : spec.toList.dropWhile (· = '.') with
  | nil =>
    have hall := dropWhile_eq_nil_iff.mp hrest
    exact absurd (hall d hd) hdot
  | cons c rest =>
    refine ⟨spec.toList.takeWhile (· = '.'), c, rest, ?_, ?_, ?_⟩
    · rw [← hrest, takeWhile_append_dropWhile]
    · intro d hd
      have hdot := mem_takeWhile_imp hd
      exact of_decide_eq_true hdot
    · have hne : spec.toList.dropWhile (· = '.') ≠ [] := by
        rw [hrest]
        simp
      have hhead := head_dropWhile_not _ hne
      simpa [hrest] using hhead

lemma pythonLevel_eq {dots rest : List Char} {c : Char} (h : spec.toList = dots ++ c :: rest)
    (hdots : ∀ d ∈ dots, d = '.') (hc : c ≠ '.') : pythonLevel spec = dots.length := by
  rw [pythonLevel, h, takeWhile_append_of_pos fun d hd => decide_eq_true (hdots d hd),
    takeWhile_cons_of_neg (by simpa using hc), append_nil]

lemma pythonRemainder_eq {dots rest : List Char} {c : Char}
    (h : spec.toList = dots ++ c :: rest) (hdots : ∀ d ∈ dots, d = '.') (hc : c ≠ '.') :
    pythonRemainder spec =
      (((c :: rest).splitOn '.').map String.ofList).filter (· ≠ "") := by
  rw [pythonRemainder, pythonLevel_eq h hdots hc, h, drop_left]

lemma pythonRemainder_ne_nil (h : isAllDots spec = false) : pythonRemainder spec ≠ [] := by
  obtain ⟨dots, c, rest, hspec, hdots, hc⟩ := exists_dots_append h
  obtain ⟨head, tail, hsplit⟩ :=
    exists_cons_of_ne_nil (splitOnP_ne_nil (· == '.') rest)
  have hfirst : String.ofList (c :: head) ∈ pythonRemainder spec := by
    rw [pythonRemainder_eq hspec hdots hc, splitOn, splitOnP_cons_eq_if_modifyHead,
      if_neg (by simpa using hc), hsplit]
    refine mem_filter.mpr ⟨mem_cons_self .., decide_eq_true ?_⟩
    intro hempty
    simpa using congrArg String.toList hempty
  exact ne_nil_of_mem hfirst

variable {module : String}

lemma pythonSteps_name (h : isAllDots module = false) (hname : PythonName name) :
    pythonSteps (module ++ "." ++ name) = pythonSteps module ++ [.down name] := by
  obtain ⟨dots, c, rest, hmodule, hdots, hc⟩ := exists_dots_append h
  have hchars : (module ++ "." ++ name).toList = dots ++ c :: (rest ++ '.' :: name.toList) := by
    simp [hmodule]
  have hlevel : pythonLevel (module ++ "." ++ name) = pythonLevel module := by
    rw [pythonLevel_eq hchars hdots hc, pythonLevel_eq hmodule hdots hc]
  have hremainder : pythonRemainder (module ++ "." ++ name) = pythonRemainder module ++ [name] := by
    have hsplit : (c :: (rest ++ '.' :: name.toList)).splitOn '.' =
        (c :: rest).splitOn '.' ++ [name.toList] := by
      rw [← splitOn_dot_of_pythonName hname, ← cons_append]
      exact splitOnP_append_cons _ _ (by simp)
    rw [pythonRemainder_eq hchars hdots hc, pythonRemainder_eq hmodule hdots hc, hsplit,
      map_append, filter_append]
    simp [hname.not_empty]
  rw [pythonSteps, hlevel, hremainder, map_append, ← append_assoc]
  rfl

lemma isAllDots_name (h : isAllDots module = false) :
    isAllDots (module ++ "." ++ name) = false := by
  simp only [isAllDots, List.all_eq_false] at h ⊢
  obtain ⟨d, hd, hdot⟩ := h
  exact ⟨d, by simp [hd], hdot⟩

lemma hasPrefix_name (h : hasPrefix module ".") :
    hasPrefix (module ++ "." ++ name) "." := by
  simp only [hasPrefix, isPrefixOf_iff_prefix] at h ⊢
  simp only [String.toList_append, append_assoc]
  exact h.trans (prefix_append _ _)

lemma pythonPlace (hdots : isAllDots module = false) (hslash : '/' ∉ module.toList) :
    (∀ name ∈ clamp importer.directory (pythonSteps module), PlainName name) ∧
      clamp importer.directory (pythonSteps module) ≠ [] := by
  constructor
  · refine forall_mem_clamp importer.plain_directory fun name hmem => ?_
    rcases mem_append.mp hmem with hup | hdown
    · cases eq_of_mem_replicate hup
    · obtain ⟨other, hother, heq⟩ := mem_map.mp hdown
      obtain rfl := PathStep.down.inj heq
      exact (pythonName_of_mem_remainder hslash hother).plain
  · rw [pythonSteps, clamp_append, clamp_map_down]
    exact append_ne_nil_of_right_ne_nil _ (pythonRemainder_ne_nil hdots)

/-- A name beside the file of a package. -/
lemma joinGraphPath_name {place : List String} (hne : place ≠ [])
    (hplain : ∀ name ∈ place, PlainName name) (hname : PlainName name) :
    joinGraphPath (placeText place) name = placeText place ++ "/" ++ name := by
  have hsplit : splitSlash name = [name] := by
    rw [splitSlash, splitOn, splitOnP_eq_singleton, map_singleton, String.ofList_toList]
    intro c hc
    simpa using fun heq : c = '/' => hname.not_slash (heq ▸ hc)
  rw [joinGraphPath_eq hplain, pathSteps, hsplit, map_singleton, segmentStep_plain hname,
    clamp_cons, clamp_nil, clampStep, placeText_append hne (by simp)]
  rfl

/-- The module itself, or a submodule for one of the names: below the place of the module, or beside
it if the module is the file of a package. -/
def pythonFromLookup (module : String) (names : List String) : Lookup where
  directory := importer.directory
  steps := pythonSteps module
  accepts place file := file ∈ relativeCandidates module place ∨ ∃ name ∈ names, ∃ package,
    (package = place ∨ package ++ "/__init__.py" = place ++ ".py") ∧
      file ∈ pythonCandidates (package ++ "/" ++ name)

/-- What `resolve_from` looks for is not there. -/
def MissesFrom (directories : List String) (module : String) (names nodes : List String) : Prop :=
  (pythonLookup importer module).Misses nodes ∧
    ((pythonLookup importer module).clamped ∈ directories →
      ∀ name ∈ names, (pythonLookup importer (module ++ "." ++ name)).Misses nodes)

lemma stripSuffix_eq_some {text ending stem : String} (h : stripSuffix text ending = some stem) :
    text = stem ++ ending := by
  unfold stripSuffix at h
  split_ifs at h with hsuffix
  obtain ⟨chars, hchars⟩ := isSuffixOf_iff_suffix.mp hsuffix
  cases h
  apply String.toList_injective
  rw [String.toList_append, String.toList_ofList, ← hchars]
  simp

lemma accepts_submodule (hdots : isAllDots module = false) (hslash : '/' ∉ module.toList)
    {names nodes : List String} (hnames : ∀ name ∈ names, PythonName name) {package : String}
    (hpackage : package ++ "/__init__.py" ∈
      relativeCandidates module (pythonLookup importer module).clamped) {file : String}
    (hfile : file ∈ PythonResolver.submodules package names nodes) :
    (pythonFromLookup importer module names).accepts
      (pythonFromLookup importer module names).clamped file := by
  obtain ⟨hplain, hne⟩ := pythonPlace importer hdots hslash
  obtain ⟨name, hname, hfind⟩ := mem_filterMap.mp hfile
  have hcandidate := mem_of_find?_eq_some hfind
  simp only [relativeCandidates, hdots, Bool.false_eq_true, if_false, pythonCandidates,
    mem_cons, not_mem_nil, or_false] at hpackage
  refine .inr ⟨name, hname, package, ?_⟩
  rcases hpackage with hbeside | hbelow
  · -- the module is the file of its directory
    have hinit : package ++ "/" ++ "__init__" = (pythonLookup importer module).clamped := by
      apply (String.append_left_inj ".py").mp
      rw [← hbeside, String.append_assoc, String.append_assoc]
      rfl
    have hplace : clamp importer.directory (pythonSteps module) =
        splitSlash package ++ ["__init__"] := by
      have hend : splitSlash "__init__" = ["__init__"] := by decide
      have hparts := splitSlash_placeText hne hplain
      rw [← hparts, ← hend, ← splitSlash_append, hinit]
      rfl
    have hparts : ∀ part ∈ splitSlash package, PlainName part := fun part hpart =>
      hplain part (by rw [hplace]; exact mem_append_left _ hpart)
    rw [← placeText_splitSlash package, joinGraphPath_name (by simp [splitSlash]) hparts
      (hnames name hname).plain, placeText_splitSlash] at hcandidate
    exact ⟨.inr hbeside, hcandidate⟩
  · have hsame : package = (pythonLookup importer module).clamped :=
      (String.append_left_inj _).mp hbelow
    rw [hsame, Lookup.clamped, pythonLookup,
      joinGraphPath_name hne hplain (hnames name hname).plain] at hcandidate
    exact ⟨.inl hsame, by rw [hsame]; exact hcandidate⟩

lemma clamped_name (hdots : isAllDots module = false)
    (hslash : '/' ∉ module.toList) (hname : PythonName name) :
    (pythonLookup importer (module ++ "." ++ name)).clamped =
      (pythonLookup importer module).clamped ++ "/" ++ name := by
  obtain ⟨_, hne⟩ := pythonPlace importer hdots hslash
  rw [Lookup.clamped, pythonLookup, pythonSteps_name hdots hname, clamp_append, clamp_cons,
    clamp_nil, clampStep, placeText_append hne (by simp)]
  rfl

lemma python_misses_iff :
    (pythonLookup importer spec).Misses nodes ↔
      (relativeCandidates spec (pythonLookup importer spec).clamped).find? (· ∈ nodes) = none := by
  simp only [find?_eq_none, decide_eq_true_eq]
  exact ⟨fun h file hcandidate hfile => h file hfile hcandidate,
    fun h file hfile hcandidate => h file hcandidate hfile⟩

/-- **When an import from a relative Python module stays in the repository.** -/
lemma pythonFrom_contained_iff (hrelative : hasPrefix module ".")
    (hdots : isAllDots module = false) (hslash : '/' ∉ module.toList) {names : List String}
    (hnames : ∀ name ∈ names, PythonName name) (nodes : List String) :
    Contained [pythonFromLookup importer module names]
        (resolver.resolveFrom importer.text module names nodes) ↔
      (pythonFromLookup importer module names).place ≠ none ∨
        MissesFrom importer resolver.packageDirectories module names nodes := by
  cases hfind : (relativeCandidates module (pythonLookup importer module).clamped).find?
      (· ∈ nodes) with
  | some target =>
    have hresolve := (python_resolve_eq_resolved_iff importer resolver hrelative).mpr ⟨rfl, hfind⟩
    have hcandidate := mem_of_find?_eq_some hfind
    rw [PythonResolver.resolveFrom, hresolve]
    refine contained_singleton_iff ?_ fun _ => ?_
    · intro file name hmem
      rcases mem_cons.mp hmem with heq | hsub
      · obtain ⟨rfl, rfl⟩ := resolved.inj heq
        exact .inl hcandidate
      · cases hpackage : stripSuffix target "/__init__.py" with
        | none =>
          rw [hpackage] at hsub
          cases hsub
        | some package =>
          rw [hpackage] at hsub
          obtain ⟨found, hfound, heq⟩ := mem_map.mp hsub
          obtain ⟨rfl, rfl⟩ := resolved.inj heq
          rw [stripSuffix_eq_some hpackage] at hcandidate
          exact accepts_submodule importer hdots hslash hnames hcandidate hfound
    · refine iff_of_true ⟨target, _, mem_cons_self ..⟩ fun h => ?_
      rw [MissesFrom, python_misses_iff, hfind] at h
      cases h.1
  | none =>
    have hmodule := (python_misses_iff importer).mpr hfind
    have hbase : pythonRelativeBase importer.text module = (pythonLookup importer module).clamped :=
      pythonRelativeBase_eq importer module
    by_cases hdirectory : (pythonLookup importer module).clamped ∈ resolver.packageDirectories
    · have hresolve : resolver.resolve importer.text module nodes = .nonGraph := by
        rw [PythonResolver.resolve, if_pos hrelative, resolvePy, if_pos hrelative, hbase, hfind]
        exact if_pos hdirectory
      have hresolutions : resolver.resolveFrom importer.text module names nodes =
          if names = [] then [.nonGraph]
          else names.map fun name => resolver.resolve importer.text (module ++ "." ++ name)
            nodes := by
        rw [PythonResolver.resolveFrom, hresolve]
      have hresolved : ∀ target name',
          .resolved target name' ∈ resolver.resolveFrom importer.text module names nodes ↔
            ∃ name ∈ names, resolver.resolve importer.text (module ++ "." ++ name) nodes =
              .resolved target name' := by
        intro target name'
        rw [hresolutions]
        split_ifs with hempty
        · simp [hempty]
        · exact mem_map
      have hname : ∀ name, hasPrefix (module ++ "." ++ name) "." := fun _ =>
        hasPrefix_name hrelative
      refine contained_singleton_iff ?_ fun _ => ?_
      · intro target name' hmem
        obtain ⟨name, hmem, hresolve⟩ := (hresolved target name').mp hmem
        obtain ⟨_, hfound⟩ :=
          (python_resolve_eq_resolved_iff importer resolver (hname name)).mp hresolve
        have hcandidate := mem_of_find?_eq_some hfound
        rw [relativeCandidates, isAllDots_name hdots,
          clamped_name importer hdots hslash (hnames name hmem)] at hcandidate
        exact .inr ⟨name, hmem, _, .inl rfl, hcandidate⟩
      · rw [MissesFrom, and_iff_right hmodule, forall_prop_of_true hdirectory]
        simp only [not_forall, python_misses_iff, ← ne_eq, ne_none_iff_exists']
        constructor
        · rintro ⟨target, name', hmem⟩
          obtain ⟨name, hmem, hresolve⟩ := (hresolved target name').mp hmem
          obtain ⟨_, hfound⟩ :=
            (python_resolve_eq_resolved_iff importer resolver (hname name)).mp hresolve
          exact ⟨name, hmem, target, hfound⟩
        · rintro ⟨name, hmem, target, hfound⟩
          refine ⟨target, "python-relative", (hresolved _ _).mpr ⟨name, hmem, ?_⟩⟩
          exact (python_resolve_eq_resolved_iff importer resolver (hname name)).mpr ⟨rfl, hfound⟩
    · have hresolve : resolver.resolve importer.text module nodes = .unresolved := by
        rw [PythonResolver.resolve, if_pos hrelative, resolvePy, if_pos hrelative, hbase, hfind]
        exact if_neg hdirectory
      rw [PythonResolver.resolveFrom, hresolve]
      refine contained_singleton_iff ?_ fun _ => iff_of_false ?_ ?_
      · simp
      · simp
      · exact not_not.mpr ⟨hmodule, fun h => absurd h hdirectory⟩

/-! ## PHP -/

def phpLookup (directory : List String) (steps : List (PathStep String)) : Lookup where
  directory := directory
  steps := steps
  accepts place file := file ∈ phpCandidates place

/-- The first file of a lookup, its place clamped at the root. -/
def phpFound (directory : List String) (steps : List (PathStep String)) (nodes : List String) :
    Option String :=
  (phpCandidates (phpLookup directory steps).clamped).find? (· ∈ nodes)

variable {steps : List (PathStep String)} {directory : List String}

lemma phpFound_eq_none_iff :
    phpFound directory steps nodes = none ↔ (phpLookup directory steps).Misses nodes := by
  simp only [phpFound, find?_eq_none, decide_eq_true_eq]
  exact ⟨fun h file hfile hcandidate => h file hcandidate hfile,
    fun h file hcandidate hfile => h file hfile hcandidate⟩

lemma accepts_of_phpFound (h : phpFound directory steps nodes = some target) :
    (phpLookup directory steps).accepts (phpLookup directory steps).clamped target :=
  mem_of_find?_eq_some h

lemma mem_of_phpFound (h : phpFound directory steps nodes = some target) : target ∈ nodes := by
  simpa using find?_some h

lemma names_of_phpFound {directory place : List String}
    (h : phpFound directory steps nodes = some target)
    (hplace : (phpLookup directory steps).place = some place) :
    (phpLookup directory steps).Names target := by
  have haccepts := accepts_of_phpFound h
  rw [Lookup.clamped_of_place hplace] at haccepts
  exact ⟨place, hplace, haccepts⟩

/-- Below the root and at the root the same file is found, if both leave the repository. -/
lemma phpFound_of_place_none
    (hplace : (phpLookup directory steps).place = none) (nodes : List String) :
    phpFound directory steps nodes = phpFound [] steps nodes := by
  have hclamp : clamp directory steps = clamp [] steps := clamp_eq_of_walk_eq_none hplace
  rw [phpFound, phpFound, Lookup.clamped, Lookup.clamped, phpLookup, phpLookup, hclamp]

lemma resolveInclude_eq_resolved_iff {importerRel : String} {item : StaticInclude}
    {nodes bases : List String} (hloader : isComposerAutoloader item.path = false)
    (hbases : includeBases importerRel item = some bases) {resolver : String} :
    resolveInclude importerRel item nodes = .resolved target resolver ↔
      resolver = "php-include" ∧ (∃ base ∈ bases, tryResolvePhp base nodes = some target) ∧
        ∀ base ∈ bases, ∀ found, tryResolvePhp base nodes = some found → found = target := by
  have hunique : (sortBy compare (bases.filterMap (tryResolvePhp · nodes))).eraseReps =
      [target] ↔ (∃ base ∈ bases, tryResolvePhp base nodes = some target) ∧
        ∀ base ∈ bases, ∀ found, tryResolvePhp base nodes = some found → found = target := by
    have hmem : ∀ found, found ∈ sortBy compare
        (bases.filterMap (tryResolvePhp · nodes)) ↔
        ∃ base ∈ bases, tryResolvePhp base nodes = some found := by
      intro found
      rw [mem_sortBy, mem_filterMap]
    rw [eraseReps_eq_singleton_iff]
    constructor
    · rintro ⟨hne, hall⟩
      obtain ⟨found, hfound⟩ := exists_mem_of_ne_nil _ hne
      obtain rfl := hall found hfound
      exact ⟨(hmem found).mp hfound, fun base hbase other hother =>
        hall other ((hmem other).mpr ⟨base, hbase, hother⟩)⟩
    · rintro ⟨hsome, hall⟩
      refine ⟨ne_nil_of_mem ((hmem target).mpr hsome), fun found hfound => ?_⟩
      obtain ⟨base, hbase, heq⟩ := (hmem found).mp hfound
      exact hall base hbase found heq
  rw [← hunique]
  simp only [resolveInclude, hloader, Bool.false_eq_true, if_false, hbases]
  rcases (sortBy compare (bases.filterMap (tryResolvePhp · nodes))).eraseReps with
    _ | ⟨first, _ | ⟨second, rest⟩⟩
  · simp
  · simp only [resolved.injEq, cons.injEq, and_true]
    exact ⟨fun ⟨htarget, hname⟩ => ⟨hname.symm, htarget⟩,
      fun ⟨hname, htarget⟩ => ⟨htarget, hname.symm⟩⟩
  · simp

lemma resolveInclude_autoloader {importerRel : String} {item : StaticInclude}
    (hloader : isComposerAutoloader item.path) :
    resolveInclude importerRel item nodes = .external := by
  rw [resolveInclude, if_pos hloader]

lemma contained_external (lookups : List Lookup) : Contained lookups [.external] where
  outside _ _ _ := by simp
  inside _ _ := by simp

lemma tryResolvePhp_clamp
    (hplain : ∀ name ∈ directory, PlainName name) (path : String) (nodes : List String) :
    tryResolvePhp (placeText (clamp directory (pathSteps path))) nodes =
      phpFound directory (pathSteps path) nodes := by
  rw [tryResolvePhp, normalizePath_placeText (plain_clamp hplain path)]
  rfl

/-- The steps of an include below the directory of its file. -/
def directorySteps (parents : ℕ) (path : String) : List (PathStep String) :=
  List.replicate parents .up ++ pathSteps path

/-- **When an include below `__DIR__` stays in the repository.** -/
lemma directoryInclude_contained_iff (parents : ℕ) (path : String) (nodes : List String) :
    Contained [phpLookup importer.directory (directorySteps parents path)]
        [resolveInclude importer.text (.directoryRelative parents path) nodes] ↔
      isComposerAutoloader path ∨
        (phpLookup importer.directory (directorySteps parents path)).StaysOrMisses nodes := by
  by_cases hloader : isComposerAutoloader path
  · have hexternal : resolveInclude importer.text (.directoryRelative parents path) nodes =
        .external := resolveInclude_autoloader hloader
    rw [hexternal]
    exact iff_of_true (contained_external _) (.inl hloader)
  · rw [or_iff_right hloader]
    have hnot : isComposerAutoloader (StaticInclude.directoryRelative parents path).path = false :=
      Bool.eq_false_iff.mpr hloader
    have hplain : ∀ name ∈ clamp importer.directory (replicate parents .up),
        PlainName name := by
      refine forall_mem_clamp importer.plain_directory fun name hmem => ?_
      cases eq_of_mem_replicate hmem
    have hbases : includeBases importer.text (.directoryRelative parents path) =
        some [placeText (clamp (clamp importer.directory (replicate parents .up))
          (pathSteps path))] := by
      rw [includeBases, importer.pathParent_text, goUp_eq importer.plain_directory,
        joinGraphPath_eq hplain]
    have hfound : tryResolvePhp (placeText (clamp (clamp importer.directory
        (replicate parents .up)) (pathSteps path))) nodes =
        phpFound importer.directory (directorySteps parents path) nodes := by
      rw [tryResolvePhp_clamp hplain, phpFound, phpFound, Lookup.clamped, Lookup.clamped,
        directorySteps, phpLookup, phpLookup, clamp_append]
    apply contained_find_iff "php-include" (fun _ => Iff.rfl)
    intro target resolver
    rw [resolveInclude_eq_resolved_iff hnot hbases]
    simp only [mem_singleton, exists_eq_left, forall_eq, hfound]
    refine and_congr_right fun _ => ⟨fun h => h.1, fun h => ⟨h, fun found hother => ?_⟩⟩
    exact some.inj (hother.symm.trans h)

/-- The place of a literal include: it is read from the directory of its file and from the root. -/
def literalLookups (path : String) : List Lookup :=
  [phpLookup importer.directory (pathSteps path), phpLookup [] (pathSteps path)]

/-- What is found stays in the repository, or nothing is found. -/
def LiteralStaysOrMisses (path : String) (nodes : List String) : Prop :=
  (phpLookup [] (pathSteps path)).place ≠ none ∨
    (∃ file ∈ nodes, (phpLookup importer.directory (pathSteps path)).Names file) ∨
    (phpLookup [] (pathSteps path)).Misses nodes

/-- **When a literal include stays in the repository.** -/
lemma literalInclude_contained_iff (hrelative : hasPrefix path "/" = false) (nodes : List String) :
    Contained (literalLookups importer path) [resolveInclude importer.text (.literal path) nodes] ↔
      isComposerAutoloader path ∨ LiteralStaysOrMisses importer path nodes := by
  by_cases hloader : isComposerAutoloader path
  · have hexternal : resolveInclude importer.text (.literal path) nodes = .external :=
      resolveInclude_autoloader hloader
    rw [hexternal]
    exact iff_of_true (contained_external _) (.inl hloader)
  rw [or_iff_right hloader]
  have hnot : isComposerAutoloader (StaticInclude.literal path).path = false :=
    Bool.eq_false_iff.mpr hloader
  have hbases : includeBases importer.text (.literal path) =
      some [placeText (clamp importer.directory (pathSteps path)),
        placeText (clamp [] (pathSteps path))] := by
    rw [includeBases, if_neg (by simp [hrelative]), importer.pathParent_text,
      joinGraphPath_eq importer.plain_directory, normalizePath_eq]
  have hresolved : ∀ target resolver,
      resolveInclude importer.text (.literal path) nodes = .resolved target resolver ↔
        resolver = "php-include" ∧
          (phpFound importer.directory (pathSteps path) nodes = some target ∨
            phpFound [] (pathSteps path) nodes = some target) ∧
          (∀ found, phpFound importer.directory (pathSteps path) nodes = some found →
            found = target) ∧
          ∀ found, phpFound [] (pathSteps path) nodes = some found → found = target := by
    intro target resolver
    rw [resolveInclude_eq_resolved_iff hnot hbases]
    simp only [mem_cons, not_mem_nil, or_false, exists_eq_or_imp, exists_eq_left,
      forall_eq_or_imp, forall_eq, tryResolvePhp_clamp importer.plain_directory,
      tryResolvePhp_clamp (forall_mem_nil PlainName)]
  constructor
  · intro h
    by_contra hnone
    obtain ⟨hroot, hdirectory, hmisses⟩ : (phpLookup [] (pathSteps path)).place = none ∧
        (¬∃ file ∈ nodes, (phpLookup importer.directory (pathSteps path)).Names file) ∧
        ¬(phpLookup [] (pathSteps path)).Misses nodes := by
      simpa [LiteralStaysOrMisses] using hnone
    obtain ⟨target, htarget⟩ :=
      ne_none_iff_exists'.mp (mt phpFound_eq_none_iff.mp hmisses)
    have hsame : ∀ found, phpFound importer.directory (pathSteps path) nodes = some found →
        found = target := by
      intro found hfound
      cases hplace : (phpLookup importer.directory (pathSteps path)).place with
      | some place =>
        exact absurd ⟨found, mem_of_phpFound hfound, names_of_phpFound hfound hplace⟩ hdirectory
      | none =>
        rw [phpFound_of_place_none hplace] at hfound
        exact some.inj (hfound.symm.trans htarget)
    have hresolve := (hresolved target "php-include").mpr
      ⟨rfl, .inr htarget, hsame, fun found hfound => some.inj (hfound.symm.trans htarget)⟩
    obtain ⟨lookup, hmem, hnames⟩ :=
      h.inside target "php-include" (mem_singleton.mpr hresolve.symm)
    rcases mem_pair.mp hmem with rfl | rfl
    · exact hdirectory ⟨target, mem_of_phpFound htarget, hnames⟩
    · obtain ⟨place, hplace, _⟩ := hnames
      rw [hroot] at hplace
      cases hplace
  · intro h
    have hinside : ∀ target resolver,
        resolveInclude importer.text (.literal path) nodes = .resolved target resolver →
        ∃ lookup ∈ literalLookups importer path, lookup.Names target := by
      intro target resolver hresolve
      obtain ⟨_, hfound, hdirectory, _⟩ := (hresolved target resolver).mp hresolve
      have hbelow : ∀ place, (phpLookup importer.directory (pathSteps path)).place = some place →
          phpFound importer.directory (pathSteps path) nodes = some target →
          ∃ lookup ∈ literalLookups importer path, lookup.Names target :=
        fun place hplace hfound => ⟨_, mem_cons_self .., names_of_phpFound hfound hplace⟩
      rcases h with hroot | ⟨file, hfile, place, hplace, haccepts⟩ | hmisses
      · obtain ⟨last, hlast⟩ := ne_none_iff_exists'.mp hroot
        rcases hfound with hfound | hfound
        · exact hbelow _ (walk_of_root hlast importer.directory) hfound
        · exact ⟨_, mem_cons_of_mem _ (mem_singleton_self _), names_of_phpFound hfound hlast⟩
      · have hsome : phpFound importer.directory (pathSteps path) nodes ≠ none := by
          rw [ne_eq, phpFound_eq_none_iff]
          intro hmisses
          refine hmisses file hfile ?_
          rw [Lookup.clamped_of_place hplace]
          exact haccepts
        obtain ⟨found, hbase⟩ := ne_none_iff_exists'.mp hsome
        obtain rfl := hdirectory found hbase
        exact hbelow place hplace hbase
      · rw [← phpFound_eq_none_iff] at hmisses
        cases hplace : (phpLookup importer.directory (pathSteps path)).place with
        | none =>
          rw [phpFound_of_place_none hplace, hmisses] at hfound
          simp at hfound
        | some place =>
          rw [hmisses] at hfound
          exact hbelow place hplace (hfound.resolve_right (by simp))
    refine ⟨fun houtside target resolver hmem => ?_, fun target resolver hmem =>
      hinside target resolver (mem_singleton.mp hmem).symm⟩
    have hplace := houtside _ rfl
    obtain ⟨lookup, hlookup, place, hnames, _⟩ :=
      hinside target resolver (mem_singleton.mp hmem).symm
    rcases mem_pair.mp hlookup with rfl | rfl
    · rw [hplace] at hnames
      cases hnames
    · -- what stays below the root also does from the directory
      have hbelow : (phpLookup importer.directory (pathSteps path)).place =
          some (importer.directory ++ place) := walk_of_root hnames importer.directory
      rw [hplace] at hbelow
      cases hbelow

/-! ## All relative imports -/

/-- What a relative import names.  A literal include of PHP is read from the directory of its file
and from the root of the repository. -/
def lookups (language : FirstClass) : ImportSpecifier → List Lookup
  | .module specifier =>
    if language = .python then [pythonLookup importer specifier]
    else [jsLookup importer specifier]
  | .pythonFrom module names => [pythonFromLookup importer module names]
  | .phpInclude (.literal path) => literalLookups importer path
  | .phpInclude (.directoryRelative parents path) =>
    [phpLookup importer.directory (directorySteps parents path)]
  | .rust (.module _ (some path) _) => [rustLookup importer path]
  | .rust _ => []
  | .goPackage package => [goLookup importer package]

end

def Relative (language : FirstClass) : ImportSpecifier → Prop
  | .module specifier =>
    if language = .python then hasPrefix specifier "." else isDotSpecifier specifier
  | .pythonFrom module names =>
    hasPrefix module "." ∧ isAllDots module = false ∧ '/' ∉ module.toList ∧
      ∀ name ∈ names, PythonName name
  | .phpInclude (.literal path) => hasPrefix path "/" = false
  | .phpInclude (.directoryRelative _ _) => True
  | .rust (.module _ (some path) _) => hasPrefix path "/" = false
  | .rust _ => False
  | .goPackage package => isDotSpecifier package

/-- The files of a repository, by language, with what its configuration files say. -/
structure Repository where
  nodes : List String
  pythonFiles : List String
  rustFiles : List String
  goFiles : List String
  packages : List RustPackage
  javascript : JsResolver
  pythonOther : String → String → ImportResolution
  goOther : String → ImportResolution

namespace Repository

variable (repository : Repository)

def resolvers : Resolvers :=
  Resolvers.discover repository.pythonFiles repository.rustFiles repository.goFiles
    repository.packages repository.javascript repository.pythonOther repository.goOther

def resolve (language : FirstClass) (importer : GraphPath) (specifier : ImportSpecifier) :
    List ImportResolution :=
  repository.resolvers.resolveImport repository.nodes language importer.text specifier

def StaysOrMisses (language : FirstClass) (importer : GraphPath) : ImportSpecifier → Prop
  | .module specifier =>
    if language = .python then (pythonLookup importer specifier).StaysOrMisses repository.nodes
    else isJsNonGraphSpecifier specifier ∨
      (jsLookup importer specifier).StaysOrMisses repository.nodes
  | .pythonFrom module names =>
    (pythonFromLookup importer module names).place ≠ none ∨
      MissesFrom importer (PythonResolver.discoverDirectories repository.pythonFiles) module names
        repository.nodes
  | .phpInclude (.literal path) =>
    isComposerAutoloader path ∨ LiteralStaysOrMisses importer path repository.nodes
  | .phpInclude (.directoryRelative parents path) =>
    isComposerAutoloader path ∨
      (phpLookup importer.directory (directorySteps parents path)).StaysOrMisses repository.nodes
  | .rust (.module _ (some path) _) =>
    importer.text ∉ repository.rustFiles ∨ (rustLookup importer path).StaysOrMisses repository.nodes
  | .rust _ => True
  | .goPackage package => (goLookup importer package).StaysOrMisses repository.goFiles

end Repository

/-- **Relative imports resolve to what they name, and to nothing outside the repository, exactly if
they stay in the repository or no file lies where the text of their path leads.** -/
theorem imports_contained_iff (repository : Repository) (language : FirstClass)
    (importer : GraphPath) (specifier : ImportSpecifier) (hrelative : Relative language specifier) :
    Contained (lookups importer language specifier)
        (repository.resolve language importer specifier) ↔
      repository.StaysOrMisses language importer specifier := by
  cases specifier with
  | module specifier =>
    by_cases hpython : language = .python
    · rw [Relative, if_pos hpython] at hrelative
      rw [lookups, if_pos hpython, Repository.resolve, Resolvers.resolveImport, if_pos hpython,
        Repository.StaysOrMisses, if_pos hpython]
      exact python_contained_iff importer _ hrelative _
    · rw [Relative, if_neg hpython] at hrelative
      rw [lookups, if_neg hpython, Repository.resolve, Resolvers.resolveImport, if_neg hpython,
        Repository.StaysOrMisses, if_neg hpython]
      exact javascript_contained_iff importer _ hrelative _
  | pythonFrom module names =>
    obtain ⟨hstart, hdots, hslash, hnames⟩ := hrelative
    exact pythonFrom_contained_iff importer _ hstart hdots hslash hnames _
  | phpInclude item =>
    cases item with
    | literal path => exact literalInclude_contained_iff importer hrelative _
    | directoryRelative parents path => exact directoryInclude_contained_iff importer parents path _
  | rust item =>
    cases item with
    | module name path inlineModules =>
      cases path with
      | none => exact hrelative.elim
      | some path => exact rust_contained_iff importer _ _ name path inlineModules _
    | use path inlineModules => exact hrelative.elim
  | goPackage package => exact go_contained_iff importer _ _ hrelative

def rootFile (name : String) (hplain : PlainName name) : GraphPath where
  names := [name]
  plain := by
    intro other hother
    obtain rfl := mem_singleton.mp hother
    exact hplain
  nonempty := by simp

/-- The files `a.ts` and `b.ts`. -/
def twoModules : Repository where
  nodes := ["a.ts", "b.ts"]
  pythonFiles := []
  rustFiles := []
  goFiles := []
  packages := []
  javascript := ⟨fun _ _ => .external⟩
  pythonOther _ _ := .external
  goOther _ := .external

def moduleA : GraphPath := rootFile "a.ts" ⟨by decide, by decide, by decide, by decide⟩

/-- The condition fails for an import of `../b` from `a.ts`, which resolves to `b.ts`. -/
theorem imports_contained_iff_outside : ¬Contained (lookups moduleA .typeScript (.module "../b"))
      (twoModules.resolve .typeScript moduleA (.module "../b")) := by
  have hrelative : Relative .typeScript (.module "../b") := by
    show isDotSpecifier "../b" = true
    decide
  rw [imports_contained_iff twoModules .typeScript moduleA (.module "../b") hrelative]
  have hcandidate : "b.ts" ∈ jsCandidates (jsLookup moduleA "../b").clamped := by
    decide +kernel
  rintro (hgraph | hplace | hmisses)
  · exact absurd hgraph (by decide +kernel)
  · exact hplace (by decide +kernel)
  · exact hmisses "b.ts" (by decide) hcandidate

/-- An import that leaves the repository resolves to a file in it. -/
theorem not_imports_contained :
    ¬∀ (repository : Repository) (language : FirstClass) (importer : GraphPath)
      (specifier : ImportSpecifier), Relative language specifier →
      Contained (lookups importer language specifier)
        (repository.resolve language importer specifier) := by
  intro h
  have hrelative : Relative .typeScript (.module "../b") := by
    show isDotSpecifier "../b" = true
    decide
  have hresolved : twoModules.resolve .typeScript moduleA (.module "../b") =
      [.resolved "b.ts" "relative"] := by
    decide +kernel
  refine (h twoModules .typeScript moduleA (.module "../b") hrelative).outside ?_ "b.ts" "relative"
    (by rw [hresolved]; exact mem_singleton_self _)
  intro lookup hlookup
  obtain rfl : jsLookup moduleA "../b" = lookup := some.inj hlookup
  decide +kernel

end Reposcout.Graph
