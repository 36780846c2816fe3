import Mathlib.Data.List.Destutter
import Reposcout.Properties.Graph.JavaScript
import Reposcout.Properties.Graph.Jsonc
import Reposcout.Properties.Graph.Paths

/-!
# Settings that are inherited

A configuration inherits the settings of the nearest one that it extends.  The loader follows the
links, cycles or not, until no candidate is left; but it files the settings under the directory of
the configuration that holds them, and an import looks in the directories above its importer only.
Inherited settings are used where these two agree.
-/

namespace Reposcout.Graph.Js

open List Option KeyedList Worklist TsConfig Resolver

variable (access : ConfigAccess) (parse : String → Option Json) (files : List String)

/-! ## Inheritance -/

def settingsOf (relative : String) : Option TsConfig :=
  ((readTsConfig access parse relative).join).map ParsedTsConfig.config

/-- The file that a configuration extends. -/
def extendsOf (relative : String) : Option String :=
  (access.read relative).bind fun content =>
    (parse (sanitizeJsonc content)).bind (extended access (pathParent relative))

/-- The nearest configuration with settings, from a file on along what it extends. -/
inductive Inherits : String → String → TsConfig → Prop
  | own {relative config} : settingsOf access parse relative = some config →
      config.hasSettings = true → Inherits relative relative config
  | next {relative config other base inherited} :
      settingsOf access parse relative = some config → config.hasSettings = false →
      extendsOf access parse relative = some other → Inherits other base inherited →
      Inherits relative base inherited

/-- The configuration that governs a file: the first of its directory or the ones above. -/
def governing (importer : String) : Option String :=
  ((directoriesOf importer).flatMap fun directory =>
    ["tsconfig.json", "jsconfig.json"].map (joinGraphPath directory)).find? access.holds

/-- What follows from a configuration. -/
def relatedFiles (relative : String) : List String := relatedOf (readTsConfig access parse relative)

/-- A configuration that the loader comes to. -/
def Reached : String → Prop :=
  Worklist.Reached (configCandidates access files) (relatedFiles access parse)

/-- The loader after some passes. -/
def loaded (count : ℕ) : Load :=
  (loadStep (readTsConfig access parse))^[count] (Load.start (configCandidates access files))

/-- What the loader makes of the files that it has read. -/
def recordAll (seen : List String) : Resolver :=
  seen.foldl (fun resolver relative =>
    resolver.record relative (readTsConfig access parse relative)) ⟨[], [], []⟩

/-- An import is resolved by a configuration whenever that has an answer. -/
def Uses (resolver : Resolver) (importer : String) (config : TsConfig) : Prop :=
  ∀ specifier nodes resolution, config.answer specifier nodes = some resolution →
    resolver.resolveTsConfig importer specifier nodes = some resolution

variable {access parse files}

/-! ## The loader as a work list -/

lemma joins_union : Worklist.Joins union := by
  intro left right item
  rw [union, mem_eraseReps, mem_sortBy, mem_append]

def Load.work (load : Load) : Worklist.Work String := ⟨load.candidates, load.seen⟩

lemma work_loadStep (load : Load) : (loadStep (readTsConfig access parse) load).work =
      step union (relatedFiles access parse) load.work := by
  obtain ⟨candidates, seen, resolver⟩ := load
  cases candidates with
  | nil => rfl
  | cons relative rest =>
    by_cases hseen : relative ∈ seen
    · simp only [loadStep, Load.work, step, if_pos hseen]
      exact (if_pos hseen).symm
    · simp only [loadStep, Load.work, step, if_neg hseen]
      exact (if_neg hseen).symm

lemma work_loaded (count : ℕ) : (loaded access parse files count).work =
      (step union (relatedFiles access parse))^[count]
        ⟨configCandidates access files, []⟩ := by
  induction count with
  | zero => rfl
  | succ count ih =>
    rw [loaded, Function.iterate_succ_apply', work_loadStep, Function.iterate_succ_apply', ← ih,
      loaded]

variable {relative : String}

lemma mem_configCandidates : relative ∈ configCandidates access files ↔
      access.holds relative ∧ ∃ path ∈ files, ∃ directory ∈ directoriesOf path,
        ∃ name ∈ ["tsconfig.json", "jsconfig.json"], joinGraphPath directory name = relative := by
  rw [configCandidates, joins_union]
  simp only [not_mem_nil, false_or, mem_flatMap, mem_filter, List.mem_map]
  constructor
  · rintro ⟨path, hpath, directory, hdirectory, hname, hholds⟩
    exact ⟨hholds, path, hpath, directory, hdirectory, hname⟩
  · rintro ⟨hholds, path, hpath, directory, hdirectory, hname⟩
    exact ⟨path, hpath, directory, hdirectory, hname, hholds⟩

lemma holds_of_resolveConfigReference {directory reference : String}
    (h : resolveConfigReference access directory reference = some relative) :
    access.holds relative := by
  simp only [resolveConfigReference] at h
  split_ifs at h with _ _ hcandidate _ hnamed hinside <;> grind

/-- What follows from a configuration is a file. -/
lemma holds_of_mem_relatedFiles {other : String}
    (h : other ∈ relatedFiles access parse relative) : access.holds other := by
  rw [relatedFiles, readTsConfig] at h
  cases hread : access.read relative with
  | none => simp [hread, relatedOf] at h
  | some content =>
    cases hparse : parse (sanitizeJsonc content) with
    | none => simp [hread, hparse, relatedOf] at h
    | some value =>
      simp only [hread, hparse, map_some, relatedOf, parsedTsConfig] at h
      rcases (joins_union _ _ _).mp h with h | h
      · obtain ⟨reference, -, hresolve⟩ := mem_filterMap.mp h
        obtain ⟨text, -, hresolve⟩ := bind_eq_some_iff.mp hresolve
        exact holds_of_resolveConfigReference hresolve
      · obtain ⟨text, -, hresolve⟩ :=
          bind_eq_some_iff.mp (mem_toList.mp h)
        exact holds_of_resolveConfigReference hresolve

/-- **The loader runs out of candidates**, whatever the links between the configurations. -/
lemma exists_loaded (access : ConfigAccess) (parse : String → Option Json)
    (files : List String) : ∃ count, (loaded access parse files count).candidates = [] := by
  have hjoin := joins_union
  obtain ⟨count, hcount⟩ := exists_empty (KeyedList.keys access.files)
    (relatedFiles access parse)
    (fun _ _ other hother => of_decide_eq_true (holds_of_mem_relatedFiles hother)) hjoin
    ⟨configCandidates access files, []⟩
    (fun item hitem => of_decide_eq_true (mem_configCandidates.mp hitem).1)
  refine ⟨count, ?_⟩
  rw [← work_loaded] at hcount
  exact hcount

lemma mem_seen_iff {count : ℕ} (hempty : (loaded access parse files count).candidates = []) :
    relative ∈ (loaded access parse files count).seen ↔ Reached access parse files relative := by
  have hpending : ((Worklist.step union (relatedFiles access parse))^[count]
      ⟨configCandidates access files, []⟩).pending = [] := by
    rw [← work_loaded]
    exact hempty
  rw [Reached, ← Worklist.mem_seen_iff _ _ joins_union hpending, ← work_loaded]
  rfl

lemma nodup_seen (access : ConfigAccess) (parse : String → Option Json) (files : List String)
    (count : ℕ) : (loaded access parse files count).seen.Nodup := by
  have h := (sound_iterate (configCandidates access files) (relatedFiles access parse)
    joins_union count).nodup
  rwa [← work_loaded] at h

/-- The resolver follows from the files that were read, in their order. -/
lemma resolver_loaded (count : ℕ) : (loaded access parse files count).resolver =
      recordAll access parse (loaded access parse files count).seen := by
  induction count with
  | zero => rfl
  | succ count ih =>
    rw [loaded, Function.iterate_succ_apply', ← loaded]
    generalize loaded access parse files count = load at ih
    obtain ⟨candidates, seen, resolver⟩ := load
    cases candidates with
    | nil => exact ih
    | cons relative rest =>
      simp only [loadStep]
      split_ifs with hseen
      · exact ih
      · rw [recordAll, foldl_append, ← recordAll, ← ih]
        rfl

/-! ## The settings of a directory -/

structure TsConfig.Tidy (config : TsConfig) : Prop where
  nodup : (pathKeys config.paths).Nodup
  sorted : sortedPaths config.paths = config.paths

lemma tidy_tsConfig (directory : String) (value : Json) : (tsConfig directory value).Tidy := by
  have hobject (compiler : List (String × Json)) (base : String) : (pathKeys (pathMappings base
        (((get? "paths" compiler).bind Json.asObject).getD []))).Nodup := by
    cases hpaths : (get? "paths" compiler).bind Json.asObject with
    | none => exact nodup_nil
    | some members =>
      obtain ⟨table, -, htable⟩ := bind_eq_some_iff.mp hpaths
      cases table with
      | object entries =>
        rw [← some.inj htable]
        exact nodup_pathMappings base entries
      | _ => cases htable
  have hkeys := hobject (((value.get "compilerOptions").bind Json.asObject).getD [])
  constructor
  · exact ((sortBy_perm pathOrder _).map _).nodup_iff.mpr (hkeys _)
  · exact sortedPaths_of_perm (hkeys _) (sortBy_perm pathOrder _)

variable {config : TsConfig}

lemma hasSettings_eq_false_iff :
    config.hasSettings = false ↔ config.baseUrl = none ∧ config.paths = [] := by
  simp [hasSettings]

def SameSettings (left right : TsConfig) : Prop :=
  left.baseUrl = right.baseUrl ∧ left.paths = right.paths

variable {left right : TsConfig}

lemma SameSettings.answer_eq (h : SameSettings left right) (specifier : String)
    (nodes : List String) : left.answer specifier nodes = right.answer specifier nodes := by
  rw [answer, answer, h.1, h.2]

/-- Nothing is removed from a table with distinct patterns. -/
lemma destutter_paths {paths : List PathMapping} (h : (pathKeys paths).Nodup) :
    (paths.destutter fun left right => ¬ SameMapping left right) = paths := by
  apply destutter_of_isChain
  have hpairwise : paths.Pairwise fun left right => ¬ SameMapping left right :=
    (pairwise_map.mp h).imp fun hne hsame => hne hsame.1
  exact hpairwise.isChain

variable {existing : TsConfig}

/-- A configuration without settings changes nothing. -/
lemma sameSettings_merged_blank (hexisting : existing.Tidy) (hconfig : config.hasSettings = false) :
    SameSettings (mergedTsConfig existing config) existing := by
  obtain ⟨hbase, hpaths⟩ := hasSettings_eq_false_iff.mp hconfig
  refine ⟨?_, ?_⟩
  · simp [mergedTsConfig, hbase]
  · rw [mergedTsConfig, hpaths, append_nil, hexisting.sorted, destutter_paths hexisting.nodup]

/-- The settings of a configuration are taken over where there were none. -/
lemma sameSettings_merged (hexisting : existing.hasSettings = false)
    (hconfig : config.Tidy) : SameSettings (mergedTsConfig existing config) config := by
  obtain ⟨hbase, hpaths⟩ := hasSettings_eq_false_iff.mp hexisting
  refine ⟨?_, ?_⟩
  · cases hurl : config.baseUrl <;> simp [mergedTsConfig, hbase, hurl]
  · rw [mergedTsConfig, hpaths, nil_append, hconfig.sorted, destutter_paths hconfig.nodup]

lemma SameSettings.tidy (h : SameSettings left right) (hright : right.Tidy) : left.Tidy :=
  ⟨h.2 ▸ hright.nodup, h.2 ▸ hright.sorted⟩

lemma SameSettings.hasSettings_eq (h : SameSettings left right) :
    left.hasSettings = right.hasSettings := by
  rw [hasSettings, hasSettings, h.1, h.2]

/-- What a directory keeps of one more configuration. -/
def mergeInto (existing : Option TsConfig) (config : TsConfig) : Option TsConfig :=
  some ((existing.map (mergedTsConfig · config)).getD config)

/-- The settings of a directory from the files that were read. -/
def directorySettings (access : ConfigAccess) (parse : String → Option Json) (directory : String)
    (seen : List String) : Option TsConfig :=
  ((seen.filter fun relative => pathParent relative = directory).filterMap
    (settingsOf access parse)).foldl mergeInto none

lemma directory_of_settingsOf (h : settingsOf access parse relative = some config) :
    config.directory = pathParent relative ∧ config.Tidy := by
  rw [settingsOf, readTsConfig] at h
  cases hread : access.read relative with
  | none => simp [hread] at h
  | some content =>
    cases hparse : parse (sanitizeJsonc content) with
    | none => simp [hread, hparse] at h
    | some value =>
      simp only [hread, hparse, map_some, join_some, some.injEq] at h
      subst h
      exact ⟨rfl, tidy_tsConfig _ value⟩

/-- The loader files the settings under the directories of the files that hold them. -/
lemma get?_configs_record (directory : String) (seen : List String) :
    get? directory (recordAll access parse seen).configs =
      directorySettings access parse directory seen := by
  induction seen using List.reverseRecOn with
  | nil => rfl
  | append_singleton seen relative ih =>
    rw [recordAll, foldl_append, ← recordAll, foldl_cons, foldl_nil,
      directorySettings, filter_append, filterMap_append, foldl_append,
      ← directorySettings, ← ih]
    cases hread : readTsConfig access parse relative with
    | none =>
      have hnone : settingsOf access parse relative = none := by simp [settingsOf, hread]
      by_cases hdirectory : pathParent relative = directory <;>
        simp [record, hdirectory, hnone]
    | some parsed =>
      cases parsed with
      | none =>
        have hnone : settingsOf access parse relative = none := by simp [settingsOf, hread]
        by_cases hdirectory : pathParent relative = directory <;>
          simp [record, recordConfigError, hdirectory, hnone]
      | some parsed =>
        have hsome : settingsOf access parse relative = some parsed.config := by
          simp [settingsOf, hread]
        have hparent := (directory_of_settingsOf hsome).1
        by_cases hdirectory : pathParent relative = directory
        · have hfilter : ([relative].filter fun relative => pathParent relative = directory) =
              [relative] := by simp [hdirectory]
          rw [record, mergeTsConfig, hparent, hdirectory,
            get?_alter_self, hfilter, filterMap_cons_some hsome]
          rfl
        · rw [record, mergeTsConfig, get?_alter_of_ne]
          · simp [hdirectory]
          · rw [hparent]
            exact fun heq => hdirectory heq.symm

variable {configs : List TsConfig}

/-- Configurations without settings leave a directory without. -/
lemma foldl_mergeInto_blank (h : ∀ config ∈ configs, config.hasSettings = false ∧ config.Tidy)
    (hexisting : existing.Tidy) : ∃ merged, configs.foldl mergeInto (some existing) = some merged ∧
      SameSettings merged existing := by
  induction configs generalizing existing with
  | nil => exact ⟨existing, rfl, rfl, rfl⟩
  | cons config configs ih =>
    obtain ⟨hblank, -⟩ := h config mem_cons_self
    have hsame := sameSettings_merged_blank hexisting hblank
    obtain ⟨merged, hmerged, hrest⟩ :=
      ih (fun other hother => h other (mem_cons_of_mem _ hother)) (hsame.tidy hexisting)
    exact ⟨merged, hmerged, hrest.1.trans hsame.1, hrest.2.trans hsame.2⟩

lemma directory_blank (h : ∀ config ∈ configs, config.hasSettings = false ∧ config.Tidy) :
    ∀ merged, configs.foldl mergeInto none = some merged → merged.hasSettings = false := by
  intro merged hmerged
  cases configs with
  | nil => cases hmerged
  | cons config configs =>
    obtain ⟨hblank, htidy⟩ := h config mem_cons_self
    obtain ⟨other, hother, hsame⟩ := foldl_mergeInto_blank
      (fun other hother => h other (mem_cons_of_mem _ hother)) htidy
    cases hother.symm.trans hmerged
    exact hsame.hasSettings_eq.trans hblank

lemma directory_single {before after : List TsConfig}
    (hbefore : ∀ other ∈ before, other.hasSettings = false ∧ other.Tidy)
    (hafter : ∀ other ∈ after, other.hasSettings = false ∧ other.Tidy) (hconfig : config.Tidy) :
    ∃ merged, (before ++ config :: after).foldl mergeInto none = some merged ∧
      SameSettings merged config := by
  rw [foldl_append, foldl_cons]
  obtain ⟨first, hfirst, hsame⟩ : ∃ first, mergeInto (before.foldl mergeInto none) config =
      some first ∧ SameSettings first config := by
    cases hexisting : before.foldl mergeInto none with
    | none => exact ⟨config, rfl, rfl, rfl⟩
    | some existing =>
      exact ⟨_, rfl, sameSettings_merged (directory_blank hbefore existing hexisting) hconfig⟩
  obtain ⟨merged, hmerged, hrest⟩ := foldl_mergeInto_blank hafter (hsame.tidy hconfig)
  exact ⟨merged, hfirst ▸ hmerged, hrest.1.trans hsame.1, hrest.2.trans hsame.2⟩

/-! ## Where an import looks -/

lemma answer_blank (h : config.hasSettings = false) (specifier : String)
    (nodes : List String) : config.answer specifier nodes = none := by
  obtain ⟨hbase, hpaths⟩ := hasSettings_eq_false_iff.mp h
  rw [answer, hpaths, hbase]
  rfl

lemma exists_answer (h : config.hasSettings = true) :
    ∃ specifier nodes resolution, config.answer specifier nodes = some resolution := by
  cases hpaths : config.paths with
  | nil =>
    cases hbase : config.baseUrl with
    | none => exact absurd (hasSettings_eq_false_iff.mpr ⟨hbase, hpaths⟩) (by simp [h])
    | some base =>
      have hfound : tryResolveJs (joinGraphPath base "") [joinGraphPath base ""] =
          some (joinGraphPath base "") := by
        simp [tryResolveJs, jsCandidates]
      exact ⟨"", [joinGraphPath base ""], .resolved (joinGraphPath base "") "tsconfig-base-url",
        by simp [answer, hpaths, hbase, resolveTsPaths, hfound]⟩
  | cons mapping rest =>
    obtain ⟨specifier, capture, hmatch⟩ : ∃ specifier capture,
        matchPathPattern mapping.pattern specifier = some capture := by
      by_cases hstar : hasStar mapping.pattern
      · have hsome : (matchPathPattern mapping.pattern (String.ofList
            (patternStart mapping.pattern ++ patternEnd mapping.pattern))).isSome := by
          rw [matchPathPattern, if_pos hstar]
          simp
        exact ⟨_, isSome_iff_exists.mp hsome⟩
      · exact ⟨mapping.pattern, none, by rw [matchPathPattern, if_neg hstar, if_pos rfl]⟩
    exact ⟨specifier, [], tsTarget mapping.base mapping.targets capture [],
      by rw [answer, hpaths, resolveTsPaths, hmatch]⟩

section

variable {count : ℕ} (hempty : (loaded access parse files count).candidates = [])
include hempty

lemma answer_directory_none {directory : String}
    (h : ∀ relative config, Reached access parse files relative →
      settingsOf access parse relative = some config → config.hasSettings = true →
      pathParent relative ≠ directory) (specifier : String) (nodes : List String) :
    ((get? directory (loaded access parse files count).resolver.configs).bind fun config =>
      config.answer specifier nodes) = none := by
  rw [resolver_loaded, get?_configs_record, bind_eq_none_iff]
  intro merged hmerged
  refine answer_blank (directory_blank ?_ merged hmerged) specifier nodes
  intro config hconfig
  obtain ⟨relative, hrelative, hsettings⟩ := mem_filterMap.mp hconfig
  obtain ⟨hseen, hdirectory⟩ := mem_filter.mp hrelative
  refine ⟨?_, (directory_of_settingsOf hsettings).2⟩
  rw [← Bool.not_eq_true]
  exact fun hhas => h relative config ((mem_seen_iff hempty).mp hseen) hsettings hhas
    (of_decide_eq_true hdirectory)

variable {inherited : TsConfig}

lemma answer_directory_single {base : String} (hreached : Reached access parse files base)
    (hbase : settingsOf access parse base = some inherited)
    (h : ∀ relative config, Reached access parse files relative →
      settingsOf access parse relative = some config → config.hasSettings = true →
      pathParent relative = pathParent base → relative = base)
    (specifier : String) (nodes : List String) : ((get? (pathParent base)
        (loaded access parse files count).resolver.configs).bind fun config =>
      config.answer specifier nodes) = inherited.answer specifier nodes := by
  obtain ⟨front, back, hseen⟩ := append_of_mem ((mem_seen_iff hempty).mpr hreached)
  have hnodup := nodup_seen access parse files count
  rw [hseen] at hnodup
  have hblank (part : List String) (hpart : ∀ relative ∈ part,
      relative ∈ (loaded access parse files count).seen ∧ relative ≠ base) :
      ∀ config ∈ (part.filter fun relative => pathParent relative = pathParent base).filterMap
        (settingsOf access parse), config.hasSettings = false ∧ config.Tidy := by
    intro config hconfig
    obtain ⟨relative, hrelative, hsettings⟩ := mem_filterMap.mp hconfig
    obtain ⟨hmem, hdirectory⟩ := mem_filter.mp hrelative
    obtain ⟨hrelseen, hne⟩ := hpart relative hmem
    refine ⟨?_, (directory_of_settingsOf hsettings).2⟩
    rw [← Bool.not_eq_true]
    exact fun hhas => hne (h relative config ((mem_seen_iff hempty).mp hrelseen) hsettings hhas
      (of_decide_eq_true hdirectory))
  have hfront := hblank front fun relative hrelative =>
    ⟨hseen ▸ mem_append_left _ hrelative, fun heq =>
      (nodup_append.mp hnodup).2.2 relative hrelative base mem_cons_self heq⟩
  have hback := hblank back fun relative hrelative =>
    ⟨hseen ▸ mem_append_right _ (mem_cons_of_mem _ hrelative), fun heq =>
      (nodup_cons.mp (nodup_append.mp hnodup).2.1).1 (heq ▸ hrelative)⟩
  obtain ⟨merged, hmerged, hsame⟩ :=
    directory_single hfront hback (directory_of_settingsOf hbase).2
  have hdirectory : directorySettings access parse (pathParent base)
      (loaded access parse files count).seen = some merged := by
    rw [directorySettings, hseen, filter_append, filter_cons_of_pos (by simp),
      filterMap_append, filterMap_cons_some hbase]
    exact hmerged
  rw [resolver_loaded, get?_configs_record, hdirectory, bind_some]
  exact hsame.answer_eq specifier nodes

end

/-- Nothing with settings lies in the directory of the importer or above. -/
def Hidden (access : ConfigAccess) (parse : String → Option Json) (files : List String)
    (importer : String) : Prop :=
  ∀ relative config, Reached access parse files relative →
    settingsOf access parse relative = some config → config.hasSettings = true →
    pathParent relative ∉ directoriesOf importer

/-- A file lies in the directory of the importer or above, and nothing else with settings up to
there. -/
def Nearest (access : ConfigAccess) (parse : String → Option Json) (files : List String)
    (importer base : String) : Prop :=
  ∃ below above, directoriesOf importer = below ++ pathParent base :: above ∧
    pathParent base ∉ below ∧
    ∀ relative config, Reached access parse files relative →
      settingsOf access parse relative = some config → config.hasSettings = true →
      pathParent relative ∈ below ++ [pathParent base] → relative = base

variable {importer : String}

lemma uses_of_nearest {count : ℕ} (hempty : (loaded access parse files count).candidates = [])
    {base : String} (hreached : Reached access parse files base)
    (hbase : settingsOf access parse base = some inherited)
    (h : Nearest access parse files importer base) :
    Uses (loaded access parse files count).resolver importer inherited := by
  obtain ⟨below, above, hdirectories, hbelow, hsingle⟩ := h
  intro specifier nodes resolution hresolution
  have hnone : below.findSome? (fun directory =>
      (get? directory (loaded access parse files count).resolver.configs).bind
        fun config => config.answer specifier nodes) = none := by
    rw [findSome?_eq_none_iff]
    intro directory hdirectory
    refine answer_directory_none hempty ?_ specifier nodes
    rintro relative config hrelative hsettings hhas rfl
    refine hbelow ?_
    rwa [← hsingle relative config hrelative hsettings hhas (mem_append_left _ hdirectory)]
  rw [resolveTsConfig, hdirectories, findSome?_append, hnone, none_or,
    findSome?_cons, answer_directory_single hempty hreached hbase
      (fun relative config hrelative hsettings hhas hparent => hsingle relative config hrelative
        hsettings hhas (hparent ▸ mem_append_right _ (mem_singleton_self _))),
    hresolution]

lemma not_uses_of_hidden {count : ℕ} (hempty : (loaded access parse files count).candidates = [])
    (hhas : inherited.hasSettings = true) (h : Hidden access parse files importer) :
    ¬ Uses (loaded access parse files count).resolver importer inherited := by
  intro huses
  obtain ⟨specifier, nodes, resolution, hanswer⟩ := exists_answer hhas
  have hnone : (loaded access parse files count).resolver.resolveTsConfig importer specifier
      nodes = none := by
    rw [resolveTsConfig, findSome?_eq_none_iff]
    intro directory hdirectory
    refine answer_directory_none hempty ?_ specifier nodes
    rintro relative config hrelative hsettings hset rfl
    exact h relative config hrelative hsettings hset hdirectory
  exact absurd ((huses specifier nodes resolution hanswer).symm.trans hnone) (by simp)

/-! ## Inherited settings -/

lemma extendsOf_mem {relative other : String}
    (h : extendsOf access parse relative = some other) :
    other ∈ relatedFiles access parse relative := by
  obtain ⟨content, hread, h⟩ := bind_eq_some_iff.mp h
  obtain ⟨value, hparse, h⟩ := bind_eq_some_iff.mp h
  rw [relatedFiles, readTsConfig, hread, map_some, hparse, map_some, relatedOf,
    parsedTsConfig, joins_union, h]
  exact .inr (mem_toList.mpr rfl)

lemma reached_of_governing {config : String} (himporter : importer ∈ files)
    (h : governing access importer = some config) : Reached access parse files config := by
  refine .start (mem_configCandidates.mpr ⟨find?_some h, importer, himporter, ?_⟩)
  obtain ⟨directory, hdirectory, hname⟩ := mem_flatMap.mp (mem_of_find?_eq_some h)
  obtain ⟨name, hname, hjoin⟩ := List.mem_map.mp hname
  exact ⟨directory, hdirectory, name, hname, hjoin⟩

/-- What is inherited is come to, and is what its file says. -/
lemma Inherits.reached {relative base : String} (h : Inherits access parse relative base inherited)
    (hrelative : Reached access parse files relative) :
    Reached access parse files base ∧ settingsOf access parse base = some inherited ∧
      inherited.hasSettings = true := by
  induction h with
  | own hsettings hhas => exact ⟨hrelative, hsettings, hhas⟩
  | next _ _ hextends _ ih => exact ih (.next hrelative (extendsOf_mem hextends))

/-- **When inherited settings are used.**  The loader ends.  An importer whose configuration
inherits its settings is resolved by them if they lie in its directory or above, with no others on
the way, and is not if no settings lie there; where no others lie there, the place of the inherited
ones decides. -/
theorem inherited_settings_iff (access : ConfigAccess) (parse : String → Option Json)
    (files : List String) :
    (∃ count, (loaded access parse files count).candidates = []) ∧
    ∀ count, (loaded access parse files count).candidates = [] → ∀ importer ∈ files,
      ∀ config base inherited, governing access importer = some config →
        Inherits access parse config base inherited → config ≠ base →
        (Nearest access parse files importer base →
          Uses (loaded access parse files count).resolver importer inherited) ∧
        (Hidden access parse files importer →
          ¬ Uses (loaded access parse files count).resolver importer inherited) ∧
        ((∀ relative config, Reached access parse files relative →
            settingsOf access parse relative = some config → config.hasSettings = true →
            pathParent relative ∈ directoriesOf importer → relative = base) →
          (Uses (loaded access parse files count).resolver importer inherited ↔
            pathParent base ∈ directoriesOf importer)) := by
  refine ⟨exists_loaded access parse files, ?_⟩
  intro count hempty importer himporter config base inherited hgoverns hinherits _
  obtain ⟨hreached, hsettings, hhas⟩ :=
    hinherits.reached (reached_of_governing himporter hgoverns)
  refine ⟨uses_of_nearest hempty hreached hsettings, not_uses_of_hidden hempty hhas,
    fun hsingle => ⟨fun huses => ?_, fun habove => ?_⟩⟩
  · by_contra hbelow
    refine not_uses_of_hidden hempty hhas (fun relative other hrelative hother hset hmem => ?_) huses
    exact hbelow (hsingle relative other hrelative hother hset hmem ▸ hmem)
  · obtain ⟨below, above, hdirectories, hfirst⟩ := eq_append_cons_of_mem habove
    refine uses_of_nearest hempty hreached hsettings ⟨below, above, hdirectories, hfirst,
      fun relative other hrelative hother hset hmem => ?_⟩
    refine hsingle relative other hrelative hother hset ?_
    rw [hdirectories]
    rcases mem_append.mp hmem with hmem | hmem
    · exact mem_append_left _ hmem
    · exact mem_append_right _ (mem_singleton.mp hmem ▸ mem_cons_self)

/-! ### A base in a directory of its own -/

namespace Inheriting

def rootText : String := "\x7b\"extends\": \"./configs/base.json\"\x7d"

/-- The configuration that it extends. -/
def baseText : String :=
  "\x7b\"compilerOptions\": \x7b\"paths\": \x7b\"@/*\": [\"../src/*\"]\x7d\x7d\x7d"

def repository : ConfigAccess where
  snapshot := true
  files := [("tsconfig.json", some rootText), ("configs/base.json", some baseText)]
  directories := []

def rootValue : Json := .object [("extends", .string "./configs/base.json")]

def baseValue : Json :=
  .object [("compilerOptions", .object [("paths",
    .object [("@/*", .array [.string "../src/*"])])])]

def reads (text : String) : Option Json :=
  if text = rootText then some rootValue else if text = baseText then some baseValue else none

def inherited : TsConfig := ⟨"configs", none, [⟨"@/*", ["../src/*"], "configs"⟩]⟩

lemma sanitizeJsonc_rootText : sanitizeJsonc rootText = rootText := by
  apply asBytes_injective
  decide +kernel

lemma sanitizeJsonc_baseText : sanitizeJsonc baseText = baseText := by
  apply asBytes_injective
  rw [asBytes_sanitizeJsonc]
  decide +kernel

lemma readTsConfig_root : readTsConfig repository reads "tsconfig.json" =
    some (some ⟨⟨"", none, []⟩, ["configs/base.json"]⟩) := by
  have hread : repository.read "tsconfig.json" = some rootText := by decide
  have hvalue : parsedTsConfig repository "tsconfig.json" rootValue =
      ⟨⟨"", none, []⟩, ["configs/base.json"]⟩ := by decide +kernel
  rw [readTsConfig, hread, map_some, sanitizeJsonc_rootText, reads, if_pos rfl, map_some, hvalue]

lemma readTsConfig_base : readTsConfig repository reads "configs/base.json" =
    some (some ⟨inherited, []⟩) := by
  have hread : repository.read "configs/base.json" = some baseText := by decide
  have hvalue : parsedTsConfig repository "configs/base.json" baseValue = ⟨inherited, []⟩ := by
    decide +kernel
  rw [readTsConfig, hread, map_some, sanitizeJsonc_baseText, reads,
    if_neg (by decide), if_pos rfl, map_some, hvalue]

end Inheriting

lemma holds_of_reached {relative : String} (h : Reached access parse files relative) :
    access.holds relative := by
  cases h with
  | start hcandidate => exact (mem_configCandidates.mp hcandidate).1
  | next _ hnext => exact holds_of_mem_relatedFiles hnext

open Inheriting in
/-- A file at the root is not resolved by what its configuration inherits from `configs`. -/
theorem not_inherited_settings :
    ¬ ∀ count, (loaded Inheriting.repository Inheriting.reads ["index.ts"] count).candidates = [] →
      ∀ importer ∈ ["index.ts"], ∀ config base inherited,
        governing Inheriting.repository importer = some config →
        Inherits Inheriting.repository Inheriting.reads config base inherited → config ≠ base →
        Uses (loaded Inheriting.repository Inheriting.reads ["index.ts"] count).resolver importer
          inherited := by
  intro h
  obtain ⟨count, hempty⟩ := exists_loaded Inheriting.repository Inheriting.reads ["index.ts"]
  have hbase : settingsOf Inheriting.repository Inheriting.reads "configs/base.json" =
      some Inheriting.inherited := by rw [settingsOf, readTsConfig_base]; rfl
  have hroot : settingsOf Inheriting.repository Inheriting.reads "tsconfig.json" =
      some ⟨"", none, []⟩ := by rw [settingsOf, readTsConfig_root]; rfl
  have hextends : extendsOf Inheriting.repository Inheriting.reads "tsconfig.json" =
      some "configs/base.json" := by
    have hread : repository.read "tsconfig.json" = some rootText := by decide
    rw [extendsOf, hread, bind_some, sanitizeJsonc_rootText, Inheriting.reads, if_pos rfl]
    decide +kernel
  refine not_uses_of_hidden hempty (by decide) ?_ (h count hempty "index.ts" (by simp)
    "tsconfig.json" "configs/base.json" Inheriting.inherited (by decide +kernel)
    (.next hroot rfl hextends (.own hbase (by decide))) (by decide))
  intro relative config hreached hsettings hhas
  have hholds := of_decide_eq_true (holds_of_reached hreached)
  have hfiles : relative = "tsconfig.json" ∨ relative = "configs/base.json" := by
    simpa [Inheriting.repository, KeyedList.keys] using hholds
  rcases hfiles with rfl | rfl
  · obtain rfl := some.inj (hroot.symm.trans hsettings)
    exact absurd hhas (by decide)
  · decide +kernel

end Reposcout.Graph.Js
