import Reposcout.Graph.Godot

/-!
# Godot resolution and nested projects

The tables of the resolver hold for every project the files that its configurations and sources put
under a name or a UID.  A class and a UID are filed under the nearest project of their file, and a
path is resolved only within the project of the importer; a singleton is filed under the project
that loads it, wherever its file is.
-/

namespace Reposcout.Graph.GodotResolver

open Js Godot List KeyedList

variable {resolver : GodotResolver} {languages : GodotLanguages}

/-! ## Tables -/

def Filed (table : GodotTable) (key : String × String) (target : String) : Prop :=
  target ∈ (get? key table).getD []

variable {target : String}

lemma mem_withTarget {other : String} {targets : Option (List String)} :
    other ∈ withTarget target targets ↔ other = target ∨ other ∈ targets.getD [] := by
  unfold withTarget
  dsimp only
  split_ifs with hmem
  · refine ⟨.inr, ?_⟩
    rintro (rfl | h)
    · exact hmem
    · exact h
  · rw [mem_append, mem_singleton]
    exact or_comm

variable {table : GodotTable}

/-- One more file under a key. -/
lemma filed_alter {key other : String × String} {found : String} :
    Filed (KeyedList.alter key (withTarget target) table) other found ↔
      (other = key ∧ found = target) ∨ Filed table other found := by
  unfold Filed
  by_cases hkey : other = key
  · subst hkey
    simp [get?_alter_self, mem_withTarget]
  · simp [get?_alter_of_ne hkey, hkey]

/-- No file is listed twice under a key. -/
def Distinct (table : GodotTable) : Prop := ∀ key, ((get? key table).getD []).Nodup

lemma Distinct.alter (h : Distinct table) (key : String × String) (target : String) :
    Distinct (KeyedList.alter key (withTarget target) table) := by
  intro other
  by_cases hkey : other = key
  · subst hkey
    rw [get?_alter_self, Option.getD_some]
    unfold withTarget
    dsimp only
    split_ifs with hmem
    · exact h other
    · exact nodup_append.mpr ⟨h other, by simp, by
        rintro a ha b hb rfl
        exact hmem (mem_singleton.mp hb ▸ ha)⟩
  · rw [get?_alter_of_ne hkey]
    exact h other

/-- The only file under a key. -/
lemma get?_eq_singleton_iff (h : Distinct table) {key : String × String} :
    get? key table = some [target] ↔
      Filed table key target ∧ ∀ other, Filed table key other → other = target := by
  have hdistinct := h key
  unfold Filed
  cases htargets : get? key table with
  | none => simp
  | some targets =>
    rw [htargets, Option.getD_some] at hdistinct
    simp only [Option.some.injEq, Option.getD_some]
    constructor
    · rintro rfl
      simp
    · rintro ⟨hmem, hall⟩
      match targets, hdistinct, hmem, hall with
      | [only], _, hmem, _ => rw [mem_singleton.mp hmem]
      | first :: second :: rest, hdistinct, _, hall =>
        have hfirst := hall first (by simp)
        have hsecond := hall second (by simp)
        simp [hfirst, hsecond] at hdistinct

/-! ## How the tables are filled -/

/-- Both tables list every file once under a key. -/
structure Tidy (resolver : GodotResolver) : Prop where
  names : Distinct resolver.names
  uids : Distinct resolver.uids

inductive TableKind where
  | name
  | uid

def Has (resolver : GodotResolver) : TableKind × (String × String) × String → Prop
  | (.name, key, target) => Filed resolver.names key target
  | (.uid, key, target) => Filed resolver.uids key target

/-- What a step files, apart from what was filed before. -/
structure Files (before after : GodotResolver)
    (filed : TableKind × (String × String) × String → Prop) : Prop where
  tidy : before.Tidy → after.Tidy
  has : ∀ entry, after.Has entry ↔ filed entry ∨ before.Has entry

variable {before after : GodotResolver}

lemma Files.none (hnames : after.names = before.names)
    (huids : after.uids = before.uids) : Files before after fun _ => False := by
  refine ⟨fun h => ⟨hnames ▸ h.names, huids ▸ h.uids⟩, ?_⟩
  rintro ⟨_ | _, key, target⟩
  · simp [Has, hnames]
  · simp [Has, huids]

variable {filed : TableKind × (String × String) × String → Prop}

lemma Files.nothing (hnames : after.names = before.names)
    (huids : after.uids = before.uids) (h : ∀ entry, ¬ filed entry) : Files before after filed := by
  have hnone := Files.none hnames huids
  exact ⟨hnone.tidy, fun entry => by simp [hnone.has, h entry]⟩

variable {filed' : TableKind × (String × String) × String → Prop}

lemma Files.trans {first second third : GodotResolver}
    (h : Files first second filed)
    (h' : Files second third filed') : Files first third fun entry => filed' entry ∨ filed entry :=
  ⟨fun htidy => h'.tidy (h.tidy htidy), fun entry => by rw [h'.has, h.has, or_assoc]⟩

lemma Files.congr (h : Files before after filed)
    (heq : ∀ entry, filed entry ↔ filed' entry) : Files before after filed' :=
  ⟨h.tidy, fun entry => by rw [h.has, heq]⟩

lemma files_foldl {ι : Type} (step : GodotResolver → ι → GodotResolver)
    (keeps : GodotResolver → Prop) {filed : ι → TableKind × (String × String) × String → Prop}
    (hstep : ∀ resolver item, keeps resolver →
      keeps (step resolver item) ∧ Files resolver (step resolver item) (filed item))
    (items : List ι) (resolver : GodotResolver) (h : keeps resolver) :
    keeps (items.foldl step resolver) ∧
      Files resolver (items.foldl step resolver) fun entry => ∃ item ∈ items, filed item entry := by
  induction items generalizing resolver with
  | nil => exact ⟨h, Files.nothing rfl rfl (by simp)⟩
  | cons item rest ih =>
    obtain ⟨hkeeps, hfirst⟩ := hstep resolver item h
    obtain ⟨hlast, hrest⟩ := ih (step resolver item) hkeeps
    refine ⟨hlast, (hfirst.trans hrest).congr fun entry => ?_⟩
    rw [exists_mem_cons_iff]
    exact or_comm

lemma files_addName (resolver : GodotResolver) (project name target : String) :
    Files resolver (resolver.addName project name target) fun entry =>
      entry = (.name, (project, name), target) := by
  refine ⟨fun h => ⟨h.names.alter _ _, h.uids⟩, ?_⟩
  rintro ⟨_ | _, key, found⟩
  · simp [Has, addName, filed_alter]
  · simp [Has, addName]

lemma files_indexUid (resolver : GodotResolver) (path uid : String) :
    Files resolver (resolver.indexUid path uid) fun entry =>
      ∃ project, validUid uid = true ∧ resolver.project path = some project ∧
        entry = (.uid, (project, uid), path) := by
  unfold indexUid
  split
  · next hvalid =>
    cases hproject : resolver.project path with
    | none => exact Files.nothing rfl rfl (by simp)
    | some project =>
      refine ⟨fun h => ⟨h.names, h.uids.alter _ _⟩, ?_⟩
      rintro ⟨_ | _, key, found⟩
      · simp [Has]
      · simp [Has, filed_alter, hvalid]
  · next hvalid => exact Files.nothing rfl rfl (by simp [hvalid])

lemma files_addAutoloads (resolver : GodotResolver) (project : String) (root : Cst) :
    Files resolver (resolver.addAutoloads project root) fun entry =>
      ∃ autoload ∈ singletons project root,
        entry = (.name, (project, autoload.1), autoload.2) :=
  (files_foldl _ (fun _ => True) (fun resolver autoload _ =>
    ⟨trivial, files_addName resolver project autoload.1 autoload.2⟩) _ resolver trivial).2

section

variable (languages : GodotLanguages) (files : List String) (access : ConfigAccess)
  (parse : String → Option (Cst × ℕ)) (sources : List (String × GodotFacts))

def built : GodotResolver := (discover languages files access parse).preload sources

/-- A configuration of a project has a file as the singleton of a name. -/
def IsSingleton (project name target : String) : Prop :=
  ∃ config ∈ candidates languages files, isConfig files access config = true ∧
    pathParent config = project ∧ ∃ content root errors, access.read config = some content ∧
      parse content = some (root, errors) ∧ (name, target) ∈ singletons project root

def IsClass (project name target : String) : Prop :=
  ∃ facts, (target, facts) ∈ sources ∧ facts.className = some name ∧
    (built languages files access parse sources).project target = some project

/-- A file of a project has a UID, by its sidecar or in its header. -/
def IsUid (project uid target : String) : Prop :=
  validUid uid = true ∧ (built languages files access parse sources).project target = some project ∧
    ((target ∈ files.filter languages.hasUidSidecar ∧ access.holds (target ++ ".uid") = true ∧
        ∃ content, access.read (target ++ ".uid") = some content ∧ trim content = uid) ∨
      ∃ facts, (target, facts) ∈ sources ∧ facts.uid = some uid)

variable {languages files access parse sources}

lemma files_addConfig (resolver : GodotResolver) (config : String) :
    Files resolver (addConfig files access parse resolver config) fun entry =>
      isConfig files access config = true ∧ ∃ content root errors,
        access.read config = some content ∧ parse content = some (root, errors) ∧
          ∃ autoload ∈ singletons (pathParent config) root,
            entry = (.name, (pathParent config, autoload.1), autoload.2) := by
  unfold addConfig
  by_cases hconfig : isConfig files access config = true
  swap
  · rw [if_neg hconfig]
    exact Files.nothing rfl rfl (by simp [hconfig])
  rw [if_pos hconfig]
  cases hread : access.read config with
  | none =>
    exact Files.nothing rfl rfl (by simp)
  | some content =>
    cases hparse : parse content with
    | none =>
      refine Files.nothing ?_ ?_ (by simp [hparse])
      all_goals simp only [hparse]; rfl
    | some result =>
      obtain ⟨root, errors⟩ := result
      simp only [hparse]
      have hadd := files_addAutoloads (if errors > 0 then
        (resolver.addProject config).recordError config errors else resolver.addProject config)
          (pathParent config) root
      have hbefore : Files resolver (if errors > 0 then
          (resolver.addProject config).recordError config errors else resolver.addProject config)
          fun _ => False := by
        split_ifs <;> exact Files.none rfl rfl
      refine (hbefore.trans hadd).congr fun entry => ?_
      simp [hconfig, hparse]

variable {projects : List String}

lemma files_addSidecar (resolver : GodotResolver) (path : String)
    (h : resolver.projects = projects) : (addSidecar access resolver path).projects = projects ∧
      Files resolver (addSidecar access resolver path) fun entry =>
        ∃ project content, access.holds (path ++ ".uid") = true ∧
          access.read (path ++ ".uid") = some content ∧ validUid (trim content) = true ∧
          longest (projects.filter (pathInScope path)) = some project ∧
          entry = (.uid, (project, trim content), path) := by
  unfold addSidecar
  by_cases hholds : access.holds (path ++ ".uid") = true
  swap
  · rw [if_neg hholds]
    exact ⟨h, Files.nothing rfl rfl (by simp [hholds])⟩
  rw [if_pos hholds]
  cases hread : access.read (path ++ ".uid") with
  | none =>
    refine ⟨h, ?_⟩
    exact Files.nothing rfl rfl (by simp)
  | some content =>
    dsimp only
    split
    · next hvalid =>
      have hindex := files_indexUid
        { resolver with configFiles := resolver.configFiles ++ [path ++ ".uid"] } path (trim content)
      refine ⟨?_, ?_⟩
      · unfold indexUid
        rw [if_pos hvalid]
        split <;> exact h
      · have hproject : ({ resolver with
            configFiles := resolver.configFiles ++ [path ++ ".uid"] } : GodotResolver).project path =
            longest (projects.filter (pathInScope path)) := by
          rw [project, ← h]
        have hbefore : Files resolver { resolver with
            configFiles := resolver.configFiles ++ [path ++ ".uid"] } fun _ => False :=
          Files.none rfl rfl
        refine (hbefore.trans hindex).congr fun entry => ?_
        simp [hproject, hholds, hvalid]
    · next hvalid =>
      refine ⟨h, ?_⟩
      exact Files.nothing rfl rfl (by simp [hvalid])

lemma files_addSource (resolver : GodotResolver) (source : String × GodotFacts)
    (h : resolver.projects = projects) : (resolver.addSource source).projects = projects ∧
      Files resolver (resolver.addSource source) fun entry =>
        ∃ project, longest (projects.filter (pathInScope source.1)) = some project ∧
          ((∃ name, source.2.className = some name ∧ entry = (.name, (project, name), source.1)) ∨
            ∃ uid, source.2.uid = some uid ∧ validUid uid = true ∧
              entry = (.uid, (project, uid), source.1)) := by
  obtain ⟨path, className, uid⟩ := source
  have hclass : (resolver.addClass path ⟨className, uid⟩).projects = projects ∧
      Files resolver (resolver.addClass path ⟨className, uid⟩) fun entry =>
        ∃ project name, longest (projects.filter (pathInScope path)) = some project ∧
          className = some name ∧ entry = (.name, (project, name), path) := by
    unfold addClass
    cases className with
    | none => exact ⟨h, Files.nothing rfl rfl (by simp)⟩
    | some name =>
      have hproject : resolver.project path = longest (projects.filter (pathInScope path)) := by
        rw [project, h]
      rw [hproject]
      cases longest (projects.filter (pathInScope path)) with
      | none => exact ⟨h, Files.nothing rfl rfl (by simp)⟩
      | some root => exact ⟨h, (files_addName resolver root name path).congr (by simp)⟩
  unfold addSource
  cases uid with
  | none =>
    refine ⟨hclass.1, hclass.2.congr fun entry => ?_⟩
    simp only [reduceCtorEq, false_and, exists_false, or_false]
    exact ⟨fun ⟨project, name, hroot, hname, hentry⟩ => ⟨project, hroot, name, hname, hentry⟩,
      fun ⟨project, hroot, name, hname, hentry⟩ => ⟨project, name, hroot, hname, hentry⟩⟩
  | some uid =>
    dsimp only
    have hindex := files_indexUid (resolver.addClass path ⟨className, some uid⟩) path uid
    have hproject : (resolver.addClass path ⟨className, some uid⟩).project path =
        longest (projects.filter (pathInScope path)) := by
      rw [project, hclass.1]
    refine ⟨?_, (hclass.2.trans hindex).congr fun entry => ?_⟩
    · unfold indexUid
      split
      · split <;> exact hclass.1
      · exact hclass.1
    · rw [hproject]
      constructor
      · rintro (⟨root, hvalid, hroot, hentry⟩ | ⟨root, name, hroot, hname, hentry⟩)
        · exact ⟨root, hroot, .inr ⟨uid, rfl, hvalid, hentry⟩⟩
        · exact ⟨root, hroot, .inl ⟨name, hname, hentry⟩⟩
      · rintro ⟨root, hroot, ⟨name, hname, hentry⟩ | ⟨other, hother, hvalid, hentry⟩⟩
        · exact .inr ⟨root, name, hroot, hname, hentry⟩
        · cases hother
          exact .inl ⟨root, hvalid, hroot, hentry⟩

/-- **What the tables hold**: singletons and classes by name, and files by UID. -/
lemma has_built : (built languages files access parse sources).Tidy ∧ (∀ project name target,
        Filed (built languages files access parse sources).names (project, name) target ↔
          IsSingleton languages files access parse project name target ∨
            IsClass languages files access parse sources project name target) ∧
      ∀ project uid target,
        Filed (built languages files access parse sources).uids (project, uid) target ↔
          IsUid languages files access parse sources project uid target := by
  obtain ⟨-, hconfigs⟩ := files_foldl (addConfig files access parse) (fun _ => True)
    (fun resolver config _ => ⟨trivial, files_addConfig resolver config⟩)
    (candidates languages files) {} trivial
  -- the projects are known before a file is filed under the project above it
  generalize hknown : (candidates languages files).foldl (addConfig files access parse) {} = known
    at hconfigs
  obtain ⟨hprojects, hsidecars⟩ := files_foldl (addSidecar access)
    (fun resolver => resolver.projects = known.projects)
    (fun resolver path h => files_addSidecar resolver path h)
    (files.filter languages.hasUidSidecar) known rfl
  obtain ⟨hbuilt, hsources⟩ := files_foldl addSource
    (fun resolver => resolver.projects = known.projects)
    (fun resolver source h => files_addSource resolver source h) sources _ hprojects
  have heq : sources.foldl addSource
      ((files.filter languages.hasUidSidecar).foldl (addSidecar access) known) =
      built languages files access parse sources := by
    rw [built, discover, hknown, preload]
  rw [heq] at hbuilt hsources
  have hproject : ∀ path, longest (known.projects.filter (pathInScope path)) =
      (built languages files access parse sources).project path := by
    intro path
    rw [project, hbuilt]
  simp only [hproject] at hsidecars hsources
  have hall := (hconfigs.trans hsidecars).trans hsources
  have hempty : ∀ entry, ¬ Has {} entry := by
    rintro ⟨_ | _, key, target⟩ <;> simp [Has, Filed]
  refine ⟨hall.tidy ⟨by simp [Distinct], by simp [Distinct]⟩, fun root name target => ?_,
    fun root uid target => ?_⟩
  · have hnames := hall.has (.name, (root, name), target)
    simp only [hempty, or_false, Prod.mk.injEq, reduceCtorEq, false_and, and_false, exists_false,
      true_and, false_or] at hnames
    refine Iff.trans hnames ?_
    constructor
    · rintro (⟨⟨path, facts⟩, hsource, other, hroot, found, hclass, ⟨rfl, rfl⟩, rfl⟩ | hsingleton)
      · exact .inr ⟨facts, hsource, hclass, hroot⟩
      · obtain ⟨config, hcandidate, hconfig, content, tree, errors, hread, hparse, ⟨key, found⟩,
          hautoload, ⟨rfl, rfl⟩, rfl⟩ := hsingleton
        exact .inl ⟨config, hcandidate, hconfig, rfl, content, tree, errors, hread, hparse,
          hautoload⟩
    · rintro (⟨config, hcandidate, hconfig, rfl, content, tree, errors, hread, hparse, hautoload⟩ |
        ⟨facts, hsource, hclass, hroot⟩)
      · exact .inr ⟨config, hcandidate, hconfig, content, tree, errors, hread, hparse,
          (name, target), hautoload, ⟨rfl, rfl⟩, rfl⟩
      · exact .inl ⟨(target, facts), hsource, root, hroot, name, hclass, ⟨rfl, rfl⟩, rfl⟩
  · have huids := hall.has (.uid, (root, uid), target)
    simp only [hempty, or_false, Prod.mk.injEq, reduceCtorEq, false_and, and_false, exists_false,
      true_and, false_or] at huids
    refine Iff.trans huids ?_
    constructor
    · rintro (⟨⟨path, facts⟩, hsource, other, hroot, found, huid, hvalid, ⟨rfl, rfl⟩, rfl⟩ |
        ⟨path, hpath, other, content, hholds, hread, hvalid, hroot, ⟨rfl, rfl⟩, rfl⟩)
      · exact ⟨hvalid, hroot, .inr ⟨facts, hsource, huid⟩⟩
      · exact ⟨hvalid, hroot, .inl ⟨hpath, hholds, content, hread, rfl⟩⟩
    · rintro ⟨hvalid, hroot, ⟨hpath, hholds, content, hread, rfl⟩ | ⟨facts, hsource, huid⟩⟩
      · exact .inr ⟨target, hpath, root, content, hholds, hread, hvalid, hroot, ⟨rfl, rfl⟩, rfl⟩
      · exact .inl ⟨(target, facts), hsource, root, hroot, uid, huid, hvalid, ⟨rfl, rfl⟩, rfl⟩

/-! ## Resolution -/

variable {nodes : List String}

lemma target_eq_resolved {found resolver kind : String}
    (h : GodotResolver.target languages found resolver nodes = .resolved target kind) :
    found = target ∧ target ∈ nodes := by
  unfold GodotResolver.target at h
  split at h
  · next hmem =>
    obtain ⟨rfl, -⟩ := ImportResolution.resolved.inj h
    exact ⟨rfl, hmem⟩
  · split at h <;> cases h

lemma target_of_mem {found : String} (resolver : String) (h : found ∈ nodes) :
    GodotResolver.target languages found resolver nodes = .resolved found resolver := by
  rw [GodotResolver.target, if_pos h]

lemma uniqueTarget_eq_resolved {targets : List String} {resolver kind : String}
    (h : uniqueTarget languages targets resolver nodes = .resolved target kind) :
    targets = [target] ∧ target ∈ nodes := by
  unfold uniqueTarget at h
  split at h
  · obtain ⟨rfl, hmem⟩ := target_eq_resolved h
    exact ⟨rfl, hmem⟩
  · cases h

variable {importer : String}

lemma project_of_resolvePath {resolver : GodotResolver} {kind : String} {path : Option String}
    (h : resolver.resolvePath languages importer path nodes = .resolved target kind) :
    resolver.project target = resolver.project importer := by
  unfold resolvePath at h
  split at h
  · cases h
  · dsimp only at h
    split at h
    · cases h
    · split at h
      · cases h
      · next hproject =>
        obtain ⟨rfl, -⟩ := target_eq_resolved h
        exact (not_not.mp hproject).symm

variable (languages files access parse sources) in
/-- A name of the project of the importer that has a singleton for its only file, in the graph but
of another project. -/
def LeavesProject (importer : String) (nodes : List String) : GodotReference → Prop
  | .name name => ∃ project target,
      (built languages files access parse sources).project importer = some project ∧
      IsSingleton languages files access parse project name target ∧
      (∀ other, IsSingleton languages files access parse project name other ∨
        IsClass languages files access parse sources project name other → other = target) ∧
      target ∈ nodes ∧
      (built languages files access parse sources).project target ≠ some project
  | .resource _ _ | .dynamic => False

variable (languages files access parse sources) in
def Ambiguous (importer : String) : GodotReference → Prop
  | .name name => ∃ project first second,
      (built languages files access parse sources).project importer = some project ∧
      first ≠ second ∧ ∀ target ∈ [first, second],
        IsSingleton languages files access parse project name target ∨
          IsClass languages files access parse sources project name target
  | .resource path uid => ∃ project name first second,
      (built languages files access parse sources).project importer = some project ∧
      uidOf path uid = some name ∧ first ≠ second ∧ ∀ target ∈ [first, second],
        IsUid languages files access parse sources project name target
  | .dynamic => False

lemma resolve_name_eq_resolved {name kind : String}
    (h : (built languages files access parse sources).resolve languages importer (.name name) nodes =
      .resolved target kind) :
    ∃ project, (built languages files access parse sources).project importer = some project ∧
      target ∈ nodes ∧
      (IsSingleton languages files access parse project name target ∨
        IsClass languages files access parse sources project name target) ∧
      ∀ other, IsSingleton languages files access parse project name other ∨
        IsClass languages files access parse sources project name other → other = target := by
  obtain ⟨htidy, hnames, -⟩ := @has_built languages files access parse sources
  simp only [resolve] at h
  split at h
  · cases h
  next root hroot =>
  split at h
  · cases h
  next targets htargets =>
  split at h
  · cases h
  obtain ⟨rfl, hmem⟩ := uniqueTarget_eq_resolved h
  obtain ⟨hfiled, honly⟩ := (get?_eq_singleton_iff htidy.names).mp htargets
  exact ⟨root, hroot, hmem, (hnames _ _ _).mp hfiled,
    fun other hother => honly other ((hnames _ _ _).mpr hother)⟩

variable {path uid : Option String}

lemma uidTargets_eq_singleton
    (h : (built languages files access parse sources).uidTargets importer path uid =
      some [target]) :
    ∃ project name, (built languages files access parse sources).project importer = some project ∧
      uidOf path uid = some name ∧
      IsUid languages files access parse sources project name target ∧
      ∀ other, IsUid languages files access parse sources project name other → other = target := by
  obtain ⟨htidy, -, huids⟩ := @has_built languages files access parse sources
  obtain ⟨name, hname, h⟩ := Option.bind_eq_some_iff.mp h
  obtain ⟨root, hroot, h⟩ := Option.bind_eq_some_iff.mp h
  obtain ⟨hfiled, honly⟩ := (get?_eq_singleton_iff htidy.uids).mp h
  exact ⟨root, name, hroot, hname, (huids _ _ _).mp hfiled,
    fun other hother => honly other ((huids _ _ _).mpr hother)⟩

lemma isSome_uidTargets {project name : String}
    (hroot : (built languages files access parse sources).project importer = some project)
    (hname : uidOf path uid = some name)
    (h : IsUid languages files access parse sources project name target) :
    ∃ targets, (built languages files access parse sources).uidTargets importer path uid =
      some targets := by
  have hfiled := ((@has_built languages files access parse sources).2.2 _ _ _).mpr h
  rw [uidTargets, hname, Option.bind_some, hroot, Option.bind_some]
  unfold Filed at hfiled
  cases htargets : get? (project, name)
      (built languages files access parse sources).uids with
  | none => simp [htargets] at hfiled
  | some targets => exact ⟨targets, rfl⟩

/-- **Resolution stays inside one project** exactly when no singleton leads out of it, and what is
ambiguous is not resolved. -/
theorem godot_resolution_contained_iff (importer : String) (reference : GodotReference)
    (nodes : List String) :
    ((∀ target kind, (built languages files access parse sources).resolve languages importer
          reference nodes = .resolved target kind →
        (built languages files access parse sources).project target =
          (built languages files access parse sources).project importer) ↔
      ¬ LeavesProject languages files access parse sources importer nodes reference) ∧
    (Ambiguous languages files access parse sources importer reference →
      ∀ target kind, (built languages files access parse sources).resolve languages importer
        reference nodes ≠ .resolved target kind) := by
  cases reference with
  | dynamic => exact ⟨iff_of_true (fun _ _ h => by cases h) id, fun h => h.elim⟩
  | name name =>
    refine ⟨⟨fun h => ?_, fun h target kind hresolved => ?_⟩, ?_⟩
    · rintro ⟨root, target, hroot, hsingleton, honly, hmem, hother⟩
      obtain ⟨htidy, hnames, -⟩ := @has_built languages files access parse sources
      have htargets : get? (root, name)
          (built languages files access parse sources).names = some [target] :=
        (get?_eq_singleton_iff htidy.names).mpr ⟨(hnames _ _ _).mpr (.inl hsingleton),
          fun other hfiled => honly other ((hnames _ _ _).mp hfiled)⟩
      have hne : [target] ≠ [importer] := by
        rintro hsame
        obtain rfl := (cons.inj hsame).1
        exact hother hroot
      refine hother ((h target "godot-global" ?_).trans hroot)
      simp only [resolve, hroot, htargets, if_neg hne]
      exact target_of_mem "godot-global" hmem
    · obtain ⟨root, hroot, hmem, hfiled, honly⟩ := resolve_name_eq_resolved hresolved
      rw [hroot]
      rcases hfiled with hsingleton | ⟨-, -, -, hclass⟩
      · by_contra hother
        exact h ⟨root, target, hroot, hsingleton, honly, hmem, hother⟩
      · exact hclass
    · rintro ⟨root, first, second, hroot, hne, hboth⟩ target kind hresolved
      obtain ⟨root', hroot', -, -, honly⟩ := resolve_name_eq_resolved hresolved
      cases hroot.symm.trans hroot'
      exact hne ((honly first (hboth first (by simp))).trans
        (honly second (hboth second (by simp))).symm)
  | resource path uid =>
    refine ⟨iff_of_true (fun target kind hresolved => ?_) id, ?_⟩
    · simp only [resolve, resolveResource] at hresolved
      split at hresolved
      · next targets htargets =>
        obtain ⟨rfl, -⟩ := uniqueTarget_eq_resolved hresolved
        obtain ⟨root, name, hroot, -, huid, -⟩ := uidTargets_eq_singleton htargets
        rw [hroot]
        exact huid.2.1
      · exact project_of_resolvePath hresolved
    · rintro ⟨root, name, first, second, hroot, hname, hne, hboth⟩ target kind hresolved
      obtain ⟨targets, htargets⟩ := isSome_uidTargets hroot hname (hboth first (by simp))
      simp only [resolve, resolveResource, htargets] at hresolved
      obtain ⟨rfl, -⟩ := uniqueTarget_eq_resolved hresolved
      obtain ⟨root', name', hroot', hname', -, honly⟩ := uidTargets_eq_singleton htargets
      cases hroot.symm.trans hroot'
      cases hname.symm.trans hname'
      exact hne ((honly first (hboth first (by simp))).trans
        (honly second (hboth second (by simp))).symm)

end

/-! ### A singleton of a nested project -/

section

def syntaxNode (kind text : String) (children : List Cst) : Cst :=
  .node 0 kind none true ⟨0, 0, 0, 0⟩ text children

/-- The section `[autoload]` with the line `Tool="*res://addon/tool.gd"`. -/
def toolAutoload : Cst :=
  syntaxNode "document" "" [syntaxNode "section" "" [syntaxNode "section_name" "autoload" [],
    syntaxNode "property" "" [syntaxNode "path" "Tool" [],
      syntaxNode "string" "\x22*res://addon/tool.gd\x22" []]]]

def scriptLanguages : GodotLanguages where
  isGodot path := extension path = some "gd" || extension path = some "godot"
  hasUidSidecar path := extension path = some "gd"
  isOutside _ := false

def nestedFiles : List String :=
  ["addon/project.godot", "addon/tool.gd", "main.gd", "project.godot"]

/-- The configuration of the root, and an empty one of the project below it. -/
def nestedAccess : ConfigAccess where
  snapshot := true
  files := [("project.godot", some "[autoload]"), ("addon/project.godot", some "")]
  directories := []

def nestedParse (content : String) : Option (Cst × ℕ) :=
  some (if content = "" then syntaxNode "document" "" [] else toolAutoload, 0)

/-- The name `Tool` leads from the outer project into the nested one. -/
theorem not_godot_resolution_contained :
    let resolver := built scriptLanguages nestedFiles nestedAccess nestedParse []
    resolver.resolve scriptLanguages "main.gd" (.name "Tool") nestedFiles =
        .resolved "addon/tool.gd" "godot-global" ∧
      resolver.project "main.gd" = some "" ∧ resolver.project "addon/tool.gd" = some "addon" := by
  decide +kernel

end

end Reposcout.Graph.GodotResolver
