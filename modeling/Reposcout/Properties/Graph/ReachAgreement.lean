import Reposcout.Context.Candidates
import Reposcout.Properties.Review.Neighborhood

/-!
# Impact, context and review agree

Three searches answer the same question over three data structures: the impact analysis over
arrays of numbers, the context planner over maps of names, the review context over maps of
paths.  Each is breadth first, so each reports shortest distances, and these agree.
-/

/-!
## Context reach is shortest distance

The distances that the context planner gives to the dependents of its seeds are the shortest
ones.  The update of a known but farther dependent, which the search provides for, never
happens: a breadth-first search meets every file at its final distance first.
-/

namespace Reposcout.Context

open BreadthFirst Reposcout.Graph List KeyedList

variable {topology : Topology} {seeds : List String} (languages : List String)

/-! ## The maps of the search -/

/-- The reach holds the distances of the files that are not seeds. -/
def ReachOk (seeds : List String) (s : ReachState) : Prop :=
  ∀ file, (get? file s.reach).map GraphReach.distance =
    if file ∈ seeds then none else get? file s.distances

lemma reachOk_enterDependent {s : ReachState} (h : ReachOk seeds s) (signal : GraphFileSignal)
    (path : String) (next : ℕ) (dependent : String) :
    ReachOk seeds (enterDependent seeds signal path next s dependent) := by
  intro file
  have hfile := h file
  unfold enterDependent
  dsimp only
  by_cases hsame : file = dependent
  · subst hsame
    by_cases hseed : file ∈ seeds
    · rw [if_pos hseed, if_pos hseed]
      rw [if_pos hseed] at hfile
      exact hfile
    · rw [if_neg hseed, if_neg hseed, get?_alter_self, get?_alter_self]
      rfl
  · rw [get?_alter_of_ne hsame, ← hfile]
    by_cases hseed : dependent ∈ seeds
    · rw [if_pos hseed]
    · rw [if_neg hseed, get?_alter_of_ne hsame]

/-- Passing a dependent enters it if it is unknown and leaves it alone if it is not farther. -/
lemma relaxDependent_relaxes {d : ℕ} (hfit : d + 1 ≤ u64Max) (signal : GraphFileSignal)
    (path : String) (neighbours : List String) :
    Relaxes (ReachOk seeds) (fun s file => get? file s.distances) (d + 1) neighbours
      (relaxDependent seeds signal path d) where
  unknown := by
    intro s queue dependent hs _ hnone
    unfold relaxDependent
    rw [hnone]
    refine ⟨rfl, reachOk_enterDependent hs signal path _ dependent, fun file => ?_⟩
    show get? file (KeyedList.alter dependent _ s.distances) = _
    rw [get?_alter, satAdd_eq hfit]
  known := by
    intro s queue dependent k hk hle
    unfold relaxDependent
    rw [hk, satAdd_eq hfit]
    rw [if_neg (by rw [decide_eq_true_iff]; omega)]

/-! ## The search -/

/-- Everything that the search can queue. -/
def reachable (graph : GraphSignals) (seeds : List String) : List String :=
  (seeds ++ allDependents graph).dedup

lemma mem_allDependents {imported importer : String}
    (h : DependentStep topology imported importer) :
    importer ∈ allDependents (graphSignals topology languages) := by
  obtain ⟨edge, hedge, hsource, htarget⟩ := h
  have hsignal := get?_graphSignals languages htarget
  refine mem_flatMap.mpr ⟨_, mem_of_get? hsignal, ?_⟩
  exact (mem_dependents_iff htarget).mpr ⟨edge, hedge, hsource, htarget⟩

lemma allDependents_subset {file : String}
    (h : file ∈ allDependents (graphSignals topology languages)) :
    file ∈ topology.graphFiles := by
  obtain ⟨⟨path, signal⟩, hmem, hdependent⟩ := mem_flatMap.mp h
  obtain ⟨⟨name, index⟩, hzip, heq⟩ := List.mem_map.mp hmem
  obtain ⟨rfl, rfl⟩ := Prod.ext_iff.mp heq
  obtain ⟨edge, _, hsource, _⟩ :=
    (mem_dependents_iff (mem_zipIdx_iff_getElem?.mp hzip)).mp hdependent
  exact mem_of_getElem? hsource

lemma length_reachable_le (hseeds : ∀ seed ∈ seeds, seed ∈ topology.graphFiles) :
    (reachable (graphSignals topology languages) seeds).length ≤ topology.graphFiles.length := by
  refine (subperm_of_subset (nodup_dedup _) fun file hfile => ?_).length_le
  rcases mem_append.mp (mem_dedup.mp hfile) with hseed | hdependent
  · exact hseeds file hseed
  · exact allDependents_subset languages hdependent

lemma visitPath_explores (hseeds : ∀ seed ∈ seeds, seed ∈ topology.graphFiles) :
    Explores (DependentStep topology) (reachable (graphSignals topology languages) seeds)
      (fun s file => get? file s.distances) (ReachOk seeds)
      (visitPath (graphSignals topology languages) seeds) where
  nodup := nodup_dedup _
  closed := by
    intro imported importer _ hstep
    exact mem_dedup.mpr (mem_append_right _ (mem_allDependents languages hstep))
  visit := by
    intro s path d hs hpath hd hroom hbound
    have hfile : path ∈ topology.graphFiles := by
      rcases mem_append.mp (mem_dedup.mp hpath) with hseed | hdependent
      · exact hseeds path hseed
      · exact allDependents_subset languages hdependent
    obtain ⟨index, hindex⟩ := mem_iff_getElem?.mp hfile
    have hfit : d + 1 ≤ u64Max := by
      have hlength := length_reachable_le languages hseeds
      have := topology.files_fit
      omega
    unfold visitPath
    rw [hd, get?_graphSignals languages hindex]
    exact discovers_foldl (fun _ => mem_dependents_iff hindex)
      (relaxDependent_relaxes hfit _ path _) hs hbound

lemma reachSearch_shortest (hnodup : seeds.Nodup)
    (hseeds : ∀ seed ∈ seeds, seed ∈ topology.graphFiles) :
    (reachSearch (graphSignals topology languages) seeds).1 = [] ∧
    ReachOk seeds (reachSearch (graphSignals topology languages) seeds).2 ∧
    ∀ file d, get? file
        (reachSearch (graphSignals topology languages) seeds).2.distances = some d ↔
      DependentAt topology seeds d file := by
  have hstart : ∀ file, get? file
      ((sortBy Ord.compare seeds).map (·, 0)) =
        if file ∈ sortBy Ord.compare seeds then some 0 else none := by
    intro file
    induction sortBy Ord.compare seeds with
    | nil => rfl
    | cons seed rest ih =>
      rw [map_cons, get?, ih]
      by_cases hsame : seed = file
      · simp [hsame]
      · simp [hsame, Ne.symm hsame]
  refine drain_shortest (visitPath_explores languages hseeds) ?_
    ((sortBy_perm _ seeds).nodup_iff.mpr hnodup) (fun _ => mem_sortBy) ?_
    hstart ?_
  · intro file
    rw [hstart, get?_nil]
    split_ifs with hseed hsorted
    · rfl
    · exact absurd (mem_sortBy.mp hsorted) hseed
    · rfl
  · intro seed hseed
    exact mem_dedup.mpr (mem_append_left _ (mem_sortBy.mp hseed))
  · rw [← length_append]
    exact (dedup_sublist _).length_le

/-- **Context reach is shortest distance**: the reached files are those at a distance other than
zero, with that distance. -/
lemma get?_dependentReach_iff (hnodup : seeds.Nodup)
    (hseeds : ∀ seed ∈ seeds, seed ∈ topology.graphFiles) {file : String} {n : ℕ} :
    (∃ reach, get? file
        (dependentReach (some (graphSignals topology languages)) seeds) = some reach ∧
      reach.distance = n) ↔ n ≠ 0 ∧ DependentAt topology seeds n file := by
  obtain ⟨_, hok, hshortest⟩ := reachSearch_shortest languages hnodup hseeds
  have hfile := hok file
  rw [← Option.map_eq_some_iff]
  show Option.map GraphReach.distance (get? file
    (reachSearch (graphSignals topology languages) seeds).2.reach) = some n ↔ _
  rw [hfile]
  have hzero : DependentAt topology seeds 0 file ↔ file ∈ seeds := shortest_zero_iff
  split_ifs with hseed
  · refine ⟨False.elim, ?_⟩
    rintro ⟨hne, hn⟩
    exact absurd (hn.unique (hzero.mpr hseed)) hne
  · rw [hshortest]
    refine ⟨fun hn => ⟨?_, hn⟩, fun h => h.2⟩
    rintro rfl
    exact hseed (hzero.mp hn)

end Reposcout.Context

namespace Reposcout.Graph

open BreadthFirst Context Review KeyedList

structure SeedFiles (topology : Topology) where
  files : List String
  nodup : files.Nodup
  inside : ∀ file ∈ files, file ∈ topology.graphFiles

namespace SeedFiles

variable {topology : Topology} (seeds : SeedFiles topology)

def orderedPaths : List PathBuf :=
  sortBy Ord.compare (seeds.files.map PathBuf.ofString)

lemma mem_orderedPaths_iff {path : PathBuf} :
    path ∈ seeds.orderedPaths ↔ ∃ file ∈ seeds.files, PathBuf.ofString file = path := by
  unfold orderedPaths
  rw [mem_sortBy, List.mem_map]

lemma nodup_orderedPaths : seeds.orderedPaths.Nodup := by
  refine (sortBy_perm _ _).nodup_iff.mpr (seeds.nodup.map_on ?_)
  intro file hfile other hother hsame
  exact ofString_injective (seeds.inside file hfile) (seeds.inside other hother) hsame

end SeedFiles

section

variable {topology : Topology}

open PathBuf

lemma hasRole_iff_dependentAt (seeds : SeedFiles topology) (path : PathBuf) :
    (HasRole (neighborhood seeds.orderedPaths (edgeList topology)) path "direct-dependent" ↔
      ∃ file, ofString file = path ∧ DependentAt topology seeds.files 1 file) ∧
    (HasRole (neighborhood seeds.orderedPaths (edgeList topology)) path "transitive-dependent" ↔
      ∃ file, ofString file = path ∧
        ∃ n, 1 < n ∧ DependentAt topology seeds.files n file) := by
  have hmatches := path_matches seeds.inside fun _ => seeds.mem_orderedPaths_iff
  obtain ⟨hdirect, htransitive⟩ :=
    @hasRole_neighborhood_iff (edgeList topology) _ seeds.nodup_orderedPaths path
  have hdistance : ∀ n, Shortest (PathStep (edgeList topology)) (· ∈ seeds.orderedPaths) n path ↔
      ∃ file, ofString file = path ∧ DependentAt topology seeds.files n file := by
    intro n
    constructor
    · intro h
      obtain ⟨file, ⟨_, hpath⟩, hfile⟩ := hmatches.exists_of_shortest h
      exact ⟨file, hpath, hfile⟩
    · rintro ⟨file, hpath, hfile⟩
      exact (hmatches.shortest_iff ⟨hfile.inside seeds.inside, hpath⟩).mp hfile
  refine ⟨hdirect.trans (hdistance 1), htransitive.trans ?_⟩
  constructor
  · rintro ⟨n, hn, h⟩
    obtain ⟨file, hpath, hfile⟩ := (hdistance n).mp h
    exact ⟨file, hpath, n, hn, hfile⟩
  · rintro ⟨file, hpath, n, hn, hfile⟩
    exact ⟨n, hn, (hdistance n).mpr ⟨file, hpath, hfile⟩⟩

/-- **Impact, context and review agree.**  For every topology and every set of its files as
seeds, the direct and the transitive dependents of the impact analysis are the files that the
context planner reaches at distance one and farther, and their paths are those with the roles
`direct-dependent` and `transitive-dependent` in the review context.  No seed is among them. -/
theorem impact_context_review_agree (topology : Topology) (languages : List String)
    (order : KeyedList.IterationOrder ℕ) (seeds : SeedFiles topology) :
    let impact := impactFromTopology topology order (seeds.files.map ofString)
    let reach := dependentReach (some (graphSignals topology languages)) seeds.files
    let review := neighborhood seeds.orderedPaths (edgeList topology)
    (∀ file, file ∈ impact.directDependents ↔
      ∃ found, get? file reach = some found ∧ found.distance = 1) ∧
    (∀ file, file ∈ impact.transitiveDependents ↔
      ∃ found, get? file reach = some found ∧ 1 < found.distance) ∧
    (∀ path, HasRole review path "direct-dependent" ↔
      ∃ file ∈ impact.directDependents, ofString file = path) ∧
    (∀ path, HasRole review path "transitive-dependent" ↔
      ∃ file ∈ impact.transitiveDependents, ofString file = path) ∧
    ∀ seed ∈ seeds.files, seed ∉ impact.directDependents ∧ seed ∉ impact.transitiveDependents ∧
      get? seed reach = none ∧
      ¬ HasRole review (ofString seed) "direct-dependent" ∧
      ¬ HasRole review (ofString seed) "transitive-dependent" := by
  intro impact reach review
  have hdirect : ∀ file, file ∈ impact.directDependents ↔ DependentAt topology seeds.files 1 file :=
    fun file => mem_directDependents_iff seeds.inside
  have htransitive : ∀ file, file ∈ impact.transitiveDependents ↔
      ∃ n, 1 < n ∧ DependentAt topology seeds.files n file :=
    fun file => mem_transitiveDependents_iff seeds.inside
  have hreach : ∀ file n, (∃ found, get? file reach = some found ∧ found.distance = n) ↔
      n ≠ 0 ∧ DependentAt topology seeds.files n file :=
    fun file n => get?_dependentReach_iff languages seeds.nodup seeds.inside
  have hroleDirect : ∀ path, HasRole review path "direct-dependent" ↔
      ∃ file ∈ impact.directDependents, ofString file = path := by
    intro path
    rw [(hasRole_iff_dependentAt seeds path).1]
    exact exists_congr fun file => by rw [hdirect, and_comm]
  have hroleTransitive : ∀ path, HasRole review path "transitive-dependent" ↔
      ∃ file ∈ impact.transitiveDependents, ofString file = path := by
    intro path
    rw [(hasRole_iff_dependentAt seeds path).2]
    exact exists_congr fun file => by rw [htransitive, and_comm]
  refine ⟨fun file => ?_, fun file => ?_, hroleDirect, hroleTransitive, fun seed hseed => ?_⟩
  · rw [hdirect, hreach]
    exact ⟨fun h => ⟨Nat.one_ne_zero, h⟩, fun h => h.2⟩
  · rw [htransitive]
    constructor
    · rintro ⟨n, hn, h⟩
      obtain ⟨found, hfound, rfl⟩ := (hreach file n).mpr ⟨by omega, h⟩
      exact ⟨found, hfound, hn⟩
    · rintro ⟨found, hfound, hn⟩
      exact ⟨_, hn, ((hreach file _).mp ⟨found, hfound, rfl⟩).2⟩
  · have hzero : DependentAt topology seeds.files 0 seed := shortest_zero_iff.mpr hseed
    have hnotDirect : seed ∉ impact.directDependents := by
      rw [hdirect]
      exact fun h => absurd (h.unique hzero) Nat.one_ne_zero
    have hnotTransitive : seed ∉ impact.transitiveDependents := by
      rw [htransitive]
      rintro ⟨n, hn, h⟩
      have := h.unique hzero
      omega
    -- Another file is another path, so the seed's path has no dependent role either.
    have hsame : ∀ n file, DependentAt topology seeds.files n file →
        ofString file = ofString seed → file = seed := fun n file h =>
      ofString_injective (h.inside seeds.inside) (seeds.inside seed hseed)
    refine ⟨hnotDirect, hnotTransitive, ?_, ?_, ?_⟩
    · rw [← Option.not_isSome_iff_eq_none, Option.isSome_iff_exists]
      rintro ⟨found, hfound⟩
      obtain ⟨hne, h⟩ := (hreach seed found.distance).mp ⟨found, hfound, rfl⟩
      exact hne (h.unique hzero)
    · rw [hroleDirect]
      rintro ⟨file, hfile, hpath⟩
      rw [hsame 1 file ((hdirect file).mp hfile) hpath] at hfile
      exact hnotDirect hfile
    · rw [hroleTransitive]
      rintro ⟨file, hfile, hpath⟩
      obtain ⟨n, _, h⟩ := (htransitive file).mp hfile
      rw [hsame n file h hpath] at hfile
      exact hnotTransitive hfile

end

end Reposcout.Graph
