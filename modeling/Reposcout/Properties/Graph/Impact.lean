import Reposcout.Graph.Topology

/-!
# Impact is shortest distance

The dependents that an impact analysis reports are those at distance one and farther from the
changed files, along reversed imports.
-/

namespace Reposcout.Graph

open BreadthFirst List Option KeyedList

variable {topology : Topology}

/-- The step of the search, between file names. -/
def DependentStep (topology : Topology) (imported importer : String) : Prop :=
  topology.Imports importer imported

/-- The shortest distance of a file from the seeds, along reversed imports. -/
def DependentAt (topology : Topology) (seeds : List String) (n : ℕ) (file : String) : Prop :=
  Shortest (DependentStep topology) (· ∈ seeds) n file

variable {file : String}

lemma DependentAt.inside {seeds : List String}
    (hseeds : ∀ seed ∈ seeds, seed ∈ topology.graphFiles) {n : ℕ}
    (h : DependentAt topology seeds n file) : file ∈ topology.graphFiles := by
  cases h.1 with
  | refl hseed => exact hseeds file hseed
  | tail _ hstep =>
    obtain ⟨_, _, himporter, _⟩ := hstep
    exact mem_of_getElem? himporter

def DependentKind.AtDistance : DependentKind → ℕ → Prop
  | .direct, n => n = 1
  | .transitive, n => 1 < n

/-! ## Files and their numbers -/

lemma lt_of_file {index : ℕ} (h : topology.graphFiles[index]? = some file) :
    index < topology.graphFiles.length :=
  (List.getElem?_eq_some_iff.mp h).1

lemma index_unique {i j : ℕ} (hi : topology.graphFiles[i]? = some file)
    (hj : topology.graphFiles[j]? = some file) : i = j :=
  (getElem?_inj (lt_of_file hi) topology.files_nodup).mp (hi.trans hj.symm)

lemma nodeIndex_eq_some_iff {path : String} {index : ℕ} :
    nodeIndex topology path = some index ↔ topology.graphFiles[index]? = some path := by
  have hkeys : (topology.graphFiles.zipIdx.map Prod.fst).Nodup := by
    rw [zipIdx_map_fst]
    exact topology.files_nodup
  unfold nodeIndex
  rw [map_eq_some_iff]
  constructor
  · rintro ⟨⟨file, number⟩, hget, rfl⟩
    obtain ⟨hpath, hmem⟩ := mem_of_get?_indexBy hget
    obtain rfl : file = path := hpath
    exact mem_zipIdx_iff_getElem?.mp hmem
  · intro hfile
    have hmem : (path, index) ∈ topology.graphFiles.zipIdx :=
      mem_zipIdx_iff_getElem?.mpr hfile
    exact ⟨(path, index), get?_indexBy_of_mem hkeys hmem, rfl⟩

lemma mem_changedIndices_iff {order : KeyedList.IterationOrder ℕ} {seeds : List String}
    (hseeds : ∀ seed ∈ seeds, seed ∈ topology.graphFiles) {index : ℕ} :
    index ∈ changedIndices topology order (seeds.map PathBuf.ofString) ↔
      ∃ seed ∈ seeds, topology.graphFiles[index]? = some seed := by
  unfold changedIndices
  rw [IterationOrder.mem_arrange, mem_dedup, mem_filterMap, List.map_map]
  constructor
  · rintro ⟨key, hkey, hindex⟩
    rw [mem_sortBy, List.mem_map] at hkey
    obtain ⟨seed, hseed, rfl⟩ := hkey
    refine ⟨seed, hseed, ?_⟩
    rw [← topology.files_named seed (hseeds seed hseed)]
    exact nodeIndex_eq_some_iff.mp hindex
  · rintro ⟨seed, hseed, hfile⟩
    refine ⟨seed, ?_, nodeIndex_eq_some_iff.mpr hfile⟩
    rw [mem_sortBy, List.mem_map]
    exact ⟨seed, hseed, topology.files_named seed (hseeds seed hseed)⟩

lemma nodup_changedIndices (order : KeyedList.IterationOrder ℕ) (changed : List PathBuf) :
    (changedIndices topology order changed).Nodup :=
  (order.perm _).nodup_iff.mpr (nodup_dedup _)

/-! ## The arrays of the search -/

lemma length_addImporter (reverse : List (List ℕ)) (edge : ℕ × ℕ) :
    (addImporter reverse edge).length = reverse.length := by
  unfold addImporter
  split_ifs
  · exact length_modify _ _ _
  · rfl

lemma mem_addImporter_iff {reverse : List (List ℕ)} {edge : ℕ × ℕ} {i j : ℕ} :
    i ∈ ((addImporter reverse edge)[j]?).getD [] ↔
      i ∈ (reverse[j]?).getD [] ∨ (i, j) = edge ∧ i < reverse.length ∧ j < reverse.length := by
  obtain ⟨v, w⟩ := edge
  unfold addImporter
  by_cases hinside : v < reverse.length ∧ w < reverse.length
  · rw [if_pos hinside, getElem?_modify]
    by_cases hj : w = j
    · subst hj
      rw [getElem?_eq_getElem hinside.2]
      simp only [if_true, Option.map_eq_map, map_some, getD_some, mem_append,
        mem_singleton, Prod.mk.injEq, and_true]
      exact or_congr_right ⟨fun h => ⟨h, h ▸ hinside⟩, fun h => h.1⟩
    · have hne : (i, j) ≠ (v, w) := fun h => hj (congrArg Prod.snd h).symm
      simp only [if_neg hj, Option.map_eq_map, Option.map_id_fun', id, hne, false_and, or_false]
  · rw [if_neg hinside, or_iff_left]
    rintro ⟨hedge, hlt⟩
    cases hedge
    exact hinside hlt

/-- The slots of the second ends hold the first ends of the edges that lie inside. -/
lemma mem_foldl_addImporter (count : ℕ) (edges : List (ℕ × ℕ)) :
    (edges.foldl addImporter (List.replicate count [])).length = count ∧
      ∀ i j, i ∈ ((edges.foldl addImporter (List.replicate count []))[j]?).getD [] ↔
        (i, j) ∈ edges ∧ i < count ∧ j < count := by
  induction edges using List.reverseRecOn with
  | nil =>
    refine ⟨length_replicate, fun i j => ?_⟩
    rw [foldl_nil, getElem?_replicate]
    split_ifs <;> simp
  | append_singleton edges edge ih =>
    obtain ⟨hlength, hmem⟩ := ih
    rw [foldl_append, foldl_cons, foldl_nil]
    refine ⟨(length_addImporter _ _).trans hlength, fun i j => ?_⟩
    rw [mem_addImporter_iff, hlength, hmem, mem_append, mem_singleton, or_and_right]

/-- A file's slot of the reversed imports holds its importers. -/
lemma mem_reverseEdges_iff {importer imported : ℕ} :
    importer ∈ ((reverseEdges topology)[imported]?).getD [] ↔
      (importer, imported) ∈ topology.edges :=
  ((mem_foldl_addImporter _ topology.edges).2 importer imported).trans
    (and_iff_left_of_imp (topology.edges_inside _))

lemma distanceAt_set {distance : List (Option ℕ)} {index : ℕ} (h : index < distance.length)
    (value i : ℕ) : distanceAt (distance.set index (some value)) i =
      if i = index then some value else distanceAt distance i := by
  unfold distanceAt
  by_cases hi : i = index
  · subst hi
    rw [getElem?_set_self h, if_pos rfl]
    rfl
  · rw [getElem?_set_ne (Ne.symm hi), if_neg hi]

variable {indices : List ℕ}

lemma changedDistances_ok
    (hinside : ∀ index ∈ indices, index < topology.graphFiles.length) :
    (changedDistances topology indices).length = topology.graphFiles.length ∧
    ∀ i, distanceAt (changedDistances topology indices) i =
      if i ∈ indices then some 0 else none := by
  unfold changedDistances
  induction indices using List.reverseRecOn with
  | nil =>
    refine ⟨length_replicate, fun i => ?_⟩
    unfold distanceAt
    rw [foldl_nil, getElem?_replicate, if_neg not_mem_nil]
    split_ifs <;> rfl
  | append_singleton indices index ih =>
    obtain ⟨hlength, hdist⟩ := ih fun i hi => hinside i (mem_append_left _ hi)
    have hindex := hinside index (by simp)
    rw [foldl_append, foldl_cons, foldl_nil]
    refine ⟨by rw [length_set, hlength], fun i => ?_⟩
    rw [distanceAt_set (by rw [hlength]; exact hindex), hdist]
    by_cases hi : i = index
    · simp [hi]
    · simp [hi]

/-! ## The search -/

def NumberStep (topology : Topology) (imported importer : ℕ) : Prop :=
  (importer, imported) ∈ topology.edges

lemma passDependent_relaxes (next : ℕ) {count : ℕ} {neighbours : List ℕ}
    (hinside : ∀ w ∈ neighbours, w < count) :
    Relaxes (fun distance : List (Option ℕ) => distance.length = count) distanceAt next neighbours
      (passDependent next) where
  unknown := by
    intro s queue w hs hw hnone
    unfold passDependent
    rw [if_pos (by rw [hnone]; rfl)]
    exact ⟨rfl, by rw [length_set, hs], distanceAt_set (hs ▸ hinside w hw) next⟩
  known := by
    intro s queue w k hk _
    unfold passDependent
    rw [if_neg (by rw [hk]; simp)]

lemma visitImported_explores :
    Explores (NumberStep topology) (List.range topology.graphFiles.length) distanceAt
      (fun distance => distance.length = topology.graphFiles.length)
      (visitImported (reverseEdges topology)) where
  nodup := nodup_range
  closed := fun v w _ hstep => mem_range.mpr (topology.edges_inside (w, v) hstep).1
  visit := by
    intro distance imported d hlength _ hd _ hbound
    unfold visitImported
    rw [hd, getD_some]
    have hsuccessors : ∀ importer, importer ∈ ((reverseEdges topology)[imported]?).getD [] ↔
        NumberStep topology imported importer := fun _ => mem_reverseEdges_iff
    exact discovers_foldl hsuccessors (passDependent_relaxes (d + 1) fun w hw =>
      (topology.edges_inside _ (mem_reverseEdges_iff.mp hw)).1) hlength hbound

lemma impactSearch_shortest (hnodup : indices.Nodup)
    (hinside : ∀ index ∈ indices, index < topology.graphFiles.length) :
    (impactSearch topology indices).1 = [] ∧
    ∀ index d, distanceAt (impactSearch topology indices).2 index = some d ↔
      Shortest (NumberStep topology) (· ∈ indices) d index := by
  obtain ⟨hlength, hdist⟩ := changedDistances_ok hinside
  have hstart : ∀ index, index ∈ indices ↔ (· ∈ indices) index := fun _ => Iff.rfl
  have h := drain_shortest visitImported_explores hlength hnodup hstart
    (fun index h => mem_range.mpr (hinside index h)) hdist
    (Nat.le_of_eq length_range)
  exact ⟨h.1, h.2.2⟩

/-- Numbers and names have the same walks. -/
lemma number_matches {seeds : List String} (hseeds : ∀ seed ∈ seeds, seed ∈ topology.graphFiles)
    (hindices : ∀ index, index ∈ indices ↔
      ∃ seed ∈ seeds, topology.graphFiles[index]? = some seed) :
    Matches (NumberStep topology) (· ∈ indices) (DependentStep topology) (· ∈ seeds)
      (fun index file => topology.graphFiles[index]? = some file) where
  start_forth := by
    intro index hindex
    obtain ⟨seed, hseed, hfile⟩ := (hindices index).mp hindex
    exact ⟨seed, hfile, hseed⟩
  start_back := by
    intro seed hseed
    obtain ⟨index, hfile⟩ := mem_iff_getElem?.mp (hseeds seed hseed)
    exact ⟨index, hfile, (hindices index).mpr ⟨seed, hseed, hfile⟩⟩
  step_forth := by
    intro imported file importer hfile hstep
    have hinside := (topology.edges_inside _ hstep).1
    have hsome := getElem?_eq_getElem hinside
    exact ⟨_, hsome, (importer, imported), hstep, hsome, hfile⟩
  step_back := by
    rintro imported file name hfile ⟨edge, hedge, hsource, htarget⟩
    refine ⟨edge.1, hsource, ?_⟩
    rw [index_unique hfile htarget]
    exact hedge
  right_unique := fun _ _ _ h h' => some.inj (h.symm.trans h')
  left_unique := fun _ _ _ h h' => index_unique h h'

/-! ## The reported dependents -/

section

variable {order : KeyedList.IterationOrder ℕ} {seeds : List String}

lemma dependentKind_iff {distance : List (Option ℕ)}
    (hshortest : ∀ index d, distanceAt distance index = some d ↔
      Shortest (NumberStep topology) (· ∈ indices) d index) {kind : DependentKind} {index : ℕ} :
    dependentKind indices distance index = some kind ↔
      ∃ n, Shortest (NumberStep topology) (· ∈ indices) n index ∧ kind.AtDistance n := by
  unfold dependentKind
  by_cases hchanged : index ∈ indices
  · rw [if_pos hchanged]
    have hzero : Shortest (NumberStep topology) (· ∈ indices) 0 index :=
      shortest_zero_iff.mpr hchanged
    refine ⟨fun h => absurd h.symm (some_ne_none kind), ?_⟩
    rintro ⟨n, hn, hkind⟩
    obtain rfl := hn.unique hzero
    cases kind <;> simp [DependentKind.AtDistance] at hkind
  · rw [if_neg hchanged]
    cases hd : distanceAt distance index with
    | none =>
      refine ⟨fun h => absurd h.symm (some_ne_none kind), ?_⟩
      rintro ⟨n, hn, _⟩
      rw [(hshortest index n).mpr hn] at hd
      exact absurd hd (some_ne_none n)
    | some d =>
      have hshort := (hshortest index d).mp hd
      have hpos : d ≠ 0 := by
        rintro rfl
        exact hchanged (shortest_zero_iff.mp hshort)
      have hsame : (∃ n, Shortest (NumberStep topology) (· ∈ indices) n index ∧
          kind.AtDistance n) ↔ kind.AtDistance d := by
        constructor
        · rintro ⟨n, hn, hkind⟩
          obtain rfl := hshort.unique hn
          exact hkind
        · exact fun hkind => ⟨d, hshort, hkind⟩
      rw [hsame]
      by_cases hone : d = 1
      · subst hone
        cases kind <;> simp [DependentKind.AtDistance]
      · have hfar : 1 < d := by omega
        cases kind <;> simp [DependentKind.AtDistance, hone, hfar]

variable (hseeds : ∀ seed ∈ seeds, seed ∈ topology.graphFiles)

include hseeds

lemma mem_dependentsOfKind_iff
    (kind : DependentKind)
    (hindices : indices = changedIndices topology order (seeds.map PathBuf.ofString)) :
    file ∈ dependentsOfKind topology indices (impactSearch topology indices).2 kind ↔
      ∃ n, DependentAt topology seeds n file ∧ kind.AtDistance n := by
  have hmem : ∀ index, index ∈ indices ↔
      ∃ seed ∈ seeds, topology.graphFiles[index]? = some seed := by
    intro index
    rw [hindices]
    exact mem_changedIndices_iff hseeds
  have hinside : ∀ index ∈ indices, index < topology.graphFiles.length := by
    intro index hindex
    obtain ⟨seed, _, hfile⟩ := (hmem index).mp hindex
    exact lt_of_file hfile
  have hnodup : indices.Nodup := hindices ▸ nodup_changedIndices order _
  have hmatches := number_matches hseeds hmem
  have hkind := fun index =>
    @dependentKind_iff topology indices _ (impactSearch_shortest hnodup hinside).2 kind index
  unfold dependentsOfKind DependentAt
  rw [mem_filterMap]
  constructor
  · rintro ⟨⟨path, index⟩, hzip, hsome⟩
    have hfile := mem_zipIdx_iff_getElem?.mp hzip
    dsimp only at hsome hfile
    split_ifs at hsome with hk
    cases hsome
    obtain ⟨n, hn, hdistance⟩ := (hkind index).mp hk
    exact ⟨n, (hmatches.shortest_iff hfile).mp hn, hdistance⟩
  · rintro ⟨n, hn, hdistance⟩
    obtain ⟨index, hfile, hindex⟩ := hmatches.exists_of_shortest hn
    refine ⟨(file, index), mem_zipIdx_iff_getElem?.mpr hfile, ?_⟩
    exact if_pos ((hkind index).mpr ⟨n, hindex, hdistance⟩)

/-- **Direct dependents are the files at distance one.** -/
lemma mem_directDependents_iff :
    file ∈ (impactFromTopology topology order (seeds.map PathBuf.ofString)).directDependents ↔
      DependentAt topology seeds 1 file := by
  refine (mem_dependentsOfKind_iff hseeds .direct rfl).trans ⟨?_, fun hone => ⟨1, hone, rfl⟩⟩
  rintro ⟨n, hn, rfl⟩
  exact hn

/-- **Transitive dependents are the files that are farther away.** -/
lemma mem_transitiveDependents_iff :
    file ∈ (impactFromTopology topology order (seeds.map PathBuf.ofString)).transitiveDependents ↔
      ∃ n, 1 < n ∧ DependentAt topology seeds n file := by
  exact (mem_dependentsOfKind_iff hseeds .transitive rfl).trans (exists_congr fun n => and_comm)

omit hseeds in
/-- The seeds and all the dependents that are reported for them. -/
def affected (topology : Topology) (order : KeyedList.IterationOrder ℕ) (seeds : List String) :
    List String :=
  let impact := impactFromTopology topology order (seeds.map PathBuf.ofString)
  seeds ++ (impact.directDependents ++ impact.transitiveDependents)

lemma mem_affected_iff :
    file ∈ affected topology order seeds ↔
      ∃ n, ReachIn (DependentStep topology) (· ∈ seeds) n file := by
  rw [affected, mem_append, mem_append, mem_directDependents_iff hseeds,
    mem_transitiveDependents_iff hseeds]
  constructor
  · rintro (h | h | ⟨n, -, h⟩)
    · exact ⟨0, .refl h⟩
    · exact ⟨1, h.1⟩
    · exact ⟨n, h.1⟩
  · rintro ⟨n, h⟩
    obtain ⟨m, -, hm⟩ := h.exists_shortest
    rcases m with _ | _ | m
    · exact .inl (shortest_zero_iff.mp hm)
    · exact .inr (.inl hm)
    · exact .inr (.inr ⟨m + 2, by omega, hm⟩)

omit hseeds in
lemma subset_affected (h : file ∈ seeds) : file ∈ affected topology order seeds :=
  mem_append_left _ h

lemma affected_step {importer : String} (h : file ∈ affected topology order seeds)
    (himports : topology.Imports importer file) : importer ∈ affected topology order seeds := by
  obtain ⟨n, h⟩ := (mem_affected_iff hseeds).mp h
  exact (mem_affected_iff hseeds).mpr ⟨n + 1, h.tail himports⟩

/-- The induction from the seeds to their dependents. -/
lemma affected_induction {P : String → Prop} (hstart : ∀ seed ∈ seeds, P seed)
    (hstep : ∀ imported, P imported → ∀ importer, topology.Imports importer imported → P importer)
    (h : file ∈ affected topology order seeds) : P file := by
  rw [mem_affected_iff hseeds] at h
  obtain ⟨n, h⟩ := h
  induction h with
  | refl hseed => exact hstart _ hseed
  | tail _ himports ih => exact hstep _ ih _ himports

lemma inside_of_mem_affected (h : file ∈ affected topology order seeds) :
    file ∈ topology.graphFiles :=
  affected_induction (P := (· ∈ topology.graphFiles)) hseeds hseeds
    (fun _ _ _ ⟨_, _, himporter, _⟩ => mem_of_getElem? himporter) h

/-- What is affected by affected files is affected. -/
lemma affected_subset {others : List String}
    (hothers : ∀ other ∈ others, other ∈ affected topology order seeds)
    (h : file ∈ affected topology order others) : file ∈ affected topology order seeds :=
  affected_induction (P := (· ∈ affected topology order seeds))
    (fun other hother => inside_of_mem_affected hseeds (hothers other hother)) hothers
    (fun _ himported _ => affected_step hseeds himported) h

/-- **The affected files** are the least set of files that holds the seeds and, with a file, all
its importers. -/
theorem isLeast_affected :
    IsLeast {files : Set String | (∀ seed ∈ seeds, seed ∈ files) ∧
      ∀ imported ∈ files, ∀ importer, topology.Imports importer imported → importer ∈ files}
      {file | file ∈ affected topology order seeds} :=
  ⟨⟨fun _ => subset_affected, fun _ himported _ => affected_step hseeds himported⟩,
    fun _ ⟨hstart, hclosed⟩ _ => affected_induction hseeds hstart hclosed⟩

/-- **Impact is a closure**: it is found file by file, and impact on what is affected is nothing
new. -/
theorem affected_closure :
    (file ∈ affected topology order seeds ↔ ∃ seed ∈ seeds, file ∈ affected topology order [seed]) ∧
      (file ∈ affected topology order (affected topology order seeds) ↔
        file ∈ affected topology order seeds) := by
  have hone : ∀ seed ∈ seeds, ∀ other ∈ [seed], other ∈ topology.graphFiles :=
    fun seed hseed other hother => mem_singleton.mp hother ▸ hseeds seed hseed
  refine ⟨⟨affected_induction
    (P := fun file => ∃ seed ∈ seeds, file ∈ affected topology order [seed])
    hseeds ?_ ?_, ?_⟩, affected_subset hseeds fun _ => id, subset_affected⟩
  · exact fun seed hseed => ⟨seed, hseed, subset_affected (mem_singleton_self seed)⟩
  · rintro imported ⟨seed, hseed, himported⟩ importer himports
    exact ⟨seed, hseed, affected_step (hone seed hseed) himported himports⟩
  · rintro ⟨seed, hseed, hfile⟩
    exact affected_subset hseeds
      (fun other hother => subset_affected (mem_singleton.mp hother ▸ hseed)) hfile

end

/-- Three files in a cycle, and a fourth that imports one of them and itself. -/
def importCycle : Topology where
  graphFiles := ["a.rs", "b.rs", "c.rs", "d.rs"]
  edges := [(1, 0), (2, 1), (0, 2), (3, 1), (3, 3)]
  edgeResolvers := []
  unresolvedImports := 0
  unreadableNodes := []
  parseErrors := 0
  configErrors := 0
  files_nodup := by decide
  files_named := by decide
  files_fit := by decide
  edges_inside := by decide

theorem isLeast_affected_importCycle :
    IsLeast {files : Set String | (∀ seed ∈ ["a.rs"], seed ∈ files) ∧
      ∀ imported ∈ files, ∀ importer, importCycle.Imports importer imported → importer ∈ files}
      {file | file ∈ affected importCycle (.insertion ℕ) ["a.rs"]} :=
  isLeast_affected (by decide)

theorem affected_closure_importCycle :
    ("d.rs" ∈ affected importCycle (.insertion ℕ) ["a.rs", "c.rs"] ↔
        ∃ seed ∈ ["a.rs", "c.rs"], "d.rs" ∈ affected importCycle (.insertion ℕ) [seed]) ∧
      ("d.rs" ∈ affected importCycle (.insertion ℕ)
          (affected importCycle (.insertion ℕ) ["a.rs", "c.rs"]) ↔
        "d.rs" ∈ affected importCycle (.insertion ℕ) ["a.rs", "c.rs"]) :=
  affected_closure (by decide)

example :
    let impact := impactFromTopology importCycle (.insertion ℕ) [⟨["a.rs"]⟩]
    impact.directDependents = ["b.rs"] ∧ impact.transitiveDependents = ["c.rs", "d.rs"] := by
  decide

end Reposcout.Graph
