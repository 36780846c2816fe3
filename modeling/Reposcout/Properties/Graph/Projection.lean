import Reposcout.Graph.Project
import Reposcout.Properties.Graph.Impact

/-!
# A projected graph is a neighbourhood

The search from the focus stops at the depth, so the files of a projected graph are those at most
that far away.  Its edges are those between selected files, and both fan counts add up to them.
-/

namespace Reposcout.Graph

open BreadthFirst List Option KeyedList

variable {topology : Topology}

/-- The files that are next in a direction. -/
def DirectionStep (topology : Topology) : GraphDirection → ℕ → ℕ → Prop
  | .dependencies, v, w => (v, w) ∈ topology.edges
  | .dependents, v, w => (w, v) ∈ topology.edges
  | .both, v, w => (v, w) ∈ topology.edges ∨ (w, v) ∈ topology.edges

/-- A focus path names the file. -/
def Focused (topology : Topology) (focus : List String) (index : ℕ) : Prop :=
  ∃ path, topology.graphFiles[index]? = some path ∧ ∃ f ∈ focus, graphFocusMatches path f = true

/-! ## The search -/

variable {direction : GraphDirection}

lemma mem_projectionNeighbors {index neighbor : ℕ} :
    neighbor ∈ projectionNeighbors topology direction index ↔
      DirectionStep topology direction index neighbor := by
  have hdependencies : neighbor ∈ ((dependencyLists topology)[index]?).getD [] ↔
      (index, neighbor) ∈ topology.edges := by
    refine ((mem_foldl_addImporter _ _).2 neighbor index).trans ?_
    rw [mem_map_swap]
    exact and_iff_left_of_imp fun hedge => (topology.edges_inside _ hedge).symm
  cases direction with
  | dependencies => exact hdependencies
  | dependents => exact mem_reverseEdges_iff
  | both => exact mem_append.trans (or_congr hdependencies mem_reverseEdges_iff)

lemma step_inside {v w : ℕ} (h : DirectionStep topology direction v w) :
    w < topology.graphFiles.length := by
  cases direction with
  | dependencies => exact (topology.edges_inside _ h).2
  | dependents => exact (topology.edges_inside _ h).1
  | both =>
    rcases h with h | h
    · exact (topology.edges_inside _ h).2
    · exact (topology.edges_inside _ h).1

lemma visitFocus_explores (direction : GraphDirection) (depth : ℕ) :
    ExploresWithin (DirectionStep topology direction) (List.range topology.graphFiles.length) depth
      distanceAt (fun distances => distances.length = topology.graphFiles.length)
      (visitFocus topology direction depth) where
  nodup := nodup_range
  closed := fun v w _ hstep => mem_range.mpr (step_inside hstep)
  stop := by
    intro distances index d hd hle
    unfold visitFocus
    rw [hd, getD_some]
    exact if_pos hle
  visit := by
    intro distances index d hlength _ hd hlt hroom hbound
    have hfit : d + 1 ≤ u64Max := by
      have hfiles := topology.files_fit
      rw [length_range] at hroom
      omega
    unfold visitFocus
    rw [hd, getD_some]
    rw [if_neg (not_le.mpr hlt), satAdd_eq hfit]
    exact discovers_foldl (fun _ => mem_projectionNeighbors) (passDependent_relaxes (d + 1)
      fun w hw => step_inside (mem_projectionNeighbors.mp hw)) hlength hbound

lemma mem_focusMatches {focusPath : String} {index : ℕ} :
    index ∈ focusMatches topology focusPath ↔ ∃ path, topology.graphFiles[index]? = some path ∧
        graphFocusMatches path focusPath = true := by
  unfold focusMatches
  rw [mem_filterMap]
  constructor
  · rintro ⟨⟨path, number⟩, hmem, hsome⟩
    dsimp only at hsome
    split_ifs at hsome with hmatches
    cases hsome
    exact ⟨path, mem_zipIdx_iff_getElem?.mp hmem, hmatches⟩
  · rintro ⟨path, hget, hmatches⟩
    exact ⟨(path, index), mem_zipIdx_iff_getElem?.mpr hget, if_pos hmatches⟩

/-- The files that the focus names are in the queue once, at distance zero. -/
lemma seedFocus_spec (focus : List String) :
    (seedFocus topology focus).1.length = topology.graphFiles.length ∧
      (seedFocus topology focus).2.Nodup ∧
      (∀ index, index ∈ (seedFocus topology focus).2 ↔ Focused topology focus index) ∧
      ∀ index, distanceAt (seedFocus topology focus).1 index =
        if index ∈ (seedFocus topology focus).2 then some 0 else none := by
  have hfocused : ∀ index, index ∈ focus.flatMap (focusMatches topology) ↔
      Focused topology focus index := by
    intro index
    simp only [mem_flatMap, mem_focusMatches, Focused]
    exact ⟨fun ⟨f, hf, path, hget, h⟩ => ⟨path, hget, f, hf, h⟩,
      fun ⟨path, hget, f, hf, h⟩ => ⟨f, hf, path, hget, h⟩⟩
  have hinside : ∀ index ∈ focus.flatMap (focusMatches topology),
      index < topology.graphFiles.length := by
    intro index hindex
    obtain ⟨path, hget, -⟩ := (hfocused index).mp hindex
    exact lt_of_file hget
  rw [seedFocus, ← foldl_flatMap]
  simp only [← hfocused]
  revert hinside
  generalize focus.flatMap (focusMatches topology) = indices
  induction indices using List.reverseRecOn with
  | nil =>
    intro _
    refine ⟨length_replicate, nodup_nil, fun index => Iff.rfl, fun index => ?_⟩
    unfold distanceAt
    rw [foldl_nil, getElem?_replicate, if_neg not_mem_nil]
    split_ifs <;> rfl
  | append_singleton indices last ih =>
    intro hinside
    obtain ⟨hlength, hnodup, hmem, hdist⟩ := ih fun i hi => hinside i (mem_append_left _ hi)
    have hlast := hinside last (mem_append_right _ (mem_singleton_self last))
    rw [foldl_append, foldl_cons, foldl_nil, seedFile]
    simp only [hdist last, mem_append, mem_singleton]
    by_cases hseen : last ∈ indices
    · rw [if_pos ((hmem last).mpr hseen), isNone_some, if_neg Bool.false_ne_true]
      refine ⟨hlength, hnodup, fun index => ?_, hdist⟩
      rw [hmem]
      exact ⟨.inl, fun h => h.elim id fun heq => heq ▸ hseen⟩
    · have hnew : last ∉ (indices.foldl seedFile
          (List.replicate topology.graphFiles.length none, [])).2 := mt (hmem last).mp hseen
      rw [if_neg hnew, isNone_none, if_pos rfl]
      refine ⟨by rw [length_set, hlength], ?_, fun index => ?_, fun index => ?_⟩
      · exact nodup_append.mpr ⟨hnodup, nodup_singleton last, fun a ha b hb => by
          rw [mem_singleton.mp hb]
          exact fun heq => hnew (heq ▸ ha)⟩
      · rw [mem_append, mem_singleton, hmem]
      · rw [distanceAt_set (by rw [hlength]; exact hlast), hdist]
        by_cases hsame : index = last
        · simp [hsame]
        · simp [hsame]

/-- **The search** ends with the distances up to the depth. -/
lemma fillFocusDistances_spec (focus : List String) (direction : GraphDirection) (depth : ℕ) :
    (fillFocusDistances topology focus direction depth).1 = [] ∧
      ∀ index d, distanceAt (fillFocusDistances topology focus direction depth).2 index = some d ↔
        Shortest (DirectionStep topology direction) (Focused topology focus) d index ∧
          d ≤ depth := by
  obtain ⟨hlength, hnodup, hmem, hdist⟩ := @seedFocus_spec topology focus
  have h := drain_within (visitFocus_explores direction depth) hlength hnodup hmem
    (fun index hindex => ?_) hdist (Nat.le_of_eq length_range)
  · exact ⟨h.1, h.2.2⟩
  · obtain ⟨path, hget, -⟩ := (hmem index).mp hindex
    exact mem_range.mpr (lt_of_file hget)

/-! ## What is selected -/

section

variable {selection : ProjectionSelection} {path : String}

lemma mem_selectedPaths : path ∈ selectedPaths topology selection ↔
    ∃ index, topology.graphFiles[index]? = some path ∧ selection.selected index = true := by
  unfold selectedPaths
  rw [mem_filterMap]
  constructor
  · rintro ⟨⟨name, index⟩, hmem, hsome⟩
    dsimp only at hsome
    split_ifs at hsome with hselected
    cases hsome
    exact ⟨index, mem_zipIdx_iff_getElem?.mp hmem, hselected⟩
  · rintro ⟨index, hget, hselected⟩
    exact ⟨(path, index), mem_zipIdx_iff_getElem?.mpr hget, if_pos hselected⟩

/-- A name is selected with its number. -/
lemma mem_selectedPaths_iff {index : ℕ} (hget : topology.graphFiles[index]? = some path) :
    path ∈ selectedPaths topology selection ↔ selection.selected index = true := by
  rw [mem_selectedPaths]
  constructor
  · rintro ⟨other, hother, hselected⟩
    exact index_unique hother hget ▸ hselected
  · exact fun hselected => ⟨index, hget, hselected⟩

/-- **The edges** are those of the whole graph between selected files. -/
lemma projectEdges_eq : projectEdges topology selection =
    (edgeList topology).filter fun edge =>
      decide (edge.source ∈ selectedPaths topology selection ∧
        edge.target ∈ selectedPaths topology selection) := by
  unfold projectEdges edgeList
  rw [filterMap_filter, filter_filterMap]
  refine filterMap_congr fun edge hedge => ?_
  obtain ⟨hsource, htarget⟩ := topology.edges_inside edge hedge
  have hsource' := getElem?_eq_getElem hsource
  have htarget' := getElem?_eq_getElem htarget
  simp only [hsource', htarget', bind_eq_bind, bind_some, Option.pure_def,
    filter_some, mem_selectedPaths_iff hsource', mem_selectedPaths_iff htarget',
    Bool.decide_and, Bool.decide_eq_true]

lemma length_projectEdges : (projectEdges topology selection).length =
    topology.edges.countP fun edge => selection.selected edge.1 && selection.selected edge.2 := by
  unfold projectEdges
  rw [length_filterMap_eq_countP, countP_filter]
  refine countP_congr fun edge hedge => ?_
  obtain ⟨hsource, htarget⟩ := topology.edges_inside edge hedge
  simp [getElem?_eq_getElem hsource, getElem?_eq_getElem htarget]

lemma length_filter_endpoints (here : ℕ × ℕ → Bool) (there : ℕ × ℕ → ℕ)
    (hinside : ∀ edge ∈ topology.edges, there edge < topology.graphFiles.length) :
    ((sortBy Ord.compare (endpoints topology here there)).filter
      (· ∈ selectedPaths topology selection)).length =
      topology.edges.countP fun edge => here edge && selection.selected (there edge) := by
  rw [((sortBy_perm _ _).filter _).length_eq, ← countP_eq_length_filter, endpoints,
    countP_filterMap]
  refine countP_congr fun edge hedge => ?_
  have hget := getElem?_eq_getElem (hinside edge hedge)
  have hmem := @mem_selectedPaths_iff topology selection _ _ hget
  cases hhere : here edge with
  | false => simp
  | true => simp [hget, hmem]

def selectedNumbers (topology : Topology) (selection : ProjectionSelection) : List ℕ :=
  (topology.graphFiles.zipIdx.filter fun (_, index) => selection.selected index).map Prod.snd

lemma mem_selectedNumbers {index : ℕ} (hindex : index < topology.graphFiles.length) :
    index ∈ selectedNumbers topology selection ↔ selection.selected index = true := by
  unfold selectedNumbers
  rw [List.mem_map]
  constructor
  · rintro ⟨entry, hentry, rfl⟩
    exact (mem_filter.mp hentry).2
  · intro hselected
    exact ⟨(_, index), mem_filter.mpr
      ⟨mem_zipIdx_iff_getElem?.mpr (getElem?_eq_getElem hindex), hselected⟩, rfl⟩

lemma nodup_selectedNumbers : (selectedNumbers topology selection).Nodup := by
  have hall : (topology.graphFiles.zipIdx.map Prod.snd).Nodup := by
    rw [zipIdx_map_snd]
    exact nodup_range'
  exact hall.sublist (filter_sublist.map Prod.snd)

lemma sum_countP_selected (here there : ℕ × ℕ → ℕ)
    (hinside : ∀ edge ∈ topology.edges, here edge < topology.graphFiles.length) :
    ((selectedNumbers topology selection).map fun index => topology.edges.countP fun edge =>
      here edge == index && selection.selected (there edge)).sum =
      topology.edges.countP fun edge =>
        selection.selected (here edge) && selection.selected (there edge) := by
  have hsum := sum_countP_eq (@nodup_selectedNumbers topology selection) here
    (topology.edges.filter fun edge => selection.selected (there edge))
  simp only [countP_filter] at hsum
  rw [countP_congr (q := fun edge =>
    selection.selected (here edge) && selection.selected (there edge)) ?_] at hsum
  · exact hsum
  · intro edge hedge
    simp [mem_selectedNumbers (hinside edge hedge)]

end

/-! ## The projected graph -/

section

variable {language : String → String} {languages : List String} {selection : ProjectionSelection}

lemma map_path_projectFiles (signals : GraphSignals) :
    (projectFiles topology language signals selection).map (·.path) =
      selectedPaths topology selection := by
  unfold projectFiles selectedPaths
  rw [List.map_map, ← filterMap_eq_map, filterMap_filter]
  rfl

lemma fans_projectFiles :
    (projectFiles topology language (graphSignals topology languages) selection).map
        (fun file => (file.fanIn, file.fanOut)) =
      (selectedNumbers topology selection).map fun index =>
        (topology.edges.countP fun edge => edge.2 == index && selection.selected edge.1,
          topology.edges.countP fun edge => edge.1 == index && selection.selected edge.2) := by
  unfold projectFiles selectedNumbers
  rw [List.map_map, List.map_map]
  refine map_congr_left fun entry hentry => ?_
  have hget := mem_zipIdx_iff_getElem?.mp (mem_filter.mp hentry).1
  have hsources := fun edge hedge => (topology.edges_inside edge hedge).1
  have htargets := fun edge hedge => (topology.edges_inside edge hedge).2
  simp only [Function.comp_apply, get?_graphSignals languages hget, getD_some, graphFileSignal]
  exact Prod.ext (length_filter_endpoints _ Prod.fst hsources)
    (length_filter_endpoints _ Prod.snd htargets)

/-- The sums of both fan counts are the number of edges. -/
lemma sum_fans_projectFiles :
    let files := projectFiles topology language (graphSignals topology languages) selection
    (files.map (·.fanIn)).sum = (projectEdges topology selection).length ∧
      (files.map (·.fanOut)).sum = (projectEdges topology selection).length := by
  intro files
  have hfans := @fans_projectFiles topology language languages selection
  have hin := congrArg (List.map Prod.fst) hfans
  have hout := congrArg (List.map Prod.snd) hfans
  rw [List.map_map, List.map_map] at hin hout
  rw [length_projectEdges]
  constructor
  · refine (congrArg List.sum hin).trans ((sum_countP_selected Prod.snd Prod.fst
      fun edge hedge => (topology.edges_inside edge hedge).2).trans ?_)
    exact countP_congr fun edge _ => by rw [Bool.and_comm]
  · exact (congrArg List.sum hout).trans (sum_countP_selected Prod.fst Prod.snd
      fun edge hedge => (topology.edges_inside edge hedge).1)

lemma nodup_edgeList (h : topology.edges.Nodup) : (edgeList topology).Nodup := by
  refine h.filterMap fun left right named hleft hright => ?_
  obtain ⟨source, hsource, hleft⟩ := bind_eq_some_iff.mp (mem_def.mp hleft)
  obtain ⟨target, htarget, hleft⟩ := bind_eq_some_iff.mp hleft
  obtain ⟨source', hsource', hright⟩ := bind_eq_some_iff.mp (mem_def.mp hright)
  obtain ⟨target', htarget', hright⟩ := bind_eq_some_iff.mp hright
  have hnames := (some.inj hleft).trans (some.inj hright).symm
  injection hnames with hs ht
  subst hs ht
  exact Prod.ext (index_unique hsource hsource') (index_unique htarget htarget')

lemma focus_ne_nil {query : GraphQuery} (hfocus : query.focus ≠ []) :
    (selectProjection topology query).focus ≠ [] ∧
      ∀ index d, distanceAt (selectProjection topology query).distances index = some d ↔
        Shortest (DirectionStep topology query.direction) (Focused topology query.focus) d index ∧
          d ≤ query.depth := by
  have hmem : ∀ f, f ∈ (sortBy compare query.focus).dedup ↔ f ∈ query.focus := by
    intro f
    rw [mem_dedup, mem_sortBy]
  have hne : (sortBy compare query.focus).dedup ≠ [] := by
    obtain ⟨f, hf⟩ := exists_mem_of_ne_nil _ hfocus
    exact ne_nil_of_mem ((hmem f).mpr hf)
  have hfocused : Focused topology (sortBy compare query.focus).dedup =
      Focused topology query.focus := by
    unfold Focused
    simp
  unfold selectProjection
  rw [if_neg (mt List.isEmpty_iff.mp hne), ← hfocused]
  exact ⟨hne, (fillFocusDistances_spec _ _ _).2⟩

lemma mem_projectFiles {query : GraphQuery} (hfocus : query.focus ≠ []) (signals : GraphSignals)
    {focusDistance : Option ℕ} :
    (∃ file ∈ projectFiles topology language signals (selectProjection topology query),
      file.path = path ∧ file.focusDistance = focusDistance) ↔
      ∃ index d, topology.graphFiles[index]? = some path ∧ focusDistance = some d ∧
        d ≤ query.depth ∧
        Shortest (DirectionStep topology query.direction) (Focused topology query.focus) d
          index := by
  obtain ⟨hne, hdistance⟩ := @focus_ne_nil topology query hfocus
  have hempty : ¬(selectProjection topology query).focus.isEmpty = true :=
    mt List.isEmpty_iff.mp hne
  unfold projectFiles ProjectionSelection.selected
  simp only [List.mem_map, exists_exists_and_eq_and, mem_filter, hempty]
  constructor
  · rintro ⟨⟨name, index⟩, ⟨hmem, hselected⟩, rfl, rfl⟩
    obtain ⟨d, hd⟩ := isSome_iff_exists.mp hselected
    obtain ⟨hshortest, hdepth⟩ := (hdistance index d).mp hd
    exact ⟨index, d, mem_zipIdx_iff_getElem?.mp hmem, by simp [hd], hdepth, hshortest⟩
  · rintro ⟨index, d, hget, rfl, hdepth, hshortest⟩
    have hd := (hdistance index d).mpr ⟨hshortest, hdepth⟩
    exact ⟨(path, index), ⟨mem_zipIdx_iff_getElem?.mpr hget, by rw [hd]; rfl⟩, rfl, by simp [hd]⟩

/-- **A projected graph is the neighbourhood of its focus**: its files are those within the depth,
at their distances, and its edges are those of the whole graph between them, to which the fan
counts add up at both ends. -/
theorem projectGraph_neighbourhood (cycles : List (List String)) (orphans : List String)
    (query : GraphQuery) (hfocus : query.focus ≠ []) :
    let graph := projectGraph topology language (graphSignals topology languages) cycles orphans
      query
    let paths := graph.files.map (·.path)
    (∀ path focusDistance,
      (∃ file ∈ graph.files, file.path = path ∧ file.focusDistance = focusDistance) ↔
        ∃ index d, topology.graphFiles[index]? = some path ∧ focusDistance = some d ∧
          d ≤ query.depth ∧
          Shortest (DirectionStep topology query.direction) (Focused topology query.focus) d
            index) ∧
      paths.Nodup ∧
      graph.edgeList = (edgeList topology).filter
        (fun edge => decide (edge.source ∈ paths ∧ edge.target ∈ paths)) ∧
      (topology.edges.Nodup → graph.edgeList.Nodup) ∧
      graph.nodes = graph.files.length ∧ graph.edges = graph.edgeList.length ∧
      (graph.files.map (·.fanIn)).sum = graph.edges ∧
      (graph.files.map (·.fanOut)).sum = graph.edges := by
  intro graph paths
  have hpaths : paths = selectedPaths topology (selectProjection topology query) :=
    map_path_projectFiles _
  have hedges : graph.edgeList = _ := projectEdges_eq
  have hsums : (graph.files.map (·.fanIn)).sum = graph.edges ∧
      (graph.files.map (·.fanOut)).sum = graph.edges := sum_fans_projectFiles
  refine ⟨fun path focusDistance => mem_projectFiles hfocus _, ?_, ?_, fun hnodup => ?_, rfl, rfl,
    hsums.1, hsums.2⟩
  · rw [hpaths]
    refine topology.files_nodup.sublist ?_
    have hall := zipIdx_map_fst 0 topology.graphFiles
    rw [← hpaths]
    unfold paths graph projectGraph projectFiles
    rw [List.map_map]
    nth_rewrite 2 [← hall]
    exact filter_sublist.map Prod.fst
  · rw [hedges, hpaths]
  · rw [hedges]
    exact (nodup_edgeList hnodup).filter _

theorem projectGraph_importCycle :
    let graph := projectGraph importCycle (fun _ => "rust") (graphSignals importCycle ["rust"]) []
      [] ⟨["d.rs"], .dependencies, 1⟩
    (graph.files.map (·.fanIn)).sum = graph.edges ∧ graph.edges = 2 ∧
      graph.files.map (fun file => (file.path, file.focusDistance)) =
        [("b.rs", some 1), ("d.rs", some 0)] := by
  intro graph
  obtain ⟨-, -, -, -, -, -, hsum, -⟩ := @projectGraph_neighbourhood importCycle (fun _ => "rust")
    ["rust"] [] [] ⟨["d.rs"], .dependencies, 1⟩ (by decide)
  exact ⟨hsum, by decide +kernel, by decide +kernel⟩

end

end Reposcout.Graph
