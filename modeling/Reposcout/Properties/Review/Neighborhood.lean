import Reposcout.Review.Neighborhood
import Reposcout.Properties.Graph.Impact

/-!
# Review roles are shortest distances

A path has the role `direct-dependent` if it is at distance one from the changed paths along
reversed edges, and `transitive-dependent` if it is farther away.  The other roles of a path do
not interfere: they are other words.
-/

namespace Reposcout.Review

open BreadthFirst Reposcout.Graph List Option KeyedList

/-! ## Roles -/

def HasRole (candidates : List (PathBuf × Candidate)) (path : PathBuf) (role : String) : Prop :=
  ∃ candidate, get? path candidates = some candidate ∧ role ∈ candidate.roles

lemma mem_insertOrdered {α : Type} [LinearOrder α] {x y : α} {set : List α} :
    y ∈ insertOrdered x set ↔ y = x ∨ y ∈ set := by
  unfold insertOrdered
  split_ifs with h
  · refine ⟨.inr, ?_⟩
    rintro (rfl | hy)
    · exact h
    · exact hy
  · exact mem_orderedInsert _

lemma nodup_insertOrdered {α : Type} [LinearOrder α] {x : α} {set : List α} (h : set.Nodup) :
    (insertOrdered x set).Nodup := by
  unfold insertOrdered
  split_ifs with hx
  · exact h
  · rw [(perm_orderedInsert (· ≤ ·) x set).nodup_iff]
    exact nodup_cons.mpr ⟨hx, h⟩

variable {role : String} {candidates : List (PathBuf × Candidate)}

lemma hasRole_add_iff {path other : PathBuf} {word : String} {distance : ℕ} {via : Option PathBuf} :
    HasRole (add candidates path role distance via) other word ↔
      (other = path ∧ word = role) ∨ HasRole candidates other word := by
  unfold HasRole add
  by_cases hsame : other = path
  · subst hsame
    simp only [get?_alter_self, some.injEq, exists_eq_left', mem_insertOrdered, true_and]
    cases get? other candidates with
    | none =>
      simp
    | some candidate =>
      simp only [getD_some, some.injEq, exists_eq_left']
      split_ifs <;> rfl
  · simp [get?_alter_of_ne hsame, hsame]

/-! ## The maps of the search -/

structure RolesOk (s : NeighborhoodState) : Prop where
  direct : ∀ path, HasRole s.candidates path "direct-dependent" ↔
    get? path s.distances = some 1
  transitive : ∀ path, HasRole s.candidates path "transitive-dependent" ↔
    ∃ d, 1 < d ∧ get? path s.distances = some d

lemma RolesOk.enter {s : NeighborhoodState} (h : RolesOk s) {path : PathBuf} {d : ℕ}
    (via : Option PathBuf) (hunknown : get? path s.distances = none)
    (hdirect : role = "direct-dependent" ↔ d = 1)
    (htransitive : role = "transitive-dependent" ↔ 1 < d) :
    RolesOk ⟨add s.candidates path role d via,
      KeyedList.alter path (fun _ => d) s.distances⟩ where
  direct := by
    intro other
    rw [hasRole_add_iff, h.direct, get?_alter]
    by_cases hsame : other = path
    · rw [hsame, if_pos rfl, hunknown]
      simp [eq_comm (b := role), hdirect]
    · rw [if_neg hsame]
      simp [hsame]
  transitive := by
    intro other
    rw [hasRole_add_iff, h.transitive, get?_alter]
    by_cases hsame : other = path
    · rw [hsame, if_pos rfl, hunknown]
      simp [eq_comm (b := role), htransitive]
    · rw [if_neg hsame]
      simp [hsame]

open PathBuf

lemma mem_incomingEdges_iff {edges : List GraphEdge} {path importer : PathBuf} :
    importer ∈ (get? path (incomingEdges edges)).getD [] ↔
      ∃ edge ∈ edges, ofString edge.target = path ∧
        ofString edge.source = importer := by
  unfold incomingEdges
  induction edges using reverseRecOn with
  | nil => simp
  | append_singleton edges edge ih =>
    rw [foldl_append, foldl_cons, foldl_nil, get?_alter]
    have hlast : (∃ e ∈ edges ++ [edge], ofString e.target = path ∧
        ofString e.source = importer) ↔
        (∃ e ∈ edges, ofString e.target = path ∧ ofString e.source = importer) ∨
        ofString edge.target = path ∧ ofString edge.source = importer := by
      simp
    rw [hlast, ← ih]
    by_cases htarget : path = ofString edge.target
    · rw [if_pos htarget, getD_some, mem_insertOrdered, htarget]
      simp only [true_and]
      rw [or_comm, eq_comm]
    · rw [if_neg htarget]
      simp [Ne.symm htarget]

/-! ## The state before the search -/

lemma not_hasRole_dependencyCandidates (seeds : List PathBuf) (edges : List GraphEdge)
    (path : PathBuf) (hrole : role ≠ "dependency") :
    ¬ HasRole (dependencyCandidates seeds edges) path role := by
  refine foldlRecOn (motive := fun candidates => ¬ HasRole candidates path role) edges _ ?_ ?_
  · rintro ⟨candidate, hget, _⟩
    exact absurd hget.symm (some_ne_none candidate)
  · intro candidates hnone edge _
    split_ifs
    · rw [hasRole_add_iff]
      rintro (⟨_, hword⟩ | hold)
      · exact hrole hword
      · exact hnone hold
    · exact hnone

/-- Seeds bring the role `changed` and the distance zero. -/
lemma foldl_enterSeed {path : PathBuf}
    (hnone : ¬ HasRole candidates path role) (hrole : role ≠ "changed") (seeds : List PathBuf) :
    ¬ HasRole (seeds.foldl enterSeed ⟨candidates, []⟩).candidates path role ∧
    get? path (seeds.foldl enterSeed ⟨candidates, []⟩).distances =
      if path ∈ seeds then some 0 else none := by
  induction seeds using reverseRecOn with
  | nil => exact ⟨hnone, rfl⟩
  | append_singleton seeds seed ih =>
    obtain ⟨hroles, hdist⟩ := ih
    rw [foldl_append, foldl_cons, foldl_nil]
    unfold enterSeed at hroles hdist ⊢
    refine ⟨?_, ?_⟩
    · rw [hasRole_add_iff]
      rintro (⟨_, hword⟩ | hold)
      · exact hrole hword
      · exact hroles hold
    · rw [get?_alter, hdist]
      by_cases hsame : path = seed
      · simp [hsame]
      · simp [hsame]

/-- Before the search the seeds are at distance zero and nothing has a dependent role. -/
lemma seedNeighborhood_ok (seeds : List PathBuf) (edges : List GraphEdge) :
    RolesOk (seedNeighborhood seeds edges) ∧
    ∀ path, get? path (seedNeighborhood seeds edges).distances =
      if path ∈ seeds then some 0 else none := by
  have hstart := fun (path : PathBuf) (role : String) (h : role ≠ "dependency") =>
    foldl_enterSeed (not_hasRole_dependencyCandidates seeds edges path h)
  have hdirect := fun path => hstart path "direct-dependent" (by decide) (by decide) seeds
  have htransitive := fun path =>
    hstart path "transitive-dependent" (by decide) (by decide) seeds
  have hdist := fun path => (hdirect path).2
  refine ⟨⟨fun path => iff_of_false (hdirect path).1 ?_,
    fun path => iff_of_false (htransitive path).1 ?_⟩, hdist⟩
  · unfold seedNeighborhood
    rw [hdist]
    split_ifs <;> simp
  · rintro ⟨d, hd, hget⟩
    unfold seedNeighborhood at hget
    rw [hdist] at hget
    split_ifs at hget
    cases hget
    exact absurd hd (Nat.not_lt_zero 1)

/-! ## The search -/

section

variable {edges : List GraphEdge} {seeds : List PathBuf}

def PathStep (edges : List GraphEdge) (imported importer : PathBuf) : Prop :=
  ∃ edge ∈ edges, PathBuf.ofString edge.target = imported ∧ PathBuf.ofString edge.source = importer

/-- Everything that the search can queue. -/
def pendingPaths (edges : List GraphEdge) (seeds : List PathBuf) : List PathBuf :=
  (seeds ++ edges.map fun edge => PathBuf.ofString edge.source).dedup

lemma dependentRole_direct_iff (d : ℕ) : dependentRole d = "direct-dependent" ↔ d = 1 := by
  unfold dependentRole
  split_ifs with h <;> simp [h]

lemma dependentRole_transitive_iff {d : ℕ} (hd : d ≠ 0) :
    dependentRole d = "transitive-dependent" ↔ 1 < d := by
  unfold dependentRole
  split_ifs with h
  · simp [h]
  · simp
    omega

/-- Entering an unknown path at a distance, with the role of the distance, keeps an invariant. -/
def KeptByEntering (I : NeighborhoodState → Prop) : Prop :=
  ∀ (s : NeighborhoodState) (path via : PathBuf) (d : ℕ), I s → d ≠ 0 →
    get? path s.distances = none →
    I ⟨add s.candidates path (dependentRole d) d (some via),
      KeyedList.alter path (fun _ => d) s.distances⟩

lemma rolesOk_kept : KeptByEntering RolesOk := fun _ _ via d hs hd hnone =>
  hs.enter (some via) hnone (dependentRole_direct_iff d) (dependentRole_transitive_iff hd)

variable {I : NeighborhoodState → Prop}

/-- Passing an importer enters it if it is unknown and leaves it alone otherwise. -/
lemma passImporter_relaxes (hI : KeptByEntering I) (path : PathBuf) {d : ℕ} (hd : d ≠ 0)
    (neighbours : List PathBuf) :
    Relaxes I (fun s path => get? path s.distances) d neighbours
      (passImporter path d) where
  unknown := by
    intro s queue dependent hs _ hnone
    unfold passImporter
    rw [if_neg (by rw [hnone]; simp)]
    exact ⟨rfl, hI s dependent path d hs hd hnone, fun other => get?_alter _ _ _ _⟩
  known := by
    intro s queue dependent k hk _
    unfold passImporter
    rw [if_pos (by rw [hk]; rfl)]

lemma visitPending_explores (hI : KeptByEntering I) (edges : List GraphEdge)
    (seeds : List PathBuf) :
    Explores (PathStep edges) (pendingPaths edges seeds)
      (fun s path => get? path s.distances) I
      (visitPending (incomingEdges edges)) where
  nodup := nodup_dedup _
  closed := by
    rintro _ _ _ ⟨edge, hedge, _, rfl⟩
    exact mem_dedup.mpr (mem_append_right _ (mem_map.mpr ⟨edge, hedge, rfl⟩))
  visit := by
    intro s path d hs _ hd _ hbound
    unfold visitPending
    rw [hd, getD_some]
    exact discovers_foldl (fun _ => mem_incomingEdges_iff)
      (passImporter_relaxes hI path (Nat.succ_ne_zero d) _) hs hbound

lemma neighborhoodSearch_keeps (hI : KeptByEntering I) (edges : List GraphEdge)
    (hnodup : seeds.Nodup) (hstart : I (seedNeighborhood seeds edges)) :
    (neighborhoodSearch seeds edges).1 = [] ∧ I (neighborhoodSearch seeds edges).2 ∧
    ∀ path d, get? path (neighborhoodSearch seeds edges).2.distances = some d ↔
      Shortest (PathStep edges) (· ∈ seeds) d path := by
  have hdist := (seedNeighborhood_ok seeds edges).2
  refine drain_shortest (visitPending_explores hI edges seeds) hstart hnodup (fun _ => Iff.rfl) ?_
    hdist ?_
  · exact fun seed hseed => mem_dedup.mpr (mem_append_left _ hseed)
  · have hlength := (dedup_sublist
      (seeds ++ edges.map fun edge => ofString edge.source)).length_le
    rw [length_append, length_map] at hlength
    exact hlength

lemma neighborhoodSearch_shortest (edges : List GraphEdge) (hnodup : seeds.Nodup) :
    (neighborhoodSearch seeds edges).1 = [] ∧ RolesOk (neighborhoodSearch seeds edges).2 ∧
    ∀ path d, get? path (neighborhoodSearch seeds edges).2.distances = some d ↔
      Shortest (PathStep edges) (· ∈ seeds) d path :=
  neighborhoodSearch_keeps rolesOk_kept edges hnodup (seedNeighborhood_ok seeds edges).1

/-- **Review roles are shortest distances.** -/
lemma hasRole_neighborhood_iff (hnodup : seeds.Nodup) (path : PathBuf) :
    (HasRole (neighborhood seeds edges) path "direct-dependent" ↔
      Shortest (PathStep edges) (· ∈ seeds) 1 path) ∧
    (HasRole (neighborhood seeds edges) path "transitive-dependent" ↔
      ∃ n, 1 < n ∧ Shortest (PathStep edges) (· ∈ seeds) n path) := by
  obtain ⟨_, hroles, hshortest⟩ := neighborhoodSearch_shortest edges hnodup
  refine ⟨(hroles.direct path).trans (hshortest path 1), (hroles.transitive path).trans ?_⟩
  exact exists_congr fun n => and_congr_right fun _ => hshortest path n

/-! ## Distances of the candidates -/

/-- What `add` leaves of a path. -/
lemma get?_add (candidates : List (PathBuf × Candidate)) (path other : PathBuf) (role : String)
    (d : ℕ) (via : Option PathBuf) :
    (other ≠ path → get? other (add candidates path role d via) = get? other candidates) ∧
    ∃ candidate, get? path (add candidates path role d via) = some candidate ∧
      candidate.distance ≤ d ∧ (candidate.distance = d ∨
        ∃ old, get? path candidates = some old ∧ candidate.distance = old.distance) := by
  unfold add
  constructor
  · exact fun hne => get?_alter_of_ne hne _ _
  · rw [get?_alter_self]
    refine ⟨_, rfl, ?_⟩
    cases get? path candidates with
    | none =>
      dsimp
      rw [if_neg (Nat.lt_irrefl d)]
      exact ⟨Nat.le_refl d, .inl rfl⟩
    | some old =>
      dsimp
      split_ifs with hlt
      · exact ⟨Nat.le_refl d, .inl rfl⟩
      · exact ⟨Nat.le_of_not_lt hlt, .inr ⟨old, rfl, rfl⟩⟩

/-- A candidate is no farther away than its path, and only seeds are at distance zero. -/
structure DistancesOk (s : NeighborhoodState) : Prop where
  known : ∀ path d, get? path s.distances = some d →
    ∃ candidate, get? path s.candidates = some candidate ∧ candidate.distance ≤ d
  zero : ∀ path candidate, get? path s.candidates = some candidate →
    candidate.distance = 0 → get? path s.distances = some 0

lemma DistancesOk.enter {s : NeighborhoodState} (h : DistancesOk s) (path : PathBuf)
    (role : String) (d : ℕ) (via : Option PathBuf)
    (hd : d = 0 ∨ get? path s.distances = none) :
    DistancesOk ⟨add s.candidates path role d via,
      KeyedList.alter path (fun _ => d) s.distances⟩ := by
  have hadd := fun other => get?_add s.candidates path other role d via
  obtain ⟨candidate, hcandidate, hle, horigin⟩ := (hadd path).2
  constructor
  · intro other k hk
    rw [get?_alter] at hk
    split_ifs at hk with hsame
    · subst hsame
      rw [← some.inj hk]
      exact ⟨candidate, hcandidate, hle⟩
    · rw [(hadd other).1 hsame]
      exact h.known other k hk
  · intro other found hfound hzero
    rw [get?_alter]
    by_cases hsame : other = path
    · subst hsame
      cases hcandidate.symm.trans hfound
      rw [if_pos rfl]
      rcases horigin with hsame | ⟨old, hold, hsame⟩
      · rw [← hsame, hzero]
      · have hold := h.zero other old hold (hsame.symm.trans hzero)
        rcases hd with rfl | hnone
        · rfl
        · exact absurd (hold.symm.trans hnone) (some_ne_none 0)
    · rw [if_neg hsame]
      rw [(hadd other).1 hsame] at hfound
      exact h.zero other found hfound hzero

lemma distancesOk_kept : KeptByEntering DistancesOk := fun _ path via d hs _ hnone =>
  hs.enter path _ d (some via) (.inr hnone)

lemma dependencyCandidates_distance (seeds : List PathBuf) (edges : List GraphEdge) :
    ∀ path candidate, get? path (dependencyCandidates seeds edges) = some candidate →
      candidate.distance ≠ 0 := by
  refine foldlRecOn (motive := fun candidates => ∀ path (candidate : Candidate),
    get? path candidates = some candidate → candidate.distance ≠ 0) edges _ ?_ ?_
  · exact fun path candidate h => absurd h.symm (some_ne_none candidate)
  · intro candidates hold edge _
    split_ifs
    · intro path candidate hcandidate
      have hadd := fun path => get?_add candidates (.ofString edge.target) path "dependency" 1
        (some (.ofString edge.source))
      by_cases hsame : path = .ofString edge.target
      · subst hsame
        obtain ⟨new, hnew, -, horigin⟩ := (hadd (.ofString edge.target)).2
        cases hnew.symm.trans hcandidate
        rcases horigin with hone | ⟨old, hget, hsame⟩
        · rw [hone]
          exact Nat.one_ne_zero
        · rw [hsame]
          exact hold _ old hget
      · rw [(hadd path).1 hsame] at hcandidate
        exact hold path candidate hcandidate
    · exact hold

lemma seedNeighborhood_distancesOk (seeds : List PathBuf) (edges : List GraphEdge) :
    DistancesOk (seedNeighborhood seeds edges) := by
  refine foldlRecOn (motive := DistancesOk) seeds _ ⟨?_, ?_⟩ ?_
  · exact fun path d h => absurd h.symm (some_ne_none d)
  · exact fun path candidate h hzero =>
      absurd hzero (dependencyCandidates_distance seeds edges path candidate h)
  · exact fun s hs seed _ => hs.enter seed "changed" 0 none (.inl rfl)

/-- What the context says of distances: reached paths are candidates at most as far away, and only
seeds are at distance zero. -/
lemma neighborhood_distances (edges : List GraphEdge) (hnodup : seeds.Nodup) :
    (∀ path d, Shortest (PathStep edges) (· ∈ seeds) d path →
      ∃ candidate, get? path (neighborhood seeds edges) = some candidate ∧ candidate.distance ≤ d) ∧
    ∀ path candidate, get? path (neighborhood seeds edges) = some candidate →
      candidate.distance = 0 → path ∈ seeds := by
  obtain ⟨-, hok, hshortest⟩ := neighborhoodSearch_keeps distancesOk_kept edges hnodup
    (seedNeighborhood_distancesOk seeds edges)
  refine ⟨fun path d h => hok.known path d ((hshortest path d).mpr h), ?_⟩
  intro path candidate hcandidate hzero
  exact shortest_zero_iff.mp ((hshortest path 0).mp (hok.zero path candidate hcandidate hzero))

end

/-! ## Paths and file names -/

lemma ofString_injective {topology : Topology} {file other : String}
    (hfile : file ∈ topology.graphFiles) (hother : other ∈ topology.graphFiles)
    (h : ofString file = ofString other) : file = other := by
  rw [← topology.files_named file hfile, h, topology.files_named other hother]

lemma path_matches {topology : Topology} {seeds : List String} {paths : List PathBuf}
    (hseeds : ∀ seed ∈ seeds, seed ∈ topology.graphFiles)
    (hpaths : ∀ path, path ∈ paths ↔ ∃ seed ∈ seeds, ofString seed = path) :
    Matches (DependentStep topology) (· ∈ seeds) (PathStep (edgeList topology)) (· ∈ paths)
      (fun file path => file ∈ topology.graphFiles ∧ ofString file = path) where
  start_forth := fun seed hseed =>
    ⟨_, ⟨hseeds seed hseed, rfl⟩, (hpaths _).mpr ⟨seed, hseed, rfl⟩⟩
  start_back := by
    intro path hpath
    obtain ⟨seed, hseed, rfl⟩ := (hpaths path).mp hpath
    exact ⟨seed, ⟨hseeds seed hseed, rfl⟩, hseed⟩
  step_forth := by
    rintro file _ importer ⟨_, rfl⟩ hstep
    obtain ⟨edge, hedge, hsource, htarget⟩ := mem_edgeList_iff.mpr hstep
    have hinside : importer ∈ topology.graphFiles := by
      obtain ⟨_, _, himporter, _⟩ := hstep
      exact mem_of_getElem? himporter
    exact ⟨_, ⟨hinside, rfl⟩, edge, hedge, by rw [htarget], by rw [hsource]⟩
  step_back := by
    rintro file _ _ ⟨hfile, rfl⟩ ⟨edge, hedge, htarget, rfl⟩
    obtain ⟨pair, hpair, himporter, himported⟩ :=
      mem_edgeList_iff.mp ⟨edge, hedge, rfl, rfl⟩
    have hsame := ofString_injective (mem_of_getElem? himported) hfile htarget
    exact ⟨edge.source, ⟨mem_of_getElem? himporter, rfl⟩, pair, hpair, himporter, hsame ▸ himported⟩
  right_unique := by
    rintro file _ _ ⟨_, rfl⟩ ⟨_, rfl⟩
    rfl
  left_unique := fun _ _ _ h h' => ofString_injective h.1 h'.1 (h.2.trans h'.2.symm)

end Reposcout.Review
