import Reposcout.Web.TypeNeighborhood

/-!
# What a type neighbourhood shows

A projection has at most as many files and groups as it may.  Its files are the focus and what its
groups have, each file in one group, and it says that it is truncated exactly if a related file is
not shown.
-/

namespace Reposcout.Web

open List KeyedList GraphSymbol

open scoped List

/-! ## Related files -/

/-- A type relation joins the symbol with a symbol of another file. -/
def TypeRelated (graph : DependencyGraph) (focus : String) (symbol : GraphSymbol)
    (path : String) : Prop :=
  path ≠ focus ∧ ∃ edge ∈ graph.symbolEdges, isTypeRelation edge.relation = true ∧
    ∃ id, (edge.target = symbol.id ∧ edge.source = id ∨
        edge.source = symbol.id ∧ edge.target = id) ∧
      (get? id (indexBy GraphSymbol.id graph.symbols)).map GraphSymbol.path = some path

/-- An edge joins the focus with another file. -/
def ImportRelated (graph : DependencyGraph) (focus path : String) : Prop :=
  path ≠ focus ∧ ∃ edge ∈ graph.edgeList,
    edge.target = focus ∧ edge.source = path ∨ edge.source = focus ∧ edge.target = path

lemma edgeDirection_iff {source target id other : String} :
    (∃ direction, edgeDirection source target id = some direction ∧
        relatedEnd source target direction = other) ↔
      target = id ∧ source = other ∨ source = id ∧ target = other := by
  rw [edgeDirection]
  split_ifs with htarget hsource
  · constructor
    · rintro ⟨direction, hdirection, rfl⟩
      cases hdirection
      exact .inl ⟨htarget, rfl⟩
    · rintro (⟨-, rfl⟩ | ⟨rfl, rfl⟩)
      · exact ⟨.incoming, rfl, rfl⟩
      · exact ⟨.incoming, rfl, htarget.symm⟩
  · constructor
    · rintro ⟨direction, hdirection, rfl⟩
      cases hdirection
      exact .inr ⟨hsource, rfl⟩
    · rintro (⟨h, -⟩ | ⟨-, rfl⟩)
      · exact absurd h htarget
      · exact ⟨.outgoing, rfl, rfl⟩
  · refine iff_of_false ?_ ?_
    · rintro ⟨_, ⟨⟩, -⟩
    · rintro (⟨h, -⟩ | ⟨h, -⟩)
      · exact htarget h
      · exact hsource h

variable {symbolsById : List (String × GraphSymbol)}

lemma typeRelated_eq_some {focus : String}
    {symbol : GraphSymbol} {edge : GraphSymbolEdge} {related : RelatedFile}
    (h : typeRelated symbolsById focus symbol edge = some related) :
    related.group.family = .types ∧ related.path ≠ focus ∧ isTypeRelation edge.relation = true ∧
      ∃ direction, edgeDirection edge.source edge.target symbol.id = some direction ∧
        (get? (relatedEnd edge.source edge.target direction) symbolsById).map
          path = some related.path := by
  rw [typeRelated] at h
  split_ifs at h with hrelation
  obtain ⟨direction, hdirection, h⟩ := Option.bind_eq_some_iff.mp h
  obtain ⟨found, hfound, h⟩ := Option.bind_eq_some_iff.mp h
  split_ifs at h with hpath
  cases h
  exact ⟨rfl, hpath, hrelation, direction, hdirection, by rw [hfound]; rfl⟩

variable {path : String}

/-- The files that the loop over the type relations finds. -/
lemma mem_typePaths_iff {graph : DependencyGraph} {focus : String} {symbol : GraphSymbol}
    :
    path ∈ (graph.symbolEdges.filterMap (typeRelated
        (indexBy id graph.symbols) focus symbol)).map RelatedFile.path ↔
      TypeRelated graph focus symbol path := by
  rw [mem_map]
  constructor
  · rintro ⟨related, hrelated, rfl⟩
    obtain ⟨edge, hedge, hfound⟩ := mem_filterMap.mp hrelated
    obtain ⟨-, hne, hrelation, direction, hdirection, hpath⟩ := typeRelated_eq_some hfound
    exact ⟨hne, edge, hedge, hrelation, _, edgeDirection_iff.mp ⟨direction, hdirection, rfl⟩, hpath⟩
  · rintro ⟨hne, edge, hedge, hrelation, id, hends, hpath⟩
    obtain ⟨direction, hdirection, rfl⟩ := edgeDirection_iff.mpr hends
    obtain ⟨found, hfound, rfl⟩ := Option.map_eq_some_iff.mp hpath
    refine ⟨⟨relationshipGroup focus symbol edge.relation direction, found.path,
      typeFileEdge focus found.path edge.relation direction⟩,
      mem_filterMap.mpr ⟨edge, hedge, ?_⟩, rfl⟩
    rw [typeRelated, if_pos hrelation, hdirection, Option.bind_eq_bind, Option.bind_some, hfound,
      Option.bind_eq_bind, Option.bind_some, if_neg hne]

/-- The files that the loop over the edges finds. -/
lemma mem_importPaths_iff {graph : DependencyGraph} {typePaths : List String} {focus : String}
    {symbol : GraphSymbol} :
    path ∈ (graph.edgeList.filterMap (importRelated typePaths focus symbol)).map
        RelatedFile.path ↔
      ImportRelated graph focus path ∧ path ∉ typePaths := by
  rw [mem_map]
  constructor
  · rintro ⟨related, hrelated, rfl⟩
    obtain ⟨edge, hedge, hfound⟩ := mem_filterMap.mp hrelated
    obtain ⟨direction, hdirection, hfound⟩ := Option.bind_eq_some_iff.mp hfound
    dsimp only at hfound
    split_ifs at hfound with hpath
    cases hfound
    rw [not_or] at hpath
    exact ⟨⟨hpath.1, edge, hedge, edgeDirection_iff.mp ⟨direction, hdirection, rfl⟩⟩, hpath.2⟩
  · rintro ⟨⟨hne, edge, hedge, hends⟩, hnot⟩
    obtain ⟨direction, hdirection, rfl⟩ := edgeDirection_iff.mpr hends
    refine ⟨⟨importGroup focus symbol direction,
      relatedEnd edge.source edge.target direction, edge⟩,
      mem_filterMap.mpr ⟨edge, hedge, ?_⟩, rfl⟩
    rw [importRelated, hdirection, Option.bind_eq_bind, Option.bind_some,
      if_neg (not_or.mpr ⟨hne, hnot⟩)]

/-! ## Groups -/

variable {groups : List (String × TypeNeighborhoodGroup)}

lemma mem_paths_appendGroup {related : RelatedFile} :
    (∃ entry ∈ appendGroup groups related, path ∈ entry.2.paths) ↔
      (∃ entry ∈ groups, path ∈ entry.2.paths) ∨ path = related.path := by
  rw [appendGroup]
  induction groups with
  | nil => simp [KeyedList.alter]
  | cons entry rest ih =>
    obtain ⟨id, group⟩ := entry
    rw [KeyedList.alter]
    split_ifs with hid
    · rw [exists_mem_cons_iff, exists_mem_cons_iff]
      show path ∈ group.paths ++ [related.path] ∨ _ ↔ _
      rw [mem_append, mem_singleton, or_right_comm]
    · rw [exists_mem_cons_iff, exists_mem_cons_iff, ih, or_assoc]

variable {related : List RelatedFile}

lemma mem_paths_foldl_appendGroup :
    (∃ entry ∈ related.foldl appendGroup groups, path ∈ entry.2.paths) ↔
      (∃ entry ∈ groups, path ∈ entry.2.paths) ∨ path ∈ related.map RelatedFile.path := by
  induction related generalizing groups with
  | nil => rw [foldl_nil, map_nil, or_iff_left not_mem_nil]
  | cons first rest ih =>
    rw [foldl_cons, ih, mem_paths_appendGroup, map_cons, mem_cons, or_assoc]

lemma forall_foldl_appendGroup {P : TypeNeighborhoodGroup → Prop}
    (hgroups : ∀ entry ∈ groups, P entry.2)
    (hnew : ∀ file ∈ related, P { file.group with paths := [file.path] })
    (hmore : ∀ file ∈ related, ∀ group, P group →
      P { group with paths := group.paths ++ [file.path] }) :
    ∀ entry ∈ related.foldl appendGroup groups, P entry.2 := by
  induction related generalizing groups with
  | nil => exact hgroups
  | cons first rest ih =>
    refine ih ?_ (fun file hfile => hnew file (mem_cons_of_mem _ hfile)) fun file hfile =>
      hmore file (mem_cons_of_mem _ hfile)
    exact forall_mem_alter (P := fun _ group => P group) hgroups
      (hnew first mem_cons_self) (hmore first mem_cons_self)

/-! ## Claims -/

lemma claimPaths_spec (claimed paths : List String) :
    (claimPaths claimed paths).2 = claimed ++ (claimPaths claimed paths).1 ∧
      ((claimPaths claimed paths).1.Nodup ∧ ∀ path ∈ (claimPaths claimed paths).1,
        path ∉ claimed ∧ path ∈ paths) ∧
      ∀ path ∈ paths, path ∈ (claimPaths claimed paths).2 := by
  induction paths generalizing claimed with
  | nil =>
    exact ⟨(append_nil _).symm, ⟨nodup_nil, nofun⟩,
      nofun⟩
  | cons path rest ih =>
    rw [claimPaths]
    split_ifs with hmem
    · obtain ⟨heq, ⟨hnodup, hnew⟩, hall⟩ := ih claimed
      refine ⟨heq, ⟨hnodup, fun other hother => ?_⟩, fun other hother => ?_⟩
      · exact ⟨(hnew other hother).1, mem_cons_of_mem _ (hnew other hother).2⟩
      · rcases mem_cons.mp hother with rfl | hother
        · rw [heq]
          exact mem_append_left _ hmem
        · exact hall other hother
    · obtain ⟨heq, ⟨hnodup, hnew⟩, hall⟩ := ih (claimed ++ [path])
      refine ⟨?_, ⟨nodup_cons.mpr ⟨fun hpath => ?_, hnodup⟩, fun other hother => ?_⟩,
        fun other hother => ?_⟩
      · rw [heq, append_assoc, singleton_append]
      · exact (hnew path hpath).1 (mem_append_right _ (mem_singleton_self path))
      · rcases mem_cons.mp hother with rfl | hother
        · exact ⟨hmem, mem_cons_self⟩
        · obtain ⟨hnot, hin⟩ := hnew other hother
          exact ⟨fun h => hnot (mem_append_left _ h), mem_cons_of_mem _ hin⟩
      · rcases mem_cons.mp hother with rfl | hother
        · rw [heq]
          exact mem_append_left _ (mem_append_right _ (mem_singleton_self _))
        · exact hall other hother

open TypeNeighborhoodGroup

lemma claimGroups_spec (claimed : List String) (groups : List TypeNeighborhoodGroup) :
    (claimGroups claimed groups).2 =
        claimed ++ (claimGroups claimed groups).1.flatMap paths ∧
      (((claimGroups claimed groups).1.flatMap paths).Nodup ∧
        ∀ path ∈ (claimGroups claimed groups).1.flatMap paths,
          path ∉ claimed) ∧
      (∀ group ∈ groups, ∀ path ∈ group.paths, path ∈ (claimGroups claimed groups).2) ∧
      ∀ group ∈ (claimGroups claimed groups).1, ∃ origin ∈ groups,
        group.family = origin.family ∧ ∀ path ∈ group.paths, path ∈ origin.paths := by
  induction groups generalizing claimed with
  | nil =>
    exact ⟨(append_nil _).symm, ⟨nodup_nil, nofun⟩,
      fun _ h => absurd h not_mem_nil, nofun⟩
  | cons group rest ih =>
    obtain ⟨heq, ⟨hnodup, hnew⟩, hall⟩ := claimPaths_spec claimed group.paths
    obtain ⟨heq', ⟨hnodup', hnew'⟩, hall', horigin⟩ := ih (claimPaths claimed group.paths).2
    have hclaimed : (claimGroups claimed (group :: rest)).2 =
        (claimGroups (claimPaths claimed group.paths).2 rest).2 := rfl
    have hflat : (claimGroups claimed (group :: rest)).1.flatMap paths =
        (claimPaths claimed group.paths).1 ++
          (claimGroups (claimPaths claimed group.paths).2 rest).1.flatMap
            paths := rfl
    rw [hclaimed, hflat]
    refine ⟨?_, ⟨nodup_append.mpr ⟨hnodup, hnodup', fun path hpath other hother => ?_⟩,
      fun path hpath => ?_⟩, fun member hmember path hpath => ?_, fun member hmember => ?_⟩
    · rw [heq', heq, append_assoc]
    · rintro rfl
      refine hnew' path hother ?_
      rw [heq]
      exact mem_append_right _ hpath
    · rcases mem_append.mp hpath with hpath | hpath
      · exact (hnew path hpath).1
      · have hnot := hnew' path hpath
        rw [heq] at hnot
        exact fun h => hnot (mem_append_left _ h)
    · rcases mem_cons.mp hmember with rfl | hmember
      · rw [heq']
        exact mem_append_left _ (hall path hpath)
      · exact hall' member hmember path hpath
    · rcases mem_cons.mp hmember with rfl | hmember
      · exact ⟨group, mem_cons_self, rfl, fun path hpath => (hnew path hpath).2⟩
      · obtain ⟨origin, hin, hsame⟩ := horigin member hmember
        exact ⟨origin, mem_cons_of_mem _ hin, hsame⟩

lemma flatMap_paths_filter (groups : List TypeNeighborhoodGroup) :
    (groups.filter fun group => group.paths ≠ []).flatMap paths =
      groups.flatMap paths := by
  induction groups with
  | nil => rfl
  | cons group rest ih =>
    rw [filter_cons, flatMap_cons]
    by_cases hnil : group.paths = []
    · rw [decide_eq_false (not_not_intro hnil), if_neg Bool.false_ne_true, ih, hnil, nil_append]
    · rw [decide_eq_true hnil, if_pos rfl, flatMap_cons, ih]

/-- Groups that have all the paths of the given ones, each path in one group only. -/
structure Distinct (groups : List TypeNeighborhoodGroup)
    (distinct : List TypeNeighborhoodGroup × List String) : Prop where
  claimed : distinct.2 = distinct.1.flatMap TypeNeighborhoodGroup.paths
  nodup : distinct.2.Nodup
  mem_iff : ∀ path, path ∈ distinct.2 ↔ ∃ group ∈ groups, path ∈ group.paths
  origin : ∀ group ∈ distinct.1, ∃ origin ∈ groups,
    group.family = origin.family ∧ ∀ path ∈ group.paths, path ∈ origin.paths
  nonempty : ∀ group ∈ distinct.1, group.paths ≠ []
  total : ∀ group ∈ distinct.1, group.totalMembers = group.paths.length

open InsertionSet

lemma distinct_distinctGroups (locale : Collation)
    (groups : List (String × TypeNeighborhoodGroup)) :
    Distinct (groups.map Prod.snd) (distinctGroups locale groups) := by
  set ordered := sortBy (compareGroups locale) (groups.map fun entry =>
    { entry.2 with
      paths := sortBy compareCodeUnits (ofList entry.2.paths) })
    with hordered
  obtain ⟨hclaimed, ⟨hnodup, -⟩, hall, horigin⟩ := claimGroups_spec [] ordered
  have hdistinct : distinctGroups locale groups =
      ((((claimGroups [] ordered).1.filter fun group => group.paths ≠ []).map fun group =>
        { group with totalMembers := group.paths.length }), (claimGroups [] ordered).2) := rfl
  have hin : ∀ group ∈ ordered, ∃ origin ∈ groups.map Prod.snd,
      group.family = origin.family ∧ ∀ path, path ∈ group.paths ↔ path ∈ origin.paths := by
    intro group hgroup
    rw [hordered, mem_sortBy, mem_map] at hgroup
    obtain ⟨entry, hentry, rfl⟩ := hgroup
    refine ⟨entry.2, mem_map_of_mem hentry, rfl, fun path => ?_⟩
    rw [mem_sortBy, mem_ofList]
  have hflat : (claimGroups [] ordered).2 =
      (distinctGroups locale groups).1.flatMap paths := by
    rw [hdistinct, flatMap_map]
    exact hclaimed.trans (flatMap_paths_filter _).symm
  refine ⟨hflat, ?_, fun path => ?_, fun group hgroup => ?_, fun group hgroup => ?_,
    fun group hgroup => ?_⟩
  · rw [hdistinct, hclaimed, nil_append]
    exact hnodup
  · constructor
    · intro hpath
      rw [hdistinct, hclaimed, nil_append] at hpath
      obtain ⟨group, hgroup, hpath⟩ := mem_flatMap.mp hpath
      obtain ⟨middle, hmiddle, -, hsub⟩ := horigin group hgroup
      obtain ⟨origin, horigin, -, hsame⟩ := hin middle hmiddle
      exact ⟨origin, horigin, (hsame path).mp (hsub path hpath)⟩
    · rintro ⟨origin, horigin, hpath⟩
      obtain ⟨entry, hentry, rfl⟩ := mem_map.mp horigin
      refine hall _ (mem_sortBy.mpr (mem_map_of_mem hentry)) path ?_
      rw [mem_sortBy, mem_ofList]
      exact hpath
  all_goals
    rw [hdistinct, mem_map] at hgroup
    obtain ⟨member, hmember, rfl⟩ := hgroup
    obtain ⟨hmember, hpaths⟩ := mem_filter.mp hmember
  · obtain ⟨middle, hmiddle, hfamily, hsub⟩ := horigin member hmember
    obtain ⟨origin, horigin, hfamily', hsame⟩ := hin middle hmiddle
    exact ⟨origin, horigin, hfamily.trans hfamily', fun path hpath =>
      (hsame path).mp (hsub path hpath)⟩
  · exact of_decide_eq_true hpaths
  · rfl

/-! ## Budgets -/

/-- The number of paths of some groups. -/
def memberCount (groups : List TypeNeighborhoodGroup) : ℕ :=
  (groups.flatMap TypeNeighborhoodGroup.paths).length

lemma giveFirst_spec (budget : ℕ) (candidates : List TypeNeighborhoodGroup) :
    (giveFirst budget candidates).1.map Prod.fst = candidates ∧
      (∀ given ∈ (giveFirst budget candidates).1, given.2 <+ given.1.paths.take 1) ∧
      ((giveFirst budget candidates).1.flatMap Prod.snd).length + (giveFirst budget candidates).2 ≤
        budget := by
  induction candidates generalizing budget with
  | nil =>
    exact ⟨rfl, nofun, Nat.le_of_eq (Nat.zero_add budget)⟩
  | cons candidate rest ih =>
    cases budget with
    | zero =>
      obtain ⟨hmap, hgiven, hle⟩ := ih 0
      rw [giveFirst]
      refine ⟨?_, fun given h => ?_, ?_⟩
      · rw [map_cons, hmap]
      · rcases mem_cons.mp h with rfl | h
        · exact nil_sublist _
        · exact hgiven given h
      · rw [flatMap_cons, nil_append]
        omega
    | succ budget =>
      obtain ⟨hmap, hgiven, hle⟩ := ih budget
      rw [giveFirst]
      refine ⟨?_, fun given h => ?_, ?_⟩
      · rw [map_cons, hmap]
      · rcases mem_cons.mp h with rfl | h
        · exact Sublist.refl _
        · exact hgiven given h
      · show (candidate.paths.take 1 ++
          (giveFirst budget rest).1.flatMap Prod.snd).length + (giveFirst budget rest).2 ≤
            budget + 1
        have hone : (candidate.paths.take 1).length ≤ 1 := length_take_le 1 candidate.paths
        rw [length_append]
        omega

/-- A group that has some of the paths of another one. -/
def PartOf (group origin : TypeNeighborhoodGroup) : Prop :=
  group.family = origin.family ∧ group.totalMembers = origin.totalMembers ∧
    group.paths <+ origin.paths

/-- The second round gives each candidate some of its other paths, within the budget. -/
lemma giveRest_spec (budget : ℕ) {given : List (TypeNeighborhoodGroup × List String)}
    (hgiven : ∀ entry ∈ given, entry.2 <+ entry.1.paths.take 1) :
    List.Forall₂ PartOf (giveRest budget given) (given.map Prod.fst) ∧
      memberCount (giveRest budget given) ≤ (given.flatMap Prod.snd).length + budget := by
  induction given generalizing budget with
  | nil =>
    exact ⟨Forall₂.nil, Nat.zero_le _⟩
  | cons entry rest ih =>
    obtain ⟨candidate, first⟩ := entry
    set more := (candidate.paths.drop 1).take budget with hmore
    obtain ⟨hparts, hle⟩ := ih (budget - more.length)
      fun entry hentry => hgiven entry (mem_cons_of_mem _ hentry)
    have hgive : giveRest budget ((candidate, first) :: rest) =
        { candidate with paths := first ++ more } :: giveRest (budget - more.length) rest := rfl
    rw [hgive]
    have hsub : first ++ more <+ candidate.paths := by
      have hfirst := hgiven (candidate, first) mem_cons_self
      calc first ++ more <+ candidate.paths.take 1 ++ candidate.paths.drop 1 :=
            hfirst.append (take_sublist budget (candidate.paths.drop 1))
        _ = candidate.paths := take_append_drop 1 candidate.paths
    have hlength : more.length ≤ budget := length_take_le budget (candidate.paths.drop 1)
    refine ⟨Forall₂.cons ⟨rfl, rfl, hsub⟩ hparts, ?_⟩
    rw [memberCount] at hle ⊢
    rw [flatMap_cons, flatMap_cons, length_append, length_append, length_append]
    show first.length + more.length + _ ≤ first.length + _ + budget
    omega

lemma partOf_retainCandidate (group : TypeNeighborhoodGroup) :
    PartOf (retainCandidate group) group := by
  rw [retainCandidate]
  split_ifs
  · exact ⟨rfl, rfl, take_sublist _ _⟩
  · exact ⟨rfl, rfl, Sublist.refl _⟩

lemma PartOf.trans {group middle origin : TypeNeighborhoodGroup} (h : PartOf group middle)
    (h' : PartOf middle origin) : PartOf group origin :=
  ⟨h.1.trans h'.1, h.2.1.trans h'.2.1, h.2.2.trans h'.2.2⟩

lemma sublist_flatMap_paths {groups origins : List TypeNeighborhoodGroup}
    (h : List.Forall₂ PartOf groups origins) :
    groups.flatMap paths <+
      origins.flatMap paths := by
  induction h with
  | nil => exact Sublist.refl _
  | cons hpart _ ih =>
    exact hpart.2.2.append ih

lemma retainGroups_spec (groups : List TypeNeighborhoodGroup) {limit : ℕ} (hlimit : 1 ≤ limit) :
    (∀ group ∈ retainGroups groups limit, group.paths ≠ []) ∧
      (∀ group ∈ retainGroups groups limit, ∃ origin ∈ groups, PartOf group origin) ∧
      (retainGroups groups limit).flatMap paths <+
        groups.flatMap paths ∧
      1 + memberCount (retainGroups groups limit) + (retainGroups groups limit).length ≤ limit := by
  set maximumGroups := min groups.length ((limit - 1) / 2) with hmaximum
  set candidates := (groups.take maximumGroups).map retainCandidate with hcandidates
  obtain ⟨hmap, hfirst, hbudget⟩ := giveFirst_spec (limit - 1 - candidates.length) candidates
  obtain ⟨hparts, hcount⟩ :=
    giveRest_spec (giveFirst (limit - 1 - candidates.length) candidates).2 hfirst
  rw [hmap] at hparts
  set retained := giveRest (giveFirst (limit - 1 - candidates.length) candidates).2
    (giveFirst (limit - 1 - candidates.length) candidates).1 with hretained
  have hretain : retainGroups groups limit = retained.filter fun group => group.paths ≠ [] := rfl
  have hparts' : List.Forall₂ PartOf retained (groups.take maximumGroups) := by
    rw [hcandidates, forall₂_map_right_iff] at hparts
    exact hparts.imp fun _ origin h => h.trans (partOf_retainCandidate origin)
  have hlength : candidates.length ≤ (limit - 1) / 2 := by
    rw [hcandidates, length_map, length_take]
    omega
  have hsame : retained.length = candidates.length := by
    rw [hparts'.length_eq, hcandidates, length_map]
  rw [hretain]
  refine ⟨fun group hgroup => of_decide_eq_true (mem_filter.mp hgroup).2,
    fun group hgroup => ?_, ?_, ?_⟩
  · obtain ⟨hgroup, -⟩ := mem_filter.mp hgroup
    obtain ⟨index, hindex, rfl⟩ := mem_iff_getElem.mp hgroup
    have horigin : index < (groups.take maximumGroups).length := hparts'.length_eq ▸ hindex
    exact ⟨(groups.take maximumGroups)[index], mem_of_mem_take (getElem_mem horigin),
      hparts'.get hindex horigin⟩
  · rw [flatMap_paths_filter]
    exact (sublist_flatMap_paths hparts').trans
      ((take_sublist _ _).flatMap paths)
  · have hfilter := length_filter_le (fun group => decide (group.paths ≠ [])) retained
    rw [memberCount, flatMap_paths_filter]
    rw [memberCount] at hcount
    omega

/-! ## Projections -/

/-- A projection within its limit that says what it does not show. -/
structure Honest (graph : DependencyGraph) (focus : String) (limit : ℕ)
    (projection : TypeNeighborhoodProjection) : Prop where
  bounded : projection.files.length + projection.groups.length ≤ limit
  files_nodup : projection.files.Nodup
  nonempty : ∀ group ∈ projection.groups, group.paths ≠ []
  disjoint : projection.groups.Pairwise fun group group' => List.Disjoint group.paths group'.paths
  unfocused : ∀ group ∈ projection.groups, focus ∉ group.paths
  mem_files : ∀ path, path ∈ projection.files ↔
    path = focus ∨ ∃ group ∈ projection.groups, path ∈ group.paths
  imports : ∀ group ∈ projection.groups, group.family = .imports →
    ∀ path ∈ group.paths, ¬ TypeRelated graph focus projection.symbol path
  total : ∀ group ∈ projection.groups, group.paths.length ≤ group.totalMembers
  truncated : projection.truncated = true ↔
    ∃ path, (TypeRelated graph focus projection.symbol path ∨ ImportRelated graph focus path) ∧
      path ∉ projection.files
  edges : ∀ edge ∈ projection.edges, edge.source ∈ projection.files ∧ edge.target ∈ projection.files

/-- The groups that are collected have the related files, each one a related file. -/
structure Collected (graph : DependencyGraph) (focus : String) (symbol : GraphSymbol)
    (groups : List (String × TypeNeighborhoodGroup)) : Prop where
  mem_iff : ∀ path, (∃ entry ∈ groups, path ∈ entry.2.paths) ↔
    TypeRelated graph focus symbol path ∨ ImportRelated graph focus path
  imports : ∀ entry ∈ groups, entry.2.family = .imports →
    ∀ path ∈ entry.2.paths, ¬ TypeRelated graph focus symbol path

lemma mem_paths_collectTypeGroups {graph : DependencyGraph} {focus : String}
    {symbol : GraphSymbol} :
    (∃ entry ∈ (collectTypeGroups graph.symbolEdges
        (indexBy id graph.symbols) focus symbol).1, path ∈ entry.2.paths) ↔
      TypeRelated graph focus symbol path := by
  rw [collectTypeGroups, mem_paths_foldl_appendGroup, mem_typePaths_iff, or_iff_right]
  rintro ⟨_, h, -⟩
  exact not_mem_nil h

lemma family_collectTypeGroups {edges : List GraphSymbolEdge}
    {focus : String} {symbol : GraphSymbol} :
    ∀ entry ∈ (collectTypeGroups edges symbolsById focus symbol).1, entry.2.family = .types := by
  refine forall_foldl_appendGroup (P := fun group => group.family = .types)
    (nofun) (fun file hfile => ?_) fun _ _ _ h => h
  obtain ⟨edge, -, hfound⟩ := mem_filterMap.mp hfile
  exact (typeRelated_eq_some hfound).1

lemma collected_collectImportGroups (graph : DependencyGraph) (focus : String)
    (symbol : GraphSymbol) {typePaths : List String}
    (htypes : ∀ path, path ∈ typePaths ↔ TypeRelated graph focus symbol path) :
    Collected graph focus symbol (collectImportGroups graph.edgeList
      (collectTypeGroups graph.symbolEdges (indexBy id graph.symbols) focus
        symbol).1 typePaths focus symbol).1 := by
  constructor
  · intro path
    rw [collectImportGroups, mem_paths_foldl_appendGroup, mem_paths_collectTypeGroups,
      mem_importPaths_iff, htypes]
    tauto
  · refine forall_foldl_appendGroup (P := fun group => group.family = .imports →
      ∀ path ∈ group.paths, ¬ TypeRelated graph focus symbol path) ?_ ?_ ?_
    · intro entry hentry himport
      rw [family_collectTypeGroups entry hentry] at himport
      exact TypeNeighborhoodFamily.noConfusion himport
    · intro file hfile _ path hpath
      rw [mem_singleton.mp hpath, ← htypes]
      exact (mem_importPaths_iff.mp (mem_map_of_mem hfile)).2
    · intro file hfile group hgroup himport path hpath
      rcases mem_append.mp hpath with hpath | hpath
      · exact hgroup himport path hpath
      · rw [mem_singleton.mp hpath, ← htypes]
        exact (mem_importPaths_iff.mp (mem_map_of_mem hfile)).2

section

variable (locale : Collation) (graph : DependencyGraph) (focus : String) (limit : ℕ)
  (symbol : GraphSymbol) (types : List (String × TypeNeighborhoodGroup) × List GraphEdge)

/-- The groups that a projection chooses from, with all the paths that they claim. -/
def offeredGroups : List TypeNeighborhoodGroup × List String :=
  distinctGroups locale (collectImportGroups graph.edgeList types.1
    (InsertionSet.ofList (types.1.flatMap fun entry => entry.2.paths)) focus symbol).1

lemma groups_neighborhoodOf : (neighborhoodOf locale graph focus limit symbol types).groups =
      retainGroups (offeredGroups locale graph focus symbol types).1 (max 1 limit) := rfl

lemma files_neighborhoodOf :
    (neighborhoodOf locale graph focus limit symbol types).files.Perm (ofList
      (focus :: (neighborhoodOf locale graph focus limit symbol types).groups.flatMap
        paths)) := by
  rw [neighborhoodOf]
  dsimp only
  exact sortBy_perm _ _

lemma truncated_neighborhoodOf :
    (neighborhoodOf locale graph focus limit symbol types).truncated = true ↔
      (neighborhoodOf locale graph focus limit symbol types).files.length <
        1 + (offeredGroups locale graph focus symbol types).2.length := by
  rw [(files_neighborhoodOf locale graph focus limit symbol types).length_eq]
  exact decide_eq_true_iff

lemma edges_neighborhoodOf {edge : GraphEdge}
    (h : edge ∈ (neighborhoodOf locale graph focus limit symbol types).edges) :
    edge.source ∈ (neighborhoodOf locale graph focus limit symbol types).files ∧
      edge.target ∈ (neighborhoodOf locale graph focus limit symbol types).files := by
  have hends := of_decide_eq_true (mem_filter.mp h).2
  have hperm := files_neighborhoodOf locale graph focus limit symbol types
  exact ⟨hperm.mem_iff.mpr hends.1, hperm.mem_iff.mpr hends.2⟩

end

/-- What is shown around a symbol is within the limit, and honest about what is not. -/
lemma honest_neighborhoodOf (locale : Collation) (graph : DependencyGraph) (focus : String)
    {limit : ℕ} (hlimit : 1 ≤ limit) (symbol : GraphSymbol) :
    Honest graph focus limit (neighborhoodOf locale graph focus limit symbol
      (collectTypeGroups graph.symbolEdges (indexBy id graph.symbols) focus
        symbol)) := by
  set types := collectTypeGroups graph.symbolEdges
    (indexBy id graph.symbols) focus symbol with htypes
  have hcollected := @collected_collectImportGroups graph focus symbol
    (ofList (types.1.flatMap fun entry => entry.2.paths)) fun path => by
      rw [mem_ofList, mem_flatMap, htypes, mem_paths_collectTypeGroups]
  have hspec : Distinct _ (offeredGroups locale graph focus symbol types) :=
    distinct_distinctGroups locale _
  have hretained := groups_neighborhoodOf locale graph focus limit symbol types
  have hfiles := files_neighborhoodOf locale graph focus limit symbol types
  have htruncated := truncated_neighborhoodOf locale graph focus limit symbol types
  have hedges := @edges_neighborhoodOf locale graph focus limit symbol types
  have hsymbol : (neighborhoodOf locale graph focus limit symbol types).symbol = symbol := rfl
  generalize neighborhoodOf locale graph focus limit symbol types = projection at *
  generalize offeredGroups locale graph focus symbol types = distinct at *
  rw [max_eq_right hlimit] at hretained
  subst hsymbol
  obtain ⟨hnonempty, hparts, hsub, hcount⟩ := retainGroups_spec distinct.1 hlimit
  rw [← hretained] at hnonempty hparts hsub hcount
  set shown := projection.groups.flatMap paths with hshown
  rw [← hspec.claimed] at hsub
  -- Every related file is claimed by a group, and nothing else.
  have hrelated : ∀ path, path ∈ distinct.2 ↔
      TypeRelated graph focus projection.symbol path ∨ ImportRelated graph focus path := by
    intro path
    rw [hspec.mem_iff, ← hcollected.mem_iff, ← htypes]
    simp only [mem_map, exists_exists_and_eq_and]
  have hfocus : focus ∉ distinct.2 := by
    rw [hrelated]
    rintro (⟨hne, -⟩ | ⟨hne, -⟩)
    · exact hne rfl
    · exact hne rfl
  have hnodup : (focus :: shown).Nodup :=
    nodup_cons.mpr ⟨fun hmem => hfocus (hsub.subset hmem), hsub.nodup hspec.nodup⟩
  have hperm : projection.files.Perm (focus :: shown) :=
    ofList_eq_self hnodup ▸ hfiles
  have hmem : ∀ path, path ∈ projection.files ↔ path = focus ∨ path ∈ shown := by
    intro path
    rw [hperm.mem_iff, mem_cons]
  refine ⟨?_, hperm.nodup_iff.mpr hnodup, hnonempty,
    (nodup_flatMap.mp (nodup_cons.mp hnodup).2).2, fun group hgroup hin => ?_,
    fun path => ?_, fun group hgroup hfamily path hpath => ?_, fun group hgroup => ?_, ?_,
    fun edge hedge => hedges hedge⟩
  · rw [hperm.length_eq, length_cons, Nat.add_comm shown.length]
    exact hcount
  · exact (nodup_cons.mp hnodup).1 (mem_flatMap.mpr ⟨group, hgroup, hin⟩)
  · rw [hmem, hshown, mem_flatMap]
  · obtain ⟨member, hmember, hfamily', -, hpaths⟩ := hparts group hgroup
    obtain ⟨origin, horigin, hfamily'', hpaths'⟩ := hspec.origin member hmember
    obtain ⟨entry, hentry, rfl⟩ := mem_map.mp horigin
    exact hcollected.imports entry hentry (hfamily''.symm.trans (hfamily'.symm.trans hfamily)) path
      (hpaths' path (hpaths.subset hpath))
  · obtain ⟨member, hmember, -, htotal, hpaths⟩ := hparts group hgroup
    rw [htotal, hspec.total member hmember]
    exact hpaths.length_le
  · rw [htruncated, hperm.length_eq, length_cons, Nat.add_comm, Nat.add_lt_add_iff_left]
    constructor
    · intro hlt
      by_contra hall
      push Not at hall
      refine absurd ((hspec.nodup.subperm fun path hpath => ?_).length_le) (Nat.not_le.mpr hlt)
      have hin := hall path ((hrelated path).mp hpath)
      exact ((hmem path).mp hin).resolve_left fun heq => hfocus (heq ▸ hpath)
    · rintro ⟨path, hpath, hnot⟩
      refine lt_of_le_of_ne hsub.length_le fun heq => hnot ((hmem path).mpr (.inr ?_))
      rw [hsub.eq_of_length heq]
      exact (hrelated path).mpr hpath

/-- Every projection is within its limit, and honest about what it does not show. -/
theorem honest_projectTypeNeighborhood (locale : Collation) (graph : DependencyGraph)
    (focus : String) {limit : ℕ} (hlimit : 1 ≤ limit) {projection : TypeNeighborhoodProjection}
    (h : projectTypeNeighborhood locale graph focus limit = some projection) :
    Honest graph focus limit projection := by
  obtain ⟨focusFile, -, h⟩ := Option.bind_eq_some_iff.mp h
  obtain ⟨symbol, -, h⟩ := Option.bind_eq_some_iff.mp h
  dsimp only at h
  split_ifs at h
  cases h
  exact honest_neighborhoodOf locale graph focus hlimit symbol

/-- Two types, one of which extends the other. -/
def smallTypeGraph : DependencyGraph where
  files := [{ path := "a.ts" }, { path := "b.ts" }]
  symbols := [{ id := "A", name := "A", qualifiedName := "A", path := "a.ts" },
    { id := "B", name := "B", qualifiedName := "B", path := "b.ts" }]
  symbolEdges := [⟨"B", "A", "extends"⟩]

theorem honest_smallTypeGraph :
    ∃ projection, projectTypeNeighborhood plainLocale smallTypeGraph "a.ts" 3 = some projection ∧
      Honest smallTypeGraph "a.ts" 3 projection := by
  have hsome : (projectTypeNeighborhood plainLocale smallTypeGraph "a.ts" 3).isSome = true := by
    decide +kernel
  obtain ⟨projection, h⟩ := Option.isSome_iff_exists.mp hsome
  exact ⟨projection, h,
    honest_projectTypeNeighborhood plainLocale smallTypeGraph "a.ts" (by decide) h⟩

end Reposcout.Web
