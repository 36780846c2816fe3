import Reposcout.Properties.Graph.Symbols

/-!
# The topology of type relationships is sound

Every relation ends as an edge, as a relation of a declaration with itself, or among the unresolved
ones.  The topology does not depend on the order in which files were added: what a reference is
bound to is a matter of the declarations alone.
-/

namespace Reposcout.Graph.Symbols

open List Option KeyedList Indexes

variable (lower : String → String)

/-! ## Files in another order -/

/-- The declarations of files in another order: those of one file keep theirs. -/
structure Reordered (declarations declarations' : List Declaration) : Prop where
  perm : declarations'.Perm declarations
  id : ∀ id, declarations'.filter (fun declaration => declaration.id = id) =
    declarations.filter fun declaration => declaration.id = id
  path : ∀ path, declarations'.filter (fun declaration => declaration.path = path) =
    declarations.filter fun declaration => declaration.path = path

lemma single_eq_of_perm {α : Type} {l l' : List α} (h : l'.Perm l) : single l' = single l := by
  apply ext
  intro a
  rw [single_eq_some_iff, single_eq_some_iff]
  constructor
  · rintro rfl
    exact perm_singleton.mp h.symm
  · rintro rfl
    exact perm_singleton.mp h

/-- Two lists of items with the same declarations are both empty, both of one, or both of more. -/
lemma shape_of_perm {items items' : List Item}
    (h : (items'.map Prod.fst).Perm (items.map Prod.fst)) :
    (items = [] ∧ items' = []) ∨
    (∃ item item' : Item, items = [item] ∧ items' = [item'] ∧ item'.1 = item.1) ∨
    ∃ first second rest first' second' rest',
      items = first :: second :: rest ∧ items' = first' :: second' :: rest' := by
  have hlength := h.length_eq
  rw [length_map, length_map] at hlength
  rcases items with _ | ⟨first, _ | ⟨second, rest⟩⟩
  · exact .inl ⟨rfl, length_eq_zero_iff.mp hlength⟩
  · obtain ⟨first', rfl⟩ := length_eq_one_iff.mp hlength
    exact .inr (.inl ⟨first, first', rfl, rfl, singleton_inj.mp (perm_singleton.mp h)⟩)
  · rcases items' with _ | ⟨first', _ | ⟨second', rest'⟩⟩
    · simp at hlength
    · simp at hlength
    · exact .inr (.inr ⟨_, _, _, _, _, _, rfl, rfl⟩)

/-- What is found, without its index. -/
def Search.declaration : Search → Option (Option Declaration)
  | found item => some (some item.1)
  | stopped => some none
  | missed => none

section

variable {declarations declarations' : List Declaration}

lemma searchQualified_of_perm (h : declarations'.Perm declarations) (family : String)
    (aliased : Bool) (names : List String) :
    (searchQualified lower (new lower declarations') family aliased names).declaration =
      (searchQualified lower (new lower declarations) family aliased names).declaration := by
  induction names with
  | nil => rfl
  | cons name rest ih =>
    have hfst : ∀ declarations : List Declaration,
        (declarations.zipIdx.filter fun item : Item => hasQualifiedName lower family name item.1).map
          Prod.fst = declarations.filter (hasQualifiedName lower family name) := by
      intro declarations
      conv_rhs => rw [← zipIdx_map_fst 0 declarations, List.filter_map]
      rfl
    have hperm := h.filter (hasQualifiedName lower family name)
    rw [← hfst, ← hfst] at hperm
    rw [searchQualified, searchQualified, get?_qualified, get?_qualified]
    rcases shape_of_perm hperm with ⟨hitems, hitems'⟩ | ⟨item, item', hitems, hitems', hsame⟩ |
      ⟨_, _, _, _, _, _, hitems, hitems'⟩
    · simp only [hitems, hitems', if_true]
      split_ifs
      · rfl
      · exact ih
    · simp only [hitems, hitems', cons_ne_nil, if_false]
      rw [Search.declaration, Search.declaration, hsame]
    · simp only [hitems, hitems', cons_ne_nil, if_false]
      split_ifs
      · rfl
      · exact ih

lemma firstOnly_of_perm (h : declarations'.Perm declarations) (relation : UnresolvedRelation)
    (reference : String) (rules : List Rule) :
    firstOnly lower declarations' relation reference rules =
      firstOnly lower declarations relation reference rules := by
  unfold firstOnly
  congr 1
  funext rule
  rw [single_eq_of_perm (h.filter (rule.accepts lower relation reference))]

lemma sharesQualifiedName_eq (declarations : List Declaration) (family : String) (item : Item) :
    sharesQualifiedName lower (new lower declarations) family item = decide
      (1 < (declarations.filter (hasQualifiedName lower family item.1.qualifiedName)).length) := by
  have hfst : (declarations.zipIdx.filter fun other : Item =>
      hasQualifiedName lower family item.1.qualifiedName other.1).map Prod.fst =
      declarations.filter (hasQualifiedName lower family item.1.qualifiedName) := by
    conv_rhs => rw [← zipIdx_map_fst 0 declarations, List.filter_map]
    rfl
  rw [sharesQualifiedName, get?_qualified, ← hfst, length_map]
  dsimp only
  split_ifs with hempty
  · simp [hempty]
  · rfl

lemma any_sharesQualifiedName (declarations : List Declaration) (relation : UnresolvedRelation)
    (reference : String) :
    (acceptedItems lower declarations relation reference .uniqueName).any
        (sharesQualifiedName lower (new lower declarations) relation.family) =
      (declarations.filter (Rule.uniqueName.accepts lower relation reference)).any
        fun declaration => 1 < (declarations.filter
          (hasQualifiedName lower relation.family declaration.qualifiedName)).length := by
  rw [← map_fst_acceptedItems, List.any_map]
  congr 1
  funext item
  exact sharesQualifiedName_eq lower declarations relation.family item

lemma searchSimple_of_perm (h : declarations'.Perm declarations) (relation : UnresolvedRelation)
    (reference : String) :
    (searchSimple lower (new lower declarations') relation reference).map
        (fun found => (found.1.1, found.2)) =
      (searchSimple lower (new lower declarations) relation reference).map
        fun found => (found.1.1, found.2) := by
  have hvalue : ∀ declarations : List Declaration,
      (searchSimple lower (new lower declarations) relation reference).map
        (fun found => (found.1.1, found.2)) =
      if relation.family = "csharp" ∧
          (declarations.filter (Rule.uniqueName.accepts lower relation reference)).any
            fun declaration => 1 < (declarations.filter
              (hasQualifiedName lower relation.family declaration.qualifiedName)).length then none
      else (firstOnly lower declarations relation reference simpleRules).map fun found =>
        (found.1, found.2.resolver) := by
    intro declarations
    rw [searchSimple_eq, any_sharesQualifiedName, firstOnly_eq]
    split_ifs
    · rfl
    · rw [Option.map_map, Option.map_map]
      rfl
  have hany : ((declarations'.filter (Rule.uniqueName.accepts lower relation reference)).any
      fun declaration => 1 < (declarations'.filter
        (hasQualifiedName lower relation.family declaration.qualifiedName)).length) =
      (declarations.filter (Rule.uniqueName.accepts lower relation reference)).any
        fun declaration => 1 < (declarations.filter
          (hasQualifiedName lower relation.family declaration.qualifiedName)).length := by
    rw [(h.filter _).any_eq]
    congr 1
    funext declaration
    rw [(h.filter _).length_eq]
  rw [hvalue, hvalue, hany, firstOnly_of_perm lower h]

def bound (declarations : List Declaration) (relation : UnresolvedRelation) (reference : String) :
    Option (Declaration × String) :=
  (resolveReference lower (Indexes.new lower declarations) relation reference).map
    fun found => (found.1.1, found.2)

/-- **What a reference is bound to does not depend on the order of the declarations.** -/
lemma bound_of_perm (h : declarations'.Perm declarations) (relation : UnresolvedRelation)
    (reference : String) :
    bound lower declarations' relation reference = bound lower declarations relation reference := by
  unfold bound resolveReference
  by_cases hreference : cleanReference reference = ""
  · rw [if_pos hreference, if_pos hreference]
  rw [if_neg hreference, if_neg hreference]
  dsimp only
  have hsearch := searchQualified_of_perm lower h relation.family
    (aliasedName lower relation reference).isSome (candidateNames lower relation reference)
  have hsimple := searchSimple_of_perm lower h relation reference
  cases hfirst : searchQualified lower (new lower declarations) relation.family
      (aliasedName lower relation reference).isSome (candidateNames lower relation reference) <;>
    cases hsecond : searchQualified lower (new lower declarations') relation.family
      (aliasedName lower relation reference).isSome (candidateNames lower relation reference) <;>
    rw [hfirst, hsecond] at hsearch <;>
    simp only [Search.declaration, some.injEq, reduceCtorEq] at hsearch
  · simp [hsearch]
  · dsimp only
    split_ifs
    · rfl
    · exact hsimple

def startOf (declarations : List Declaration) (relation : UnresolvedRelation) :
    Option Declaration :=
  (resolveSource lower (Indexes.new lower declarations) relation).map Prod.fst

lemma startOf_of_reordered (h : Reordered declarations declarations')
    (relation : UnresolvedRelation) :
    startOf lower declarations' relation = startOf lower declarations relation := by
  unfold startOf resolveSource
  cases relation.source with
  | reference reference =>
    have hbound := congrArg (Option.map Prod.fst) (bound_of_perm lower h.perm relation reference)
    rw [bound, bound, Option.map_map, Option.map_map] at hbound
    rw [Option.map_map, Option.map_map]
    exact hbound
  | declaration id =>
    have hlast : ∀ declarations : List Declaration,
        (get? id (new lower declarations).byId).map Prod.fst =
          (declarations.filter fun declaration => declaration.id = id).getLast? := by
      intro declarations
      rw [new, get?_indexBy, ← getLast?_map]
      conv_rhs => rw [← zipIdx_map_fst 0 declarations, List.filter_map]
      rfl
    rw [hlast, hlast, h.id]

def outcomeOf (relation : UnresolvedRelation) :
    Option Declaration → Option (Declaration × String) → Outcome
  | some source, some (target, resolver) =>
    if source = target then .selfReference
    else .edge (toLex (source.id, toLex (target.id, relationKind relation source target))) resolver
  | _, _ => .unresolved

lemma outcome_eq (declarations : List Declaration) (relation : UnresolvedRelation) :
    outcome lower (new lower declarations) relation =
      outcomeOf relation (startOf lower declarations relation)
        (bound lower declarations relation relation.target) := by
  unfold outcome startOf bound
  cases hsource : resolveSource lower (new lower declarations) relation with
  | none => rfl
  | some source =>
    cases htarget : resolveReference lower (new lower declarations) relation
        relation.target with
    | none => rfl
    | some found =>
      have hsame := index_eq_iff lower hsource htarget
      simp [outcomeOf, hsame]

/-- **The end of a relation does not depend on the order of the files.** -/
lemma outcome_of_reordered (h : Reordered declarations declarations')
    (relation : UnresolvedRelation) :
    outcome lower (new lower declarations') relation =
      outcome lower (new lower declarations) relation := by
  rw [outcome_eq, outcome_eq, startOf_of_reordered lower h, bound_of_perm lower h.perm]

end

/-! ## Edges -/

section

variable (outcomes : List Outcome)

lemma nodup_keys_recordEdge : (KeyedList.keys (outcomes.foldl recordEdge [])).Nodup := by
  refine foldlRecOn (motive := fun edges => (KeyedList.keys edges).Nodup) outcomes recordEdge
    nodup_nil fun edges hedges outcome _ => ?_
  cases outcome with
  | edge key resolver => exact nodup_keys_alter hedges
  | unresolved => exact hedges
  | selfReference => exact hedges

lemma get?_recordEdge (key : EdgeKey) :
    (∀ resolver, get? key (outcomes.foldl recordEdge []) = some resolver →
      .edge key resolver ∈ outcomes) ∧
    ∀ resolver, .edge key resolver ∈ outcomes → ∃ best,
      get? key (outcomes.foldl recordEdge []) = some best ∧
        resolverRank best ≤ resolverRank resolver := by
  induction outcomes using reverseRecOn with
  | nil => simp
  | append_singleton outcomes last ih =>
    obtain ⟨hfrom, hto⟩ := ih
    rw [foldl_append, foldl_cons, foldl_nil]
    have hkept : (∀ resolver, last ≠ .edge key resolver) →
        get? key (recordEdge (outcomes.foldl recordEdge []) last) =
          get? key (outcomes.foldl recordEdge []) := by
      intro hother
      cases last with
      | unresolved => rfl
      | selfReference => rfl
      | edge other resolver =>
        refine get?_alter_of_ne (fun heq => ?_) _ _
        exact hother resolver (by rw [heq])
    by_cases hother : ∀ resolver, last ≠ .edge key resolver
    · rw [hkept hother]
      refine ⟨fun resolver h => mem_append_left _ (hfrom resolver h), fun resolver h => ?_⟩
      refine hto resolver ((mem_append.mp h).resolve_right fun hlast => ?_)
      exact hother resolver (mem_singleton.mp hlast).symm
    · push Not at hother
      obtain ⟨latest, rfl⟩ := hother
      rw [recordEdge, get?_alter_self]
      cases hold : get? key (outcomes.foldl recordEdge []) with
      | none =>
        constructor
        · rintro resolver hresolver
          cases hresolver
          simp
        · intro resolver h
          rcases mem_append.mp h with hmem | hlast
          · obtain ⟨best, hbest, _⟩ := hto resolver hmem
            rw [hold] at hbest
            cases hbest
          · obtain ⟨_, rfl⟩ := Outcome.edge.inj (mem_singleton.mp hlast)
            exact ⟨resolver, rfl, le_rfl⟩
      | some current =>
        dsimp only
        split_ifs with hstronger
        · constructor
          · rintro resolver hresolver
            cases hresolver
            simp
          · intro resolver h
            refine ⟨latest, rfl, ?_⟩
            rcases mem_append.mp h with hmem | hlast
            · obtain ⟨best, hbest, hrank⟩ := hto resolver hmem
              rw [hold] at hbest
              cases hbest
              omega
            · obtain ⟨_, rfl⟩ := Outcome.edge.inj (mem_singleton.mp hlast)
              exact le_rfl
        · constructor
          · rintro resolver hresolver
            cases hresolver
            exact mem_append_left _ (hfrom current hold)
          · intro resolver h
            refine ⟨current, rfl, ?_⟩
            rcases mem_append.mp h with hmem | hlast
            · obtain ⟨best, hbest, hrank⟩ := hto resolver hmem
              rw [hold] at hbest
              cases hbest
              exact hrank
            · obtain ⟨_, rfl⟩ := Outcome.edge.inj (mem_singleton.mp hlast)
              omega

variable {edge : GraphSymbolEdge}

lemma mem_topologyEdges {outcomes : List Outcome} : edge ∈ topologyEdges outcomes ↔ ∃ key resolver,
      get? key (outcomes.foldl recordEdge []) = some resolver ∧
        toEdge (key, resolver) = edge := by
  constructor
  · intro h
    obtain ⟨⟨key, resolver⟩, hmem, rfl⟩ := mem_map.mp h
    rw [mem_sortBy] at hmem
    exact ⟨key, resolver, get?_of_mem (nodup_keys_recordEdge outcomes) hmem, rfl⟩
  · rintro ⟨key, resolver, hget, rfl⟩
    exact mem_map_of_mem (mem_sortBy.mpr (mem_of_get? hget))

lemma rank_resolver_inj {first second : Rule}
    (h : resolverRank first.resolver = resolverRank second.resolver) :
    first.resolver = second.resolver := by
  cases first <;> cases second <;> first | rfl | simp [Rule.resolver, resolverRank] at h

/-- **The edges do not depend on the order of the relations.** -/
lemma topologyEdges_of_perm {outcomes outcomes' : List Outcome} (h : outcomes'.Perm outcomes)
    (hrule : ∀ key resolver, .edge key resolver ∈ outcomes → ∃ rule : Rule,
      rule.resolver = resolver) :
    topologyEdges outcomes' = topologyEdges outcomes := by
  have hget : ∀ key, get? key (outcomes'.foldl recordEdge []) =
      get? key (outcomes.foldl recordEdge []) := by
    intro key
    obtain ⟨hfrom, hto⟩ := get?_recordEdge outcomes key
    obtain ⟨hfrom', hto'⟩ := get?_recordEdge outcomes' key
    cases hfound : get? key (outcomes.foldl recordEdge []) with
    | none =>
      cases hfound' : get? key (outcomes'.foldl recordEdge []) with
      | none => rfl
      | some resolver =>
        obtain ⟨_, hsome, _⟩ := hto resolver (h.mem_iff.mp (hfrom' resolver hfound'))
        rw [hfound] at hsome
        cases hsome
    | some resolver =>
      obtain ⟨best, hbest, hrank⟩ := hto' resolver (h.mem_iff.mpr (hfrom resolver hfound))
      obtain ⟨other, hother, hrank'⟩ := hto best (h.mem_iff.mp (hfrom' best hbest))
      rw [hfound] at hother
      cases hother
      obtain ⟨first, rfl⟩ := hrule key best (h.mem_iff.mp (hfrom' best hbest))
      obtain ⟨second, rfl⟩ := hrule key _ (hfrom _ hfound)
      rw [hbest, rank_resolver_inj (le_antisymm hrank hrank')]
  have hperm : (outcomes'.foldl recordEdge []).Perm (outcomes.foldl recordEdge []) := by
    have hnodup := (nodup_keys_recordEdge outcomes).of_map
    have hnodup' := (nodup_keys_recordEdge outcomes').of_map
    rw [perm_ext_iff_of_nodup hnodup' hnodup]
    rintro ⟨key, resolver⟩
    rw [← get?_eq_some_iff (nodup_keys_recordEdge outcomes),
      ← get?_eq_some_iff (nodup_keys_recordEdge outcomes'), hget]
  unfold topologyEdges
  rw [sortBy_eq_of_perm (fun first hfirst second hsecond heq => ?_) hperm]
  have hkey : first.1 = second.1 := compare_eq_iff_eq.mp heq
  have hsame := get?_of_mem (nodup_keys_recordEdge outcomes) hfirst
  rw [hkey, get?_of_mem (nodup_keys_recordEdge outcomes) hsecond] at hsame
  exact Prod.ext hkey (some.inj hsame).symm

/-- **The symbols do not depend on the order of the files.** -/
lemma topologySymbols_of_reordered {declarations declarations' : List Declaration}
    (h : Reordered declarations declarations') (edges : List GraphSymbolEdge) :
    topologySymbols edges declarations' = topologySymbols edges declarations := by
  apply sortBy_eq_of_filter_eq
  intro key
  have hfile : ∀ declarations : List Declaration,
      (((declarations.filter fun declaration => edges.any fun edge =>
        edge.source = declaration.id ∨ edge.target = declaration.id).map (toSymbol edges)).filter
          fun symbol => symbolKey symbol = key) =
      (((declarations.filter fun declaration => declaration.path = (ofLex key).1).filter
        fun declaration => edges.any fun edge =>
          edge.source = declaration.id ∨ edge.target = declaration.id).map (toSymbol edges)).filter
          fun symbol => symbolKey symbol = key := by
    intro declarations
    rw [List.filter_map, List.filter_map, List.filter_filter, List.filter_filter,
      List.filter_filter]
    congr 1
    apply filter_congr
    intro declaration _
    have hpath : symbolKey (toSymbol edges declaration) = key →
        declaration.path = (ofLex key).1 := by
      rintro rfl
      rfl
    by_cases hkey : symbolKey (toSymbol edges declaration) = key
    · simp [hkey, hpath hkey]
    · simp [hkey]
  rw [hfile declarations', hfile declarations, h.path]

end

/-! ## Counts -/

/-- The loop that counts relations under their paths. -/
def countsOf (relations : List (UnresolvedRelation × Outcome)) : List (String × ℕ) :=
  relations.foldl
    (fun counts item => KeyedList.alter item.1.path (fun old => old.getD 0 + 1) counts) []

lemma get?_countsOf (relations : List (UnresolvedRelation × Outcome)) (path : String) :
    get? path (countsOf relations) =
      let count := relations.countP fun item => item.1.path = path
      if count = 0 then none else some count := by
  induction relations using reverseRecOn with
  | nil => rfl
  | append_singleton relations item ih =>
    dsimp only at ih ⊢
    rw [countsOf, foldl_append, foldl_cons, foldl_nil, ← countsOf,
      get?_alter, countP_append, countP_singleton]
    by_cases hpath : item.1.path = path
    · rw [if_pos hpath.symm, hpath, ih, if_pos (decide_eq_true rfl), if_neg (Nat.succ_ne_zero _)]
      split_ifs with hcount
      · rw [hcount]
        rfl
      · rfl
    · have hitem : ¬ decide (item.1.path = path) = true := by simpa using hpath
      simp only [if_neg (Ne.symm hpath), ih, if_neg hitem, Nat.add_zero]

/-! ## Soundness -/

/-- The facts of files as they are extracted: a relation has a target, and the declarations of two
files differ in their paths, with which their ids start. -/
structure WellFormed (facts : List SourceFacts) : Prop where
  target : ∀ file ∈ facts, ∀ relation ∈ file.relations, cleanReference relation.target ≠ ""
  path : facts.Pairwise fun first second => ∀ declaration ∈ first.declarations,
    ∀ other ∈ second.declarations, declaration.path ≠ other.path
  id : facts.Pairwise fun first second => ∀ declaration ∈ first.declarations,
    ∀ other ∈ second.declarations, declaration.id ≠ other.id

/-- Two topologies that say the same. -/
structure SameTopology (first second : SymbolTopology) : Prop where
  symbols : first.symbols = second.symbols
  edges : first.edges = second.edges
  unresolvedRelations : first.unresolvedRelations = second.unresolvedRelations
  unresolvedByPath : ∀ path, get? path first.unresolvedByPath = get? path second.unresolvedByPath

def Outcome.isEdge : Outcome → Bool
  | edge .. => true
  | _ => false

structure Sound (facts : List SourceFacts) : Prop where
  /-- An edge leads to the only declaration that matches a reference by the rule of its resolver. -/
  bound : ∀ edge ∈ (finish lower (collected facts)).edges,
    ∃ relation ∈ (collected facts).relations, ∃ source target,
      EndsAs lower (collected facts).declarations relation source target edge.resolver ∧
      toEdge (edgeKey relation source target, edge.resolver) = edge ∧
      ∃ rule ∈ rules lower relation relation.target, rule.resolver = edge.resolver ∧
        Only (collected facts).declarations (rule.accepts lower relation relation.target) target.1
  /-- The alias of an import is kept. -/
  aliased : ∀ relation ∈ (collected facts).relations,
    AliasKept lower (collected facts).declarations relation
  /-- A reference whose matches no rule tells apart leads nowhere. -/
  ambiguous : ∀ relation ∈ (collected facts).relations, ∀ reference,
    reference = relation.target ∨ relation.source = .reference reference →
    (∀ rule ∈ rules lower relation reference, ∀ declaration,
      ¬ Only (collected facts).declarations (rule.accepts lower relation reference) declaration) →
    outcome lower (Indexes.new lower (collected facts).declarations) relation = .unresolved
  /-- A relation that ends as an edge has an edge, of no weaker resolver. -/
  recorded : ∀ relation ∈ (collected facts).relations, ∀ source target resolver,
    EndsAs lower (collected facts).declarations relation source target resolver →
    ∃ edge ∈ (finish lower (collected facts)).edges,
      toEdge (edgeKey relation source target, edge.resolver) = edge ∧
      resolverRank edge.resolver ≤ resolverRank resolver
  /-- Every relation ends as an edge, at its own source, or as an unresolved one. -/
  accounted : (collected facts).relations.length =
    (finish lower (collected facts)).unresolvedRelations +
    (collected facts).relations.countP (fun relation =>
      outcome lower (Indexes.new lower (collected facts).declarations) relation = .selfReference) +
    (collected facts).relations.countP (fun relation =>
      (outcome lower (Indexes.new lower (collected facts).declarations) relation).isEdge)
  /-- An unresolved relation is counted once, under the path of its file. -/
  counted : ∀ path, (get? path (finish lower (collected facts)).unresolvedByPath).getD 0 =
    (collected facts).relations.countP fun relation => relation.path = path ∧
      outcome lower (Indexes.new lower (collected facts).declarations) relation = .unresolved
  /-- The order of the files does not matter. -/
  ordered : ∀ facts', facts'.Perm facts →
    SameTopology (finish lower (collected facts')) (finish lower (collected facts))

variable {facts : List SourceFacts} {facts' : List SourceFacts}

lemma filter_declarations_of_perm {ι : Type} [DecidableEq ι] (key : Declaration → ι)
    (h : facts.Pairwise fun first second => ∀ declaration ∈ first.declarations,
      ∀ other ∈ second.declarations, key declaration ≠ key other) (hperm : facts'.Perm facts)
    (value : ι) :
    (collected facts').declarations.filter (fun declaration => key declaration = value) =
      (collected facts).declarations.filter fun declaration => key declaration = value := by
  rw [collected, collected, filter_flatMap, filter_flatMap]
  refine flatMap_eq_of_perm (h.imp fun {first second} hne => ?_) hperm
  rw [or_iff_not_imp_left]
  intro hfirst
  obtain ⟨declaration, hdeclaration⟩ := exists_mem_of_ne_nil _ hfirst
  obtain ⟨hmem, hkey⟩ := mem_filter.mp hdeclaration
  rw [filter_eq_nil_iff]
  intro other hother hsame
  exact hne declaration hmem other hother
    ((of_decide_eq_true hkey).trans (of_decide_eq_true hsame).symm)

lemma WellFormed.reordered (h : WellFormed facts) (hperm : facts'.Perm facts) :
    Reordered (collected facts).declarations (collected facts').declarations where
  perm := hperm.flatMap_right _
  id := filter_declarations_of_perm Declaration.id h.id hperm
  path := filter_declarations_of_perm Declaration.path h.path hperm

variable {relation : UnresolvedRelation}

lemma exists_rule_of_outcome {declarations : List Declaration} {key : EdgeKey}
    {resolver : String}
    (h : outcome lower (new lower declarations) relation = .edge key resolver) :
    ∃ rule : Rule, rule.resolver = resolver := by
  obtain ⟨source, target, hends, _⟩ := (outcome_eq_edge_iff lower declarations).mp h
  obtain ⟨rule, _, hresolver, _⟩ :=
    single_of_resolveReference lower declarations relation relation.target hends.2.1
  exact ⟨rule, hresolver⟩

/-- **The topology does not depend on the order of the files.** -/
lemma sameTopology_of_perm (h : WellFormed facts) (hperm : facts'.Perm facts) :
    SameTopology (finish lower (collected facts')) (finish lower (collected facts)) := by
  have hreordered := h.reordered hperm
  have hrelations : (collected facts').relations.Perm (collected facts).relations :=
    hperm.flatMap_right _
  have houtcomes : ((collected facts').relations.map fun relation => (relation,
      outcome lower (new lower (collected facts').declarations) relation)).Perm
      ((collected facts).relations.map fun relation => (relation,
        outcome lower (new lower (collected facts).declarations) relation)) := by
    simp only [outcome_of_reordered lower hreordered]
    exact hrelations.map _
  have hedges : (finish lower (collected facts')).edges = (finish lower (collected facts)).edges := by
    refine topologyEdges_of_perm (houtcomes.map Prod.snd) fun key resolver hmem => ?_
    rw [List.map_map] at hmem
    obtain ⟨relation, _, houtcome⟩ := List.mem_map.mp hmem
    exact exists_rule_of_outcome lower houtcome
  constructor
  · show topologySymbols (finish lower (collected facts')).edges (collected facts').declarations =
      topologySymbols (finish lower (collected facts)).edges (collected facts).declarations
    rw [hedges, topologySymbols_of_reordered hreordered]
  · exact hedges
  · exact (houtcomes.filter _).length_eq
  · intro path
    show get? path (countsOf _) = get? path (countsOf _)
    rw [get?_countsOf, get?_countsOf, (houtcomes.filter _).countP_eq]

lemma mem_edges_finish : edge ∈ (finish lower (collected facts)).edges ↔ ∃ key resolver,
      get? key (((collected facts).relations.map fun relation =>
        outcome lower (new lower (collected facts).declarations) relation).foldl
          recordEdge []) = some resolver ∧ toEdge (key, resolver) = edge := by
  have hedges : (finish lower (collected facts)).edges =
      topologyEdges ((collected facts).relations.map fun relation =>
        outcome lower (new lower (collected facts).declarations) relation) := by
    show topologyEdges (List.map Prod.snd _) = _
    rw [List.map_map]
    rfl
  rw [hedges, mem_topologyEdges]

lemma edge_bound (h : edge ∈ (finish lower (collected facts)).edges) :
    ∃ relation ∈ (collected facts).relations, ∃ source target,
      EndsAs lower (collected facts).declarations relation source target edge.resolver ∧
      toEdge (edgeKey relation source target, edge.resolver) = edge ∧
      ∃ rule ∈ rules lower relation relation.target, rule.resolver = edge.resolver ∧
        Only (collected facts).declarations (rule.accepts lower relation relation.target)
          target.1 := by
  obtain ⟨key, resolver, hget, rfl⟩ := (mem_edges_finish lower).mp h
  obtain ⟨relation, hrelation, houtcome⟩ := mem_map.mp ((get?_recordEdge _ key).1 resolver hget)
  obtain ⟨source, target, hends, rfl⟩ := (outcome_eq_edge_iff lower _).mp houtcome
  obtain ⟨rule, hmem, hresolver, hsingle, _⟩ :=
    single_of_resolveReference lower _ relation relation.target hends.2.1
  exact ⟨relation, hrelation, source, target, hends, rfl, rule, hmem, hresolver,
    only_of_single lower _ relation relation.target hsingle⟩

lemma edge_recorded (hrelation : relation ∈ (collected facts).relations) {source target : Item}
    {resolver : String}
    (h : EndsAs lower (collected facts).declarations relation source target resolver) :
    ∃ edge ∈ (finish lower (collected facts)).edges,
      toEdge (edgeKey relation source target, edge.resolver) = edge ∧
      resolverRank edge.resolver ≤ resolverRank resolver := by
  have hedge : outcome lower (new lower (collected facts).declarations) relation =
      .edge (edgeKey relation source target) resolver :=
    (outcome_eq_edge_iff lower _).mpr ⟨source, target, h, rfl⟩
  have hmem := mem_map_of_mem (f := fun relation =>
    outcome lower (new lower (collected facts).declarations) relation) hrelation
  rw [hedge] at hmem
  obtain ⟨best, hbest, hrank⟩ := (get?_recordEdge _ (edgeKey relation source target)).2 resolver hmem
  exact ⟨_, (mem_edges_finish lower).mpr ⟨_, best, hbest, rfl⟩, rfl, hrank⟩

/-- A reference that some rule does not single out is not bound. -/
lemma resolveReference_of_ambiguous {declarations : List Declaration} {reference : String}
    (h : ∀ rule ∈ rules lower relation reference, ∀ declaration,
      ¬ Only declarations (rule.accepts lower relation reference) declaration) :
    resolveReference lower (new lower declarations) relation reference = none := by
  by_contra hsome
  obtain ⟨⟨item, resolver⟩, hfound⟩ := ne_none_iff_exists'.mp hsome
  obtain ⟨rule, hmem, _, hsingle, _⟩ :=
    single_of_resolveReference lower declarations relation reference hfound
  exact h rule hmem item.1 (only_of_single lower declarations relation reference hsingle)

lemma outcome_of_ambiguous {declarations : List Declaration} {reference : String}
    (hreference : reference = relation.target ∨ relation.source = .reference reference)
    (h : ∀ rule ∈ rules lower relation reference, ∀ declaration,
      ¬ Only declarations (rule.accepts lower relation reference) declaration) :
    outcome lower (new lower declarations) relation = .unresolved := by
  have hnone := resolveReference_of_ambiguous lower h
  rcases hreference with rfl | hsource
  · rw [outcome, hnone]
    cases resolveSource lower (new lower declarations) relation <;> rfl
  · have hstart : resolveSource lower (new lower declarations) relation = none := by
      rw [resolveSource, hsource]
      dsimp only
      rw [hnone, map_none]
    rw [outcome, hstart]

lemma length_eq_countP (f : UnresolvedRelation → Outcome) (relations : List UnresolvedRelation) :
    relations.length = relations.countP (fun relation => f relation = .unresolved) +
      relations.countP (fun relation => f relation = .selfReference) +
      relations.countP (fun relation => (f relation).isEdge) := by
  induction relations with
  | nil => rfl
  | cons relation rest ih =>
    rw [length_cons, countP_cons, countP_cons, countP_cons, ih]
    cases f relation <;> simp [Outcome.isEdge] <;> omega

lemma unresolved_finish : (finish lower (collected facts)).unresolvedRelations =
    (collected facts).relations.countP fun relation =>
      outcome lower (new lower (collected facts).declarations) relation = .unresolved := by
  show (filter _ (map _ _)).length = _
  rw [← countP_eq_length_filter, countP_map]
  rfl

lemma unresolvedByPath_finish (path : String) :
    (get? path (finish lower (collected facts)).unresolvedByPath).getD 0 =
      (collected facts).relations.countP fun relation => relation.path = path ∧
        outcome lower (new lower (collected facts).declarations) relation =
          .unresolved := by
  show (get? path (countsOf (filter _ (map _ _)))).getD 0 = _
  rw [get?_countsOf, countP_filter, countP_map]
  dsimp only
  have hcount : (collected facts).relations.countP
      (((fun item : UnresolvedRelation × Outcome => decide (item.1.path = path) &&
        decide (item.2 = .unresolved)) ∘ fun relation => (relation,
          outcome lower (new lower (collected facts).declarations) relation))) =
      (collected facts).relations.countP fun relation => relation.path = path ∧
        outcome lower (new lower (collected facts).declarations) relation =
          .unresolved := by
    refine countP_congr fun relation _ => ?_
    simp
  rw [hcount]
  split_ifs with hzero
  · rw [hzero]
    rfl
  · rfl

/-- **Type relationships are sound exactly if the aliases of imports bind.** -/
theorem type_relations_sound_iff (facts : List SourceFacts) (h : WellFormed facts) :
    Sound lower facts ↔ ∀ relation ∈ (collected facts).relations,
      AliasBinds lower (collected facts).declarations relation := by
  have htarget : ∀ relation ∈ (collected facts).relations,
      cleanReference relation.target ≠ "" := by
    intro relation hrelation
    obtain ⟨file, hfile, hmem⟩ := mem_flatMap.mp hrelation
    exact h.target file hfile relation hmem
  constructor
  · intro hsound relation hrelation
    exact (aliasKept_iff lower _ relation (htarget relation hrelation)).mp
      (hsound.aliased relation hrelation)
  · intro hbinds
    constructor
    · exact fun edge hedge => edge_bound lower hedge
    · intro relation hrelation
      exact (aliasKept_iff lower _ relation (htarget relation hrelation)).mpr
        (hbinds relation hrelation)
    · exact fun relation _ reference hreference => outcome_of_ambiguous lower hreference
    · exact fun relation hrelation source target resolver => edge_recorded lower hrelation
    · rw [unresolved_finish]
      exact length_eq_countP _ _
    · exact unresolvedByPath_finish lower
    · exact fun facts' => sameTopology_of_perm lower h

/-! ## An alias that falls through -/

/-- A JavaScript class on the first line of a file. -/
def scriptClass (path name : String) : Declaration where
  id := path ++ "#L1:class:" ++ name
  name := name
  qualifiedName := name
  kind := "class"
  path := path
  language := "JavaScript"
  family := "javascript"
  line := 1
  scope := ""

/-- A class that extends `Local`, which is `Base` of another module. -/
def aliasedFile : SourceFacts where
  declarations := [scriptClass "child.js" "Child"]
  relations := [{
    source := .declaration "child.js#L1:class:Child"
    target := "Local"
    relation := "extends"
    path := "child.js"
    family := "javascript"
    scope := ""
    namespaceName := ""
    aliases := [("Local", "Base")] }]

def classFile (path name : String) : SourceFacts where
  declarations := [scriptClass path name]
  relations := []

lemma wellFormed_imported : WellFormed
    [aliasedFile, classFile "base.js" "Base", classFile "local.js" "Local"] where
  target := by decide +kernel
  path := by decide +kernel
  id := by decide +kernel

theorem type_relations_sound_iff_imported : Sound String.toLower
    [aliasedFile, classFile "base.js" "Base", classFile "local.js" "Local"] := by
  refine (type_relations_sound_iff String.toLower _ wellFormed_imported).mpr ?_
  intro relation hrelation name halias
  obtain rfl : relation = aliasedFile.relations.head (by decide) := mem_singleton.mp hrelation
  have hname : aliasedName String.toLower (aliasedFile.relations.head (by decide)) "Local" =
      some "Base" := by
    decide +kernel
  obtain rfl : "Base" = name := some.inj (hname.symm.trans halias)
  refine .inr (.inl ⟨scriptClass "base.js" "Base", ?_⟩)
  show List.filter _ _ = _
  decide +kernel

/-- Without `Base` the class extends another file's `Local`. -/
theorem not_type_relations_sound : WellFormed [aliasedFile, classFile "local.js" "Local"] ∧
      ¬ Sound String.toLower [aliasedFile, classFile "local.js" "Local"] := by
  constructor
  · constructor <;> decide +kernel
  · intro hsound
    have hkept := hsound.aliased (aliasedFile.relations.head (by decide)) (by decide +kernel)
      (scriptClass "child.js" "Child", 0) (scriptClass "local.js" "Local", 1) "qualified"
      ⟨by decide +kernel, by decide +kernel, by decide⟩ "Base" (by decide +kernel)
    revert hkept
    decide +kernel

end Reposcout.Graph.Symbols
