import Reposcout.Graph.Symbols

/-!
# Type relationships are sound

A reference is bound by the first rule that exactly one declaration of its family satisfies.  The
rules do not depend on the order in which files were added.  An import alias is one rule of
several, except in C#: a name that it does not find is looked for as it is spelled.
-/

namespace Reposcout.Graph.Symbols

open List Option KeyedList Indexes

variable (lower : String → String)

/-! ## Rules -/

/-- A way to match a reference with declarations. -/
inductive Rule where
  | qualified (name : String)
  | sameFile
  | sameScope
  | uniqueName

def Rule.resolver : Rule → String
  | qualified _ => "qualified"
  | sameFile => "same-file"
  | sameScope => "same-scope"
  | uniqueName => "unique-name"

/-- The last part of a reference. -/
def shortName (relation : UnresolvedRelation) (reference : String) : String :=
  normalizeName lower relation.family
    (simpleName (normalizeName lower relation.family (cleanReference reference)))

def hasQualifiedName (family name : String) (declaration : Declaration) : Bool :=
  declaration.family = family &&
    normalizeName lower family declaration.qualifiedName = normalizeName lower family name

def hasShortName (relation : UnresolvedRelation) (reference : String) (declaration : Declaration) :
    Bool :=
  declaration.family = relation.family &&
    normalizeName lower relation.family declaration.name = shortName lower relation reference

def Rule.accepts (relation : UnresolvedRelation) (reference : String) : Rule → Declaration → Bool
  | qualified name, declaration => hasQualifiedName lower relation.family name declaration
  | sameFile, declaration =>
    hasShortName lower relation reference declaration && declaration.path = relation.path
  | sameScope, declaration =>
    hasShortName lower relation reference declaration && declaration.scope = relation.scope
  | uniqueName, declaration => hasShortName lower relation reference declaration

/-- Only one declaration satisfies a condition. -/
def Only (declarations : List Declaration) (p : Declaration → Bool) (declaration : Declaration) :
    Prop :=
  declarations.filter p = [declaration]

/-- The rules that come after an alias. -/
def weakerRules (relation : UnresolvedRelation) (reference : String) : List Rule :=
  (namespacedName lower relation reference).toList.map .qualified ++
    [.qualified (normalizeName lower relation.family (cleanReference reference)),
      .sameFile, .sameScope, .uniqueName]

def rules (relation : UnresolvedRelation) (reference : String) : List Rule :=
  (aliasedName lower relation reference).toList.map .qualified ++
    weakerRules lower relation reference

def single {α : Type} : List α → Option α
  | [a] => some a
  | _ => none

/-- The first of some rules that exactly one declaration satisfies, with that declaration. -/
def firstOnly (declarations : List Declaration) (relation : UnresolvedRelation)
    (reference : String) (rules : List Rule) : Option (Declaration × Rule) :=
  rules.findSome? fun rule =>
    (single (declarations.filter (rule.accepts lower relation reference))).map (·, rule)

/-! ## Indexes -/

lemma get?_qualified (declarations : List Declaration) (family name : String) :
    get? (family, normalizeName lower family name)
        (new lower declarations).qualified =
      let items := declarations.zipIdx.filter fun item => hasQualifiedName lower family name item.1
      if items = [] then none else some items := by
  have hkey : ∀ item : Item, decide ((item.1.family,
      normalizeName lower item.1.family item.1.qualifiedName) =
        (family, normalizeName lower family name)) = hasQualifiedName lower family name item.1 := by
    intro item
    rw [hasQualifiedName, ← Bool.decide_and, decide_eq_decide, Prod.mk.injEq]
    exact and_congr_right fun hfamily => by rw [hfamily]
  rw [new, get?_groupBy_self]
  simp only [hkey]

lemma get?_simple (declarations : List Declaration) (relation : UnresolvedRelation)
    (reference : String) :
    get? (relation.family, shortName lower relation reference)
        (new lower declarations).simple =
      let items := declarations.zipIdx.filter fun item =>
        hasShortName lower relation reference item.1
      if items = [] then none else some items := by
  have hkey : ∀ item : Item, decide ((item.1.family,
      normalizeName lower item.1.family item.1.name) =
        (relation.family, shortName lower relation reference)) =
      hasShortName lower relation reference item.1 := by
    intro item
    rw [hasShortName, ← Bool.decide_and, decide_eq_decide, Prod.mk.injEq]
    exact and_congr_right fun hfamily => by rw [hfamily]
  rw [new, get?_groupBy_self]
  simp only [hkey]

lemma single_eq_some_iff {α : Type} {l : List α} {a : α} : single l = some a ↔ l = [a] := by
  rcases l with _ | ⟨b, _ | ⟨c, rest⟩⟩ <;> simp [single]

/-! ## The search -/

section

variable (declarations : List Declaration) (relation : UnresolvedRelation) (reference : String)

/-- The declarations, with their indexes, that satisfy a rule. -/
def acceptedItems (rule : Rule) : List Item :=
  declarations.zipIdx.filter fun item => rule.accepts lower relation reference item.1

/-- The first of some rules that exactly one declaration satisfies, with its index. -/
def firstItem (rules : List Rule) : Option (Item × Rule) :=
  rules.findSome? fun rule =>
    (single (acceptedItems lower declarations relation reference rule)).map (·, rule)

lemma firstItem_append (first rest : List Rule) :
    firstItem lower declarations relation reference (first ++ rest) =
      (firstItem lower declarations relation reference first).or
        (firstItem lower declarations relation reference rest) :=
  findSome?_append

lemma firstItem_cons (rule : Rule) (rest : List Rule) :
    firstItem lower declarations relation reference (rule :: rest) =
      ((single (acceptedItems lower declarations relation reference rule)).map (·, rule)).or
        (firstItem lower declarations relation reference rest) := by
  rw [firstItem, findSome?_cons]
  cases single (acceptedItems lower declarations relation reference rule) <;> rfl

variable {item : Item} {rule : Rule}

/-- What a search finds is the only one that satisfies its rule. -/
lemma single_of_firstItem {rules : List Rule}
    (h : firstItem lower declarations relation reference rules = some (item, rule)) : rule ∈ rules ∧
      single (acceptedItems lower declarations relation reference rule) = some item := by
  obtain ⟨other, hmem, heq⟩ := exists_of_findSome?_eq_some h
  obtain ⟨found, hfound, hpair⟩ := map_eq_some_iff.mp heq
  cases hpair
  exact ⟨hmem, hfound⟩

lemma map_fst_acceptedItems (rule : Rule) :
    (acceptedItems lower declarations relation reference rule).map Prod.fst =
      declarations.filter (rule.accepts lower relation reference) := by
  conv_rhs => rw [← zipIdx_map_fst 0 declarations, List.filter_map]
  rfl

lemma single_map {α β : Type} (f : α → β) (l : List α) : single (l.map f) = (single l).map f := by
  rcases l with _ | ⟨a, _ | ⟨b, rest⟩⟩ <;> rfl

/-- Without the indexes. -/
lemma firstOnly_eq (rules : List Rule) : firstOnly lower declarations relation reference rules =
    (firstItem lower declarations relation reference rules).map fun found =>
      (found.1.1, found.2) := by
  induction rules with
  | nil => rfl
  | cons rule rest ih =>
    rw [firstItem_cons, firstOnly, findSome?_cons, ← map_fst_acceptedItems, single_map]
    cases single (acceptedItems lower declarations relation reference rule) with
    | none => exact ih
    | some item => rfl

lemma only_of_single
    (h : single (acceptedItems lower declarations relation reference rule) = some item) :
    Only declarations (rule.accepts lower relation reference) item.1 := by
  rw [Only, ← map_fst_acceptedItems, single_eq_some_iff.mp h, map_singleton]

/-- **The search by qualified names, outside C#.** -/
lemma searchQualified_eq (hfamily : relation.family ≠ "csharp") (aliased : Bool)
    (names : List String) :
    searchQualified lower (new lower declarations) relation.family aliased names =
      (firstItem lower declarations relation reference (names.map .qualified)).elim .missed
        fun found => .found found.1 := by
  induction names with
  | nil => rfl
  | cons name rest ih =>
    rw [searchQualified, get?_qualified, map_cons, firstItem_cons, acceptedItems]
    simp only [Rule.accepts, hfamily, if_false, false_and]
    rcases declarations.zipIdx.filter fun item : Item =>
        hasQualifiedName lower relation.family name item.1 with _ | ⟨item, _ | ⟨other, items⟩⟩
    · simpa [single] using ih
    · simp [single]
    · simpa [single] using ih

/-- What the search finds is the choice of its first name, or of the others if it went on. -/
lemma searchQualified_cons_found {aliased : Bool} {name : String} {rest : List String}
    (h : searchQualified lower (new lower declarations) relation.family aliased
      (name :: rest) = .found item) :
    single (acceptedItems lower declarations relation reference (.qualified name)) = some item ∨
      ¬ (relation.family = "csharp" ∧ aliased = true) ∧
        searchQualified lower (new lower declarations) relation.family aliased rest =
          .found item := by
  rw [searchQualified, get?_qualified] at h
  rcases hitems : declarations.zipIdx.filter fun item : Item =>
      hasQualifiedName lower relation.family name item.1 with _ | ⟨first, _ | ⟨second, items⟩⟩
  · simp only [hitems, if_true] at h
    split_ifs at h with hstop
    exact .inr ⟨hstop, h⟩
  · simp only [hitems, cons_ne_nil, if_false, Search.found.injEq] at h
    subst h
    exact .inl (single_eq_some_iff.mpr hitems)
  · simp only [hitems, cons_ne_nil, if_false] at h
    split_ifs at h with hstop
    exact .inr ⟨fun hcut => hstop hcut.1, h⟩

lemma searchQualified_found {aliased : Bool} {names : List String}
    (h : searchQualified lower (new lower declarations) relation.family aliased names =
      .found item) :
    ∃ name ∈ names, single (acceptedItems lower declarations relation reference
      (.qualified name)) = some item := by
  induction names with
  | nil => cases h
  | cons name rest ih =>
    rcases searchQualified_cons_found lower declarations relation reference h with
      hsingle | ⟨-, hrest⟩
    · exact ⟨name, mem_cons_self, hsingle⟩
    · obtain ⟨other, hmem, hsingle⟩ := ih hrest
      exact ⟨other, mem_cons_of_mem _ hmem, hsingle⟩

/-- In C# a search that starts with an alias ends with it. -/
lemma searchQualified_alias (hfamily : relation.family = "csharp") {name : String}
    {rest : List String}
    (h : searchQualified lower (new lower declarations) relation.family true
      (name :: rest) = .found item) :
    single (acceptedItems lower declarations relation reference (.qualified name)) =
      some item :=
  (searchQualified_cons_found lower declarations relation reference h).resolve_right
    fun hrest => hrest.1 ⟨hfamily, rfl⟩

/-- The rules by the last part of a name. -/
def simpleRules : List Rule := [.sameFile, .sameScope, .uniqueName]

/-- The search by the last part of a name, as far as it is not cut off. -/
lemma searchSimple_eq : searchSimple lower (new lower declarations) relation reference =
      if relation.family = "csharp" ∧
          (acceptedItems lower declarations relation reference .uniqueName).any
            (sharesQualifiedName lower (new lower declarations) relation.family) then none
      else (firstItem lower declarations relation reference simpleRules).map fun found =>
        (found.1, found.2.resolver) := by
  have hfile : acceptedItems lower declarations relation reference .sameFile =
      (acceptedItems lower declarations relation reference .uniqueName).filter fun item =>
        item.1.path = relation.path :=
    (filter_congr fun item _ => Bool.and_comm _ _).trans filter_filter.symm
  have hscope : acceptedItems lower declarations relation reference .sameScope =
      (acceptedItems lower declarations relation reference .uniqueName).filter fun item =>
        item.1.scope = relation.scope :=
    (filter_congr fun item _ => Bool.and_comm _ _).trans filter_filter.symm
  have hget := get?_simple lower declarations relation reference
  have hunique : (declarations.zipIdx.filter fun item : Item =>
      hasShortName lower relation reference item.1) =
      acceptedItems lower declarations relation reference .uniqueName := rfl
  rw [hunique] at hget
  rw [shortName] at hget
  rw [searchSimple, hget, simpleRules, firstItem_cons, firstItem_cons, firstItem_cons, hfile, hscope]
  generalize acceptedItems lower declarations relation reference .uniqueName = items
  by_cases hempty : items = []
  · subst hempty
    simp [single, firstItem]
  · simp only [hempty, if_false, bind_some]
    split_ifs
    · rfl
    · generalize items.filter (fun item => decide (item.1.path = relation.path)) = inFile
      generalize items.filter (fun item => decide (item.1.scope = relation.scope)) = inScope
      rcases inFile with _ | ⟨item, _ | ⟨other, inFile⟩⟩
      · rcases inScope with _ | ⟨item, _ | ⟨other, inScope⟩⟩ <;>
          rcases items with _ | ⟨item, _ | ⟨other, items⟩⟩ <;>
          simp [single, firstItem, Rule.resolver]
      · simp [single, Rule.resolver]
      · rcases inScope with _ | ⟨item, _ | ⟨other, inScope⟩⟩ <;>
          rcases items with _ | ⟨item, _ | ⟨other, items⟩⟩ <;>
          simp [single, firstItem, Rule.resolver]

lemma rules_eq : rules lower relation reference =
    (candidateNames lower relation reference).map .qualified ++ simpleRules := by
  simp [rules, weakerRules, candidateNames, simpleRules]

/-- **Outside C# a reference is bound by the first rule that singles out a declaration.** -/
lemma resolveReference_eq (hfamily : relation.family ≠ "csharp")
    (hreference : cleanReference reference ≠ "") :
    resolveReference lower (new lower declarations) relation reference =
      (firstItem lower declarations relation reference (rules lower relation reference)).map
        fun found => (found.1, found.2.resolver) := by
  rw [resolveReference, if_neg hreference]
  dsimp only
  rw [searchQualified_eq lower declarations relation reference hfamily, rules_eq,
    firstItem_append, searchSimple_eq]
  simp only [hfamily, false_and, if_false]
  cases hfirst : firstItem lower declarations relation reference
      ((candidateNames lower relation reference).map .qualified) with
  | none => simp
  | some found =>
    obtain ⟨hmem, _⟩ := single_of_firstItem lower declarations relation reference hfirst
    obtain ⟨name, _, hrule⟩ := mem_map.mp hmem
    simp [← hrule, Rule.resolver]

variable {resolver : String}

/-- **What a reference is bound to is the only declaration that satisfies a rule.**  In C# that rule
is the alias, if there is one. -/
lemma single_of_resolveReference
    (h : resolveReference lower (new lower declarations) relation reference =
      some (item, resolver))
      :
    ∃ rule ∈ rules lower relation reference, rule.resolver = resolver ∧
      single (acceptedItems lower declarations relation reference rule) = some item ∧
      (relation.family = "csharp" → ∀ name, aliasedName lower relation reference = some name →
        rule = .qualified name) := by
  rw [resolveReference] at h
  split_ifs at h with hreference
  dsimp only at h
  cases hsearch : searchQualified lower (new lower declarations) relation.family
      (aliasedName lower relation reference).isSome (candidateNames lower relation reference) with
  | stopped =>
    rw [hsearch] at h
    cases h
  | found first =>
    rw [hsearch] at h
    cases h
    cases halias : aliasedName lower relation reference with
    | none =>
      obtain ⟨name, hname, hsingle⟩ :=
        searchQualified_found lower declarations relation reference hsearch
      refine ⟨.qualified name, ?_, rfl, hsingle, by simp⟩
      rw [rules_eq]
      exact mem_append_left _ (mem_map_of_mem hname)
    | some name =>
      by_cases hfamily : relation.family = "csharp"
      · rw [candidateNames, halias] at hsearch
        refine ⟨.qualified name, ?_, rfl, ?_, ?_⟩
        · rw [rules, halias]
          exact mem_append_left _ (mem_singleton_self _)
        · exact searchQualified_alias lower declarations relation reference hfamily hsearch
        · rintro _ other heq
          rw [some.inj heq]
      · obtain ⟨other, hother, hsingle⟩ :=
          searchQualified_found lower declarations relation reference hsearch
        refine ⟨.qualified other, ?_, rfl, hsingle, fun hcsharp => absurd hcsharp hfamily⟩
        rw [rules_eq]
        exact mem_append_left _ (mem_map_of_mem hother)
  | missed =>
    rw [hsearch] at h
    split_ifs at h with hcut
    rw [searchSimple_eq] at h
    split_ifs at h
    obtain ⟨⟨found, rule⟩, hfirst, heq⟩ := map_eq_some_iff.mp h
    cases heq
    obtain ⟨hmem, hsingle⟩ := single_of_firstItem lower declarations relation reference hfirst
    refine ⟨rule, ?_, rfl, hsingle, fun hcsharp name halias => ?_⟩
    · rw [rules_eq]
      exact mem_append_right _ hmem
    · refine absurd ⟨hcsharp, ?_⟩ hcut
      rw [halias]
      simp

end

/-! ## The ends of a relation -/

section

variable (declarations : List Declaration)

def EndsAs (relation : UnresolvedRelation) (source target : Item) (resolver : String) : Prop :=
  resolveSource lower (Indexes.new lower declarations) relation = some source ∧
    resolveReference lower (Indexes.new lower declarations) relation relation.target =
      some (target, resolver) ∧ source.2 ≠ target.2

def edgeKey (relation : UnresolvedRelation) (source target : Item) : EdgeKey :=
  toLex (source.1.id, toLex (target.1.id, relationKind relation source.1 target.1))

variable {relation : UnresolvedRelation}

lemma outcome_eq_edge_iff {key : EdgeKey} :
    outcome lower (new lower declarations) relation = .edge key resolver ↔
      ∃ source target, EndsAs lower declarations relation source target resolver ∧
        edgeKey relation source target = key := by
  unfold outcome EndsAs
  rcases resolveSource lower (new lower declarations) relation with _ | source
  · simp
  · rcases resolveReference lower (new lower declarations) relation relation.target with
      _ | ⟨target, label⟩
    · simp
    · dsimp only
      split_ifs with hsame
      · constructor
        · intro h
          cases h
        · rintro ⟨_, _, ⟨hsource, htarget, hne⟩, _⟩
          cases hsource
          cases htarget
          exact absurd hsame hne
      · constructor
        · intro h
          obtain ⟨rfl, rfl⟩ := Outcome.edge.inj h
          exact ⟨source, target, ⟨rfl, rfl, hsame⟩, rfl⟩
        · rintro ⟨_, _, ⟨hsource, htarget, hne⟩, rfl⟩
          cases hsource
          cases htarget
          rfl

variable {declarations}

lemma eq_of_index {first second : Item} (hfirst : first ∈ declarations.zipIdx)
    (hsecond : second ∈ declarations.zipIdx) (h : first.2 = second.2) : first = second := by
  have hget := mem_zipIdx_iff_getElem?.mp hfirst
  have hget' := mem_zipIdx_iff_getElem?.mp hsecond
  rw [h, hget'] at hget
  exact Prod.ext (some.inj hget).symm h

lemma eq_of_single {reference : String} {item other : Item}
    (h : single (acceptedItems lower declarations relation reference rule) = some item)
    (hother : other ∈ declarations.zipIdx) (hsame : other.1 = item.1) : other = item := by
  rw [single_eq_some_iff] at h
  have haccepts : item ∈ acceptedItems lower declarations relation reference rule := by
    rw [h]
    exact mem_singleton_self _
  have hmem : other ∈ acceptedItems lower declarations relation reference rule := by
    refine mem_filter.mpr ⟨hother, ?_⟩
    rw [hsame]
    exact (mem_filter.mp haccepts).2
  rw [h] at hmem
  exact mem_singleton.mp hmem

lemma mem_of_single {reference : String} {item : Item}
    (h : single (acceptedItems lower declarations relation reference rule) = some item) :
    item ∈ declarations.zipIdx ∧ rule.accepts lower relation reference item.1 := by
  have hmem : item ∈ acceptedItems lower declarations relation reference rule := by
    rw [single_eq_some_iff.mp h]
    exact mem_singleton_self _
  exact mem_filter.mp hmem

lemma mem_of_resolveSource {source : Item}
    (h : resolveSource lower (new lower declarations) relation = some source) :
    source ∈ declarations.zipIdx := by
  unfold resolveSource at h
  cases hsource : relation.source with
  | declaration id =>
    rw [hsource] at h
    exact (mem_of_get?_indexBy h).2
  | reference reference =>
    rw [hsource] at h
    obtain ⟨⟨item, resolver⟩, hresolve, rfl⟩ := map_eq_some_iff.mp h
    obtain ⟨_, _, _, hsingle, _⟩ :=
      single_of_resolveReference lower declarations relation reference hresolve
    exact (mem_of_single lower hsingle).1

lemma index_eq_iff {source target : Item}
    (hsource : resolveSource lower (new lower declarations) relation = some source)
    (htarget : resolveReference lower (new lower declarations) relation relation.target =
      some (target, resolver)) :
    source.2 = target.2 ↔ source.1 = target.1 := by
  have hmem := mem_of_resolveSource lower hsource
  obtain ⟨rule, _, _, hsingle, _⟩ :=
    single_of_resolveReference lower declarations relation relation.target htarget
  constructor
  · intro h
    rw [eq_of_index hmem (mem_of_single lower hsingle).1 h]
  · intro h
    rw [eq_of_single lower hsingle hmem h]

end

/-! ## Import aliases -/

section

variable (declarations : List Declaration) (relation : UnresolvedRelation)

/-- The declaration that a relation starts from. -/
def SourceIs (source : Declaration) : Prop :=
  match relation.source with
  | .declaration id =>
    (declarations.filter fun declaration => declaration.id = id).getLast? = some source
  | .reference reference => cleanReference reference ≠ "" ∧
    ∃ rule, firstOnly lower declarations relation reference (rules lower relation reference) =
      some (source, rule)

/-- The target of a relation has the name that the import alias at its start stands for. -/
def AliasKept : Prop :=
  ∀ source target resolver, EndsAs lower declarations relation source target resolver →
    ∀ name, aliasedName lower relation relation.target = some name →
      hasQualifiedName lower relation.family name target.1

/-- An alias is found, or no weaker rule singles out a declaration with another name. -/
def AliasBinds : Prop :=
  ∀ name, aliasedName lower relation relation.target = some name → relation.family = "csharp" ∨
    (∃ declaration, Only declarations (hasQualifiedName lower relation.family name) declaration) ∨
    ∀ source, SourceIs lower declarations relation source → ∀ declaration rule,
      firstOnly lower declarations relation relation.target
        (weakerRules lower relation relation.target) = some (declaration, rule) →
      declaration = source ∨ hasQualifiedName lower relation.family name declaration

lemma sourceIs_iff (hfamily : relation.family ≠ "csharp") {source : Declaration} :
    SourceIs lower declarations relation source ↔
      ∃ item : Item, resolveSource lower (Indexes.new lower declarations) relation = some item ∧
        item.1 = source := by
  unfold SourceIs resolveSource
  cases relation.source with
  | declaration id =>
    dsimp only
    rw [Indexes.new, get?_indexBy]
    have hfst : (declarations.zipIdx.filter fun item : Item => item.1.id = id).map Prod.fst =
        declarations.filter fun declaration => declaration.id = id := by
      conv_rhs => rw [← zipIdx_map_fst 0 declarations, List.filter_map]
      rfl
    rw [← hfst, getLast?_map, map_eq_some_iff]
  | reference reference =>
    dsimp only
    by_cases hreference : cleanReference reference = ""
    · have hnone : resolveReference lower (Indexes.new lower declarations) relation reference =
          none := by
        rw [resolveReference, if_pos hreference]
      simp [hreference, hnone]
    · rw [resolveReference_eq lower declarations relation reference hfamily hreference, firstOnly_eq]
      simp only [ne_eq, hreference, not_false_eq_true, true_and]
      cases firstItem lower declarations relation reference (rules lower relation reference) with
      | none => simp
      | some found => simp

/-- **When the alias of an import is kept.** -/
lemma aliasKept_iff (hreference : cleanReference relation.target ≠ "") :
    AliasKept lower declarations relation ↔ AliasBinds lower declarations relation := by
  constructor
  · intro h name halias
    by_cases hfamily : relation.family = "csharp"
    · exact .inl hfamily
    refine .inr (or_iff_not_imp_left.mpr fun honly source hsource declaration rule hweaker => ?_)
    have hnone : single (acceptedItems lower declarations relation relation.target
        (.qualified name)) = none := by
      by_contra hsome
      obtain ⟨item, hitem⟩ := ne_none_iff_exists'.mp hsome
      exact honly ⟨item.1, only_of_single lower declarations relation relation.target hitem⟩
    rw [firstOnly_eq] at hweaker
    obtain ⟨⟨item, weaker⟩, hitem, heq⟩ := map_eq_some_iff.mp hweaker
    cases heq
    have hresolve : resolveReference lower (new lower declarations) relation
        relation.target = some (item, weaker.resolver) := by
      rw [resolveReference_eq lower declarations relation relation.target hfamily hreference, rules,
        halias, toList_some, map_singleton, singleton_append, firstItem_cons,
        hnone, map_none, none_or, hitem]
      rfl
    obtain ⟨start, hstart, rfl⟩ := (sourceIs_iff lower declarations relation hfamily).mp hsource
    by_cases hsame : start.2 = item.2
    · exact .inl ((index_eq_iff lower hstart hresolve).mp hsame).symm
    · exact .inr (h start item weaker.resolver ⟨hstart, hresolve, hsame⟩ name halias)
  · rintro h source target resolver ⟨hsource, htarget, hne⟩ name halias
    obtain ⟨rule, _, _, hsingle, hcsharp⟩ :=
      single_of_resolveReference lower declarations relation relation.target htarget
    by_cases hfamily : relation.family = "csharp"
    · obtain rfl := hcsharp hfamily name halias
      exact (mem_of_single lower hsingle).2
    rw [resolveReference_eq lower declarations relation relation.target hfamily hreference, rules,
      halias, toList_some, map_singleton, singleton_append, firstItem_cons]
      at htarget
    cases hfirst : single (acceptedItems lower declarations relation relation.target
        (.qualified name)) with
    | some item =>
      rw [hfirst] at htarget
      cases htarget
      exact (mem_of_single lower hfirst).2
    | none =>
      rw [hfirst, map_none, none_or] at htarget
      obtain ⟨⟨item, weaker⟩, hweaker, heq⟩ := map_eq_some_iff.mp htarget
      cases heq
      have hnot : ¬∃ declaration,
          Only declarations (hasQualifiedName lower relation.family name) declaration := by
        rintro ⟨declaration, honly⟩
        have hmap := map_fst_acceptedItems lower declarations relation relation.target
          (.qualified name)
        have hfilter : declarations.filter ((Rule.qualified name).accepts lower relation
          relation.target) = [declaration] := honly
        rw [hfilter] at hmap
        have hsome := single_map Prod.fst (acceptedItems lower declarations relation
          relation.target (.qualified name))
        rw [hmap, hfirst] at hsome
        cases hsome
      have hfound : firstOnly lower declarations relation relation.target
          (weakerRules lower relation relation.target) = some (item.1, weaker) := by
        rw [firstOnly_eq, hweaker]
        rfl
      have hstart : SourceIs lower declarations relation source.1 :=
        (sourceIs_iff lower declarations relation hfamily).mpr ⟨source, hsource, rfl⟩
      have hbinds := ((h name halias).resolve_left hfamily).resolve_left hnot
      rcases hbinds source.1 hstart item.1 weaker hfound with hsame | hname
      · -- the source itself is found, so the relation is no edge
        obtain ⟨_, hitem⟩ :=
          single_of_firstItem lower declarations relation relation.target hweaker
        rw [eq_of_single lower hitem (mem_of_resolveSource lower hsource) hsame.symm] at hne
        exact absurd rfl hne
      · exact hname

end

end Reposcout.Graph.Symbols
