import Reposcout.Metrics.Planning
import Reposcout.Properties.Review.Neighborhood

/-!
# What a signature environment accounts for

The walk takes every type below the type parameters for a parameter, their bounds and defaults
included, and it walks the node that the declaration span leads to, which may be more than the
declaration.  The environment accounts for a signature exactly if the walk collects its names.
-/

namespace Reposcout.Metrics.Planning

open List Option KeyedList DefinitionEnvironment

/-! ## The walk -/

mutual

/-- The type identifiers of a tree that are not qualified and not in the body, each with whether it
is below type parameters. -/
def typeNames (body : Option ℕ) (generic : Bool) : Cst → List (String × Bool)
  | .node id kind _ _ _ text children =>
    if body = some id ∨ isQualifiedType kind then []
    else
      (if kind = "type_identifier" then [(text, generic || kind = "type_parameters")] else []) ++
        typeNamesList body (generic || kind = "type_parameters") children

def typeNamesList (body : Option ℕ) (generic : Bool) : List Cst → List (String × Bool)
  | [] => []
  | child :: rest => typeNames body generic child ++ typeNamesList body generic rest

end

mutual

/-- The nodes that a walk visits. -/
def signatureNodes (body : Option ℕ) : Cst → ℕ
  | .node id kind _ _ _ _ children =>
    if body = some id ∨ isQualifiedType kind then 1 else 1 + signatureNodesList body children

def signatureNodesList (body : Option ℕ) : List Cst → ℕ
  | [] => 0
  | child :: rest => signatureNodes body child + signatureNodesList body rest

end

variable (body : Option ℕ)

lemma typeNamesList_eq_flatMap (generic : Bool) (trees : List Cst) :
    typeNamesList body generic trees = trees.flatMap (typeNames body generic) := by
  induction trees with
  | nil => rfl
  | cons child rest ih => rw [typeNamesList, flatMap_cons, ih]

lemma signatureNodesList_eq_sum (trees : List Cst) :
    signatureNodesList body trees = (trees.map (signatureNodes body)).sum := by
  induction trees with
  | nil => rfl
  | cons child rest ih => rw [signatureNodesList, map_cons, sum_cons, ih]

/-- A walk visits every node that it stacks. -/
lemma signatureNodes_pos (tree : Cst) : 0 < signatureNodes body tree := by
  cases tree with
  | node =>
    rw [signatureNodes]
    split_ifs <;> omega

lemma of_skipped {body : Option ℕ} {tree : Cst}
    (h : body = some tree.id ∨ isQualifiedType tree.kind = true) :
    signatureNodes body tree = 1 ∧ ∀ generic, typeNames body generic tree = [] := by
  cases tree with
  | node =>
    simp only [Cst.id, Cst.kind] at h
    rw [signatureNodes, if_pos h]
    refine ⟨rfl, fun generic => ?_⟩
    rw [typeNames, if_pos h]

/-- The walk goes on below every other node. -/
lemma of_visited {body : Option ℕ} {tree : Cst}
    (h : ¬(body = some tree.id ∨ isQualifiedType tree.kind = true)) :
    signatureNodes body tree = 1 + (tree.children.map (signatureNodes body)).sum ∧
      ∀ generic, typeNames body generic tree = (if tree.kind = "type_identifier" then
          [(tree.text, generic || tree.kind = "type_parameters")] else []) ++
        tree.children.flatMap (typeNames body (generic || tree.kind = "type_parameters")) := by
  cases tree with
  | node =>
    simp only [Cst.id, Cst.kind] at h
    rw [signatureNodes, if_neg h, signatureNodesList_eq_sum]
    refine ⟨rfl, fun generic => ?_⟩
    rw [typeNames, if_neg h, typeNamesList_eq_flatMap]
    rfl

def SignatureNames.insertAll (seen : SignatureNames) (names : List (String × Bool)) :
    SignatureNames :=
  names.foldl (fun seen name => seen.insert name.1 name.2) seen

lemma insertAll_append (seen : SignatureNames) (names names' : List (String × Bool)) :
    seen.insertAll (names ++ names') = (seen.insertAll names).insertAll names' :=
  foldl_append

lemma insertAll_gaps (seen : SignatureNames) (gaps : List String)
    (names : List (String × Bool)) :
    ({ seen with gaps := gaps }).insertAll names = { seen.insertAll names with gaps := gaps } := by
  induction names generalizing seen with
  | nil => rfl
  | cons name rest ih =>
    simp only [SignatureNames.insertAll, foldl_cons] at ih ⊢
    rw [← ih]
    unfold SignatureNames.insert
    split_ifs <;> rfl

def stackNodes (body : Option ℕ) (stack : List (Cst × Bool)) : ℕ :=
  (stack.map fun item => signatureNodes body item.1).sum

/-- The type identifiers below a stack. -/
def stackNames (body : Option ℕ) (stack : List (Cst × Bool)) : List (String × Bool) :=
  stack.flatMap fun item => typeNames body item.2 item.1

lemma stackNodes_cons (item : Cst × Bool) (stack : List (Cst × Bool)) :
    stackNodes body (item :: stack) = signatureNodes body item.1 + stackNodes body stack := by
  rw [stackNodes, map_cons, sum_cons, stackNodes]

lemma stackNames_cons (item : Cst × Bool) (stack : List (Cst × Bool)) :
    stackNames body (item :: stack) = typeNames body item.2 item.1 ++ stackNames body stack := by
  rw [stackNames, flatMap_cons, stackNames]

lemma stack_children (generic : Bool) (children : List Cst) (stack : List (Cst × Bool)) :
    stackNodes body (children.map (fun child => (child, generic)) ++ stack) =
        (children.map (signatureNodes body)).sum + stackNodes body stack ∧
      stackNames body (children.map (fun child => (child, generic)) ++ stack) =
        children.flatMap (typeNames body generic) ++ stackNames body stack := by
  constructor
  · rw [stackNodes, map_append, List.map_map, sum_append, stackNodes]
    rfl
  · rw [stackNames, flatMap_append, flatMap_map, stackNames]

/-- What a walk has seen: all names below the stack, or none if there are too many nodes. -/
structure Walked (body : Option ℕ) (left : ℕ) (stack : List (Cst × Bool)) (seen : SignatureNames)
    (result : SignatureNames) : Prop where
  names : stackNodes body stack ≤ left →
    result.names = (seen.insertAll (stackNames body stack)).names
  genericNames : stackNodes body stack ≤ left →
    result.genericNames = (seen.insertAll (stackNames body stack)).genericNames
  names_eq_nil : left < stackNodes body stack → result.names = []
  gaps : ∀ gap ∈ result.gaps, gap ∈ seen.gaps ∨ gap = "qualified-signature-type-not-expanded" ∨
    gap = "signature-environment-work-limit"

lemma walked_walkSignature (left : ℕ) (stack : List (Cst × Bool))
    (seen : SignatureNames) : Walked body left stack seen (walkSignature body left stack seen) := by
  fun_induction walkSignature body left stack seen with
  | case1 left seen =>
    exact ⟨fun _ => rfl, fun _ => rfl, fun hlt => absurd hlt (Nat.not_lt_zero left),
      fun gap hgap => .inl hgap⟩
  | case2 item stack seen =>
    have hpos := signatureNodes_pos body item.1
    have hmany : 0 < stackNodes body (item :: stack) := by
      rw [stackNodes_cons]
      omega
    refine ⟨fun hfew => absurd hfew (Nat.not_le.mpr hmany),
      fun hfew => absurd hfew (Nat.not_le.mpr hmany), fun _ => rfl, fun gap hgap => ?_⟩
    rcases mem_append.mp hgap with hbefore | hlimit
    · exact .inl hbefore
    · exact .inr (.inr (mem_singleton.mp hlimit))
  | case3 left current generic stack seen hbody ih =>
    obtain ⟨hnodes, hnames⟩ := of_skipped (.inl hbody)
    have hstack := stackNodes_cons body (current, generic) stack
    rw [hnodes] at hstack
    have hsame : stackNames body ((current, generic) :: stack) = stackNames body stack := by
      rw [stackNames_cons, hnames, nil_append]
    refine ⟨fun hfew => ?_, fun hfew => ?_, fun hmany => ih.names_eq_nil (by omega), ih.gaps⟩
    · rw [ih.names (by omega), hsame]
    · rw [ih.genericNames (by omega), hsame]
  | case4 left current generic stack seen hbody hqualified ih =>
    obtain ⟨hnodes, hnames⟩ := of_skipped (.inr hqualified)
    have hstack := stackNodes_cons body (current, generic) stack
    rw [hnodes] at hstack
    have hsame : stackNames body ((current, generic) :: stack) = stackNames body stack := by
      rw [stackNames_cons, hnames, nil_append]
    refine ⟨fun hfew => ?_, fun hfew => ?_, fun hmany => ih.names_eq_nil (by omega),
      fun gap hgap => ?_⟩
    · rw [ih.names (by omega), insertAll_gaps, hsame]
    · rw [ih.genericNames (by omega), insertAll_gaps, hsame]
    · rcases ih.gaps gap hgap with hbefore | hrest
      · rcases mem_append.mp hbefore with hseen | hhere
        · exact .inl hseen
        · exact .inr (.inl (mem_singleton.mp hhere))
      · exact .inr hrest
  | case5 left current outer stack seen hbody hqualified generic seen' ih =>
    obtain ⟨hnodes, hnames⟩ := of_visited (not_or.mpr ⟨hbody, hqualified⟩)
    have hstack := stackNodes_cons body (current, outer) stack
    obtain ⟨hchildren, hbelow⟩ := stack_children body generic current.children stack
    rw [hnodes] at hstack
    have hsame : seen.insertAll (stackNames body ((current, outer) :: stack)) = seen'.insertAll
        (stackNames body (current.children.map (fun child => (child, generic)) ++ stack)) := by
      rw [stackNames_cons, hnames, append_assoc, ← hbelow, insertAll_append]
      by_cases hkind : current.kind = "type_identifier"
      · simp only [seen', if_pos hkind]
        rfl
      · simp only [seen', if_neg hkind]
        rfl
    have hgaps : seen'.gaps = seen.gaps := by
      by_cases hkind : current.kind = "type_identifier"
      · simp only [seen', if_pos hkind, SignatureNames.insert]
        split_ifs <;> rfl
      · simp only [seen', if_neg hkind]
    refine ⟨fun hfew => ?_, fun hfew => ?_, fun hmany => ih.names_eq_nil (by omega), ?_⟩
    · rw [ih.names (by omega), hsame]
    · rw [ih.genericNames (by omega), hsame]
    · rw [← hgaps]
      exact ih.gaps

/-! ## Names -/

lemma nodup_names_insertAll {seen : SignatureNames} {names : List (String × Bool)}
    (h : seen.names.Nodup) : (seen.insertAll names).names.Nodup := by
  induction names generalizing seen with
  | nil => exact h
  | cons name rest ih =>
    rw [SignatureNames.insertAll, foldl_cons]
    apply ih
    unfold SignatureNames.insert
    split_ifs
    · exact h
    · exact Review.nodup_insertOrdered h

/-- The separator ends a scope, so the name is what is behind it. -/
lemma siblingName_injective (owner : String) : Function.Injective (siblingName owner) := by
  have happend : ∀ (front : List Char) (name other : String),
      String.ofList (front ++ name.toList) = String.ofList (front ++ other.toList) →
        name = other := by
    intro front name other h
    exact String.toList_inj.mp (append_cancel_left (String.ofList_injective h))
  intro name other h
  unfold siblingName at h
  split at h
  · exact happend _ _ _ h
  · split at h
    · exact happend _ _ _ h
    · exact h

/-- The one definition that a name of a signature is bound to. -/
def uniqueIndex (owner : String) (bindings : List (String × List ℕ)) (name : String) : Option ℕ :=
  if isPrimitive name then none
  else
    match get? (siblingName owner name) bindings with
    | some [index] => some index
    | _ => none

/-- The gap of a name that is not bound to one definition. -/
def nameGap (owner : String) (bindings : List (String × List ℕ)) (name : String) :
    Option String :=
  if isPrimitive name then none
  else
    match get? (siblingName owner name) bindings with
    | some [_] => none
    | some _ => some (ambiguousGap (siblingName owner name))
    | none => some (unresolvedGap (siblingName owner name))

section

variable {owner : String} {bindings : List (String × List ℕ)}

lemma addName_spec (state : List DefinitionEnvironment × List String) (name : String)
    (hlength : state.1.length ≤ maxEnvironment) :
    (addName owner bindings state name).1.map definition =
        state.1.map definition ++
          (uniqueIndex owner bindings name).toList.take (maxEnvironment - state.1.length) ∧
      ∀ gap, gap ∈ (addName owner bindings state name).2 ↔ gap ∈ state.2 ∨ (gap = limitGap ∧
          maxEnvironment < state.1.length + (uniqueIndex owner bindings name).toList.length) ∨
        nameGap owner bindings name = some gap := by
  unfold addName uniqueIndex nameGap
  have hfew : ¬maxEnvironment < state.1.length := Nat.not_lt.mpr hlength
  by_cases hprimitive : isPrimitive name = true
  · simp [hprimitive, hfew]
  · simp only [hprimitive, Bool.false_eq_true, if_false]
    cases hbinding : get? (siblingName owner name) bindings with
    | none => simp [hfew, or_comm, eq_comm]
    | some indices =>
      match indices with
      | [] => simp [hfew, eq_comm]
      | [index] =>
        by_cases hroom : state.1.length < maxEnvironment
        · have hleft : maxEnvironment - state.1.length ≠ 0 := by omega
          obtain ⟨n, hn⟩ := Nat.exists_eq_succ_of_ne_zero hleft
          simp only [hroom, if_true, map_append, map_cons, map_nil,
            toList_some, length_singleton, hn, take_succ_cons, take_nil,
            true_and, reduceCtorEq, or_false]
          intro gap
          constructor
          · exact .inl
          · rintro (h | ⟨-, h⟩)
            · exact h
            · omega
        · have hnone : maxEnvironment - state.1.length = 0 := by omega
          simp only [hroom, if_false, hnone, toList_some, take_zero, append_nil,
            length_singleton, true_and, reduceCtorEq, or_false, mem_append,
            mem_singleton]
          intro gap
          have hmany : maxEnvironment < state.1.length + 1 := by omega
          simp [hmany]
      | _ :: _ :: _ => simp [hfew, eq_comm]

/-- All names: the first entries, and the gaps of the others. -/
lemma foldl_addName_spec (names : List String)
    (state : List DefinitionEnvironment × List String) (hlength : state.1.length ≤ maxEnvironment) :
    (names.foldl (addName owner bindings) state).1.map definition =
        state.1.map definition ++
          (names.filterMap (uniqueIndex owner bindings)).take (maxEnvironment - state.1.length) ∧
      ∀ gap, gap ∈ (names.foldl (addName owner bindings) state).2 ↔ gap ∈ state.2 ∨
        (gap = limitGap ∧ maxEnvironment <
          state.1.length + (names.filterMap (uniqueIndex owner bindings)).length) ∨
        ∃ name ∈ names, nameGap owner bindings name = some gap := by
  induction names generalizing state with
  | nil =>
    have hfew : ¬maxEnvironment < state.1.length := Nat.not_lt.mpr hlength
    simp [hfew]
  | cons name rest ih =>
    obtain ⟨henvironment, hgaps⟩ := @addName_spec owner bindings state name hlength
    have hsplit : (name :: rest).filterMap (uniqueIndex owner bindings) =
        (uniqueIndex owner bindings name).toList ++
          rest.filterMap (uniqueIndex owner bindings) := by
      rw [filterMap_cons]
      cases uniqueIndex owner bindings name <;> rfl
    have hnext : (addName owner bindings state name).1.length = state.1.length +
        min (maxEnvironment - state.1.length) (uniqueIndex owner bindings name).toList.length := by
      have hmap := congrArg List.length henvironment
      rw [length_map, length_append, length_map, length_take] at hmap
      exact hmap
    obtain ⟨hrest, hrestGaps⟩ := ih (addName owner bindings state name) (by omega)
    have hleft : maxEnvironment - (addName owner bindings state name).1.length =
        maxEnvironment - state.1.length - (uniqueIndex owner bindings name).toList.length := by
      omega
    rw [foldl_cons]
    constructor
    · rw [hrest, henvironment, hsplit, take_append, hleft, append_assoc]
    · intro gap
      rw [hrestGaps, hgaps, hsplit, length_append]
      simp only [mem_cons, exists_eq_or_imp]
      constructor
      · rintro ((hbefore | ⟨hlimit, hmany⟩ | hname) | ⟨hlimit, hmany⟩ | hothers)
        · exact .inl hbefore
        · exact .inr (.inl ⟨hlimit, by omega⟩)
        · exact .inr (.inr (.inl hname))
        · exact .inr (.inl ⟨hlimit, by omega⟩)
        · exact .inr (.inr (.inr hothers))
      · rintro (hbefore | ⟨hlimit, hmany⟩ | hname | hothers)
        · exact .inl (.inl hbefore)
        · by_cases hhere : maxEnvironment <
              state.1.length + (uniqueIndex owner bindings name).toList.length
          · exact .inl (.inr (.inl ⟨hlimit, hhere⟩))
          · exact .inr (.inl ⟨hlimit, by omega⟩)
        · exact .inl (.inr (.inr hname))
        · exact .inr (.inr hothers)

end

/-! ## Environments -/

def collectedNames (node : Cst) : List String :=
  let body := (node.childByFieldName "body").map Cst.id
  if signatureNodes body node ≤ maxSignatureNodes then
    let seen := SignatureNames.insertAll ⟨[], [], []⟩ (typeNames body false node)
    seen.names.filter fun name => name ∉ seen.genericNames
  else []

lemma nodup_collectedNames (node : Cst) : (collectedNames node).Nodup := by
  unfold collectedNames
  dsimp only
  split_ifs
  · exact (nodup_names_insertAll nodup_nil).filter _
  · exact nodup_nil

lemma dedupByDefinition_eq_self {entries : List DefinitionEnvironment}
    (h : (entries.map definition).Nodup) :
    dedupByDefinition entries = entries := by
  cases entries with
  | nil => rfl
  | cons first rest =>
    induction rest generalizing first with
    | nil => rfl
    | cons second rest ih =>
      have hne : second.definition ≠ first.definition := fun heq =>
        (nodup_cons.mp h).1 (List.mem_map.mpr ⟨second, mem_cons_self, heq⟩)
      have hrest := ih second (nodup_cons.mp h).2
      rw [dedupByDefinition] at hrest ⊢
      rw [dedupFrom, if_neg hne, hrest]

lemma get?_typeBindings {definitions : List DefinitionFact} {name : String} {indices : List ℕ}
    (h : get? name (typeBindings definitions) = some indices) :
    ∀ index ∈ indices, ∃ definition, definitions[index]? = some definition ∧
      isTypeKind definition.symbol.kind = true ∧ definition.symbol.name = name := by
  rw [typeBindings, get?_groupBy] at h
  split_ifs at h with hmem
  cases h
  intro index hindex
  rw [mem_flatMap] at hindex
  obtain ⟨⟨definition, place⟩, hplace, hsame⟩ := hindex
  obtain rfl := mem_singleton.mp hsame
  obtain ⟨hplace, hname⟩ := mem_filter.mp hplace
  obtain ⟨hzip, hkind⟩ := mem_filter.mp hplace
  rw [Bool.and_eq_true] at hkind
  exact ⟨definition, mk_mem_zipIdx_iff_getElem?.mp hzip, hkind.1, of_decide_eq_true hname⟩

lemma of_uniqueIndex {owner : String} {definitions : List DefinitionFact} {name : String}
    {index : ℕ} (h : uniqueIndex owner (typeBindings definitions) name = some index) :
    ∃ definition, definitions[index]? = some definition ∧ isTypeKind definition.symbol.kind = true ∧
        definition.symbol.name = siblingName owner name := by
  unfold uniqueIndex at h
  split_ifs at h
  split at h
  · rename_i found hfound
    cases h
    exact get?_typeBindings hfound _ (mem_singleton_self _)
  · exact absurd h.symm (some_ne_none index)

/-- Different names have different definitions. -/
lemma eq_of_uniqueIndex {owner : String} {definitions : List DefinitionFact}
    {name other : String} {index : ℕ}
    (h : uniqueIndex owner (typeBindings definitions) name = some index)
    (hother : uniqueIndex owner (typeBindings definitions) other = some index) : name = other := by
  obtain ⟨definition, hat, -, hname⟩ := of_uniqueIndex h
  obtain ⟨definition', hat', -, hname'⟩ := of_uniqueIndex hother
  cases hat.symm.trans hat'
  exact siblingName_injective owner (hname.symm.trans hname')

/-- The names of a node that are bound to one definition, in their order. -/
def localNames (owner : String) (bindings : List (String × List ℕ)) (node : Cst) : List String :=
  (collectedNames node).filter fun name => (uniqueIndex owner bindings name).isSome

/-- The first results are those of the first elements that have one. -/
lemma mem_take_filterMap {α β : Type} {f : α → Option β} {l : List α} {n : ℕ} {y : β} :
    y ∈ (l.filterMap f).take n ↔ ∃ x ∈ (l.filter fun x => (f x).isSome).take n, f x = some y := by
  induction l generalizing n with
  | nil => simp
  | cons x rest ih =>
    cases hfx : f x with
    | none => simp [hfx, ih]
    | some value =>
      cases n with
      | zero => simp
      | succ n => simp [hfx, ih, eq_comm]

lemma length_filterMap {α β : Type} (f : α → Option β) (l : List α) :
    (l.filterMap f).length = (l.filter fun x => (f x).isSome).length := by
  induction l with
  | nil => rfl
  | cons x rest ih => cases hfx : f x <;> simp [hfx, ih]

/-- What the environment of a function or method has: the first local names, and gaps for the
others. -/
lemma signatureEnvironment_spec {language : String} {root : Cst} {definition : DefinitionFact}
    {definitions : List DefinitionFact}
    (hlanguage : language ∈ ["Rust", "TypeScript", "TSX"])
    (hkind : definition.symbol.kind ∈ ["function", "method"]) :
    let node := descendantForByteRange definition.declarationSpan.startByte
      definition.declarationSpan.endByte root
    let result := signatureEnvironment language (some root) definition (typeBindings definitions)
    (result.1.map DefinitionEnvironment.definition).Nodup ∧ result.1.length ≤ maxEnvironment ∧
      (∀ index, index ∈ result.1.map DefinitionEnvironment.definition ↔
        ∃ name ∈ (localNames definition.symbol.name (typeBindings definitions) node).take
          maxEnvironment,
          uniqueIndex definition.symbol.name (typeBindings definitions) name = some index) ∧
      ∀ gap, gap ∉ ["body-dependencies-not-expanded", "qualified-signature-type-not-expanded",
          "signature-environment-work-limit"] → (gap ∈ result.2 ↔
        (gap = limitGap ∧ maxEnvironment <
          (localNames definition.symbol.name (typeBindings definitions) node).length) ∨
        ∃ name ∈ collectedNames node,
          nameGap definition.symbol.name (typeBindings definitions) name = some gap) := by
  intro node result
  generalize howner : definition.symbol.name = owner
  generalize hbindings : typeBindings definitions = bindings
  generalize hseen : walkSignature ((node.childByFieldName "body").map Cst.id) maxSignatureNodes
    [(node, false)] ⟨[], [], ["body-dependencies-not-expanded"]⟩ = seen
  generalize hstate : (seen.names.filter fun name => name ∉ seen.genericNames).foldl
    (addName owner bindings) ([], seen.gaps) = state
  have hresult : result = (dedupByDefinition (sortBy (fun left right =>
      compare left.definition right.definition) state.1),
        (sortBy compare state.2).eraseReps) := by
    simp only [result, signatureEnvironment, hkind, hlanguage, not_true_eq_false, if_false]
    rw [← hstate, ← hseen, ← howner, ← hbindings]
  have hwalked := walked_walkSignature ((node.childByFieldName "body").map Cst.id)
    maxSignatureNodes [(node, false)] ⟨[], [], ["body-dependencies-not-expanded"]⟩
  rw [hseen] at hwalked
  have hnames : (seen.names.filter fun name => name ∉ seen.genericNames) = collectedNames node := by
    have hnodes : stackNodes ((node.childByFieldName "body").map Cst.id) [(node, false)] =
        signatureNodes ((node.childByFieldName "body").map Cst.id) node := by
      exact Nat.add_zero _
    have hstack : stackNames ((node.childByFieldName "body").map Cst.id) [(node, false)] =
        typeNames ((node.childByFieldName "body").map Cst.id) false node := by
      exact append_nil _
    unfold collectedNames
    dsimp only
    split_ifs with hfew
    · rw [hwalked.names (by omega), hwalked.genericNames (by omega), hstack]
      have hapart := insertAll_gaps ⟨[], [], []⟩ ["body-dependencies-not-expanded"]
        (typeNames ((node.childByFieldName "body").map Cst.id) false node)
      rw [hapart]
    · rw [hwalked.names_eq_nil (by omega), filter_nil]
  obtain ⟨hentries, hgaps⟩ := @foldl_addName_spec owner bindings (collectedNames node)
    ([], seen.gaps) (Nat.zero_le _)
  rw [← hnames, hstate] at hentries hgaps
  rw [hnames] at hentries hgaps
  simp only [map_nil, nil_append, length_nil, Nat.sub_zero, Nat.zero_add]
    at hentries hgaps
  subst hbindings
  have hdistinct : (state.1.map DefinitionEnvironment.definition).Nodup := by
    rw [hentries]
    apply Nodup.sublist (take_sublist _ _)
    exact (nodup_collectedNames node).filterMap fun name other index hname hother =>
      eq_of_uniqueIndex hname hother
  have hperm := (sortBy_perm (fun left right : DefinitionEnvironment =>
    compare left.definition right.definition) state.1).map DefinitionEnvironment.definition
  have hkept := dedupByDefinition_eq_self (hperm.nodup_iff.mpr hdistinct)
  rw [hresult]
  rw [hkept]
  refine ⟨hperm.nodup_iff.mpr hdistinct, ?_, fun index => ?_, fun gap hgap => ?_⟩
  · rw [length_sortBy, ← length_map DefinitionEnvironment.definition, hentries]
    exact length_take_le _ _
  · rw [hperm.mem_iff, hentries]
    exact mem_take_filterMap
  · rw [mem_eraseReps, mem_sortBy, hgaps, length_filterMap]
    refine or_iff_right fun hseenGap => hgap ?_
    simp only [mem_cons, not_mem_nil, or_false]
    rcases hwalked.gaps gap hseenGap with hbody | hrest
    · exact .inl (mem_singleton.mp hbody)
    · exact .inr hrest

/-! ## The condition -/

/-- The function of a declaration: a variable has it as its value. -/
def callable (declaration : Cst) : Cst :=
  if declaration.kind = "variable_declarator" then
    (declaration.childByFieldName "value").getD declaration
  else declaration

/-- A type identifier of the signature of a declaration that is not qualified. -/
def SignatureName (declaration : Cst) (name : String) : Prop :=
  ∃ generic, (name, generic) ∈
    typeNames (((callable declaration).childByFieldName "body").map Cst.id) false declaration

def typeParameterNames (declaration : Cst) : List String :=
  ((callable declaration).childByFieldName "type_parameters").elim [] fun parameters =>
    (parameters.children.filter fun child => child.kind = "type_parameter").filterMap
      fun parameter => (parameter.childByFieldName "name").map Cst.text

/-- A type of the signature that the environment accounts for. -/
def Needed (declaration : Cst) (name : String) : Prop :=
  SignatureName declaration name ∧ isPrimitive name = false ∧ name ∉ typeParameterNames declaration

def OnlyType (definitions : List DefinitionFact) (name : String) (index : ℕ) : Prop :=
  (∃ definition, definitions[index]? = some definition ∧
    isTypeKind definition.symbol.kind = true ∧ definition.symbol.name = name) ∧
  ∀ (other : ℕ) definition, definitions[other]? = some definition →
    isTypeKind definition.symbol.kind = true → definition.symbol.name = name → other = index

/-- The environment and the gaps of a declaration account for its signature: every type is an entry
or in a gap, and there are at most eight entries, different ones, of types of the signature. -/
structure Accounts (definitions : List DefinitionFact) (owner : String) (declaration : Cst)
    (environment : List DefinitionEnvironment) (gaps : List String) : Prop where
  needed : ∀ name, Needed declaration name →
    (∃ index, OnlyType definitions (siblingName owner name) index ∧
      index ∈ environment.map DefinitionEnvironment.definition) ∨
    unresolvedGap (siblingName owner name) ∈ gaps ∨ ambiguousGap (siblingName owner name) ∈ gaps ∨
    (limitGap ∈ gaps ∧ ∃ index, OnlyType definitions (siblingName owner name) index)
  distinct : (environment.map DefinitionEnvironment.definition).Nodup
  length_le : environment.length ≤ maxEnvironment
  entries : ∀ entry ∈ environment, ∃ name, SignatureName declaration name ∧
    name ∉ typeParameterNames declaration ∧
    ∃ definition, definitions[entry.definition]? = some definition ∧
      definition.symbol.name = siblingName owner name

/-- The walk of a node collects the signature of a declaration: every type that is needed, bound to
the only definition if it is bound to one, unless there are more than eight that are bound to one;
and among the first eight of these no other name. -/
structure Collects (definitions : List DefinitionFact) (owner : String) (declaration node : Cst) :
    Prop where
  needed : ∀ name, Needed declaration name → (name ∈ collectedNames node ∧
      ∀ index, uniqueIndex owner (typeBindings definitions) name = some index →
        OnlyType definitions (siblingName owner name) index) ∨
    (maxEnvironment < (localNames owner (typeBindings definitions) node).length ∧
      ∃ index, OnlyType definitions (siblingName owner name) index)
  entries : ∀ name ∈ (localNames owner (typeBindings definitions) node).take maxEnvironment,
    SignatureName declaration name ∧ name ∉ typeParameterNames declaration

lemma unresolvedGap_injective : Function.Injective unresolvedGap := by
  intro name other h
  exact String.toList_inj.mp (append_cancel_left (String.ofList_injective h))

lemma ambiguousGap_injective : Function.Injective ambiguousGap := by
  intro name other h
  exact String.toList_inj.mp (append_cancel_left (String.ofList_injective h))

/-- A text starts as its front does. -/
lemma head?_append_toList {front : List Char} {c : Char} (h : front.head? = some c)
    (name : String) : (String.ofList (front ++ name.toList)).toList.head? = some c := by
  rw [String.toList_ofList, head?_append, h, some_or]

/-- The gaps of names start with letters of their own. -/
lemma head?_unresolvedGap (name : String) : (unresolvedGap name).toList.head? = some 'u' :=
  head?_append_toList (by decide +kernel) name

lemma head?_ambiguousGap (name : String) : (ambiguousGap name).toList.head? = some 'a' :=
  head?_append_toList (by decide +kernel) name

lemma unresolvedGap_ne_ambiguousGap (name other : String) :
    unresolvedGap name ≠ ambiguousGap other := by
  intro h
  have hhead := congrArg (fun text : String => text.toList.head?) h
  rw [head?_unresolvedGap, head?_ambiguousGap] at hhead
  revert hhead
  decide

lemma notMem_otherGaps {gap : String}
    (h : gap.toList.head? = some 'u' ∨ gap.toList.head? = some 'a') :
    gap ∉ ["body-dependencies-not-expanded", "qualified-signature-type-not-expanded",
      "signature-environment-work-limit"] ∧ gap ≠ limitGap := by
  have hothers : ∀ other ∈ ["body-dependencies-not-expanded",
      "qualified-signature-type-not-expanded", "signature-environment-work-limit", limitGap],
      other.toList.head? ≠ some 'u' ∧ other.toList.head? ≠ some 'a' := by decide +kernel
  constructor
  · intro hmem
    obtain ⟨hu, ha⟩ := hothers gap (mem_append_left [limitGap] hmem)
    exact h.elim hu ha
  · rintro rfl
    obtain ⟨hu, ha⟩ := hothers limitGap
      (mem_append_right ["body-dependencies-not-expanded",
        "qualified-signature-type-not-expanded", "signature-environment-work-limit"]
        (mem_singleton_self limitGap))
    exact h.elim hu ha

lemma nameGap_or_uniqueIndex {owner : String} {bindings : List (String × List ℕ)} {name : String}
    (h : isPrimitive name = false) :
    nameGap owner bindings name = some (unresolvedGap (siblingName owner name)) ∨
      nameGap owner bindings name = some (ambiguousGap (siblingName owner name)) ∨
      ∃ index, uniqueIndex owner bindings name = some index := by
  unfold nameGap uniqueIndex
  rw [h]
  cases get? (siblingName owner name) bindings with
  | none => exact .inl rfl
  | some indices =>
    match indices with
    | [] => exact .inr (.inl rfl)
    | [index] => exact .inr (.inr ⟨index, rfl⟩)
    | _ :: _ :: _ => exact .inr (.inl rfl)

lemma of_nameGap {owner : String} {bindings : List (String × List ℕ)} {name gap : String}
    (h : nameGap owner bindings name = some gap) :
    (gap = unresolvedGap (siblingName owner name) ∨ gap = ambiguousGap (siblingName owner name)) ∧
      uniqueIndex owner bindings name = none := by
  unfold nameGap at h
  unfold uniqueIndex
  by_cases hprimitive : isPrimitive name = true
  · simp only [hprimitive, if_true, reduceCtorEq] at h
  · simp only [hprimitive, Bool.false_eq_true, if_false] at h ⊢
    cases hbinding : get? (siblingName owner name) bindings with
    | none =>
      simp only [hbinding, some.injEq] at h
      exact ⟨.inl h.symm, rfl⟩
    | some indices =>
      rcases indices with _ | ⟨index, _ | ⟨other, rest⟩⟩
      · simp only [hbinding, some.injEq] at h
        exact ⟨.inr h.symm, rfl⟩
      · simp only [hbinding, reduceCtorEq] at h
      · simp only [hbinding, some.injEq] at h
        exact ⟨.inr h.symm, rfl⟩

lemma eq_of_nameGap {owner : String} {bindings : List (String × List ℕ)} {name other : String}
    (h : nameGap owner bindings other = some (unresolvedGap (siblingName owner name)) ∨
      nameGap owner bindings other = some (ambiguousGap (siblingName owner name))) :
    other = name := by
  apply siblingName_injective owner
  rcases h with h | h
  · rcases (of_nameGap h).1 with hsame | hsame
    · exact (unresolvedGap_injective hsame).symm
    · exact absurd hsame (unresolvedGap_ne_ambiguousGap _ _)
  · rcases (of_nameGap h).1 with hsame | hsame
    · exact absurd hsame.symm (unresolvedGap_ne_ambiguousGap _ _)
    · exact (ambiguousGap_injective hsame).symm

/-- The environment of a function or method accounts for its signature exactly if the walk collects
it. -/
theorem signatureEnvironment_accounts_iff {language : String} (root declaration : Cst)
    (definition : DefinitionFact) (definitions : List DefinitionFact)
    (hlanguage : language ∈ ["Rust", "TypeScript", "TSX"])
    (hkind : definition.symbol.kind ∈ ["function", "method"]) :
    Accounts definitions definition.symbol.name declaration
        (signatureEnvironment language (some root) definition (typeBindings definitions)).1
        (signatureEnvironment language (some root) definition (typeBindings definitions)).2 ↔
      Collects definitions definition.symbol.name declaration
        (descendantForByteRange definition.declarationSpan.startByte
          definition.declarationSpan.endByte root) := by
  obtain ⟨hdistinct, hlength, hentries, hgaps⟩ :=
    @signatureEnvironment_spec language root definition definitions hlanguage hkind
  generalize descendantForByteRange definition.declarationSpan.startByte
    definition.declarationSpan.endByte root = node at *
  generalize signatureEnvironment language (some root) definition (typeBindings definitions) =
    result at *
  generalize definition.symbol.name = owner at *
  have hunresolved : ∀ name, unresolvedGap (siblingName owner name) ∈ result.2 ↔
      ∃ other ∈ collectedNames node, nameGap owner (typeBindings definitions) other =
        some (unresolvedGap (siblingName owner name)) := by
    intro name
    obtain ⟨hothers, hlimit⟩ := notMem_otherGaps (.inl (head?_unresolvedGap (siblingName owner name)))
    rw [hgaps _ hothers]
    exact or_iff_right fun h => hlimit h.1
  have hambiguous : ∀ name, ambiguousGap (siblingName owner name) ∈ result.2 ↔
      ∃ other ∈ collectedNames node, nameGap owner (typeBindings definitions) other =
        some (ambiguousGap (siblingName owner name)) := by
    intro name
    obtain ⟨hothers, hlimit⟩ := notMem_otherGaps (.inr (head?_ambiguousGap (siblingName owner name)))
    rw [hgaps _ hothers]
    exact or_iff_right fun h => hlimit h.1
  have hlimit : limitGap ∈ result.2 ↔
      maxEnvironment < (localNames owner (typeBindings definitions) node).length := by
    rw [hgaps limitGap (by decide +kernel)]
    constructor
    · rintro (h | ⟨name, -, hname⟩)
      · exact h.2
      · rcases (of_nameGap hname).1 with hsame | hsame
        · exact absurd hsame (notMem_otherGaps (.inl (head?_unresolvedGap _))).2.symm
        · exact absurd hsame (notMem_otherGaps (.inr (head?_ambiguousGap _))).2.symm
    · intro h
      exact .inl ⟨rfl, h⟩
  constructor
  · intro haccounts
    refine ⟨fun name hneeded => ?_, fun name hname => ?_⟩
    · rcases haccounts.needed name hneeded with ⟨index, honly, hindex⟩ | hgap | hgap | ⟨hmany, honly⟩
      · -- The entry is the one of this name, as no other name has its definition.
        obtain ⟨other, hother, hunique⟩ := (hentries index).mp hindex
        obtain ⟨found, hat, -, hfound⟩ := of_uniqueIndex hunique
        obtain ⟨only, hat', -, hname⟩ := honly.1
        cases hat.symm.trans hat'
        obtain rfl := siblingName_injective owner (hfound.symm.trans hname)
        refine .inl ⟨(mem_filter.mp (mem_of_mem_take hother)).1, fun index' hunique' => ?_⟩
        rwa [← some.inj (hunique.symm.trans hunique')]
      · obtain ⟨other, hother, hname⟩ := (hunresolved name).mp hgap
        obtain rfl := eq_of_nameGap (.inl hname)
        refine .inl ⟨hother, fun index hunique => ?_⟩
        rw [(of_nameGap hname).2] at hunique
        exact absurd hunique.symm (some_ne_none index)
      · obtain ⟨other, hother, hname⟩ := (hambiguous name).mp hgap
        obtain rfl := eq_of_nameGap (.inr hname)
        refine .inl ⟨hother, fun index hunique => ?_⟩
        rw [(of_nameGap hname).2] at hunique
        exact absurd hunique.symm (some_ne_none index)
      · exact .inr ⟨hlimit.mp hmany, honly⟩
    · obtain ⟨index, hunique⟩ := isSome_iff_exists.mp
        (mem_filter.mp (mem_of_mem_take hname)).2
      obtain ⟨entry, hentry, rfl⟩ := List.mem_map.mp ((hentries index).mpr ⟨name, hname, hunique⟩)
      obtain ⟨other, hother, hparameter, found, hat, hfound⟩ := haccounts.entries entry hentry
      obtain ⟨found', hat', -, hfound'⟩ := of_uniqueIndex hunique
      cases hat.symm.trans hat'
      obtain rfl := siblingName_injective owner (hfound.symm.trans hfound')
      exact ⟨hother, hparameter⟩
  · intro hcollects
    refine ⟨fun name hneeded => ?_, hdistinct, hlength, fun entry hentry => ?_⟩
    · rcases hcollects.needed name hneeded with ⟨hcollected, honly⟩ | ⟨hmany, honly⟩
      · rcases @nameGap_or_uniqueIndex owner (typeBindings definitions) name hneeded.2.1 with
          hgap | hgap | ⟨index, hunique⟩
        · exact .inr (.inl ((hunresolved name).mpr ⟨name, hcollected, hgap⟩))
        · exact .inr (.inr (.inl ((hambiguous name).mpr ⟨name, hcollected, hgap⟩)))
        · by_cases hfirst : name ∈
              (localNames owner (typeBindings definitions) node).take maxEnvironment
          · exact .inl ⟨index, honly index hunique, (hentries index).mpr ⟨name, hfirst, hunique⟩⟩
          · have hlocal : name ∈ localNames owner (typeBindings definitions) node :=
              mem_filter.mpr ⟨hcollected, by rw [hunique]; rfl⟩
            have hmany : maxEnvironment <
                (localNames owner (typeBindings definitions) node).length := by
              by_contra hfew
              rw [take_of_length_le (Nat.not_lt.mp hfew)] at hfirst
              exact hfirst hlocal
            exact .inr (.inr (.inr ⟨hlimit.mpr hmany, index, honly index hunique⟩))
      · exact .inr (.inr (.inr ⟨hlimit.mpr hmany, honly⟩))
    · obtain ⟨name, hname, hunique⟩ := (hentries entry.definition).mp
        (List.mem_map.mpr ⟨entry, hentry, rfl⟩)
      obtain ⟨hsignature, hparameter⟩ := hcollects.entries name hname
      obtain ⟨found, hat, -, hfound⟩ := of_uniqueIndex hunique
      exact ⟨name, hsignature, hparameter, found, hat, hfound⟩

namespace OneTrait

/-- A node on the first line below a trait, which takes up the bytes before it. -/
def below (id : ℕ) (kind : String) (field : Option String) (start stop : ℕ) (text : String)
    (children : List Cst) : Cst :=
  .node id kind field true ⟨start, stop, 2, 2⟩ text children

/-- `trait Request {}` with a function behind it. -/
def root (function : Cst) : Cst :=
  .node 0 "source_file" none true ⟨0, function.span.endByte, 1, 2⟩ ""
    [.node 1 "trait_item" none true ⟨0, 16, 1, 1⟩ "trait Request {}"
      [.node 2 "type_identifier" (some "name") true ⟨6, 13, 1, 1⟩ "Request" []], function]

/-- `fn load(input: Request) {}`. -/
def argument : Cst :=
  below 3 "function_item" none 17 43 "fn load(input: Request) {}"
    [below 4 "identifier" (some "name") 20 24 "load" [],
      below 5 "parameters" (some "parameters") 24 40 "(input: Request)"
        [below 6 "parameter" none 25 39 "input: Request"
          [below 7 "identifier" (some "pattern") 25 30 "input" [],
            below 8 "type_identifier" (some "type") 32 39 "Request" []]],
      below 9 "block" (some "body") 41 43 "" []]

/-- `fn load<T: Request>(input: T) {}`. -/
def bound : Cst :=
  below 3 "function_item" none 17 49 "fn load<T: Request>(input: T) {}"
    [below 4 "identifier" (some "name") 20 24 "load" [],
      below 5 "type_parameters" (some "type_parameters") 24 36 "<T: Request>"
        [below 6 "type_parameter" none 25 35 "T: Request"
          [below 7 "type_identifier" (some "name") 25 26 "T" [],
            below 8 "trait_bounds" (some "bounds") 26 35 ": Request"
              [below 9 "type_identifier" none 28 35 "Request" []]]],
      below 10 "parameters" (some "parameters") 36 46 "(input: T)"
        [below 11 "parameter" none 37 45 "input: T"
          [below 12 "identifier" (some "pattern") 37 42 "input" [],
            below 13 "type_identifier" (some "type") 44 45 "T" []]],
      below 14 "block" (some "body") 47 49 "" []]

def request : DefinitionFact :=
  ⟨⟨"Request", "trait", "trait Request", 1, false, []⟩, ⟨0, 16, 1, 1⟩, some ⟨0, 16, 1, 1⟩⟩

def load (function : Cst) : DefinitionFact :=
  ⟨⟨"load", "function", "fn load", 2, false, []⟩, function.span, some function.span⟩

lemma onlyType_request (function : Cst) : OnlyType [request, load function] "Request" 0 := by
  refine ⟨⟨request, rfl, rfl, rfl⟩, fun other definition hat _ hname => ?_⟩
  match other with
  | 0 => rfl
  | 1 =>
    cases hat
    change "load" = "Request" at hname
    exact nomatch hname
  | _ + 2 => exact absurd hat.symm (some_ne_none definition)

end OneTrait

open OneTrait

/-- The type of an argument is an entry of the environment. -/
theorem signatureEnvironment_accounts_argument :
    Accounts [OneTrait.request, OneTrait.load OneTrait.argument] "load" OneTrait.argument
      (signatureEnvironment "Rust" (some (OneTrait.root OneTrait.argument))
        (OneTrait.load OneTrait.argument)
        (typeBindings [OneTrait.request, OneTrait.load OneTrait.argument])).1
      (signatureEnvironment "Rust" (some (OneTrait.root OneTrait.argument))
        (OneTrait.load OneTrait.argument)
        (typeBindings [OneTrait.request, OneTrait.load OneTrait.argument])).2 := by
  have hnames : typeNames (((callable argument).childByFieldName "body").map Cst.id) false
      argument = [("Request", false)] := by decide +kernel
  have hsibling : siblingName "load" "Request" = "Request" := by decide +kernel
  refine (signatureEnvironment_accounts_iff (root argument) argument
    (load argument) [request, load argument]
    (by decide +kernel) (by decide +kernel)).mpr ⟨?_, fun name hname => ?_⟩
  · rintro name ⟨⟨generic, hmem⟩, -, -⟩
    rw [hnames, mem_singleton, Prod.mk.injEq] at hmem
    obtain ⟨rfl, rfl⟩ := hmem
    refine .inl ⟨by decide +kernel, fun index hunique => ?_⟩
    have hzero : uniqueIndex "load" (typeBindings [request,
        load argument]) "Request" = some 0 := by decide +kernel
    obtain rfl := some.inj (hunique.symm.trans hzero)
    change OnlyType _ (siblingName "load" "Request") 0
    rw [hsibling]
    exact onlyType_request _
  · have hlocal : (localNames "load" (typeBindings [request,
        load argument]) argument).take maxEnvironment = ["Request"] := by
      decide +kernel
    obtain rfl : name = "Request" := by
      have hfound : descendantForByteRange 17 43 (root argument) =
          argument := rfl
      change name ∈ (localNames "load" _ (descendantForByteRange 17 43 _)).take _ at hname
      rw [hfound, hlocal] at hname
      exact mem_singleton.mp hname
    refine ⟨⟨false, ?_⟩, by decide +kernel⟩
    rw [hnames]
    exact mem_cons_self

/-- The bound of a type parameter is no entry and in no gap. -/
theorem signatureEnvironment_omits_bound :
    ¬∀ (language : String) (root declaration : Cst) (definition : DefinitionFact)
      (definitions : List DefinitionFact), language ∈ ["Rust", "TypeScript", "TSX"] →
      definition.symbol.kind ∈ ["function", "method"] →
      signatureNodes (((callable declaration).childByFieldName "body").map Cst.id) declaration ≤
        maxSignatureNodes →
      Accounts definitions definition.symbol.name declaration
        (signatureEnvironment language (some root) definition (typeBindings definitions)).1
        (signatureEnvironment language (some root) definition (typeBindings definitions)).2 := by
  intro h
  have haccounts := h "Rust" (root bound) bound
    (load bound) [request, load bound]
    (by decide +kernel) (by decide +kernel) (by decide +kernel)
  have hresult : signatureEnvironment "Rust" (some (root bound))
      (load bound)
      (typeBindings [request, load bound]) =
        ([], ["body-dependencies-not-expanded"]) := by decide +kernel
  rw [hresult] at haccounts
  have hneeded : Needed bound "Request" :=
    ⟨⟨true, by decide +kernel⟩, by decide +kernel, by decide +kernel⟩
  rcases haccounts.needed "Request" hneeded with ⟨index, -, hindex⟩ | hgap | hgap | ⟨hgap, -⟩
  · exact not_mem_nil hindex
  · exact absurd hgap (by decide +kernel)
  · exact absurd hgap (by decide +kernel)
  · exact absurd hgap (by decide +kernel)

end Reposcout.Metrics.Planning
