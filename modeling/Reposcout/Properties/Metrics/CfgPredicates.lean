import Mathlib.Algebra.Group.Nat.Even
import Reposcout.Metrics.TestCov

/-!
# The polarity of `cfg` predicates

A negation is seen in the flat token tree as a `not` with a child behind it.  On the token tree of
a predicate, the test is found exactly under an even number of negations, where the key of an
option counts as much as a bare identifier.
-/

namespace Reposcout.Metrics.TestCov

open List

/-! ## Predicates -/

inductive CfgPredicate where
  | ident (name : String)
  | option (key value : String)
  | any (operands : List CfgPredicate)
  | all (operands : List CfgPredicate)
  | not (operand : CfgPredicate)

/-- The predicate `leaf` stands in a predicate under a number of negations. -/
inductive Occurs (leaf : CfgPredicate) : ℕ → CfgPredicate → Prop
  | here : Occurs leaf 0 leaf
  | any {n : ℕ} {operand : CfgPredicate} {operands : List CfgPredicate} :
    operand ∈ operands → Occurs leaf n operand → Occurs leaf n (.any operands)
  | all {n : ℕ} {operand : CfgPredicate} {operands : List CfgPredicate} :
    operand ∈ operands → Occurs leaf n operand → Occurs leaf n (.all operands)
  | not {n : ℕ} {operand : CfgPredicate} :
    Occurs leaf n operand → Occurs leaf (n + 1) (.not operand)

section

variable {leaf : CfgPredicate} {n : ℕ}

lemma occurs_ident {name : String} :
    Occurs leaf n (.ident name) ↔ leaf = .ident name ∧ n = 0 := by
  constructor
  · intro h
    cases h with
    | here => exact ⟨rfl, rfl⟩
  · rintro ⟨rfl, rfl⟩
    exact .here

lemma occurs_option {key value : String} :
    Occurs leaf n (.option key value) ↔ leaf = .option key value ∧ n = 0 := by
  constructor
  · intro h
    cases h with
    | here => exact ⟨rfl, rfl⟩
  · rintro ⟨rfl, rfl⟩
    exact .here

variable {operands : List CfgPredicate}

lemma occurs_any : Occurs leaf n (.any operands) ↔
      (leaf = .any operands ∧ n = 0) ∨ ∃ operand ∈ operands, Occurs leaf n operand := by
  constructor
  · intro h
    cases h with
    | here => exact .inl ⟨rfl, rfl⟩
    | any hmem h => exact .inr ⟨_, hmem, h⟩
  · rintro (⟨rfl, rfl⟩ | ⟨operand, hmem, h⟩)
    · exact .here
    · exact .any hmem h

lemma occurs_all : Occurs leaf n (.all operands) ↔
      (leaf = .all operands ∧ n = 0) ∨ ∃ operand ∈ operands, Occurs leaf n operand := by
  constructor
  · intro h
    cases h with
    | here => exact .inl ⟨rfl, rfl⟩
    | all hmem h => exact .inr ⟨_, hmem, h⟩
  · rintro (⟨rfl, rfl⟩ | ⟨operand, hmem, h⟩)
    · exact .here
    · exact .all hmem h

variable {operand : CfgPredicate}

lemma occurs_not : Occurs leaf n (.not operand) ↔
      (leaf = .not operand ∧ n = 0) ∨ ∃ m, n = m + 1 ∧ Occurs leaf m operand := by
  constructor
  · intro h
    cases h with
    | here => exact .inl ⟨rfl, rfl⟩
    | not h => exact .inr ⟨_, rfl, h⟩
  · rintro (⟨rfl, rfl⟩ | ⟨m, rfl, h⟩)
    · exact .here
    · exact .not h

end

/-- No option is named `not`. -/
structure NoNot (predicate : CfgPredicate) : Prop where
  ident : ∀ n, ¬Occurs (.ident "not") n predicate
  option : ∀ n value, ¬Occurs (.option "not" value) n predicate

/-- The value of an option: a token without identifiers. -/
inductive Literal : Cst → Prop
  | intro {token : Cst} : token.kind ≠ "identifier" →
    (∀ child ∈ token.namedChildren, Literal child) → Literal token

/-- An identifier is a leaf. -/
def IsName (name : String) (token : Cst) : Prop :=
  isIdentifier name token ∧ token.namedChildren = []

mutual

/-- The named tokens of a predicate.  Brackets, commas and equality signs have no names. -/
def IsTokens : CfgPredicate → List Cst → Prop
  | .ident name, tokens => ∃ token, tokens = [token] ∧ IsName name token
  | .option key _, tokens =>
    ∃ token value, tokens = [token, value] ∧ IsName key token ∧ Literal value
  | .any operands, tokens =>
    ∃ token tree, tokens = [token, tree] ∧ IsName "any" token ∧
      tree.kind = "token_tree" ∧ AreTokens operands tree.namedChildren
  | .all operands, tokens =>
    ∃ token tree, tokens = [token, tree] ∧ IsName "all" token ∧
      tree.kind = "token_tree" ∧ AreTokens operands tree.namedChildren
  | .not operand, tokens =>
    ∃ token tree, tokens = [token, tree] ∧ IsName "not" token ∧
      tree.kind = "token_tree" ∧ IsTokens operand tree.namedChildren

def AreTokens : List CfgPredicate → List Cst → Prop
  | [], tokens => tokens = []
  | operand :: rest, tokens =>
    ∃ front back, tokens = front ++ back ∧ IsTokens operand front ∧ AreTokens rest back

end

/-- The token tree of a predicate, as an attribute has it for its arguments. -/
def IsTokenTree (predicate : CfgPredicate) (tree : Cst) : Prop :=
  tree.kind = "token_tree" ∧ IsTokens predicate tree.namedChildren

/-! ## Reading token trees -/

/-- A test under a number of negations of the given parity. -/
def Enables (positive : Bool) (predicate : CfgPredicate) : Prop :=
  ∃ n, (Even n ↔ positive = true) ∧
    (Occurs (.ident "test") n predicate ∨ ∃ value, Occurs (.option "test" value) n predicate)

lemma childrenEnableTest_filter (positive inTokenTree : Bool) (negated : Bool)
    (children : List Cst) :
    childrenEnableTest positive inTokenTree negated children =
      childrenEnableTest positive inTokenTree negated (children.filter Cst.isNamed) := by
  induction children generalizing negated with
  | nil => rfl
  | cons child rest ih =>
    have hany : (rest.filter Cst.isNamed).any Cst.isNamed = rest.any Cst.isNamed := by
      rw [List.any_filter]
      simp
    by_cases hnamed : child.isNamed
    · rw [filter_cons_of_pos hnamed, childrenEnableTest, childrenEnableTest, hany, ih, ih,
        if_pos hnamed, if_pos hnamed]
    · rw [filter_cons_of_neg hnamed, childrenEnableTest, if_neg hnamed]
      exact ih negated

lemma subtreeEnablesTest_eq (positive : Bool) (tree : Cst) : subtreeEnablesTest positive tree =
      if isIdentifier "test" tree then positive
      else childrenEnableTest positive (tree.kind = "token_tree") false tree.namedChildren := by
  cases tree with
  | node id kind field isNamed span text children =>
    have htest : isIdentifier "test" (.node id kind field isNamed span text children) = true ↔
        kind = "identifier" ∧ text = "test" := by
      rw [isIdentifier, Bool.and_eq_true, decide_eq_true_eq, decide_eq_true_eq]
      rfl
    rw [subtreeEnablesTest, childrenEnableTest_filter]
    simp only [htest]
    rfl

variable {token : Cst} {rest : List Cst}

/-- A token that is no `not` is read by itself. -/
lemma childrenEnableTest_cons {positive : Bool} (inTokenTree : Bool)
    (hnamed : token.isNamed) (hnot : isIdentifier "not" token = false) :
    childrenEnableTest positive inTokenTree false (token :: rest) =
      (subtreeEnablesTest positive token ||
        childrenEnableTest positive inTokenTree false rest) := by
  rw [childrenEnableTest, if_pos hnamed, hnot, Bool.and_false, Bool.false_and]
  rfl

variable {name : String}

lemma isIdentifier_other {other : String} (h : isIdentifier name token)
    (hne : name ≠ other) : isIdentifier other token = false := by
  simp only [isIdentifier, Bool.and_eq_true, decide_eq_true_eq] at h
  simp only [isIdentifier, Bool.and_eq_false_iff, decide_eq_false_iff_not]
  exact .inr (h.2 ▸ hne)

lemma isIdentifier_of_kind (h : token.kind ≠ "identifier") :
    isIdentifier name token = false := by
  simp only [isIdentifier, Bool.and_eq_false_iff, decide_eq_false_iff_not]
  exact .inl h

lemma Literal.not_enables (h : Literal token) (positive : Bool) :
    subtreeEnablesTest positive token = false := by
  induction h with
  | intro hkind hchildren ih =>
    rename_i token
    have hloop : ∀ children : List Cst, (∀ child ∈ children, child ∈ token.namedChildren) →
        childrenEnableTest positive (token.kind = "token_tree") false children = false := by
      intro children
      induction children with
      | nil => exact fun _ => rfl
      | cons child rest ihRest =>
        intro hmem
        have hchild := hmem child mem_cons_self
        have hne : child.kind ≠ "identifier" := by
          cases hchildren child hchild with
          | intro hkind _ => exact hkind
        rw [childrenEnableTest_cons _ (mem_filter.mp hchild).2 (isIdentifier_of_kind hne),
          ih child hchild,
          ihRest fun other hother => hmem other (mem_cons_of_mem child hother)]
        rfl
    rw [subtreeEnablesTest_eq, isIdentifier_of_kind hkind]
    exact hloop token.namedChildren fun child hchild => hchild

variable {tree : Cst}

/-- An identifier is a leaf, or has nothing below it that is read. -/
lemma subtreeEnablesTest_tree (positive : Bool) (h : tree.kind = "token_tree") :
    subtreeEnablesTest positive tree =
      childrenEnableTest positive true false tree.namedChildren := by
  have hkind : tree.kind ≠ "identifier" := by
    rw [h]
    decide
  rw [subtreeEnablesTest_eq, isIdentifier_of_kind hkind, h]
  rfl

/-! ## Polarity -/

section

variable {positive : Bool}

lemma enables_ident :
    Enables positive (.ident name) ↔ positive = true ∧ name = "test" := by
  simp only [Enables, occurs_ident, CfgPredicate.ident.injEq, reduceCtorEq, false_and,
    exists_false, or_false]
  constructor
  · rintro ⟨n, hn, htest, rfl⟩
    exact ⟨hn.mp (by decide), htest.symm⟩
  · rintro ⟨hpositive, rfl⟩
    exact ⟨0, iff_of_true (by decide) hpositive, rfl, rfl⟩

lemma enables_option {key value : String} :
    Enables positive (.option key value) ↔ positive = true ∧ key = "test" := by
  simp only [Enables, occurs_option, CfgPredicate.option.injEq, reduceCtorEq, false_and, false_or]
  constructor
  · rintro ⟨n, hn, _, ⟨htest, -⟩, rfl⟩
    exact ⟨hn.mp (by decide), htest.symm⟩
  · rintro ⟨hpositive, rfl⟩
    exact ⟨0, iff_of_true (by decide) hpositive, value, ⟨rfl, rfl⟩, rfl⟩

variable {operands : List CfgPredicate}

lemma enables_any :
    Enables positive (.any operands) ↔ ∃ operand ∈ operands, Enables positive operand := by
  simp only [Enables, occurs_any, reduceCtorEq, false_and, false_or]
  constructor
  · rintro ⟨n, hn, ⟨operand, hmem, h⟩ | ⟨value, operand, hmem, h⟩⟩
    · exact ⟨operand, hmem, n, hn, .inl h⟩
    · exact ⟨operand, hmem, n, hn, .inr ⟨value, h⟩⟩
  · rintro ⟨operand, hmem, n, hn, h | ⟨value, h⟩⟩
    · exact ⟨n, hn, .inl ⟨operand, hmem, h⟩⟩
    · exact ⟨n, hn, .inr ⟨value, operand, hmem, h⟩⟩

/-- Both connectives are read alike. -/
lemma enables_all :
    Enables positive (.all operands) ↔ ∃ operand ∈ operands, Enables positive operand := by
  rw [← enables_any]
  simp only [Enables, occurs_any, occurs_all, reduceCtorEq, false_and, false_or]

/-- One negation more turns the parity. -/
lemma even_succ_iff {n : ℕ} :
    (Even (n + 1) ↔ positive = true) ↔ (Even n ↔ (!positive) = true) := by
  rw [Nat.even_add_one, Bool.not_eq_true', ← Bool.not_eq_true]
  exact not_iff_comm.trans ⟨fun h => h.symm, fun h => h.symm⟩

lemma enables_not : Enables positive (.not operand) ↔ Enables (!positive) operand := by
  simp only [Enables, occurs_not, reduceCtorEq, false_and, false_or]
  constructor
  · rintro ⟨_, hn, ⟨m, rfl, h⟩ | ⟨value, m, rfl, h⟩⟩
    · exact ⟨m, even_succ_iff.mp hn, .inl h⟩
    · exact ⟨m, even_succ_iff.mp hn, .inr ⟨value, h⟩⟩
  · rintro ⟨m, hn, h | ⟨value, h⟩⟩
    · exact ⟨m + 1, even_succ_iff.mpr hn, .inl ⟨m, rfl, h⟩⟩
    · exact ⟨m + 1, even_succ_iff.mpr hn, .inr ⟨value, m, rfl, h⟩⟩

lemma NoNot.operand {operand predicate : CfgPredicate} (h : NoNot predicate)
    (hbelow : ∀ leaf n, Occurs leaf n operand → ∃ m, Occurs leaf m predicate) : NoNot operand := by
  constructor
  · intro n hoccurs
    obtain ⟨m, hoccurs⟩ := hbelow _ n hoccurs
    exact h.ident m hoccurs
  · intro n value hoccurs
    obtain ⟨m, hoccurs⟩ := hbelow _ n hoccurs
    exact h.option m value hoccurs

end

/-! ## Token trees of predicates -/

lemma named_of_mem_namedChildren (h : token ∈ tree.namedChildren) :
    token.isNamed = true :=
  (mem_filter.mp h).2

lemma subtreeEnablesTest_name {positive : Bool}
    (h : isIdentifier name token) (hne : name ≠ "test") (hleaf : token.namedChildren = []) :
    subtreeEnablesTest positive token = false := by
  rw [subtreeEnablesTest_eq, isIdentifier_other h hne, hleaf]
  rfl

/-- A connective other than the negation is read as its operands. -/
lemma childrenEnableTest_connective {positive : Bool}
    (hident : isIdentifier name token) (hnot : name ≠ "not")
    (htest : name ≠ "test") (hleaf : token.namedChildren = []) (htree : tree.kind = "token_tree")
    (hnamed : ∀ t ∈ [token, tree], t.isNamed = true) :
    childrenEnableTest positive true false ([token, tree] ++ rest) = true ↔
      childrenEnableTest positive true false tree.namedChildren = true ∨
        childrenEnableTest positive true false rest = true := by
  have hkind : tree.kind ≠ "identifier" := by
    rw [htree]
    decide
  rw [cons_append, singleton_append,
    childrenEnableTest_cons _ (hnamed token mem_cons_self) (isIdentifier_other hident hnot),
    childrenEnableTest_cons _ (hnamed tree (mem_cons_of_mem token mem_cons_self))
      (isIdentifier_of_kind hkind), subtreeEnablesTest_name hident htest hleaf, Bool.false_or,
    subtreeEnablesTest_tree positive htree, Bool.or_eq_true]

/-- A negation turns the polarity of the tree behind it. -/
lemma childrenEnableTest_not {positive : Bool}
    (hident : isIdentifier "not" token) (htree : tree.kind = "token_tree")
    (hnamed : ∀ t ∈ [token, tree], t.isNamed = true) :
    childrenEnableTest positive true false ([token, tree] ++ rest) =
      (childrenEnableTest (!positive) true false tree.namedChildren ||
        childrenEnableTest positive true false rest) := by
  have htoken := hnamed token mem_cons_self
  have htree' := hnamed tree (mem_cons_of_mem token mem_cons_self)
  have htail : childrenEnableTest positive true true (tree :: rest) =
      (childrenEnableTest (!positive) true false tree.namedChildren ||
        childrenEnableTest positive true false rest) := by
    rw [childrenEnableTest, if_pos htree', if_pos rfl, subtreeEnablesTest_tree (!positive) htree]
  rw [cons_append, singleton_append, ← htail, childrenEnableTest, if_pos htoken, hident,
    any_cons, htree']
  rfl

mutual

/-- The tokens of a predicate are read by polarity, and those behind them as if they stood alone. -/
lemma childrenEnableTest_tokens :
    ∀ (predicate : CfgPredicate) {positive : Bool} {tokens rest : List Cst}, NoNot predicate →
      IsTokens predicate tokens → (∀ token ∈ tokens, token.isNamed = true) →
      (childrenEnableTest positive true false (tokens ++ rest) = true ↔
        Enables positive predicate ∨ childrenEnableTest positive true false rest = true)
  | .ident name, positive, _, rest, hnot, ⟨token, rfl, ⟨hident, hleaf⟩⟩, hnamed => by
    have hname : name ≠ "not" := fun h => hnot.ident 0 (h ▸ .here)
    rw [singleton_append, childrenEnableTest_cons _ (hnamed token mem_cons_self)
      (isIdentifier_other hident hname), Bool.or_eq_true, enables_ident]
    by_cases htest : name = "test"
    · subst htest
      rw [subtreeEnablesTest_eq, if_pos hident, and_iff_left rfl]
    · rw [subtreeEnablesTest_name hident htest hleaf, iff_false_intro (Bool.false_ne_true)]
      simp [htest]
  | .option key value, positive, _, rest, hnot, ⟨token, literal, rfl, ⟨hident, hleaf⟩, hliteral⟩,
      hnamed => by
    have hname : key ≠ "not" := fun h => hnot.option 0 value (h ▸ .here)
    have hkind : literal.kind ≠ "identifier" := by
      cases hliteral with
      | intro hkind _ => exact hkind
    rw [cons_append, singleton_append,
      childrenEnableTest_cons _ (hnamed token mem_cons_self) (isIdentifier_other hident hname),
      childrenEnableTest_cons _ (hnamed literal (mem_cons_of_mem token mem_cons_self))
        (isIdentifier_of_kind hkind), hliteral.not_enables, Bool.false_or, Bool.or_eq_true,
      enables_option]
    by_cases htest : key = "test"
    · subst htest
      rw [subtreeEnablesTest_eq, if_pos hident, and_iff_left rfl]
    · rw [subtreeEnablesTest_name hident htest hleaf, iff_false_intro (Bool.false_ne_true)]
      simp [htest]
  | .any operands, positive, _, rest, hnot, ⟨token, tree, rfl, ⟨hident, hleaf⟩, htree,
      hoperands⟩, hnamed => by
    have hbelow : ∀ operand ∈ operands, NoNot operand := fun operand hoperand =>
      hnot.operand fun leaf n h => ⟨n, .any hoperand h⟩
    rw [enables_any, ← childrenEnableTest_operands operands hbelow hoperands fun _ h =>
      named_of_mem_namedChildren h]
    exact childrenEnableTest_connective hident (by decide) (by decide) hleaf htree hnamed
  | .all operands, positive, _, rest, hnot, ⟨token, tree, rfl, ⟨hident, hleaf⟩, htree,
      hoperands⟩, hnamed => by
    have hbelow : ∀ operand ∈ operands, NoNot operand := fun operand hoperand =>
      hnot.operand fun leaf n h => ⟨n, .all hoperand h⟩
    rw [enables_all, ← childrenEnableTest_operands operands hbelow hoperands fun _ h =>
      named_of_mem_namedChildren h]
    exact childrenEnableTest_connective hident (by decide) (by decide) hleaf htree hnamed
  | .not operand, positive, _, rest, hnot, ⟨token, tree, rfl, ⟨hident, _⟩, htree, hoperand⟩,
      hnamed => by
    have hbelow : NoNot operand := hnot.operand fun leaf n h => ⟨n + 1, .not h⟩
    have hinside :
        childrenEnableTest (!positive) true false (tree.namedChildren ++ []) = true ↔ _ :=
      childrenEnableTest_tokens operand hbelow hoperand fun _ h => named_of_mem_namedChildren h
    rw [append_nil] at hinside
    rw [childrenEnableTest_not hident htree hnamed, Bool.or_eq_true, hinside, enables_not]
    simp [childrenEnableTest]

lemma childrenEnableTest_operands :
    ∀ (operands : List CfgPredicate) {positive : Bool} {tokens : List Cst},
      (∀ operand ∈ operands, NoNot operand) → AreTokens operands tokens →
      (∀ token ∈ tokens, token.isNamed = true) →
      (childrenEnableTest positive true false tokens = true ↔
        ∃ operand ∈ operands, Enables positive operand)
  | [], positive, tokens, _, htokens, _ => by
    obtain rfl : tokens = [] := htokens
    simp [childrenEnableTest]
  | operand :: rest, positive, _, hnot, ⟨front, back, rfl, hfront, hback⟩, hnamed => by
    rw [childrenEnableTest_tokens operand (hnot operand mem_cons_self) hfront
        fun token h => hnamed token (mem_append_left back h),
      childrenEnableTest_operands rest
        (fun other h => hnot other (mem_cons_of_mem operand h)) hback
        fun token h => hnamed token (mem_append_right front h),
      exists_mem_cons_iff]

end

/-- **The polarity of a predicate.**  A test is found on its token tree exactly if the bare
identifier, or the key of an option, stands under an even number of negations. -/
lemma subtreeEnablesTest_tokenTree {predicate : CfgPredicate}
    (hnot : NoNot predicate) (htree : IsTokenTree predicate tree) :
    subtreeEnablesTest true tree = true ↔ ∃ n, Even n ∧ (Occurs (.ident "test") n predicate ∨
      ∃ value, Occurs (.option "test" value) n predicate) := by
  have htokens : childrenEnableTest true true false (tree.namedChildren ++ []) = true ↔ _ :=
    childrenEnableTest_tokens predicate hnot htree.2 fun _ h => named_of_mem_namedChildren h
  rw [append_nil] at htokens
  rw [subtreeEnablesTest_tree true htree.1, htokens]
  simp [childrenEnableTest, Enables]

/-- **The key of an option counts as a test.**  A predicate is read by the polarity of its bare
identifiers exactly if no option with the key `test` makes up for a missing one. -/
theorem polarity_iff {predicate : CfgPredicate} {tree : Cst} (hnot : NoNot predicate)
    (htree : IsTokenTree predicate tree) :
    (subtreeEnablesTest true tree = true ↔ ∃ n, Even n ∧ Occurs (.ident "test") n predicate) ↔
      ∀ n value, Even n → Occurs (.option "test" value) n predicate →
        ∃ m, Even m ∧ Occurs (.ident "test") m predicate := by
  rw [subtreeEnablesTest_tokenTree hnot htree]
  constructor
  · intro h n value heven hoccurs
    exact h.mp ⟨n, heven, .inr ⟨value, hoccurs⟩⟩
  · intro h
    constructor
    · rintro ⟨n, heven, hoccurs | ⟨value, hoccurs⟩⟩
      · exact ⟨n, heven, hoccurs⟩
      · exact h n value heven hoccurs
    · rintro ⟨n, heven, hoccurs⟩
      exact ⟨n, heven, .inl hoccurs⟩

/-! ## Two predicates -/

/-- A token without anything below it. -/
def leaf (kind text : String) : Cst := .node 0 kind none true default text []

def tokenTree (tokens : List Cst) : Cst :=
  .node 0 "token_tree" none true default "" (bracket "(" :: tokens ++ [bracket ")"])
where bracket (text : String) : Cst := .node 0 text none false default text []

/-- `#[cfg(not(any(test, feature = "x")))]`. -/
theorem polarity_iff_negated :
    (subtreeEnablesTest true (tokenTree [leaf "identifier" "not", tokenTree
          [leaf "identifier" "any", tokenTree [leaf "identifier" "test",
            leaf "identifier" "feature", leaf "string_literal" "x"]]]) = true ↔
        ∃ n, Even n ∧ Occurs (.ident "test") n
          (.not (.any [.ident "test", .option "feature" "x"]))) ↔
      ∀ n value, Even n → Occurs (.option "test" value) n
          (.not (.any [.ident "test", .option "feature" "x"])) →
        ∃ m, Even m ∧ Occurs (.ident "test") m
          (.not (.any [.ident "test", .option "feature" "x"])) := by
  apply polarity_iff
  · constructor
    · simp [occurs_not, occurs_any, occurs_ident, occurs_option]
    · simp [occurs_not, occurs_any, occurs_ident, occurs_option]
  · refine ⟨rfl, _, _, rfl, ⟨by decide, rfl⟩, rfl, _, _, rfl, ⟨by decide, rfl⟩, rfl, ?_⟩
    refine ⟨[_], [_, _], rfl, ⟨_, rfl, by decide, rfl⟩, [_, _], [], rfl, ?_, rfl⟩
    exact ⟨_, _, rfl, ⟨by decide, rfl⟩, .intro (by decide) nofun⟩

/-- **An option named `test`** turns `#[cfg(test = "x")]` into a test, without the bare
identifier. -/
theorem subtreeEnablesTest_option :
    ¬ ∀ (predicate : CfgPredicate) (tree : Cst), NoNot predicate → IsTokenTree predicate tree →
      (subtreeEnablesTest true tree = true ↔
        ∃ n, Even n ∧ Occurs (.ident "test") n predicate) := by
  intro h
  have hoption := (h (.option "test" "x")
    (tokenTree [leaf "identifier" "test", leaf "string_literal" "x"]) ?_ ?_).mp (by decide)
  · obtain ⟨n, -, hoccurs⟩ := hoption
    simp [occurs_option] at hoccurs
  · constructor
    · simp [occurs_option]
    · simp [occurs_option]
  · exact ⟨rfl, _, _, rfl, ⟨by decide, rfl⟩,
      .intro (by decide) nofun⟩

end Reposcout.Metrics.TestCov
