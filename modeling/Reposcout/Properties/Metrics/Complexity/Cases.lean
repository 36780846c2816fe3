import Reposcout.Properties.Metrics.Complexity.Scopes

/-!
# Cases under renaming

What is counted of a construct before and after the identifiers of its labels are renamed.  The
clauses of Python and GDScript are told by their syntax, so nothing changes.  Those of Rust are
told by the first letter of a binding, and those of the other languages by the letters with which
their labels begin.
-/

namespace Reposcout.Metrics.Complexity

open List Option

variable {classes : CharClasses} {fc : FirstClass} {rename : List Char → List Char}

/-! ## Renaming -/

/-- Wildcards, keywords and operators: what no identifier is. -/
def reservedWords : List String :=
  ["_", "True", "False", "None", "and", "or", "xor", "&&", "||", "??", "&&=", "||=", "??="]

def IsName (classes : CharClasses) (name : List Char) : Prop :=
  isIdentifier classes name = true ∧ (∀ c ∈ name, isWhitespace c = false) ∧
    name ∉ reservedWords.map String.toList

/-- A part of a text: an identifier that is renamed, or any other character. -/
inductive Piece where
  | char (c : Char)
  | identifier (name : List Char)

def Piece.text (rename : List Char → List Char) : Piece → List Char
  | char c => [c]
  | identifier name => rename name

/-- The parts are renamed to identifiers. -/
def Renames (classes : CharClasses) (rename : List Char → List Char) (pieces : List Piece) :
    Prop :=
  ∀ name, .identifier name ∈ pieces → IsName classes name ∧ IsName classes (rename name)

def RenamedText (classes : CharClasses) (rename : List Char → List Char)
    (text text' : List Char) : Prop :=
  ∃ pieces : List Piece, Renames classes rename pieces ∧
    text = pieces.flatMap (Piece.text id) ∧ text' = pieces.flatMap (Piece.text rename)

/-- The second tree is the first with some of its identifiers renamed, each in the same way.  What
is a keyword stays one, and nothing becomes one. -/
inductive Renamed (classes : CharClasses) (rename : List Char → List Char) : Cst → Cst → Prop where
  | node {tree tree' : Cst} : tree.kind = tree'.kind → tree.field = tree'.field →
      tree.isNamed = tree'.isNamed →
      RenamedText classes rename (nodeText tree) (nodeText tree') →
      (∀ word ∈ reservedWords, trimmedText tree = word.toList ↔ trimmedText tree' = word.toList) →
      tree.children.length = tree'.children.length →
      (∀ (index : ℕ) (child child' : Cst), tree.children[index]? = some child →
        tree'.children[index]? = some child' → Renamed classes rename child child') →
      Renamed classes rename tree tree'

namespace Renamed

variable {tree tree' : Cst} (h : Renamed classes rename tree tree')

include h

lemma kind : tree.kind = tree'.kind := by
  cases h with
  | node hkind => exact hkind

lemma field : tree.field = tree'.field := by
  cases h with
  | node _ hfield => exact hfield

lemma isNamed : tree.isNamed = tree'.isNamed := by
  cases h with
  | node _ _ hnamed => exact hnamed

lemma text :
    RenamedText classes rename (nodeText tree) (nodeText tree') := by
  cases h with
  | node _ _ _ htext => exact htext

lemma reserved {word : String} (hword : word ∈ reservedWords) :
    trimmedText tree = word.toList ↔ trimmedText tree' = word.toList := by
  cases h with
  | node _ _ _ _ hreserved => exact hreserved word hword

lemma children :
    Forall₂ (Renamed classes rename) tree.children tree'.children := by
  cases h with
  | node _ _ _ _ _ hlength hchildren =>
    rw [forall₂_iff_get]
    refine ⟨hlength, fun index hindex hindex' => ?_⟩
    exact hchildren index _ _ (getElem?_eq_getElem hindex) (getElem?_eq_getElem hindex')

/-- The nodes of the two trees, one for one. -/
lemma nodes : ∀ ancestors ancestors' : List Cst,
    Forall₂ (fun place place' => Renamed classes rename place.tree place'.tree)
      (tree.nodes ancestors) (tree'.nodes ancestors') := by
  induction h with
  | @node tree tree' hkind hfield hnamed htext hreserved hlength hchildren ih =>
    intro ancestors ancestors'
    rw [Cst.nodes_eq, Cst.nodes_eq]
    refine .cons (.node hkind hfield hnamed htext hreserved hlength hchildren) ?_
    apply rel_flatMap (R := fun child child' => ∀ ancestors ancestors' : List Cst,
      Forall₂ (fun place place' => Renamed classes rename place.tree place'.tree)
        (child.nodes ancestors) (child'.nodes ancestors'))
    · rw [forall₂_iff_get]
      refine ⟨hlength, fun index hindex hindex' => ?_⟩
      exact ih index _ _ (getElem?_eq_getElem hindex) (getElem?_eq_getElem hindex')
    · exact fun child child' hchild => hchild _ _

end Renamed

/-! ## Parts of renamed trees -/

variable {α β : Type} {related : α → β → Prop}

/-- What is found first in the one list is found first in the other. -/
lemma forall₂_find? {p : α → Bool} {q : β → Bool} (hpq : ∀ a b, related a b → p a = q b)
    {l : List α} {l' : List β} (h : Forall₂ related l l') :
    Option.Rel related (l.find? p) (l'.find? q) := by
  induction h with
  | nil => exact .none
  | @cons a b _ _ hab _ ih =>
    rw [find?_cons, find?_cons, hpq a b hab]
    cases q b with
    | true => exact .some hab
    | false => exact ih

lemma Renamed.childByFieldName {tree tree' : Cst} (h : Renamed classes rename tree tree')
    (name : String) : Option.Rel (Renamed classes rename) (tree.childByFieldName name)
      (tree'.childByFieldName name) :=
  forall₂_find? (fun _ _ hchild => by rw [hchild.field]) h.children

lemma Renamed.namedChildren {tree tree' : Cst} (h : Renamed classes rename tree tree') :
    Forall₂ (Renamed classes rename) tree.namedChildren tree'.namedChildren :=
  rel_filter (fun _ _ hchild => iff_of_eq (congrArg (· = true) hchild.isNamed)) h.children

lemma rel_isSome {a : Option α} {b : Option β} (h : Option.Rel related a b) :
    a.isSome = b.isSome := by
  cases h <;> rfl

lemma rel_any {a : Option α} {b : Option β} {p : α → Bool} {q : β → Bool}
    (h : Option.Rel related a b) (hpq : ∀ a b, related a b → p a = q b) : a.any p = b.any q := by
  cases h with
  | none => rfl
  | some hab => exact hpq _ _ hab

/-! ## Operators -/

lemma Renamed.booleanOperatorKind {tree tree' : Cst} (h : Renamed classes rename tree tree') :
    booleanOperatorKind fc tree = booleanOperatorKind fc tree' := by
  simp only [Complexity.booleanOperatorKind, h.kind,
    h.reserved (show "&&" ∈ reservedWords by decide),
    h.reserved (show "||" ∈ reservedWords by decide),
    h.reserved (show "and" ∈ reservedWords by decide),
    h.reserved (show "or" ∈ reservedWords by decide),
    h.reserved (show "xor" ∈ reservedWords by decide)]

lemma Renamed.isCyclomaticOperatorToken {tree tree' : Cst}
    (h : Renamed classes rename tree tree') :
    isCyclomaticOperatorToken fc tree = isCyclomaticOperatorToken fc tree' := by
  have hcount : childCount tree = childCount tree' := h.children.length_eq
  simp only [Complexity.isCyclomaticOperatorToken, isBooleanOperatorToken, h.booleanOperatorKind,
    hcount, h.reserved (show "??" ∈ reservedWords by decide)]

lemma Renamed.isShortCircuitAssignment {tree tree' : Cst}
    (h : Renamed classes rename tree tree') :
    isShortCircuitAssignment fc tree = isShortCircuitAssignment fc tree' := by
  have hoperator := rel_any (h.childByFieldName "operator")
    (p := fun operator => trimmedText operator ∈ ["&&=".toList, "||=".toList, "??=".toList])
    (q := fun operator => trimmedText operator ∈ ["&&=".toList, "||=".toList, "??=".toList])
    (fun operator operator' hop => by
      simp only [mem_cons, not_mem_nil, or_false,
        hop.reserved (show "&&=" ∈ reservedWords by decide),
        hop.reserved (show "||=" ∈ reservedWords by decide),
        hop.reserved (show "??=" ∈ reservedWords by decide)])
  simp only [Complexity.isShortCircuitAssignment, h.kind, hoperator]

/-! ## Labels that are read as text -/

/-- The clause begins with `default`, or its label does or begins with `_`, or it is `_`. -/
def BeginsAsDefault (text : List Char) : Prop :=
  "default".toList <+: trimStart text ∨
    (∃ label, trimStart text = "case".toList ++ label ∧
      ("_".toList <+: trimStart label ∨ "default".toList <+: trimStart label)) ∨
    (¬ "case".toList <+: trimStart text ∧ ∃ label body,
      splitOnce "=>".toList (trimStart text) = some (label, body) ∧ trimText label = ['_'])

lemma startsWith_iff {text : List Char} {start : String} :
    startsWith text start = true ↔ start.toList <+: text := isPrefixOf_iff_prefix

lemma isCatchAllText_iff {text : List Char} :
    isCatchAllText text = true ↔ BeginsAsDefault text := by
  simp only [isCatchAllText, BeginsAsDefault]
  generalize trimStart text = text
  by_cases hdefault : startsWith text "default" = true
  · rw [if_pos hdefault]
    exact iff_of_true rfl (.inl (startsWith_iff.mp hdefault))
  · rw [if_neg hdefault]
    have hnot := mt startsWith_iff.mpr hdefault
    cases hcase : stripStart "case" text with
    | some label =>
      have htext := stripStart_eq_some_iff.mp hcase
      have hlabel : ∀ other, text = "case".toList ++ other → other = label := by
        intro other hother
        exact (append_cancel_left (htext.symm.trans hother)).symm
      have hstart : "case".toList <+: text := ⟨label, htext.symm⟩
      simp only [hnot, false_or, hstart, not_true, false_and, or_false, Bool.or_eq_true,
        startsWith_iff]
      constructor
      · exact fun h => ⟨label, htext, h⟩
      · rintro ⟨other, hother, h⟩
        rwa [hlabel other hother] at h
    | none =>
      have hstart := stripStart_eq_none_iff.mp hcase
      have hnone : ∀ label, text ≠ "case".toList ++ label := by
        rintro label rfl
        exact hstart (prefix_append _ _)
      simp only [hnot, false_or, hstart, not_false_eq_true, true_and, hnone, false_and,
        exists_false]
      cases splitOnce "=>".toList text with
      | none => simp
      | some parts =>
        obtain ⟨label, body⟩ := parts
        simp

instance (text : List Char) : Decidable (BeginsAsDefault text) :=
  decidable_of_iff _ isCatchAllText_iff

/-! ## Labels that are identifiers -/

def Piece.blank : Piece → Bool
  | char c => isWhitespace c
  | identifier _ => false

lemma dropWhile_flatMap {p : β → Bool} {blank : α → Bool} {f : α → List β} {l : List α}
    (hblank : ∀ item ∈ l, blank item = true → ∀ c ∈ f item, p c = true)
    (hsolid : ∀ item ∈ l, blank item = false → ∃ c rest, f item = c :: rest ∧ p c = false) :
    (l.flatMap f).dropWhile p = (l.dropWhile blank).flatMap f := by
  induction l with
  | nil => rfl
  | cons item rest ih =>
    obtain ⟨hitem, hrest⟩ := forall_mem_cons.mp hblank
    obtain ⟨hsolidItem, hsolidRest⟩ := forall_mem_cons.mp hsolid
    rw [flatMap_cons, dropWhile_cons]
    cases hb : blank item with
    | true => rw [dropWhile_append_of_pos (hitem hb), ih hrest hsolidRest, if_pos rfl]
    | false =>
      obtain ⟨c, more, hf, hc⟩ := hsolidItem hb
      rw [if_neg Bool.false_ne_true, flatMap_cons, hf, cons_append,
        dropWhile_cons_of_neg (by rw [hc]; decide)]

open Piece

def trimPieces (pieces : List Piece) : List Piece :=
  ((pieces.dropWhile blank).reverse.dropWhile blank).reverse

lemma mem_of_mem_trimPieces {pieces : List Piece} {piece : Piece}
    (h : piece ∈ trimPieces pieces) : piece ∈ pieces := by
  have hreverse := (dropWhile_suffix blank).mem (mem_reverse.mp h)
  exact (dropWhile_suffix blank).mem (mem_reverse.mp hreverse)

section

variable {pieces : List Piece}

/-- A spelling of the identifiers without blanks. -/
def Solid (rename : List Char → List Char) (pieces : List Piece) : Prop :=
  ∀ name, .identifier name ∈ pieces → rename name ≠ [] ∧ ∀ c ∈ rename name, isWhitespace c = false

lemma trimText_flatMap (h : Solid rename pieces) : trimText (pieces.flatMap (text rename)) =
      (trimPieces pieces).flatMap (text rename) := by
  have hblank : ∀ piece : Piece, piece.blank = true →
      ∀ c ∈ piece.text rename, isWhitespace c = true := by
    rintro (c | name) hpiece
    · intro other hother
      rw [mem_singleton.mp hother]
      exact hpiece
    · cases hpiece
  have hsolid : ∀ piece ∈ pieces, piece.blank = false →
      ∃ c rest, piece.text rename = c :: rest ∧ isWhitespace c = false := by
    rintro (c | name) hmem hpiece
    · exact ⟨c, [], rfl, hpiece⟩
    · obtain ⟨hne, hall⟩ := h name hmem
      obtain ⟨c, rest, hname⟩ := exists_cons_of_ne_nil hne
      exact ⟨c, rest, hname, hall c (by rw [hname]; exact mem_cons_self)⟩
  have hsolidEnd : ∀ piece ∈ (pieces.dropWhile blank).reverse, piece.blank = false →
      ∃ c rest, (piece.text rename).reverse = c :: rest ∧ isWhitespace c = false := by
    intro piece hmem hpiece
    have hpieces := (dropWhile_suffix blank).mem (mem_reverse.mp hmem)
    cases piece with
    | char c => exact ⟨c, [], rfl, hpiece⟩
    | identifier name =>
      obtain ⟨hne, hall⟩ := h name hpieces
      obtain ⟨c, rest, hname⟩ := exists_cons_of_ne_nil (mt reverse_eq_nil_iff.mp hne)
      refine ⟨c, rest, hname, hall c ?_⟩
      rw [← mem_reverse, hname]
      exact mem_cons_self
  rw [trimText, trimEndMatches, trimStart,
    dropWhile_flatMap (fun piece _ => hblank piece) hsolid, reverse_flatMap]
  rw [show (reverse ∘ text rename) = fun piece => (piece.text rename).reverse from rfl,
    dropWhile_flatMap (fun piece _ hpiece c hc => hblank piece hpiece c (mem_reverse.mp hc))
      hsolidEnd, trimPieces, flatMap_reverse]
  simp [Function.comp_def]

def isWord (classes : CharClasses) (c : Char) : Bool := c = '_' || classes.alphanumeric c

lemma isIdentifier_cons {c : Char} {rest : List Char} : isIdentifier classes (c :: rest) =
      ((c = '_' || classes.alphabetic c) && rest.all (isWord classes)) := rfl

lemma all_of_isIdentifier {name : List Char} (h : isIdentifier classes name = true) :
    name.all (isWord classes) = true := by
  cases name with
  | nil => rfl
  | cons c rest =>
    rw [isIdentifier_cons, Bool.and_eq_true, Bool.or_eq_true] at h
    obtain ⟨hfirst, hrest⟩ := h
    rw [all_cons, hrest, Bool.and_true, isWord, CharClasses.alphanumeric, Bool.or_eq_true,
      Bool.or_eq_true]
    exact hfirst.imp_right .inl

lemma isIdentifier_append {name rest : List Char} (h : isIdentifier classes name = true) :
    isIdentifier classes (name ++ rest) = rest.all (isWord classes) := by
  cases name with
  | nil => cases h
  | cons c more =>
    rw [isIdentifier_cons, Bool.and_eq_true] at h
    rw [cons_append, isIdentifier_cons, all_append, h.1, h.2]
    rfl

variable (h : Renames classes rename pieces)

include h

/-- The letters are those of identifiers in both spellings, or in none. -/
lemma all_flatMap_text :
    (pieces.flatMap (text id)).all (isWord classes) =
      (pieces.flatMap (text rename)).all (isWord classes) := by
  induction pieces with
  | nil => rfl
  | cons piece rest ih =>
    have hrest := ih fun name hname => h name (mem_cons_of_mem _ hname)
    rw [flatMap_cons, flatMap_cons, all_append, all_append, hrest]
    congr 1
    cases piece with
    | char c => rfl
    | identifier name =>
      obtain ⟨hname, hrename⟩ := h name mem_cons_self
      exact (all_of_isIdentifier hname.1).trans (all_of_isIdentifier hrename.1).symm

lemma isIdentifier_flatMap_text :
    isIdentifier classes (pieces.flatMap (text id)) =
      isIdentifier classes (pieces.flatMap (text rename)) := by
  cases pieces with
  | nil => rfl
  | cons piece rest =>
    have hrest := all_flatMap_text fun name hname => h name (mem_cons_of_mem piece hname)
    cases piece with
    | char c =>
      change (_ && _) = (_ && _)
      exact congrArg _ hrest
    | identifier name =>
      obtain ⟨hname, hrename⟩ := h name mem_cons_self
      exact (isIdentifier_append hname.1).trans (hrest.trans (isIdentifier_append hrename.1).symm)

lemma Renames.solid : Solid rename pieces := by
  intro name hname
  obtain ⟨_, hidentifier, hblanks, _⟩ := h name hname
  refine ⟨?_, hblanks⟩
  intro hnil
  rw [hnil] at hidentifier
  cases hidentifier

lemma Renames.solid_id : Solid id pieces := by
  intro name hname
  obtain ⟨⟨hidentifier, hblanks, _⟩, _⟩ := h name hname
  refine ⟨?_, hblanks⟩
  intro hnil
  rw [show name = [] from hnil] at hidentifier
  cases hidentifier

end

lemma RenamedText.isIdentifier {text text' : List Char}
    (h : RenamedText classes rename text text') :
    isIdentifier classes (trimText text) = isIdentifier classes (trimText text') := by
  obtain ⟨pieces, hnames, rfl, rfl⟩ := h
  rw [trimText_flatMap hnames.solid_id, trimText_flatMap hnames.solid]
  exact isIdentifier_flatMap_text fun name hname => hnames name (mem_of_mem_trimPieces hname)

/-! ## Clauses that are told by their syntax -/

lemma Renamed.isPythonCatchAll {tree tree' : Cst} (h : Renamed classes rename tree tree') :
    isPythonCatchAll classes tree = isPythonCatchAll classes tree' := by
  have hpattern := forall₂_find? (p := fun child => decide (child.kind = "case_pattern"))
    (q := fun child => decide (child.kind = "case_pattern"))
    (fun _ _ hchild => by rw [hchild.kind]) h.namedChildren
  rw [Complexity.isPythonCatchAll, Complexity.isPythonCatchAll,
    rel_isSome (h.childByFieldName "guard")]
  split
  · rfl
  · generalize tree.namedChildren.find? (·.kind = "case_pattern") = found at hpattern
    generalize tree'.namedChildren.find? (·.kind = "case_pattern") = found' at hpattern
    cases hpattern with
    | none => rfl
    | @some pattern pattern' hsame =>
      have hwords : ∀ word ∈ reservedWords, trimText (nodeText pattern) = word.toList ↔
          trimText (nodeText pattern') = word.toList := fun word hword => hsame.reserved hword
      simp only [isPythonCapturePattern, hsame.text.isIdentifier, mem_cons,
        not_mem_nil, or_false, hwords "True" (by decide), hwords "False" (by decide),
        hwords "None" (by decide), show ['_'] = "_".toList from rfl, hwords "_" (by decide)]

lemma Renamed.isGdCatchAll {tree tree' : Cst} (h : Renamed classes rename tree tree') :
    isGdCatchAll tree = isGdCatchAll tree' := by
  have hpatterns : Forall₂ (Renamed classes rename)
      (tree.namedChildren.filter (·.kind ≠ "body"))
      (tree'.namedChildren.filter (·.kind ≠ "body")) :=
    rel_filter (fun child child' hchild => by simp only [hchild.kind]) h.namedChildren
  rw [Complexity.isGdCatchAll, Complexity.isGdCatchAll]
  generalize tree.namedChildren.filter (·.kind ≠ "body") = patterns at hpatterns
  generalize tree'.namedChildren.filter (·.kind ≠ "body") = patterns' at hpatterns
  rcases hpatterns with _ | ⟨hpattern, _ | ⟨_, _⟩⟩
  · rfl
  · simp only [hpattern.kind, show ['_'] = "_".toList from rfl,
      hpattern.reserved (show "_" ∈ reservedWords by decide)]
  · rfl

/-! ## Totals -/

/-- The clause is read as a default: by its binding in Rust, by its syntax in Python and GDScript,
and by its first letters elsewhere. -/
def readsAsDefault (classes : CharClasses) (fc : FirstClass) (clause : Cst) : Bool :=
  match fc with
  | .rust => isRustCatchAll classes clause
  | .python => isPythonCatchAll classes clause
  | .gdScript => isGdCatchAll clause
  | _ => BeginsAsDefault (nodeText clause)

lemma isCatchAllCase_eq {clause : Cst} (h : clause.kind ∈ (config fc).caseKinds) :
    isCatchAllCase classes fc clause = readsAsDefault classes fc clause := by
  have htext : isCatchAllText (nodeText clause) = decide (BeginsAsDefault (nodeText clause)) := by
    rw [Bool.eq_iff_iff, isCatchAllText_iff, decide_eq_true_iff]
  cases fc with
  | rust =>
    simp only [isCatchAllCase, mem_singleton.mp h]
    rfl
  | python =>
    simp only [isCatchAllCase, mem_singleton.mp h]
    rfl
  | gdScript =>
    simp only [isCatchAllCase, mem_singleton.mp h]
    rfl
  | javaScript => exact htext
  | typeScript => exact htext
  | tsx => exact htext
  | go => exact htext
  | php => exact htext
  | csharp => exact htext
  | gdShader => exact htext
  | godotResource => exact htext

/-- A clause that is read as a default. -/
def isDefault (classes : CharClasses) (fc : FirstClass) (tree : Cst) : Bool :=
  tree.kind ∈ (config fc).caseKinds && readsAsDefault classes fc tree

lemma decisionIncrement_add (tree : Cst) :
    decisionIncrement classes fc (config fc) tree + (isDefault classes fc tree).toNat =
      (decide (tree.kind ∈ (config fc).decisionKinds)).toNat +
        (decide (tree.kind ∈ (config fc).caseKinds)).toNat +
        (isCyclomaticOperatorToken fc tree).toNat + (isShortCircuitAssignment fc tree).toNat := by
  have hcatch : (tree.kind ∈ (config fc).caseKinds ∧ (!isCatchAllCase classes fc tree) = true) ↔
      tree.kind ∈ (config fc).caseKinds ∧ readsAsDefault classes fc tree = false := by
    refine and_congr_right fun hkind => ?_
    rw [isCatchAllCase_eq hkind, Bool.not_eq_true']
  simp only [decisionIncrement, hcatch, isDefault]
  by_cases hdecision : tree.kind ∈ (config fc).decisionKinds <;>
    by_cases hcase : tree.kind ∈ (config fc).caseKinds <;>
    cases readsAsDefault classes fc tree <;>
    cases isCyclomaticOperatorToken fc tree <;>
    cases isShortCircuitAssignment fc tree <;>
    simp [hdecision, hcase, satAdd32, u32Max]

lemma Renamed.decisionIncrement_add {tree tree' : Cst}
    (h : Renamed classes rename tree tree') :
    decisionIncrement classes fc (config fc) tree + (isDefault classes fc tree).toNat =
      decisionIncrement classes fc (config fc) tree' + (isDefault classes fc tree').toNat := by
  rw [Complexity.decisionIncrement_add, Complexity.decisionIncrement_add, h.kind,
    h.isCyclomaticOperatorToken, h.isShortCircuitAssignment]

def totalDecisions (classes : CharClasses) (fc : FirstClass) (tree : Cst) : ℕ :=
  ((tree.nodes []).map (decisionsAt classes fc (config fc))).sum

/-- The number of clauses that are read as defaults. -/
def totalDefaults (classes : CharClasses) (fc : FirstClass) (tree : Cst) : ℕ :=
  ((tree.nodes []).map fun place => (isDefault classes fc place.tree).toNat).sum

lemma Renamed.totals {tree tree' : Cst} (h : Renamed classes rename tree tree') :
    totalDecisions classes fc tree + totalDefaults classes fc tree =
      totalDecisions classes fc tree' + totalDefaults classes fc tree' := by
  rw [totalDecisions, totalDecisions, totalDefaults, totalDefaults]
  have hnodes := h.nodes [] []
  generalize tree.nodes [] = places at hnodes ⊢
  generalize tree'.nodes [] = places' at hnodes ⊢
  induction hnodes with
  | nil => rfl
  | cons hplace _ ih =>
    have hfirst := @Renamed.decisionIncrement_add classes fc rename _ _ hplace
    simp only [map_cons, sum_cons, decisionsAt] at ih ⊢
    omega

lemma Renamed.totalDefaults {tree tree' : Cst} (h : Renamed classes rename tree tree')
    (hparsed : fc = .python ∨ fc = .gdScript) :
    totalDefaults classes fc tree = totalDefaults classes fc tree' := by
  rw [Complexity.totalDefaults, Complexity.totalDefaults]
  have hnodes := h.nodes [] []
  generalize tree.nodes [] = places at hnodes ⊢
  generalize tree'.nodes [] = places' at hnodes ⊢
  induction hnodes with
  | nil => rfl
  | cons hplace _ ih =>
    rw [map_cons, map_cons, sum_cons, sum_cons, ih, isDefault, isDefault, hplace.kind]
    rcases hparsed with rfl | rfl
    · rw [readsAsDefault, readsAsDefault, hplace.isPythonCatchAll]
    · rw [readsAsDefault, readsAsDefault, hplace.isGdCatchAll]

/-- **When renaming changes no count.**  A renaming of identifiers leaves the decisions of a
construct as they are if as many clauses are read as defaults after it as before, and then only; in
Python and GDScript they always are. -/
theorem decisions_renamed_iff {tree tree' : Cst} (h : Renamed classes rename tree tree') :
    totalDecisions classes fc tree = totalDecisions classes fc tree' ↔
      fc = .python ∨ fc = .gdScript ∨
        totalDefaults classes fc tree = totalDefaults classes fc tree' := by
  have htotals := @Renamed.totals classes fc rename _ _ h
  constructor
  · intro hsame
    right; right
    omega
  · rintro (hpython | hgd | hdefaults)
    · have hdefaults := @Renamed.totalDefaults classes fc rename _ _ h (.inl hpython)
      omega
    · have hdefaults := @Renamed.totalDefaults classes fc rename _ _ h (.inr hgd)
      omega
    · omega

/-- `switch(v){case x:}` for the label `x`. -/
def switchOn (label : String) : Cst :=
  let clause := "case " ++ label ++ ":"
  let body := "\x7b" ++ clause ++ "\x7d"
  .node 0 "switch_statement" none true default ("switch(v)" ++ body)
    [.node 1 "switch" none false default "switch" [],
      .node 2 "parenthesized_expression" (some "value") true default "(v)"
        [.node 3 "(" none false default "(" [], .node 4 "identifier" none true default "v" [],
          .node 5 ")" none false default ")" []],
      .node 6 "switch_body" (some "body") true default body
        [.node 7 "\x7b" none false default "\x7b" [],
          .node 8 "switch_case" none true default clause
            [.node 9 "case" none false default "case" [],
              .node 10 "identifier" (some "value") true default label [],
              .node 11 ":" none false default ":" []],
          .node 12 "\x7d" none false default "\x7d" []]]

/-- A renaming of `x` alone. -/
def renameX (name : String) (identifier : List Char) : List Char :=
  if identifier = ['x'] then name.toList else identifier

lemma Renamed.same (tree : Cst) : Renamed classes rename tree tree := by
  induction tree using Cst.induction_children with
  | step tree ih =>
    refine .node rfl rfl rfl ⟨(nodeText tree).map .char, ?_, ?_, ?_⟩ (fun _ _ => .rfl) rfl ?_
    · intro name hname
      obtain ⟨c, _, hc⟩ := mem_map.mp hname
      cases hc
    · rw [flatMap_map]
      exact (flatMap_singleton' _).symm
    · rw [flatMap_map]
      exact (flatMap_singleton' _).symm
    · intro index child child' hchild hchild'
      cases hchild.symm.trans hchild'
      exact ih child (mem_of_getElem? hchild)

lemma Renamed.around {tree tree' child child' : Cst} (before after : List Char) (index : ℕ)
    {name : List Char} (hname : IsName classes name) (hrename : IsName classes (rename name))
    (hkind : tree.kind = tree'.kind) (hfield : tree.field = tree'.field)
    (hnamed : tree.isNamed = tree'.isNamed) (htext : nodeText tree = before ++ name ++ after)
    (htext' : nodeText tree' = before ++ rename name ++ after)
    (hreserved : ∀ word ∈ reservedWords,
      trimmedText tree = word.toList ↔ trimmedText tree' = word.toList)
    (hchild : tree.children[index]? = some child)
    (hchildren : tree'.children = tree.children.set index child')
    (h : Renamed classes rename child child') : Renamed classes rename tree tree' := by
  have hchars : ∀ (rename : List Char → List Char) (text : List Char),
      (text.map Piece.char).flatMap (Piece.text rename) = text := by
    intro rename text
    rw [flatMap_map]
    exact flatMap_singleton' _
  refine .node hkind hfield hnamed
    ⟨before.map .char ++ [.identifier name] ++ after.map .char, ?_, ?_, ?_⟩ hreserved
    (by rw [hchildren, length_set]) ?_
  · intro other hother
    simp only [mem_append, List.mem_map, reduceCtorEq, and_false, exists_false, false_or,
      or_false, mem_singleton, identifier.injEq] at hother
    rw [hother]
    exact ⟨hname, hrename⟩
  · rw [flatMap_append, flatMap_append, hchars, hchars, htext, flatMap_singleton]
    rfl
  · rw [flatMap_append, flatMap_append, hchars, hchars, htext', flatMap_singleton]
    rfl
  · intro other sibling sibling' hsibling hsibling'
    rw [hchildren, getElem?_set] at hsibling'
    by_cases hother : index = other
    · subst hother
      cases hchild.symm.trans hsibling
      rw [if_pos rfl, if_pos (List.getElem?_eq_some_iff.mp hchild).1] at hsibling'
      rwa [← some.inj hsibling']
    · rw [if_neg hother, hsibling] at hsibling'
      rw [← some.inj hsibling']
      exact .same sibling

instance (name : List Char) : Decidable (IsName classes name) :=
  decidable_of_iff (isIdentifier classes name = true ∧
      (name.all fun c => !isWhitespace c) = true ∧
      (reservedWords.map String.toList).contains name = false)
    (by simp [IsName])

def NoneReserved (texts : List String) : Prop :=
  ∀ text ∈ texts, ∀ word ∈ reservedWords, trimText text.toList ≠ word.toList

instance (texts : List String) : Decidable (NoneReserved texts) :=
  inferInstanceAs (Decidable (∀ text ∈ texts, ∀ word ∈ reservedWords, _ ≠ _))

lemma reserved_of_noneReserved {tree tree' : Cst} {texts : List String}
    (h : NoneReserved texts) (htree : tree.text ∈ texts) (htree' : tree'.text ∈ texts) :
    ∀ word ∈ reservedWords, trimmedText tree = word.toList ↔ trimmedText tree' = word.toList :=
  fun word hword => iff_of_false (h _ htree word hword) (h _ htree' word hword)

def switchTexts (label : String) : List String :=
  let clause := "case " ++ label ++ ":"
  let body := "\x7b" ++ clause ++ "\x7d"
  [label, clause, body, "switch(v)" ++ body]

lemma renamed_switchOn {name : String} (hx : IsName .ascii "x".toList)
    (hname : IsName .ascii name.toList)
    (h : NoneReserved (switchTexts "x" ++ switchTexts name)) :
    Renamed .ascii (renameX name) (switchOn "x") (switchOn name) := by
  have hrename : renameX name "x".toList = name.toList := if_pos rfl
  have hrenamed : IsName .ascii (renameX name "x".toList) := by rwa [hrename]
  have hlabel : Renamed .ascii (renameX name)
      (.node 10 "identifier" (some "value") true default "x" [])
      (.node 10 "identifier" (some "value") true default name []) := by
    refine .node rfl rfl rfl ⟨[.identifier "x".toList], ?_, rfl, ?_⟩
      (reserved_of_noneReserved h (by simp [switchTexts, Cst.text])
        (by simp [switchTexts, Cst.text]))
      rfl (fun _ _ _ hchild => nomatch hchild)
    · intro other hother
      rw [identifier.inj (mem_singleton.mp hother)]
      exact ⟨hx, hrenamed⟩
    · rw [flatMap_singleton, text, hrename]
      rfl
  have hclause : Renamed .ascii (renameX name)
      (.node 8 "switch_case" none true default ("case " ++ "x" ++ ":")
        [.node 9 "case" none false default "case" [],
          .node 10 "identifier" (some "value") true default "x" [],
          .node 11 ":" none false default ":" []])
      (.node 8 "switch_case" none true default ("case " ++ name ++ ":")
        [.node 9 "case" none false default "case" [],
          .node 10 "identifier" (some "value") true default name [],
          .node 11 ":" none false default ":" []]) := by
    refine .around "case ".toList ":".toList 1 hx hrenamed rfl rfl rfl rfl ?_
      (reserved_of_noneReserved h (by simp [switchTexts, Cst.text])
        (by simp [switchTexts, Cst.text])) rfl rfl hlabel
    simp [nodeText, Cst.text, renameX]
  refine .around "switch(v)\x7bcase ".toList ":\x7d".toList 2 hx hrenamed rfl rfl rfl rfl ?_
    (reserved_of_noneReserved h (by simp [switchTexts, switchOn, Cst.text])
      (by simp [switchTexts, switchOn, Cst.text])) rfl rfl ?_
  · simp [nodeText, switchOn, Cst.text, renameX]
  · refine .around "\x7bcase ".toList ":\x7d".toList 1 hx hrenamed rfl rfl rfl rfl ?_
      (reserved_of_noneReserved h (by simp [switchTexts, Cst.text])
        (by simp [switchTexts, Cst.text])) rfl rfl hclause
    simp [nodeText, Cst.text, renameX]

/-- `case x:` is a decision, `case y:` too. -/
theorem decisions_switchOn_renamed : totalDecisions .ascii .javaScript (switchOn "x") =
    totalDecisions .ascii .javaScript (switchOn "y") :=
  (decisions_renamed_iff (renamed_switchOn (by decide +kernel) (by decide +kernel)
    (by decide +kernel))).mpr (.inr (.inr (by decide +kernel)))

/-- `case x:` is a decision, `case _x:` is none. -/
theorem not_decisions_renamed : ¬ ∀ (classes : CharClasses) (fc : FirstClass)
    (rename : List Char → List Char) (tree tree' : Cst), Renamed classes rename tree tree' →
      totalDecisions classes fc tree = totalDecisions classes fc tree' := by
  intro h
  have hrenamed : Renamed .ascii (renameX "_x") (switchOn "x") (switchOn "_x") :=
    renamed_switchOn (by decide +kernel) (by decide +kernel) (by decide +kernel)
  exact absurd (h .ascii .javaScript (renameX "_x") _ _ hrenamed) (by decide +kernel)

end Reposcout.Metrics.Complexity
