import Reposcout.Properties.Graph.RustUses

/-!
# Path attributes of modules

The `path` attribute of a `mod` item is looked for among the attributes that stand right before it,
up to the first comment, and the first whose text begins like it decides.  Its value is the quoted
text behind its first sign.
-/

namespace Reposcout.Graph

open List Option

/-! ## What stands before an item -/

/-- The text between the quotes of a string literal: no quote in it is without a backslash. -/
inductive IsLiteral : List Char → Prop where
  | nil : IsLiteral []
  | plain {c : Char} {rest : List Char} (hquote : c ≠ '"') (hslash : c ≠ '\\')
      (h : IsLiteral rest) : IsLiteral (c :: rest)
  | escaped (c : Char) {rest : List Char} (h : IsLiteral rest) : IsLiteral ('\\' :: c :: rest)

/-- What stands behind the name of an attribute that gives a path. -/
def pathBody (before behind close : RustGap) (p : List Char) : List Char :=
  before.text.toList ++ '=' :: (behind.text.toList ++ '"' :: (p ++ '"' :: close.text.toList))

def isAttributeNameChar (c : Char) : Bool :=
  c.isAlphanum || c ∈ ['_', ':', '#'] || 128 ≤ c.toNat

/-- The rest of an attribute behind its name does not give a path. -/
def GivesNoPath (name body : List Char) : Prop :=
  name = "path".toList → ∀ before behind close p, IsLiteral p →
    body ≠ pathBody before behind close p

inductive OuterAttribute where
  /-- `#[path = "p"]`. -/
  | path (hash bracket before behind close : RustGap) (p : List Char) (h : IsLiteral p)
  /-- Any other attribute. -/
  | other (hash bracket : RustGap) (name body : List Char)
      (hname : ∀ c ∈ name, isAttributeNameChar c)
      (hbody : ∀ c, body.head? = some c → ¬ isAttributeNameChar c) (h : GivesNoPath name body)

namespace OuterAttribute

/-- An attribute with a name and what stands behind it. -/
def enclose (hash bracket : RustGap) (inner : List Char) : List Char :=
  '#' :: (hash.text.toList ++ '[' :: (bracket.text.toList ++ inner ++ [']']))

def chars : OuterAttribute → List Char
  | path hash bracket before behind close p _ =>
    enclose hash bracket ("path".toList ++ pathBody before behind close p)
  | other hash bracket name body _ _ _ => enclose hash bracket (name ++ body)

/-- The attribute is `#[path = "p"]`. -/
def Names (p : List Char) : OuterAttribute → Prop
  | path _ _ _ _ _ q _ => q = p
  | other .. => False

end OuterAttribute

/-- What may stand before an item: attributes, and comments with the doc comments among them. -/
inductive PreambleItem where
  | comment
  | attr (attr : OuterAttribute)

/-- The node is the syntax tree of such an item. -/
def IsPreamble (node : Cst) : PreambleItem → Prop
  | .comment => IsComment node
  | .attr attr => node.kind = "attribute_item" ∧ node.text = String.ofList attr.chars

def EndsPreamble (node : Cst) : Prop := node.kind ≠ "attribute_item" ∧ ¬ IsComment node

/-- One of the items is the attribute `#[path = "p"]`. -/
def HasPath (items : List PreambleItem) (p : List Char) : Prop :=
  ∃ attr, .attr attr ∈ items ∧ attr.Names p

/-- The module import that is extracted from an item carries a path. -/
def CarriesPath (node : Node) (previous : List Cst) (p : List Char) : Prop :=
  ∃ name inlineModules,
    .module name (some (String.ofList p)) inlineModules ∈ extractRustNode node previous

/-! ## Values -/

def QuotedBehindSign (text value : List Char) : Prop :=
  ∃ before blank quote behind, '=' ∉ before ∧ quote ∈ ['\'', '"', '\x60'] ∧
    (∀ c ∈ blank, isWhitespace c) ∧ (∀ c ∈ behind, isWhitespace c) ∧
    text = before ++ '=' :: (blank ++ quote :: (value ++ quote :: (behind ++ [']'])))

lemma stripStaticQuotes_eq_some_iff {text value : List Char} :
    stripStaticQuotes text = some value ↔
      ∃ quote ∈ ['\'', '"', '\x60'], text = quote :: (value ++ [quote]) := by
  match text with
  | [] =>
    refine iff_of_false (Option.some_ne_none _).symm fun ⟨quote, _, h⟩ => ?_
    exact cons_ne_nil quote _ h.symm
  | [c] =>
    refine iff_of_false (Option.some_ne_none _).symm fun ⟨quote, _, h⟩ => ?_
    exact append_ne_nil_of_right_ne_nil value (cons_ne_nil quote [])
      (cons.inj h).2.symm
  | c :: d :: rest =>
    rw [stripStaticQuotes]
    constructor
    · intro h
      split at h
      next hquote =>
        cases h
        refine ⟨c, hquote.1, ?_⟩
        rw [dropLast_append_getLast? c hquote.2]
      · cases h.symm
    · rintro ⟨quote, hquote, heq⟩
      obtain ⟨rfl, hrest⟩ := cons.inj heq
      rw [hrest, if_pos ⟨hquote, getLast?_concat⟩, dropLast_concat]
    · exact cons_ne_nil d rest

lemma not_isWhitespace_quote {quote : Char} (h : quote ∈ ['\'', '"', '\x60']) :
    ¬ isWhitespace quote := by
  simp only [mem_cons, not_mem_nil, or_false] at h
  rcases h with rfl | rfl | rfl <;> decide

lemma attributeValue_iff {text value : List Char} (hlast : text.getLast? = some ']') :
    (attributeValue text).bind stripStaticQuotes = some value ↔ QuotedBehindSign text value := by
  constructor
  · intro h
    obtain ⟨inner, hinner, hstrip⟩ := bind_eq_some_iff.mp h
    obtain ⟨⟨before, after⟩, hsplit, hvalue⟩ := bind_eq_some_iff.mp hinner
    obtain ⟨quote, hquote, rfl⟩ := stripStaticQuotes_eq_some_iff.mp hstrip
    have hvalue : (if (trimText after).getLast? = some ']' then
        some (trimText (trimText after).dropLast) else none) =
          some (quote :: (value ++ [quote])) := hvalue
    split at hvalue
    next hbracket =>
      have htext := eq_of_splitOnce hsplit
      obtain ⟨front, back, hfront, hback, hafter⟩ := exists_eq_trimText after
      obtain ⟨front', back', hfront', hback', hinside⟩ :=
        exists_eq_trimText (trimText after).dropLast
      -- Nothing is trimmed behind the bracket, with which the text ends.
      have hnil : back = [] := by
        rcases eq_nil_or_concat back with rfl | ⟨most, c, rfl⟩
        · rfl
        · rw [concat_eq_append] at hafter hback
          rw [htext, hafter, ← append_assoc, ← append_assoc, ← append_assoc,
            getLast?_concat] at hlast
          cases hlast
          exact absurd (hback ']' (mem_append_right most mem_cons_self)) (by decide)
      refine ⟨before, front ++ front', quote, back', not_mem_of_splitOnce hsplit, hquote,
        fun c hc => (mem_append.mp hc).elim (hfront c) (hfront' c), hback', ?_⟩
      have htrimmed : trimText after =
          front' ++ (quote :: (value ++ [quote]) ++ back') ++ [']'] := by
        rw [← some.inj hvalue, ← hinside, dropLast_append_getLast? _ hbracket]
      rw [htext, hafter, hnil, htrimmed]
      simp
    · cases hvalue.symm
  · rintro ⟨before, blank, quote, behind, hsign, hquote, hblank, hbehind, rfl⟩
    have hnot := not_isWhitespace_quote hquote
    rw [bind_eq_some_iff]
    refine ⟨quote :: (value ++ [quote]), ?_, stripStaticQuotes_eq_some_iff.mpr ⟨quote, hquote, rfl⟩⟩
    have hfirst {rest : List Char} (c : Char) (hc : (quote :: rest).head? = some c) :
        ¬ isWhitespace c := some.inj hc ▸ hnot
    have hlast {front : List Char} {last : Char} (h : ¬ isWhitespace last) (c : Char)
        (hc : (front ++ [last]).getLast? = some c) : ¬ isWhitespace c := by
      rw [getLast?_concat] at hc
      exact some.inj hc ▸ h
    have houter : trimText (blank ++ quote :: (value ++ quote :: (behind ++ [']']))) =
        (quote :: (value ++ quote :: behind)) ++ [']'] := by
      have hend : blank ++ quote :: (value ++ quote :: (behind ++ [']'])) =
          blank ++ ((quote :: (value ++ quote :: behind) ++ [']']) ++ []) := by
        simp
      rw [hend]
      exact trimText_surround hblank (nofun) hfirst
        (hlast (by decide))
    have hinner : trimText (quote :: (value ++ quote :: behind)) = quote :: (value ++ [quote]) := by
      have hend : quote :: (value ++ quote :: behind) =
          [] ++ ((quote :: value ++ [quote]) ++ behind) := by
        simp
      rw [hend]
      exact trimText_surround (nofun) hbehind hfirst (hlast hnot)
    rw [attributeValue, splitOnce_singleton hsign]
    show (if (trimText (blank ++ _)).getLast? = some ']' then
      some (trimText (trimText (blank ++ _)).dropLast) else none) = _
    rw [houter, if_pos getLast?_concat, dropLast_concat, hinner]

/-! ## The attribute that decides -/

/-- The attribute without a comment behind it that begins with `#[path`, the nearest first. -/
def nearest : List PreambleItem → Option OuterAttribute
  | [] => none
  | .comment :: _ => none
  | .attr attr :: rest =>
    if "#[path".toList.isPrefixOf attr.chars then some attr else nearest rest

lemma OuterAttribute.exists_chars (attr : OuterAttribute) :
    ∃ inner, attr.chars = '#' :: (inner ++ [']']) := by
  have henclose (hash bracket : RustGap) (inner : List Char) :
      ∃ most, enclose hash bracket inner = '#' :: (most ++ [']']) := by
    refine ⟨hash.text.toList ++ '[' :: (bracket.text.toList ++ inner), ?_⟩
    rw [enclose]
    simp
  cases attr with
  | path | other => exact henclose _ _ _

lemma OuterAttribute.trimText_chars (attr : OuterAttribute) :
    trimText attr.chars = attr.chars := by
  obtain ⟨inner, hchars⟩ := attr.exists_chars
  have h := @trimText_surround [] attr.chars [] (nofun)
    (nofun) ?_ ?_
  · rwa [nil_append, append_nil] at h
  · rw [hchars]
    intro c hc
    cases hc
    decide
  · rw [hchars, ← cons_append]
    intro c hc
    rw [getLast?_concat] at hc
    cases hc
    decide

variable {items : List PreambleItem}

/-- What the code finds is the value of the attribute that decides. -/
lemma rustPathAttribute_eq {nodes rest : List Cst} (h : Forall₂ IsPreamble nodes items)
    (hrest : ∀ node, rest.head? = some node → EndsPreamble node) :
    rustPathAttribute (nodes ++ rest) = (nearest items).bind fun attr =>
      ((attributeValue attr.chars).bind stripStaticQuotes).map String.ofList := by
  induction h with
  | nil =>
    cases rest with
    | nil => rfl
    | cons node rest => exact if_pos (hrest node rfl).1
  | @cons node item nodes items hnode _ ih =>
    rw [cons_append, rustPathAttribute]
    cases item with
    | comment =>
      refine if_pos ?_
      rcases hnode with hkind | hkind <;> rw [hkind] <;> decide
    | attr attr =>
      rw [if_neg (not_not.mpr hnode.1), hnode.2, String.toList_ofList, attr.trimText_chars, nearest]
      split
      next hstart => exact if_pos hstart
      next hstart => exact (if_neg hstart).trans ih

/-- The path that the code finds, as the quoted text of the attribute that decides. -/
lemma carriesPath_iff {node : Node} {name : Cst} {nodes rest : List Cst}
    (hkind : node.kind = "mod_item")
    (hbody : node.childByFieldName "body" = none)
    (hname : node.tree.childByFieldName "name" = some name)
    (hitems : Forall₂ IsPreamble nodes items)
    (hrest : ∀ sibling, rest.head? = some sibling → EndsPreamble sibling) (p : List Char) :
    CarriesPath node (nodes ++ rest) p ↔
      ∃ attr, nearest items = some attr ∧ QuotedBehindSign attr.chars p := by
  have hvalue (attr : OuterAttribute) : attr.chars.getLast? = some ']' := by
    obtain ⟨inner, hchars⟩ := attr.exists_chars
    rw [hchars, ← cons_append, getLast?_concat]
  have hextract : extractRustNode node (nodes ++ rest) =
      [.module name.text (rustPathAttribute (nodes ++ rest))
        (enclosingInlineRustModules node)] := by
    rw [extractRustNode, if_pos ⟨hkind, by rw [hbody]; rfl⟩, hname]
  rw [CarriesPath, hextract, rustPathAttribute_eq hitems hrest]
  simp only [mem_singleton, RustImport.module.injEq]
  constructor
  · rintro ⟨_, _, rfl, hpath, rfl⟩
    obtain ⟨attr, hnearest, hfound⟩ := bind_eq_some_iff.mp hpath.symm
    obtain ⟨value, hstrip, htext⟩ := map_eq_some_iff.mp hfound
    obtain rfl := String.ofList_inj.mp htext
    exact ⟨attr, hnearest, (attributeValue_iff (hvalue attr)).mp hstrip⟩
  · rintro ⟨attr, hnearest, hquoted⟩
    refine ⟨_, _, rfl, ?_, rfl⟩
    rw [hnearest, bind_some, (attributeValue_iff (hvalue attr)).mpr hquoted, map_some]

/-! ## Path attributes -/

lemma mem_of_nearest {attr : OuterAttribute} (h : nearest items = some attr) :
    .attr attr ∈ items ∧ "#[path".toList <+: attr.chars := by
  induction items with
  | nil => exact absurd h.symm (some_ne_none attr)
  | cons item items ih =>
    cases item with
    | comment => exact absurd h.symm (some_ne_none attr)
    | attr first =>
      rw [nearest] at h
      split at h
      next hstart =>
        cases h
        exact ⟨mem_cons_self, isPrefixOf_iff_prefix.mp hstart⟩
      next =>
        obtain ⟨hmem, hstart⟩ := ih h
        exact ⟨mem_cons_of_mem _ hmem, hstart⟩

variable {p : List Char}

lemma quotedBehindSign_unique {attr : OuterAttribute} {q : List Char}
    (hp : QuotedBehindSign attr.chars p) (hq : QuotedBehindSign attr.chars q) : p = q := by
  obtain ⟨inner, hchars⟩ := attr.exists_chars
  have hlast : attr.chars.getLast? = some ']' := by
    rw [hchars, ← cons_append, getLast?_concat]
  exact some.inj
    (((attributeValue_iff hlast).mpr hp).symm.trans ((attributeValue_iff hlast).mpr hq))

/-- A gap does not begin with a character of another kind. -/
lemma RustGap.eq_nil_of_prefix {gap : RustGap} {c : Char} {front rest : List Char}
    (hc : ¬ isGapChar c) (h : c :: front <+: gap.text.toList ++ rest) : gap.text.toList = [] := by
  cases hgap : gap.text.toList with
  | nil => rfl
  | cons d more =>
    rw [hgap, cons_append, cons_prefix_cons] at h
    obtain ⟨rfl, -⟩ := h
    exact absurd (gap.gap c (by rw [hgap]; rfl)) hc

open OuterAttribute

/-- An attribute that begins with `#[path` has no gaps there. -/
lemma chars_of_start {hash bracket : RustGap} {body : List Char}
    (h : "#[path".toList <+: enclose hash bracket ("path".toList ++ body)) :
    enclose hash bracket ("path".toList ++ body) =
      "#[path".toList ++ (body ++ [']']) := by
  have hhash : hash.text.toList = [] := by
    have h' := (cons_prefix_cons.mp h).2
    exact RustGap.eq_nil_of_prefix (by decide) h'
  have hbracket : bracket.text.toList = [] := by
    have h' := (cons_prefix_cons.mp h).2
    rw [hhash, nil_append] at h'
    have h'' := (cons_prefix_cons.mp h').2
    rw [append_assoc] at h''
    exact RustGap.eq_nil_of_prefix (by decide) h''
  rw [enclose, hhash, hbracket]
  rfl

/-- The gaps around the sign and the literal that do not keep a path from being found. -/
def Compact (before behind close : RustGap) : Prop :=
  '=' ∉ before.text.toList ∧ (∀ c ∈ behind.text.toList, isWhitespace c) ∧
    ∀ c ∈ close.text.toList, isWhitespace c

/-- The number of characters that are not blanks. -/
def marks (text : List Char) : ℕ := text.countP fun c => !isWhitespace c

lemma marks_append (left right : List Char) : marks (left ++ right) = marks left + marks right :=
  countP_append

lemma marks_cons {c : Char} (h : ¬ isWhitespace c) (text : List Char) :
    marks (c :: text) = marks text + 1 :=
  countP_cons_of_pos (by rw [Bool.eq_false_iff.mpr h]; rfl)

lemma marks_eq_zero {text : List Char} : marks text = 0 ↔ ∀ c ∈ text, isWhitespace c := by
  rw [marks, countP_eq_zero]
  simp

/-- What stands behind the first sign of a text. -/
lemma eq_behind_sign {left right left' right' : List Char} (h : '=' ∉ left) (h' : '=' ∉ left')
    (heq : left ++ '=' :: right = left' ++ '=' :: right') : right = right' := by
  have hsplit := splitOnce_singleton h right
  rw [heq, splitOnce_singleton h' right'] at hsplit
  exact (Prod.mk.inj (some.inj hsplit)).2.symm

lemma quotedBehindSign_path_iff {hash bracket before behind close : RustGap} (h : IsLiteral p)
    (hstart :
      "#[path".toList <+: (path hash bracket before behind close p h).chars) :
    QuotedBehindSign (path hash bracket before behind close p h).chars p ↔
      Compact before behind close := by
  rw [chars] at hstart ⊢
  rw [chars_of_start hstart, pathBody]
  constructor
  · rintro ⟨front, blank, quote, rear, hsign, hquote, hblank, hrear, htext⟩
    have hquote := not_isWhitespace_quote hquote
    -- What is behind the first sign has no more than the literal and the bracket.
    have hcount {text : List Char} (heq : text =
        blank ++ quote :: (p ++ quote :: (rear ++ [']']))) : marks text = marks p + 3 := by
      rw [heq, marks_append, marks_cons hquote, marks_append, marks_cons hquote, marks_append,
        marks_eq_zero.mpr hblank, marks_eq_zero.mpr hrear, marks_cons (by decide)]
      show 0 + (marks p + (0 + (0 + 1) + 1) + 1) = marks p + 3
      omega
    have hmore (text : List Char) :
        marks (text ++ '"' :: (p ++ '"' :: (close.text.toList ++ [']']))) =
          marks text + marks close.text.toList + (marks p + 3) := by
      rw [marks_append, marks_cons (by decide), marks_append, marks_cons (by decide), marks_append,
        marks_cons (by decide)]
      show marks text + (marks p + (marks close.text.toList + (0 + 1) + 1) + 1) = _
      omega
    by_cases hbefore : '=' ∈ before.text.toList
    · -- The first sign is in a gap: too much stands behind it.
      obtain ⟨first, second, hgap, hnot⟩ := eq_append_cons_of_mem hbefore
      have hfirst : '=' ∉ "#[path".toList ++ first := by
        rw [mem_append, not_or]
        exact ⟨by decide, hnot⟩
      have hsplit : ("#[path".toList ++ first) ++ '=' :: ((second ++ '=' :: behind.text.toList) ++
          '"' :: (p ++ '"' :: (close.text.toList ++ [']']))) =
          front ++ '=' :: (blank ++ quote :: (p ++ quote :: (rear ++ [']']))) := by
        rw [← htext, hgap]
        simp
      have hrest := eq_behind_sign hfirst hsign hsplit
      have hmarks := (hmore _).symm.trans (hcount hrest)
      rw [marks_append, marks_cons (by decide)] at hmarks
      omega
    · have hfirst : '=' ∉ "#[path".toList ++ before.text.toList := by
        rw [mem_append, not_or]
        exact ⟨by decide, hbefore⟩
      have hsplit : ("#[path".toList ++ before.text.toList) ++ '=' :: (behind.text.toList ++
          '"' :: (p ++ '"' :: (close.text.toList ++ [']']))) =
          front ++ '=' :: (blank ++ quote :: (p ++ quote :: (rear ++ [']']))) := by
        rw [← htext]
        simp
      have hrest := eq_behind_sign hfirst hsign hsplit
      have hmarks := (hmore _).symm.trans (hcount hrest)
      exact ⟨hbefore, marks_eq_zero.mp (by omega), marks_eq_zero.mp (by omega)⟩
  · rintro ⟨hbefore, hbehind, hclose⟩
    refine ⟨"#[path".toList ++ before.text.toList, behind.text.toList, '"', close.text.toList, ?_,
      by decide, hbehind, hclose, ?_⟩
    · rw [mem_append, not_or]
      exact ⟨by decide, hbefore⟩
    · simp

/-! ## When path attributes are honoured -/

/-- When the path that the code finds is the path of the item.

Of the attributes that no comment separates from the item, the nearest that begins with `#[path`
decides.  If it gives a path, it must be compact, and no other attribute of the item may give
another path.  If it has another name, its quoted text must be the path that the attributes of the
item give.  If there is none, no attribute of the item may give a path. -/
def Honoured (items : List PreambleItem) : Prop :=
  match nearest items with
  | none => ∀ p, ¬ HasPath items p
  | some (.path _ _ before behind close p _) =>
    Compact before behind close ∧ ∀ q, HasPath items q → q = p
  | some attr => ∀ q, HasPath items q ↔ QuotedBehindSign attr.chars q

/-- The extracted import of a `mod` item carries exactly the path that an attribute of the item
gives if the attribute that decides is the right one. -/
theorem carriesPath_exact_iff {node : Node} {name : Cst} {nodes rest : List Cst}
    {items : List PreambleItem} (hkind : node.kind = "mod_item")
    (hbody : node.childByFieldName "body" = none)
    (hname : node.tree.childByFieldName "name" = some name)
    (hitems : List.Forall₂ IsPreamble nodes items)
    (hrest : ∀ sibling, rest.head? = some sibling → EndsPreamble sibling) :
    (∀ p, CarriesPath node (nodes ++ rest) p ↔ HasPath items p) ↔ Honoured items := by
  have hcarries := carriesPath_iff hkind hbody hname hitems hrest
  rw [Honoured]
  split
  next hnone =>
    refine forall_congr' fun p => ?_
    rw [hcarries, hnone]
    exact ⟨fun h hpath => Option.some_ne_none _ (h.mpr hpath).choose_spec.1.symm,
      fun h => iff_of_false (fun ⟨attr, hattr, _⟩ => Option.some_ne_none attr hattr.symm) h⟩
  next hash bracket before behind close p hp hnearest =>
    obtain ⟨hmem, hstart⟩ := mem_of_nearest hnearest
    have hpath : HasPath items p := ⟨_, hmem, rfl⟩
    have hfound (q : List Char) : CarriesPath node (nodes ++ rest) q ↔
        QuotedBehindSign (path hash bracket before behind close p hp).chars q := by
      rw [hcarries, hnearest]
      simp
    constructor
    · intro h
      have hquoted := (hfound p).mp ((h p).mpr hpath)
      refine ⟨(quotedBehindSign_path_iff hp hstart).mp hquoted, fun q hq => ?_⟩
      exact quotedBehindSign_unique ((hfound q).mp ((h q).mpr hq)) hquoted
    · rintro ⟨hcompact, hunique⟩ q
      have hquoted := (quotedBehindSign_path_iff hp hstart).mpr hcompact
      rw [hfound]
      constructor
      · intro hq
        rwa [quotedBehindSign_unique hq hquoted]
      · intro hq
        rwa [hunique q hq]
  next attr _ hnearest =>
    refine forall_congr' fun q => ?_
    rw [hcarries, hnearest]
    simp only [Option.some.injEq, exists_eq_left']
    exact iff_comm

/-! ## A comment behind the attribute -/

def noGap : RustGap := ⟨"", fun _ h => absurd h.symm (Option.some_ne_none _)⟩

def blankGap : RustGap := ⟨" ", fun c h => by obtain rfl := Option.some.inj h; decide⟩

lemma isLiteral_plain (h : (p.all fun c => c ≠ '"' && c ≠ '\\') = true) : IsLiteral p := by
  induction p with
  | nil => exact .nil
  | cons c p ih =>
    rw [all_cons, Bool.and_eq_true, Bool.and_eq_true, decide_eq_true_eq, decide_eq_true_eq] at h
    exact .plain h.1.1 h.1.2 (ih h.2)

/-- `#[path = "a.rs"]`. -/
def pathAttribute : OuterAttribute :=
  .path noGap noGap blankGap blankGap noGap "a.rs".toList (isLiteral_plain (by decide))

/-- An item of the source text
```
#[path = "a.rs"]
// moved
mod m;
```
-/
def modNode : Node where
  tree := .node 5 "mod_item" none true ⟨0, 0, 3, 3⟩ "mod m;"
    [.node 6 "identifier" (some "name") true ⟨0, 0, 3, 3⟩ "m" []]
  ancestors := [.node 0 "source_file" none true ⟨0, 0, 1, 3⟩ "" []]

/-- The siblings before the item, the nearest first. -/
def modSiblings : List Cst :=
  [.node 4 "line_comment" none true ⟨0, 0, 2, 2⟩ "// moved" [],
    .node 1 "attribute_item" none true ⟨0, 0, 1, 1⟩ "#[path = \"a.rs\"]" []]

lemma forall₂_modSiblings :
    Forall₂ IsPreamble modSiblings [.comment, .attr pathAttribute] :=
  .cons (.inl rfl) (.cons ⟨rfl, by decide +kernel⟩ .nil)

/-- The comment hides the attribute. -/
theorem modNode_path_lost : ¬ ∀ p, CarriesPath modNode (modSiblings ++ []) p ↔
      HasPath [.comment, .attr pathAttribute] p := by
  intro h
  obtain ⟨name, inlineModules, hmem⟩ := (h "a.rs".toList).mpr
    ⟨pathAttribute, mem_cons_of_mem _ mem_cons_self, rfl⟩
  have hextract : extractRustNode modNode (modSiblings ++ []) = [.module "m" none []] := by
    decide +kernel
  rw [hextract, mem_singleton] at hmem
  exact absurd (RustImport.module.inj hmem).2.1 (some_ne_none _)

theorem carriesPath_exact_iff_modNode : (∀ p, CarriesPath modNode (modSiblings ++ []) p ↔
      HasPath [.comment, .attr pathAttribute] p) ↔ Honoured [.comment, .attr pathAttribute] :=
  carriesPath_exact_iff (by decide) rfl rfl forall₂_modSiblings
    fun _ h => nomatch h.symm

end Reposcout.Graph
