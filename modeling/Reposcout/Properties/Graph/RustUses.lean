import Reposcout.Graph.RustSource

/-!
# Use declarations expand to their leaves

The paths on the way to a leaf are joined as texts, and the resolver splits the text again.  A leaf
is found if its paths are written without gaps; a bare glob is not found at all, and a glob behind a
path only where the grammar gives that path a field.
-/

namespace Reposcout.Graph

open List Option

/-! ## Splitting what was joined -/

/-- The non-empty parts of a text. -/
def charSegments (text : List Char) : List (List Char) := (splitColons text).filter (· ≠ [])

lemma pathSegments_eq (path : String) :
    pathSegments path = (charSegments path.toList).map String.ofList := by
  rw [pathSegments, charSegments, List.filter_map]
  congr 1
  refine filter_congr fun segment _ => ?_
  simp

lemma splitColons_ne_nil (text : List Char) : splitColons text ≠ [] := by
  fun_cases splitColons text with
  | case1 | case2 | case3 | case4 => exact cons_ne_nil _ _

/-- A character that does not begin a separator belongs to the first part. -/
lemma splitColons_cons {c : Char} {chars : List Char} (h : c = ':' → chars.head? ≠ some ':') :
    splitColons (c :: chars) = (splitColons chars).modifyHead (c :: ·) := by
  rw [splitColons]
  · cases hsplit : splitColons chars with
    | nil => exact absurd hsplit (splitColons_ne_nil chars)
    | cons segment segments => rfl
  · rintro rest rfl rfl
    exact h rfl rfl

lemma splitColons_append {left : List Char} (h : left.getLast? ≠ some ':')
    (right : List Char) :
    splitColons (left ++ ':' :: ':' :: right) = splitColons left ++ splitColons right := by
  fun_induction splitColons left with
  | case1 chars ih =>
    cases chars with
    | nil => exact absurd rfl h
    | cons c chars =>
      rw [cons_append, cons_append, splitColons, ih h, cons_append]
  | case2 c chars hcolons hnil ih => exact absurd hnil (splitColons_ne_nil chars)
  | case3 c chars hcolons segment segments hsplit ih =>
    have hlast : chars.getLast? ≠ some ':' := by
      cases chars with
      | nil => exact (some_ne_none _).symm
      | cons d chars => rwa [getLast?_cons_cons] at h
    rw [cons_append, splitColons_cons, ih hlast, hsplit]
    · rfl
    · rintro rfl hhead
      cases chars with
      | nil => exact h rfl
      | cons d chars =>
        obtain rfl : d = ':' := some.inj hhead
        exact hcolons chars rfl rfl
  | case4 => rfl

lemma charSegments_append {left : List Char} (h : left.getLast? ≠ some ':')
    (right : List Char) :
    charSegments (left ++ ':' :: ':' :: right) = charSegments left ++ charSegments right := by
  rw [charSegments, splitColons_append h, filter_append]
  rfl

/-- A text without the sign is one part. -/
lemma splitColons_eq_singleton {text : List Char} (h : ':' ∉ text) :
    splitColons text = [text] := by
  induction text with
  | nil => rfl
  | cons c text ih =>
    rw [mem_cons, not_or] at h
    rw [splitColons_cons fun heq => absurd heq.symm h.1, ih h.2]
    rfl

lemma charSegments_eq_singleton {text : List Char} (hne : text ≠ []) (h : ':' ∉ text) :
    charSegments text = [text] := by
  rw [charSegments, splitColons_eq_singleton h]
  exact filter_cons_of_pos (decide_eq_true hne)

lemma exists_segment_of_mem {text : List Char} {c : Char} (hc : c ∈ text) (hne : c ≠ ':') :
    ∃ segment ∈ charSegments text, c ∈ segment := by
  suffices h : ∃ segment ∈ splitColons text, c ∈ segment by
    obtain ⟨segment, hsegment, hmem⟩ := h
    exact ⟨segment, mem_filter.mpr
      ⟨hsegment, decide_eq_true (ne_nil_of_mem hmem)⟩, hmem⟩
  fun_induction splitColons text with
  | case1 chars ih =>
    rw [mem_cons, mem_cons] at hc
    obtain ⟨segment, hsegment, hmem⟩ := ih ((hc.resolve_left hne).resolve_left hne)
    exact ⟨segment, mem_cons_of_mem _ hsegment, hmem⟩
  | case2 d chars hcolons hnil ih => exact absurd hnil (splitColons_ne_nil chars)
  | case3 d chars hcolons segment segments hsplit ih =>
    rcases mem_cons.mp hc with rfl | hc
    · exact ⟨c :: segment, mem_cons_self, mem_cons_self⟩
    · obtain ⟨other, hother, hmem⟩ := ih hc
      rw [hsplit] at hother
      rcases mem_cons.mp hother with rfl | hother
      · exact ⟨d :: other, mem_cons_self, mem_cons_of_mem d hmem⟩
      · exact ⟨other, mem_cons_of_mem _ hother, hmem⟩
  | case4 => cases hc

/-! ## Use trees -/

/-- A character that stands between the names of a path. -/
def isGapChar (c : Char) : Bool := c = '/' || isWhitespace c

/-- A name within a path. -/
structure RustName where
  text : String
  ne_empty : text.toList ≠ []
  clean : ∀ c ∈ text.toList, c ≠ ':' ∧ ¬ isGapChar c

/-- What stands around a separator: nothing, or blanks and comments. -/
structure RustGap where
  text : String
  gap : ∀ c, text.toList.head? = some c → isGapChar c

/-- A path as it is written: the gap behind a leading separator, and each further name with the
gaps on both sides of its separator. -/
structure UsePath where
  root : Option RustGap
  first : RustName
  rest : List (RustGap × RustGap × RustName)

/-- A `use` tree. -/
inductive UseTree where
  | path (p : UsePath)
  /-- `p as name`. -/
  | rename (p : UsePath) (name : String)
  /-- `*` or `p::*`. -/
  | glob (p : Option UsePath)
  /-- `{…}`. -/
  | list (trees : List UseTree)
  /-- `::{…}` or `p::{…}`. -/
  | scoped (p : Option UsePath) (trees : List UseTree)

namespace UsePath

def further (name : RustGap × RustGap × RustName) : List Char :=
  name.1.text.toList ++ ':' :: ':' :: (name.2.1.text.toList ++ name.2.2.text.toList)

def rootChars : Option RustGap → List Char
  | none => []
  | some gap => ':' :: ':' :: gap.text.toList

def chars (p : UsePath) : List Char :=
  rootChars p.root ++ (p.first.text.toList ++ p.rest.flatMap further)

def text (p : UsePath) : String := String.ofList p.chars

def names (p : UsePath) : List String := p.first.text :: p.rest.map fun name => name.2.2.text

/-- The path is written without gaps. -/
def Tight (p : UsePath) : Prop :=
  (∀ gap ∈ p.root, gap.text = "") ∧ ∀ name ∈ p.rest, name.1.text = "" ∧ name.2.1.text = ""

/-- The path is the word `self`. -/
def IsSelf (p : UsePath) : Prop := p.root = none ∧ p.first.text = "self" ∧ p.rest = []

instance (p : UsePath) : Decidable p.IsSelf :=
  inferInstanceAs (Decidable (p.root = none ∧ p.first.text = "self" ∧ p.rest = []))

def kind (p : UsePath) : String :=
  if p.root.isSome ∨ p.rest ≠ [] then "scoped_identifier"
  else if p.first.text ∈ ["crate", "self", "super"] then p.first.text
  else "identifier"

end UsePath

/-- The full path of what is reached over some paths: `self` stays where it is. -/
def fullPath (chain : List UsePath) : List String :=
  chain.foldl (fun front p =>
    if front = [] then p.names else if p.IsSelf then front else front ++ p.names) []

/-- A leaf of a use tree: the paths on the way to it, and whether it is found. -/
structure UseLeaf where
  chain : List UsePath
  shown : Bool

def UseLeaf.path (leaf : UseLeaf) : List String := fullPath leaf.chain

mutual

def UseTree.leaves (labelled : Bool) (chain : List UsePath) : UseTree → List UseLeaf
  | .path p => [⟨chain ++ [p], true⟩]
  | .rename p _ => [⟨chain ++ [p], true⟩]
  | .glob none => [⟨chain, false⟩]
  | .glob (some p) => [⟨chain ++ [p], labelled⟩]
  | .list trees => UseTree.leavesOf labelled chain trees
  | .scoped p trees => UseTree.leavesOf labelled (chain ++ p.toList) trees

def UseTree.leavesOf (labelled : Bool) (chain : List UsePath) : List UseTree → List UseLeaf
  | [] => []
  | tree :: rest =>
    UseTree.leaves labelled chain tree ++ UseTree.leavesOf labelled chain rest

end

/-- The node is one of the comments, which stand anywhere in a tree. -/
def IsComment (node : Cst) : Prop := node.kind = "line_comment" ∨ node.kind = "block_comment"

def IsPathNode (node : Cst) (p : UsePath) : Prop := node.kind = p.kind ∧ node.text = p.text

mutual

/-- The node is the syntax tree of a use tree.  Whether the grammar gives the path of a glob the
field `path` is left open. -/
inductive IsUse (labelled : Bool) : Cst → UseTree → Prop where
  | path {node : Cst} {p : UsePath} (h : IsPathNode node p) : IsUse labelled node (.path p)
  | rename {node child : Cst} {p : UsePath} {name : String} (hkind : node.kind = "use_as_clause")
      (hpath : node.childByFieldName "path" = some child) (h : IsPathNode child p) :
      IsUse labelled node (.rename p name)
  | star {node : Cst} (hkind : node.kind = "use_wildcard")
      (hpath : node.childByFieldName "path" = none) : IsUse labelled node (.glob none)
  | glob {node child : Cst} {p : UsePath} (hkind : node.kind = "use_wildcard")
      (hchild : child ∈ node.namedChildren) (h : IsPathNode child p)
      (hpath : node.childByFieldName "path" = if labelled then some child else none) :
      IsUse labelled node (.glob (some p))
  | list {node : Cst} {trees : List UseTree} (hkind : node.kind = "use_list")
      (h : AreUses labelled node.namedChildren trees) : IsUse labelled node (.list trees)
  | scopedRoot {node list : Cst} {trees : List UseTree} (hkind : node.kind = "scoped_use_list")
      (hpath : node.childByFieldName "path" = none)
      (hlist : node.childByFieldName "list" = some list) (hlistKind : list.kind = "use_list")
      (h : AreUses labelled list.namedChildren trees) : IsUse labelled node (.scoped none trees)
  | scoped {node list child : Cst} {p : UsePath} {trees : List UseTree}
      (hkind : node.kind = "scoped_use_list")
      (hpath : node.childByFieldName "path" = some child) (hp : IsPathNode child p)
      (hlist : node.childByFieldName "list" = some list) (hlistKind : list.kind = "use_list")
      (h : AreUses labelled list.namedChildren trees) :
      IsUse labelled node (.scoped (some p) trees)

inductive AreUses (labelled : Bool) : List Cst → List UseTree → Prop where
  | nil : AreUses labelled [] []
  | comment {node : Cst} {rest : List Cst} {trees : List UseTree} (hcomment : IsComment node)
      (h : AreUses labelled rest trees) : AreUses labelled (node :: rest) trees
  | cons {node : Cst} {rest : List Cst} {tree : UseTree} {trees : List UseTree}
      (hnode : IsUse labelled node tree) (h : AreUses labelled rest trees) :
      AreUses labelled (node :: rest) (tree :: trees)

end

/-! ## Texts of paths -/

namespace UsePath

lemma chars_eq_append (p : UsePath) :
    ∃ (front : List Char) (name : RustName), p.chars = front ++ name.text.toList := by
  rcases eq_nil_or_concat p.rest with hrest | ⟨rest, name, hrest⟩
  · refine ⟨rootChars p.root, p.first, ?_⟩
    rw [chars, hrest, flatMap_nil, append_nil]
  · refine ⟨rootChars p.root ++ (p.first.text.toList ++ (rest.flatMap further ++
      (name.1.text.toList ++ ':' :: ':' :: name.2.1.text.toList))), name.2.2, ?_⟩
    rw [chars, hrest, concat_eq_append, flatMap_append, flatMap_singleton, further]
    simp

lemma exists_last (p : UsePath) :
    ∃ (front : List Char) (c : Char), p.chars = front ++ [c] ∧ c ≠ ':' ∧ ¬ isGapChar c := by
  obtain ⟨front, name, hchars⟩ := p.chars_eq_append
  obtain ⟨most, c, hname⟩ := (eq_nil_or_concat name.text.toList).resolve_left name.ne_empty
  rw [concat_eq_append] at hname
  refine ⟨front ++ most, c, ?_, name.clean c ?_⟩
  · rw [hchars, hname, append_assoc]
  · rw [hname]
    exact mem_append_right most mem_cons_self

lemma getLast?_chars_ne (p : UsePath) : p.chars.getLast? ≠ some ':' := by
  obtain ⟨front, c, hchars, hcolon, -⟩ := p.exists_last
  rw [hchars, getLast?_concat]
  exact fun h => hcolon (some.inj h)

lemma chars_ne_nil (p : UsePath) : p.chars ≠ [] := by
  obtain ⟨front, c, hchars, -⟩ := p.exists_last
  rw [hchars]
  exact append_ne_nil_of_right_ne_nil front (cons_ne_nil c [])

lemma isWhitespace_eq_false {c : Char} (h : ¬ isGapChar c) : ¬ isWhitespace c := by
  intro hc
  exact h (by rw [isGapChar, hc, Bool.or_true])

lemma trimText_chars (p : UsePath) : trimText p.chars = p.chars := by
  have hstart : p.chars.dropWhile isWhitespace = p.chars := by
    obtain ⟨c, rest, hfirst⟩ := exists_cons_of_ne_nil p.first.ne_empty
    have hc := (p.first.clean c (by rw [hfirst]; exact mem_cons_self)).2
    rw [chars]
    cases p.root with
    | none =>
      rw [rootChars, nil_append, hfirst, cons_append]
      exact dropWhile_cons_of_neg (isWhitespace_eq_false hc)
    | some gap =>
      exact dropWhile_cons_of_neg (by decide)
  obtain ⟨front, c, hchars, -, hc⟩ := p.exists_last
  rw [trimText, trimStart, hstart, trimEndMatches, hchars, reverse_append, reverse_cons,
    reverse_nil, nil_append, singleton_append,
    dropWhile_cons_of_neg (isWhitespace_eq_false hc), reverse_cons, reverse_reverse]

variable {p : UsePath}

/-- The text of a path is `self` only for that path. -/
lemma text_eq_self_iff : p.text = "self" ↔ p.IsSelf := by
  have hmem {c : Char} (hchars : p.chars = "self".toList) (hc : c ∈ p.chars) : c ≠ ':' := by
    rintro rfl
    rw [hchars] at hc
    exact nomatch hc
  constructor
  · intro h
    have hchars : p.chars = "self".toList := by rw [← h, text, String.toList_ofList]
    cases hroot : p.root with
    | some gap =>
      refine absurd rfl (hmem (c := ':') hchars ?_)
      rw [chars, hroot]
      exact mem_cons_self
    | none =>
      cases hrest : p.rest with
      | cons name rest =>
        refine absurd rfl (hmem (c := ':') hchars ?_)
        rw [chars, hrest, flatMap_cons, further]
        simp
      | nil =>
        rw [chars, hroot, hrest, rootChars, nil_append, flatMap_nil, append_nil] at hchars
        exact ⟨hroot, String.toList_inj.mp hchars, hrest⟩
  · rintro ⟨hroot, hfirst, hrest⟩
    rw [text, chars, hroot, hrest, hfirst, rootChars, nil_append, flatMap_nil,
      append_nil, String.ofList_toList]

lemma charSegments_name (name : RustName) :
    charSegments name.text.toList = [name.text.toList] :=
  charSegments_eq_singleton name.ne_empty fun h => (name.clean ':' h).1 rfl

/-- The names of a path that is written without gaps are the parts of its text. -/
lemma charSegments_of_tight (h : p.Tight) : charSegments p.chars = p.names.map String.toList := by
  have hrest (first : RustName) : ∀ rest : List (RustGap × RustGap × RustName),
      (∀ name ∈ rest, name.1.text = "" ∧ name.2.1.text = "") →
      charSegments (first.text.toList ++ rest.flatMap further) =
        first.text.toList :: rest.map fun name => name.2.2.text.toList := by
    intro rest
    induction rest generalizing first with
    | nil =>
      intro _
      rw [flatMap_nil, append_nil, charSegments_name, map_nil]
    | cons name rest ih =>
      intro hgaps
      obtain ⟨hbefore, hbehind⟩ := hgaps name mem_cons_self
      have hlast : first.text.toList.getLast? ≠ some ':' := fun hcolon =>
        (first.clean ':' (mem_of_getLast? hcolon)).1 rfl
      rw [flatMap_cons, further, hbefore, hbehind, String.toList_empty, nil_append,
        nil_append, cons_append, cons_append, charSegments_append hlast,
        charSegments_name, ih name.2.2 fun other hother =>
          hgaps other (mem_cons_of_mem name hother)]
      rfl
  rw [chars, names, map_cons, List.map_map]
  cases hroot : p.root with
  | none => exact hrest p.first p.rest h.2
  | some gap =>
    have hgap : gap.text = "" := h.1 gap hroot
    have hsplit := @charSegments_append [] (by decide)
      (p.first.text.toList ++ p.rest.flatMap further)
    rw [rootChars, hgap, String.toList_empty]
    exact hsplit.trans (hrest p.first p.rest h.2)

lemma exists_gapChar (h : ¬ p.Tight) : ∃ c ∈ p.chars, isGapChar c := by
  have hgap {gap : RustGap} (hne : gap.text ≠ "") : ∃ c ∈ gap.text.toList, isGapChar c := by
    obtain ⟨c, rest, hchars⟩ := exists_cons_of_ne_nil (mt String.toList_eq_nil_iff.mp hne)
    refine ⟨c, ?_, gap.gap c ?_⟩
    · rw [hchars]
      exact mem_cons_self
    · rw [hchars]
      rfl
  rw [Tight, not_and_or] at h
  rcases h with h | h
  · push Not at h
    obtain ⟨gap, hroot, hne⟩ := h
    obtain ⟨c, hc, hfound⟩ := hgap hne
    refine ⟨c, ?_, hfound⟩
    rw [chars, hroot, rootChars]
    exact mem_append_left _ (mem_cons_of_mem _ (mem_cons_of_mem _ hc))
  · push Not at h
    obtain ⟨name, hname, hne⟩ := h
    obtain ⟨c, hc, hfound⟩ : ∃ c ∈ further name, isGapChar c := by
      by_cases hbefore : name.1.text = ""
      · obtain ⟨c, hc, hfound⟩ := hgap (hne hbefore)
        exact ⟨c, mem_append_right _ (mem_cons_of_mem _
          (mem_cons_of_mem _ (mem_append_left _ hc))), hfound⟩
      · obtain ⟨c, hc, hfound⟩ := hgap hbefore
        exact ⟨c, mem_append_left _ hc, hfound⟩
    refine ⟨c, mem_append_right _ (mem_append_right _ ?_), hfound⟩
    exact mem_flatMap.mpr ⟨name, hname, hc⟩

end UsePath

/-! ## Joined paths -/

def joinNames (front : List String) (p : UsePath) : List String :=
  if front = [] then p.names else if p.IsSelf then front else front ++ p.names

/-- The text that the paths on a way are joined to. -/
def writtenPath (chain : List UsePath) : String :=
  chain.foldl (fun front p => joinRustPath front p.text) ""

structure Denotes (text : String) (path : List String) : Prop where
  segments : pathSegments text = path
  empty : text = "" ↔ path = []
  last : text.toList.getLast? ≠ some ':'

variable {front : String} {p : UsePath}

open UsePath

lemma toList_joinRustPath (hfront : front ≠ "") (hself : ¬ p.IsSelf) :
    (joinRustPath front p.text).toList = front.toList ++ ':' :: ':' :: p.chars := by
  rw [joinRustPath, if_neg hfront, if_neg (mt text_eq_self_iff.mp hself),
    String.toList_append, String.toList_append, append_assoc, text,
    @String.toList_ofList p.chars]
  rfl

lemma denotes_join {path : List String} (h : Denotes front path) (hp : p.Tight) :
    Denotes (joinRustPath front p.text) (joinNames path p) := by
  have hnames : (p.names.map String.toList).map String.ofList = p.names := by
    rw [List.map_map]
    exact map_id'' (fun name => String.ofList_toList) _
  have htext : pathSegments p.text = p.names := by
    rw [pathSegments_eq, text, String.toList_ofList, charSegments_of_tight hp,
      hnames]
  by_cases hfront : front = ""
  · rw [joinRustPath, if_pos hfront, joinNames, if_pos (h.empty.mp hfront)]
    refine ⟨htext, ?_, ?_⟩
    · refine iff_of_false (fun hempty => p.chars_ne_nil ?_) (cons_ne_nil _ _)
      rw [← String.toList_ofList (l := p.chars), ← text, hempty, String.toList_empty]
    · rw [text, String.toList_ofList]
      exact p.getLast?_chars_ne
  · rw [joinNames, if_neg (mt h.empty.mpr hfront)]
    by_cases hself : p.IsSelf
    · rw [joinRustPath, if_neg hfront, if_pos (text_eq_self_iff.mpr hself), if_pos hself]
      exact h
    · rw [if_neg hself]
      have hjoined := toList_joinRustPath hfront hself
      refine ⟨?_, ?_, ?_⟩
      · rw [pathSegments_eq, hjoined, charSegments_append h.last, map_append,
          ← pathSegments_eq, h.segments, charSegments_of_tight hp, hnames]
      · refine iff_of_false (fun hempty => ?_) ?_
        · rw [hempty, String.toList_empty] at hjoined
          exact append_ne_nil_of_right_ne_nil _ (cons_ne_nil _ _) hjoined.symm
        · exact append_ne_nil_of_right_ne_nil _ (cons_ne_nil _ _)
      · obtain ⟨most, c, hchars, hcolon, -⟩ := p.exists_last
        rw [hjoined, hchars, ← cons_append, ← cons_append, ← append_assoc, getLast?_concat]
        exact fun hlast => hcolon (some.inj hlast)

variable {chain : List UsePath}

/-- Paths without gaps are joined to the text of the full path. -/
lemma denotes_writtenPath (h : ∀ p ∈ chain, p.Tight) :
    Denotes (writtenPath chain) (fullPath chain) := by
  suffices hfold : ∀ chain : List UsePath, (∀ p ∈ chain, p.Tight) → ∀ front path,
      Denotes front path → Denotes (chain.foldl (fun front p => joinRustPath front p.text) front)
        (chain.foldl joinNames path) by
    exact hfold chain h "" [] ⟨by decide, iff_of_true rfl rfl, by decide⟩
  intro chain
  induction chain with
  | nil => exact fun _ front path hfront => hfront
  | cons p chain ih =>
    intro htight front path hfront
    exact ih (fun q hq => htight q (mem_cons_of_mem p hq)) _ _
      (denotes_join hfront (htight p mem_cons_self))

lemma exists_gapChar_writtenPath (hp : p ∈ chain) (h : ¬ p.Tight) :
    ∃ c ∈ (writtenPath chain).toList, isGapChar c := by
  have hkept (front : String) (q : UsePath) {c : Char} (hc : c ∈ front.toList) :
      c ∈ (joinRustPath front q.text).toList := by
    by_cases hfront : front = ""
    · rw [hfront, String.toList_empty] at hc
      cases hc
    · by_cases hself : q.IsSelf
      · rwa [joinRustPath, if_neg hfront, if_pos (text_eq_self_iff.mpr hself)]
      · rw [toList_joinRustPath hfront hself]
        exact mem_append_left _ hc
  have hseen (front : String) {c : Char} (hc : c ∈ p.chars) :
      c ∈ (joinRustPath front p.text).toList := by
    by_cases hfront : front = ""
    · rwa [joinRustPath, if_pos hfront, text, String.toList_ofList]
    · have hself : ¬ p.IsSelf := by
        rintro ⟨hroot, -, hrest⟩
        refine h ⟨fun gap hgap => ?_, fun name hname => ?_⟩
        · rw [hroot] at hgap
          exact absurd hgap (not_mem_none gap)
        · rw [hrest] at hname
          cases hname
      rw [toList_joinRustPath hfront hself]
      exact mem_append_right _ (mem_cons_of_mem _ (mem_cons_of_mem _ hc))
  obtain ⟨c, hc, hgap⟩ := exists_gapChar h
  refine ⟨c, ?_, hgap⟩
  obtain ⟨before, behind, rfl⟩ := append_of_mem hp
  rw [writtenPath, foldl_append, foldl_cons]
  -- Once it is in the text, it stays there.
  induction behind using List.reverseRecOn with
  | nil => exact hseen _ hc
  | append_singleton behind q ih =>
    rw [foldl_append, foldl_cons, foldl_nil]
    exact hkept _ q (ih (mem_append_right _ mem_cons_self))

lemma exists_name_of_mem_fullPath {name : String} (h : name ∈ fullPath chain) :
    ∃ original : RustName, original.text = name := by
  have hnames {p : UsePath} (hname : name ∈ p.names) :
      ∃ original : RustName, original.text = name := by
    rcases mem_cons.mp hname with rfl | hname
    · exact ⟨p.first, rfl⟩
    · obtain ⟨further, -, rfl⟩ := List.mem_map.mp hname
      exact ⟨further.2.2, rfl⟩
  induction chain using List.reverseRecOn with
  | nil => cases h
  | append_singleton chain p ih =>
    rw [fullPath, foldl_append, foldl_cons, foldl_nil] at h
    split at h
    · exact hnames h
    · split at h
      · exact ih h
      · exact (mem_append.mp h).elim ih hnames

/-- A way with a gap is not read as any path. -/
lemma pathSegments_ne_fullPath {other : List UsePath} (hp : p ∈ chain) (h : ¬ p.Tight) :
    pathSegments (writtenPath chain) ≠ fullPath other := by
  intro hsame
  obtain ⟨c, hc, hgap⟩ := exists_gapChar_writtenPath hp h
  have hcolon : c ≠ ':' := by
    rintro rfl
    cases hgap
  obtain ⟨segment, hsegment, hmem⟩ := exists_segment_of_mem hc hcolon
  have hname : String.ofList segment ∈ fullPath other := by
    rw [← hsame, pathSegments_eq]
    exact List.mem_map_of_mem hsegment
  obtain ⟨original, horiginal⟩ := exists_name_of_mem_fullPath hname
  refine (original.clean c ?_).2 hgap
  rwa [horiginal, String.toList_ofList]

/-! ## Expansion -/

lemma expandField_eq (name front : String) (children : List Cst) :
    expandField name front children =
      ((children.find? fun child => child.field = some name).map
        (expandRustUse front)).getD [] := by
  induction children with
  | nil => rfl
  | cons child rest ih =>
    rw [expandField, find?_cons]
    split
    next hfield => rw [decide_eq_true hfield, map_some, getD_some]
    next hfield => rw [decide_eq_false hfield, ih]

lemma expandNamed_eq (front : String) (children : List Cst) :
    expandNamed front children = (children.filter Cst.isNamed).flatMap (expandRustUse front) := by
  induction children with
  | nil => rfl
  | cons child rest ih =>
    rw [expandNamed, ih]
    cases hnamed : child.isNamed with
    | true => rw [filter_cons_of_pos hnamed, flatMap_cons, if_pos rfl]
    | false =>
      rw [filter_cons_of_neg (Bool.eq_false_iff.mp hnamed), if_neg Bool.false_ne_true, nil_append]

variable {node : Cst}

lemma expandRustUse_list (h : node.kind = "use_list") :
    expandRustUse front node = node.namedChildren.flatMap (expandRustUse front) := by
  obtain ⟨id, kind, field, isNamed, span, text, children⟩ := node
  obtain rfl : kind = "use_list" := h
  rw [expandRustUse, if_neg (by decide), if_pos rfl, expandNamed_eq]
  rfl

lemma expandRustUse_rename (h : node.kind = "use_as_clause") :
    expandRustUse front node =
      ((node.childByFieldName "path").map (expandRustUse front)).getD [] := by
  obtain ⟨id, kind, field, isNamed, span, text, children⟩ := node
  obtain rfl : kind = "use_as_clause" := h
  rw [expandRustUse, if_neg (by decide), if_neg (by decide), if_pos rfl, expandField_eq]
  rfl

lemma expandRustUse_glob (h : node.kind = "use_wildcard") :
    expandRustUse front node = (((node.childByFieldName "path").bind rustNodeText).map
      (joinRustPath front)).toList := by
  obtain ⟨id, kind, field, isNamed, span, text, children⟩ := node
  obtain rfl : kind = "use_wildcard" := h
  rw [expandRustUse, if_neg (by decide), if_neg (by decide), if_neg (by decide), if_pos rfl]
  split
  next hnone => rw [hnone, map_none, toList_none]
  next path hpath => rw [hpath, map_some, toList_some]

lemma expandRustUse_scoped (h : node.kind = "scoped_use_list") :
    expandRustUse front node = ((node.childByFieldName "list").map (expandRustUse
      (((node.childByFieldName "path").bind rustNodeText).elim front
        (joinRustPath front)))).getD [] := by
  obtain ⟨id, kind, field, isNamed, span, text, children⟩ := node
  obtain rfl : kind = "scoped_use_list" := h
  rw [expandRustUse, if_pos rfl, expandField_eq]
  cases ((Cst.node id "scoped_use_list" field isNamed span text children).childByFieldName
    "path").bind rustNodeText <;> rfl

lemma rustNodeText_path (h : IsPathNode node p) : rustNodeText node = some p.text := by
  rw [rustNodeText, h.2, text, String.toList_ofList, p.trimText_chars]
  exact if_neg p.chars_ne_nil

lemma isPathKind_kind (p : UsePath) : isPathKind p.kind := by
  rw [kind]
  split_ifs with _ hword
  · decide
  · simp only [mem_cons, not_mem_nil, or_false] at hword
    rcases hword with hword | hword | hword <;> rw [hword] <;> decide
  · decide

lemma expandRustUse_path (h : IsPathNode node p) :
    expandRustUse front node = [joinRustPath front p.text] := by
  have htext := rustNodeText_path h
  have hkind := h.1 ▸ isPathKind_kind p
  obtain ⟨id, kind, field, isNamed, span, text, children⟩ := node
  have hkind : isPathKind kind := hkind
  have hother (other : String) (hother : isPathKind other = false) : kind ≠ other := by
    rintro rfl
    exact absurd (hother.symm.trans hkind) Bool.false_ne_true
  rw [expandRustUse, if_neg (hother _ (by decide)), if_neg (hother _ (by decide)),
    if_neg (hother _ (by decide)), if_neg (hother _ (by decide)), if_pos hkind, htext]

lemma expandRustUse_comment (h : IsComment node) : expandRustUse front node = [] := by
  obtain ⟨id, kind, field, isNamed, span, text, children⟩ := node
  have hkind : kind = "line_comment" ∨ kind = "block_comment" := h
  rw [expandRustUse]
  rcases hkind with rfl | rfl
  all_goals rw [if_neg (by decide), if_neg (by decide), if_neg (by decide), if_neg (by decide),
    if_neg (by decide)]

lemma writtenPath_append (chain : List UsePath) (p : UsePath) :
    writtenPath (chain ++ [p]) = joinRustPath (writtenPath chain) p.text := by
  rw [writtenPath, foldl_append]
  rfl

def shownTexts (leaves : List UseLeaf) : List String :=
  (leaves.filter UseLeaf.shown).map fun leaf => writtenPath leaf.chain

lemma shownTexts_append (left right : List UseLeaf) :
    shownTexts (left ++ right) = shownTexts left ++ shownTexts right := by
  rw [shownTexts, filter_append, map_append]
  rfl

mutual

lemma expandRustUse_eq {labelled : Bool} {node : Cst} {tree : UseTree} (chain : List UsePath) :
    IsUse labelled node tree →
      expandRustUse (writtenPath chain) node = shownTexts (tree.leaves labelled chain)
  | .path h => by
    rw [expandRustUse_path h, ← writtenPath_append]
    rfl
  | .rename hkind hpath h => by
    rw [expandRustUse_rename hkind, hpath, map_some, getD_some,
      expandRustUse_path h, ← writtenPath_append]
    rfl
  | .star hkind hpath => by
    rw [expandRustUse_glob hkind, hpath]
    rfl
  | .glob hkind hchild h hpath => by
    rw [expandRustUse_glob hkind, hpath]
    cases labelled with
    | true =>
      rw [if_pos rfl, bind_some, rustNodeText_path h, map_some, ← writtenPath_append]
      rfl
    | false => rfl
  | .list hkind h => by
    rw [expandRustUse_list hkind, expandAll_eq chain h, UseTree.leaves]
  | .scopedRoot hkind hpath hlist hlistKind h => by
    rw [expandRustUse_scoped hkind, hpath, hlist, map_some, getD_some,
      bind_none, elim_none, expandRustUse_list hlistKind, expandAll_eq chain h,
      UseTree.leaves, toList_none, append_nil]
  | .scoped (p := p) hkind hpath hp hlist hlistKind h => by
    rw [expandRustUse_scoped hkind, hpath, hlist, map_some, getD_some,
      bind_some, rustNodeText_path hp, elim_some, ← writtenPath_append,
      expandRustUse_list hlistKind, expandAll_eq (chain ++ [p]) h, UseTree.leaves,
      toList_some]

lemma expandAll_eq {labelled : Bool} {nodes : List Cst} {trees : List UseTree}
    (chain : List UsePath) : AreUses labelled nodes trees →
      nodes.flatMap (expandRustUse (writtenPath chain)) =
        shownTexts (UseTree.leavesOf labelled chain trees)
  | .nil => rfl
  | .comment hcomment h => by
    rw [flatMap_cons, expandAll_eq chain h, expandRustUse_comment hcomment, nil_append]
  | .cons hnode h => by
    rw [flatMap_cons, expandRustUse_eq chain hnode, expandAll_eq chain h, UseTree.leavesOf,
      shownTexts_append]

end

/-! ## Which declarations are expanded exactly -/

/-- The expansion of a `use` declaration reads as the full paths of its leaves. -/
def ExpandsToLeaves (labelled : Bool) (argument : Cst) (tree : UseTree) : Prop :=
  ∀ path, path ∈ (expandRustUse "" argument).map pathSegments ↔
    path ∈ (tree.leaves labelled []).map UseLeaf.path

/-- A declaration is expanded to its leaves exactly if the paths of the leaves that are found are
written without gaps, and every glob that is not found is a glob of a module that is the path of
another leaf. -/
theorem expandsToLeaves_iff {labelled : Bool} {argument : Cst} {tree : UseTree}
    (h : IsUse labelled argument tree) :
    ExpandsToLeaves labelled argument tree ↔
      (∀ leaf ∈ tree.leaves labelled [], leaf.shown → ∀ p ∈ leaf.chain, p.Tight) ∧
        ∀ leaf ∈ tree.leaves labelled [], ¬ leaf.shown →
          ∃ other ∈ tree.leaves labelled [], other.shown ∧ other.path = leaf.path := by
  have htexts (path : List String) : path ∈ (expandRustUse "" argument).map pathSegments ↔
      ∃ leaf ∈ tree.leaves labelled [], leaf.shown ∧
        pathSegments (writtenPath leaf.chain) = path := by
    have hexpand : expandRustUse "" argument = shownTexts (tree.leaves labelled []) :=
      expandRustUse_eq [] h
    rw [hexpand, shownTexts, List.map_map]
    simp [and_assoc]
  constructor
  · intro hexact
    have htight : ∀ leaf ∈ tree.leaves labelled [], leaf.shown → ∀ p ∈ leaf.chain, p.Tight := by
      intro leaf hleaf hshown p hp
      by_contra hgap
      have hfound := (hexact _).mp ((htexts _).mpr ⟨leaf, hleaf, hshown, rfl⟩)
      obtain ⟨other, -, hother⟩ := List.mem_map.mp hfound
      exact pathSegments_ne_fullPath hp hgap hother.symm
    refine ⟨htight, fun leaf hleaf _ => ?_⟩
    obtain ⟨other, hother, hshown, hpath⟩ :=
      (htexts _).mp ((hexact _).mpr (List.mem_map_of_mem hleaf))
    refine ⟨other, hother, hshown, ?_⟩
    rw [← hpath, (denotes_writtenPath (htight other hother hshown)).segments]
    rfl
  · rintro ⟨htight, hglobs⟩ path
    have hread {leaf : UseLeaf} (hleaf : leaf ∈ tree.leaves labelled []) (hshown : leaf.shown) :
        pathSegments (writtenPath leaf.chain) = leaf.path :=
      (denotes_writtenPath (htight leaf hleaf hshown)).segments
    rw [htexts, List.mem_map]
    constructor
    · rintro ⟨leaf, hleaf, hshown, hpath⟩
      exact ⟨leaf, hleaf, (hread hleaf hshown).symm.trans hpath⟩
    · rintro ⟨leaf, hleaf, rfl⟩
      by_cases hshown : leaf.shown
      · exact ⟨leaf, hleaf, hshown, hread hleaf hshown⟩
      · obtain ⟨other, hother, hfound, hpath⟩ := hglobs leaf hleaf hshown
        exact ⟨other, hother, hfound, (hread hother hfound).trans hpath⟩

/-! ## A glob in a list -/

/-- A name of ASCII letters. -/
def plainName (text : String) (hne : text.toList ≠ [])
    (h : (text.toList.all fun c => c ≠ ':' && !isGapChar c) = true) : RustName where
  text := text
  ne_empty := hne
  clean c hc := by
    have hclean := List.all_eq_true.mp h c hc
    rw [Bool.and_eq_true, decide_eq_true_eq, Bool.not_eq_true'] at hclean
    exact ⟨hclean.1, Bool.eq_false_iff.mp hclean.2⟩

/-- `a`. -/
def pathA : UsePath := ⟨none, plainName "a" (by decide) (by decide), []⟩

/-- `b`. -/
def pathB : UsePath := ⟨none, plainName "b" (by decide) (by decide), []⟩

/-- `a::{b, *}`. -/
def listWithGlob : UseTree := .scoped (some pathA) [.path pathB, .glob none]

/-- The syntax tree of `a::{b, *}`. -/
def listWithGlobNode : Cst :=
  let place := (⟨0, 0, 1, 1⟩ : SourceSpan)
  .node 1 "scoped_use_list" (some "argument") true place "a::\x7bb, *\x7d"
    [.node 2 "identifier" (some "path") true place "a" [],
      .node 3 "::" none false place "::" [],
      .node 4 "use_list" (some "list") true place "\x7bb, *\x7d"
        [.node 5 "\x7b" none false place "\x7b" [], .node 6 "identifier" none true place "b" [],
          .node 7 "," none false place "," [],
          .node 8 "use_wildcard" none true place "*" [.node 9 "*" none false place "*" []],
          .node 10 "\x7d" none false place "\x7d" []]]

lemma isUse_listWithGlob : IsUse false listWithGlobNode listWithGlob := by
  refine .scoped rfl rfl ⟨by decide, by decide⟩ rfl rfl ?_
  refine .cons (.path ⟨by decide, by decide⟩) (.cons (.star rfl rfl) .nil)

theorem expandsToLeaves_iff_listWithGlob : ExpandsToLeaves false listWithGlobNode listWithGlob ↔
      (∀ leaf ∈ listWithGlob.leaves false [], leaf.shown → ∀ p ∈ leaf.chain, p.Tight) ∧
        ∀ leaf ∈ listWithGlob.leaves false [], ¬ leaf.shown →
          ∃ other ∈ listWithGlob.leaves false [], other.shown ∧ other.path = leaf.path :=
  expandsToLeaves_iff isUse_listWithGlob

/-- The module that the glob is a glob of is lost. -/
theorem listWithGlob_not_expanded :
    ¬ ExpandsToLeaves false listWithGlobNode listWithGlob := by
  intro h
  have hlost : ["a"] ∈ (expandRustUse "" listWithGlobNode).map pathSegments :=
    (h ["a"]).mpr (by decide +kernel)
  exact absurd hlost (by decide +kernel)

end Reposcout.Graph
