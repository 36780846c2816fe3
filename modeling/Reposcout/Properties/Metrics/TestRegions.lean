import Reposcout.Metrics.TestCov

/-!
# Inline test regions

The regions of a file are merged, and where no comment stands between a test-only attribute and
its item, they are the lines of the test-only items.
-/

namespace Reposcout.Metrics.TestCov

open List KeyedList

/-! ## Merged regions -/

/-- Regions in a row, neither touching nor next to each other. -/
structure MergedRegions (regions : List LineRange) : Prop where
  nonempty : ∀ range ∈ regions, 0 < range.start ∧ range.start ≤ range.stop
  gaps : regions.Pairwise fun a b => a.stop + 1 < b.start

def InRegions (regions : List LineRange) (line : ℕ) : Prop :=
  ∃ range ∈ regions, range.start ≤ line ∧ line ≤ range.stop

lemma inRegions_cons {range : LineRange} {regions : List LineRange} {line : ℕ} :
    InRegions (range :: regions) line ↔
      (range.start ≤ line ∧ line ≤ range.stop) ∨ InRegions regions line :=
  exists_mem_cons_iff _ _ _

lemma mergeFrom_spec {previous : LineRange} {ranges : List LineRange}
    (hprevious : 0 < previous.start ∧ previous.start ≤ previous.stop)
    (hfront : ∀ range ∈ ranges, previous.start ≤ range.start)
    (hsorted : ranges.Pairwise fun a b => a.start ≤ b.start)
    (hranges : ∀ range ∈ ranges, 0 < range.start ∧ range.start ≤ range.stop) :
    MergedRegions (mergeFrom previous ranges) ∧
      (∀ range ∈ mergeFrom previous ranges, previous.start ≤ range.start) ∧
      ∀ line, InRegions (mergeFrom previous ranges) line ↔
        InRegions (previous :: ranges) line := by
  induction ranges generalizing previous with
  | nil =>
    refine ⟨⟨?_, pairwise_singleton _ _⟩, ?_, fun line => Iff.rfl⟩
    · intro range hrange
      rw [mem_singleton.mp hrange]
      exact hprevious
    · intro range hrange
      rw [mem_singleton.mp hrange]
  | cons range rest ih =>
    obtain ⟨hfirst, hsorted⟩ := pairwise_cons.mp hsorted
    have hrest := fun other h => hranges other (mem_cons_of_mem range h)
    have hle := hfront range mem_cons_self
    have hrange := hranges range mem_cons_self
    rw [mergeFrom]
    split_ifs with hnext
    · let joined : LineRange := ⟨previous.start, max previous.stop range.stop⟩
      have hjoined : 0 < joined.start ∧ joined.start ≤ joined.stop :=
        ⟨hprevious.1, le_max_of_le_left hprevious.2⟩
      obtain ⟨hmerged, hstart, hlines⟩ := ih hjoined
        (fun other h => hfront other (mem_cons_of_mem range h)) hsorted hrest
      refine ⟨hmerged, hstart, fun line => ?_⟩
      rw [hlines, inRegions_cons, inRegions_cons, inRegions_cons, ← or_assoc]
      apply or_congr_left
      have hstop : joined.stop = max previous.stop range.stop := rfl
      have hfirst : joined.start = previous.start := rfl
      omega
    · obtain ⟨hmerged, hstart, hlines⟩ := ih hrange hfirst hsorted hrest
      refine ⟨⟨?_, ?_⟩, ?_, ?_⟩
      · intro other hother
        rcases mem_cons.mp hother with rfl | hother
        · exact hprevious
        · exact hmerged.nonempty other hother
      · rw [pairwise_cons]
        refine ⟨fun other hother => ?_, hmerged.gaps⟩
        have hbehind := hstart other hother
        omega
      · intro other hother
        rcases mem_cons.mp hother with rfl | hother
        · exact Nat.le_refl _
        · exact hle.trans (hstart other hother)
      · intro line
        rw [inRegions_cons, hlines]
        exact inRegions_cons.symm

/-- **Merging keeps the lines**, and leaves gaps between the ranges. -/
lemma mergeLineRanges_spec {ranges : List LineRange}
    (h : ∀ range ∈ ranges, 0 < range.start ∧ range.start ≤ range.stop) :
    MergedRegions (mergeLineRanges ranges) ∧
      ∀ line, InRegions (mergeLineRanges ranges) line ↔ InRegions ranges line := by
  have htrans : Std.TransCmp compareRanges :=
    inferInstanceAs (Std.TransCmp
      (compareLex (compareOn LineRange.start) (compareOn LineRange.stop)))
  have hmem : ∀ range, range ∈ sortBy compareRanges ranges ↔ range ∈ ranges :=
    fun range => mem_sortBy
  have hsorted : (sortBy compareRanges ranges).Pairwise
      fun a b => a.start ≤ b.start := by
    apply (pairwise_sortBy compareRanges ranges).imp
    intro a b hle
    by_contra hlt
    apply hle
    have hgt : compare a.start b.start = .gt := Nat.compare_eq_gt.mpr (by omega)
    rw [compareRanges, compareLex, compareOn, hgt]
    rfl
  have hlines : ∀ line, InRegions (sortBy compareRanges ranges) line ↔
      InRegions ranges line := fun line => exists_congr fun range => and_congr_left' (hmem range)
  rw [mergeLineRanges]
  cases hranges : sortBy compareRanges ranges with
  | nil =>
    rw [hranges] at hlines
    exact ⟨⟨nofun, Pairwise.nil⟩, hlines⟩
  | cons first rest =>
    rw [hranges] at hlines hsorted
    have hall : ∀ range ∈ first :: rest, 0 < range.start ∧ range.start ≤ range.stop :=
      fun range hrange => h range ((hmem range).mp (hranges ▸ hrange))
    obtain ⟨hfront, hsorted⟩ := pairwise_cons.mp hsorted
    obtain ⟨hmerged, -, hlines'⟩ := mergeFrom_spec (hall first mem_cons_self) hfront hsorted
      fun range hrange => hall range (mem_cons_of_mem first hrange)
    exact ⟨hmerged, fun line => (hlines' line).trans (hlines line)⟩

/-! ## Places -/

/-- A named node of a tree. -/
def Within (root node : Cst) : Prop := ∃ ancestors, ⟨node, ancestors⟩ ∈ root.preorder []

lemma preorderList_eq (ancestors : List Cst) (trees : List Cst) :
    Cst.preorderList ancestors trees =
      (trees.filter Cst.isNamed).flatMap (Cst.preorder ancestors) := by
  induction trees with
  | nil => rfl
  | cons child rest ih =>
    rw [Cst.preorderList, ih]
    by_cases hnamed : child.isNamed
    · rw [if_pos hnamed, filter_cons_of_pos hnamed, flatMap_cons]
    · rw [if_neg hnamed, filter_cons_of_neg hnamed, nil_append]

lemma preorder_eq (ancestors : List Cst) (tree : Cst) : tree.preorder ancestors =
      ⟨tree, ancestors⟩ :: tree.namedChildren.flatMap (Cst.preorder (tree :: ancestors)) := by
  cases tree with
  | node => exact congrArg _ (preorderList_eq _ _)

variable {ancestors : List (Cst × List Cst)}

lemma mem_placesList {trees : List Cst} {place : Place} :
    place ∈ placesList ancestors trees ↔ ∃ front child rest, trees = front ++ child :: rest ∧
      child.isNamed ∧ place ∈ places rest ancestors child := by
  induction trees with
  | nil => simp [placesList]
  | cons first rest ih =>
    rw [placesList, mem_append, ih]
    constructor
    · rintro (⟨front, child, back, rfl, hnamed, hplace⟩ | hplace)
      · exact ⟨first :: front, child, back, rfl, hnamed, hplace⟩
      · split_ifs at hplace with hnamed
        · exact ⟨[], first, rest, rfl, hnamed, hplace⟩
        · cases hplace
    · rintro ⟨front, child, back, hsplit, hnamed, hplace⟩
      rcases front with _ | ⟨other, front⟩
      · cases hsplit
        rw [if_pos hnamed]
        exact .inr hplace
      · cases hsplit
        exact .inl ⟨front, child, back, rfl, hnamed, hplace⟩

lemma places_eq (next : List Cst) (ancestors : List (Cst × List Cst)) (tree : Cst) :
    places next ancestors tree =
      ⟨tree, next, ancestors⟩ :: placesList ((tree, next) :: ancestors) tree.children := by
  cases tree with
  | node => rfl

def Place.IsChild (parent child : Place) : Prop :=
  (∃ front, parent.tree.children = front ++ child.tree :: child.next) ∧ child.tree.isNamed ∧
    child.ancestors = (parent.tree, parent.next) :: parent.ancestors

lemma mem_places {tree : Cst} {next : List Cst} {place : Place} :
    place ∈ places next ancestors tree ↔ place = ⟨tree, next, ancestors⟩ ∨
      ∃ parent ∈ places next ancestors tree, parent.IsChild place := by
  induction tree using Cst.induction_children generalizing next ancestors with
  | step tree ih =>
    constructor
    · intro hplace
      rw [places_eq, mem_cons, mem_placesList] at hplace
      rcases hplace with rfl | ⟨front, child, rest, hsplit, hnamed, hplace⟩
      · exact .inl rfl
      · right
        have hchild : child ∈ tree.children :=
          hsplit ▸ mem_append_right front mem_cons_self
        rcases (ih child hchild).mp hplace with rfl | ⟨parent, hparent, hbelow⟩
        · refine ⟨⟨tree, next, ancestors⟩, ?_, ⟨front, hsplit⟩, hnamed, rfl⟩
          rw [places_eq]
          exact mem_cons_self
        · refine ⟨parent, ?_, hbelow⟩
          rw [places_eq, mem_cons, mem_placesList]
          exact .inr ⟨front, child, rest, hsplit, hnamed, hparent⟩
    · rintro (rfl | ⟨parent, hparent, hbelow⟩)
      · rw [places_eq]
        exact mem_cons_self
      · rw [places_eq, mem_cons, mem_placesList] at hparent
        rw [places_eq, mem_cons, mem_placesList]
        right
        rcases hparent with rfl | ⟨front, child, rest, hsplit, hnamed, hparent⟩
        · obtain ⟨⟨front, hsplit⟩, hnamed, hancestors⟩ := hbelow
          refine ⟨front, place.tree, place.next, hsplit, hnamed, ?_⟩
          rw [places_eq, ← hancestors]
          exact mem_cons_self
        · have hchild : child ∈ tree.children :=
            hsplit ▸ mem_append_right front mem_cons_self
          exact ⟨front, child, rest, hsplit, hnamed,
            (ih child hchild).mpr (.inr ⟨parent, hparent, hbelow⟩)⟩

variable {node : Cst}

lemma exists_place {tree : Cst} {next : List Cst} {above : List Cst} :
    (∃ place ∈ places next ancestors tree, place.tree = node) ↔
      ∃ path, ⟨node, path⟩ ∈ tree.preorder above := by
  induction tree using Cst.induction_children generalizing next ancestors above with
  | step tree ih =>
    constructor
    · rintro ⟨place, hplace, rfl⟩
      rw [places_eq, mem_cons, mem_placesList] at hplace
      rcases hplace with rfl | ⟨front, child, rest, hsplit, hnamed, hplace⟩
      · rw [preorder_eq]
        exact ⟨above, mem_cons_self⟩
      · have hchild : child ∈ tree.children :=
          hsplit ▸ mem_append_right front mem_cons_self
        have hbelow : ∃ path, ⟨place.tree, path⟩ ∈ child.preorder (tree :: above) :=
          (ih child hchild).mp ⟨place, hplace, rfl⟩
        obtain ⟨path, hpath⟩ := hbelow
        rw [preorder_eq]
        exact ⟨path, mem_cons_of_mem _ (mem_flatMap.mpr
          ⟨child, mem_filter.mpr ⟨hchild, hnamed⟩, hpath⟩)⟩
    · rintro ⟨path, hpath⟩
      rw [preorder_eq, mem_cons, mem_flatMap] at hpath
      rcases hpath with hpath | ⟨child, hchild, hpath⟩
      · obtain rfl : node = tree := congrArg Node.tree hpath
        refine ⟨⟨node, next, ancestors⟩, ?_, rfl⟩
        rw [places_eq]
        exact mem_cons_self
      · obtain ⟨hmem, hnamed⟩ := mem_filter.mp hchild
        obtain ⟨front, rest, hsplit⟩ := append_of_mem hmem
        have hbelow : ∃ place ∈ places rest ((tree, next) :: ancestors) child, place.tree = node :=
          (ih child hmem).mpr ⟨path, hpath⟩
        obtain ⟨place, hplace, rfl⟩ := hbelow
        refine ⟨place, ?_, rfl⟩
        rw [places_eq, mem_cons, mem_placesList]
        exact .inr ⟨front, child, rest, hsplit, hnamed, hplace⟩

variable {root : Cst}

lemma within_iff :
    Within root node ↔ ∃ place ∈ places [] [] root, place.tree = node :=
  exists_place.symm

/-! ## Attributes -/

def TestOnly (root item attr : Cst) (behind : List Cst) : Prop :=
  (∃ parent front, Within root parent ∧ parent.namedChildren = front ++ item :: behind) ∧
    item.kind = "attribute_item" ∧ attr ∈ item.namedChildren ∧
    attr.kind = "attribute" ∧ isTestOnlyAttribute attr

/-- What follows the attribute items, perhaps a comment. -/
def follower (behind : List Cst) : Option Cst :=
  behind.find? fun sibling => sibling.kind ≠ "attribute_item"

def isComment (node : Cst) : Bool := node.kind = "line_comment" || node.kind = "block_comment"

/-- What the attributes are on: the first sibling that is neither one of them nor a comment. -/
def carrier (behind : List Cst) : Option Cst :=
  behind.find? fun sibling => sibling.kind ≠ "attribute_item" && !isComment sibling

/-- A line from a test-only attribute to what follows the attribute items. -/
def Reached (root : Cst) (line : ℕ) : Prop :=
  ∃ item attr behind next, TestOnly root item attr behind ∧
    follower behind = some next ∧ attr.span.startLine ≤ line ∧ line ≤ next.span.endLine

lemma attributedItem_eq {parent place : Place} (h : parent.IsChild place) :
    attributedItem place = if parent.tree.kind = "attribute_item" then
      follower (parent.next.filter Cst.isNamed) else none := by
  rw [attributedItem, h.2.2]
  rfl

lemma Place.IsChild.namedChildren {parent child : Place} (h : parent.IsChild child) :
    ∃ front, parent.tree.namedChildren =
      front ++ child.tree :: child.next.filter Cst.isNamed := by
  obtain ⟨⟨front, hsplit⟩, hnamed, -⟩ := h
  refine ⟨front.filter Cst.isNamed, ?_⟩
  rw [Cst.namedChildren, hsplit, filter_append, filter_cons_of_pos hnamed]

variable {behind : List Cst}

lemma exists_isChild {root child : Cst} {above : Place} {front : List Cst}
    (habove : above ∈ places [] [] root) (h : above.tree.namedChildren = front ++ child :: behind) :
    ∃ place ∈ places [] [] root, above.IsChild place ∧ place.tree = child ∧
      place.next.filter Cst.isNamed = behind := by
  obtain ⟨before, rest, hsplit, -, hrest⟩ := filter_eq_append_iff.mp h
  obtain ⟨skipped, after, rfl, -, hnamed, hafter⟩ := filter_eq_cons_iff.mp hrest
  let place : Place := ⟨child, after, (above.tree, above.next) :: above.ancestors⟩
  have hchild : above.IsChild place :=
    ⟨⟨before ++ skipped, by rw [hsplit, append_assoc]⟩, hnamed, rfl⟩
  exact ⟨place, mem_places.mpr (.inr ⟨above, habove, hchild⟩), hchild, rfl, hafter⟩

/-- **The ranges in front of the merging** are those from a test-only attribute to what follows. -/
lemma mem_testOnlyRanges {range : LineRange} :
    range ∈ (places [] [] root).filterMap testOnlyRange ↔
      ∃ item attr behind next, TestOnly root item attr behind ∧ follower behind = some next ∧
        ⟨attr.span.startLine, next.span.endLine⟩ = range := by
  rw [mem_filterMap]
  constructor
  · rintro ⟨place, hplace, hrange⟩
    rw [testOnlyRange] at hrange
    split_ifs at hrange with hattr
    rw [Bool.and_eq_true, decide_eq_true_eq] at hattr
    obtain ⟨next, hnext, rfl⟩ := Option.map_eq_some_iff.mp hrange
    rcases mem_places.mp hplace with rfl | ⟨item, hitem, hchild⟩
    · cases hnext
    · rw [attributedItem_eq hchild] at hnext
      split_ifs at hnext with hkind
      obtain ⟨front, hchildren⟩ := hchild.namedChildren
      have hmem : place.tree ∈ item.tree.namedChildren :=
        hchildren ▸ mem_append_right front mem_cons_self
      rcases mem_places.mp hitem with rfl | ⟨parent, hparent, habove⟩
      · cases hnext
      · obtain ⟨before, habove⟩ := habove.namedChildren
        exact ⟨item.tree, place.tree, item.next.filter Cst.isNamed, next, ⟨⟨parent.tree, before,
          within_iff.mpr ⟨parent, hparent, rfl⟩, habove⟩, hkind, hmem, hattr⟩, hnext, rfl⟩
  · rintro ⟨item, attr, behind, next, ⟨⟨parent, front, hparent, hchildren⟩, hkind, hmem, hattr⟩,
      hnext, rfl⟩
    obtain ⟨above, habove, rfl⟩ := within_iff.mp hparent
    obtain ⟨place, hplace, -, rfl, rfl⟩ := exists_isChild habove hchildren
    obtain ⟨before, after, hsplit⟩ := append_of_mem hmem
    obtain ⟨own, hown, hchild, rfl, -⟩ := exists_isChild hplace hsplit
    refine ⟨own, hown, ?_⟩
    rw [testOnlyRange, attributedItem_eq hchild, if_pos hkind, hnext, hattr.1, hattr.2]
    rfl

lemma inRegions_testOnlyRanges {line : ℕ} :
    InRegions ((places [] [] root).filterMap testOnlyRange) line ↔ Reached root line := by
  constructor
  · rintro ⟨range, hrange, hline⟩
    obtain ⟨item, attr, behind, next, hattr, hnext, rfl⟩ := mem_testOnlyRanges.mp hrange
    exact ⟨item, attr, behind, next, hattr, hnext, hline⟩
  · rintro ⟨item, attr, behind, next, hattr, hnext, hline⟩
    exact ⟨_, mem_testOnlyRanges.mpr ⟨item, attr, behind, next, hattr, hnext, rfl⟩, hline⟩

/-! ## Regions -/

/-- The lines of a tree, as its nodes have them. -/
structure Laid (root : Cst) : Prop where
  positive : 0 < root.span.startLine
  ordered : ∀ node, Within root node → node.span.startLine ≤ node.span.endLine
  inside : ∀ parent, Within root parent → ∀ child ∈ parent.namedChildren,
    parent.span.startLine ≤ child.span.startLine ∧ child.span.endLine ≤ parent.span.endLine
  siblings : ∀ parent, Within root parent →
    parent.namedChildren.Pairwise fun a b => a.span.endLine ≤ b.span.startLine

lemma laid_iff : Laid root ↔ 0 < root.span.startLine ∧ ∀ place ∈ root.preorder [],
      place.span.startLine ≤ place.span.endLine ∧
      (∀ child ∈ place.tree.namedChildren, place.span.startLine ≤ child.span.startLine ∧
        child.span.endLine ≤ place.span.endLine) ∧
      place.tree.namedChildren.Pairwise fun a b => a.span.endLine ≤ b.span.startLine := by
  constructor
  · intro h
    refine ⟨h.positive, fun place hplace => ?_⟩
    have hwithin : Within root place.tree := ⟨place.ancestors, hplace⟩
    exact ⟨h.ordered place.tree hwithin, h.inside place.tree hwithin, h.siblings place.tree hwithin⟩
  · rintro ⟨hpositive, hall⟩
    constructor
    · exact hpositive
    · exact fun node ⟨path, hpath⟩ => (hall _ hpath).1
    · exact fun node ⟨path, hpath⟩ => (hall _ hpath).2.1
    · exact fun node ⟨path, hpath⟩ => (hall _ hpath).2.2

instance : DecidablePred Laid := fun _ => decidable_of_iff _ laid_iff.symm

def itemKinds : List String :=
  ["const_item", "enum_item", "extern_crate_declaration", "foreign_mod_item", "function_item",
    "function_signature_item", "impl_item", "macro_definition", "macro_invocation", "mod_item",
    "static_item", "struct_item", "trait_item", "type_item", "union_item", "use_declaration",
    "associated_type"]

/-- A line from a test-only attribute, its brackets included, to the end of what it is on. -/
def OnTestOnly (root : Cst) (line : ℕ) : Prop :=
  ∃ item attr behind carried, TestOnly root item attr behind ∧
    carrier behind = some carried ∧ item.span.startLine ≤ line ∧ line ≤ carried.span.endLine

/-- An item outside of everything that is test-only. -/
def IsProduction (root node : Cst) : Prop :=
  Within root node ∧ node.kind ∈ itemKinds ∧ ∀ item attr behind carried,
    TestOnly root item attr behind → carrier behind = some carried → ¬Within carried node

structure Cover (root : Cst) (regions : List LineRange) : Prop where
  items : ∀ line, OnTestOnly root line → InRegions regions line
  merged : MergedRegions regions
  production : ∀ node, IsProduction root node → ∀ line,
    node.span.startLine ≤ line → line ≤ node.span.endLine → ¬OnTestOnly root line →
      ¬InRegions regions line

/-- The trees whose comments take nothing away: the lines of a test-only item in front of its
attribute or behind a comment that follows the attributes are reached from other attributes, and
attributes in front of a comment alone are not on the lines of production items. -/
structure Commented (root : Cst) : Prop where
  behind : ∀ item attr behind carried, TestOnly root item attr behind →
    carrier behind = some carried → ∀ line, item.span.startLine ≤ line →
      line ≤ carried.span.endLine → (line < attr.span.startLine ∨
        ∃ next, follower behind = some next ∧ next.span.endLine < line) → Reached root line
  dangling : ∀ item attr behind next, TestOnly root item attr behind →
    carrier behind = none → follower behind = some next → ∀ line,
      attr.span.startLine ≤ line → line ≤ next.span.endLine → ∀ node,
        IsProduction root node → node.span.startLine ≤ line → line ≤ node.span.endLine →
          OnTestOnly root line

lemma Within.child {root parent child : Cst} (hparent : Within root parent)
    (h : child ∈ parent.namedChildren) : Within root child := by
  obtain ⟨above, habove, rfl⟩ := within_iff.mp hparent
  obtain ⟨front, behind, hsplit⟩ := append_of_mem h
  obtain ⟨place, hplace, -, rfl, -⟩ := exists_isChild habove hsplit
  exact within_iff.mpr ⟨place, hplace, rfl⟩

lemma Within.induction {P : Cst → Prop} (hroot : P root)
    (hchild : ∀ parent, Within root parent → P parent → ∀ child ∈ parent.namedChildren, P child)
    {node : Cst} (h : Within root node) : P node := by
  have hbelow : ∀ (tree : Cst) (ancestors path : List Cst), Within root tree → P tree →
      ⟨node, path⟩ ∈ tree.preorder ancestors → P node := by
    intro tree
    induction tree using Cst.induction_children with
    | step tree ih =>
      intro ancestors path hwithin htree hmem
      rw [preorder_eq, mem_cons, mem_flatMap] at hmem
      rcases hmem with hmem | ⟨child, hmem, hpath⟩
      · obtain rfl : node = tree := congrArg Node.tree hmem
        exact htree
      · exact ih child (mem_filter.mp hmem).1 _ path (hwithin.child hmem)
          (hchild tree hwithin htree child hmem) hpath
  obtain ⟨path, hpath⟩ := h
  refine hbelow root [] path ⟨[], ?_⟩ hroot hpath
  rw [preorder_eq]
  exact mem_cons_self

lemma Laid.startLine_pos (h : Laid root) (hnode : Within root node) :
    0 < node.span.startLine := by
  have hle : root.span.startLine ≤ node.span.startLine := by
    apply hnode.induction (P := fun node => root.span.startLine ≤ node.span.startLine)
    · exact Nat.le_refl _
    intro parent hparent hle child hchild
    exact hle.trans (h.inside parent hparent child hchild).1
  exact Nat.lt_of_lt_of_le h.positive hle

/-- An attribute starts with its brackets or behind them, and what is behind them comes later. -/
lemma Laid.testOnly (h : Laid root) {item attr : Cst} (hattr : TestOnly root item attr behind) :
    0 < attr.span.startLine ∧ item.span.startLine ≤ attr.span.startLine ∧
      (∀ next ∈ behind, attr.span.startLine ≤ next.span.endLine) ∧
      behind.Pairwise fun a b => a.span.endLine ≤ b.span.endLine := by
  obtain ⟨⟨parent, front, hparent, hchildren⟩, -, hmem, -⟩ := hattr
  have hitem : Within root item := hparent.child (hchildren ▸ mem_append_right front
    mem_cons_self)
  obtain ⟨hstart, hend⟩ := h.inside item hitem attr hmem
  have hordered := h.ordered attr (hitem.child hmem)
  have hsiblings := (pairwise_append.mp (hchildren ▸ h.siblings parent hparent)).2.1
  obtain ⟨hnext, hbehind⟩ := pairwise_cons.mp hsiblings
  have hwithin : ∀ next ∈ behind, Within root next := fun next hnext =>
    hparent.child (hchildren ▸ mem_append_right front (mem_cons_of_mem item hnext))
  refine ⟨h.startLine_pos (hitem.child hmem), hstart, ?_, ?_⟩
  · intro next hmem
    have hafter := hnext next hmem
    have hown := h.ordered next (hwithin next hmem)
    omega
  · apply hbehind.imp_of_mem
    intro a b _ hb hle
    exact hle.trans (h.ordered b (hwithin b hb))

lemma Laid.testOnlyRanges (h : Laid root) :
    ∀ range ∈ (places [] [] root).filterMap testOnlyRange,
      0 < range.start ∧ range.start ≤ range.stop := by
  intro range hrange
  obtain ⟨item, attr, behind, next, hattr, hnext, rfl⟩ := mem_testOnlyRanges.mp hrange
  obtain ⟨hpos, -, hbehind, -⟩ := h.testOnly hattr
  exact ⟨hpos, hbehind next (mem_of_find?_eq_some hnext)⟩

/-- What follows the attributes is what they are on, or a comment in front of it. -/
lemma follower_of_carrier {carried : Cst} (h : carrier behind = some carried) :
    ∃ next, follower behind = some next ∧ ∀ R : Cst → Cst → Prop, behind.Pairwise R →
      next = carried ∨ R next carried := by
  induction behind with
  | nil => cases h
  | cons sibling rest ih =>
    by_cases hattr : sibling.kind = "attribute_item"
    · have hcarrier : carrier (sibling :: rest) = carrier rest := by
        rw [carrier, find?_cons_of_neg (by simp [hattr])]
        rfl
      obtain ⟨next, hnext, hR⟩ := ih (hcarrier ▸ h)
      refine ⟨next, ?_, fun R hpairwise => hR R (pairwise_cons.mp hpairwise).2⟩
      rw [follower, find?_cons_of_neg (by simp [hattr])]
      exact hnext
    · refine ⟨sibling, ?_, ?_⟩
      · rw [follower, find?_cons_of_pos (by simp [hattr])]
      · intro R hpairwise
        rw [carrier, find?_cons] at h
        split at h
        · exact .inl (Option.some.inj h)
        · exact .inr ((pairwise_cons.mp hpairwise).1 carried (mem_of_find?_eq_some h))

/-- **The regions of a file** are its test-only items exactly if comments take nothing away. -/
theorem inlineRustTestRegions_cover_iff {root : Cst} (h : Laid root) :
    Cover root (inlineRustTestRegions root) ↔ Commented root := by
  obtain ⟨hmerged, hlines⟩ := mergeLineRanges_spec h.testOnlyRanges
  have hregions : ∀ line, InRegions (inlineRustTestRegions root) line ↔ Reached root line :=
    fun line => (hlines line).trans inRegions_testOnlyRanges
  constructor
  · intro hcover
    constructor
    · intro item attr behind carried hattr hcarried line hstart hend _
      exact (hregions line).mp
        (hcover.items line ⟨item, attr, behind, carried, hattr, hcarried, hstart, hend⟩)
    · intro item attr behind next hattr _ hnext line hstart hend node hnode hfirst hlast
      by_contra hoff
      exact hcover.production node hnode line hfirst hlast hoff
        ((hregions line).mpr ⟨item, attr, behind, next, hattr, hnext, hstart, hend⟩)
  · intro hcommented
    refine ⟨?_, hmerged, ?_⟩
    · rintro line ⟨item, attr, behind, carried, hattr, hcarried, hstart, hend⟩
      rw [hregions]
      obtain ⟨next, hnext, -⟩ := follower_of_carrier hcarried
      by_cases hin : attr.span.startLine ≤ line ∧ line ≤ next.span.endLine
      · exact ⟨item, attr, behind, next, hattr, hnext, hin⟩
      · apply hcommented.behind item attr behind carried hattr hcarried line hstart hend
        by_cases hbefore : line < attr.span.startLine
        · exact .inl hbefore
        · exact .inr ⟨next, hnext, by omega⟩
    · rintro node hnode line hfirst hlast hoff hregion
      obtain ⟨item, attr, behind, next, hattr, hnext, hstart, hend⟩ := (hregions line).mp hregion
      apply hoff
      cases hcarried : carrier behind with
      | none =>
        exact hcommented.dangling item attr behind next hattr hcarried hnext line hstart hend node
          hnode hfirst hlast
      | some carried =>
        obtain ⟨-, hitem, -, hpairwise⟩ := h.testOnly hattr
        obtain ⟨next', hnext', hbehind⟩ := follower_of_carrier hcarried
        cases hnext.symm.trans hnext'
        refine ⟨item, attr, behind, carried, hattr, hcarried, hitem.trans hstart, hend.trans ?_⟩
        rcases hbehind _ hpairwise with rfl | hle
        · exact Nat.le_refl _
        · exact hle

/-! ## Two files -/

/-- `#[test]` on a line. -/
def testAttribute (line : ℕ) : Cst :=
  .node 1 "attribute_item" none true ⟨0, 0, line, line⟩ "#[test]" [name]
where
  name : Cst := .node 2 "attribute" none true ⟨0, 0, line, line⟩ "test"
    [.node 3 "identifier" none true ⟨0, 0, line, line⟩ "test" []]

/-- A function over two lines. -/
def testFunction (line : ℕ) : Cst :=
  .node 4 "function_item" none true ⟨0, 0, line, line + 1⟩ "fn works() \x7b\n\x7d" []

/-- A test behind its attribute. -/
theorem inlineRustTestRegions_cover_iff_adjacent :
    let root : Cst := .node 0 "source_file" none true ⟨0, 0, 1, 3⟩ ""
      [testAttribute 1, testFunction 2]
    Cover root (inlineRustTestRegions root) ↔ Commented root :=
  inlineRustTestRegions_cover_iff (by decide +kernel)

/-- **A comment hides a test**: of `#[test]`, a comment and the function, each on a line of its
own, the lines of the function are in no region. -/
theorem inlineRustTestRegions_comment :
    ¬ ∀ root : Cst, Laid root → Cover root (inlineRustTestRegions root) := by
  intro h
  let comment : Cst := .node 5 "line_comment" none true ⟨0, 0, 2, 2⟩ "// works" []
  let root : Cst := .node 0 "source_file" none true ⟨0, 0, 1, 4⟩ ""
    [testAttribute 1, comment, testFunction 3]
  have hcover := h root (by decide +kernel)
  have htest : TestOnly root (testAttribute 1) (testAttribute.name 1)
      [comment, testFunction 3] :=
    ⟨⟨root, [], ⟨[], mem_cons_self⟩, rfl⟩, rfl, mem_cons_self, rfl, by decide +kernel⟩
  have hregion := hcover.items 3
    ⟨_, _, _, testFunction 3, htest, rfl, by decide +kernel, by decide +kernel⟩
  have hregions : inlineRustTestRegions root = [⟨1, 2⟩] := by decide +kernel
  obtain ⟨range, hrange, hline⟩ := hregion
  rw [hregions, mem_singleton] at hrange
  subst hrange
  exact nomatch hline.2

end Reposcout.Metrics.TestCov
