import Mathlib.Data.Set.Card
import Reposcout.Dup.Coverage

/-!
# Covered lines and tokens

A set of intervals stays in order with gaps, and counts the numbers that were put into it.
-/

namespace Reposcout.Dup

open Intervals List KeyedList

namespace IntervalSet

def points (set : IntervalSet) : Finset ℕ := Intervals.points set.intervals

/-- The intervals are merged, and counted. -/
structure WellFormed (set : IntervalSet) : Prop where
  spaced : Spaced set.intervals
  covered_eq : set.covered = set.points.card

lemma wellFormed_empty : empty.WellFormed := ⟨Spaced.nil, rfl⟩

/-- The range with what it meets, and what is left behind it. -/
lemma absorb_spec {range : Interval} {covered base : ℕ} {l : List Interval}
    (hrange : range.1 < range.2) (hl : Spaced l) (hreach : ∀ e ∈ l, range.1 ≤ e.2)
    (hcovered : covered = base + (l.map fun e => e.2 - e.1).sum) :
    Spaced ((absorb range covered l).1 :: (absorb range covered l).2.2) ∧
      Intervals.points ((absorb range covered l).1 :: (absorb range covered l).2.2) =
        Finset.Ico range.1 range.2 ∪ Intervals.points l ∧
      (absorb range covered l).2.1 =
        base + ((absorb range covered l).2.2.map fun e => e.2 - e.1).sum ∧
      ∀ n, n < range.1 → (∀ e ∈ l, n < e.1) → n < (absorb range covered l).1.1 := by
  induction l generalizing range covered with
  | nil =>
    refine ⟨⟨?_, pairwise_singleton _ _⟩, rfl, hcovered, fun n hn _ => hn⟩
    intro r hr
    rw [mem_singleton.mp hr]
    exact hrange
  | cons e rest ih =>
    have he := hl.nonempty e mem_cons_self
    have hmeet := hreach e mem_cons_self
    rw [absorb]
    split_ifs with hle
    · have hnext : (min range.1 e.1, max range.2 e.2).1 < (min range.1 e.1, max range.2 e.2).2 := by
        omega
      have hreach' : ∀ e' ∈ rest, (min range.1 e.1, max range.2 e.2).1 ≤ e'.2 := by
        intro e' he'
        have hlt := hl.lt he'
        have hlt' := hl.nonempty e' (mem_cons_of_mem e he')
        omega
      rw [map_cons, sum_cons] at hcovered
      have hleft : covered - (e.2 - e.1) = base + (rest.map fun e => e.2 - e.1).sum := by omega
      obtain ⟨hspaced, hpoints, hcount, hbound⟩ := ih hnext hl.tail hreach' hleft
      refine ⟨hspaced, ?_, hcount, ?_⟩
      · rw [hpoints, points_cons, ← Finset.union_assoc]
        congr 1
        ext n
        simp only [Finset.mem_union, Finset.mem_Ico]
        omega
      · intro n hn hn'
        refine hbound n ?_ fun e' he' => hn' e' (mem_cons_of_mem e he')
        have hlt := hn' e mem_cons_self
        omega
    · refine ⟨⟨?_, ?_⟩, rfl, hcovered, fun n hn _ => hn⟩
      · intro r hr
        rcases mem_cons.mp hr with rfl | hr
        · exact hrange
        · exact hl.nonempty r hr
      · rw [pairwise_cons]
        refine ⟨?_, hl.gaps⟩
        intro r hr
        have hgap : range.2 < e.1 := by omega
        rcases mem_cons.mp hr with rfl | hr
        · exact hgap
        · have hlt := hl.lt hr
          exact hgap.trans (he.trans hlt)

lemma reach_of_mem_dropWhile {l : List Interval} (h : Spaced l) {start : ℕ} {e : Interval}
    (he : e ∈ l.dropWhile fun existing => existing.2 < start) : start ≤ e.2 := by
  induction l with
  | nil => cases he
  | cons first rest ih =>
    rw [dropWhile_cons] at he
    split_ifs at he with hlt
    · exact ih h.tail he
    · have hle : start ≤ first.2 := by simpa using hlt
      rcases mem_cons.mp he with rfl | he
      · exact hle
      · have hgap := h.lt he
        have hne := h.nonempty e (mem_cons_of_mem first he)
        omega

/-- **Inserting a range adds its numbers** and keeps the set in order. -/
lemma insert_spec {set : IntervalSet} (h : set.WellFormed) (range : Interval) :
    (set.insert range).WellFormed ∧
      (set.insert range).points = set.points ∪ Finset.Ico range.1 range.2 := by
  by_cases hempty : range.2 ≤ range.1
  · rw [insert, if_pos hempty, Finset.Ico_eq_empty (by omega), Finset.union_empty]
    exact ⟨h, rfl⟩
  · let before := set.intervals.takeWhile fun existing => existing.2 < range.1
    let rest := set.intervals.dropWhile fun existing => existing.2 < range.1
    have hsplit : before ++ rest = set.intervals := takeWhile_append_dropWhile
    have hspaced : Spaced (before ++ rest) := hsplit ▸ h.spaced
    have hgaps := pairwise_append.mp hspaced.gaps
    have hrest : Spaced rest :=
      ⟨fun r hr => hspaced.nonempty r (mem_append_right before hr), hgaps.2.1⟩
    have hbefore : ∀ r ∈ before, r.2 < range.1 := by
      intro r hr
      simpa using mem_takeWhile_imp hr
    have hcovered : set.covered =
        (before.map fun e => e.2 - e.1).sum + (rest.map fun e => e.2 - e.1).sum := by
      rw [h.covered_eq, points, h.spaced.card_points, ← hsplit, map_append, sum_append]
    obtain ⟨hmerged, hpoints, hcount, hbound⟩ := absorb_spec (by omega) hrest
      (fun e he => reach_of_mem_dropWhile h.spaced he) hcovered
    have hfront : ∀ r ∈ before, r.2 < (absorb range set.covered rest).1.1 := fun r hr =>
      hbound r.2 (hbefore r hr) fun e he => hgaps.2.2 r hr e he
    have hspaced' : Spaced (before ++
        (absorb range set.covered rest).1 :: (absorb range set.covered rest).2.2) := by
      refine ⟨?_, pairwise_append.mpr ⟨hgaps.1, hmerged.gaps, ?_⟩⟩
      · intro r hr
        rcases mem_append.mp hr with hr | hr
        · exact hspaced.nonempty r (mem_append_left rest hr)
        · exact hmerged.nonempty r hr
      · intro r hr s hs
        have hlt := hfront r hr
        rcases mem_cons.mp hs with rfl | hs
        · exact hlt
        · have hgap := hmerged.lt hs
          have hne := hmerged.nonempty _ mem_cons_self
          omega
    have hinsert : set.insert range = ⟨before ++
        (absorb range set.covered rest).1 :: (absorb range set.covered rest).2.2,
        (absorb range set.covered rest).2.1 + ((absorb range set.covered rest).1.2 -
          (absorb range set.covered rest).1.1)⟩ := by
      rw [insert, if_neg hempty]
    rw [hinsert]
    refine ⟨⟨hspaced', ?_⟩, ?_⟩
    · rw [points, hspaced'.card_points, map_append, sum_append, map_cons, sum_cons]
      dsimp only
      omega
    · rw [points, points, points_append, hpoints, ← hsplit, points_append, Finset.union_comm
        (Finset.Ico range.1 range.2), Finset.union_assoc]

/-- The set after a sequence of insertions. -/
def ofRanges (ranges : List Interval) : IntervalSet := ranges.foldl insert empty

variable (ranges : List Interval)

lemma foldl_insert_spec {set : IntervalSet} (h : set.WellFormed) :
    (ranges.foldl insert set).WellFormed ∧
      (ranges.foldl insert set).points = set.points ∪ Intervals.points ranges := by
  induction ranges generalizing set with
  | nil => exact ⟨h, (Finset.union_empty _).symm⟩
  | cons range rest ih =>
    obtain ⟨hset, hpoints⟩ := insert_spec h range
    obtain ⟨hrest, hunion⟩ := ih hset
    refine ⟨hrest, ?_⟩
    rw [foldl_cons, hunion, hpoints, points_cons, Finset.union_assoc]

/-- The count is the number of the points of the ranges, whatever their order. -/
lemma len_ofRanges : (ofRanges ranges).len = (Intervals.points ranges).card := by
  obtain ⟨hset, hpoints⟩ := foldl_insert_spec ranges wellFormed_empty
  have hunion : (ofRanges ranges).points = Intervals.points ranges := by
    rw [ofRanges, hpoints]
    exact Finset.empty_union _
  rw [← hunion]
  exact hset.covered_eq

end IntervalSet

/-! ## Coverage -/

def pointsAt (path : PathBuf) (sets : List (PathBuf × IntervalSet)) : Finset ℕ :=
  ((get? path sets).map IntervalSet.points).getD ∅

structure SetsOk (sets : List (PathBuf × IntervalSet)) : Prop where
  nodup : (KeyedList.keys sets).Nodup
  wellFormed : ∀ entry ∈ sets, entry.2.WellFormed

lemma setsOk_nil : SetsOk [] := ⟨nodup_nil, nofun⟩

open IntervalSet

lemma SetsOk.len_eq {sets : List (PathBuf × IntervalSet)} (h : SetsOk sets) (path : PathBuf) :
    ((get? path sets).map len).getD 0 = (pointsAt path sets).card := by
  rw [pointsAt]
  cases hget : get? path sets with
  | none => rfl
  | some set =>
    have hset := h.wellFormed (path, set) (mem_of_get? hget)
    exact hset.covered_eq

lemma SetsOk.insertAt {sets : List (PathBuf × IntervalSet)} (h : SetsOk sets) (path : PathBuf)
    (range : Interval) :
    SetsOk (insertAt path range sets) ∧ ∀ other, pointsAt other (insertAt path range sets) =
      pointsAt other sets ∪ if other = path then Finset.Ico range.1 range.2 else ∅ := by
  have hold : ((get? path sets).getD .empty).WellFormed := by
    cases hget : get? path sets with
    | none => exact wellFormed_empty
    | some set => exact h.wellFormed (path, set) (mem_of_get? hget)
  obtain ⟨hnew, hpoints⟩ := insert_spec hold range
  refine ⟨⟨nodup_keys_alter h.nodup, ?_⟩, fun other => ?_⟩
  · refine forall_mem_alter (P := fun _ set => IntervalSet.WellFormed set)
      h.wellFormed ?_ ?_
    · exact (insert_spec wellFormed_empty range).1
    · exact fun set hset => (insert_spec hset range).1
  · rw [pointsAt, Dup.insertAt, get?_alter]
    split_ifs with hsame
    · subst hsame
      rw [Option.map_some, Option.getD_some, hpoints, pointsAt]
      cases get? other sets with
      | none => rfl
      | some set => rfl
    · rw [Finset.union_empty, pointsAt]

namespace DuplicateCoverage

/-- Every set is in order, has a path that is allowed, and lies below the bound of its path. -/
structure Within (coverage : DuplicateCoverage) (allowed : PathBuf → Prop)
    (lines tokens : PathBuf → ℕ) : Prop where
  linesOk : SetsOk coverage.linesByPath
  tokensOk : SetsOk coverage.tokensByPath
  linesAllowed : ∀ path ∈ KeyedList.keys coverage.linesByPath, allowed path
  tokensAllowed : ∀ path ∈ KeyedList.keys coverage.tokensByPath, allowed path
  linesBelow : ∀ path, pointsAt path coverage.linesByPath ⊆ Finset.range (lines path)
  tokensBelow : ∀ path, pointsAt path coverage.tokensByPath ⊆ Finset.range (tokens path)

variable {allowed : PathBuf → Prop} {lines tokens : PathBuf → ℕ}

lemma within_empty : empty.Within allowed lines tokens where
  linesOk := setsOk_nil
  tokensOk := setsOk_nil
  linesAllowed := nofun
  tokensAllowed := nofun
  linesBelow := fun _ => Finset.empty_subset _
  tokensBelow := fun _ => Finset.empty_subset _

variable {sets : List (PathBuf × IntervalSet)} {path : PathBuf}

lemma insertAt_below (hsets : SetsOk sets) {bound : PathBuf → ℕ}
    (h : ∀ path, pointsAt path sets ⊆ Finset.range (bound path))
    {range : Interval} (hrange : range.2 ≤ bound path) (other : PathBuf) :
    pointsAt other (insertAt path range sets) ⊆ Finset.range (bound other) := by
  rw [(hsets.insertAt path range).2 other]
  apply Finset.union_subset (h other)
  split_ifs with hsame
  · subst hsame
    intro n hn
    have hlt := (Finset.mem_Ico.mp hn).2
    exact Finset.mem_range.mpr (by omega)
  · exact Finset.empty_subset _

lemma insertAt_allowed (h : ∀ path ∈ keys sets, allowed path)
    (hpath : allowed path) (range : Interval) :
    ∀ other ∈ keys (insertAt path range sets), allowed other := by
  intro other hother
  rcases mem_keys_alter.mp hother with rfl | hother
  · exact hpath
  · exact h other hother

variable {coverage : DuplicateCoverage} {item : CloneInstance}

lemma Within.addInstance (h : coverage.Within allowed lines tokens) (hpath : allowed item.path)
    (hlines : occupiedEndLine item ≤ lines item.path) (htokens : item.endToken ≤ tokens item.path) :
    (coverage.addInstance item).Within allowed lines tokens := by
  have hlinesOk := (h.linesOk.insertAt item.path (item.startLine - 1, occupiedEndLine item)).1
  have htokensOk := (h.tokensOk.insertAt item.path (item.startToken - 1, item.endToken)).1
  unfold DuplicateCoverage.addInstance
  constructor
  · dsimp only
    split_ifs
    · exact hlinesOk
    · exact h.linesOk
  · dsimp only
    split_ifs
    · exact htokensOk
    · exact h.tokensOk
  · dsimp only
    split_ifs
    · exact insertAt_allowed h.linesAllowed hpath _
    · exact h.linesAllowed
  · dsimp only
    split_ifs
    · exact insertAt_allowed h.tokensAllowed hpath _
    · exact h.tokensAllowed
  · dsimp only
    split_ifs
    · exact insertAt_below h.linesOk h.linesBelow hlines
    · exact h.linesBelow
  · dsimp only
    split_ifs
    · exact insertAt_below h.tokensOk h.tokensBelow htokens
    · exact h.tokensBelow

/-- **The coverage of a duplication** stays within the files of its instances. -/
lemma within_fromDuplication {duplication : Findings.Duplication}
    (h : ∀ group ∈ duplication.exact ++ duplication.near, ∀ item ∈ group.instances,
      allowed item.path ∧ occupiedEndLine item ≤ lines item.path ∧
        item.endToken ≤ tokens item.path) :
    (fromDuplication duplication).Within allowed lines tokens := by
  have hitems : ∀ item ∈ (duplication.exact ++ duplication.near).flatMap CloneGroup.instances,
      allowed item.path ∧ occupiedEndLine item ≤ lines item.path ∧
        item.endToken ≤ tokens item.path := by
    intro item hitem
    obtain ⟨group, hgroup, hitem⟩ := mem_flatMap.mp hitem
    exact h group hgroup item hitem
  have hfold : ∀ (items : List CloneInstance) (coverage : DuplicateCoverage),
      (∀ item ∈ items, allowed item.path ∧ occupiedEndLine item ≤ lines item.path ∧
        item.endToken ≤ tokens item.path) → coverage.Within allowed lines tokens →
      (items.foldl DuplicateCoverage.addInstance coverage).Within allowed lines tokens := by
    intro items
    induction items with
    | nil => exact fun coverage _ hcoverage => hcoverage
    | cons item rest ih =>
      intro coverage hall hcoverage
      obtain ⟨hpath, hlines, htokens⟩ := hall item mem_cons_self
      exact ih _ (fun other hother => hall other (mem_cons_of_mem item hother))
        (hcoverage.addInstance hpath hlines htokens)
  exact hfold _ _ hitems within_empty

lemma excludedSet_spec (excluded : List LineRange) :
    (excludedSet excluded).WellFormed ∧ ∀ n, n ∈ (excludedSet excluded).points ↔
      ∃ range ∈ excluded, 0 < range.start ∧ range.start ≤ n + 1 ∧ n + 1 ≤ range.stop := by
  have hfold : ∀ (ranges : List LineRange) (set : IntervalSet), set.WellFormed →
      (ranges.foldl (fun set range => if range.start > 0 ∧ range.start ≤ range.stop then
          set.insert (range.start - 1, range.stop) else set) set).WellFormed ∧
        ∀ n, n ∈ (ranges.foldl (fun set range => if range.start > 0 ∧ range.start ≤ range.stop then
          set.insert (range.start - 1, range.stop) else set) set).points ↔
          n ∈ set.points ∨
            ∃ range ∈ ranges, 0 < range.start ∧ range.start ≤ n + 1 ∧ n + 1 ≤ range.stop := by
    intro ranges
    induction ranges with
    | nil => exact fun set hset => ⟨hset, fun n => by simp⟩
    | cons range rest ih =>
      intro set hset
      rw [foldl_cons]
      split_ifs with hrange
      · obtain ⟨hnew, hpoints⟩ := insert_spec hset (range.start - 1, range.stop)
        obtain ⟨hrest, hmem⟩ := ih _ hnew
        refine ⟨hrest, fun n => ?_⟩
        rw [hmem, hpoints, Finset.mem_union, Finset.mem_Ico, exists_mem_cons_iff, or_assoc]
        have hiff : (range.start - 1 ≤ n ∧ n < range.stop) ↔
            (0 < range.start ∧ range.start ≤ n + 1 ∧ n + 1 ≤ range.stop) := by omega
        rw [hiff]
      · obtain ⟨hrest, hmem⟩ := ih _ hset
        refine ⟨hrest, fun n => ?_⟩
        rw [hmem, exists_mem_cons_iff]
        have hnot : ¬(0 < range.start ∧ range.start ≤ n + 1 ∧ n + 1 ≤ range.stop) := by omega
        rw [or_iff_right hnot]
  obtain ⟨hset, hmem⟩ := hfold excluded .empty wellFormed_empty
  refine ⟨hset, fun n => ?_⟩
  rw [excludedSet, hmem]
  simp [IntervalSet.points, IntervalSet.empty]

lemma coveredLinesExcluding_eq (h : SetsOk coverage.linesByPath) (path : PathBuf)
    (excluded : List LineRange) :
    coverage.coveredLinesExcluding path excluded =
      (pointsAt path coverage.linesByPath \ (excludedSet excluded).points).card := by
  rw [coveredLinesExcluding, pointsAt]
  cases hget : get? path coverage.linesByPath with
  | none =>
    rw [Option.map_none, Option.getD_none, Finset.empty_sdiff, Finset.card_empty]
  | some set =>
    have hset := h.wellFormed (path, set) (mem_of_get? hget)
    dsimp only
    rw [Intervals.overlap_eq hset.spaced (excludedSet_spec excluded).1.spaced, Option.map_some,
      Option.getD_some, len, hset.covered_eq, Finset.card_sdiff, Finset.inter_comm]
    rfl

/-! ## What is counted -/

/-- The lines of a file that some instance covers. They are numbered from one. -/
def instanceLines (items : List CloneInstance) (path : PathBuf) : Set ℕ :=
  {line | ∃ item ∈ items, item.path = path ∧ 0 < item.startLine ∧ item.startLine ≤ line ∧
    line ≤ occupiedEndLine item}

/-- The tokens of a file that some instance covers. -/
def instanceTokens (items : List CloneInstance) (path : PathBuf) : Set ℕ :=
  {token | ∃ item ∈ items, item.path = path ∧ 0 < item.startToken ∧ item.startToken ≤ token ∧
    token ≤ item.endToken}

def rangeLines (ranges : List LineRange) : Set ℕ :=
  {line | ∃ range ∈ ranges, 0 < range.start ∧ range.start ≤ line ∧ line ≤ range.stop}

def instances (duplication : Findings.Duplication) : List CloneInstance :=
  (duplication.exact ++ duplication.near).flatMap CloneGroup.instances

lemma addInstance_spec (hlines : SetsOk coverage.linesByPath)
    (htokens : SetsOk coverage.tokensByPath) (item : CloneInstance) :
    SetsOk (coverage.addInstance item).linesByPath ∧
      SetsOk (coverage.addInstance item).tokensByPath ∧
      ∀ path n, (n ∈ pointsAt path (coverage.addInstance item).linesByPath ↔
          n ∈ pointsAt path coverage.linesByPath ∨ n + 1 ∈ instanceLines [item] path) ∧
        (n ∈ pointsAt path (coverage.addInstance item).tokensByPath ↔
          n ∈ pointsAt path coverage.tokensByPath ∨ n + 1 ∈ instanceTokens [item] path) := by
  obtain ⟨hlinesOk, hlinesAt⟩ :=
    hlines.insertAt item.path (item.startLine - 1, occupiedEndLine item)
  obtain ⟨htokensOk, htokensAt⟩ :=
    htokens.insertAt item.path (item.startToken - 1, item.endToken)
  unfold addInstance
  refine ⟨?_, ?_, fun path n => ⟨?_, ?_⟩⟩
  · dsimp only
    split_ifs
    · exact hlinesOk
    · exact hlines
  · dsimp only
    split_ifs
    · exact htokensOk
    · exact htokens
  · simp only [instanceLines, Set.mem_ofPred_eq, mem_singleton, exists_eq_left]
    split_ifs with hrange
    · rw [hlinesAt path, Finset.mem_union]
      split_ifs with hpath
      · rw [Finset.mem_Ico]
        have hiff : (item.startLine - 1 ≤ n ∧ n < occupiedEndLine item) ↔
            0 < item.startLine ∧ item.startLine ≤ n + 1 ∧ n + 1 ≤ occupiedEndLine item := by omega
        rw [hiff, and_iff_right hpath.symm]
      · simp [show ¬item.path = path from fun h => hpath h.symm]
    · have hnot : ¬(item.path = path ∧ 0 < item.startLine ∧ item.startLine ≤ n + 1 ∧
          n + 1 ≤ occupiedEndLine item) := fun h => hrange ⟨h.2.1, h.2.2.1.trans h.2.2.2⟩
      rw [or_iff_left hnot]
  · simp only [instanceTokens, Set.mem_ofPred_eq, mem_singleton, exists_eq_left]
    split_ifs with hrange
    · rw [htokensAt path, Finset.mem_union]
      split_ifs with hpath
      · rw [Finset.mem_Ico]
        have hiff : (item.startToken - 1 ≤ n ∧ n < item.endToken) ↔
            0 < item.startToken ∧ item.startToken ≤ n + 1 ∧ n + 1 ≤ item.endToken := by omega
        rw [hiff, and_iff_right hpath.symm]
      · simp [show ¬item.path = path from fun h => hpath h.symm]
    · have hnot : ¬(item.path = path ∧ 0 < item.startToken ∧ item.startToken ≤ n + 1 ∧
          n + 1 ≤ item.endToken) := fun h => hrange ⟨h.2.1, h.2.2.1.trans h.2.2.2⟩
      rw [or_iff_left hnot]

variable {items : List CloneInstance}

lemma mem_instanceLines_cons {line : ℕ} :
    line ∈ instanceLines (item :: items) path ↔
      line ∈ instanceLines [item] path ∨ line ∈ instanceLines items path := by
  simp [instanceLines]

lemma mem_instanceTokens_cons {token : ℕ} :
    token ∈ instanceTokens (item :: items) path ↔
      token ∈ instanceTokens [item] path ∨ token ∈ instanceTokens items path := by
  simp [instanceTokens]

lemma foldl_addInstance_spec (items : List CloneInstance) (hlines : SetsOk coverage.linesByPath)
    (htokens : SetsOk coverage.tokensByPath) :
    SetsOk (items.foldl addInstance coverage).linesByPath ∧
      SetsOk (items.foldl addInstance coverage).tokensByPath ∧
      ∀ path n, (n ∈ pointsAt path (items.foldl addInstance coverage).linesByPath ↔
          n ∈ pointsAt path coverage.linesByPath ∨ n + 1 ∈ instanceLines items path) ∧
        (n ∈ pointsAt path (items.foldl addInstance coverage).tokensByPath ↔
          n ∈ pointsAt path coverage.tokensByPath ∨ n + 1 ∈ instanceTokens items path) := by
  induction items generalizing coverage with
  | nil =>
    refine ⟨hlines, htokens, fun path n => ⟨?_, ?_⟩⟩
    · simp [instanceLines]
    · simp [instanceTokens]
  | cons item rest ih =>
    obtain ⟨hlines', htokens', hadd⟩ := addInstance_spec hlines htokens item
    obtain ⟨hrestLines, hrestTokens, hrest⟩ := ih hlines' htokens'
    refine ⟨hrestLines, hrestTokens, fun path n => ⟨?_, ?_⟩⟩
    · rw [foldl_cons, (hrest path n).1, (hadd path n).1, or_assoc, ← mem_instanceLines_cons]
    · rw [foldl_cons, (hrest path n).2, (hadd path n).2, or_assoc, ← mem_instanceTokens_cons]

variable (duplication : Findings.Duplication)

/-- **The sets of a duplication** hold, counted from zero, the lines and the tokens of its
instances. -/
lemma fromDuplication_spec :
    SetsOk (fromDuplication duplication).linesByPath ∧
      SetsOk (fromDuplication duplication).tokensByPath ∧
      ∀ path n, (n ∈ pointsAt path (fromDuplication duplication).linesByPath ↔
          n + 1 ∈ instanceLines (instances duplication) path) ∧
        (n ∈ pointsAt path (fromDuplication duplication).tokensByPath ↔
          n + 1 ∈ instanceTokens (instances duplication) path) := by
  have hstart : SetsOk empty.linesByPath ∧ SetsOk empty.tokensByPath := ⟨setsOk_nil, setsOk_nil⟩
  obtain ⟨hlines, htokens, hmem⟩ :=
    foldl_addInstance_spec (instances duplication) hstart.1 hstart.2
  have hnone : ∀ path n, n ∉ pointsAt path [] := fun path n => Finset.notMem_empty n
  refine ⟨hlines, htokens, fun path n => ⟨?_, ?_⟩⟩
  · exact (hmem path n).1.trans (or_iff_right (hnone path n))
  · exact (hmem path n).2.trans (or_iff_right (hnone path n))

/-- Numbers counted from zero are as many as those counted from one. -/
lemma card_eq_ncard {points : Finset ℕ} {numbers : Set ℕ} (hpos : 0 ∉ numbers)
    (h : ∀ n, n ∈ points ↔ n + 1 ∈ numbers) : points.card = numbers.ncard := by
  have himage : numbers = (points.image Nat.succ : Finset ℕ) := by
    ext n
    rw [Finset.coe_image, Set.mem_image]
    constructor
    · intro hn
      obtain ⟨m, rfl⟩ := Nat.exists_eq_succ_of_ne_zero (fun h => hpos (h ▸ hn))
      exact ⟨m, (h m).mpr hn, rfl⟩
    · rintro ⟨m, hm, rfl⟩
      exact (h m).mp hm
  rw [himage, Set.ncard_coe_finset, Finset.card_image_of_injective points Nat.succ_injective]

lemma zero_notMem_instanceLines (items : List CloneInstance) (path : PathBuf) :
    0 ∉ instanceLines items path := by
  rintro ⟨item, -, -, hpos, hle, -⟩
  omega

lemma zero_notMem_instanceTokens (items : List CloneInstance) (path : PathBuf) :
    0 ∉ instanceTokens items path := by
  rintro ⟨item, -, -, hpos, hle, -⟩
  omega

lemma coveredLines_eq (path : PathBuf) :
    (fromDuplication duplication).coveredLines path =
      (instanceLines (instances duplication) path).ncard := by
  obtain ⟨hlines, -, hmem⟩ := fromDuplication_spec duplication
  rw [coveredLines, hlines.len_eq]
  exact card_eq_ncard (zero_notMem_instanceLines _ _) fun n => (hmem path n).1

lemma coveredTokens_eq (path : PathBuf) :
    (fromDuplication duplication).coveredTokens path =
      (instanceTokens (instances duplication) path).ncard := by
  obtain ⟨-, htokens, hmem⟩ := fromDuplication_spec duplication
  rw [coveredTokens, htokens.len_eq]
  exact card_eq_ncard (zero_notMem_instanceTokens _ _) fun n => (hmem path n).2

lemma coveredLinesExcluding_eq_ncard (path : PathBuf) (excluded : List LineRange) :
    (fromDuplication duplication).coveredLinesExcluding path excluded =
      (instanceLines (instances duplication) path \ rangeLines excluded).ncard := by
  obtain ⟨hlines, -, hmem⟩ := fromDuplication_spec duplication
  rw [coveredLinesExcluding_eq hlines]
  apply card_eq_ncard (fun h => zero_notMem_instanceLines _ _ h.1)
  intro n
  rw [Finset.mem_sdiff, (hmem path n).1, (excludedSet_spec excluded).2 n]
  rfl

/-! ## All files -/

/-- The counts of the files add up to the number of pairs of a file and a number of it. -/
lemma sum_len_eq_ncard (h : SetsOk sets) {numbers : PathBuf → Set ℕ}
    (hpos : ∀ path, 0 ∉ numbers path)
    (hmem : ∀ path n, n ∈ pointsAt path sets ↔ n + 1 ∈ numbers path) :
    (sets.map fun set => set.2.len).sum =
      {place : PathBuf × ℕ | place.2 ∈ numbers place.1}.ncard := by
  let places := (keys sets).toFinset.biUnion fun path =>
    (pointsAt path sets).image fun n => (path, n + 1)
  have hplaces : {place : PathBuf × ℕ | place.2 ∈ numbers place.1} = places := by
    ext ⟨path, n⟩
    simp only [Set.mem_ofPred_eq, places, Finset.coe_biUnion, Set.mem_iUnion, Finset.mem_coe,
      List.mem_toFinset, Finset.mem_image, Prod.mk.injEq]
    constructor
    · intro hn
      obtain ⟨m, rfl⟩ := Nat.exists_eq_succ_of_ne_zero (fun h => hpos path (h ▸ hn))
      have hm := (hmem path m).mpr hn
      refine ⟨path, ?_, m, hm, rfl, rfl⟩
      by_contra hkey
      rw [pointsAt, get?_eq_none_iff.mpr hkey] at hm
      exact Finset.notMem_empty m hm
    · rintro ⟨_, -, m, hm, rfl, rfl⟩
      exact (hmem _ m).mp hm
  have hdisjoint : Set.PairwiseDisjoint (keys sets).toFinset
      fun path => (pointsAt path sets).image fun n => (path, n + 1) := by
    intro path _ other _ hne
    rw [Function.onFun, Finset.disjoint_left]
    intro place hplace hother
    obtain ⟨n, -, rfl⟩ := Finset.mem_image.mp hplace
    obtain ⟨m, -, hm⟩ := Finset.mem_image.mp hother
    exact hne (congrArg Prod.fst hm).symm
  have hcount : ∀ path, ((pointsAt path sets).image fun n => (path, n + 1)).card =
      ((get? path sets).map len).getD 0 := by
    intro path
    rw [h.len_eq, Finset.card_image_of_injective]
    intro n m hnm
    exact Nat.succ_injective (congrArg Prod.snd hnm)
  rw [hplaces, Set.ncard_coe_finset, Finset.card_biUnion hdisjoint,
    sum_map_eq_sum_get? h.nodup h.nodup (fun _ hk => hk) len,
    ← sum_toFinset _ h.nodup]
  exact Finset.sum_congr rfl fun path _ => (hcount path).symm

variable {items' : List CloneInstance}

lemma instanceLines_of_perm (h : items'.Perm items) :
    instanceLines items' = instanceLines items := by
  funext path
  ext line
  simp [instanceLines, h.mem_iff]

lemma instanceTokens_of_perm (h : items'.Perm items) :
    instanceTokens items' = instanceTokens items := by
  funext path
  ext token
  simp [instanceTokens, h.mem_iff]

structure CountsUnion (duplication : Findings.Duplication) : Prop where
  lines : ∀ path, (fromDuplication duplication).coveredLines path =
    (instanceLines (instances duplication) path).ncard
  tokens : ∀ path, (fromDuplication duplication).coveredTokens path =
    (instanceTokens (instances duplication) path).ncard
  totalLines : (fromDuplication duplication).totalLines =
    {place : PathBuf × ℕ | place.2 ∈ instanceLines (instances duplication) place.1}.ncard
  totalTokens : (fromDuplication duplication).totalTokens =
    {place : PathBuf × ℕ | place.2 ∈ instanceTokens (instances duplication) place.1}.ncard
  excluding : ∀ path excluded, (fromDuplication duplication).coveredLinesExcluding path excluded =
    (instanceLines (instances duplication) path \ rangeLines excluded).ncard

lemma countsUnion : CountsUnion duplication := by
  obtain ⟨hlines, htokens, hmem⟩ := fromDuplication_spec duplication
  refine ⟨coveredLines_eq duplication, coveredTokens_eq duplication, ?_, ?_,
    coveredLinesExcluding_eq_ncard duplication⟩
  · exact sum_len_eq_ncard hlines (zero_notMem_instanceLines _) fun path n => (hmem path n).1
  · exact sum_len_eq_ncard htokens (zero_notMem_instanceTokens _) fun path n => (hmem path n).2

structure SameCounts (coverage other : DuplicateCoverage) : Prop where
  lines : ∀ path, other.coveredLines path = coverage.coveredLines path
  tokens : ∀ path, other.coveredTokens path = coverage.coveredTokens path
  totalLines : other.totalLines = coverage.totalLines
  totalTokens : other.totalTokens = coverage.totalTokens
  excluding : ∀ path excluded,
    other.coveredLinesExcluding path excluded = coverage.coveredLinesExcluding path excluded

lemma sameCounts_of_perm {duplication other : Findings.Duplication}
    (h : (instances other).Perm (instances duplication)) :
    SameCounts (fromDuplication duplication) (fromDuplication other) := by
  have hlines := instanceLines_of_perm h
  have htokens := instanceTokens_of_perm h
  have hcounts := countsUnion duplication
  have hother := countsUnion other
  constructor
  · intro path
    rw [hother.lines, hcounts.lines, hlines]
  · intro path
    rw [hother.tokens, hcounts.tokens, htokens]
  · rw [hother.totalLines, hcounts.totalLines, hlines]
  · rw [hother.totalTokens, hcounts.totalTokens, htokens]
  · intro path excluded
    rw [hother.excluding, hcounts.excluding, hlines]

/-- **Every line is counted once**: a set counts the union of the ranges put into it, a coverage
the union of what its instances cover, and neither depends on the order. -/
theorem counts_each_line_once : (∀ ranges : List Interval,
      (IntervalSet.ofRanges ranges).len = (Intervals.points ranges).card ∧
        ∀ other : List Interval, other.Perm ranges →
          (IntervalSet.ofRanges other).len = (IntervalSet.ofRanges ranges).len) ∧
      ∀ duplication : Findings.Duplication, CountsUnion duplication ∧
        ∀ other : Findings.Duplication, (instances other).Perm (instances duplication) →
          SameCounts (fromDuplication duplication) (fromDuplication other) := by
  refine ⟨fun ranges => ⟨len_ofRanges ranges, fun other hperm => ?_⟩,
    fun duplication => ⟨countsUnion duplication, fun other => sameCounts_of_perm⟩⟩
  have hpoints : Intervals.points other = Intervals.points ranges := by
    ext n
    simp [hperm.mem_iff]
  rw [len_ofRanges, len_ofRanges, hpoints]

theorem counts_each_line_once_adjacent : (IntervalSet.ofRanges [(2, 3), (0, 2), (1, 2)]).len = 3 ∧
      (IntervalSet.ofRanges [(1, 2), (2, 3), (0, 2)]).len =
        (IntervalSet.ofRanges [(2, 3), (0, 2), (1, 2)]).len :=
  ⟨by decide, (counts_each_line_once.1 [(2, 3), (0, 2), (1, 2)]).2 _ (by decide)⟩

end DuplicateCoverage

end Reposcout.Dup
