import Reposcout.Framework.Matching
import Reposcout.Properties.Dup.Coverage
import Reposcout.Scan.Duplicates

/-!
# What the compact projection selects

Covered lines are kept as a row of ranges, and the gap scan finds the longest run of a range outside
of it.  So a group is tested against the lines of the groups selected before.
-/

namespace Reposcout.Scan

open Dup Intervals List

/-! ## Ranges of lines -/

/-- The ranges are merged as those of an `IntervalSet`. -/
lemma mergeLineRange_eq (range : Interval) (covered : ℕ) (l : List Interval) :
    mergeLineRange range l =
      ((IntervalSet.absorb range covered l).1, (IntervalSet.absorb range covered l).2.2) := by
  induction l generalizing range covered with
  | nil => rfl
  | cons existing rest ih =>
    rw [mergeLineRange, IntervalSet.absorb]
    split_ifs
    · exact ih _ _
    · rfl

variable {range : Interval} {covered : List Interval}

/-- **Inserting a range** keeps the row in order and adds the numbers of the range. -/
lemma insertLineRange_spec (h : Spaced covered) (hrange : range.1 < range.2) :
    Spaced (insertLineRange covered range) ∧
      points (insertLineRange covered range) = points covered ∪ Finset.Ico range.1 range.2 := by
  have hset : IntervalSet.WellFormed ⟨covered, (points covered).card⟩ := ⟨h, rfl⟩
  have hinsert : insertLineRange covered range =
      (IntervalSet.insert ⟨covered, (points covered).card⟩ range).intervals := by
    rw [insertLineRange, IntervalSet.insert, if_neg (not_le.mpr hrange),
      mergeLineRange_eq range (points covered).card]
  obtain ⟨hspaced, hpoints⟩ := IntervalSet.insert_spec hset range
  rw [hinsert]
  exact ⟨hspaced.spaced, hpoints⟩

/-- A sequence of insertions gives the union. -/
lemma foldl_insertLineRange_spec (ranges : List Interval) (h : ∀ range ∈ ranges, range.1 < range.2)
    (hcovered : Spaced covered) : Spaced (ranges.foldl insertLineRange covered) ∧
      points (ranges.foldl insertLineRange covered) = points covered ∪ points ranges := by
  induction ranges generalizing covered with
  | nil => exact ⟨hcovered, (Finset.union_empty _).symm⟩
  | cons range rest ih =>
    obtain ⟨hspaced, hpoints⟩ := insertLineRange_spec hcovered (h range mem_cons_self)
    obtain ⟨hrest, hunion⟩ := ih (fun r hr => h r (mem_cons_of_mem range hr)) hspaced
    refine ⟨hrest, ?_⟩
    rw [foldl_cons, hunion, hpoints, points_cons, Finset.union_assoc]

/-- `count` numbers in a row from `start` on, none of which is in the row. -/
def FreeRun (l : List Interval) (start count : ℕ) : Prop :=
  ∀ n, start ≤ n → n < start + count → n ∉ points l

variable {l : List Interval}

lemma longestUncoveredLoop_spec (h : Spaced l) (cursor longest : ℕ) (hcursor : cursor ≤ range.2) :
    longest ≤ longestUncoveredLoop range cursor longest l ∧
      (∀ start count, cursor ≤ start → start + count ≤ range.2 → FreeRun l start count →
        count ≤ longestUncoveredLoop range cursor longest l) ∧
      (longestUncoveredLoop range cursor longest l = longest ∨
        ∃ start, cursor ≤ start ∧ start + longestUncoveredLoop range cursor longest l ≤ range.2 ∧
          FreeRun l start (longestUncoveredLoop range cursor longest l)) := by
  induction l generalizing cursor longest with
  | nil =>
    rw [longestUncoveredLoop]
    refine ⟨le_max_left _ _, fun start count _ _ _ => by omega, ?_⟩
    rcases max_choice longest (range.2 - cursor) with hmax | hmax
    · exact .inl hmax
    · rw [hmax]
      exact .inr ⟨cursor, le_refl _, by omega, fun n _ _ => Finset.notMem_empty n⟩
  | cons e rest ih =>
    have hne := h.nonempty e mem_cons_self
    have hmem : ∀ n, n ∈ points (e :: rest) ↔ e.1 ≤ n ∧ n < e.2 ∨ n ∈ points rest := by
      intro n
      rw [points_cons, Finset.mem_union, Finset.mem_Ico]
    have hbehind : ∀ n ∈ points rest, e.2 < n := fun n hn => h.lt_of_mem_points hn
    -- Behind the first range only the others count.
    have hsame : ∀ start count, e.2 ≤ start →
        (FreeRun (e :: rest) start count ↔ FreeRun rest start count) := by
      refine fun start count hle => forall₃_congr fun n hn _ => not_congr ?_
      rw [hmem]
      exact ⟨fun hor => hor.resolve_left (by omega), .inr⟩
    rw [longestUncoveredLoop]
    by_cases hskip : e.2 ≤ cursor
    · rw [if_pos hskip]
      obtain ⟨hle, hupper, hfound⟩ := ih h.tail cursor longest hcursor
      refine ⟨hle, fun start count hstart hstop hfree => ?_, hfound.imp_right ?_⟩
      · exact hupper start count hstart hstop ((hsame start count (by omega)).mp hfree)
      · rintro ⟨start, hstart, hstop, hfree⟩
        exact ⟨start, hstart, hstop, (hsame _ _ (by omega)).mpr hfree⟩
    rw [if_neg hskip]
    by_cases hbreak : e.1 ≥ range.2
    · rw [if_pos hbreak]
      refine ⟨le_max_left _ _, fun start count _ _ _ => by omega, ?_⟩
      rcases max_choice longest (range.2 - cursor) with hmax | hmax
      · exact .inl hmax
      · rw [hmax]
        refine .inr ⟨cursor, le_refl _, by omega, fun n _ hn hin => ?_⟩
        rcases (hmem n).mp hin with hin | hin
        · omega
        · have hlt := hbehind n hin
          omega
    rw [if_neg hbreak]
    -- A free run ends in front of the first range or begins behind it.
    have hsplit : ∀ start count, FreeRun (e :: rest) start count →
        start + count ≤ e.1 ∨ e.2 ≤ start ∨ count = 0 := by
      intro start count hfree
      by_contra hnot
      have hin := hfree (max start e.1) (le_max_left _ _) (by omega)
      exact hin ((hmem _).mpr (.inl ⟨le_max_right _ _, by omega⟩))
    have hfront : FreeRun (e :: rest) cursor (e.1 - cursor) := by
      intro n hn hlt hin
      rcases (hmem n).mp hin with hin | hin
      · omega
      · have hlt := hbehind n hin
        omega
    obtain ⟨next, hnext⟩ : ∃ next, next =
        if e.1 > cursor then max longest (min e.1 range.2 - cursor) else longest := ⟨_, rfl⟩
    have hlongest : longest ≤ next ∧ e.1 - cursor ≤ next ∧
        (next = longest ∨ next = e.1 - cursor) := by
      split_ifs at hnext <;> omega
    rw [← hnext, max_eq_right (by omega)]
    by_cases hend : e.2 ≥ range.2
    · rw [if_pos hend]
      refine ⟨hlongest.1, fun start count hstart hstop hfree => ?_, ?_⟩
      · have hcases := hsplit start count hfree
        omega
      · refine hlongest.2.2.imp_right fun heq => ⟨cursor, le_refl _, by omega, ?_⟩
        rw [heq]
        exact hfront
    · rw [if_neg hend]
      obtain ⟨hle, hupper, hfound⟩ := ih h.tail e.2 next (by omega)
      refine ⟨by omega, fun start count hstart hstop hfree => ?_, ?_⟩
      · rcases hsplit start count hfree with hcase | hcase | hcase
        · omega
        · exact hupper start count hcase hstop ((hsame start count hcase).mp hfree)
        · omega
      · rcases hfound with heq | ⟨start, hstart, hstop, hfree⟩
        · rw [heq]
          refine hlongest.2.2.imp_right fun heq => ⟨cursor, le_refl _, by omega, ?_⟩
          rw [heq]
          exact hfront
        · exact .inr ⟨start, by omega, hstop, (hsame _ _ hstart).mpr hfree⟩

/-- **The gap scan finds the longest run** of the range outside of the row. -/
lemma longestUncoveredRun_isGreatest (h : Spaced l) (hrange : range.1 ≤ range.2) :
    IsGreatest {count | ∃ start, range.1 ≤ start ∧ start + count ≤ range.2 ∧ FreeRun l start count}
      (longestUncoveredRun range l) := by
  obtain ⟨-, hupper, hfound⟩ := longestUncoveredLoop_spec h range.1 0 hrange
  refine ⟨?_, fun count ⟨start, hstart, hstop, hfree⟩ => hupper start count hstart hstop hfree⟩
  rcases hfound with hzero | hfound
  · refine ⟨range.1, le_refl _, ?_, ?_⟩
    · rw [longestUncoveredRun, hzero]
      exact hrange
    · intro n hn hlt
      rw [longestUncoveredRun, hzero] at hlt
      omega
  · exact hfound

lemma le_longestUncoveredRun_iff (h : Spaced l) (hrange : range.1 ≤ range.2) (count : ℕ) :
    count ≤ longestUncoveredRun range l ↔
      ∃ start, range.1 ≤ start ∧ start + count ≤ range.2 ∧ FreeRun l start count := by
  obtain ⟨⟨start, hstart, hstop, hfree⟩, hupper⟩ := longestUncoveredRun_isGreatest h hrange
  constructor
  · intro hle
    exact ⟨start, hstart, by omega, fun n hn hlt => hfree n hn (by omega)⟩
  · exact fun hrun => hupper hrun

/-! ## Covered lines -/

section

variable {S : Type}

def OnLine (item : CloneInstance) (line : ℕ) : Prop :=
  item.startLine > 0 ∧ item.startLine ≤ line ∧ line ≤ occupiedEndLine item

/-- The line of the file is a line of an instance of one of the groups. -/
def CoveredLine (chosen : List (DuplicateCandidate S)) (path : PathBuf) (line : ℕ) : Prop :=
  ∃ c ∈ chosen, ∃ item ∈ c.group.instances, item.path = path ∧ OnLine item line

/-- The instance has that many lines in a row which none of the groups covers. -/
def AddsRun (minNewLines : ℕ) (chosen : List (DuplicateCandidate S)) (item : CloneInstance) : Prop :=
  ∃ first, OnLine item first ∧ ∀ line, first ≤ line → line < first + minNewLines →
    OnLine item line ∧ ¬CoveredLine chosen item.path line

def AddsNewLines (minNewLines : ℕ) (chosen : List (DuplicateCandidate S)) (group : CloneGroup S) :
    Prop :=
  ∃ a b, [a, b].Sublist group.instances ∧ AddsRun minNewLines chosen a ∧
    AddsRun minNewLines chosen b

def rangesAt (path : PathBuf) (selected : List (PathBuf × List Interval)) : List Interval :=
  (KeyedList.get? path selected).getD []

/-- The coverage has the lines of the instances, counted from zero. -/
def Covers (selected : List (PathBuf × List Interval)) (items : List CloneInstance) : Prop :=
  ∀ path, Spaced (rangesAt path selected) ∧ ∀ n, n ∈ points (rangesAt path selected) ↔
    ∃ item ∈ items, item.path = path ∧ OnLine item (n + 1)

lemma mem_instanceLineRange {item : CloneInstance} {range : Interval}
    (h : instanceLineRange item = some range) :
    range.1 < range.2 ∧ ∀ n, range.1 ≤ n ∧ n < range.2 ↔ OnLine item (n + 1) := by
  unfold instanceLineRange at h
  dsimp only at h
  split_ifs at h with hlines
  cases h
  refine ⟨by dsimp only; omega, fun n => ?_⟩
  unfold OnLine
  omega

lemma not_onLine {item : CloneInstance} (h : instanceLineRange item = none) (line : ℕ) :
    ¬OnLine item line := by
  unfold instanceLineRange at h
  dsimp only at h
  split_ifs at h with hlines
  rintro ⟨hpos, hle, hle'⟩
  exact hlines ⟨hpos, hle.trans hle'⟩

variable {items : List CloneInstance}

lemma Covers.coverInstance {selected : List (PathBuf × List Interval)} (h : Covers selected items)
    (item : CloneInstance) : Covers (coverInstance selected item) (items ++ [item]) := by
  intro path
  have hmem : ∀ n, (∃ other ∈ items ++ [item], other.path = path ∧ OnLine other (n + 1)) ↔
      (∃ other ∈ items, other.path = path ∧ OnLine other (n + 1)) ∨
        item.path = path ∧ OnLine item (n + 1) := by
    intro n
    simp
  obtain ⟨hspaced, hpoints⟩ := h path
  simp only [hmem]
  unfold Scan.coverInstance
  cases hrange : instanceLineRange item with
  | none =>
    refine ⟨hspaced, fun n => (hpoints n).trans ⟨.inl, fun hor => hor.resolve_right ?_⟩⟩
    exact fun hon => not_onLine hrange _ hon.2
  | some range =>
    obtain ⟨hlt, hlines⟩ := mem_instanceLineRange hrange
    have hget : rangesAt path (KeyedList.alter item.path
        (fun covered => insertLineRange (covered.getD []) range) selected) =
        if path = item.path then insertLineRange (rangesAt path selected) range
        else rangesAt path selected := by
      rw [rangesAt, KeyedList.get?_alter]
      split_ifs with hpath
      · rw [← hpath]
        rfl
      · rfl
    rw [hget]
    split_ifs with hpath
    · obtain ⟨hnew, hunion⟩ := insertLineRange_spec hspaced hlt
      refine ⟨hnew, fun n => ?_⟩
      rw [hunion, Finset.mem_union, hpoints, Finset.mem_Ico, hlines]
      exact or_congr_right ⟨fun hon => ⟨hpath.symm, hon⟩, fun hon => hon.2⟩
    · refine ⟨hspaced, fun n => (hpoints n).trans ⟨.inl, fun hor => hor.resolve_right ?_⟩⟩
      exact fun hon => hpath hon.1.symm

lemma Covers.foldl_coverInstance {selected : List (PathBuf × List Interval)}
    (h : Covers selected items) (added : List CloneInstance) :
    Covers (added.foldl Scan.coverInstance selected) (items ++ added) := by
  induction added generalizing selected items with
  | nil => rwa [append_nil]
  | cons item rest ih =>
    rw [append_cons]
    exact ih (h.coverInstance item)

variable {minNewLines : ℕ} {selected : List (PathBuf × List Interval)}
variable {chosen : List (DuplicateCandidate S)}

/-- The gap scan tests whether an instance adds a run. -/
lemma hasNewLines_iff (h : Covers selected (chosen.flatMap fun c => c.group.instances))
    (item : CloneInstance) :
    hasNewLines selected minNewLines item = true ↔ AddsRun minNewLines chosen item := by
  obtain ⟨hspaced, hpoints⟩ := h item.path
  have hcovered : ∀ n, n ∈ points (rangesAt item.path selected) ↔
      CoveredLine chosen item.path (n + 1) := by
    intro n
    rw [hpoints]
    constructor
    · rintro ⟨other, hother, hon⟩
      obtain ⟨c, hc, hin⟩ := mem_flatMap.mp hother
      exact ⟨c, hc, other, hin, hon⟩
    · rintro ⟨c, hc, other, hin, hon⟩
      exact ⟨other, mem_flatMap.mpr ⟨c, hc, hin⟩, hon⟩
  unfold hasNewLines
  cases hrange : instanceLineRange item with
  | none =>
    exact ⟨fun hfalse => absurd hfalse Bool.false_ne_true, fun ⟨first, hfirst, _⟩ =>
      absurd hfirst (not_onLine hrange first)⟩
  | some range =>
    obtain ⟨hlt, hlines⟩ := mem_instanceLineRange hrange
    change decide (minNewLines ≤ longestUncoveredRun range (rangesAt item.path selected)) = true ↔ _
    rw [decide_eq_true_iff, le_longestUncoveredRun_iff hspaced hlt.le]
    constructor
    · rintro ⟨start, hstart, hstop, hfree⟩
      -- An empty run may stand at the end of the range.
      rcases Nat.eq_zero_or_pos minNewLines with rfl | hpos
      · exact ⟨range.1 + 1, (hlines _).mp ⟨le_refl _, hlt⟩, fun line _ _ => by omega⟩
      · refine ⟨start + 1, (hlines _).mp (by omega), fun line hge hle => ?_⟩
        obtain ⟨n, rfl⟩ : ∃ n, line = n + 1 := ⟨line - 1, by omega⟩
        exact ⟨(hlines _).mp (by omega), mt (hcovered n).mpr (hfree n (by omega) (by omega))⟩
    · rintro ⟨first, hfirst, hrun⟩
      have hpos : 0 < first := hfirst.1.trans_le hfirst.2.1
      obtain ⟨start, rfl⟩ : ∃ start, first = start + 1 := ⟨first - 1, by omega⟩
      obtain ⟨hstart, hstop⟩ := (hlines start).mpr hfirst
      refine ⟨start, hstart, ?_, fun n hn hlt' => ?_⟩
      · by_contra hover
        have hlast := (hlines range.2).mpr (hrun (range.2 + 1) (by omega) (by omega)).1
        omega
      · exact mt (hcovered n).mp (hrun (n + 1) (by omega) (by omega)).2

/-- **The test** asks for two instances with new lines. -/
lemma contributesNewDuplicateLines_iff
    (h : Covers selected (chosen.flatMap fun c => c.group.instances)) (group : CloneGroup S) :
    contributesNewDuplicateLines group selected minNewLines = true ↔
      AddsNewLines minNewLines chosen group := by
  unfold contributesNewDuplicateLines
  rw [decide_eq_true_iff, length_take, ge_iff_le, le_min_iff, and_iff_right (le_refl 2)]
  constructor
  · intro hlength
    obtain ⟨a, b, rest, hfilter⟩ : ∃ a b rest,
        group.instances.filter (hasNewLines selected minNewLines) = a :: b :: rest :=
      match group.instances.filter (hasNewLines selected minNewLines), hlength with
      | a :: b :: rest, _ => ⟨a, b, rest, rfl⟩
    have hsub : [a, b].Sublist (group.instances.filter (hasNewLines selected minNewLines)) := by
      rw [hfilter]
      exact sublist_append_left [a, b] rest
    have hall : ∀ item ∈ [a, b], AddsRun minNewLines chosen item := fun item hitem =>
      (hasNewLines_iff h item).mp (mem_filter.mp (hsub.subset hitem)).2
    exact ⟨a, b, hsub.trans filter_sublist, hall a (by simp), hall b (by simp)⟩
  · rintro ⟨a, b, hsub, ha, hb⟩
    have hfiltered := hsub.filter (hasNewLines selected minNewLines)
    rw [filter_cons_of_pos ((hasNewLines_iff h a).mpr ha),
      filter_cons_of_pos ((hasNewLines_iff h b).mpr hb)] at hfiltered
    exact hfiltered.length_le

/-! ## The selection -/

variable (top : ℕ) (minNewLines : ℕ) (included : CloneGroup S → Bool)

/-- The turn of a candidate: whether it is selected next to what has been selected. -/
def Selected (chosen : List (DuplicateCandidate S)) (c : DuplicateCandidate S) : Prop :=
  chosen.length < top ∧ included c.group = true ∧
    (chosen ≠ [] → AddsNewLines minNewLines chosen c.group)

open Classical in
/-- The candidates that are selected, turn by turn. -/
noncomputable def pick (candidates : List (DuplicateCandidate S)) : List (DuplicateCandidate S) :=
  (Greedy.split (fun chosen c => decide (Selected top minNewLines included chosen c))
    candidates).kept

open Classical in
lemma topDuplicateBlocksLoop_eq (rest : List (DuplicateCandidate S))
    {selected : List (PathBuf × List Interval)} {chosen : List (DuplicateCandidate S)}
    (h : Covers selected (chosen.flatMap fun c => c.group.instances))
    (rejected : List (DuplicateCandidate S)) :
    topDuplicateBlocksLoop top minNewLines included selected (chosen.map (·.block)) rest =
      (rest.foldl (Greedy.pass fun chosen c =>
        decide (Selected top minNewLines included chosen c)) ⟨chosen, rejected⟩).kept.map
          (·.block) := by
  induction rest generalizing selected chosen rejected with
  | nil => rfl
  | cons c rest ih =>
    have hcontributes : contributesNewDuplicateLines c.group selected minNewLines = true ↔
        AddsNewLines minNewLines chosen c.group := contributesNewDuplicateLines_iff h c.group
    have hempty : (chosen.map (·.block)).isEmpty = true ↔ chosen = [] := by
      rw [List.isEmpty_iff, map_eq_nil_iff]
    rw [topDuplicateBlocksLoop, foldl_cons, Greedy.pass, length_map]
    by_cases hfull : chosen.length ≥ top
    · have hnot : ¬Selected top minNewLines included chosen c := fun hsel =>
        absurd hsel.1 (not_lt.mpr hfull)
      rw [if_pos hfull, if_neg (mt of_decide_eq_true hnot), ← ih h]
      cases rest with
      | nil => rfl
      | cons d rest => rw [topDuplicateBlocksLoop, length_map, if_pos hfull]
    rw [if_neg hfull]
    by_cases hincluded : included c.group = true
    · rw [hincluded, Bool.not_true, if_neg Bool.false_ne_true]
      have htest : (!(chosen.map (·.block)).isEmpty &&
          !contributesNewDuplicateLines c.group selected minNewLines) = true ↔
          ¬(chosen ≠ [] → AddsNewLines minNewLines chosen c.group) := by
        rw [Bool.and_eq_true, Bool.not_eq_true', Bool.not_eq_true', ← Bool.not_eq_true, hempty,
          ← Bool.not_eq_true, hcontributes, Classical.not_imp]
      by_cases hnew : chosen ≠ [] → AddsNewLines minNewLines chosen c.group
      · have hcovers : Covers (c.group.instances.foldl coverInstance selected)
            ((chosen ++ [c]).flatMap fun c => c.group.instances) := by
          rw [flatMap_append, flatMap_singleton]
          exact h.foldl_coverInstance c.group.instances
        rw [if_neg (fun hskip => htest.mp hskip hnew),
          if_pos (decide_eq_true ⟨not_le.mp hfull, hincluded, hnew⟩), ← ih hcovers, map_append,
          map_singleton]
      · have hnot : ¬Selected top minNewLines included chosen c := fun hsel => hnew hsel.2.2
        rw [if_pos (htest.mpr hnew), if_neg (mt of_decide_eq_true hnot), ← ih h]
    · have hnot : ¬Selected top minNewLines included chosen c := fun hsel => hincluded hsel.2.1
      rw [Bool.not_eq_true] at hincluded
      rw [hincluded, Bool.not_false, if_pos rfl, if_neg (mt of_decide_eq_true hnot), ← ih h]

/-- What the compact projection selects, and why a candidate is passed over. -/
structure CompactProjection (pick : List (DuplicateCandidate S) → List (DuplicateCandidate S)) :
    Prop where
  blocks : ∀ candidates, topDuplicateBlocksWhere top minNewLines included candidates =
    (pick candidates).map (·.block)
  start : pick [] = []
  turn : ∀ before c, pick (before ++ [c]) = pick before ++ [c] ∧ (pick before).length < top ∧
        included c.group = true ∧
        (pick before ≠ [] → AddsNewLines minNewLines (pick before) c.group) ∨
      pick (before ++ [c]) = pick before ∧ (top ≤ (pick before).length ∨ included c.group = false ∨
        pick before ≠ [] ∧ ¬AddsNewLines minNewLines (pick before) c.group)

open Classical in
lemma compactProjection_pick :
    CompactProjection top minNewLines included (pick top minNewLines included) where
  blocks := by
    intro candidates
    have hnothing : Covers [] (([] : List (DuplicateCandidate S)).flatMap fun c =>
        c.group.instances) := fun path => ⟨Spaced.nil, fun n => by simp [rangesAt]⟩
    exact topDuplicateBlocksLoop_eq top minNewLines included candidates hnothing []
  start := rfl
  turn := by
    intro before c
    unfold pick
    rw [Greedy.split_append_singleton, Greedy.pass]
    split_ifs with hsel
    · have hselected : Selected top minNewLines included _ c := of_decide_eq_true hsel
      exact .inl ⟨rfl, hselected⟩
    · refine .inr ⟨rfl, ?_⟩
      rw [decide_eq_true_iff, Selected, not_and_or, not_and_or, Classical.not_imp, not_lt,
        Bool.not_eq_true] at hsel
      exact hsel

end

/-- **The compact projection** selects by new lines, and its row of ranges and its gap scan agree
with sets of lines after every sequence of insertions. -/
theorem compact_projection : (∀ (S : Type) (top minNewLines : ℕ) (included : CloneGroup S → Bool),
      ∃ pick, CompactProjection top minNewLines included pick) ∧
    ∀ ranges : List Interval, (∀ r ∈ ranges, r.1 < r.2) →
      (∀ n, n ∈ points (ranges.foldl insertLineRange []) ↔ ∃ r ∈ ranges, r.1 ≤ n ∧ n < r.2) ∧
      ∀ range : Interval, range.1 ≤ range.2 →
        IsGreatest {count | ∃ start, range.1 ≤ start ∧ start + count ≤ range.2 ∧
          ∀ n, start ≤ n → n < start + count → ¬∃ r ∈ ranges, r.1 ≤ n ∧ n < r.2}
          (longestUncoveredRun range (ranges.foldl insertLineRange [])) := by
  refine ⟨fun S top minNewLines included =>
    ⟨_, compactProjection_pick top minNewLines included⟩, fun ranges hranges => ?_⟩
  obtain ⟨hspaced, hunion⟩ := foldl_insertLineRange_spec ranges hranges Spaced.nil
  have hpoints : ∀ n, n ∈ points (ranges.foldl insertLineRange []) ↔
      ∃ r ∈ ranges, r.1 ≤ n ∧ n < r.2 := by
    intro n
    rw [hunion, points_nil, Finset.empty_union, mem_points]
  refine ⟨hpoints, fun range hrange => ?_⟩
  have hgreatest := longestUncoveredRun_isGreatest hspaced hrange
  unfold FreeRun at hgreatest
  simp only [hpoints] at hgreatest
  exact hgreatest

/-- Between two ranges there are at most two lines in a row. -/
theorem compact_projection_gap :
    longestUncoveredRun (0, 10) ([(5, 8), (0, 3)].foldl insertLineRange []) = 2 ∧
      (2 ∈ {count | ∃ start, 0 ≤ start ∧ start + count ≤ 10 ∧ ∀ n, start ≤ n → n < start + count →
        ¬∃ r ∈ [((5 : ℕ), 8), (0, 3)], r.1 ≤ n ∧ n < r.2}) := by
  have hrun : longestUncoveredRun (0, 10) ([(5, 8), (0, 3)].foldl insertLineRange []) = 2 := by
    decide
  have hgreatest := (compact_projection.2 [(5, 8), (0, 3)] (by decide)).2 (0, 10) (by decide)
  rw [hrun] at hgreatest
  exact ⟨hrun, hgreatest.1⟩

end Reposcout.Scan
