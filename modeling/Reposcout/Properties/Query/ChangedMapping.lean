import Mathlib.Data.List.Basic
import Reposcout.Query.ChangedMapping

/-!
# Lines of a diff are translated back and forth

The hunks of a diff are in order, and the lines between them are the same on both sides.  The lines
before, between and after the hunks are then paired off, and the translation follows the pairs.
-/

namespace Reposcout.Query

open List

namespace ChangeHunk

def oldGap (hunk : ChangeHunk) : ℕ := hunk.oldStart - if hunk.oldLines > 0 then 1 else 0

def newGap (hunk : ChangeHunk) : ℕ := hunk.flip.oldGap

def oldEnd (hunk : ChangeHunk) : ℕ := hunk.oldGap + hunk.oldLines

def newEnd (hunk : ChangeHunk) : ℕ := hunk.flip.oldEnd

/-- A range with lines starts at a line. -/
def Anchored (hunk : ChangeHunk) : Prop := 0 < hunk.oldLines → 0 < hunk.oldStart

end ChangeHunk

/-- The hunks behind a place are in order, with as many lines between them on both sides. -/
def Ordered : ℕ → ℕ → List ChangeHunk → Prop
  | _, _, [] => True
  | source, target, hunk :: hunks =>
    hunk.Anchored ∧ hunk.flip.Anchored ∧ source ≤ hunk.oldGap ∧
      hunk.oldGap + target = hunk.newGap + source ∧ Ordered hunk.oldEnd hunk.newEnd hunks

/-- The pairs of equal lines behind a place, by the numbers of lines before them. -/
def Counterpart : ℕ → ℕ → List ChangeHunk → ℕ → ℕ → Prop
  | source, target, [], line, other => source ≤ line ∧ line + target = other + source
  | source, target, hunk :: hunks, line, other =>
    (source ≤ line ∧ line < hunk.oldGap ∧ line + target = other + source) ∨
      Counterpart hunk.oldEnd hunk.newEnd hunks line other

def Removed (hunks : List ChangeHunk) (line : ℕ) : Prop :=
  ∃ hunk ∈ hunks, hunk.oldStart ≤ line ∧ line < hunk.oldStart + hunk.oldLines

variable {source target line other : ℕ} {hunks : List ChangeHunk}

open ChangeHunk

lemma counterpart_bounds (hordered : Ordered source target hunks)
    (h : Counterpart source target hunks line other) : source ≤ line ∧ target ≤ other := by
  induction hunks generalizing source target with
  | nil =>
    obtain ⟨hline, heq⟩ := h
    omega
  | cons hunk hunks ih =>
    obtain ⟨_, _, hle, hgap, hrest⟩ := hordered
    rcases h with ⟨hline, _, heq⟩ | h
    · omega
    · have hbounds := ih hrest h
      simp only [oldEnd, newEnd, newGap] at hbounds hgap
      omega

lemma counterpart_lt {line' other' : ℕ} (hordered : Ordered source target hunks)
    (h : Counterpart source target hunks line other)
    (h' : Counterpart source target hunks line' other') (hlt : line < line') : other < other' := by
  induction hunks generalizing source target with
  | nil =>
    obtain ⟨_, heq⟩ := h
    obtain ⟨_, heq'⟩ := h'
    omega
  | cons hunk hunks ih =>
    obtain ⟨_, _, hle, hgap, hrest⟩ := hordered
    rcases h with ⟨_, hbefore, heq⟩ | h
    · rcases h' with ⟨_, _, heq'⟩ | h'
      · omega
      · have hbounds := counterpart_bounds hrest h'
        simp only [newEnd, oldEnd, newGap] at hbounds hgap
        omega
    · rcases h' with ⟨_, hbefore, _⟩ | h'
      · have hbounds := counterpart_bounds hrest h
        simp only [oldEnd] at hbounds
        omega
      · exact ih hrest h h'

/-! ## The other side -/

lemma ordered_flip (h : Ordered source target hunks) :
    Ordered target source (hunks.map flip) := by
  induction hunks generalizing source target with
  | nil => trivial
  | cons hunk hunks ih =>
    obtain ⟨hold, hnew, hle, hgap, hrest⟩ := h
    have hgap' : hunk.flip.oldGap + source = hunk.flip.newGap + target := hgap.symm
    refine ⟨hnew, hold, ?_, hgap', ih hrest⟩
    simp only [newGap] at hgap
    omega

lemma counterpart_flip (hordered : Ordered source target hunks)
    (h : Counterpart source target hunks line other) :
    Counterpart target source (hunks.map flip) other line := by
  induction hunks generalizing source target with
  | nil =>
    obtain ⟨hline, heq⟩ := h
    exact ⟨by omega, heq.symm⟩
  | cons hunk hunks ih =>
    obtain ⟨_, _, _, hgap, hrest⟩ := hordered
    rcases h with ⟨hline, hbefore, heq⟩ | h
    · simp only [newGap] at hgap
      exact .inl ⟨by omega, by omega, heq.symm⟩
    · exact .inr (ih hrest h)

lemma counterpart_unique {other' : ℕ} (hordered : Ordered source target hunks)
    (h : Counterpart source target hunks line other)
    (h' : Counterpart source target hunks line other') : other = other' := by
  have hflip := counterpart_flip hordered h
  have hflip' := counterpart_flip hordered h'
  rcases Nat.lt_trichotomy other other' with hlt | heq | hlt
  · exact absurd (counterpart_lt (ordered_flip hordered) hflip hflip' hlt) (Nat.lt_irrefl _)
  · exact heq
  · exact absurd (counterpart_lt (ordered_flip hordered) hflip' hflip hlt) (Nat.lt_irrefl _)

lemma map_orient (oldSide : Bool) (hunks : List ChangeHunk) :
    hunks.map (orient oldSide) = if oldSide then hunks else hunks.map .flip := by
  cases oldSide
  · rfl
  · exact map_id _

lemma ordered_orient (h : Ordered 0 0 hunks) (oldSide : Bool) :
    Ordered 0 0 (hunks.map (orient oldSide)) := by
  rw [map_orient]
  split_ifs
  · exact h
  · exact ordered_flip h

lemma flip_orient (oldSide : Bool) (hunks : List ChangeHunk) :
    (hunks.map (orient oldSide)).map .flip = hunks.map (orient !oldSide) := by
  rw [map_map]
  cases oldSide <;> rfl

/-! ## The loop -/

lemma shiftLine_eq_some_iff : shiftLine line source target = some other ↔
    source ≤ line ∧ line - source + target + 1 = other ∧ other ≤ u64Max := by
  simp only [shiftLine, checkedSub, checkedAdd]
  split_ifs with hle
  · simp only [Option.bind_some]
    split_ifs
    · simp only [Option.bind_some]
      split_ifs
      · simp only [Option.some.injEq]
        omega
      · simp only [false_iff]
        omega
    · simp only [Option.bind_none, reduceCtorEq, false_iff]
      omega
  · simp [hle]

lemma checkedSub_start {hunk : ChangeHunk} (h : hunk.Anchored) :
    checkedSub hunk.oldStart (if hunk.oldLines > 0 then 1 else 0) = some hunk.oldGap := by
  refine if_pos ?_
  split_ifs with hlines
  · exact h hlines
  · omega

/-- The translation follows the pairs of equal lines, as far as the numbers go. -/
lemma unchangedFrom_eq_some_iff {oldSide : Bool} (hline : line ≤ u64Max)
    (hordered : Ordered source target (hunks.map (orient oldSide)))
    (hle : source ≤ line) : unchangedFrom oldSide line source target hunks = some other ↔
      Counterpart source target (hunks.map (orient oldSide)) line (other - 1) ∧
        0 < other ∧ other ≤ u64Max := by
  induction hunks generalizing source target with
  | nil =>
    simp only [unchangedFrom, shiftLine_eq_some_iff, map_nil, Counterpart]
    omega
  | cons hunk hunks ih =>
    rw [map_cons] at hordered ⊢
    simp only [unchangedFrom]
    generalize hunk.orient oldSide = side at hordered ⊢
    obtain ⟨hold, hnew, hsource, hgap, hrest⟩ := hordered
    have hotherStart : checkedSub side.newStart (if side.newLines > 0 then 1 else 0) =
        some side.newGap := checkedSub_start hnew
    have hend : side.oldEnd = side.oldGap + side.oldLines := rfl
    have hotherEnd : side.newEnd = side.newGap + side.newLines := rfl
    simp only [checkedSub_start hold, hotherStart, Counterpart, Option.bind_some]
    split_ifs with hbefore
    · rw [shiftLine_eq_some_iff]
      refine ⟨fun _ => ⟨.inl (by omega), by omega⟩, ?_⟩
      rintro ⟨hpair | hpair, _⟩
      · omega
      · have hbounds := counterpart_bounds hrest hpair
        omega
    rw [and_congr_left fun _ => or_iff_right (by omega), checkedAdd, ← hend]
    split_ifs with hfits
    · rw [Option.bind_some]
      split_ifs with hinside
      · simp only [false_iff]
        rintro ⟨hpair, _⟩
        have hbounds := counterpart_bounds hrest hpair
        omega
      · rw [checkedAdd, ← hotherEnd]
        split_ifs with hotherFits
        · rw [Option.bind_some, ih hrest (by omega)]
        · simp only [Option.bind_none, reduceCtorEq, false_iff]
          rintro ⟨hpair, _⟩
          have hbounds := counterpart_bounds hrest hpair
          omega
    · simp only [Option.bind_none, reduceCtorEq, false_iff]
      rintro ⟨hpair, _⟩
      have hbounds := counterpart_bounds hrest hpair
      omega

lemma unchangedLine_eq_some_iff {oldSide : Bool} (hline : line ≤ u64Max)
    (hordered : Ordered 0 0 hunks) : unchangedLine line hunks oldSide = some other ↔ 0 < line ∧
      Counterpart 0 0 (hunks.map (orient oldSide)) (line - 1) (other - 1) ∧
        0 < other ∧ other ≤ u64Max := by
  rw [unchangedLine, checkedSub]
  split_ifs with hpos
  · rw [Option.bind_some, unchangedFrom_eq_some_iff (by omega) (ordered_orient hordered oldSide)
      (Nat.zero_le _)]
    exact (and_iff_right hpos).symm
  · simp only [Option.bind_none, reduceCtorEq, false_iff]
    omega

/-! ## Lines without a pair -/

lemma removed_cons_iff {hunk : ChangeHunk} (h : hunk.Anchored) :
    Removed (hunk :: hunks) (line + 1) ↔
      (hunk.oldGap ≤ line ∧ line < hunk.oldEnd) ∨ Removed hunks (line + 1) := by
  have hinside : hunk.oldStart ≤ line + 1 ∧ line + 1 < hunk.oldStart + hunk.oldLines ↔
      hunk.oldGap ≤ line ∧ line < hunk.oldEnd := by
    rw [oldEnd, oldGap]
    split_ifs with hlines
    · have hstart := h hlines
      omega
    · omega
  simp only [Removed, exists_mem_cons_iff, hinside]

lemma le_of_removed (hordered : Ordered source target hunks) (h : Removed hunks (line + 1)) :
    source ≤ line := by
  induction hunks generalizing source target with
  | nil => simp [Removed] at h
  | cons hunk hunks ih =>
    obtain ⟨hold, _, hsource, _, hrest⟩ := hordered
    rcases (removed_cons_iff hold).mp h with hinside | hlater
    · omega
    · have hle := ih hrest hlater
      rw [oldEnd] at hle
      omega

/-- A line has no pair exactly if it is removed. -/
lemma exists_counterpart_iff (hordered : Ordered source target hunks) (hle : source ≤ line) :
    (∃ other, Counterpart source target hunks line other) ↔ ¬Removed hunks (line + 1) := by
  induction hunks generalizing source target with
  | nil => exact iff_of_true ⟨line - source + target, hle, by omega⟩ (by simp [Removed])
  | cons hunk hunks ih =>
    obtain ⟨hold, _, hsource, hgap, hrest⟩ := hordered
    rw [removed_cons_iff hold, not_or]
    simp only [Counterpart, exists_or]
    by_cases hlater : hunk.oldEnd ≤ line
    · rw [ih hrest hlater, and_iff_right (by omega), or_iff_right_iff_imp]
      rintro ⟨_, _, hbefore, _⟩
      rw [oldEnd] at hlater
      omega
    · have hpair : ¬∃ other, Counterpart hunk.oldEnd hunk.newEnd hunks line other :=
        fun ⟨_, hpair⟩ => hlater (counterpart_bounds hrest hpair).1
      rw [or_iff_left hpair, and_iff_left (mt (le_of_removed hrest) hlater)]
      constructor
      · rintro ⟨_, _, hbefore, _⟩
        omega
      · intro hbefore
        exact ⟨line - source + target, hle, by omega, by omega⟩

/-- **The translation is a strictly monotone bijection between the lines that are not in a hunk, as
far as the numbers of both lines are in range.** -/
lemma unchangedLine_translates (hordered : Ordered 0 0 hunks) (oldSide : Bool) :
    (∀ line ≤ u64Max, ∀ other, unchangedLine line hunks oldSide = some other →
      unchangedLine other hunks (!oldSide) = some line) ∧
    (∀ line ≤ u64Max, ∀ line' ≤ u64Max, ∀ other other', unchangedLine line hunks oldSide =
      some other → unchangedLine line' hunks oldSide = some other' → line < line' →
      other < other') ∧
    ∀ line ≤ u64Max, unchangedLine line hunks oldSide = none ↔
      line = 0 ∨ Removed (hunks.map (ChangeHunk.orient oldSide)) line ∨
        ∃ other, Counterpart 0 0 (hunks.map (ChangeHunk.orient oldSide)) (line - 1) other ∧
          u64Max ≤ other := by
  have hside := ordered_orient hordered oldSide
  refine ⟨fun line hline other h => ?_, fun line hline line' hline' other other' h h' hlt => ?_,
    fun line hline => ?_⟩
  · obtain ⟨hpos, hpair, hother, hrange⟩ := (unchangedLine_eq_some_iff hline hordered).mp h
    rw [unchangedLine_eq_some_iff hrange hordered, ← flip_orient]
    exact ⟨hother, counterpart_flip hside hpair, hpos, hline⟩
  · obtain ⟨hpos, hpair, _, _⟩ := (unchangedLine_eq_some_iff hline hordered).mp h
    obtain ⟨_, hpair', _, _⟩ := (unchangedLine_eq_some_iff hline' hordered).mp h'
    have hless := counterpart_lt hside hpair hpair' (by omega)
    omega
  · cases line with
    | zero => simp [unchangedLine, checkedSub]
    | succ line =>
      have hexists := exists_counterpart_iff hside (Nat.zero_le line)
      simp only [Option.eq_none_iff_forall_ne_some, ne_eq,
        unchangedLine_eq_some_iff hline hordered, Nat.add_sub_cancel, Nat.succ_ne_zero, false_or]
      constructor
      · intro hnone
        refine or_iff_not_imp_left.mpr fun hkept => ?_
        obtain ⟨other, hpair⟩ := hexists.mpr hkept
        refine ⟨other, hpair, Nat.not_lt.mp fun hrange => ?_⟩
        exact hnone (other + 1) ⟨Nat.succ_pos _, hpair, Nat.succ_pos _, hrange⟩
      · rintro (hremoved | ⟨other, hpair, hrange⟩) found ⟨_, hfound, hpos, hfits⟩
        · exact hexists.mp ⟨_, hfound⟩ hremoved
        · have hsame := counterpart_unique hside hpair hfound
          omega

/-- Two lines are put before the file, and its third and fourth line are deleted. -/
def insertedAndDeleted : List ChangeHunk := [⟨0, 0, 1, 2⟩, ⟨3, 2, 4, 0⟩]

lemma unchangedLine_translates_insertedAndDeleted :
    unchangedLine 4 insertedAndDeleted false = some 2 := by
  have hordered : Ordered 0 0 insertedAndDeleted := by
    simp [insertedAndDeleted, Ordered, ChangeHunk.Anchored, ChangeHunk.oldGap, ChangeHunk.newGap,
      ChangeHunk.oldEnd, ChangeHunk.newEnd, ChangeHunk.flip]
  exact (unchangedLine_translates hordered true).1 2 (by decide) 4 (by decide)

/-- The translation of a line that is not removed may be out of range. -/
lemma not_unchangedLine_eq_none_iff : ¬∀ hunks, Ordered 0 0 hunks → ∀ line ≤ u64Max, 0 < line →
    (unchangedLine line hunks true = none ↔ Removed hunks line) := by
  intro h
  have hordered : Ordered 0 0 [⟨0, 0, 1, 1⟩] := by
    simp [Ordered, ChangeHunk.Anchored, ChangeHunk.oldGap, ChangeHunk.newGap, ChangeHunk.flip]
  obtain ⟨hunk, hmem, hbefore, hinside⟩ :=
    (h [⟨0, 0, 1, 1⟩] hordered u64Max (Nat.le_refl _) (by decide)).mp (by decide)
  obtain rfl := mem_singleton.mp hmem
  cases hinside

end Reposcout.Query
