import Mathlib.Data.List.ModifyLast
import Reposcout.Framework.UnifiedDiff
import Reposcout.Query.ReviewContext.Brief.Parse

/-!
# Reading a diff back

What `parse` makes of a printed diff: its hunks with their places, their lines with the numbers
they have in the two texts, and their texts.  Nothing that a line says is taken for a header,
since every line of a hunk stands behind its tag.
-/

namespace Reposcout.Query.ReviewContext.Brief

open UnifiedDiff List Option Line

/-! ## Headers -/

lemma parseUsize_toDigits (n : ℕ) : parseUsize (Nat.toDigits 10 n) = some n := by
  have hdigits : ∀ c ∈ Nat.toDigits 10 n, c.isDigit = true := fun c hc =>
    Nat.isDigit_of_mem_toDigits (by decide) (by decide) hc
  have hplus : (Nat.toDigits 10 n).head? ≠ some '+' := by
    intro hhead
    exact absurd (hdigits '+' (mem_of_mem_head? hhead)) (by decide)
  rw [parseUsize, if_neg hplus, if_pos ⟨Nat.toDigits_ne_nil, all_eq_true.mpr hdigits⟩,
    Nat.ofDigitChars_ten_toDigits]

lemma parseRange_printRange (index count : ℕ) (counted : Bool) :
    parseRange (printRange index count counted) = some (startNumber index count, count) := by
  rw [printRange]
  split_ifs with h
  · rw [append_nil, parseRange, splitOnce_singleton_eq_none (notMem_toDigits (by decide) _)]
    simp [parseUsize_toDigits, h.1]
  · rw [parseRange, splitOnce_singleton (notMem_toDigits (by decide) _)]
    simp [parseUsize_toDigits]

/-- What the code reads behind `@@ `. -/
lemma headerRanges_header (hunk : UnifiedDiff.Hunk) :
    ∃ header, hunk.header = "@@ ".toList ++ header ∧ headerRanges header =
      some ((startNumber hunk.oldIndex hunk.oldSide.length, hunk.oldSide.length),
        startNumber hunk.newIndex hunk.newSide.length, hunk.newSide.length) := by
  let old := printRange hunk.oldIndex hunk.oldSide.length hunk.oldCounted
  let new := printRange hunk.newIndex hunk.newSide.length hunk.newCounted
  let ranges := '-' :: old ++ ' ' :: '+' :: new
  have hat : '@' ∉ ranges := by
    simp [ranges, old, new, notMem_printRange]
  have hblank : ' ' ∉ '-' :: old := by
    simp [old, notMem_printRange]
  refine ⟨ranges ++ " @@".toList ++ hunk.heading, by simp [Hunk.header, ranges, old, new], ?_⟩
  -- A separator that began in the ranges would have its `@` there, or a blank for it.
  have hfirst : ∀ front back, ranges = front ++ back → back ≠ [] →
      ¬" @@".toList <+: back ++ " @@".toList ++ hunk.heading := by
    intro front back hranges hback hfirst
    have hback' : '@' ∉ back := fun hmem => hat (hranges ▸ mem_append_right front hmem)
    obtain ⟨c, tail, rfl⟩ := exists_cons_of_ne_nil hback
    have hseparator : " @@".toList = [' ', '@', '@'] := rfl
    rw [hseparator] at hfirst
    cases tail with
    | nil =>
      rw [cons_append, cons_append, cons_prefix_cons] at hfirst
      exact absurd (cons_prefix_cons.mp hfirst.2).1 (by decide)
    | cons d tail =>
      simp only [cons_append, cons_prefix_cons] at hfirst
      exact hback' (hfirst.2.1 ▸ mem_cons_of_mem c mem_cons_self)
  rw [headerRanges, splitOnce_append (by decide) hfirst]
  simp only [bind_eq_bind, bind_some]
  rw [splitOnce_singleton hblank]
  have hold : stripStart "-" ('-' :: old) = some old := stripStart_eq_some_iff.mpr rfl
  have hnew : stripStart "+" ('+' :: new) = some new := stripStart_eq_some_iff.mpr rfl
  simp only [bind_some, hold, hnew, old, new, parseRange_printRange]
  rfl

/-! ## Blocks -/

def tagAt (lines : List Line) (index : ℕ) : Option Char := lines[index]?.map Line.tag

structure IsRun (lines : List Line) (start middle stop : ℕ) : Prop where
  start_le : start ≤ middle
  le_stop : middle ≤ stop
  nonempty : start < stop
  removed : ∀ i, start ≤ i → i < middle → tagAt lines i = some '-'
  added : ∀ i, middle ≤ i → i < stop → tagAt lines i = some '+'

def MaximalRun (lines : List Line) (start middle stop : ℕ) : Prop :=
  IsRun lines start middle stop ∧ ∀ start' middle' stop', IsRun lines start' middle' stop' →
    start' ≤ start → stop ≤ stop' → start' = start ∧ middle' = middle ∧ stop' = stop

/-- The blocks have every changed line once and no other, in maximal runs. -/
structure SplitsInto (lines : List Line) (blocks : List Block) : Prop where
  covers : (blocks.flatMap fun block => block.removed.indices ++ block.added.indices) =
    (List.range lines.length).filter fun index => tagAt lines index ≠ some ' '
  runs : ∀ block ∈ blocks, block.removed.stop = block.added.start ∧
    MaximalRun lines block.removed.start block.removed.stop block.added.stop

lemma IsRun.maximal {lines : List Line} {start middle stop : ℕ}
    (h : IsRun lines start middle stop)
    (hbefore : ∀ i, i + 1 = start → tagAt lines i ≠ some '-' ∧
      (start = middle → tagAt lines i ≠ some '+'))
    (hbehind : tagAt lines stop ≠ some '+' ∧ (middle = stop → tagAt lines stop ≠ some '-')) :
    MaximalRun lines start middle stop := by
  refine ⟨h, ?_⟩
  intro start' middle' stop' h' hstart hstop
  have hplus : (some '+' : Option Char) ≠ some '-' := by decide
  -- The two runs agree where removed lines turn into added ones.
  have hmiddle : ∀ i, start ≤ i → i < stop → (i < middle ↔ i < middle') := by
    intro i hi hi'
    constructor
    · intro hlt
      by_contra hge
      have hadded := h'.added i (by omega) (by omega)
      rw [h.removed i hi hlt] at hadded
      exact hplus hadded.symm
    · intro hlt
      by_contra hge
      have hremoved := h'.removed i (by omega) hlt
      rw [h.added i (by omega) hi'] at hremoved
      exact hplus hremoved
  have hstart' : start' = start := by
    by_contra hne
    obtain ⟨hnotRemoved, hnotAdded⟩ := hbefore (start - 1) (by omega)
    by_cases hlt : start - 1 < middle'
    · exact hnotRemoved (h'.removed _ (by omega) hlt)
    · have hnone := (hmiddle start le_rfl h.nonempty).mp.mt (by omega)
      have hle := h.start_le
      exact hnotAdded (by omega) (h'.added _ (by omega) (by have := h.nonempty; omega))
  have hstop' : stop' = stop := by
    by_contra hne
    by_cases hlt : stop < middle'
    · have hlast := (hmiddle (stop - 1) (by have := h.nonempty; omega)
        (by have := h.nonempty; omega)).mpr (by omega)
      have hle := h.le_stop
      exact hbehind.2 (by omega) (h'.removed stop (by have := h.nonempty; omega) hlt)
    · exact hbehind.1 (h'.added stop (by omega) (by omega))
  refine ⟨hstart', ?_, hstop'⟩
  have hle := h.start_le
  have hle' := h.le_stop
  have hlo := h'.start_le
  have hlo' := h'.le_stop
  by_contra hne
  rcases Nat.lt_or_gt_of_ne hne with hlt | hlt
  · have := (hmiddle middle' (by omega) (by omega)).mp hlt
    omega
  · have := (hmiddle middle (by omega) (by omega)).mpr hlt
    omega

/-- Two neighbours that are in no run together. -/
def Cut (before : Option Char) (behind : Option Char) : Prop :=
  (before = some '-' → behind ≠ some '-' ∧ behind ≠ some '+') ∧
    (before = some '+' → behind ≠ some '+')

lemma tagAt_segment {tag : Char} {segment : List Line} (h : ∀ line ∈ segment, line.tag = tag)
    (front behind : List Line) {index : ℕ} (hle : front.length ≤ index)
    (hlt : index < front.length + segment.length) :
    tagAt (front ++ (segment ++ behind)) index = some tag := by
  rw [tagAt, getElem?_append_right hle, getElem?_append_left (by omega),
    getElem?_eq_getElem (by omega), map_some, h _ (getElem_mem _)]

lemma filter_segment {tag : Char} {segment : List Line} (h : ∀ line ∈ segment, line.tag = tag)
    (htag : tag ≠ ' ') (front behind : List Line) :
    ((range' front.length segment.length).filter fun index =>
      tagAt (front ++ (segment ++ behind)) index ≠ some ' ') =
      range' front.length segment.length := by
  rw [filter_eq_self]
  intro index hindex
  rw [mem_range'_1] at hindex
  rw [tagAt_segment h front behind hindex.1 hindex.2]
  simpa using htag

lemma tagAt_front (front behind : List Line) :
    tagAt (front ++ behind) front.length = behind.head?.map tag := by
  rw [tagAt, getElem?_append_right le_rfl, Nat.sub_self, head?_eq_getElem?]

lemma tagAt_last {front : List Line} (behind : List Line) {index : ℕ}
    (h : index + 1 = front.length) :
    tagAt (front ++ behind) index = front.getLast?.map tag := by
  rw [tagAt, getElem?_append_left (by omega), getLast?_eq_getElem?, ← h, Nat.add_sub_cancel]

lemma exists_round (lines : List Line) : ∃ removed added others : List Line,
    lines = removed ++ (added ++ others) ∧ tagCount '-' lines = removed.length ∧
      tagCount '+' (lines.drop removed.length) = added.length ∧
      (∀ line ∈ removed, line.tag = '-') ∧ (∀ line ∈ added, line.tag = '+') ∧
      others.head?.map Line.tag ≠ some '+' ∧
      (added = [] → others.head?.map Line.tag ≠ some '-') := by
  have hhead : ∀ (tag : Char) (rest : List Line),
      (rest.dropWhile fun line => line.tag = tag).head?.map Line.tag ≠ some tag := by
    intro tag rest hsome
    obtain ⟨line, hline, htag⟩ := map_eq_some_iff.mp hsome
    have hnot := head?_dropWhile_not (fun line : Line => decide (line.tag = tag)) rest
    rw [hline] at hnot
    simp [htag] at hnot
  let removed := lines.takeWhile fun line => line.tag = '-'
  let rest := lines.dropWhile fun line => line.tag = '-'
  have hlines : lines = removed ++ rest := (takeWhile_append_dropWhile).symm
  have hrest : rest = (rest.takeWhile fun line => line.tag = '+') ++
      rest.dropWhile fun line => line.tag = '+' := (takeWhile_append_dropWhile).symm
  refine ⟨removed, rest.takeWhile fun line => line.tag = '+',
    rest.dropWhile fun line => line.tag = '+', by rw [← hrest]; exact hlines, rfl, ?_, ?_, ?_,
    hhead '+' rest, ?_⟩
  · rw [tagCount]
    conv_lhs => rw [hlines, drop_left]
  · intro line hline
    simpa using mem_takeWhile_imp hline
  · intro line hline
    simpa using mem_takeWhile_imp hline
  · intro hnil
    rw [hnil, nil_append] at hrest
    rw [← hrest]
    exact hhead '-' lines

lemma maximalRun_of_round {front removed added others : List Line}
    (hminus : ∀ line ∈ removed, line.tag = '-') (hplus : ∀ line ∈ added, line.tag = '+')
    (hbehind : others.head?.map tag ≠ some '+')
    (hbehind' : added = [] → others.head?.map tag ≠ some '-')
    (hpassed : 0 < removed.length + added.length)
    (hcut : Cut (front.getLast?.map tag)
      ((removed ++ (added ++ others)).head?.map tag)) :
    MaximalRun (front ++ (removed ++ (added ++ others))) front.length
      (front.length + removed.length) (front.length + removed.length + added.length) := by
  have hrun : IsRun (front ++ (removed ++ (added ++ others))) front.length
      (front.length + removed.length) (front.length + removed.length + added.length) := by
    refine ⟨by omega, by omega, by omega, ?_, ?_⟩
    · intro i hi hi'
      exact tagAt_segment hminus front _ hi hi'
    · intro i hi hi'
      rw [← append_assoc]
      exact tagAt_segment hplus (front ++ removed) _ (by rw [length_append]; exact hi)
        (by rw [length_append]; exact hi')
  refine hrun.maximal ?_ ?_
  · intro i hi
    rw [tagAt_last _ hi]
    cases removed with
    | nil =>
      obtain ⟨first, more, rfl⟩ := exists_cons_of_ne_nil
        (ne_nil_of_length_pos (by simpa using hpassed))
      rw [nil_append, cons_append, head?_cons, map_some, hplus first mem_cons_self] at hcut
      exact ⟨fun h => (hcut.1 h).2 rfl, fun _ h => hcut.2 h rfl⟩
    | cons first more =>
      rw [cons_append, head?_cons, map_some, hminus first mem_cons_self] at hcut
      refine ⟨fun h => (hcut.1 h).1 rfl, fun h => ?_⟩
      rw [length_cons] at h
      omega
  · have hstop := tagAt_front (front ++ removed ++ added) others
    rw [length_append, length_append, append_assoc, append_assoc] at hstop
    rw [hstop]
    exact ⟨hbehind, fun h => hbehind' (length_eq_zero_iff.mp (by omega))⟩

lemma blocksFrom_spec (fuel : ℕ) (front lines : List Line) (hfuel : lines.length ≤ fuel)
    (htags : ∀ line ∈ lines, line.tag = ' ' ∨ line.tag = '-' ∨ line.tag = '+')
    (hcut : Cut (front.getLast?.map tag) (lines.head?.map tag)) :
    ((blocksFrom fuel front.length lines).flatMap
        fun block => block.removed.indices ++ block.added.indices) =
      ((range' front.length lines.length).filter
        fun index => tagAt (front ++ lines) index ≠ some ' ') ∧
    ∀ block ∈ blocksFrom fuel front.length lines, block.removed.stop = block.added.start ∧
      MaximalRun (front ++ lines) block.removed.start block.removed.stop block.added.stop := by
  induction fuel generalizing front lines with
  | zero =>
    rw [length_eq_zero_iff.mp (Nat.le_zero.mp hfuel)]
    exact ⟨rfl, nofun⟩
  | succ fuel ih =>
    cases lines with
    | nil => exact ⟨rfl, nofun⟩
    | cons line rest =>
      by_cases hcontext : line.tag = ' '
      · have hnext := ih (front ++ [line]) rest (Nat.le_of_succ_le_succ hfuel)
          (fun other hother => htags other (mem_cons_of_mem line hother))
          ⟨fun h => by simp [hcontext] at h, fun h => by simp [hcontext] at h⟩
        rw [length_append, length_singleton, ← append_cons] at hnext
        rw [blocksFrom, if_pos hcontext, length_cons, range'_succ, filter_cons_of_neg]
        · exact hnext
        · rw [tagAt_front]
          simp [hcontext]
      · obtain ⟨removed, added, others, hlines, hremoved, hadded, hminus, hplus, hbehind,
          hbehind'⟩ := exists_round (line :: rest)
        have hpassed : 0 < removed.length + added.length := by
          by_contra hzero
          have hnil : removed = [] := length_eq_zero_iff.mp (by omega)
          have hnil' : added = [] := length_eq_zero_iff.mp (by omega)
          rw [hnil, hnil', nil_append, nil_append] at hlines
          rw [← hlines] at hbehind hbehind'
          rcases htags line mem_cons_self with htag | htag | htag
          · exact hcontext htag
          · exact hbehind' hnil' (by rw [head?_cons, map_some, htag])
          · exact hbehind (by rw [head?_cons, map_some, htag])
        have hlength : (line :: rest).length = removed.length + added.length + others.length := by
          rw [hlines, length_append, length_append]
          omega
        have hothers : (line :: rest).drop (removed.length + added.length) = others := by
          rw [hlines, ← append_assoc, ← length_append, drop_left]
        have htexts : front ++ (line :: rest) = (front ++ removed ++ added) ++ others := by
          rw [hlines, append_assoc, append_assoc]
        have hlast : (front ++ removed ++ added).length =
            front.length + removed.length + added.length := by
          rw [length_append, length_append]
        have hcut' : Cut ((front ++ removed ++ added).getLast?.map tag)
            (others.head?.map tag) := by
          rcases eq_nil_or_concat added with rfl | ⟨adds, last, rfl⟩
          · refine ⟨fun _ => ⟨hbehind' rfl, hbehind⟩, fun _ => hbehind⟩
          · rw [concat_eq_append, ← append_assoc, getLast?_concat, map_some, hplus last (by simp)]
            exact ⟨fun h => absurd h (by decide), fun _ => hbehind⟩
        obtain ⟨hcovers, hruns⟩ := ih (front ++ removed ++ added) others
          (by rw [length_cons] at hlength hfuel; omega)
          (fun other hother => htags other (by rw [hlines]; simp [hother])) hcut'
        rw [hlast, ← htexts] at hcovers hruns
        rw [blocksFrom, if_neg hcontext]
        dsimp only
        rw [hremoved, hadded, hothers]
        constructor
        · rw [flatMap_cons, hcovers, hlength, ← range'_append_1, ← range'_append_1,
            filter_append, filter_append, ← Nat.add_assoc]
          congr 1
          congr 1
          · have hfilter := filter_segment hminus (by decide) front (added ++ others)
            rw [← hlines] at hfilter
            rw [hfilter, Span.indices, Nat.add_sub_cancel_left]
          · have hfilter := filter_segment hplus (by decide) (front ++ removed) others
            rw [append_assoc, ← hlines, length_append] at hfilter
            rw [hfilter, Span.indices, Nat.add_sub_cancel_left]
        · intro block hblock
          rcases mem_cons.mp hblock with rfl | hblock
          · rw [hlines] at hcut ⊢
            exact ⟨rfl, maximalRun_of_round hminus hplus hbehind hbehind' hpassed hcut⟩
          · exact hruns block hblock

/-- **The blocks of a hunk** are the maximal runs of its changed lines. -/
lemma blocks_splitsInto {lines : List Line}
    (htags : ∀ line ∈ lines, line.tag = ' ' ∨ line.tag = '-' ∨ line.tag = '+') :
    SplitsInto lines (blocks lines) := by
  obtain ⟨hcovers, hruns⟩ := blocksFrom_spec lines.length [] lines le_rfl htags
    ⟨fun h => by simp at h, fun h => by simp at h⟩
  refine ⟨?_, hruns⟩
  rw [range_eq_range']
  exact hcovers

/-! ## Pieces -/

def capturedLine (line : Tag × TextLine × ℕ) : Line :=
  ⟨line.1.char, String.ofList line.2.1.text, line.2.2⟩

def captured (change : ℕ) (hunk : UnifiedDiff.Hunk) : ParsedHunk where
  change := change
  lines := hunk.numbered.map capturedLine
  blocks := blocks (hunk.numbered.map capturedLine)
  oldStart := startNumber hunk.oldIndex hunk.oldSide.length
  oldLines := hunk.oldSide.length
  newStart := startNumber hunk.newIndex hunk.newSide.length
  newLines := hunk.newSide.length
  raw := String.ofList (ended hunk.printed)

/-- The hunk when its lines are read, before its text is cut out. -/
def opened (change : ℕ) (hunk : UnifiedDiff.Hunk) (lines : List Line) : ParsedHunk :=
  { captured change hunk with lines := lines, blocks := [], raw := "" }

lemma splitInclusive_ended {lines : List (List Char)} (h : ∀ line ∈ lines, '\n' ∉ line) :
    splitInclusive (ended lines) = lines.map fun line => line ++ ['\n'] := by
  induction lines with
  | nil => rfl
  | cons line rest ih =>
    rw [ended_cons, splitInclusive_line (h line mem_cons_self),
      ih fun other hother => h other (mem_cons_of_mem line hother), map_cons]

@[simp] lemma stripNewline_append (line : List Char) : stripNewline (line ++ ['\n']) = line := by
  rw [stripNewline, if_pos getLast?_concat, dropLast_concat]

variable (change offset old new : ℕ) (starts : List ℕ)

/-- In front of the first hunk nothing is read. -/
lemma parsePiece_fileHeader {line : List Char} (hline : ¬"@@ ".toList <+: line) :
    parsePiece change ⟨offset, old, new, starts, []⟩ (line ++ ['\n']) =
      ⟨offset + (line.length + 1), old, new, starts, []⟩ := by
  have hstart : stripStart "@@ " line = none := stripStart_eq_none_iff.mpr hline
  simp only [parsePiece, stripNewline_append, hstart, if_true]
  rw [length_append, length_singleton]

lemma parsePiece_header (hunks : List ParsedHunk) (hunk : UnifiedDiff.Hunk) :
    parsePiece change ⟨offset, old, new, starts, hunks⟩ (hunk.header ++ ['\n']) =
      ⟨offset + (hunk.header.length + 1), startNumber hunk.oldIndex hunk.oldSide.length,
        startNumber hunk.newIndex hunk.newSide.length, starts ++ [offset],
        hunks ++ [opened change hunk []]⟩ := by
  obtain ⟨header, hheader, hranges⟩ := headerRanges_header hunk
  have hstart : stripStart "@@ " hunk.header = some header := stripStart_eq_some_iff.mpr hheader
  simp only [parsePiece, stripNewline_append, hstart, hranges]
  rw [length_append, length_singleton]
  rfl

lemma parsePiece_line (hunks : List ParsedHunk) (last : ParsedHunk) (tag : Tag) (line : TextLine) :
    parsePiece change ⟨offset, old, new, starts, hunks ++ [last]⟩
        (tag.char :: line.text ++ ['\n']) =
      ⟨offset + (line.text.length + 1 + 1), old + tag.oldLines, new + tag.newLines, starts, hunks ++
          [pushLine (capturedLine (tag, line, if tag = .removed then old else new)) last]⟩ := by
  have hstart : stripStart "@@ " (tag.char :: line.text) = none := by
    rw [stripStart_eq_none_iff]
    intro hprefix
    have hat := (cons_prefix_cons.mp hprefix).1
    cases tag <;> cases hat
  simp only [parsePiece, stripNewline_append, hstart]
  cases tag <;>
    simp [parseLine, Tag.char, Tag.oldLines, Tag.newLines, modifyLast_concat, capturedLine]

/-- The mark under a line without a newline is passed over. -/
lemma parsePiece_noNewline {hunks : List ParsedHunk} (hne : hunks ≠ []) :
    parsePiece change ⟨offset, old, new, starts, hunks⟩ (noNewline ++ ['\n']) =
      ⟨offset + (noNewline.length + 1), old, new, starts, hunks⟩ := by
  have hstart : stripStart "@@ " noNewline = none := by decide
  simp only [parsePiece, stripNewline_append, hstart]
  rw [if_neg hne]
  rfl

/-! ## Runs over the pieces -/

lemma foldl_fileHeader {lines : List (List Char)} (h : IsFileHeader lines) :
    (lines.map fun line => line ++ ['\n']).foldl (parsePiece change)
        ⟨offset, old, new, starts, []⟩ =
      ⟨offset + (ended lines).length, old, new, starts, []⟩ := by
  induction lines generalizing offset with
  | nil => rfl
  | cons line rest ih =>
    rw [map_cons, foldl_cons, parsePiece_fileHeader _ _ _ _ _ (h line mem_cons_self).2,
      ih _ (fun other hother => h other (mem_cons_of_mem line hother)), ended_cons,
      length_append, length_cons, Nat.add_assoc, Nat.add_assoc,
      Nat.add_comm 1]

open UnifiedDiff

lemma numbered_cons (old new : ℕ) (tag : Tag) (line : TextLine) (rest : List (Tag × TextLine)) :
    numbered old new ((tag, line) :: rest) =
      (tag, line, if tag = .removed then old else new) ::
        numbered (old + tag.oldLines) (new + tag.newLines) rest := rfl

/-- A line, with the mark under it or without, goes to the last hunk. -/
lemma foldl_printLine (hunks : List ParsedHunk) (last : ParsedHunk) (tag : Tag) (line : TextLine) :
    ((printLine (tag, line)).map fun line => line ++ ['\n']).foldl (parsePiece change)
        ⟨offset, old, new, starts, hunks ++ [last]⟩ =
      ⟨offset + (ended (printLine (tag, line))).length, old + tag.oldLines, new + tag.newLines,
        starts,
        hunks ++
          [pushLine (capturedLine (tag, line, if tag = .removed then old else new)) last]⟩ := by
  rw [printLine]
  by_cases hended : line.ended = true
  · rw [if_pos hended, map_singleton, foldl_cons, foldl_nil, parsePiece_line,
      ended_cons, ended_nil, length_append, length_cons, length_singleton]
  · have hne : ∀ last' : ParsedHunk, hunks ++ [last'] ≠ [] := fun last' =>
      append_ne_nil_of_right_ne_nil _ (cons_ne_nil _ _)
    rw [if_neg hended, map_cons, map_singleton, foldl_cons, foldl_cons,
      foldl_nil, parsePiece_line, parsePiece_noNewline _ _ _ _ _ (hne _), ended_cons,
      ended_cons, ended_nil, length_append, length_cons, length_cons,
      length_append, length_singleton]
    congr 1

lemma foldl_lines (hunks : List ParsedHunk) (last : ParsedHunk) (lines : List (Tag × TextLine)) :
    ∃ old' new', ((lines.flatMap printLine).map fun line => line ++ ['\n']).foldl
        (parsePiece change) ⟨offset, old, new, starts, hunks ++ [last]⟩ =
      ⟨offset + (ended (lines.flatMap printLine)).length, old', new', starts,
        hunks ++ [{ last with
          lines := last.lines ++ (numbered old new lines).map capturedLine }]⟩ := by
  induction lines generalizing offset old new last with
  | nil =>
    refine ⟨old, new, ?_⟩
    simp [numbered]
  | cons first rest ih =>
    obtain ⟨tag, line⟩ := first
    obtain ⟨old', new', hrest⟩ := ih (offset + (ended (printLine (tag, line))).length)
      (old + tag.oldLines) (new + tag.newLines)
      (pushLine (capturedLine (tag, line, if tag = .removed then old else new)) last)
    refine ⟨old', new', ?_⟩
    rw [flatMap_cons, map_append, foldl_append, foldl_printLine, hrest,
      ended_append, length_append, Nat.add_assoc, numbered_cons, map_cons]
    simp [pushLine]

variable {lines : List (Tag × TextLine)}

lemma numbered_of_oldSide (h : (lines.filter fun line => line.1 ≠ .added) = []) (old old' new : ℕ) :
    numbered old new lines = numbered old' new lines := by
  induction lines generalizing old old' new with
  | nil => rfl
  | cons first rest ih =>
    obtain ⟨tag, line⟩ := first
    rw [filter_eq_nil_iff] at h
    have htag : tag = .added := by simpa using h (tag, line) mem_cons_self
    subst htag
    rw [numbered_cons, numbered_cons, ih _ _ old']
    · rfl
    · rw [filter_eq_nil_iff]
      exact fun other hother => h other (mem_cons_of_mem _ hother)

lemma numbered_of_newSide (h : (lines.filter fun line => line.1 ≠ .removed) = [])
    (old new new' : ℕ) : numbered old new lines = numbered old new' lines := by
  induction lines generalizing old new new' with
  | nil => rfl
  | cons first rest ih =>
    obtain ⟨tag, line⟩ := first
    rw [filter_eq_nil_iff] at h
    have htag : tag = .removed := by simpa using h (tag, line) mem_cons_self
    subst htag
    rw [numbered_cons, numbered_cons, ih _ _ _ new']
    · rfl
    · rw [filter_eq_nil_iff]
      exact fun other hother => h other (mem_cons_of_mem _ hother)

/-- The counters that start where the header says count the lines. -/
lemma numbered_startNumber (hunk : UnifiedDiff.Hunk) :
    numbered (startNumber hunk.oldIndex hunk.oldSide.length)
      (startNumber hunk.newIndex hunk.newSide.length) hunk.lines = hunk.numbered := by
  rw [startNumber, startNumber, Hunk.numbered]
  have hold : ∀ new, numbered
      (if hunk.oldSide.length = 0 then hunk.oldIndex else hunk.oldIndex + 1) new hunk.lines =
      numbered (hunk.oldIndex + 1) new hunk.lines := by
    intro new
    split_ifs with h
    · exact numbered_of_oldSide (map_eq_nil_iff.mp (length_eq_zero_iff.mp h)) _ _ _
    · rfl
  rw [hold]
  split_ifs with h
  · exact numbered_of_newSide (map_eq_nil_iff.mp (length_eq_zero_iff.mp h)) _ _ _
  · rfl

/-- Where texts begin and end that stand one behind the other. -/
def rangesFrom : ℕ → List (List Char) → List (ℕ × ℕ)
  | _, [] => []
  | start, text :: rest => (start, start + text.length) :: rangesFrom (start + text.length) rest

lemma foldl_hunks (read : List ParsedHunk) (hunks : List UnifiedDiff.Hunk) :
    ∃ old' new', (hunks.flatMap fun hunk => hunk.printed.map fun line => line ++ ['\n']).foldl
        (parsePiece change) ⟨offset, old, new, starts, read⟩ =
      ⟨offset + (hunks.flatMap fun hunk => ended hunk.printed).length, old', new',
        starts ++ (rangesFrom offset (hunks.map fun hunk => ended hunk.printed)).map Prod.fst,
        read ++ hunks.map fun hunk => opened change hunk (hunk.numbered.map capturedLine)⟩ := by
  induction hunks generalizing offset old new starts read with
  | nil => exact ⟨old, new, by simp [rangesFrom]⟩
  | cons hunk rest ih =>
    obtain ⟨old₁, new₁, hlines⟩ := foldl_lines change (offset + (hunk.header.length + 1))
      (startNumber hunk.oldIndex hunk.oldSide.length)
      (startNumber hunk.newIndex hunk.newSide.length) (starts ++ [offset]) read
      (opened change hunk []) hunk.lines
    obtain ⟨old₂, new₂, hrest⟩ := ih (offset + (ended hunk.printed).length) old₁ new₁
      (starts ++ [offset]) (read ++ [opened change hunk (hunk.numbered.map capturedLine)])
    have hlength : (ended hunk.printed).length =
        hunk.header.length + 1 + (ended (hunk.lines.flatMap printLine)).length := by
      rw [Hunk.printed, ended_cons, length_append, length_cons]
      omega
    refine ⟨old₂, new₂, ?_⟩
    rw [flatMap_cons, foldl_append, Hunk.printed, map_cons, foldl_cons,
      parsePiece_header, hlines, numbered_startNumber, Nat.add_assoc, ← hlength]
    refine hrest.trans ?_
    rw [flatMap_cons, length_append, Nat.add_assoc, map_cons, map_cons,
      rangesFrom, map_cons, append_assoc, append_assoc, singleton_append,
      singleton_append]

/-- The starts and the ends are found side by side. -/
lemma zip_starts (start : ℕ) (texts : List (List Char)) :
    ((rangesFrom start texts).map Prod.fst).zip
        (((rangesFrom start texts).map Prod.fst).drop 1 ++ [start + texts.flatten.length]) =
      rangesFrom start texts := by
  induction texts generalizing start with
  | nil => rfl
  | cons text rest ih =>
    have hnext := ih (start + text.length)
    cases rest with
    | nil => simp [rangesFrom]
    | cons next others =>
      rw [flatten_cons, length_append, ← Nat.add_assoc, rangesFrom, map_cons, drop_one, tail_cons]
      rw [rangesFrom, map_cons, drop_one, tail_cons] at hnext
      rw [rangesFrom, map_cons, cons_append, zip_cons_cons, hnext]

lemma sliceText_append (front text behind : List Char) :
    sliceText (front ++ (text ++ behind)) front.length (front.length + text.length) = text := by
  rw [sliceText, drop_left, Nat.add_sub_cancel_left, take_left]

/-- Every hunk gets its own text. -/
lemma zipWith_finishHunk (change : ℕ) (front : List Char) (hunks : List UnifiedDiff.Hunk) :
    zipWith (finishHunk (front ++ hunks.flatMap fun hunk => ended hunk.printed))
        (hunks.map fun hunk => opened change hunk (hunk.numbered.map capturedLine))
        (rangesFrom front.length (hunks.map fun hunk => ended hunk.printed)) =
      hunks.map (captured change) := by
  induction hunks generalizing front with
  | nil => rfl
  | cons hunk rest ih =>
    have hrest := ih (front ++ ended hunk.printed)
    rw [length_append, append_assoc] at hrest
    rw [flatMap_cons, map_cons, map_cons, rangesFrom, zipWith_cons_cons, hrest,
      map_cons, finishHunk, sliceText_append]
    rfl

lemma tag_captured (change : ℕ) (hunk : UnifiedDiff.Hunk) :
    ∀ line ∈ (captured change hunk).lines, line.tag = ' ' ∨ line.tag = '-' ∨ line.tag = '+' := by
  intro line hline
  obtain ⟨⟨tag, text, number⟩, -, rfl⟩ := mem_map.mp hline
  cases tag
  · exact .inl rfl
  · exact .inr (.inl rfl)
  · exact .inr (.inr rfl)

lemma parse_eq (change : ℕ) {fileHeader : List (List Char)} (h : IsFileHeader fileHeader)
    (hunks : List UnifiedDiff.Hunk) :
    parse change (printDiff fileHeader hunks) = hunks.map (captured change) := by
  have hlines : ∀ line ∈ fileHeader ++ hunks.flatMap Hunk.printed, '\n' ∉ line := by
    intro line hline
    rcases mem_append.mp hline with hline | hline
    · exact (h line hline).1
    · obtain ⟨hunk, -, hline⟩ := mem_flatMap.mp hline
      exact hunk.newline_notMem_printed line hline
  have hprint : printDiff fileHeader hunks = ended (fileHeader ++ hunks.flatMap Hunk.printed) := by
    rw [printDiff, ended_append, ended, ended, flatMap_assoc]
    rfl
  have hpieces : splitInclusive (printDiff fileHeader hunks) =
      (fileHeader.map fun line => line ++ ['\n']) ++
        hunks.flatMap fun hunk => hunk.printed.map fun line => line ++ ['\n'] := by
    rw [hprint, splitInclusive_ended hlines, map_append, map_flatMap]
  obtain ⟨old, new, hread⟩ := foldl_hunks change (0 + (ended fileHeader).length) 0 0 [] [] hunks
  rw [Nat.zero_add] at hread
  have hend : (printDiff fileHeader hunks).length = (ended fileHeader).length +
      (hunks.map fun hunk => ended hunk.printed).flatten.length := by
    rw [printDiff, length_append, flatMap_def]
  rw [parse, hpieces, foldl_append, foldl_fileHeader _ _ _ _ _ h, Nat.zero_add, hread]
  simp only [nil_append]
  rw [hend, zip_starts]
  exact zipWith_finishHunk change (ended fileHeader) hunks

/-- **Parsing inverts printing**, for a diff of any two texts: the hunks come out in order with
their ranges, their lines have the numbers that are theirs in the texts, the blocks are the maximal
runs of changed lines, and the texts of the hunks are the diff behind its file header. -/
theorem parse_printDiff (change : ℕ) {old new : List TextLine} {fileHeader : List (List Char)}
    {hunks : List UnifiedDiff.Hunk} (hheader : IsFileHeader fileHeader)
    (hdiff : IsDiff old new hunks) :
    parse change (printDiff fileHeader hunks) = hunks.map (captured change) ∧
      (∀ hunk ∈ hunks, ∀ tag line number, (tag, line, number) ∈ hunk.numbered →
        1 ≤ number ∧ (if tag = .removed then old else new)[number - 1]? = some line) ∧
      (∀ hunk ∈ parse change (printDiff fileHeader hunks), SplitsInto hunk.lines hunk.blocks) ∧
      printDiff fileHeader hunks = ended fileHeader ++
        (parse change (printDiff fileHeader hunks)).flatMap fun hunk => hunk.raw.toList := by
  have hparse := parse_eq change hheader hunks
  refine ⟨hparse, ?_, ?_, ?_⟩
  · intro hunk hhunk tag line number hline
    exact hdiff.number_true hhunk hline
  · rw [hparse]
    intro parsed hparsed
    obtain ⟨hunk, -, rfl⟩ := List.mem_map.mp hparsed
    exact blocks_splitsInto (tag_captured change hunk)
  · rw [hparse, printDiff, flatMap_map]
    simp [captured]

/-- A removed line that looks like the header of a hunk, and a last line with a carriage return and
no newline. -/
def lookalike : UnifiedDiff.Hunk where
  oldIndex := 0
  newIndex := 0
  lines := [(.removed, ⟨"@@ -1 +1 @@".toList, true, by decide⟩),
    (.context, ⟨"x\r".toList, false, by decide⟩)]
  oldCounted := true
  newCounted := false
  heading := " f".toList
  newline_notMem := by decide

theorem parse_printDiff_lookalike :
    (parse 0 ("--- a\n+++ b\n@@ -1,2 +1 @@ f\n-@@ -1 +1 @@\n x\r\n".toList ++
      noNewline ++ ['\n'])).map (fun hunk => (hunk.lines, hunk.blocks)) =
      [([⟨'-', "@@ -1 +1 @@", 1⟩, ⟨' ', "x\r", 1⟩], [⟨⟨0, 1⟩, ⟨1, 1⟩⟩])] := by
  have hdiff : IsDiff ([] ++ lookalike.oldSide ++ []) ([] ++ lookalike.newSide ++ [])
      [lookalike] := .hunk rfl rfl .done
  have hheader : IsFileHeader ["--- a".toList, "+++ b".toList] := by
    unfold IsFileHeader
    decide
  have hprint : "--- a\n+++ b\n@@ -1,2 +1 @@ f\n-@@ -1 +1 @@\n x\r\n".toList ++
      noNewline ++ ['\n'] = printDiff ["--- a".toList, "+++ b".toList] [lookalike] := by
    decide +kernel
  rw [hprint, (parse_printDiff 0 hheader hdiff).1]
  decide +kernel

end Reposcout.Query.ReviewContext.Brief
