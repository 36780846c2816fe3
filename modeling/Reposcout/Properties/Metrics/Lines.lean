import Reposcout.Metrics.Lines

/-!
# What the lines of a file are

With comment ranges a line is source if a character of it is outside of all ranges, and a comment
if it has characters and all are inside; blanks do not count.  The pointer into the sorted ranges
never has to go back.  The scanner that does without ranges ends on every line, and counts every
line once.
-/

namespace Reposcout.Metrics.Lines

open List Option KeyedList

/-! ## Lines and ranges -/

/-- The lines of a text, without their ends.  The end of the last line may be missing. -/
def linesOf : List (ℕ × Char) → List (List (ℕ × Char))
  | [] => []
  | item :: rest =>
    if item.2 = '\n' then [] :: linesOf rest
    else
      match linesOf rest with
      | [] => [[item]]
      | line :: lines => (item :: line) :: lines

/-- The lines of a text, each character with its offset in bytes. -/
def contentLines (content : String) : List (List (ℕ × Char)) :=
  linesOf (charOffsets 0 content.toList)

def Covered (ranges : List (ℕ × ℕ)) (position : ℕ) : Prop :=
  ∃ range ∈ ranges, range.1 ≤ position ∧ position < range.2

instance (ranges : List (ℕ × ℕ)) (position : ℕ) : Decidable (Covered ranges position) :=
  inferInstanceAs (Decidable (∃ range ∈ ranges, _ ∧ _))

def IsSource (ranges : List (ℕ × ℕ)) (line : List (ℕ × Char)) : Prop :=
  ∃ item ∈ line, isWhitespace item.2 = false ∧ ¬ Covered ranges item.1

instance (ranges : List (ℕ × ℕ)) (line : List (ℕ × Char)) : Decidable (IsSource ranges line) :=
  inferInstanceAs (Decidable (∃ item ∈ line, _ ∧ _))

def IsComment (ranges : List (ℕ × ℕ)) (line : List (ℕ × Char)) : Prop :=
  (∃ item ∈ line, isWhitespace item.2 = false) ∧
    ∀ item ∈ line, isWhitespace item.2 = false → Covered ranges item.1

instance (ranges : List (ℕ × ℕ)) (line : List (ℕ × Char)) : Decidable (IsComment ranges line) :=
  inferInstanceAs (Decidable (_ ∧ _))

variable {line : List (ℕ × Char)}

lemma isSource_cons {ranges : List (ℕ × ℕ)} {item : ℕ × Char} : IsSource ranges (item :: line) ↔
      (isWhitespace item.2 = false ∧ ¬ Covered ranges item.1) ∨ IsSource ranges line := by
  simp [IsSource]

lemma isComment_iff {ranges : List (ℕ × ℕ)} : IsComment ranges line ↔ ¬ IsSource ranges line ∧
      ∃ item ∈ line, isWhitespace item.2 = false ∧ Covered ranges item.1 := by
  constructor
  · rintro ⟨⟨item, hitem, hink⟩, hall⟩
    refine ⟨?_, item, hitem, hink, hall item hitem hink⟩
    rintro ⟨other, hother, hinkOther, houtside⟩
    exact houtside (hall other hother hinkOther)
  · rintro ⟨hsource, item, hitem, hink, _⟩
    refine ⟨⟨item, hitem, hink⟩, fun other hother hinkOther => ?_⟩
    by_contra houtside
    exact hsource ⟨other, hother, hinkOther, houtside⟩

/-! ## The pointer -/

structure Ahead (ranges : List (ℕ × ℕ)) (position : ℕ) (rest : List (ℕ × ℕ)) : Prop where
  sorted : rest.Pairwise fun range later => range.1 ≤ later.1
  covered : ∀ other, position ≤ other → (Covered rest other ↔ Covered ranges other)

variable {ranges : List (ℕ × ℕ)} {rest : List (ℕ × ℕ)}

lemma Ahead.mono {position position' : ℕ} (h : Ahead ranges position rest)
    (hle : position ≤ position') : Ahead ranges position' rest :=
  ⟨h.sorted, fun other hother => h.covered other (hle.trans hother)⟩

/-- Ranges that end before a position are passed for good. -/
lemma Ahead.skip {position : ℕ} (h : Ahead ranges position rest) :
    Ahead ranges position (rest.dropWhile fun range => range.2 ≤ position) := by
  refine ⟨h.sorted.sublist (dropWhile_sublist _), fun other hother => ?_⟩
  rw [← h.covered other hother]
  constructor
  · rintro ⟨range, hrange, hin⟩
    exact ⟨range, (dropWhile_suffix _).mem hrange, hin⟩
  · rintro ⟨range, hrange, hin⟩
    rw [← takeWhile_append_dropWhile (p := fun range : ℕ × ℕ => range.2 ≤ position)
      (l := rest), mem_append] at hrange
    rcases hrange with hpassed | hahead
    · have hend := mem_takeWhile_imp hpassed
      rw [decide_eq_true_iff] at hend
      omega
    · exact ⟨range, hahead, hin⟩

lemma Ahead.head_iff {position : ℕ} (h : Ahead ranges position rest) :
    ((rest.dropWhile fun range => range.2 ≤ position).head?.any fun range =>
      range.1 ≤ position && position < range.2) = decide (Covered ranges position) := by
  rw [Bool.eq_iff_iff, decide_eq_true_iff, ← h.skip.covered position le_rfl]
  have hsorted := h.skip.sorted
  have hfirst : ∀ range rest', (rest.dropWhile fun range => range.2 ≤ position) = range :: rest' →
      position < range.2 := by
    intro range rest' hrest
    have hnot := head_dropWhile_not (fun range : ℕ × ℕ => decide (range.2 ≤ position))
      (l := rest) (by rw [hrest]; exact cons_ne_nil _ _)
    simp only [hrest, head_cons, decide_eq_false_iff_not, Nat.not_le] at hnot
    exact hnot
  cases hrest : rest.dropWhile fun range => range.2 ≤ position with
  | nil => exact iff_of_false Bool.false_ne_true fun ⟨_, hmem, _⟩ => nomatch hmem
  | cons range rest' =>
    rw [hrest] at hsorted
    rw [head?_cons, any_some, Bool.and_eq_true, decide_eq_true_iff, decide_eq_true_iff]
    constructor
    · exact fun hin => ⟨range, mem_cons_self, hin⟩
    · rintro ⟨other, hother, hstart, _⟩
      refine ⟨?_, hfirst range rest' hrest⟩
      rcases mem_cons.mp hother with rfl | hother
      · exact hstart
      · exact (rel_of_pairwise_cons hsorted hother).trans hstart

/-- What a character adds to what was seen. -/
lemma visitChar_spec (state : CharState) (item : ℕ × Char)
    (h : Ahead ranges item.1 state.ranges) :
    Ahead ranges item.1 (visitChar state item).ranges ∧ (visitChar state item).hasCode =
        (state.hasCode || (!isWhitespace item.2 && !decide (Covered ranges item.1))) ∧
      (visitChar state item).hasComment =
        (state.hasComment || (!isWhitespace item.2 && decide (Covered ranges item.1))) := by
  rw [visitChar]
  cases isWhitespace item.2 with
  | true => simpa using h
  | false =>
    simp only [Bool.false_eq_true, if_false, h.head_iff, decide_eq_true_eq]
    by_cases hcovered : Covered ranges item.1
    · simpa [hcovered] using h.skip
    · simpa [hcovered] using h.skip

lemma charOffsets_cons (offset : ℕ) (c : Char) (rest : List Char) :
    charOffsets offset (c :: rest) = (offset, c) :: charOffsets (offset + c.utf8Size) rest := rfl

lemma utf8Length_cons (c : Char) (rest : List Char) :
    utf8Length (c :: rest) = c.utf8Size + utf8Length rest := by
  rw [utf8Length, map_cons, sum_cons, utf8Length]

lemma utf8Length_dropLast_le (chars : List Char) :
    utf8Length chars.dropLast ≤ utf8Length chars := by
  induction chars with
  | nil => exact le_rfl
  | cons c rest ih =>
    cases rest with
    | nil => exact Nat.zero_le _
    | cons next rest =>
      rw [dropLast_cons_of_ne_nil (cons_ne_nil _ _), utf8Length_cons, utf8Length_cons]
      omega

lemma foldl_visitChar_spec (line : List Char) : ∀ {start : ℕ} (state : CharState),
    Ahead ranges start state.ranges →
      let seen := (charOffsets start line).foldl visitChar state
      Ahead ranges (start + utf8Length line) seen.ranges ∧
        seen.hasCode = (state.hasCode || decide (IsSource ranges (charOffsets start line))) ∧
        seen.hasComment = (state.hasComment || decide (∃ item ∈ charOffsets start line,
          isWhitespace item.2 = false ∧ Covered ranges item.1)) := by
  induction line with
  | nil =>
    intro start state h
    refine ⟨h, ?_, ?_⟩ <;> simp [charOffsets, IsSource]
  | cons c rest ih =>
    intro start state h
    obtain ⟨hahead, hcode, hcomment⟩ := visitChar_spec state (start, c) h
    obtain ⟨haheadRest, hcodeRest, hcommentRest⟩ :=
      ih (visitChar state (start, c)) (hahead.mono (Nat.le_add_right start c.utf8Size))
    rw [charOffsets_cons, foldl_cons]
    refine ⟨?_, ?_, ?_⟩
    · rw [utf8Length_cons, ← Nat.add_assoc]
      exact haheadRest
    · rw [hcodeRest, hcode, Bool.or_assoc]
      congr 1
      rw [Bool.eq_iff_iff, decide_eq_true_iff, isSource_cons]
      simp
    · rw [hcommentRest, hcomment, Bool.or_assoc]
      congr 1
      rw [Bool.eq_iff_iff, decide_eq_true_iff, exists_mem_cons_iff]
      simp

/-! ## Counting with ranges -/

def numberedLines : ℕ → List (List Char) → List (List (ℕ × Char))
  | _, [] => []
  | start, chunk :: rest =>
    charOffsets start (stripNewline chunk) :: numberedLines (start + utf8Length chunk) rest

lemma stripNewline_cons {c : Char} (hc : c ≠ '\n') (chunk : List Char) :
    stripNewline (c :: chunk) = c :: stripNewline chunk := by
  cases chunk with
  | nil => simp [stripNewline, hc]
  | cons next rest =>
    rw [stripNewline, stripNewline, getLast?_cons_cons]
    split
    · rw [dropLast_cons_of_ne_nil (cons_ne_nil _ _)]
    · rfl

/-- The lines are what `split_inclusive` gives, without the ends. -/
lemma numberedLines_splitInclusive (text : List Char) : ∀ start : ℕ,
    numberedLines start (splitInclusive text) = linesOf (charOffsets start text) := by
  induction text with
  | nil => exact fun _ => rfl
  | cons c rest ih =>
    intro start
    rw [charOffsets_cons, linesOf, splitInclusive, ← ih (start + c.utf8Size)]
    by_cases hc : c = '\n'
    · rw [if_pos hc, if_pos hc, numberedLines, utf8Length_cons, hc]
      rfl
    · rw [if_neg hc, if_neg hc]
      cases splitInclusive rest with
      | nil =>
        have hchunk : stripNewline [c] = [c] := stripNewline_cons hc []
        rw [numberedLines, numberedLines, numberedLines, hchunk]
        rfl
      | cons line lines =>
        simp only [numberedLines, stripNewline_cons hc, utf8Length_cons, charOffsets_cons,
          Nat.add_assoc]

/-- The counts of some lines, added to others. -/
def addLines (ranges : List (ℕ × ℕ)) (stats : LineStats) (lines : List (List (ℕ × Char))) :
    LineStats where
  loc := stats.loc + lines.length
  sloc := stats.sloc + lines.countP fun line => IsSource ranges line
  commentLines := stats.commentLines + lines.countP fun line => IsComment ranges line
  blankLines := stats.blankLines +
    lines.countP fun line => ¬ IsSource ranges line ∧ ¬ IsComment ranges line
  approximate := stats.approximate

lemma classifyLine_eq (stats : LineStats) (line : List (ℕ × Char))
    (lines : List (List (ℕ × Char))) :
    addLines ranges (classifyLine { stats with loc := stats.loc + 1 }
        (decide (IsSource ranges line))
        (decide (∃ item ∈ line, isWhitespace item.2 = false ∧ Covered ranges item.1))) lines =
      addLines ranges stats (line :: lines) := by
  rw [classifyLine]
  by_cases hsource : IsSource ranges line
  · have hcomment : ¬ IsComment ranges line := fun h => (isComment_iff.mp h).1 hsource
    simp [addLines, hsource, hcomment]
    omega
  · by_cases hcovered : ∃ item ∈ line, isWhitespace item.2 = false ∧ Covered ranges item.1
    · have hcomment : IsComment ranges line := isComment_iff.mpr ⟨hsource, hcovered⟩
      rw [decide_eq_false hsource, if_neg Bool.false_ne_true, decide_eq_true hcovered, if_pos rfl]
      simp [addLines, hsource, hcomment]
      omega
    · have hcomment : ¬ IsComment ranges line := fun h => hcovered (isComment_iff.mp h).2
      rw [decide_eq_false hsource, if_neg Bool.false_ne_true, decide_eq_false hcovered,
        if_neg Bool.false_ne_true]
      simp [addLines, hsource, hcomment]
      omega

lemma foldl_measureLine (chunks : List (List Char)) : ∀ state : MeasureState,
    Ahead ranges state.lineStart state.ranges → (chunks.foldl measureLine state).stats =
        addLines ranges state.stats (numberedLines state.lineStart chunks) := by
  induction chunks with
  | nil => exact fun _ _ => rfl
  | cons chunk rest ih =>
    intro state h
    obtain ⟨hahead, hcode, hcomment⟩ :=
      foldl_visitChar_spec (stripNewline chunk) { ranges := state.ranges } h
    have hlength : utf8Length (stripNewline chunk) ≤ utf8Length chunk := by
      rw [stripNewline]
      split
      · exact utf8Length_dropLast_le chunk
      · exact le_rfl
    have hnext := ih (measureLine state chunk)
      (hahead.mono (Nat.add_le_add_left hlength _))
    rw [foldl_cons, hnext, numberedLines, ← classifyLine_eq]
    simp only [measureLine, hcode, hcomment, Bool.false_or]

/-- **The counts are those of the definition.**  They depend neither on the order of the ranges nor
on whether ranges are empty or overlap. -/
lemma measureFromRanges_eq (content : String) (ranges : List (ℕ × ℕ)) :
    measureFromRanges content ranges = addLines ranges {} (contentLines content) := by
  have hsorted := pairwise_sortBy (compareOn fun range : ℕ × ℕ => toLex range) ranges
  have hahead : Ahead ranges 0
      (sortBy (compareOn fun range : ℕ × ℕ => toLex range) ranges) := by
    refine ⟨hsorted.imp ?_, fun other _ => by simp [Covered]⟩
    intro range later hle
    rcases Prod.Lex.le_iff.mp (compare_le_iff_le.mp hle) with hlt | ⟨heq, _⟩
    · exact hlt.le
    · exact heq.le
  rw [measureFromRanges, foldl_measureLine _ _ hahead, numberedLines_splitInclusive]
  rfl

/-! ## One class for each line -/

/-- Every line is counted once. -/
def Balanced (stats : LineStats) : Prop :=
  stats.loc = stats.sloc + stats.commentLines + stats.blankLines

lemma loc_classifyLine (stats : LineStats) (hasCode hasComment : Bool) :
    (classifyLine stats hasCode hasComment).loc = stats.loc := by
  rw [classifyLine]
  split
  · rfl
  · split <;> rfl

lemma balanced_classifyLine {stats : LineStats} (h : Balanced stats) (hasCode hasComment : Bool) :
    Balanced (classifyLine { stats with loc := stats.loc + 1 } hasCode hasComment) := by
  rw [Balanced] at h
  rw [classifyLine]
  split
  · rw [Balanced]
    dsimp only
    omega
  · split
    · rw [Balanced]
      dsimp only
      omega
    · rw [Balanced]
      dsimp only
      omega

lemma balanced_addLines (ranges : List (ℕ × ℕ)) (lines : List (List (ℕ × Char))) :
    ∀ {stats : LineStats}, Balanced stats → Balanced (addLines ranges stats lines) := by
  induction lines with
  | nil => exact fun h => h
  | cons line rest ih =>
    intro stats h
    rw [← classifyLine_eq]
    exact ih (balanced_classifyLine h _ _)

/-! ## The scanner without ranges -/

lemma lt_of_findBytes {haystack needle : List UInt8} {start offset : ℕ}
    (h : findBytes haystack start needle = some offset) :
    start ≤ offset ∧ 0 < needle.length := by
  rw [findBytes] at h
  split at h
  · cases h.symm
  next hneedle =>
    obtain ⟨length, _, rfl⟩ := map_eq_some_iff.mp h
    rw [not_or] at hneedle
    exact ⟨Nat.le_add_right _ _, length_pos_iff.mpr hneedle.1⟩

lemma le_consumeQuoted (bytes : List UInt8) (index : ℕ) (quote : UInt8) :
    index ≤ (consumeQuoted bytes index quote).1 := Nat.le_add_right _ _

variable {byte : UInt8}

lemma lt_consumeQuoted {bytes : List UInt8} {index : ℕ} (h : bytes[index]? = some byte)
    (quote : UInt8) : index < (consumeQuoted bytes index quote).1 := by
  obtain ⟨hlt, _⟩ := List.getElem?_eq_some_iff.mp h
  rw [consumeQuoted, drop_eq_getElem_cons hlt, quotedLength]
  dsimp only
  omega

variable {lang : LangInfo} {bytes : List UInt8}

lemma lt_of_scanByte {scan next : LineScan} (h : scanByte lang bytes scan byte = .next next) :
    scan.index < next.index := by
  rw [scanByte] at h
  split at h
  · obtain rfl := Round.next.inj h
    exact Nat.lt_succ_self _
  · split at h
    · cases h
    · split at h
      next opening close _ =>
        dsimp only at h
        split at h
        next offset hfound =>
          obtain rfl := Round.next.inj h
          obtain ⟨hstart, hclose⟩ := lt_of_findBytes hfound
          dsimp only
          omega
        · cases h
      · split at h
        · have hle := le_consumeQuoted bytes (scan.index + 1) byte
          dsimp only at h
          split at h
          · cases h
          · obtain rfl := Round.next.inj h
            exact hle
        · obtain rfl := Round.next.inj h
          exact Nat.lt_succ_self _

/-- Every round that is not the last goes forward. -/
lemma lt_of_scanRound {scan next : LineScan} (hbyte : bytes[scan.index]? = some byte)
    (h : scanRound lang bytes scan byte = .next next) : scan.index < next.index := by
  rw [scanRound] at h
  split at h
  next close _ _ =>
    split at h
    next offset hfound =>
      obtain rfl := Round.next.inj h
      obtain ⟨hstart, hclose⟩ := lt_of_findBytes hfound
      dsimp only
      omega
    · cases h
  next quote _ _ =>
    have hlt := lt_consumeQuoted hbyte quote
    dsimp only at h
    split at h
    · obtain rfl := Round.next.inj h
      exact hlt
    · cases h
  · exact lt_of_scanByte h

/-- **The scan of a line ends** within as many rounds as bytes are left, and more rounds change
nothing. -/
lemma exists_scanLoop (rounds : ℕ) : ∀ {scan : LineScan}, bytes.length - scan.index ≤ rounds →
    ∃ result, ∀ more, bytes.length - scan.index ≤ more →
      scanLoop lang bytes more scan = some result := by
  induction rounds with
  | zero =>
    intro scan h
    refine ⟨scan, fun more _ => ?_⟩
    rw [scanLoop, getElem?_eq_none (by omega)]
  | succ rounds ih =>
    intro scan h
    cases hbyte : bytes[scan.index]? with
    | none =>
      refine ⟨scan, fun more _ => ?_⟩
      rw [scanLoop, hbyte]
    | some byte =>
      obtain ⟨hlt, _⟩ := List.getElem?_eq_some_iff.mp hbyte
      cases hround : scanRound lang bytes scan byte with
      | stop result =>
        refine ⟨result, fun more _ => ?_⟩
        rw [scanLoop, hbyte]
        dsimp only
        rw [hround]
      | next next =>
        have hforward := lt_of_scanRound hbyte hround
        obtain ⟨result, hresult⟩ := ih (show bytes.length - next.index ≤ rounds by omega)
        refine ⟨result, fun more hmore => ?_⟩
        cases more with
        | zero => omega
        | succ more =>
          rw [scanLoop, hbyte]
          dsimp only
          rw [hround]
          exact hresult more (by omega)

def Enough (rounds : ℕ) (lines : List (List Char)) : Prop :=
  ∀ line ∈ lines, (Utf8.encode line).length ≤ rounds

lemma exists_fallbackLine (lang : LangInfo) (state : FallbackState) (line : List Char) :
    ∃ next, (∀ rounds, (Utf8.encode line).length ≤ rounds →
      fallbackLine lang rounds state line = some next) ∧
        next.stats.loc = state.stats.loc + 1 ∧ (Balanced state.stats → Balanced next.stats) := by
  by_cases hblank : isBlank line = true
  · refine ⟨_, fun rounds _ => if_pos hblank, rfl, fun h => ?_⟩
    exact balanced_classifyLine h false false
  · obtain ⟨scan, hscan⟩ := @exists_scanLoop lang (Utf8.encode line) (Utf8.encode line).length
      { blockClose := state.blockClose, multilineQuote := state.multilineQuote } (Nat.sub_le _ _)
    refine ⟨{
        stats := classifyLine { state.stats with loc := state.stats.loc + 1 } scan.hasCode
          scan.hasComment
        blockClose := scan.blockClose
        multilineQuote := scan.multilineQuote }, fun rounds hrounds => ?_, loc_classifyLine _ _ _,
      fun h => balanced_classifyLine h scan.hasCode scan.hasComment⟩
    rw [fallbackLine, if_neg hblank, hscan rounds hrounds]
    rfl

lemma exists_foldlM_fallbackLine (lang : LangInfo) (lines : List (List Char)) :
    ∀ state : FallbackState, ∃ last, (∀ rounds, Enough rounds lines →
      lines.foldlM (fallbackLine lang rounds) state = some last) ∧
        last.stats.loc = state.stats.loc + lines.length ∧
        (Balanced state.stats → Balanced last.stats) := by
  induction lines with
  | nil => exact fun state => ⟨state, fun _ _ => rfl, rfl, id⟩
  | cons line rest ih =>
    intro state
    obtain ⟨next, hnext, hloc, hbalanced⟩ := exists_fallbackLine lang state line
    obtain ⟨last, hlast, hlocLast, hbalancedLast⟩ := ih next
    refine ⟨last, fun rounds hrounds => ?_, ?_, fun h => hbalancedLast (hbalanced h)⟩
    · obtain ⟨hline, hrest⟩ := forall_mem_cons.mp hrounds
      rw [foldlM_cons, hnext rounds hline]
      exact hlast rounds hrest
    · rw [hlocLast, hloc, length_cons]
      omega

lemma length_textLines (content : String) :
    (textLines content).length = (contentLines content).length := by
  have hnumbered : ∀ (chunks : List (List Char)) (start : ℕ),
      (numberedLines start chunks).length = chunks.length := by
    intro chunks
    induction chunks with
    | nil => exact fun _ => rfl
    | cons chunk rest ih =>
      intro start
      rw [numberedLines, length_cons, length_cons, ih]
  rw [contentLines, ← numberedLines_splitInclusive, hnumbered, textLines, length_map]

/-- **Lines are classified by their characters.**  With comment ranges the counts are those of the
definition, whatever the ranges.  Without, the scanner ends on every line, and the classes add up
to the number of lines all the same. -/
theorem lines_classified (content : String) : (∀ ranges : List (ℕ × ℕ),
      let stats := measureFromRanges content ranges
      let lines := contentLines content
      stats.loc = lines.length ∧
        stats.sloc = lines.countP (fun line => IsSource ranges line) ∧
        stats.commentLines = lines.countP (fun line => IsComment ranges line) ∧
        stats.blankLines =
          lines.countP (fun line => ¬ IsSource ranges line ∧ ¬ IsComment ranges line) ∧
        stats.loc = stats.sloc + stats.commentLines + stats.blankLines) ∧
      (∀ tree : Cst, measureFromTree content tree =
        measureFromRanges content (collectCommentRanges tree)) ∧
      ∀ lang : LangInfo, ∃ stats : LineStats, (∀ rounds, Enough rounds (textLines content) →
          measureFallback rounds lang content = some stats) ∧
        stats.loc = (contentLines content).length ∧
        stats.loc = stats.sloc + stats.commentLines + stats.blankLines := by
  refine ⟨fun ranges => ?_, fun _ => rfl, fun lang => ?_⟩
  · rw [measureFromRanges_eq]
    have hbalanced : Balanced {} := rfl
    refine ⟨Nat.zero_add _, Nat.zero_add _, Nat.zero_add _, Nat.zero_add _, ?_⟩
    exact balanced_addLines ranges (contentLines content) hbalanced
  · obtain ⟨last, hlast, hloc, hbalanced⟩ :=
      exists_foldlM_fallbackLine lang (textLines content) {}
    refine ⟨last.stats, fun rounds hrounds => ?_, ?_, hbalanced rfl⟩
    · rw [measureFallback, hlast rounds hrounds]
      rfl
    · rw [hloc, length_textLines]
      exact Nat.zero_add _

end Reposcout.Metrics.Lines
