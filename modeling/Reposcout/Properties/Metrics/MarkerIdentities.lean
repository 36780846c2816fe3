import Reposcout.Properties.Metrics.Markers

/-!
# Identities of markers

An occurrence of a marker is known by the marker, the hash of its line, and its number among those.
How many there are of one marker and one hash is a sum over the lines, and over the words of a
line.  So the identities survive when lines move or their blanks change.
-/

namespace Reposcout.Metrics

open List Option KeyedList

open Findings (MarkerOccurrence)

/-! ## Searching parts -/

/-- What holds of texts without a separator, and of a part and the rest after a separator, holds of
every text. -/
lemma induction_split {α : Type} (p : α → Bool) {motive : List α → Prop}
    (whole : ∀ part, (∀ c ∈ part, p c = false) → motive part)
    (split : ∀ part c rest, (∀ c ∈ part, p c = false) → p c = true → motive rest →
      motive (part ++ c :: rest)) (text : List α) : motive text := by
  suffices h : ∀ part, (∀ c ∈ part, p c = false) → motive (part ++ text) from
    h [] (nofun)
  induction text with
  | nil =>
    intro part hpart
    rw [append_nil]
    exact whole part hpart
  | cons c rest ih =>
    intro part hpart
    cases hc : p c with
    | true => exact split part c rest hpart hc (ih [] nofun)
    | false =>
      have hnext := ih (part ++ [c]) (by
        intro other hother
        rcases mem_append.mp hother with hother | hother
        · exact hpart other hother
        · rw [mem_singleton.mp hother]
          exact hc)
      rwa [append_assoc, singleton_append] at hnext

lemma matchIndices_cons (pattern : List Char) (offset : ℕ) (c : Char) (rest : List Char) :
    matchIndices pattern offset 0 (c :: rest) =
      if pattern.isPrefixOf (c :: rest) then
        offset :: matchIndices pattern (offset + 1) (pattern.length - 1) rest
      else matchIndices pattern (offset + 1) 0 rest := by
  rw [matchIndices]

lemma matchIndices_offset (pattern : List Char) (text : List Char) : ∀ offset skip : ℕ,
    matchIndices pattern offset skip text =
      (matchIndices pattern 0 skip text).map (offset + ·) := by
  induction text with
  | nil => exact fun _ _ => rfl
  | cons c rest ih =>
    have hnext : ∀ offset skip, matchIndices pattern (offset + 1) skip rest =
        (matchIndices pattern (0 + 1) skip rest).map (offset + ·) := by
      intro offset skip
      rw [ih (offset + 1), ih (0 + 1), List.map_map]
      refine map_congr_left fun position _ => ?_
      simp only [Function.comp_apply]
      omega
    intro offset skip
    cases skip with
    | succ skip =>
      exact hnext offset skip
    | zero =>
      rw [matchIndices, matchIndices]
      split
      · rw [map_cons, hnext]
        rfl
      · exact hnext offset 0

lemma prefix_append_cons_iff {pattern part rest : List Char} {c : Char} (hc : c ∉ pattern) :
    pattern <+: part ++ c :: rest ↔ pattern <+: part := by
  refine ⟨fun h => ?_, fun h => h.trans (prefix_append _ _)⟩
  rcases prefix_or_prefix_of_prefix h (prefix_append part (c :: rest)) with h' | h'
  · exact h'
  · obtain ⟨more, rfl⟩ := h'
    rw [prefix_append_right_inj] at h
    cases more with
    | nil =>
      exact ⟨[], by rw [append_nil, append_nil]⟩
    | cons d more =>
      obtain ⟨rfl, _⟩ := cons_prefix_cons.mp h
      exact absurd (mem_append_right part mem_cons_self) hc

section

variable {pattern : List Char} {c : Char}

lemma isPrefixOf_append_cons (hc : c ∉ pattern) (part rest : List Char) :
    pattern.isPrefixOf (part ++ c :: rest) = pattern.isPrefixOf part := by
  rw [Bool.eq_iff_iff, isPrefixOf_iff_prefix, isPrefixOf_iff_prefix, prefix_append_cons_iff hc]

/-- A text is searched on both sides of a character that the pattern lacks. -/
lemma matchIndices_append (hne : pattern ≠ []) (hc : c ∉ pattern) (rest part : List Char) :
    ∀ offset skip : ℕ, skip ≤ part.length → matchIndices pattern offset skip (part ++ c :: rest) =
        matchIndices pattern offset skip part ++
          matchIndices pattern (offset + part.length + 1) 0 rest := by
  induction part with
  | nil =>
    intro offset skip hskip
    obtain rfl := Nat.le_zero.mp hskip
    have hnone : pattern.isPrefixOf ([] ++ c :: rest) = false := by
      rw [isPrefixOf_append_cons hc]
      cases pattern with
      | nil => exact absurd rfl hne
      | cons d more => rfl
    rw [nil_append] at hnone ⊢
    rw [matchIndices_cons, hnone]
    rfl
  | cons d part ih =>
    intro offset skip hskip
    have hlength : offset + (d :: part).length + 1 = offset + 1 + part.length + 1 := by
      rw [length_cons]
      omega
    cases skip with
    | succ skip =>
      rw [cons_append, matchIndices, matchIndices, hlength]
      exact ih (offset + 1) skip (Nat.le_of_succ_le_succ hskip)
    | zero =>
      rw [cons_append, matchIndices, matchIndices, ← cons_append,
        isPrefixOf_append_cons hc, hlength]
      split
      next hstart =>
        have hle := (List.isPrefixOf_iff_prefix.mp hstart).length_le
        rw [ih (offset + 1) (pattern.length - 1) (by omega), cons_append]
      · exact ih (offset + 1) 0 (Nat.zero_le _)

end

lemma drop_of_mem_matchIndices {pattern : List Char} (text : List Char) :
    ∀ {skip position : ℕ}, position ∈ matchIndices pattern 0 skip text →
      skip ≤ position ∧ position < text.length ∧ pattern <+: text.drop position := by
  induction text with
  | nil => exact nofun
  | cons c rest ih =>
    intro skip position h
    have hbelow : ∀ {skip}, position ∈ matchIndices pattern (0 + 1) skip rest →
        skip + 1 ≤ position ∧ position < (c :: rest).length ∧
          pattern <+: (c :: rest).drop position := by
      intro skip h
      rw [matchIndices_offset] at h
      obtain ⟨inner, hinner, rfl⟩ := mem_map.mp h
      obtain ⟨hskip, hlt, hdrop⟩ := ih hinner
      rw [Nat.zero_add, Nat.add_comm 1 inner, drop_succ_cons, length_cons]
      exact ⟨by omega, by omega, hdrop⟩
    cases skip with
    | succ skip =>
      exact hbelow h
    | zero =>
      rw [matchIndices_cons] at h
      split at h
      next hstart =>
        rcases mem_cons.mp h with rfl | h
        · exact ⟨le_rfl, Nat.succ_pos _, isPrefixOf_iff_prefix.mp hstart⟩
        · exact ⟨Nat.zero_le _, (hbelow h).2⟩
      · exact ⟨Nat.zero_le _, (hbelow h).2⟩

/-! ## Word boundaries -/

def bounded (content marker : List Char) (position : ℕ) : Bool :=
  (position = 0 || !(content[position - 1]?.any isWordChar)) &&
    !(content[position + marker.length]?.any isWordChar)

lemma wordPositions_eq (content marker : List Char) : wordPositions content marker =
      (matchIndices marker 0 0 content).filter (bounded content marker) := rfl

section

variable {marker : List Char} {c : Char} (hword : isWordChar c = false)

include hword

lemma bounded_left (part rest : List Char) {position : ℕ}
    (h : position + marker.length ≤ part.length) (hlt : position < part.length) :
    bounded (part ++ c :: rest) marker position = bounded part marker position := by
  have hbefore : (position = 0 || !((part ++ c :: rest)[position - 1]?.any isWordChar)) =
      (position = 0 || !(part[position - 1]?.any isWordChar)) := by
    rw [getElem?_append_left (by omega)]
  have hafter : (part ++ c :: rest)[position + marker.length]?.any isWordChar =
      part[position + marker.length]?.any isWordChar := by
    rcases Nat.lt_or_eq_of_le h with hinside | hend
    · rw [getElem?_append_left hinside]
    · rw [getElem?_append_right hend.ge, hend, Nat.sub_self, getElem?_cons_zero,
        getElem?_eq_none le_rfl, any_some, hword]
      rfl
  rw [bounded, bounded, hbefore, hafter]

lemma bounded_right (part rest : List Char) (position : ℕ) :
    bounded (part ++ c :: rest) marker (part.length + 1 + position) =
      bounded rest marker position := by
  have hright : ∀ index, (part ++ c :: rest)[part.length + 1 + index]? = rest[index]? := by
    intro index
    rw [getElem?_append_right (by omega),
      show part.length + 1 + index - part.length = index + 1 by omega, getElem?_cons_succ]
  have hafter : (part ++ c :: rest)[part.length + 1 + position + marker.length]? =
      rest[position + marker.length]? := by
    rw [Nat.add_assoc, hright]
  rw [bounded, bounded, hafter]
  cases position with
  | zero =>
    have hbefore : (part ++ c :: rest)[part.length + 1 + 0 - 1]? = some c := by
      rw [Nat.add_zero, Nat.add_sub_cancel, getElem?_append_right le_rfl, Nat.sub_self,
        getElem?_cons_zero]
    rw [hbefore, any_some, hword]
    simp
  | succ position =>
    have hbefore : (part ++ c :: rest)[part.length + 1 + (position + 1) - 1]? =
        rest[position]? := by
      rw [show part.length + 1 + (position + 1) - 1 = part.length + 1 + position by omega, hright]
    rw [hbefore, Nat.add_sub_cancel]
    simp

/-- **The occurrences on both sides of a separator.** -/
lemma wordPositions_append (hne : marker ≠ []) (hc : c ∉ marker) (part rest : List Char) :
    wordPositions (part ++ c :: rest) marker = wordPositions part marker ++
        (wordPositions rest marker).map (part.length + 1 + ·) := by
  rw [wordPositions_eq, matchIndices_append hne hc rest part 0 0 (Nat.zero_le _),
    filter_append, wordPositions_eq, wordPositions_eq, Nat.zero_add,
    matchIndices_offset _ rest, List.filter_map]
  congr 1
  · refine filter_congr fun position hposition => ?_
    obtain ⟨_, hlt, hdrop⟩ := drop_of_mem_matchIndices part hposition
    have hlength := hdrop.length_le
    rw [length_drop] at hlength
    exact bounded_left hword part rest (by omega) hlt
  · congr 1
    refine filter_congr fun position _ => ?_
    exact bounded_right hword part rest position

end

lemma isWordChar_of_isWhitespace {c : Char} (h : isWhitespace c = true) :
    isWordChar c = false := by
  by_contra hword
  rw [Bool.not_eq_false, isWordChar, Bool.or_eq_true, decide_eq_true_iff] at hword
  rcases hword with hword | rfl
  · unfold Char.isAlphanum Char.isAlpha Char.isUpper Char.isLower Char.isDigit at hword
    simp only [Bool.or_eq_true, Bool.and_eq_true, decide_eq_true_eq, ge_iff_le,
      UInt32.le_iff_toNat_le] at hword
    simp only [isWhitespace, Char.toNat, Bool.or_eq_true, Bool.and_eq_true, decide_eq_true_eq] at h
    have hval : c.toNat = c.val.toNat := rfl
    simp at hword
    omega
  · cases h

/-- **The occurrences in a text are those in its parts.** -/
lemma length_wordPositions_split {marker : List Char} (p : Char → Bool) (hne : marker ≠ [])
    (hp : ∀ c, p c = true → isWordChar c = false ∧ c ∉ marker) (text : List Char) :
    (wordPositions text marker).length =
      ((text.splitOnP p).map fun part => (wordPositions part marker).length).sum := by
  induction text using induction_split p with
  | whole part hpart =>
    rw [splitOnP_eq_singleton hpart, map_singleton, sum_singleton]
  | split part c rest hpart hc ih =>
    obtain ⟨hword, hmarker⟩ := hp c hc
    rw [splitOnP_append_cons_of_forall_mem hpart c hc, map_cons, sum_cons, ← ih,
      wordPositions_append hword hne hmarker, length_append, length_map]

/-! ## Lines -/

def words (line : List Char) : List (List Char) :=
  (line.splitOnP isWhitespace).filter (· ≠ [])

/-- The words of a line, behind one another. -/
def spaced (line : List Char) : String := " ".intercalate ((words line).map String.ofList)

/-- The lines of a text, the last without an end. -/
def contentLines (content : List Char) : List (List Char) := content.splitOnP (· = '\n')

/-- The ends of lines, from an index on. -/
def newlinesFrom (content : List Char) (start : ℕ) : List ℕ :=
  ((content.zipIdx start).filter fun item => item.1 = '\n').map fun item => item.2 + 1

lemma lineStarts_eq (content : List Char) :
    lineStarts content = 0 :: newlinesFrom content 0 := rfl

variable {line : List Char}

lemma newlinesFrom_of_not_mem (h : ∀ c ∈ line, decide (c = '\n') = false)
    (start : ℕ) : newlinesFrom line start = [] := by
  rw [newlinesFrom, filter_eq_nil_iff.mpr, map_nil]
  intro item hitem
  rw [h item.1 (fst_mem_of_mem_zipIdx hitem)]
  exact Bool.false_ne_true

lemma newlinesFrom_add (content : List Char) (start : ℕ) :
    newlinesFrom content start = (newlinesFrom content 0).map (start + ·) := by
  rw [newlinesFrom, zipIdx_eq_map_add, List.filter_map, newlinesFrom, List.map_map, List.map_map]
  refine map_congr_left fun item _ => ?_
  simp only [Function.comp_apply]
  omega

variable (h : ∀ c ∈ line, decide (c = '\n') = false)

include h

variable (rest : List Char)

lemma lineStarts_append : lineStarts (line ++ '\n' :: rest) =
      0 :: (lineStarts rest).map (line.length + 1 + ·) := by
  have hrest : newlinesFrom (line ++ '\n' :: rest) 0 =
      newlinesFrom line 0 ++ (line.length + 1) :: newlinesFrom rest (line.length + 1) := by
    rw [newlinesFrom, zipIdx_append, filter_append, map_append, zipIdx_cons,
      filter_cons_of_pos (by exact decide_eq_true rfl), map_cons, Nat.zero_add]
    rfl
  rw [lineStarts_eq, hrest, newlinesFrom_of_not_mem h, nil_append, newlinesFrom_add,
    lineStarts_eq, map_cons, Nat.add_zero]

lemma lineIndex_line (position : ℕ) : lineIndex line position = 0 := by
  rw [lineIndex, lineStarts_eq, newlinesFrom_of_not_mem h]
  rfl

omit h

lemma takeWhile_zero_cons (position : ℕ) (starts : List ℕ) :
    ((0 :: starts).takeWhile fun start => start ≤ position) =
      0 :: starts.takeWhile fun start => start ≤ position :=
  takeWhile_cons_of_pos (decide_eq_true (Nat.zero_le position))

variable {position : ℕ}

lemma lineIndex_first (h : ∀ c ∈ line, decide (c = '\n') = false)
    (rest : List Char) (hposition : position ≤ line.length) :
    lineIndex (line ++ '\n' :: rest) position = 0 := by
  have hstop : ¬ decide (line.length + 1 ≤ position) = true := by
    rw [decide_eq_true_iff]
    omega
  rw [lineIndex, lineStarts_append h, lineStarts_eq, map_cons, Nat.add_zero, takeWhile_zero_cons,
    takeWhile_cons_of_neg (p := fun start => decide (start ≤ position)) hstop]
  rfl

/-- The number of lines that start up to a position. -/
lemma lineIndex_succ (content : List Char) (position : ℕ) :
    ((lineStarts content).takeWhile fun start => start ≤ position).length =
      lineIndex content position + 1 := by
  rw [lineIndex, lineStarts_eq, takeWhile_zero_cons, length_cons, Nat.add_sub_cancel]

variable (h : ∀ c ∈ line, decide (c = '\n') = false)

include h

lemma lineIndex_rest (position : ℕ) :
    lineIndex (line ++ '\n' :: rest) (line.length + 1 + position) =
      lineIndex rest position + 1 := by
  have hshift : ((lineStarts rest).map (line.length + 1 + ·)).takeWhile
      (fun start => start ≤ line.length + 1 + position) =
      ((lineStarts rest).takeWhile fun start => start ≤ position).map (line.length + 1 + ·) := by
    rw [takeWhile_map]
    congr 2
    funext start
    simp
  rw [lineIndex, lineStarts_append h, takeWhile_zero_cons, hshift, length_cons,
    length_map, lineIndex_succ, Nat.add_sub_cancel]

lemma lineStart_first (hposition : position ≤ line.length) :
    lineStart (line ++ '\n' :: rest) position = 0 := by
  rw [lineStart, lineIndex_first h rest hposition]
  rfl

lemma lineStart_rest (position : ℕ) :
    lineStart (line ++ '\n' :: rest) (line.length + 1 + position) =
      line.length + 1 + lineStart rest position := by
  have hlt : lineIndex rest position < (lineStarts rest).length := by
    have hsublist : ((lineStarts rest).takeWhile fun start => start ≤ position).Sublist
        (lineStarts rest) := takeWhile_sublist _
    have hle := hsublist.length_le
    exact hle
  rw [lineStart, lineIndex_rest h, lineStarts_append h, getD_cons_succ, lineStart]
  simp [getD_eq_getElem?_getD, getElem?_map, getElem?_eq_getElem hlt]

omit h

/-! ## The line of an occurrence -/

lemma spaced_eq (line : List Char) : spaced line = " ".intercalate
      (((line.splitOnP isWhitespace).filter (· ≠ [])).map String.ofList) := rfl

variable (h : ∀ c ∈ line, decide (c = '\n') = false)

include h

lemma takeWhile_drop_append (hposition : position ≤ line.length) :
    ((line ++ '\n' :: rest).drop position).takeWhile (· ≠ '\n') = line.drop position := by
  rw [drop_append_of_le_length hposition, takeWhile_append_of_pos,
    takeWhile_cons_of_neg (by simp), append_nil]
  intro c hc
  have hne := h c (mem_of_mem_drop hc)
  rw [decide_eq_false_iff_not] at hne
  exact decide_eq_true hne

lemma normalizedLine_line (position : ℕ) : normalizedLine line position = spaced line := by
  have hstart : lineStart line position = 0 := by
    rw [lineStart, lineIndex_line h]
    rfl
  have hline : (line.drop position).takeWhile (· ≠ '\n') = line.drop position := by
    rw [takeWhile_eq_self_iff]
    intro c hc
    have hne := h c (mem_of_mem_drop hc)
    rw [decide_eq_false_iff_not] at hne
    exact decide_eq_true hne
  rw [normalizedLine, hstart, hline, drop_zero, Nat.sub_zero, take_append_drop, spaced_eq]

lemma normalizedLine_first (hposition : position ≤ line.length) :
    normalizedLine (line ++ '\n' :: rest) position = spaced line := by
  rw [normalizedLine, lineStart_first h rest hposition, takeWhile_drop_append h rest hposition,
    drop_zero, Nat.sub_zero, take_append_of_le_length hposition, take_append_drop,
    spaced_eq]

lemma normalizedLine_rest (position : ℕ) :
    normalizedLine (line ++ '\n' :: rest) (line.length + 1 + position) =
      normalizedLine rest position := by
  have hdrop : ∀ index, (line ++ '\n' :: rest).drop (line.length + 1 + index) =
      rest.drop index := by
    intro index
    rw [← drop_drop, drop_append, Nat.add_sub_cancel_left, drop_eq_nil_of_le
      (Nat.le_succ _), nil_append, drop_succ_cons, drop_zero]
  rw [normalizedLine, lineStart_rest h, hdrop, hdrop, Nat.add_sub_add_left, normalizedLine]

omit h

/-! ## How many occurrences a line has -/

section

variable (hash : String → String)

/-- The hashes of the lines on which a marker occurs, once for each occurrence. -/
def contextHashes (content marker : List Char) : List String :=
  (wordPositions content marker).map fun position => hash (normalizedLine content position)

/-- What a line adds to the occurrences of a marker on lines of a hash. -/
def lineCount (marker : List Char) (contextHash : String) (line : List Char) : ℕ :=
  if hash (spaced line) = contextHash then (wordPositions line marker).length else 0

/-- **The occurrences of a marker are counted line by line.** -/
lemma count_contextHashes {marker : List Char} (hne : marker ≠ []) (hline : '\n' ∉ marker)
    (content : List Char) (contextHash : String) :
    (contextHashes hash content marker).count contextHash =
      ((contentLines content).map (lineCount hash marker contextHash)).sum := by
  have hconst : ∀ (positions : List ℕ) (text : List Char) (line : List Char),
      (∀ position ∈ positions, normalizedLine text position = spaced line) →
      (positions.map fun position => hash (normalizedLine text position)).count contextHash =
        if hash (spaced line) = contextHash then positions.length else 0 := by
    intro positions text line h
    rw [map_congr_left fun position hposition => congrArg hash (h position hposition),
      map_const', count_replicate]
    simp
  induction content using induction_split (· = '\n') with
  | whole line h =>
    rw [contentLines, splitOnP_eq_singleton h, map_singleton, sum_singleton,
      contextHashes, lineCount]
    exact hconst _ _ _ fun position _ => normalizedLine_line h position
  | split line c rest h hc ih =>
    obtain rfl := of_decide_eq_true hc
    have hfirst := hconst (wordPositions line marker) (line ++ '\n' :: rest) line
      fun position hposition => by
        obtain ⟨_, hlt, _⟩ := drop_of_mem_matchIndices line (mem_filter.mp hposition).1
        exact normalizedLine_first h rest hlt.le
    have hrest : ((wordPositions rest marker).map (line.length + 1 + ·)).map
        (fun position => hash (normalizedLine (line ++ '\n' :: rest) position)) =
        contextHashes hash rest marker := by
      rw [List.map_map, contextHashes]
      refine map_congr_left fun position _ => ?_
      rw [Function.comp_apply, normalizedLine_rest h]
    rw [contentLines, splitOnP_append_cons_of_forall_mem h _ hc, map_cons,
      sum_cons, ← contentLines, ← ih, contextHashes,
      wordPositions_append (by decide) hne hline, map_append, hrest, count_append,
      hfirst, lineCount]

/-! ## Identities -/

def identity (occurrence : MarkerOccurrence) : String × String × ℕ :=
  (occurrence.marker, occurrence.contextHash, occurrence.occurrence)

structure Numbered (marker : String) (hashes : List String)
    (identities : List (String × String × ℕ)) (ordinals : Ordinals) : Prop where
  ordinals : ∀ contextHash, (get? (marker, contextHash) ordinals).getD 0 = hashes.count contextHash
  mem_iff : ∀ other contextHash occurrence, (other, contextHash, occurrence) ∈ identities ↔
    other = marker ∧ 1 ≤ occurrence ∧ occurrence ≤ hashes.count contextHash
  nodup : identities.Nodup

variable {hash} {content : List Char} {marker : String}

lemma Numbered.step {hashes : List String} {state : List MarkerOccurrence × Ordinals}
    (h : Numbered marker hashes (state.1.map identity) state.2) (position : ℕ) :
    Numbered marker (hashes ++ [hash (normalizedLine content position)])
      ((recordPosition hash content marker state position).1.map identity)
      (recordPosition hash content marker state position).2 := by
  have hcount : ∀ contextHash, (hashes ++ [hash (normalizedLine content position)]).count
      contextHash = hashes.count contextHash +
        if hash (normalizedLine content position) = contextHash then 1 else 0 := by
    intro contextHash
    rw [count_append, count_singleton]
    simp
  have hnew : (recordPosition hash content marker state position).1.map identity =
      state.1.map identity ++ [(marker, hash (normalizedLine content position),
        hashes.count (hash (normalizedLine content position)) + 1)] := by
    rw [recordPosition, h.ordinals, map_append, map_singleton]
    rfl
  refine ⟨?_, ?_, ?_⟩
  · intro contextHash
    rw [recordPosition, hcount, h.ordinals, get?_alter]
    by_cases hsame : hash (normalizedLine content position) = contextHash
    · subst hsame
      simp
    · have hne : ¬ (marker, contextHash) = (marker, hash (normalizedLine content position)) :=
        fun heq => hsame (Prod.mk.inj heq).2.symm
      rw [if_neg hsame, if_neg hne, h.ordinals]
      rfl
  · intro other contextHash occurrence
    rw [hnew, mem_append, h.mem_iff, mem_singleton, Prod.mk.injEq, Prod.mk.injEq, hcount]
    by_cases hsame : hash (normalizedLine content position) = contextHash
    · subst hsame
      rw [if_pos rfl]
      constructor
      · rintro (⟨hmarker, hpos, hle⟩ | ⟨hmarker, _, hlast⟩)
        · exact ⟨hmarker, hpos, by omega⟩
        · exact ⟨hmarker, by omega, by omega⟩
      · rintro ⟨hmarker, hpos, hle⟩
        rcases Nat.lt_or_eq_of_le hle with hlt | hlast
        · exact .inl ⟨hmarker, hpos, by omega⟩
        · exact .inr ⟨hmarker, rfl, hlast⟩
    · rw [if_neg hsame, Nat.add_zero]
      constructor
      · rintro (hold | ⟨_, hhash, _⟩)
        · exact hold
        · exact absurd hhash.symm hsame
      · exact .inl
  · rw [hnew, nodup_append]
    refine ⟨h.nodup, nodup_singleton _, ?_⟩
    rintro ⟨other, contextHash, occurrence⟩ hmem last hlast
    obtain rfl := mem_singleton.mp hlast
    intro heq
    obtain ⟨_, hhash, hoccurrence⟩ := Prod.mk.injEq .. |>.mp heq |>.imp id fun h =>
      Prod.mk.injEq .. |>.mp h
    obtain ⟨_, _, hle⟩ := (h.mem_iff _ _ _).mp hmem
    rw [hhash] at hle
    omega

lemma numbered_foldl (marker : String) (positions : List ℕ) :
    let found := positions.foldl (recordPosition hash content marker) ([], [])
    Numbered marker (positions.map fun position => hash (normalizedLine content position))
      (found.1.map identity) found.2 := by
  induction positions using reverseRecOn with
  | nil =>
    refine ⟨fun _ => rfl, fun other contextHash occurrence => ?_, nodup_nil⟩
    simp only [foldl_nil, map_nil, not_mem_nil, count_nil, false_iff]
    omega
  | append_singleton positions last ih =>
    rw [foldl_append, map_append]
    exact ih.step last

/-- The whole of a text is one range. -/
lemma markerPositions_whole (content : List Char) (marker : String) :
    markerPositions content [(0, content.length)] marker =
      wordPositions content marker.toList := by
  rw [markerPositions, flatMap_singleton, Nat.sub_zero, drop_zero, take_length]
  simp

variable (hash content)

/-- The identities of the occurrences in a text. -/
def identities (markers : List String) : List (String × String × ℕ) :=
  (scanDetailed hash content markers).occurrences.map identity

variable {hash content}

lemma numbered_ownOccurrences (hne : marker ≠ "") :
    ∃ ordinals, Numbered marker (contextHashes hash content marker.toList)
      ((ownOccurrences hash content [(0, content.length)] marker).map identity) ordinals := by
  have h := @numbered_foldl hash content marker (wordPositions content marker.toList)
  rw [ownOccurrences, scanMarker, if_neg hne, markerPositions_whole]
  exact ⟨_, h⟩

variable {markers : List String}

lemma identities_perm (h : markers.Nodup) :
    (identities hash content markers).Perm
      (markers.flatMap fun marker =>
        (ownOccurrences hash content [(0, content.length)] marker).map identity) := by
  rw [identities, scanDetailed, scanRanges, ← map_flatMap,
    ← occurrences_scanState hash content [(0, content.length)] h]
  exact (sortBy_perm _ _).map identity

/-- **The identities of a text.** -/
lemma mem_identities_iff (h : markers.Nodup) {contextHash : String} {occurrence : ℕ} :
    (marker, contextHash, occurrence) ∈ identities hash content markers ↔
      marker ∈ markers ∧ marker ≠ "" ∧ 1 ≤ occurrence ∧
        occurrence ≤ (contextHashes hash content marker.toList).count contextHash := by
  rw [(identities_perm h).mem_iff, mem_flatMap]
  constructor
  · rintro ⟨other, hother, hmem⟩
    by_cases hne : other = ""
    · rw [hne, ownOccurrences, scanMarker, if_pos rfl] at hmem
      cases hmem
    · obtain ⟨_, hnumbered⟩ := @numbered_ownOccurrences hash content _ hne
      obtain ⟨rfl, hcount⟩ := (hnumbered.mem_iff _ _ _).mp hmem
      exact ⟨hother, hne, hcount⟩
  · rintro ⟨hmarker, hne, hcount⟩
    obtain ⟨_, hnumbered⟩ := @numbered_ownOccurrences hash content _ hne
    exact ⟨marker, hmarker, (hnumbered.mem_iff _ _ _).mpr ⟨rfl, hcount⟩⟩

/-- **No two occurrences have one identity.** -/
lemma nodup_identities (h : markers.Nodup) : (identities hash content markers).Nodup := by
  rw [(identities_perm h).nodup_iff, nodup_flatMap]
  refine ⟨fun marker _ => ?_, h.imp fun {a b} hne => ?_⟩
  · by_cases hne : marker = ""
    · rw [hne, ownOccurrences, scanMarker, if_pos rfl]
      exact nodup_nil
    · obtain ⟨_, hnumbered⟩ := @numbered_ownOccurrences hash content _ hne
      exact hnumbered.nodup
  · rintro item ha hb
    obtain ⟨first, hfirst, rfl⟩ := mem_map.mp ha
    obtain ⟨second, hsecond, heq⟩ := mem_map.mp hb
    have hmarker : first.marker = second.marker := (congrArg Prod.fst heq).symm
    rw [marker_of_mem_ownOccurrences hash content _ hfirst,
      marker_of_mem_ownOccurrences hash content _ hsecond] at hmarker
    exact hne hmarker

/-! ## Moves -/

def MarkerFree (markers : List String) (line : List Char) : Prop :=
  ∀ marker ∈ markers, wordPositions line marker.toList = []

instance (markers : List String) (line : List Char) : Decidable (MarkerFree markers line) :=
  inferInstanceAs (Decidable (∀ marker ∈ markers, wordPositions line marker.toList = []))

def BlankFree (marker : String) : Prop := ∀ c ∈ marker.toList, isWhitespace c = false

instance (marker : String) : Decidable (BlankFree marker) :=
  decidable_of_iff ((marker.toList.all fun c => !isWhitespace c) = true) (by simp [BlankFree])

/-- The second text has the lines of the first in another order, with others in which there are no
markers, or with other blanks, if the markers have none. -/
inductive Moved (markers : List String) : List (List Char) → List (List Char) → Prop where
  | perm {lines lines' : List (List Char)} : lines'.Perm lines → Moved markers lines lines'
  | insert {before after : List (List Char)} {line : List Char} : MarkerFree markers line →
      Moved markers (before ++ after) (before ++ line :: after)
  | respace {lines lines' : List (List Char)} : (∀ marker ∈ markers, BlankFree marker) →
      List.Forall₂ (fun line line' => words line = words line') lines lines' →
      Moved markers lines lines'
  | trans {lines lines' lines'' : List (List Char)} : Moved markers lines lines' →
      Moved markers lines' lines'' → Moved markers lines lines''

lemma lineCount_congr {marker : List Char} (hne : marker ≠ [])
    (hblank : ∀ c ∈ marker, isWhitespace c = false) {line line' : List Char}
    (hwords : words line = words line') (contextHash : String) :
    lineCount hash marker contextHash line = lineCount hash marker contextHash line' := by
  have hlength : ∀ text : List Char, (wordPositions text marker).length =
      ((words text).map fun part => (wordPositions part marker).length).sum := by
    intro text
    rw [length_wordPositions_split isWhitespace hne fun c hc => ⟨isWordChar_of_isWhitespace hc,
      fun hmem => by rw [hblank c hmem] at hc; exact absurd hc Bool.false_ne_true⟩, words]
    induction text.splitOnP isWhitespace with
    | nil => rfl
    | cons part rest ih =>
      by_cases hpart : part = []
      · rw [filter_cons_of_neg (by simp [hpart]), map_cons, sum_cons, ih, hpart]
        exact Nat.zero_add _
      · rw [filter_cons_of_pos (by simp [hpart]), map_cons, map_cons, sum_cons, sum_cons, ih]
  rw [lineCount, lineCount, spaced, spaced, hwords, hlength, hlength, hwords]

/-- A move changes no count. -/
lemma Moved.sum_lineCount {lines lines' : List (List Char)} (h : Moved markers lines lines')
    (hmarker : marker ∈ markers) (hne : marker.toList ≠ [])
    (contextHash : String) :
    (lines'.map (lineCount hash marker.toList contextHash)).sum =
      (lines.map (lineCount hash marker.toList contextHash)).sum := by
  induction h with
  | perm hperm => exact (hperm.map _).sum_eq
  | @insert before after line hfree =>
    have hnone : lineCount hash marker.toList contextHash line = 0 := by
      rw [lineCount, hfree marker hmarker, length_nil, ite_self]
    rw [map_append, sum_append, map_append, sum_append, map_cons, sum_cons, hnone, Nat.zero_add]
  | respace hblank hlines =>
    induction hlines with
    | nil => rfl
    | cons hwords _ ih =>
      rw [map_cons, map_cons, sum_cons, sum_cons, ih,
        lineCount_congr hne (hblank marker hmarker) hwords]
  | trans _ _ ih ih' => exact ih'.trans ih

/-- **Identities survive moves.** -/
lemma identities_moved (h : markers.Nodup) (hlines : ∀ marker ∈ markers, '\n' ∉ marker.toList)
    {content content' : List Char}
    (hmoved : Moved markers (contentLines content) (contentLines content'))
    (item : String × String × ℕ) :
    item ∈ identities hash content' markers ↔ item ∈ identities hash content markers := by
  obtain ⟨marker, contextHash, occurrence⟩ := item
  rw [mem_identities_iff h, mem_identities_iff h]
  refine and_congr_right fun hmarker => and_congr_right fun hne => ?_
  have hchars : marker.toList ≠ [] := fun hnil => hne (String.toList_eq_nil_iff.mp hnil)
  rw [count_contextHashes hash hchars (hlines marker hmarker),
    count_contextHashes hash hchars (hlines marker hmarker),
    hmoved.sum_lineCount hmarker hchars]

/-! ## Counts -/

/-- The number reported for a marker. -/
def countOf (scan : MarkerScan) (marker : String) : ℕ :=
  (get? marker scan.counts).getD 0

lemma countOf_scanDetailed (h : markers.Nodup) (hmarker : marker ∈ markers) (hne : marker ≠ "") :
    countOf (scanDetailed hash content markers) marker =
      (wordPositions content marker.toList).length := by
  have hkeys := nodup_keys_counts content [(0, content.length)] h
  have hget : get? marker (scanDetailed hash content markers).counts =
      get? marker (markers.filterMap (ownCount content [(0, content.length)])) := by
    rw [scanDetailed, scanRanges, ← counts_scanState hash content [(0, content.length)] h]
    rw [← counts_scanState hash content [(0, content.length)] h] at hkeys
    exact get?_of_perm hkeys (sortBy_perm _ _)
  rw [countOf, hget]
  by_cases hnone : wordPositions content marker.toList = []
  · rw [get?_eq_none_iff.mpr, hnone]
    · rfl
    · intro hkey
      obtain ⟨entry, hentry, hfst⟩ := mem_map.mp hkey
      obtain ⟨other, _, hcount⟩ := mem_filterMap.mp hentry
      rw [ownCount] at hcount
      split_ifs at hcount with hempty
      cases hcount
      rw [not_or, show other = marker from hfst, markerPositions_whole] at hempty
      exact hempty.2 hnone
  · have hentry : (marker, (wordPositions content marker.toList).length) ∈
        markers.filterMap (ownCount content [(0, content.length)]) := by
      refine mem_filterMap.mpr ⟨marker, hmarker, ?_⟩
      rw [ownCount, markerPositions_whole, if_neg (not_or.mpr ⟨hne, hnone⟩)]
    rw [get?_of_mem hkeys hentry]
    rfl

def OccursAt (content marker : List Char) (position : ℕ) : Prop :=
  marker <+: content.drop position

instance (content marker : List Char) (position : ℕ) :
    Decidable (OccursAt content marker position) :=
  inferInstanceAs (Decidable (_ <+: _))

/-- The positions at which the marker occurs as a word. -/
def boundedOccurrences (content marker : List Char) : List ℕ :=
  (List.range content.length).filter fun position =>
    OccursAt content marker position && bounded content marker position

/-- No occurrence as a word begins inside of another occurrence. -/
def Apart (content marker : List Char) : Prop :=
  ∀ position ∈ boundedOccurrences content marker, ∀ other, OccursAt content marker other →
    other < position → other + marker.length ≤ position

lemma pairwise_matchIndices (pattern : List Char) (text : List Char) : ∀ offset skip : ℕ,
    (matchIndices pattern offset skip text).Pairwise (· < ·) := by
  induction text with
  | nil => exact fun _ _ => Pairwise.nil
  | cons c rest ih =>
    intro offset skip
    cases skip with
    | succ skip =>
      exact ih _ _
    | zero =>
      rw [matchIndices_cons]
      split
      · refine pairwise_cons.mpr ⟨fun position hposition => ?_, ih _ _⟩
        rw [matchIndices_offset] at hposition
        obtain ⟨inner, _, rfl⟩ := mem_map.mp hposition
        omega
      · exact ih _ _

/-- What begins inside of no other occurrence is found. -/
lemma mem_matchIndices {pattern : List Char} (text : List Char) : ∀ {skip position : ℕ},
    skip ≤ position → position < text.length → OccursAt text pattern position →
      (∀ other, OccursAt text pattern other → other < position →
        other + pattern.length ≤ position) →
      position ∈ matchIndices pattern 0 skip text := by
  induction text with
  | nil => exact fun _ hlt => absurd hlt (Nat.not_lt_zero _)
  | cons c rest ih =>
    intro skip position hskip hlt hoccurs halone
    -- the same for a position behind the first character
    have hbelow : ∀ {skip inner}, position = inner + 1 → skip ≤ inner →
        position ∈ matchIndices pattern (0 + 1) skip rest := by
      rintro skip inner rfl hinner
      rw [length_cons] at hlt
      rw [matchIndices_offset]
      refine mem_map.mpr ⟨inner, ih hinner (by omega) hoccurs fun other hother hless => ?_,
        by omega⟩
      have hshifted := halone (other + 1) hother (by omega)
      omega
    cases position with
    | zero =>
      obtain rfl := Nat.le_zero.mp hskip
      have hstart : pattern <+: c :: rest := hoccurs
      rw [matchIndices_cons, if_pos (List.isPrefixOf_iff_prefix.mpr hstart)]
      exact mem_cons_self
    | succ inner =>
      cases skip with
      | succ skip =>
        exact hbelow rfl (Nat.le_of_succ_le_succ hskip)
      | zero =>
        rw [matchIndices_cons]
        split
        next hstart =>
          have hpast := halone 0 (List.isPrefixOf_iff_prefix.mp hstart) (Nat.succ_pos _)
          exact mem_cons_of_mem _ (hbelow rfl (by omega))
        · exact hbelow rfl (Nat.zero_le _)

/-- **All occurrences as words are found**, unless one begins inside of another occurrence. -/
lemma length_wordPositions {content marker : List Char} (h : Apart content marker) :
    (wordPositions content marker).length = (boundedOccurrences content marker).length := by
  apply Perm.length_eq
  rw [perm_ext_iff_of_nodup]
  · intro position
    rw [wordPositions_eq, mem_filter, boundedOccurrences, mem_filter, mem_range,
      Bool.and_eq_true, decide_eq_true_iff]
    constructor
    · rintro ⟨hmem, hbounded⟩
      obtain ⟨_, hlt, hdrop⟩ := drop_of_mem_matchIndices content hmem
      exact ⟨hlt, hdrop, hbounded⟩
    · rintro ⟨hlt, hoccurs, hbounded⟩
      refine ⟨mem_matchIndices content (Nat.zero_le _) hlt hoccurs ?_, hbounded⟩
      apply h position
      rw [boundedOccurrences, mem_filter, mem_range, Bool.and_eq_true, decide_eq_true_iff]
      exact ⟨hlt, hoccurs, hbounded⟩
  · exact ((pairwise_matchIndices marker content 0 0).imp fun {a b} hlt => hlt.ne).filter _
  · exact nodup_range.filter _

end

/-- **Markers are known by identities that survive moves**, each only once, and counted as often as
they occur as words. -/
theorem identities_survive (hash : String → String) {markers : List String}
    (h : markers.Nodup) (content : List Char) :
    (identities hash content markers).Nodup ∧
      ((∀ marker ∈ markers, '\n' ∉ marker.toList) → ∀ content' : List Char,
        Moved markers (contentLines content) (contentLines content') →
        ∀ item, item ∈ identities hash content' markers ↔ item ∈ identities hash content markers) ∧
      ∀ marker ∈ markers, marker ≠ "" → Apart content marker.toList →
        countOf (scanDetailed hash content markers) marker =
          (boundedOccurrences content marker.toList).length := by
  refine ⟨nodup_identities h, ?_, ?_⟩
  · intro hlines content' hmoved item
    exact identities_moved h hlines hmoved item
  · intro marker hmarker hne hapart
    rw [countOf_scanDetailed h hmarker hne, length_wordPositions hapart]

/-- Two tasks, behind other blanks and the other way round. -/
theorem identities_survive_tasks :
    {item | item ∈ identities id "x\n\t // TODO  b\n// TODO a".toList ["TODO", "FIXME"]} =
      {item | item ∈ identities id "// TODO a\n// TODO b".toList ["TODO", "FIXME"]} := by
  ext item
  refine (identities_survive id (by decide) "// TODO a\n// TODO b".toList).2.1 (by decide) _ ?_ item
  have hlines : contentLines "// TODO a\n// TODO b".toList =
      ["// TODO a".toList, "// TODO b".toList] := by decide +kernel
  have hlines' : contentLines "x\n\t // TODO  b\n// TODO a".toList =
      ["x".toList, "\t // TODO  b".toList, "// TODO a".toList] := by decide +kernel
  have hblanks : List.Forall₂ (fun line line' => words line = words line')
      ["x".toList, "// TODO b".toList, "// TODO a".toList]
      ["x".toList, "\t // TODO  b".toList, "// TODO a".toList] :=
    .cons (by decide +kernel) (.cons (by decide +kernel) (.cons (by decide +kernel) .nil))
  have hswapped : Moved ["TODO", "FIXME"] ["// TODO a".toList, "// TODO b".toList]
      ["// TODO b".toList, "// TODO a".toList] := .perm (Perm.swap _ _ [])
  have hinserted : Moved ["TODO", "FIXME"] ["// TODO b".toList, "// TODO a".toList]
      ["x".toList, "// TODO b".toList, "// TODO a".toList] :=
    @Moved.insert _ [] ["// TODO b".toList, "// TODO a".toList] "x".toList (by decide +kernel)
  rw [hlines, hlines']
  exact (hswapped.trans hinserted).trans (.respace (by decide +kernel) hblanks)

/-- A marker of two words is lost with the blank between them, one of two lines with their order;
an empty marker is not looked for, and what begins inside of another occurrence is not found. -/
theorem not_identities_survive :
    (¬ ∀ (hash : String → String) (markers : List String) (content content' : List Char),
      markers.Nodup → List.Forall₂ (fun line line' => words line = words line')
        (contentLines content) (contentLines content') →
      ∀ item, item ∈ identities hash content' markers ↔ item ∈ identities hash content markers) ∧
    (¬ ∀ (hash : String → String) (markers : List String) (content content' : List Char),
      markers.Nodup → (contentLines content').Perm (contentLines content) →
      ∀ item, item ∈ identities hash content' markers ↔ item ∈ identities hash content markers) ∧
    (¬ ∀ (hash : String → String) (markers : List String) (content : List Char),
      markers.Nodup → ∀ marker ∈ markers, countOf (scanDetailed hash content markers) marker =
        (boundedOccurrences content marker.toList).length) ∧
    ¬ ∀ (hash : String → String) (markers : List String) (content : List Char),
      markers.Nodup → ∀ marker ∈ markers, marker ≠ "" →
        countOf (scanDetailed hash content markers) marker =
          (boundedOccurrences content marker.toList).length := by
  refine ⟨fun h => ?_, fun h => ?_, fun h => ?_, fun h => ?_⟩
  · have hwords : List.Forall₂ (fun line line' => words line = words line')
        (contentLines "TO DO".toList) (contentLines "TO  DO".toList) :=
      .cons (by decide +kernel) .nil
    have hlost := h id ["TO DO"] "TO DO".toList "TO  DO".toList (by decide) hwords
      ("TO DO", "TO DO", 1)
    exact absurd hlost (by decide +kernel)
  · have hperm : (contentLines "DO\nTO".toList).Perm (contentLines "TO\nDO".toList) := by
      decide +kernel
    have hlost := h id ["TO\nDO"] "TO\nDO".toList "DO\nTO".toList (by decide) hperm
      ("TO\nDO", "TO", 1)
    exact absurd hlost (by decide +kernel)
  · have hempty := h id [""] " ".toList (by decide) "" (by decide)
    exact absurd hempty (by decide +kernel)
  · have hinside := h id ["a-a"] "xa-a-a".toList (by decide) "a-a" (by decide) (by decide)
    exact absurd hinside (by decide +kernel)

end Reposcout.Metrics
