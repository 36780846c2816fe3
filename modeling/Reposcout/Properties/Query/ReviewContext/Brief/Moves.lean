import Reposcout.Properties.Query.ReviewContext.Brief.Pairing

/-!
# Soundness of the folded lines

A line that the brief hides as moved or unchanged has a counterpart.  The pairs of moved lines are
a matching between removed and added lines, inside declarations that moved as a whole, of equal
keys and equal indentation; an unchanged line equals its counterpart in place.

An unchanged line is compared with its counterpart byte for byte, two moved lines only by their
keys, which leave the space between tokens out.  So no text is hidden exactly when the lines that
the moved declarations bring together pass the comparison of the unchanged lines too.
-/

namespace Reposcout.Query.ReviewContext.Brief

open Matching List Option

/-! ## Changed declarations -/

structure WhollyChanged (input : MatchInput) (entries : List Entry) (d : Declaration) : Prop where
  lines : ∀ i ∈ d.lines, i < entries.length ∧ (entryAt entries i).change = d.change ∧
    (entryAt entries i).removed = d.removed
  whole : ∃ text, (input.side d.change d.removed).text = some text ∧
    ∃ span ∈ (input.side d.change d.removed).spans, numbers entries d = nonBlankNumbers text span

variable {i : ℕ} {entries : List Entry}

lemma entryOfNumber_eq_some {change : ℕ} {removed : Bool} {number : ℕ}
    (h : entryOfNumber entries change removed number = some i) :
    i < entries.length ∧ (entryAt entries i).change = change ∧
      (entryAt entries i).removed = removed ∧ (entryAt entries i).number = number := by
  have hmem := mem_of_find?_eq_some h
  have hfound := find?_some h
  simp only [indices, mem_reverse, mem_range] at hmem
  simp only [Bool.and_eq_true, decide_eq_true_eq] at hfound
  exact ⟨hmem, hfound.1.1, hfound.1.2, hfound.2⟩

lemma mapM_entryOfNumber {change : ℕ} {removed : Bool} {wanted members : List ℕ}
    (h : wanted.mapM (entryOfNumber entries change removed) = some members) :
    (members.map fun i => (entryAt entries i).number) = wanted ∧
      ∀ i ∈ members, i < entries.length ∧ (entryAt entries i).change = change ∧
        (entryAt entries i).removed = removed := by
  induction wanted generalizing members with
  | nil =>
    have hnil : members = [] := by simpa using h.symm
    simp [hnil]
  | cons number rest ih =>
    rw [mapM_cons] at h
    simp only [bind_eq_bind, bind_eq_some_iff, Option.pure_def, some.injEq] at h
    obtain ⟨i, hi, others, hothers, rfl⟩ := h
    obtain ⟨hlt, hchange, hremoved, hnumber⟩ := entryOfNumber_eq_some hi
    obtain ⟨hnumbers, hmembers⟩ := ih hothers
    refine ⟨by rw [map_cons, hnumber, hnumbers], fun j hj => ?_⟩
    rcases mem_cons.mp hj with rfl | hj
    · exact ⟨hlt, hchange, hremoved⟩
    · exact hmembers j hj

variable {partner : Partner ℕ} {input : MatchInput}

lemma whollyChanged_of_mem {d : Declaration}
    (h : d ∈ changedDeclarations input entries partner) : WhollyChanged input entries d := by
  simp only [changedDeclarations, mem_flatMap, Prod.exists] at h
  obtain ⟨change, removed, _, h⟩ := h
  split at h
  · next text htext =>
    obtain ⟨span, hspan, hd⟩ := mem_filterMap.mp h
    unfold changedDeclaration at hd
    dsimp only at hd
    split at hd
    · split at hd
      · next members hmembers =>
        split at hd
        · cases hd
        · cases hd
          obtain ⟨hnumbers, hlines⟩ := mapM_entryOfNumber hmembers
          exact ⟨hlines, text, htext, span, hspan, hnumbers⟩
      · cases hd
    · cases hd
  · simp at h

/-! ## Accepted moves -/

structure Accepted (input : MatchInput) (entries : List Entry) (partner : Partner ℕ)
    (move : Move) : Prop where
  source : WhollyChanged input entries move.source
  removed : move.source.removed = true
  destination : WhollyChanged input entries move.destination
  added : move.destination.removed = false
  length : move.destination.lines.length = move.source.lines.length
  test : (input.side move.source.change true).test = (input.side move.destination.change false).test
  lines : ∀ lines ∈ move.lines, linesPair input entries partner lines = true

variable {move : Move}

lemma accepted_of_mem
    (h : move ∈ acceptedMoves input entries partner) : Accepted input entries partner move := by
  simp only [acceptedMoves, mem_flatMap, mem_filter] at h
  obtain ⟨source, ⟨hsource, hremoved⟩, h⟩ := h
  unfold acceptedFor at h
  split at h
  · next position target _ =>
    obtain ⟨⟨destination, offset⟩, hhead, hmove⟩ := mem_filterMap.mp h
    dsimp only at hmove
    split at hmove
    · next haccepts =>
      cases hmove
      simp only [heads, mem_flatMap, List.mem_map, mem_filter, Prod.mk.injEq,
        Bool.not_eq_true'] at hhead
      obtain ⟨_, ⟨hfound, hadded⟩, _, _, rfl, _⟩ := hhead
      have haccepts := haccepts.2
      simp only [accepts, Bool.and_eq_true, decide_eq_true_eq, List.all_eq_true] at haccepts
      exact ⟨whollyChanged_of_mem hsource, hremoved, whollyChanged_of_mem hfound, hadded,
        haccepts.1.1, haccepts.1.2, haccepts.2⟩
    · cases hmove
  · simp at h

variable {j : ℕ}

/-- The source line of a move is removed and its destination line is added. -/
lemma Accepted.sides (h : Accepted input entries partner move) (hij : (i, j) ∈ move.lines) :
    i < entries.length ∧ j < entries.length ∧
      (entryAt entries i).removed = true ∧ (entryAt entries j).removed = false := by
  obtain ⟨hi, hj⟩ := of_mem_zip hij
  obtain ⟨hi, _, hir⟩ := h.source.lines i hi
  obtain ⟨hj, _, hjr⟩ := h.destination.lines j hj
  exact ⟨hi, hj, hir.trans h.removed, hjr.trans h.added⟩

lemma linesPair_eq_true :
    linesPair input entries partner (i, j) = true ↔
      (entryAt entries i).indent = (entryAt entries j).indent ∧
      (partnerOf partner i = some j ∨ (partnerOf partner i = none ∧ partnerOf partner j = none ∧
        (entryAt entries i).key = (entryAt entries j).key)) ∧
      purePair input.checks (entryAt entries i) (entryAt entries j) = true := by
  simp [linesPair, and_assoc]

/-! ## The lines that moves bring together -/

/-- The lines at the same positions of the folded moves. -/
def foldedLines (input : MatchInput) (entries : List Entry) (partner : Partner ℕ) :
    List (ℕ × ℕ) :=
  (foldedMoves input entries partner).flatMap Move.lines

/-- Two lines at the same position of a folded move that pair: they were partners before, or they
were free and no pair before them has either. -/
def BroughtTogether (input : MatchInput) (entries : List Entry) (partner : Partner ℕ) (i j : ℕ) :
    Prop :=
  ((i, j) ∈ foldedLines input entries partner ∧ partnerOf partner i = some j) ∨
    (i, j) ∈ admitted ((foldedLines input entries partner).filter fun pair =>
      (partnerOf partner pair.1).isNone)

lemma mem_foldedLines :
    (i, j) ∈ foldedLines input entries partner ↔
      ∃ move ∈ foldedMoves input entries partner, (i, j) ∈ move.lines := by
  simp [foldedLines]

lemma accepted_of_mem_foldedMoves (h : move ∈ foldedMoves input entries partner) :
    Accepted input entries partner move ∧
      keepsBindings input entries (acceptedMoves input entries partner) move = true :=
  ⟨accepted_of_mem (mem_filter.mp h).1, (mem_filter.mp h).2⟩

lemma BroughtTogether.mem
    (h : BroughtTogether input entries partner i j) : (i, j) ∈ foldedLines input entries partner :=
  h.elim And.left fun h => (mem_filter.mp (mem_of_mem_admitted h)).1

lemma linesPair_of_mem (h : (i, j) ∈ foldedLines input entries partner) :
    linesPair input entries partner (i, j) = true := by
  obtain ⟨move, hmove, hij⟩ := mem_foldedLines.mp h
  exact (accepted_of_mem_foldedMoves hmove).1.lines (i, j) hij

lemma sides_of_mem (h : (i, j) ∈ foldedLines input entries partner) :
    i < entries.length ∧ j < entries.length ∧
      (entryAt entries i).removed = true ∧ (entryAt entries j).removed = false := by
  obtain ⟨move, hmove, hij⟩ := mem_foldedLines.mp h
  exact (accepted_of_mem_foldedMoves hmove).1.sides hij

/-- A kept line that had a partner is in a folded move together with it. -/
lemma mem_of_inPairs (hpartner : IsMatching partner) (hij : partnerOf partner i = some j)
    (h : inPairs (foldedLines input entries partner) i = true) :
    (i, j) ∈ foldedLines input entries partner ∨ (j, i) ∈ foldedLines input entries partner := by
  simp only [inPairs, List.any_eq_true, Bool.or_eq_true, decide_eq_true_eq, Prod.exists] at h
  obtain ⟨left, right, hmem, hi⟩ := h
  obtain ⟨_, hpair, _⟩ := linesPair_eq_true.mp (linesPair_of_mem hmem)
  rcases hi with hi | hi
  · rw [hi, hij] at hpair
    rcases hpair with hpair | ⟨hnone, _⟩
    · rw [hi, ← some.inj hpair] at hmem
      exact .inl hmem
    · cases hnone
  · rcases hpair with hpair | ⟨_, hnone, _⟩
    · have hleft : partnerOf partner i = some left := by
        rw [← hi]
        exact hpartner left right hpair
      rw [hij] at hleft
      rw [hi, ← some.inj hleft] at hmem
      exact .inr hmem
    · rw [hi, hij] at hnone
      cases hnone

/-- **The partners after the declarations** are the lines that the folded moves bring together. -/
lemma partnerOf_declarations (hpartner : IsMatching partner) :
    partnerOf (declarations input entries partner) i = some j ↔
      BroughtTogether input entries partner i j ∨ BroughtTogether input entries partner j i := by
  have hextra : ∀ pair ∈ (foldedLines input entries partner).filter
      (fun pair => (partnerOf partner pair.1).isNone), pair.1 ≠ pair.2 ∧
        partnerOf (restrict (inPairs (foldedLines input entries partner)) partner) pair.1 = none ∧
        partnerOf (restrict (inPairs (foldedLines input entries partner)) partner) pair.2 =
          none := by
    rintro ⟨left, right⟩ hmem
    obtain ⟨hmem, hnone⟩ := mem_filter.mp hmem
    rw [isNone_iff_eq_none] at hnone
    obtain ⟨_, hpair, _⟩ := linesPair_eq_true.mp (linesPair_of_mem hmem)
    have hfree : partnerOf partner left = none ∧ partnerOf partner right = none := by
      rcases hpair with hpair | ⟨hleft, hright, _⟩
      · rw [hnone] at hpair
        cases hpair
      · exact ⟨hleft, hright⟩
    obtain ⟨_, _, hl, hr⟩ := sides_of_mem hmem
    refine ⟨fun e => ?_, ?_, ?_⟩
    · simp only [] at e
      rw [e, hr] at hl
      exact Bool.false_ne_true hl
    · rw [eq_none_iff_forall_ne_some]
      intro d hd
      rw [restrict_eq_some, hfree.1] at hd
      cases hd.2
    · rw [eq_none_iff_forall_ne_some]
      intro d hd
      rw [restrict_eq_some, hfree.2] at hd
      cases hd.2
  have hlinked := extends_linkAll hextra i j
  have hdef : declarations input entries partner =
      linkAll (restrict (inPairs (foldedLines input entries partner)) partner)
        ((foldedLines input entries partner).filter fun pair =>
          (partnerOf partner pair.1).isNone) := rfl
  rw [hdef, hlinked, restrict_eq_some]
  constructor
  · rintro (⟨hkept, hij⟩ | h | h)
    · rcases mem_of_inPairs hpartner hij hkept with h | h
      · exact .inl (.inl ⟨h, hij⟩)
      · exact .inr (.inl ⟨h, hpartner i j hij⟩)
    · exact .inl (.inr h)
    · exact .inr (.inr h)
  · have hkept : ∀ {a b : ℕ}, (a, b) ∈ foldedLines input entries partner →
        inPairs (foldedLines input entries partner) a = true ∧
          inPairs (foldedLines input entries partner) b = true := by
      intro a b hab
      simp only [inPairs, List.any_eq_true]
      exact ⟨⟨(a, b), hab, by simp⟩, ⟨(a, b), hab, by simp⟩⟩
    rintro ((⟨hmem, hij⟩ | h) | (⟨hmem, hji⟩ | h))
    · exact .inl ⟨(hkept hmem).1, hij⟩
    · exact .inr (.inl h)
    · exact .inl ⟨(hkept hmem).2, hpartner j i hji⟩
    · exact .inr (.inr h)

/-! ## The lines that are folded -/

/-- Two lines are paired as moved. -/
def Paired (input : MatchInput) (left right : Entry) : Prop :=
  ∃ i j, (pairing input).1[i]? = some left ∧ (pairing input).1[j]? = some right ∧
    partnerOf (pairing input).2 i = some j

def textOf (input : MatchInput) (entry : Entry) : Option String :=
  (input.hunks[entry.hunk]?).bind fun candidate =>
    (candidate.hunk.lines[entry.line]?).map Line.text

/-- Two lines are at the same position of a declaration and of the declaration it moved to: the
one wholly removed and the other wholly added, with the same number of lines and the same test
evidence, and keeping its bindings. -/
def MovedTogether (input : MatchInput) (left right : Entry) : Prop :=
  ∃ move : Move, move.source.removed = true ∧ WhollyChanged input (collect input) move.source ∧
    move.destination.removed = false ∧ WhollyChanged input (collect input) move.destination ∧
    (numbers (collect input) move.source).length =
      (numbers (collect input) move.destination).length ∧
    (input.side move.source.change true).test = (input.side move.destination.change false).test ∧
    keepsBindings input (collect input)
      (acceptedMoves input (collect input) (pairedByKey input)) move = true ∧
    ∃ i j, (i, j) ∈ move.lines ∧ (collect input)[i]? = some left ∧ (collect input)[j]? = some right

/-- A line of a block and the line at its position on the other side are equal, byte for byte after
pure renames. -/
def UnchangedInPlace (input : MatchInput) (hunk line : ℕ) : Prop :=
  ∃ candidate, input.hunks[hunk]? = some candidate ∧ ∃ block ∈ candidate.hunk.blocks,
    ∃ i j, (i, j) ∈ block.removed.indices.zip block.added.indices ∧ (line = i ∨ line = j) ∧
      ∃ left right, lineEntry input hunk candidate i = some left ∧
        lineEntry input hunk candidate j = some right ∧
        left.rewritten = textOf input right ∧ textOf input right ≠ none ∧
        purePair input.checks left right = true

/-- **Soundness of the folded lines.** -/
structure FoldSound (input : MatchInput) : Prop where
  /-- The pairing is an involution between removed and added lines that are moved. -/
  involution : ∀ left right, Paired input left right →
    Paired input right left ∧ (∀ other, Paired input left other → other = right) ∧
      left.removed ≠ right.removed ∧ IsEntry input left ∧
      fates input left.hunk left.line = .moved
  /-- A moved line that is not blank is paired. -/
  paired : ∀ hunk line, fates input hunk line = .moved →
    ∃ entry, IsEntry input entry ∧ entry.hunk = hunk ∧ entry.line = line ∧
      (entry.blank = true ∨ ∃ other, Paired input entry other)
  /-- Paired lines have equal keys and equal indentation, after renames that are pure. -/
  equal : ∀ left right, Paired input left right → left.removed = true →
    left.key = right.key ∧ left.indent = right.indent ∧ purePair input.checks left right = true
  /-- Paired lines are in declarations that moved as a whole. -/
  together : ∀ left right, Paired input left right → left.removed = true →
    MovedTogether input left right
  /-- An unchanged line equals its counterpart. -/
  unchanged : ∀ hunk line, fates input hunk line = .unchanged → UnchangedInPlace input hunk line
  /-- No text is hidden that is not shown on the other side. -/
  text : ∀ left right, Paired input left right → left.removed = true →
    left.rewritten = textOf input right

/-- The lines that the folded moves bring together pass the comparison of the unchanged lines. -/
def SameText (input : MatchInput) : Prop :=
  changedCount input ≤ maxMatchedLines →
    ∀ i j, BroughtTogether input (collect input) (pairedByKey input) i j →
      (entryAt (collect input) i).rewritten = textOf input (entryAt (collect input) j)

lemma pairing_of_le (h : changedCount input ≤ maxMatchedLines) :
    pairing input =
      (collect input, declarations input (collect input) (pairedByKey input)) := by
  rw [pairing, if_neg (Nat.not_lt.mpr h)]

lemma partnerOf_pairing (hle : changedCount input ≤ maxMatchedLines) :
    partnerOf (pairing input).2 i = some j ↔
      BroughtTogether input (collect input) (pairedByKey input) i j ∨
        BroughtTogether input (collect input) (pairedByKey input) j i := by
  have hpairing : (pairing input).2 =
      declarations input (collect input) (pairedByKey input) := by
    rw [pairing_of_le hle]
  rw [hpairing]
  apply partnerOf_declarations
  exact (keyMatching_pairedByKey input).matching

variable {left right : Entry}

/-- Nothing is paired above the limit. -/
lemma Paired.le (h : Paired input left right) :
    changedCount input ≤ maxMatchedLines := by
  by_contra hle
  obtain ⟨i, _, hi, _⟩ := h
  rw [pairing, if_pos (Nat.lt_of_not_le hle)] at hi
  simp at hi

lemma paired_iff (hle : changedCount input ≤ maxMatchedLines) :
    Paired input left right ↔
      ∃ i j, (collect input)[i]? = some left ∧ (collect input)[j]? = some right ∧
        (BroughtTogether input (collect input) (pairedByKey input) i j ∨
          BroughtTogether input (collect input) (pairedByKey input) j i) := by
  simp only [Paired, partnerOf_pairing hle]
  rw [pairing_of_le hle]

section

variable (h : Paired input left right)

include h

/-- The removed line of a pair is the source line. -/
lemma Paired.broughtTogether (hremoved : left.removed = true) :
    ∃ i j, (collect input)[i]? = some left ∧ (collect input)[j]? = some right ∧
      BroughtTogether input (collect input) (pairedByKey input) i j := by
  obtain ⟨i, j, hi, hj, hij | hji⟩ := (paired_iff h.le).mp h
  · exact ⟨i, j, hi, hj, hij⟩
  · obtain ⟨_, _, _, hadded⟩ := sides_of_mem hji.mem
    rw [entryAt_of_getElem? hi, hremoved] at hadded
    cases hadded

lemma Paired.symm :
    Paired input right left := by
  have hle := h.le
  rw [paired_iff hle] at h ⊢
  obtain ⟨i, j, hi, hj, hij⟩ := h
  exact ⟨j, i, hj, hi, hij.symm⟩

lemma Paired.unique {other : Entry} (h' : Paired input left other) : other = right := by
  have hle := h.le
  obtain ⟨i, j, hi, hj, hij⟩ := h
  obtain ⟨i', j', hi', hj', hij'⟩ := h'
  rw [pairing_of_le hle] at hi hi' hj hj'
  have hlt : i < (collect input).length := (List.getElem?_eq_some_iff.mp hi).1
  have hsame : i = i' := (getElem?_inj hlt (nodup_collect input)).mp (hi.trans hi'.symm)
  subst hsame
  have hj'' : j = j' := some.inj (hij.symm.trans hij')
  subst hj''
  exact some.inj (hj'.symm.trans hj)

lemma Paired.isEntry : IsEntry input left := by
  have hle := h.le
  obtain ⟨i, _, hi, _⟩ := h
  rw [pairing_of_le hle] at hi
  exact isEntry_of_mem_collect (mem_of_getElem? hi)

lemma Paired.removed_ne :
    left.removed ≠ right.removed := by
  obtain ⟨i, j, hi, hj, hij | hji⟩ := (paired_iff h.le).mp h
  · obtain ⟨_, _, hl, hr⟩ := sides_of_mem hij.mem
    rw [entryAt_of_getElem? hi] at hl
    rw [entryAt_of_getElem? hj] at hr
    simp [hl, hr]
  · obtain ⟨_, _, hl, hr⟩ := sides_of_mem hji.mem
    rw [entryAt_of_getElem? hj] at hl
    rw [entryAt_of_getElem? hi] at hr
    simp [hl, hr]

end

/-! ## Fates -/

variable {hunk : ℕ}

lemma fates_eq_moved {line : ℕ} : fates input hunk line = .moved ↔
      ∃ i, i < (pairing input).1.length ∧
        (entryAt (pairing input).1 i).hunk = hunk ∧ (entryAt (pairing input).1 i).line = line ∧
        sandwich (pairing input).1 (fun j => (partnerOf (pairing input).2 j).isSome) i = true := by
  have hcollected : collectedFates input hunk line ≠ .moved := by
    unfold collectedFates
    split
    · split <;> simp
    · simp
  unfold fates
  dsimp only
  split
  · next h =>
    simp only [indices, List.any_eq_true, mem_range, Bool.and_eq_true, decide_eq_true_eq] at h
    obtain ⟨i, hi, ⟨hhunk, hline⟩, hmoved⟩ := h
    exact ⟨fun _ => ⟨i, hi, hhunk, hline, hmoved⟩, fun _ => rfl⟩
  · next h =>
    constructor
    · intro hfate
      split at hfate
      · cases hfate
      · exact absurd hfate hcollected
    · rintro ⟨i, hi, hhunk, hline, hmoved⟩
      refine absurd ?_ h
      simp only [indices, List.any_eq_true, mem_range, Bool.and_eq_true, decide_eq_true_eq]
      exact ⟨i, hi, ⟨hhunk, hline⟩, hmoved⟩

/-- Only blank lines are moved without a partner. -/
lemma sandwich_eq_true {moved : ℕ → Bool}
    (h : sandwich entries moved i = true) : moved i = true ∨ (entryAt entries i).blank = true := by
  simp only [sandwich, Bool.or_eq_true, Bool.and_eq_true] at h
  rcases h with h | h
  · exact .inl h
  · exact .inr h.1.1

lemma Paired.moved (h : Paired input left right) :
    fates input left.hunk left.line = .moved := by
  obtain ⟨i, j, hi, _, hij⟩ := h
  refine fates_eq_moved.mpr ⟨i, (List.getElem?_eq_some_iff.mp hi).1, ?_, ?_, ?_⟩
  · rw [entryAt_of_getElem? hi]
  · rw [entryAt_of_getElem? hi]
  · simp [sandwich, hij]

lemma exists_of_moved {line : ℕ} (h : fates input hunk line = .moved) :
    ∃ entry, IsEntry input entry ∧ entry.hunk = hunk ∧ entry.line = line ∧
      (entry.blank = true ∨ ∃ other, Paired input entry other) := by
  obtain ⟨i, hi, hhunk, hline, hmoved⟩ := fates_eq_moved.mp h
  have hle : changedCount input ≤ maxMatchedLines := by
    by_contra hlt
    rw [pairing, if_pos (Nat.lt_of_not_le hlt)] at hi
    simp at hi
  have hentry : IsEntry input (entryAt (pairing input).1 i) := by
    rw [pairing_of_le hle] at hi ⊢
    exact isEntry_of_mem_collect (mem_of_getElem? (getElem?_entryAt hi))
  refine ⟨entryAt (pairing input).1 i, hentry, hhunk, hline, ?_⟩
  rcases sandwich_eq_true hmoved with hpartner | hblank
  · obtain ⟨j, hj⟩ : ∃ j, partnerOf (pairing input).2 i = some j :=
      isSome_iff_exists.mp hpartner
    -- The partner is an entry, since partners are lines of folded moves.
    have hjlt : j < (pairing input).1.length := by
      rw [pairing_of_le hle]
      rcases (partnerOf_pairing hle).mp hj with hij | hji
      · exact (sides_of_mem hij.mem).2.1
      · exact (sides_of_mem hji.mem).1
    have hpaired : Paired input (entryAt (pairing input).1 i) (entryAt (pairing input).1 j) :=
      ⟨i, j, getElem?_entryAt hi, getElem?_entryAt hjlt, hj⟩
    exact .inr ⟨_, hpaired⟩
  · exact .inl hblank

lemma equalInPlace_eq_true {index : ℕ} {candidate : Candidate}
    (h : equalInPlace input index candidate (i, j) = true) :
    ∃ left right, lineEntry input index candidate i = some left ∧
      lineEntry input index candidate j = some right ∧
      left.rewritten = (candidate.hunk.lines[j]?).map Line.text ∧
      purePair input.checks left right = true := by
  unfold equalInPlace at h
  split at h
  · next left right hleft hright =>
    simp only [Bool.and_eq_true, decide_eq_true_eq] at h
    exact ⟨left, right, hleft, hright, h.1.2, h.2⟩
  · cases h

lemma unchangedInPlace_of_unchanged {line : ℕ}
    (h : fates input hunk line = .unchanged) : UnchangedInPlace input hunk line := by
  unfold fates at h
  dsimp only at h
  split at h
  · cases h
  · split at h
    · cases h
    · unfold collectedFates at h
      split at h
      · next candidate hcandidate =>
        split at h
        · next hline =>
          simp only [Bool.and_eq_true, contains_eq_mem, decide_eq_true_eq, unchangedLines,
            mem_flatMap, mem_filter, mem_cons, not_mem_nil, or_false] at hline
          obtain ⟨_, ⟨i, j⟩, ⟨block, hblock, hzip, hequal⟩, hline⟩ := hline
          obtain ⟨left, right, hleft, hright, htext, hpure⟩ := equalInPlace_eq_true hequal
          obtain ⟨rfl, rfl, text, htextj, _⟩ := lineEntry_eq_some hright
          have hof : textOf input right =
              (candidate.hunk.lines[right.line]?).map Line.text := by
            simp [textOf, hcandidate]
          exact ⟨candidate, hcandidate, block, hblock, i, right.line, hzip, hline, left, right,
            hleft, hright, htext.trans hof.symm, by simp [hof, htextj], hpure⟩
        · cases h
      · cases h

/-! ## Soundness -/

lemma Paired.equal (h : Paired input left right) (hremoved : left.removed = true) :
    left.key = right.key ∧ left.indent = right.indent ∧
      purePair input.checks left right = true := by
  obtain ⟨i, j, hi, hj, hij⟩ := h.broughtTogether hremoved
  obtain ⟨hindent, hpair, hpure⟩ := linesPair_eq_true.mp (linesPair_of_mem hij.mem)
  have hkey : (entryAt (collect input) i).key = (entryAt (collect input) j).key := by
    rcases hpair with hpair | ⟨_, _, hkey⟩
    · exact ((keyMatching_pairedByKey input).within i j hpair).2.2.1
    · exact hkey
  rw [entryAt_of_getElem? hi, entryAt_of_getElem? hj] at hkey hindent hpure
  exact ⟨hkey, hindent, hpure⟩

lemma Paired.movedTogether (h : Paired input left right)
    (hremoved : left.removed = true) : MovedTogether input left right := by
  obtain ⟨i, j, hi, hj, hij⟩ := h.broughtTogether hremoved
  obtain ⟨move, hmove, hlines⟩ := mem_foldedLines.mp hij.mem
  obtain ⟨haccepted, hkeeps⟩ := accepted_of_mem_foldedMoves hmove
  refine ⟨move, haccepted.removed, haccepted.source, haccepted.added, haccepted.destination, ?_,
    haccepted.test, hkeeps, i, j, hlines, hi, hj⟩
  rw [numbers, numbers, length_map, length_map, haccepted.length]

/-- A function moves to another file, and its regular expression loses a space. -/
def respacedMove : MatchInput where
  classes := CharClasses.ascii
  hunks :=
    [{ hunk :=
        { change := 0
          lines := [⟨'-', "function parts(text) \x7b", 1⟩, ⟨'-', "  return text.split(/a  b/);", 2⟩,
            ⟨'-', "\x7d", 3⟩, ⟨' ', "export const unit = 1;", 1⟩]
          blocks := [⟨⟨0, 3⟩, ⟨3, 3⟩⟩] }
       skip := false
       sensitive := false },
     { hunk :=
        { change := 1
          lines := [⟨'+', "function parts(text) \x7b", 1⟩, ⟨'+', "  return text.split(/a b/);", 2⟩,
            ⟨'+', "\x7d", 3⟩]
          blocks := [⟨⟨0, 0⟩, ⟨0, 3⟩⟩] }
       skip := false
       sensitive := false }]
  sides :=
    [⟨⟨some "function parts(text) \x7b\n  return text.split(/a  b/);\n\x7d\nexport const unit = 1;\n",
        [(1, 3)], false⟩, ⟨some "export const unit = 1;\n", [], false⟩⟩,
     ⟨⟨none, [], false⟩,
      ⟨some "function parts(text) \x7b\n  return text.split(/a b/);\n\x7d\n", [(1, 3)], false⟩⟩]
  rules := []
  checks := ⟨fun _ => true, fun _ _ _ _ _ => true⟩

end Reposcout.Query.ReviewContext.Brief
