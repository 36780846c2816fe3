import Mathlib.Data.List.Basic

/-!
# Unified diffs

What a unified diff of two texts is, and how it is printed: hunks of tagged lines with as much
context as one likes, each under a header with its place in the two texts.
-/

namespace UnifiedDiff

open List

structure TextLine where
  text : List Char
  ended : Bool
  newline_notMem : '\n' ∉ text

inductive Tag
  | context
  | removed
  | added
  deriving DecidableEq

def Tag.char : Tag → Char
  | context => ' '
  | removed => '-'
  | added => '+'

/-- The lines of the first text that the line stands for. -/
def Tag.oldLines : Tag → ℕ
  | added => 0
  | _ => 1

/-- The lines of the second text that the line stands for. -/
def Tag.newLines : Tag → ℕ
  | removed => 0
  | _ => 1

/-- A hunk behind so many lines of the two texts.  A count of one is printed or left out, and the
header goes on with any text. -/
structure Hunk where
  oldIndex : ℕ
  newIndex : ℕ
  lines : List (Tag × TextLine)
  oldCounted : Bool
  newCounted : Bool
  heading : List Char
  newline_notMem : '\n' ∉ heading

namespace Hunk

def oldSide (hunk : Hunk) : List TextLine :=
  (hunk.lines.filter fun line => line.1 ≠ .added).map Prod.snd

def newSide (hunk : Hunk) : List TextLine :=
  (hunk.lines.filter fun line => line.1 ≠ .removed).map Prod.snd

end Hunk

/-! ## Printing -/

/-- The number of the first line, or of the line in front of no lines. -/
def startNumber (index count : ℕ) : ℕ := if count = 0 then index else index + 1

def printRange (index count : ℕ) (counted : Bool) : List Char :=
  Nat.toDigits 10 (startNumber index count) ++
    if count = 1 ∧ counted = false then [] else ',' :: Nat.toDigits 10 count

def Hunk.header (hunk : Hunk) : List Char :=
  "@@ -".toList ++ printRange hunk.oldIndex hunk.oldSide.length hunk.oldCounted ++ " +".toList ++
    printRange hunk.newIndex hunk.newSide.length hunk.newCounted ++ " @@".toList ++ hunk.heading

/-- What stands under a line that no newline ends. -/
def noNewline : List Char := "\\ No newline at end of file".toList

def printLine (line : Tag × TextLine) : List (List Char) :=
  (line.1.char :: line.2.text) :: if line.2.ended then [] else [noNewline]

def Hunk.printed (hunk : Hunk) : List (List Char) :=
  hunk.header :: hunk.lines.flatMap printLine

def ended (lines : List (List Char)) : List Char := lines.flatMap fun line => line ++ ['\n']

def printDiff (fileHeader : List (List Char)) (hunks : List Hunk) : List Char :=
  ended fileHeader ++ hunks.flatMap fun hunk => ended hunk.printed

/-- The lines in front of the first header of a hunk. -/
def IsFileHeader (lines : List (List Char)) : Prop :=
  ∀ line ∈ lines, '\n' ∉ line ∧ ¬"@@ ".toList <+: line

@[simp] lemma ended_nil : ended [] = [] := rfl

@[simp] lemma ended_cons (line : List Char) (lines : List (List Char)) :
    ended (line :: lines) = line ++ '\n' :: ended lines := by
  simp [ended]

@[simp] lemma ended_append (lines lines' : List (List Char)) :
    ended (lines ++ lines') = ended lines ++ ended lines' := by
  simp [ended]

lemma notMem_toDigits {c : Char} (h : c.isDigit = false) (n : ℕ) : c ∉ Nat.toDigits 10 n := by
  intro hmem
  rw [Nat.isDigit_of_mem_toDigits (by decide) (by decide) hmem] at h
  exact Bool.noConfusion h

lemma notMem_printRange {c : Char} (hdigit : c.isDigit = false) (hcomma : c ≠ ',')
    (index count : ℕ) (counted : Bool) : c ∉ printRange index count counted := by
  unfold printRange
  split_ifs <;> simp [notMem_toDigits hdigit, hcomma]

lemma Hunk.newline_notMem_header (hunk : Hunk) : '\n' ∉ hunk.header := by
  have hdigit : '\n'.isDigit = false := rfl
  simp [Hunk.header, notMem_printRange hdigit, hunk.newline_notMem]

lemma Hunk.newline_notMem_printed (hunk : Hunk) : ∀ line ∈ hunk.printed, '\n' ∉ line := by
  intro line hline
  rcases mem_cons.mp hline with rfl | hline
  · exact hunk.newline_notMem_header
  obtain ⟨tagged, -, hline⟩ := mem_flatMap.mp hline
  have hcases : line = tagged.1.char :: tagged.2.text ∨ line = noNewline := by
    unfold printLine at hline
    split_ifs at hline
    · exact .inl (by simpa using hline)
    · simpa using hline
  rcases hcases with rfl | rfl
  · have htag : '\n' ≠ tagged.1.char := by
      cases tagged.1 <;> decide
    simp [htag, tagged.2.newline_notMem]
  · decide

/-! ## Diffs of two texts -/

/-- The hunks lead from the first text to the second, which go on behind so many lines. -/
inductive Leads : ℕ → ℕ → List TextLine → List TextLine → List Hunk → Prop
  | done {i j : ℕ} {common : List TextLine} : Leads i j common common []
  | hunk {i j : ℕ} {common old new : List TextLine} {hunk : Hunk} {rest : List Hunk} :
      hunk.oldIndex = i + common.length → hunk.newIndex = j + common.length →
      Leads (hunk.oldIndex + hunk.oldSide.length) (hunk.newIndex + hunk.newSide.length) old new
        rest →
      Leads i j (common ++ hunk.oldSide ++ old) (common ++ hunk.newSide ++ new) (hunk :: rest)

def IsDiff (old new : List TextLine) (hunks : List Hunk) : Prop := Leads 0 0 old new hunks

def numbered : ℕ → ℕ → List (Tag × TextLine) → List (Tag × TextLine × ℕ)
  | _, _, [] => []
  | old, new, (tag, line) :: rest =>
    (tag, line, if tag = .removed then old else new) ::
      numbered (old + tag.oldLines) (new + tag.newLines) rest

def Hunk.numbered (hunk : Hunk) : List (Tag × TextLine × ℕ) :=
  UnifiedDiff.numbered (hunk.oldIndex + 1) (hunk.newIndex + 1) hunk.lines

variable {line : TextLine} {lines : List (Tag × TextLine)}

lemma getElem?_of_mem_numbered_removed {old new number : ℕ}
    (h : (.removed, line, number) ∈ numbered old new lines) : old ≤ number ∧
      ((lines.filter fun line => line.1 ≠ .added).map Prod.snd)[number - old]? = some line := by
  induction lines generalizing old new with
  | nil => cases h
  | cons first rest ih =>
    obtain ⟨tag, text⟩ := first
    rcases mem_cons.mp h with h | h
    · simp only [Prod.mk.injEq] at h
      obtain ⟨rfl, rfl, rfl⟩ := h
      simp
    · obtain ⟨hle, hget⟩ := ih h
      cases tag with
      | added => exact ⟨hle, by simpa [Tag.oldLines] using hget⟩
      | context | removed =>
        simp only [Tag.oldLines] at hle hget
        refine ⟨by omega, ?_⟩
        rw [filter_cons_of_pos (by simp), map_cons, getElem?_cons,
          if_neg (by omega), show number - old - 1 = number - (old + 1) by omega]
        exact hget

lemma getElem?_of_mem_numbered_kept {old new number : ℕ} {tag : Tag} (htag : tag ≠ .removed)
    (h : (tag, line, number) ∈ numbered old new lines) : new ≤ number ∧
      ((lines.filter fun line => line.1 ≠ .removed).map Prod.snd)[number - new]? = some line := by
  induction lines generalizing old new with
  | nil => cases h
  | cons first rest ih =>
    obtain ⟨firstTag, text⟩ := first
    rcases mem_cons.mp h with h | h
    · simp only [Prod.mk.injEq] at h
      obtain ⟨rfl, rfl, rfl⟩ := h
      simp [htag]
    · obtain ⟨hle, hget⟩ := ih h
      cases firstTag with
      | removed => exact ⟨hle, by simpa [Tag.newLines] using hget⟩
      | context | added =>
        simp only [Tag.newLines] at hle hget
        refine ⟨by omega, ?_⟩
        rw [filter_cons_of_pos (by simp), map_cons, getElem?_cons,
          if_neg (by omega), show number - new - 1 = number - (new + 1) by omega]
        exact hget

variable {old new : List TextLine}

/-- Every hunk stands where its indices say. -/
lemma Leads.sides {i j : ℕ} {hunks : List Hunk} (h : Leads i j old new hunks) {hunk : Hunk}
    (hmem : hunk ∈ hunks) : i ≤ hunk.oldIndex ∧ j ≤ hunk.newIndex ∧
      (∀ k < hunk.oldSide.length, old[hunk.oldIndex - i + k]? = hunk.oldSide[k]?) ∧
      ∀ k < hunk.newSide.length, new[hunk.newIndex - j + k]? = hunk.newSide[k]? := by
  induction h with
  | done => cases hmem
  | @hunk i j common old new first rest hold hnew hrest ih =>
    rcases mem_cons.mp hmem with rfl | hmem
    · refine ⟨by omega, by omega, ?_, ?_⟩
      · intro k hk
        rw [hold, Nat.add_sub_cancel_left, append_assoc,
          getElem?_append_right (by omega), getElem?_append_left (by omega),
          Nat.add_sub_cancel_left]
      · intro k hk
        rw [hnew, Nat.add_sub_cancel_left, append_assoc,
          getElem?_append_right (by omega), getElem?_append_left (by omega),
          Nat.add_sub_cancel_left]
    · obtain ⟨hi, hj, holdSide, hnewSide⟩ := ih hmem
      refine ⟨by omega, by omega, ?_, ?_⟩
      · intro k hk
        rw [getElem?_append_right (by rw [length_append]; omega), length_append, ← holdSide k hk]
        congr 1
        omega
      · intro k hk
        rw [getElem?_append_right (by rw [length_append]; omega), length_append, ← hnewSide k hk]
        congr 1
        omega

/-- **The numbers are true**: they count the lines of their side from one. -/
lemma IsDiff.number_true {hunks : List Hunk} (h : IsDiff old new hunks) {hunk : Hunk}
    (hmem : hunk ∈ hunks) {tag : Tag} {number : ℕ} (hline : (tag, line, number) ∈ hunk.numbered) :
    1 ≤ number ∧ (if tag = .removed then old else new)[number - 1]? = some line := by
  obtain ⟨-, -, hold, hnew⟩ := h.sides hmem
  by_cases htag : tag = .removed
  · subst htag
    obtain ⟨hle, hget⟩ := getElem?_of_mem_numbered_removed hline
    refine ⟨by omega, ?_⟩
    have hlt := (List.getElem?_eq_some_iff.mp hget).1
    have hside := hold _ hlt
    rw [if_pos rfl, show number - 1 = hunk.oldIndex - 0 + (number - (hunk.oldIndex + 1)) by omega,
      hside]
    exact hget
  · obtain ⟨hle, hget⟩ := getElem?_of_mem_numbered_kept htag hline
    refine ⟨by omega, ?_⟩
    have hlt := (List.getElem?_eq_some_iff.mp hget).1
    have hside := hnew _ hlt
    rw [if_neg htag, show number - 1 = hunk.newIndex - 0 + (number - (hunk.newIndex + 1)) by omega,
      hside]
    exact hget

end UnifiedDiff
