import Mathlib.Algebra.GroupWithZero.Nat
import Mathlib.Data.List.TakeWhile
import Mathlib.Data.String.Basic

/-!
# Texts and their bytes

Spans count the bytes of the UTF-8 encoding.  A text is sliced at character boundaries only.
-/

namespace Reposcout

open List Option

/-- The characters of a text with the byte offset at which each starts. -/
def charOffsets : ℕ → List Char → List (ℕ × Char)
  | _, [] => []
  | offset, c :: rest => (offset, c) :: charOffsets (offset + c.utf8Size) rest

/-- The number of bytes of some characters. -/
def utf8Length (chars : List Char) : ℕ := (chars.map Char.utf8Size).sum

def IsCharBoundary (text : String) (offset : ℕ) : Prop :=
  offset = utf8Length text.toList ∨ offset ∈ (charOffsets 0 text.toList).map Prod.fst

instance (text : String) (offset : ℕ) : Decidable (IsCharBoundary text offset) :=
  inferInstanceAs (Decidable (_ ∨ _))

def charsIn (text : String) (start stop : ℕ) : List Char :=
  ((charOffsets 0 text.toList).filter fun item => start ≤ item.1 && item.1 < stop).map Prod.snd

/-- `text.get(start..stop)`. -/
def getBytes (text : String) (start stop : ℕ) : Option String :=
  if start ≤ stop ∧ IsCharBoundary text start ∧ IsCharBoundary text stop then
    some (String.ofList (charsIn text start stop))
  else none

lemma isSome_getBytes_iff {text : String} {start stop : ℕ} : (getBytes text start stop).isSome ↔
      start ≤ stop ∧ IsCharBoundary text start ∧ IsCharBoundary text stop := by
  unfold getBytes
  split_ifs with h <;> simp [h]

/-- `text.split_inclusive('\n')`. -/
def splitInclusive : List Char → List (List Char)
  | [] => []
  | c :: rest =>
    if c = '\n' then [c] :: splitInclusive rest
    else
      match splitInclusive rest with
      | [] => [[c]]
      | line :: lines => (c :: line) :: lines

lemma splitInclusive_line {line : List Char} (h : '\n' ∉ line) (rest : List Char) :
    splitInclusive (line ++ '\n' :: rest) = (line ++ ['\n']) :: splitInclusive rest := by
  induction line with
  | nil => rw [nil_append, splitInclusive, if_pos rfl, nil_append]
  | cons c line ih =>
    rw [mem_cons, not_or] at h
    rw [cons_append, splitInclusive, if_neg (Ne.symm h.1), ih h.2, cons_append]

/-- `str::lines`: a line ends before its `\n` or `\r\n`. -/
def textLines (text : String) : List (List Char) :=
  (splitInclusive text.toList).map fun line =>
    if line.getLast? = some '\n' then
      let line := line.dropLast
      if line.getLast? = some '\r' then line.dropLast else line
    else line

/-! ## Classes of characters -/

/-- `char::is_whitespace`: the characters with the Unicode property `White_Space`. -/
def isWhitespace (c : Char) : Bool :=
  let n := c.toNat
  (9 ≤ n && n ≤ 13) || n = 0x20 || n = 0x85 || n = 0xA0 || n = 0x1680 ||
    (0x2000 ≤ n && n ≤ 0x200A) || n = 0x2028 || n = 0x2029 || n = 0x202F || n = 0x205F ||
    n = 0x3000

def isControl (c : Char) : Bool := c.toNat < 32 || (127 ≤ c.toNat && c.toNat ≤ 159)

/-- `text.trim().is_empty()`. -/
def isBlank (text : List Char) : Bool := text.all isWhitespace

def trimStart (text : List Char) : List Char := text.dropWhile isWhitespace

def trimEndMatches (p : Char → Bool) (text : List Char) : List Char :=
  (text.reverse.dropWhile p).reverse

variable {c : Char}

lemma trimEndMatches_cons_of_neg {p : Char → Bool} (h : ¬ p c) (rest : List Char) :
    trimEndMatches p (c :: rest) = c :: trimEndMatches p rest := by
  rw [trimEndMatches, trimEndMatches, reverse_cons, dropWhile_append]
  split
  next hempty =>
    rw [isEmpty_iff.mp hempty, dropWhile_cons_of_neg h]
    rfl
  next => exact reverse_append

lemma exists_eq_trimEndMatches (p : Char → Bool) (text : List Char) :
    ∃ back, (∀ c ∈ back, p c) ∧ text = trimEndMatches p text ++ back := by
  refine ⟨(text.reverse.takeWhile p).reverse,
    fun c hc => mem_takeWhile_imp (mem_reverse.mp hc), ?_⟩
  rw [trimEndMatches, ← reverse_append, takeWhile_append_dropWhile, reverse_reverse]

variable {text : List Char}

lemma not_of_getLast?_trimEndMatches {p : Char → Bool}
    (h : (trimEndMatches p text).getLast? = some c) : ¬ p c := by
  rw [trimEndMatches, getLast?_reverse] at h
  have hne : text.reverse.dropWhile p ≠ [] := by
    rintro hnil
    rw [hnil] at h
    exact absurd h.symm (some_ne_none c)
  have hhead := head?_eq_some_head hne
  rw [h] at hhead
  rw [some.inj hhead]
  exact Bool.eq_false_iff.mp (head_dropWhile_not p hne)

/-- `trim`. -/
def trimText (text : List Char) : List Char := trimEndMatches isWhitespace (trimStart text)

lemma exists_eq_trimText (text : List Char) :
    ∃ front back, (∀ c ∈ front, isWhitespace c) ∧ (∀ c ∈ back, isWhitespace c) ∧
      text = front ++ (trimText text ++ back) := by
  refine ⟨text.takeWhile isWhitespace, ((trimStart text).reverse.takeWhile isWhitespace).reverse,
    fun c hc => mem_takeWhile_imp hc,
    fun c hc => mem_takeWhile_imp (mem_reverse.mp hc), ?_⟩
  rw [trimText, trimEndMatches, ← reverse_append, takeWhile_append_dropWhile,
    reverse_reverse, trimStart, takeWhile_append_dropWhile]

lemma trimText_surround {front inner back : List Char} (hfront : ∀ c ∈ front, isWhitespace c)
    (hback : ∀ c ∈ back, isWhitespace c) (hfirst : ∀ c, inner.head? = some c → ¬ isWhitespace c)
    (hlast : ∀ c, inner.getLast? = some c → ¬ isWhitespace c) :
    trimText (front ++ (inner ++ back)) = inner := by
  have hend {text : List Char} (h : ∀ c, text.head? = some c → ¬ isWhitespace c) :
      text.dropWhile isWhitespace = text := by
    cases text with
    | nil => rfl
    | cons c rest => exact dropWhile_cons_of_neg (h c rfl)
  rw [trimText, trimStart, dropWhile_append_of_pos hfront]
  cases inner with
  | nil =>
    have hnil : back.dropWhile isWhitespace = [] := dropWhile_eq_nil_iff.mpr hback
    rw [nil_append, hnil]
    rfl
  | cons c rest =>
    have hstart : (c :: rest ++ back).dropWhile isWhitespace = c :: rest ++ back :=
      hend fun d hd => hfirst d hd
    rw [hstart, trimEndMatches, reverse_append,
      dropWhile_append_of_pos fun d hd => hback d (mem_reverse.mp hd), hend,
      reverse_reverse]
    intro d hd
    rw [head?_reverse] at hd
    exact hlast d hd

/-- `strip_prefix`. -/
def stripStart (start : String) (text : List Char) : Option (List Char) :=
  if start.toList.isPrefixOf text then some (text.drop start.toList.length) else none

lemma stripStart_eq_some_iff {start : String} {rest : List Char} :
    stripStart start text = some rest ↔ text = start.toList ++ rest := by
  rw [stripStart]
  constructor
  · intro h
    split at h
    next hstart =>
      obtain ⟨more, rfl⟩ := isPrefixOf_iff_prefix.mp hstart
      rw [drop_left, some.injEq] at h
      rw [h]
    · cases h.symm
  · rintro rfl
    rw [if_pos (List.isPrefixOf_iff_prefix.mpr (prefix_append _ _)), drop_left]

lemma stripStart_eq_none_iff {start : String} :
    stripStart start text = none ↔ ¬ start.toList <+: text := by
  rw [stripStart]
  split
  next hstart =>
    exact iff_of_false (some_ne_none _)
      (not_not_intro (List.isPrefixOf_iff_prefix.mp hstart))
  next hstart =>
    exact iff_of_true rfl (mt isPrefixOf_iff_prefix.mpr hstart)

lemma mem_of_mem_splitOnP {α : Type} {p : α → Bool} {l part : List α} {a : α}
    (hpart : part ∈ l.splitOnP p) (ha : a ∈ part) : a ∈ l ∧ p a = false := by
  induction l generalizing part with
  | nil =>
    obtain rfl : part = [] := by simpa using hpart
    cases ha
  | cons b rest ih =>
    have hrest : ∀ other ∈ rest.splitOnP p, a ∈ other → a ∈ b :: rest ∧ p a = false := by
      intro other hother hmem
      obtain ⟨hin, hsep⟩ := ih hother hmem
      exact ⟨mem_cons_of_mem _ hin, hsep⟩
    rw [splitOnP_cons_eq_if_modifyHead] at hpart
    split_ifs at hpart with hb
    · rcases mem_cons.mp hpart with rfl | hmem
      · cases ha
      · exact hrest part hmem ha
    · obtain ⟨head, tail, hsplit⟩ := exists_cons_of_ne_nil (splitOnP_ne_nil p rest)
      rw [hsplit] at hpart hrest
      rcases mem_cons.mp hpart with rfl | hmem
      · rcases mem_cons.mp ha with rfl | hhead
        · exact ⟨mem_cons_self .., by simpa using hb⟩
        · exact hrest head (mem_cons_self ..) hhead
      · exact hrest part (mem_cons_of_mem _ hmem) ha

lemma mem_of_mem_splitOn {a : Char} {part : List Char} (hpart : part ∈ text.splitOn c)
    (ha : a ∈ part) : a ∈ text ∧ a ≠ c := by
  obtain ⟨hmem, hne⟩ := mem_of_mem_splitOnP hpart ha
  exact ⟨hmem, ne_of_beq_false hne⟩

/-- `split_once`: what stands before the first separator, and what stands behind it. -/
def splitOnce (separator : List Char) : List Char → Option (List Char × List Char)
  | [] => if separator = [] then some ([], []) else none
  | c :: rest =>
    if separator.isPrefixOf (c :: rest) then some ([], (c :: rest).drop separator.length)
    else (splitOnce separator rest).map fun parts => (c :: parts.1, parts.2)

variable {left : List Char}

/-- The parts of a text and the separator make it up. -/
lemma eq_of_splitOnce {separator right : List Char}
    (h : splitOnce separator text = some (left, right)) : text = left ++ separator ++ right := by
  induction text generalizing left with
  | nil =>
    rw [splitOnce] at h
    split at h
    next hempty =>
      cases h
      rw [hempty]
      rfl
    · cases h.symm
  | cons c rest ih =>
    rw [splitOnce] at h
    split at h
    next hprefix =>
      cases h
      obtain ⟨more, hmore⟩ := isPrefixOf_iff_prefix.mp hprefix
      rw [← hmore, drop_left, nil_append]
    next =>
      obtain ⟨parts, hparts, heq⟩ := map_eq_some_iff.mp h
      cases heq
      rw [ih hparts, cons_append, cons_append]

/-- A text is split at the separator that it was put together with, if no other begins before. -/
lemma splitOnce_append {separator left rest : List Char} (hne : separator ≠ [])
    (h : ∀ front back, left = front ++ back → back ≠ [] →
      ¬separator <+: back ++ separator ++ rest) :
    splitOnce separator (left ++ separator ++ rest) = some (left, rest) := by
  induction left with
  | nil =>
    obtain ⟨c, tail, rfl⟩ := exists_cons_of_ne_nil hne
    rw [nil_append, cons_append, splitOnce, if_pos, ← cons_append, drop_left]
    rw [List.isPrefixOf_iff_prefix]
    exact prefix_append (c :: tail) rest
  | cons c left ih =>
    have hfirst := h [] (c :: left) rfl (cons_ne_nil c left)
    rw [cons_append, cons_append, splitOnce, if_neg, ih]
    · rfl
    · intro front back hleft
      exact h (c :: front) back (by rw [hleft, cons_append])
    · rw [List.isPrefixOf_iff_prefix]
      exact hfirst

/-- A separator of one character is found where that character is first. -/
lemma splitOnce_singleton (h : c ∉ left) (rest : List Char) :
    splitOnce [c] (left ++ c :: rest) = some (left, rest) := by
  rw [append_cons]
  apply splitOnce_append (cons_ne_nil c [])
  rintro front back rfl hback hfirst
  obtain ⟨d, tail, rfl⟩ := exists_cons_of_ne_nil hback
  rw [cons_append, cons_append, cons_prefix_cons] at hfirst
  exact h (mem_append_right front (hfirst.1 ▸ mem_cons_self))

lemma splitOnce_singleton_eq_none (h : c ∉ text) :
    splitOnce [c] text = none := by
  induction text with
  | nil => rfl
  | cons d rest ih =>
    rw [mem_cons, not_or] at h
    rw [splitOnce, if_neg, ih h.2]
    · rfl
    · rw [List.isPrefixOf_iff_prefix, cons_prefix_cons]
      exact fun hprefix => h.1 hprefix.1

lemma splitOnce_eq_none_iff {separator : List Char} :
    splitOnce separator text = none ↔ ¬ separator <:+: text := by
  induction text with
  | nil =>
    rw [splitOnce, infix_nil]
    split
    next h => exact iff_of_false (some_ne_none _) (not_not_intro h)
    next h => exact iff_of_true rfl h
  | cons c rest ih =>
    rw [splitOnce, infix_cons_iff, not_or, ← ih]
    split
    next h =>
      exact iff_of_false (some_ne_none _)
        fun hnot => hnot.1 (List.isPrefixOf_iff_prefix.mp h)
    next h =>
      rw [map_eq_none_iff]
      exact (and_iff_right (mt isPrefixOf_iff_prefix.mpr h)).symm

/-- A character is not found before its first place. -/
lemma not_mem_of_splitOnce {right : List Char}
    (h : splitOnce [c] text = some (left, right)) : c ∉ left := by
  induction text generalizing left with
  | nil => cases h.symm
  | cons d rest ih =>
    rw [splitOnce] at h
    split at h
    · cases h
      exact not_mem_nil
    next hd =>
      obtain ⟨parts, hparts, heq⟩ := map_eq_some_iff.mp h
      cases heq
      rw [mem_cons, not_or]
      refine ⟨?_, ih hparts⟩
      rintro rfl
      exact hd (List.isPrefixOf_iff_prefix.mpr (prefix_append [c] rest))

/-- The properties of characters that the standard library decides by Unicode tables. -/
structure CharClasses where
  alphabetic : Char → Bool
  numeric : Char → Bool
  lowercase : Char → Bool
  uppercase : Char → Bool

/-- `char::is_alphanumeric`. -/
def CharClasses.alphanumeric (classes : CharClasses) (c : Char) : Bool :=
  classes.alphabetic c || classes.numeric c

def CharClasses.ascii : CharClasses where
  alphabetic := Char.isAlpha
  numeric := Char.isDigit
  lowercase := Char.isLower
  uppercase := Char.isUpper

def eqIgnoreAsciiCase (left right : String) : Bool :=
  left.toList.map Char.toLower = right.toList.map Char.toLower

@[simp] lemma eqIgnoreAsciiCase_self (text : String) : eqIgnoreAsciiCase text text = true :=
  decide_eq_true rfl

end Reposcout
