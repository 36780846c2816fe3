import Reposcout.TaskDiagnostics.Text

/-!
# Locations and messages

The location of a line stands at its beginning, but it is searched in the whole line: a parenthesis
in the message is taken for the location if `):` is behind it.
-/

namespace Reposcout.TaskDiagnostics.TextFormat

open List

/-! ## Lines -/

/-- The forms in which a location is written before a message. -/
inductive LineForm
  /-- `path:row:column: message`. -/
  | full
  /-- `path:row: message`. -/
  | rowOnly
  /-- `path(row,column): message`. -/
  | parenthesis
  /-- `path:row:column`, without a message. -/
  | bare
  deriving DecidableEq

/-- A location. -/
structure Place where
  path : List Char
  row : ℕ
  column : ℕ

/-- What a path, a row and a column must satisfy to be written in these forms. -/
structure Place.Plain (place : Place) : Prop where
  nonempty : place.path ≠ []
  blanks : ∀ c ∈ place.path, ¬ isWhitespace c
  colons : ':' ∉ place.path
  opening : '(' ∉ place.path
  closing : ')' ∉ place.path
  row_pos : 1 ≤ place.row
  row_lt : place.row < 2 ^ 32
  column_pos : 1 ≤ place.column
  column_lt : place.column < 2 ^ 32

/-- What stands behind the path, up to the colon before the message. -/
def LineForm.position (form : LineForm) (place : Place) : List Char :=
  match form with
  | full | bare => ':' :: (Nat.toDigits 10 place.row ++ ':' :: Nat.toDigits 10 place.column)
  | rowOnly => ':' :: Nat.toDigits 10 place.row
  | parenthesis =>
    '(' :: (Nat.toDigits 10 place.row ++ ',' :: (Nat.toDigits 10 place.column ++ [')']))

def LineForm.column (form : LineForm) (place : Place) : Option ℕ :=
  if form = rowOnly then none else some place.column

/-- What stands behind the location. -/
def LineForm.tail (form : LineForm) (message : List Char) : List Char :=
  if form = bare then [] else ':' :: ' ' :: message

def diagnosticLine (arrow : Bool) (form : LineForm) (place : Place) (message : List Char) :
    List Char :=
  (if arrow then "--> ".toList else []) ++
    (place.path ++ (form.position place ++ form.tail message))

/-- The line yields one record with exactly that path, row and column. -/
def Yields (line : List Char) (place : Place) (column : Option ℕ) : Prop :=
  ∀ parsed : ParsedTaskDiagnostics, parsed.records.length < parsed.limits.records →
    ∃ record, parse (String.ofList line) parsed = parsed.push record ∧
      record.originalPath = some (String.ofList place.path) ∧ record.reason = none ∧
      record.line = some place.row ∧ record.column = column

/-! ## Messages -/

/-- What is left of a text without its terminal escapes. -/
def visible : Escape → List Char → List Char
  | _, [] => []
  | escape, c :: rest =>
    if escape ≠ .outside ∨ c = '\x1b' then visible (escape.next c) rest
    else c :: visible .outside rest

/-- There is a parenthesis in the text, and `):` behind it. -/
def HasParenthesis (text : List Char) : Prop :=
  ∃ before behind, text = before ++ '(' :: behind ∧ "):".toList <:+: behind

lemma sanitizeFrom_eq {cap : ℕ} {escape : Escape} {result text : List Char} {count : ℕ}
    (h : count + text.length ≤ cap) :
    sanitizeFrom cap false escape result count text = result ++ visible escape text := by
  induction text generalizing escape result count with
  | nil => rw [sanitizeFrom, visible, append_nil]
  | cons c rest ih =>
    rw [length_cons] at h
    rw [sanitizeFrom, visible]
    split
    · exact ih (by omega)
    · simp only [Bool.false_eq_true, false_and, if_false]
      rw [if_neg (by omega), ih (by omega), append_assoc, singleton_append]

lemma length_le_utf8Length (text : List Char) : text.length ≤ utf8Length text := by
  induction text with
  | nil => exact Nat.le_refl 0
  | cons c rest ih =>
    have hpos := Char.utf8Size_pos c
    rw [utf8Length, map_cons, sum_cons, length_cons]
    rw [utf8Length] at ih
    omega

/-- The escapes and the blanks at both ends are taken out of a line. -/
lemma sanitize_line (line : List Char) :
    sanitize line (utf8Length line) false = trimText (visible .outside line) := by
  rw [sanitize, sanitizeFrom_eq, nil_append]
  rw [Nat.zero_add]
  exact length_le_utf8Length line

lemma visible_append {text rest : List Char} (h : '\x1b' ∉ text) :
    visible .outside (text ++ rest) = text ++ visible .outside rest := by
  induction text with
  | nil => rfl
  | cons c text ih =>
    rw [mem_cons, not_or] at h
    rw [cons_append, visible, if_neg, ih h.2, cons_append]
    rw [not_or]
    exact ⟨not_not_intro rfl, fun hc => h.1 hc.symm⟩

/-! ## Numbers -/

variable {c : Char}

lemma not_isWhitespace_of_isDigit (h : c.isDigit) : ¬ isWhitespace c := by
  rw [Char.isDigit, Bool.and_eq_true, decide_eq_true_eq, decide_eq_true_eq] at h
  have hfirst : 48 ≤ c.toNat := UInt32.le_iff_toNat_le.mp h.1
  have hlast : c.toNat ≤ 57 := UInt32.le_iff_toNat_le.mp h.2
  simp only [isWhitespace, Bool.or_eq_true, Bool.and_eq_true, decide_eq_true_eq]
  omega

variable {n : ℕ}

lemma isDigit_of_mem_toDigits (h : c ∈ Nat.toDigits 10 n) : c.isDigit :=
  Nat.isDigit_of_mem_toDigits (by decide) (by decide) h

lemma notMem_toDigits (h : c.isDigit = false) (n : ℕ) : c ∉ Nat.toDigits 10 n :=
  fun hmem => Bool.false_ne_true (h.symm.trans (isDigit_of_mem_toDigits hmem))

lemma parsePositive_toDigits (hpos : 1 ≤ n) (hlt : n < 2 ^ 32) :
    parsePositive (Nat.toDigits 10 n) = some n := by
  have hplus : (Nat.toDigits 10 n).head? ≠ some '+' := fun hhead =>
    notMem_toDigits (by decide) n (mem_of_mem_head? hhead)
  have hread : parseU32 (Nat.toDigits 10 n) = some n := by
    rw [parseU32, if_neg hplus]
    simp only [Nat.ofDigitChars_ten_toDigits]
    exact if_pos ⟨Nat.toDigits_ne_nil,
      all_eq_true.mpr fun c hc => isDigit_of_mem_toDigits hc, hlt⟩
  rw [parsePositive, hread, Option.filter_some]
  exact if_pos (decide_eq_true hpos)

variable {rest : List Char}

/-- Digits are read up to what follows them. -/
lemma number_toDigits (hpos : 1 ≤ n) (hlt : n < 2 ^ 32)
    (hrest : ∀ c, rest.head? = some c → c.isDigit = false) :
    number (Nat.toDigits 10 n ++ rest) = some (n, rest) := by
  have htake : (Nat.toDigits 10 n ++ rest).takeWhile Char.isDigit = Nat.toDigits 10 n := by
    rw [takeWhile_append_of_pos fun c hc => isDigit_of_mem_toDigits hc]
    cases rest with
    | nil => rw [takeWhile_nil, append_nil]
    | cons c rest =>
      rw [takeWhile_cons_of_neg (Bool.eq_false_iff.mp (hrest c rfl)), append_nil]
  rw [number, htake, if_neg Nat.toDigits_ne_nil, parsePositive_toDigits hpos hlt, drop_left]
  rfl

lemma number_eq_none {text : List Char} (h : ∀ c, text.head? = some c → c.isDigit = false) :
    number text = none := by
  cases text with
  | nil => rfl
  | cons c text =>
    rw [number, takeWhile_cons_of_neg (Bool.eq_false_iff.mp (h c rfl))]
    exact if_pos rfl

/-! ## What is read of a line -/

/-- What is left behind the location once the line is sanitized. -/
def LineForm.shown (form : LineForm) (message : List Char) : List Char :=
  if form = bare then []
  else ':' :: trimEndMatches isWhitespace (' ' :: visible .outside message)

/-- A location without its message. -/
def located (arrow : Bool) (form : LineForm) (place : Place) : List Char :=
  (if arrow then "--> ".toList else []) ++ (place.path ++ form.position place)

open LineForm

lemma notMem_position (hdigit : c.isDigit = false) (hsigns : c ∉ ":,()".toList)
    (form : LineForm) (place : Place) : c ∉ form.position place := by
  have hnot := notMem_toDigits hdigit
  simp only [mem_cons, show ":,()".toList = [':', ',', '(', ')'] from rfl, not_mem_nil,
    or_false, not_or] at hsigns
  obtain ⟨hcolon, hcomma, hopening, hclosing⟩ := hsigns
  cases form with
  | full | bare | rowOnly | parenthesis =>
    simp only [position, mem_cons, mem_append, not_mem_nil, or_false, hnot,
      hcolon, hcomma, hopening, hclosing, not_false_eq_true]

lemma exists_last_position (form : LineForm) (place : Place) :
    ∃ front c, form.position place = front ++ [c] ∧ ¬ isWhitespace c := by
  have hlast (n : ℕ) (front : List Char) :
      ∃ most c, front ++ Nat.toDigits 10 n = most ++ [c] ∧ ¬ isWhitespace c := by
    obtain ⟨most, c, hdigits⟩ :=
      (eq_nil_or_concat (Nat.toDigits 10 n)).resolve_left Nat.toDigits_ne_nil
    rw [concat_eq_append] at hdigits
    refine ⟨front ++ most, c, by rw [hdigits, append_assoc], ?_⟩
    refine not_isWhitespace_of_isDigit (isDigit_of_mem_toDigits (n := n) ?_)
    rw [hdigits]
    exact mem_append_right most mem_cons_self
  cases form with
  | full | bare =>
    obtain ⟨most, c, heq, hc⟩ := hlast place.column (':' :: (Nat.toDigits 10 place.row ++ [':']))
    refine ⟨most, c, ?_, hc⟩
    rw [← heq, position, cons_append, append_assoc]
    rfl
  | rowOnly => exact hlast place.row [':']
  | parenthesis =>
    refine ⟨'(' :: (Nat.toDigits 10 place.row ++ ',' :: Nat.toDigits 10 place.column), ')', ?_,
      by decide⟩
    rw [position, cons_append, append_assoc]
    rfl

variable {arrow : Bool} {form : LineForm}

lemma trimText_visible_line {place : Place} (hplain : place.Plain) (hpath : '\x1b' ∉ place.path)
    (message : List Char) :
    trimText (visible .outside (diagnosticLine arrow form place message)) =
      located arrow form place ++ form.shown message := by
  have hescape : '\x1b' ∉ located arrow form place := by
    rw [located, mem_append, mem_append]
    rintro (harrow | hhere | hposition)
    · cases arrow with
      | true => exact nomatch harrow
      | false => cases harrow
    · exact hpath hhere
    · exact notMem_position (by decide) (by decide) form place hposition
  have hline : diagnosticLine arrow form place message =
      located arrow form place ++ form.tail message := by
    rw [diagnosticLine, located, append_assoc, append_assoc]
  have hfirst {rest : List Char} (c : Char)
      (hc : (located arrow form place ++ rest).head? = some c) : ¬ isWhitespace c := by
    obtain ⟨d, more, hstart⟩ := exists_cons_of_ne_nil hplain.nonempty
    cases arrow with
    | true =>
      cases hc
      decide
    | false =>
      rw [located, if_neg Bool.false_ne_true, nil_append, hstart] at hc
      have hd : ¬ isWhitespace d := hplain.blanks d (by rw [hstart]; exact mem_cons_self)
      exact Option.some.inj hc ▸ hd
  rw [hline, visible_append hescape, LineForm.tail, LineForm.shown]
  by_cases hbare : form = .bare
  · rw [if_pos hbare, if_pos hbare]
    have hlast (c : Char) (hc : (located arrow form place).getLast? = some c) :
        ¬ isWhitespace c := by
      obtain ⟨front, d, hend, hd⟩ := exists_last_position form place
      rw [located, hend, ← append_assoc, ← append_assoc, getLast?_concat] at hc
      exact Option.some.inj hc ▸ hd
    have htrim := @trimText_surround [] (located arrow form place) []
      (nofun) (nofun)
      (fun c hc => @hfirst [] c (by rwa [append_nil])) hlast
    rw [visible, append_nil]
    rwa [nil_append, append_nil] at htrim
  · rw [if_neg hbare, if_neg hbare]
    obtain ⟨back, hback, hcut⟩ := exists_eq_trimEndMatches isWhitespace
      (' ' :: visible .outside message)
    have hlast (c : Char) (hc : (located arrow form place ++
        ':' :: trimEndMatches isWhitespace (' ' :: visible .outside message)).getLast? = some c) :
        ¬ isWhitespace c := by
      rw [getLast?_append, getLast?_cons] at hc
      cases hend : (trimEndMatches isWhitespace (' ' :: visible .outside message)).getLast? with
      | none =>
        rw [hend] at hc
        cases hc
        decide
      | some d =>
        rw [hend] at hc
        cases hc
        exact not_of_getLast?_trimEndMatches hend
    have htrim := @trimText_surround [] (located arrow form place ++
      ':' :: trimEndMatches isWhitespace (' ' :: visible .outside message)) back
      (nofun) hback hfirst hlast
    rw [nil_append, append_assoc, cons_append, ← hcut] at htrim
    exact htrim

/-! ## Locations -/

lemma not_prefix_of_blank {word path : List Char} (hblank : ' ' ∈ word) (hword : c ∉ word)
    (hc : c ≠ ' ') (hpath : ∀ d ∈ path, ¬ isWhitespace d) : ¬ word <+: path ++ c :: rest := by
  intro h
  have hstart : path ++ [c] <+: path ++ c :: rest := ⟨rest, by rw [append_assoc]; rfl⟩
  rcases prefix_or_prefix_of_prefix h hstart with hshort | hlong
  · rcases mem_append.mp (hshort.subset hblank) with hmem | hmem
    · exact hpath ' ' hmem (by decide)
    · exact hc (mem_singleton.mp hmem).symm
  · exact hword (hlong.subset (mem_append_right path mem_cons_self))

/-- The location of a line is what stands behind the arrow. -/
lemma location_eq {arrow : Bool} {path rest : List Char} {c : Char}
    (hpath : ∀ d ∈ path, ¬ isWhitespace d) (hc : c = ':' ∨ c = '(') :
    location ((if arrow then "--> ".toList else []) ++ (path ++ c :: rest)) =
      plainLocation (path ++ c :: rest) := by
  have hfile : ¬ "File \"".toList <+: path ++ c :: rest := by
    rcases hc with rfl | rfl <;>
      exact not_prefix_of_blank (by decide) (by decide) (by decide) hpath
  have harrow : ¬ "--> ".toList <+: path ++ c :: rest := by
    rcases hc with rfl | rfl <;>
      exact not_prefix_of_blank (by decide) (by decide) (by decide) hpath
  rw [location]
  cases arrow with
  | true =>
    have hnot : ¬ "File \"".toList <+: "--> ".toList ++ (path ++ c :: rest) :=
      fun h => absurd (cons_prefix_cons.mp h).1 (by decide)
    rw [if_pos rfl, stripStart_eq_none_iff.mpr hnot, stripStart_eq_some_iff.mpr rfl,
      Option.getD_some]
  | false =>
    rw [if_neg Bool.false_ne_true, nil_append, stripStart_eq_none_iff.mpr hfile,
      stripStart_eq_none_iff.mpr harrow, Option.getD_none]

lemma trimText_eq_self {text : List Char} (h : ∀ c ∈ text, ¬ isWhitespace c) :
    trimText text = text := by
  have htrim := @trimText_surround [] text [] (nofun)
    (nofun) (fun c hc => h c (mem_of_mem_head? hc))
    (fun c hc => h c (mem_of_getLast? hc))
  rwa [nil_append, append_nil] at htrim

/-- A position in parentheses is found whatever follows. -/
lemma plainLocation_parenthesis {place : Place} (hplain : place.Plain) (rest : List Char) :
    plainLocation (place.path ++ (parenthesis.position place ++ ':' :: rest)) =
      some (place.path, place.row, some place.column) := by
  have hclosing : ')' ∉ Nat.toDigits 10 place.row ++ ',' :: Nat.toDigits 10 place.column := by
    simp [notMem_toDigits (by decide : ')'.isDigit = false), show ¬ (')' : Char) = ',' by decide, or_self, not_false_eq_true]
  have hposition : splitOnce "):".toList (Nat.toDigits 10 place.row ++ ',' ::
      (Nat.toDigits 10 place.column ++ ')' :: ':' :: rest)) =
      some (Nat.toDigits 10 place.row ++ ',' :: Nat.toDigits 10 place.column, rest) := by
    have hsplit := @splitOnce_append "):".toList
      (Nat.toDigits 10 place.row ++ ',' :: Nat.toDigits 10 place.column) rest (by decide) ?_
    · rw [← hsplit, append_assoc, append_assoc, cons_append]
      rfl
    · rintro front back hleft hback hprefix
      obtain ⟨c, more, rfl⟩ := exists_cons_of_ne_nil hback
      obtain ⟨rfl, -⟩ := cons_prefix_cons.mp hprefix
      rw [hleft] at hclosing
      exact hclosing (mem_append_right front mem_cons_self)
  have hparenthesized : parenthesized (place.path ++
      (parenthesis.position place ++ ':' :: rest)) = some (place.path,
        Nat.toDigits 10 place.row ++ ',' :: Nat.toDigits 10 place.column) := by
    rw [parenthesized, position, cons_append, splitOnce_singleton hplain.opening,
      append_assoc, cons_append, append_assoc]
    show (splitOnce "):".toList (Nat.toDigits 10 place.row ++ ',' ::
      (Nat.toDigits 10 place.column ++ ')' :: ':' :: rest))).bind _ = _
    rw [hposition]
    rfl
  have hcolumn : trimText (Nat.toDigits 10 place.column) = Nat.toDigits 10 place.column :=
    trimText_eq_self fun c hc => not_isWhitespace_of_isDigit (isDigit_of_mem_toDigits hc)
  rw [plainLocation, hparenthesized]
  simp only [splitOnce_singleton (notMem_toDigits (by decide : ','.isDigit = false) _), hcolumn,
    parsePositive_toDigits hplain.row_pos hplain.row_lt, Option.bind_eq_bind, Option.bind_some,
    parsePositive_toDigits hplain.column_pos hplain.column_lt, trimText_eq_self hplain.blanks]

lemma colons_append {left : List Char} (h : ':' ∉ left) (rest : List Char) :
    ∃ others, colons (left ++ ':' :: rest) = (left, rest) :: others := by
  induction left with
  | nil => exact ⟨_, rfl⟩
  | cons c left ih =>
    rw [mem_cons, not_or] at h
    obtain ⟨others, hothers⟩ := ih h.2
    refine ⟨others.map fun parts => (c :: parts.1, parts.2), ?_⟩
    rw [cons_append, colons, hothers, if_neg fun hc => h.1 hc.symm, nil_append,
      map_cons]

/-- What is read around the first colon of a line. -/
lemma colonLocation_eq {place : Place} (hplain : place.Plain) (rest : List Char) :
    colonLocation place.path (Nat.toDigits 10 place.row ++ ':' :: rest) =
      some (trimQuotes place.path, place.row, (number rest).map Prod.fst) := by
  have hrow : number (Nat.toDigits 10 place.row ++ ':' :: rest) =
      some (place.row, ':' :: rest) := by
    refine number_toDigits hplain.row_pos hplain.row_lt fun c hc => ?_
    cases hc
    decide
  have hblank : ' ' ∉ place.path := fun hmem => hplain.blanks ' ' hmem (by decide)
  have hcolon : stripStart ":" (':' :: rest) = some rest := stripStart_eq_some_iff.mpr rfl
  rw [colonLocation, hrow]
  simp only [Option.bind_eq_bind, Option.bind_some, hcolon, trimText_eq_self hplain.blanks]
  rw [if_neg, if_neg]
  · exact fun h => h.elim hplain.nonempty fun h => hblank h.1
  · exact fun h => h.2.1 rfl

/-- The forms with colons are found at the first of them, if no parenthesis is found before. -/
lemma plainLocation_colons {place : Place} (hplain : place.Plain) (hform : form ≠ .parenthesis)
    (message : List Char)
    (hnone : parenthesized (place.path ++ (form.position place ++ form.shown message)) = none) :
    plainLocation (place.path ++ (form.position place ++ form.shown message)) =
      some (trimQuotes place.path, place.row, form.column place) := by
  have hfirst {rest : List Char} {column : Option ℕ}
      (hcolumn : (number rest).map Prod.fst = column) :
      (colons (place.path ++ ':' :: (Nat.toDigits 10 place.row ++ ':' :: rest))).findSome?
        (fun parts => colonLocation parts.1 parts.2) =
          some (trimQuotes place.path, place.row, column) := by
    obtain ⟨others, hothers⟩ := colons_append hplain.colons
      (Nat.toDigits 10 place.row ++ ':' :: rest)
    rw [hothers, findSome?_cons, colonLocation_eq hplain, hcolumn]
  have hnumber {rest : List Char} (hrest : ∀ c, rest.head? = some c → c.isDigit = false) :
      (number (Nat.toDigits 10 place.column ++ rest)).map Prod.fst = some place.column := by
    rw [number_toDigits hplain.column_pos hplain.column_lt hrest]
    rfl
  rw [plainLocation, hnone]
  cases form with
  | parenthesis => exact absurd rfl hform
  | full =>
    have hrest := @hnumber (full.shown message) fun c hc => by
      cases hc
      decide
    rw [position, cons_append, append_assoc, cons_append]
    exact hfirst hrest
  | bare =>
    have hrest := @hnumber [] fun c hc => absurd hc.symm (Option.some_ne_none c)
    rw [append_nil] at hrest
    show (colons (place.path ++ (':' :: (Nat.toDigits 10 place.row ++
      ':' :: Nat.toDigits 10 place.column) ++ []))).findSome? _ = _
    rw [append_nil]
    exact hfirst hrest
  | rowOnly =>
    refine hfirst (?_ : (number _).map Prod.fst = none)
    rw [number_eq_none]
    · rfl
    · intro c hc
      obtain ⟨back, -, hcut⟩ := exists_eq_trimEndMatches isWhitespace
        (' ' :: visible .outside message)
      cases hcase : trimEndMatches isWhitespace (' ' :: visible .outside message) with
      | nil =>
        rw [hcase] at hc
        exact absurd hc.symm (Option.some_ne_none c)
      | cons d more =>
        rw [hcase] at hc hcut
        cases hc
        rw [← (cons.inj hcut).1]
        decide

/-! ## Parentheses in messages -/

lemma hasParenthesis_append_left {front text : List Char} (h : '(' ∉ front) :
    HasParenthesis (front ++ text) ↔ HasParenthesis text := by
  constructor
  · rintro ⟨before, behind, heq, hclose⟩
    rcases append_eq_append_iff.mp heq with ⟨more, rfl, rfl⟩ | ⟨more, rfl, hmore⟩
    · exact ⟨more, behind, rfl, hclose⟩
    · cases more with
      | nil => exact ⟨[], behind, hmore.symm, hclose⟩
      | cons c more =>
        cases hmore
        exact absurd (mem_append_right before mem_cons_self) h
  · rintro ⟨before, behind, rfl, hclose⟩
    exact ⟨front ++ before, behind, (append_assoc ..).symm, hclose⟩

/-- Blanks behind a text do not add to its parentheses. -/
lemma hasParenthesis_append_right {text back : List Char} (h : ∀ c ∈ back, isWhitespace c) :
    HasParenthesis (text ++ back) ↔ HasParenthesis text := by
  have hnot {c : Char} (hc : ¬ isWhitespace c) : c ∉ back := fun hmem => hc (h c hmem)
  -- The parenthesis and what closes it end before the blanks.
  have hends {before behind : List Char} {last : Char} (hlast : ¬ isWhitespace last)
      (heq : text ++ back = (before ++ [last]) ++ behind) :
      ∃ more, text = (before ++ [last]) ++ more := by
    rcases append_eq_append_iff.mp heq with ⟨more, hmore, hback⟩ | ⟨more, hmore, -⟩
    · rcases eq_nil_or_concat more with rfl | ⟨most, c, rfl⟩
      · exact ⟨[], by rw [hmore, append_nil, append_nil]⟩
      · rw [concat_eq_append, ← append_assoc] at hmore
        obtain ⟨-, hc⟩ := append_inj' hmore rfl
        refine absurd ?_ (hnot hlast)
        rw [hback, concat_eq_append, ← singleton_inj.mp hc]
        exact mem_append_left _ (mem_append_right most mem_cons_self)
    · exact ⟨more, hmore⟩
  constructor
  · rintro ⟨before, behind, heq, left, right, hclose⟩
    have hwhole : text ++ back = (before ++ '(' :: (left ++ [')']) ++ [':']) ++ right := by
      rw [heq, ← hclose]
      simp
    obtain ⟨more, hmore⟩ := hends (by decide) hwhole
    refine ⟨before, left ++ "):".toList ++ more, ?_, left, more, rfl⟩
    rw [hmore]
    simp
  · rintro ⟨before, behind, rfl, hclose⟩
    refine ⟨before, behind ++ back, by rw [append_assoc, cons_append], ?_⟩
    exact hclose.trans (prefix_append behind back).isInfix

lemma parenthesized_eq_none_iff {text : List Char} :
    parenthesized text = none ↔ ¬ HasParenthesis text := by
  rw [parenthesized]
  cases hsplit : splitOnce ['('] text with
  | none =>
    refine iff_of_true rfl fun ⟨before, behind, heq, _⟩ => ?_
    refine splitOnce_eq_none_iff.mp hsplit ⟨before, behind, ?_⟩
    rw [heq, append_assoc]
    rfl
  | some parts =>
    obtain ⟨before, behind⟩ := parts
    obtain rfl : text = before ++ '(' :: behind := by
      rw [eq_of_splitOnce hsplit, append_assoc]
      rfl
    rw [hasParenthesis_append_left (not_mem_of_splitOnce hsplit)]
    have hclose : HasParenthesis ('(' :: behind) ↔ "):".toList <:+: behind := by
      constructor
      · rintro ⟨front, rest, heq, hclose⟩
        cases front with
        | nil =>
          rw [(cons.inj heq).2]
          exact hclose
        | cons c front =>
          rw [(cons.inj heq).2]
          exact hclose.trans ((suffix_cons '(' rest).isInfix.trans
            (suffix_append front ('(' :: rest)).isInfix)
      · exact fun hclose => ⟨[], behind, rfl, hclose⟩
    rw [hclose, ← splitOnce_eq_none_iff]
    show ((splitOnce "):".toList behind).bind fun found => some (before, found.1)) = none ↔ _
    rw [Option.bind_eq_none_iff]
    constructor
    · intro h
      by_contra hne
      obtain ⟨found, hfound⟩ := Option.ne_none_iff_exists'.mp hne
      exact Option.some_ne_none _ (h found hfound)
    · intro h found hfound
      exact absurd (h.symm.trans hfound) (Option.some_ne_none found).symm

/-- What stands before the parenthesis that is found. -/
lemma eq_of_parenthesized {text path position : List Char}
    (h : parenthesized text = some (path, position)) : ∃ rest, text = path ++ '(' :: rest := by
  obtain ⟨parts, hsplit, hparts⟩ := Option.bind_eq_some_iff.mp h
  obtain ⟨found, -, hfound⟩ := Option.bind_eq_some_iff.mp hparts
  cases hfound
  refine ⟨parts.2, ?_⟩
  rw [eq_of_splitOnce hsplit, append_assoc]
  rfl

lemma prefix_of_parenthesized {front text path position : List Char} (h : '(' ∉ front)
    (hfound : parenthesized (front ++ text) = some (path, position)) : front <+: path := by
  obtain ⟨rest, heq⟩ := eq_of_parenthesized hfound
  rcases append_eq_append_iff.mp heq with ⟨more, rfl, -⟩ | ⟨more, rfl, hmore⟩
  · exact prefix_append front more
  · cases more with
    | nil => exact ⟨[], by simp⟩
    | cons c more =>
      cases hmore
      exact absurd (mem_append_right path mem_cons_self) h

lemma opening_notMem_position (hform : form ≠ .parenthesis) (place : Place) :
    '(' ∉ form.position place := by
  cases form with
  | parenthesis => exact absurd rfl hform
  | full | bare | rowOnly =>
    simp [position, notMem_toDigits (by decide : '('.isDigit = false), or_self, not_false_eq_true]

lemma parenthesized_colons_iff {place : Place} (hplain : place.Plain)
    (hform : form ≠ .parenthesis) (message : List Char) :
    parenthesized (place.path ++ (form.position place ++ form.shown message)) = none ↔
      ¬ (form ≠ .bare ∧ HasParenthesis (visible .outside message)) := by
  have hlocation : '(' ∉ place.path ++ form.position place := by
    rw [mem_append, not_or]
    exact ⟨hplain.opening, opening_notMem_position hform place⟩
  rw [parenthesized_eq_none_iff, ← append_assoc, hasParenthesis_append_left hlocation,
    shown, not_iff_not]
  by_cases hbare : form = .bare
  · rw [if_pos hbare]
    refine iff_of_false (fun ⟨before, behind, heq, _⟩ => ?_) fun h => h.1 hbare
    exact append_ne_nil_of_right_ne_nil before (cons_ne_nil _ _) heq.symm
  · rw [if_neg hbare, and_iff_right hbare]
    obtain ⟨back, hback, hcut⟩ := exists_eq_trimEndMatches isWhitespace
      (' ' :: visible .outside message)
    calc HasParenthesis (':' :: trimEndMatches isWhitespace (' ' :: visible .outside message))
        ↔ HasParenthesis (trimEndMatches isWhitespace (' ' :: visible .outside message)) :=
          @hasParenthesis_append_left [':'] _ (by decide)
      _ ↔ HasParenthesis (' ' :: visible .outside message) := by
          rw [hcut, hasParenthesis_append_right hback, ← hcut]
      _ ↔ HasParenthesis (visible .outside message) :=
          @hasParenthesis_append_left [' '] _ (by decide)

/-! ## Records -/

lemma truncateBytes_eq_self {text : List Char} {bytes : ℕ} (h : utf8Length text ≤ bytes) :
    truncateBytes bytes text = text := by
  induction text generalizing bytes with
  | nil => rfl
  | cons c rest ih =>
    rw [utf8Length, map_cons, sum_cons] at h
    rw [truncateBytes, if_pos (by omega), ih]
    rw [utf8Length]
    omega

lemma base_reason_eq_none {path message : List Char} {confidence : String} :
    (base path message confidence).reason = none ↔ isInvalidPath path = false := by
  rw [base]
  cases isInvalidPath path with
  | true => exact iff_of_false (Option.some_ne_none _) Bool.noConfusion
  | false => exact iff_of_true rfl rfl

lemma base_originalPath {path message : List Char} {confidence : String}
    (h : isInvalidPath path = false) :
    (base path message confidence).originalPath = some (String.ofList path) := by
  have hshort : utf8Length path ≤ 4096 := by
    rw [isInvalidPath, Bool.or_eq_false_iff, decide_eq_false_iff_not, not_lt] at h
    exact h.1
  show some (String.ofList (truncateBytes 4096 (if isInvalidPath path then _ else path))) = _
  rw [h, if_neg Bool.false_ne_true, truncateBytes_eq_self hshort]

lemma textLines_singleton {line : List Char} (hnewline : '\n' ∉ line) (hne : line ≠ []) :
    textLines (String.ofList line) = [line] := by
  have hsplit : splitInclusive line = [line] := by
    induction line with
    | nil => exact absurd rfl hne
    | cons c rest ih =>
      rw [mem_cons, not_or] at hnewline
      rw [splitInclusive, if_neg (Ne.symm hnewline.1)]
      cases rest with
      | nil => rfl
      | cons d more => rw [ih hnewline.2 (cons_ne_nil d more)]
  have hlast : line.getLast? ≠ some '\n' := fun h => hnewline (mem_of_getLast? h)
  rw [textLines, String.toList_ofList, hsplit, map_singleton, if_neg hlast]

lemma parse_line {line : List Char} (hnewline : '\n' ∉ line) (hne : line ≠ [])
    (parsed : ParsedTaskDiagnostics) :
    parse (String.ofList line) parsed =
      if '\x00' ∈ line then parsed.parseError
      else
        match location (trimText (visible .outside line)) with
        | none => parsed
        | some (path, row, column) =>
          if parsed.limits.records ≤ parsed.records.length then markRecordLimit parsed
          else parsed.push (lineRecord (trimText (visible .outside line)) path row column) := by
  rw [parse, textLines_singleton hnewline hne]
  by_cases hnul : '\x00' ∈ line
  · simp [parseLines, if_pos hnul]
  · cases hfound : location (trimText (visible .outside line)) with
    | none => simp only [parseLines, sanitize_line, if_neg hnul, hfound]
    | some found => simp only [parseLines, sanitize_line, if_neg hnul, hfound]

/-! ## When the message does not matter -/

/-- When the location of a line is read as it is written.

The path must be kept as it is, and in the forms with colons it must not have quotes at its ends.
The message must be free of `NUL`, and in the forms with colons it must not have a parenthesis with
`):` behind it, once its terminal escapes are taken out. -/
structure Readable (form : LineForm) (place : Place) (message : List Char) : Prop where
  path : isInvalidPath place.path = false
  quotes : form ≠ .parenthesis → trimQuotes place.path = place.path
  nul : form ≠ .bare → '\x00' ∉ message
  parenthesis : form ≠ .parenthesis → form ≠ .bare → ¬ HasParenthesis (visible .outside message)

lemma notMem_of_valid {path : List Char} (h : isInvalidPath path = false) (hc : isControl c) :
    c ∉ path := by
  rw [isInvalidPath, Bool.or_eq_false_iff] at h
  exact fun hmem => absurd hc (any_eq_false.mp h.2 c hmem)

lemma location_line {place : Place} (hplain : place.Plain)
    (hpath : isInvalidPath place.path = false) (message : List Char) :
    location (trimText (visible .outside (diagnosticLine arrow form place message))) =
      plainLocation (place.path ++ (form.position place ++ form.shown message)) := by
  have hescape : '\x1b' ∉ place.path := notMem_of_valid hpath (by decide)
  rw [trimText_visible_line hplain hescape, located, append_assoc, append_assoc]
  cases form with
  | full | rowOnly | bare => exact location_eq hplain.blanks (.inl rfl)
  | parenthesis => exact location_eq hplain.blanks (.inr rfl)

/-- The location is found exactly if neither the quotes of the path nor the message interfere. -/
lemma location_line_iff {arrow : Bool} {form : LineForm} {place : Place} (hplain : place.Plain)
    (hpath : isInvalidPath place.path = false) (message : List Char) (row : ℕ) (column : Option ℕ) :
    location (trimText (visible .outside (diagnosticLine arrow form place message))) =
        some (place.path, row, column) ↔
      (row = place.row ∧ column = form.column place) ∧
        (form ≠ .parenthesis → trimQuotes place.path = place.path) ∧
        (form ≠ .parenthesis → form ≠ .bare → ¬ HasParenthesis (visible .outside message)) := by
  rw [location_line hplain hpath]
  by_cases hform : form = .parenthesis
  · subst hform
    have hfound : plainLocation (place.path ++ (parenthesis.position place ++
        parenthesis.shown message)) = some (place.path, place.row, some place.column) :=
      plainLocation_parenthesis hplain _
    rw [hfound]
    simp only [Option.some.injEq, Prod.mk.injEq, true_and, ne_eq, not_true_eq_false, false_imp_iff,
      and_true]
    exact and_congr eq_comm eq_comm
  · cases hparenthesized :
      parenthesized (place.path ++ (form.position place ++ form.shown message)) with
    | none =>
      have hnone := (parenthesized_colons_iff hplain hform message).mp hparenthesized
      rw [plainLocation_colons hplain hform message hparenthesized]
      simp only [Option.some.injEq, Prod.mk.injEq]
      constructor
      · rintro ⟨hquotes, rfl, rfl⟩
        exact ⟨⟨rfl, rfl⟩, fun _ => hquotes, fun _ hbare h => hnone ⟨hbare, h⟩⟩
      · rintro ⟨⟨rfl, rfl⟩, hquotes, -⟩
        exact ⟨hquotes hform, rfl, rfl⟩
    | some parts =>
      obtain ⟨before, position⟩ := parts
      have hsome := mt (parenthesized_colons_iff hplain hform message).mpr
        (fun h => Option.some_ne_none _ (hparenthesized.symm.trans h))
      refine iff_of_false (fun hfound => ?_) fun h => hsome fun hhas => h.2.2 hform hhas.1 hhas.2
      -- What stands before the parenthesis has the first colon of the location in it.
      have hcolon : ':' ∈ before := by
        have hfront : place.path ++ form.position place <+: before := by
          refine prefix_of_parenthesized ?_ (by rwa [← append_assoc] at hparenthesized)
          rw [mem_append, not_or]
          exact ⟨hplain.opening, opening_notMem_position hform place⟩
        refine hfront.subset (mem_append_right _ ?_)
        cases form with
        | parenthesis => exact absurd rfl hform
        | full | bare | rowOnly => exact mem_cons_self
      have hpath : trimText before = place.path := by
        rw [plainLocation, hparenthesized] at hfound
        obtain ⟨parts, -, hparts⟩ := Option.bind_eq_some_iff.mp hfound
        obtain ⟨_, -, hrow⟩ := Option.bind_eq_some_iff.mp hparts
        obtain ⟨_, -, hcolumn⟩ := Option.bind_eq_some_iff.mp hrow
        exact (Prod.mk.inj (Option.some.inj hcolumn)).1
      obtain ⟨front, back, hblank, hblankAfter, hbefore⟩ := exists_eq_trimText before
      rw [hbefore, hpath, mem_append, mem_append] at hcolon
      rcases hcolon with hcolon | hcolon | hcolon
      · exact absurd (hblank ':' hcolon) (by decide)
      · exact hplain.colons hcolon
      · exact absurd (hblankAfter ':' hcolon) (by decide)

lemma notMem_diagnosticLine {place : Place} {message : List Char} (hdigit : c.isDigit = false)
    (hsigns : c ∉ ":,()".toList) (harrow : c ∉ "--> ".toList) (hpath : c ∉ place.path)
    (hmessage : form ≠ .bare → c ∉ message) : c ∉ diagnosticLine arrow form place message := by
  have htail : c ∉ form.tail message := by
    rw [LineForm.tail]
    split
    next => exact not_mem_nil
    next hbare =>
      rw [mem_cons, mem_cons, not_or, not_or]
      refine ⟨?_, ?_, hmessage hbare⟩
      · rintro rfl
        exact hsigns (by decide)
      · rintro rfl
        exact harrow (by decide)
  rw [diagnosticLine, mem_append, mem_append, mem_append, not_or, not_or, not_or]
  refine ⟨?_, hpath, notMem_position hdigit hsigns form place, htail⟩
  cases arrow with
  | true => exact harrow
  | false => exact not_mem_nil

/-- A line yields exactly its location if and only if it is readable. -/
theorem yields_iff {arrow : Bool} {form : LineForm} {place : Place} {message : List Char}
    (hplain : place.Plain) (hmessage : '\n' ∉ message) :
    Yields (diagnosticLine arrow form place message) place (form.column place) ↔
      Readable form place message := by
  have hnewline : '\n' ∉ diagnosticLine arrow form place message :=
    notMem_diagnosticLine (by decide) (by decide) (by decide)
      (fun h => hplain.blanks _ h (by decide)) fun _ => hmessage
  have hne : diagnosticLine arrow form place message ≠ [] := by
    intro hnil
    have hpath := (append_eq_nil_iff.mp hnil).2
    exact hplain.nonempty (append_eq_nil_iff.mp hpath).1
  have hparse := parse_line hnewline hne
  constructor
  · intro h
    obtain ⟨record, hrecord, hpath, hreason, -⟩ := h ⟨[], {}, ⟨0, 1, 0⟩⟩ Nat.zero_lt_one
    rw [hparse] at hrecord
    have hnone {parsed : ParsedTaskDiagnostics} (hempty : parsed.records = []) :
        parsed ≠ (⟨[], {}, ⟨0, 1, 0⟩⟩ : ParsedTaskDiagnostics).push record := fun heq =>
      cons_ne_nil record [] ((congrArg ParsedTaskDiagnostics.records heq).symm.trans hempty)
    split at hrecord
    · exact absurd hrecord (hnone rfl)
    next hnul =>
      split at hrecord
      · exact absurd hrecord (hnone rfl)
      next path row column hfound =>
        obtain rfl := (cons.inj (congrArg ParsedTaskDiagnostics.records hrecord)).1
        have hvalid : isInvalidPath path = false :=
          (@base_reason_eq_none path
            (trimText (visible .outside (diagnosticLine arrow form place message)))
            "partial").mp hreason
        have horiginal : some (String.ofList path) = some (String.ofList place.path) :=
          (@base_originalPath path
            (trimText (visible .outside (diagnosticLine arrow form place message)))
            "partial" hvalid).symm.trans hpath
        have hsame : path = place.path := String.ofList_inj.mp (Option.some.inj horiginal)
        subst hsame
        obtain ⟨-, hquotes, hparenthesis⟩ := (location_line_iff hplain hvalid _ _ _).mp hfound
        refine ⟨hvalid, hquotes, fun hbare hmem => hnul ?_, hparenthesis⟩
        rw [diagnosticLine, LineForm.tail, if_neg hbare]
        simp only [mem_append, mem_cons, hmem, or_true]
  · intro h parsed hroom
    have hfound := (@location_line_iff arrow _ _ hplain h.path message place.row
      (form.column place)).mpr ⟨⟨rfl, rfl⟩, h.quotes, h.parenthesis⟩
    have hnul : '\x00' ∉ diagnosticLine arrow form place message :=
      notMem_diagnosticLine (by decide) (by decide) (by decide)
        (notMem_of_valid h.path (by decide)) h.nul
    set line := trimText (visible .outside (diagnosticLine arrow form place message))
    have hrecord : parse (String.ofList (diagnosticLine arrow form place message)) parsed =
        parsed.push (lineRecord line place.path place.row (form.column place)) := by
      rw [hparse, if_neg hnul, hfound]
      exact if_neg (Nat.not_le.mpr hroom)
    exact ⟨_, hrecord, @base_originalPath _ line "partial" h.path,
      (@base_reason_eq_none _ line "partial").mpr h.path, rfl, rfl⟩

/-- A short location. -/
def sampleText : Place where
  path := "a.rs".toList
  row := 1
  column := 2

lemma sampleText_plain : sampleText.Plain where
  nonempty := by decide
  blanks := by
    have hall : sampleText.path.all (fun c => !isWhitespace c) = true := by decide
    intro c hc
    simpa using all_eq_true.mp hall c hc
  colons := by decide
  opening := by decide
  closing := by decide
  row_pos := by decide
  row_lt := by decide
  column_pos := by decide
  column_lt := by decide

theorem yields_iff_sampleText :
    Yields (diagnosticLine false .full sampleText "use a, (b)".toList) sampleText (some 2) ↔
      Readable .full sampleText "use a, (b)".toList :=
  @yields_iff false .full sampleText _ sampleText_plain (by decide)

/-- A parenthesis in the message takes the place of the location. -/
theorem parenthesizedMessage_lost : ¬ ∀ message : List Char, '\n' ∉ message →
      Yields (diagnosticLine false .full sampleText message) sampleText (some 2) := by
  intro h
  obtain ⟨record, hrecord, -⟩ := h "call (x): y".toList (by decide) ⟨[], {}, ⟨0, 1, 0⟩⟩ (by decide)
  have hnone : parse (String.ofList (diagnosticLine false .full sampleText "call (x): y".toList))
      ⟨[], {}, ⟨0, 1, 0⟩⟩ = ⟨[], {}, ⟨0, 1, 0⟩⟩ := by decide +kernel
  rw [hnone] at hrecord
  exact cons_ne_nil record [] (congrArg ParsedTaskDiagnostics.records hrecord).symm

end Reposcout.TaskDiagnostics.TextFormat
