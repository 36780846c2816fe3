import Reposcout.Framework.Encoding

/-!
# Words of a shell command

How a shell splits a command into words: blanks separate them, and quotes and backslashes take
characters literally.  The reader does not expand anything: it gives up at the characters that it
is told to stop at, which a shell would read as operators or expansions.
-/

namespace ShellWords

open List Option

/-- Where the reader is: between words, in one of the quotes, or behind a character that may begin
something. -/
inductive Mode
  | blank
  | bare
  | dollar
  | backslash
  | single
  | ansi
  | escape
  /-- In an escape `\U` with the digits left and the value of those read. -/
  | unicode (left value : ℕ)
  deriving DecidableEq

/-- A character of a word, and whether it is quoted. -/
abbrev Piece := Char × Bool

structure State where
  words : List (List Piece)
  word : List Piece
  mode : Mode
  deriving DecidableEq

def State.start : State := ⟨[], [], .blank⟩

namespace State

/-- The word goes on with a character. -/
def push (s : State) (c : Char) (quoted : Bool) (mode : Mode) : State :=
  ⟨s.words, s.word ++ [(c, quoted)], mode⟩

def enter (s : State) (mode : Mode) : State := ⟨s.words, s.word, mode⟩

/-- The word ends. -/
def close (s : State) : State := ⟨s.words ++ [s.word], [], .blank⟩

end State

def isBlank (c : Char) : Bool := c = ' ' || c = '\t'

def hexValue (c : Char) : Option ℕ :=
  if '0' ≤ c ∧ c ≤ '9' then some (c.toNat - '0'.toNat)
  else if 'a' ≤ c ∧ c ≤ 'f' then some (c.toNat - 'a'.toNat + 10)
  else if 'A' ≤ c ∧ c ≤ 'F' then some (c.toNat - 'A'.toNat + 10)
  else none

/-- The character that a letter behind a backslash stands for in `$'…'`. -/
def escapeChar (c : Char) : Option Char :=
  match c with
  | 'n' => some '\n'
  | 't' => some '\t'
  | 'r' => some '\r'
  | '\\' => some '\\'
  | '\'' => some '\''
  | '"' => some '"'
  | _ => none

/-- Whether a shell takes the character for more than itself here: a comment begins with a word, and
a home directory with a word or behind `:` and `=`. -/
def State.special (s : State) (c : Char) : Bool :=
  if c = '#' then s.mode = .blank
  else if c = '~' then
    s.mode = .blank || s.word.getLast? = some (':', false) || s.word.getLast? = some ('=', false)
  else true

/-- A character outside of quotes. -/
def bareStep (stops : Char → Bool) (s : State) (c : Char) : Option State :=
  if c = '\'' then some (s.enter .single)
  else if c = '\\' then some (s.enter .backslash)
  else if c = '$' then some (s.enter .dollar)
  else if isBlank c then some s.close
  else if stops c && s.special c then none
  else some (s.push c false .bare)

/-- A character in `$'…'`. -/
def ansiStep (s : State) (c : Char) : Option State :=
  if c = '\'' then some (s.enter .bare)
  else if c = '\\' then some (s.enter .escape)
  else some (s.push c true .ansi)

def step (stops : Char → Bool) (s : State) (c : Char) : Option State :=
  match s.mode with
  | .blank =>
    if isBlank c then some s else bareStep stops s c
  | .bare => bareStep stops s c
  | .dollar =>
    if c = '\'' then some (s.enter .ansi)
    else if stops '$' then none
    else bareStep stops (s.push '$' false .bare) c
  | .backslash => some (if c = '\n' then s.enter .bare else s.push c true .bare)
  | .single => some (if c = '\'' then s.enter .bare else s.push c true .single)
  | .ansi => ansiStep s c
  | .escape =>
    if c = 'U' then some (s.enter (.unicode 8 0))
    else (escapeChar c).map fun d => s.push d true .ansi
  | .unicode left value =>
    match hexValue c with
    | some digit =>
      let value := 16 * value + digit
      if left ≠ 1 then some (s.enter (.unicode (left - 1) value))
      -- The character zero would end the string.
      else if value ≠ 0 ∧ Nat.isValidChar value then some (s.push (Char.ofNat value) true .ansi)
      else none
    | none => none

/-- The words at the end of the text, which ends outside of quotes. -/
def State.finish (stops : Char → Bool) (s : State) : Option (List (List Piece)) :=
  match s.mode with
  | .blank => some s.words
  | .bare => some (s.words ++ [s.word])
  | .dollar => if stops '$' then none else some (s.words ++ [s.word ++ [('$', false)]])
  | _ => none

def run (stops : Char → Bool) (s : State) (text : List Char) : Option State :=
  text.foldlM (step stops) s

def pieces (stops : Char → Bool) (text : List Char) : Option (List (List Piece)) := do
  (← run stops .start text).finish stops

/-! ## Parts of a word -/

lemma run_append (stops : Char → Bool) (s : State) (text text' : List Char) :
    run stops s (text ++ text') = (run stops s text).bind fun s' => run stops s' text' :=
  foldlM_append

/-- The characters as they stand in a word. -/
def marked (quoted : Bool) (text : List Char) : List Piece := text.map fun c => (c, quoted)

@[simp] lemma map_fst_marked (quoted : Bool) (text : List Char) :
    (marked quoted text).map Prod.fst = text := by
  rw [marked, List.map_map]
  exact List.map_id text

/-- A character that stands for itself outside of quotes, wherever it is in a word. -/
def Plain (stops : Char → Bool) (c : Char) : Prop :=
  c ≠ '\'' ∧ c ≠ '\\' ∧ c ≠ '$' ∧ isBlank c = false ∧ stops c = false

variable {stops : Char → Bool}

lemma bareStep_plain {c : Char} (h : Plain stops c) (s : State) :
    bareStep stops s c = some (s.push c false .bare) := by
  obtain ⟨hquote, hbackslash, hdollar, hblank, hstops⟩ := h
  rw [bareStep, if_neg hquote, if_neg hbackslash, if_neg hdollar, hblank, hstops]
  rfl

variable {text : List Char} (h : ∀ c ∈ text, Plain stops c)

include h

lemma run_bare (words : List (List Piece)) (word : List Piece) :
    run stops ⟨words, word, .bare⟩ text = some ⟨words, word ++ marked false text, .bare⟩ := by
  induction text generalizing word with
  | nil => simp [run, marked]
  | cons c rest ih =>
    have hrest := ih (fun d hd => h d (mem_cons_of_mem c hd)) (word ++ [(c, false)])
    rw [run, foldlM_cons, step]
    rw [bareStep_plain (h c mem_cons_self)]
    refine hrest.trans ?_
    rw [append_assoc]
    rfl

lemma run_blank (hne : text ≠ []) (words : List (List Piece)) :
    run stops ⟨words, [], .blank⟩ text = some ⟨words, marked false text, .bare⟩ := by
  obtain ⟨c, rest, rfl⟩ := exists_cons_of_ne_nil hne
  have hplain := h c mem_cons_self
  have hrest := run_bare (fun d hd => h d (mem_cons_of_mem c hd)) words [(c, false)]
  rw [run, foldlM_cons, step]
  rw [if_neg (by rw [hplain.2.2.2.1]; exact Bool.false_ne_true), bareStep_plain hplain]
  exact hrest

/-! ## Rows of words -/

def Reads (stops : Char → Bool) (text : List Char) (word : List Piece) : Prop :=
  ∀ words, run stops ⟨words, [], .blank⟩ text = some ⟨words, word, .bare⟩

lemma Reads.of_plain (hne : text ≠ []) : Reads stops text (marked false text) :=
  fun words => run_blank h hne words

omit h

lemma run_words {texts : List (List Char)} {read : List (List Piece)}
    (h : List.Forall₂ (Reads stops) texts read) (words : List (List Piece)) :
    run stops ⟨words, [], .blank⟩ (texts.flatMap fun text => text ++ [' ']) =
      some ⟨words ++ read, [], .blank⟩ := by
  induction h generalizing words with
  | nil => simp [run]
  | @cons text word texts read hword _ ih =>
    rw [flatMap_cons, run_append, run_append, hword words]
    have hclose : run stops ⟨words, word, .bare⟩ [' '] = some ⟨words ++ [word], [], .blank⟩ := rfl
    rw [bind_some, hclose, bind_some, ih, append_assoc, singleton_append]

/-- **A command of words**, the last ones of which are joined by blanks. -/
lemma pieces_join {front texts : List (List Char)} {frontRead read : List (List Piece)}
    (hfront : List.Forall₂ (Reads stops) front frontRead)
    (h : List.Forall₂ (Reads stops) texts read) :
    pieces stops ((front.flatMap fun text => text ++ [' ']) ++ [' '].intercalate texts) =
      some (frontRead ++ read) := by
  have hrun : ∀ words, (run stops ⟨words, [], .blank⟩ ([' '].intercalate texts)).bind
      (State.finish stops) = some (words ++ read) := by
    induction h with
    | nil =>
      intro words
      rw [append_nil]
      rfl
    | @cons text word texts read hword hrest ih =>
      intro words
      cases hrest with
      | nil =>
        rw [intercalate_singleton, hword words]
        rfl
      | @cons next nextWord texts read hnext hrest =>
        have hclose : run stops ⟨words, word, .bare⟩ [' '] =
            some ⟨words ++ [word], [], .blank⟩ := rfl
        rw [intercalate_cons_cons, run_append, run_append, hword words, bind_some,
          hclose, bind_some, ih, append_assoc, singleton_append]
  rw [pieces, State.start, run_append, run_words hfront, bind_some, nil_append]
  exact hrun frontRead

end ShellWords
