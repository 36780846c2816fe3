import Reposcout.Framework.Utf8
import Reposcout.Graph.JavaScript

/-!
# Removing comments keeps the meaning

Both passes are followed over the rows of tokens of a text.  The first leaves the tokens and makes
every gap white, the second leaves a white row without the commas before closing brackets.  Over
the characters of a text, each pass keeps a character or puts as many spaces as it has bytes, so
that the text stays valid and every line where it was.
-/

namespace Reposcout.Graph.Js

open JsonText List Option Quoting Token

/-! ## One byte -/

variable {byte : UInt8}

lemma stripComments_cons {quoting : Quoting} (h : quoting = .outside → byte ≠ slash)
    (rest : List UInt8) :
    stripCommentsFrom (.text quoting) (byte :: rest) =
      byte :: stripCommentsFrom (.text (quoting.next byte)) rest := by
  have hnot : ¬ (quoting = .outside ∧ byte = slash) := fun hand => h hand.1 hand.2
  cases rest with
  | nil => simp [stripCommentsFrom]
  | cons _ _ => rw [stripCommentsFrom, if_neg hnot]

lemma stripCommas_cons {quoting : Quoting} {rest : List UInt8}
    (h : quoting = .outside → byte = commaByte → closesNext rest = false) :
    stripCommasFrom quoting (byte :: rest) =
      byte :: stripCommasFrom (quoting.next byte) rest := by
  rw [stripCommasFrom, if_neg]
  rintro ⟨houtside, hcomma, hcloses⟩
  rw [h houtside hcomma] at hcloses
  cases hcloses

/-! ## Strings

Both passes see the same strings: they share the rule for the next byte. -/

variable {body : List UInt8} (pass : Quoting → List UInt8 → List UInt8)
variable (hpass : ∀ escaped byte rest, pass (.inside escaped) (byte :: rest) =
  byte :: pass ((inside escaped).next byte) rest)

include hpass

lemma kept_stringBody (h : IsStringBody body) (rest : List UInt8) :
    pass (.inside false) (body ++ rest) = body ++ pass (.inside false) rest := by
  have hplain {byte : UInt8} (hquote : byte ≠ quote) (hbackslash : byte ≠ backslash) :
      (inside false).next byte = .inside false := by
    simp [Quoting.next, hquote, hbackslash]
  have hhex {byte : UInt8} (hbyte : isHexDigit byte) :
      (inside false).next byte = .inside false := by
    refine hplain ?_ ?_ <;> rintro rfl <;> cases hbyte
  have hbackslash : (inside false).next backslash = .inside true := rfl
  have hescaped (byte : UInt8) : (inside true).next byte = .inside false := rfl
  induction h with
  | nil => rfl
  | plain hquote hbackslash' _ _ ih =>
    rw [cons_append, hpass, hplain hquote hbackslash', ih, cons_append]
  | escape _ _ ih =>
    simp only [cons_append, hpass, hbackslash, hescaped, ih]
  | unicode ha hb hc hd _ ih =>
    simp only [cons_append, hpass, hbackslash, hescaped, hhex ha, hhex hb, hhex hc, hhex hd, ih]

lemma kept_string
    (hopen : ∀ rest, pass .outside (quote :: rest) = quote :: pass (.inside false) rest)
    (h : IsStringBody body) (rest : List UInt8) : pass .outside ((text body).bytes ++ rest) =
      (text body).bytes ++ pass .outside rest := by
  have hclose : (inside false).next quote = .outside := rfl
  simp only [bytes, cons_append, append_assoc, nil_append, hopen,
    kept_stringBody pass hpass h, hpass, hclose]

omit hpass

/-! ## The first pass over a row -/

lemma outside_next (h : byte ≠ quote) : outside.next byte = .outside := by
  simp [Quoting.next, h]

variable {bytes : List UInt8}

lemma stripComments_plain
    (h : ∀ byte ∈ bytes, byte ≠ quote ∧ byte ≠ slash) (rest : List UInt8) :
    stripCommentsFrom (.text .outside) (bytes ++ rest) =
      bytes ++ stripCommentsFrom (.text .outside) rest := by
  induction bytes with
  | nil => rfl
  | cons byte bytes ih =>
    obtain ⟨hquote, hslash⟩ := h byte mem_cons_self
    rw [cons_append, stripComments_cons fun _ => hslash, outside_next hquote,
      ih fun other hother => h other (mem_cons_of_mem _ hother), cons_append]

lemma plain_of_isWhite (h : isWhite byte) : byte ≠ quote ∧ byte ≠ slash ∧ byte ≠ commaByte := by
  refine ⟨?_, ?_, ?_⟩ <;> rintro rfl <;> cases h

lemma plain_of_isScalarByte (h : isScalarByte byte) :
    byte ≠ quote ∧ byte ≠ slash ∧ byte ≠ commaByte := by
  refine ⟨?_, ?_, ?_⟩ <;> rintro rfl <;> cases h

variable {gap : List UInt8}

lemma stripComments_white (h : IsWhite gap) (rest : List UInt8) :
    stripCommentsFrom (.text .outside) (gap ++ rest) =
      gap ++ stripCommentsFrom (.text .outside) rest :=
  stripComments_plain (fun byte hbyte =>
    ⟨(plain_of_isWhite (h byte hbyte)).1, (plain_of_isWhite (h byte hbyte)).2.1⟩) rest

variable {token : Token}

lemma stripComments_token (h : token.Valid) (rest : List UInt8) :
    stripCommentsFrom (.text .outside) (token.bytes ++ rest) =
      token.bytes ++ stripCommentsFrom (.text .outside) rest := by
  cases token with
  | text body =>
    exact kept_string (fun quoting => stripCommentsFrom (.text quoting))
      (fun _ _ rest => stripComments_cons (fun hoff => Quoting.noConfusion hoff) rest)
      (fun rest => stripComments_cons (fun _ => by decide) rest) h rest
  | scalar bytes =>
    refine stripComments_plain (fun byte hbyte => ?_) rest
    have hplain := plain_of_isScalarByte (IsScalar.isScalarByte h byte hbyte)
    exact ⟨hplain.1, hplain.2.1⟩
  | _ => exact stripComments_plain (forall_mem_singleton.mpr (by decide)) rest

lemma stripComments_line (h : newline ∉ body) (rest : List UInt8) :
    stripCommentsFrom .line (body ++ rest) =
      replicate body.length space ++ stripCommentsFrom .line rest := by
  induction body with
  | nil => rfl
  | cons byte body ih =>
    have hbyte : byte ≠ newline := fun heq => h (heq ▸ mem_cons_self)
    rw [cons_append, stripCommentsFrom, if_neg hbyte,
      ih fun hmem => h (mem_cons_of_mem _ hmem), length_cons, replicate_succ,
      cons_append]

lemma stripComments_block (h : ¬ [star, slash] <:+: body) (rest : List UInt8) :
    stripCommentsFrom .block (body ++ star :: slash :: rest) =
      body.map blankByte ++ (space :: space :: stripCommentsFrom (.text .outside) rest) := by
  induction body with
  | nil => simp [stripCommentsFrom]
  | cons byte body ih =>
    have hrest : ¬ [star, slash] <:+: body := fun hinfix => h (infix_cons hinfix)
    obtain ⟨next, behind, hnext⟩ : ∃ next behind, body ++ star :: slash :: rest =
        next :: behind := by
      cases body <;> exact ⟨_, _, rfl⟩
    have hopen : ¬ (byte = star ∧ next = slash) := by
      rintro ⟨rfl, rfl⟩
      cases body with
      | nil => exact absurd (cons.inj hnext).1 (by decide)
      | cons other body =>
        obtain rfl := (cons.inj hnext).1
        exact h ⟨[], body, rfl⟩
    rw [cons_append, hnext, stripCommentsFrom, if_neg hopen, ← hnext, ih hrest,
      map_cons, cons_append]

lemma stripComments_block_end (h : ¬ [star, slash] <:+: body) :
    stripCommentsFrom .block body = body.map blankByte := by
  induction body with
  | nil => rfl
  | cons byte body ih =>
    have hrest : ¬ [star, slash] <:+: body := fun hinfix => h (infix_cons hinfix)
    cases body with
    | nil => rfl
    | cons next behind =>
      have hopen : ¬ (byte = star ∧ next = slash) := by
        rintro ⟨rfl, rfl⟩
        exact h ⟨[], behind, rfl⟩
      rw [stripCommentsFrom, if_neg hopen, ih hrest]
      rfl

lemma isWhite_map_blankByte (body : List UInt8) : IsWhite (body.map blankByte) := by
  intro byte hbyte
  obtain ⟨other, -, rfl⟩ := mem_map.mp hbyte
  unfold blankByte
  split <;> decide

lemma openLine (rest : List UInt8) : stripCommentsFrom (.text .outside) (slash :: slash :: rest) =
      space :: space :: stripCommentsFrom .line rest := by
  simp [stripCommentsFrom]

lemma openBlock (rest : List UInt8) : stripCommentsFrom (.text .outside) (slash :: star :: rest) =
      space :: space :: stripCommentsFrom .block rest := by
  simp [stripCommentsFrom, show star ≠ slash by decide]

lemma stripComments_trivia (h : IsTrivia gap) :
    ∃ white, IsWhite white ∧ ∀ rest, stripCommentsFrom (.text .outside) (gap ++ rest) =
      white ++ stripCommentsFrom (.text .outside) rest := by
  have hspace : isWhite space := by decide
  induction h with
  | nil => exact ⟨[], nofun, fun _ => rfl⟩
  | @white byte gap hbyte _ ih =>
    obtain ⟨white, hwhite, hstrip⟩ := ih
    refine ⟨byte :: white, hwhite.cons hbyte, fun rest => ?_⟩
    have hplain := plain_of_isWhite hbyte
    rw [cons_append, stripComments_cons fun _ => hplain.2.1, outside_next hplain.1, hstrip,
      cons_append]
  | @line body gap hbody _ ih =>
    obtain ⟨white, hwhite, hstrip⟩ := ih
    refine ⟨space :: space :: (replicate body.length space ++ newline :: white),
      ((IsWhite.replicate _).append (hwhite.cons (by decide))).cons hspace |>.cons hspace,
      fun rest => ?_⟩
    simp only [cons_append, append_assoc, openLine, stripComments_line hbody,
      stripCommentsFrom, if_true, hstrip]
  | @block body gap hbody _ ih =>
    obtain ⟨white, hwhite, hstrip⟩ := ih
    refine ⟨space :: space :: (body.map blankByte ++ space :: space :: white),
      ((isWhite_map_blankByte _).append ((hwhite.cons hspace).cons hspace)).cons hspace
        |>.cons hspace, fun rest => ?_⟩
    simp only [cons_append, append_assoc, openBlock, stripComments_block hbody, hstrip]

lemma stripComments_ending (h : IsEnding gap) :
    IsWhite (stripCommentsFrom (.text .outside) gap) := by
  have hspace : isWhite space := by decide
  cases h with
  | finished h =>
    obtain ⟨white, hwhite, hstrip⟩ := stripComments_trivia h
    have := hstrip []
    rw [append_nil, stripCommentsFrom, append_nil] at this
    rwa [this]
  | @line gap body h hbody =>
    obtain ⟨white, hwhite, hstrip⟩ := stripComments_trivia h
    have hline := stripComments_line hbody []
    rw [append_nil, stripCommentsFrom, append_nil] at hline
    rw [hstrip, openLine, hline]
    exact hwhite.append (((IsWhite.replicate _).cons hspace).cons hspace)
  | @block gap body h hbody =>
    obtain ⟨white, hwhite, hstrip⟩ := stripComments_trivia h
    rw [hstrip, openBlock, stripComments_block_end hbody]
    exact hwhite.append (((isWhite_map_blankByte _).cons hspace).cons hspace)

variable {text : List UInt8} {tokens : List Token}

/-- **The first pass leaves the tokens and makes every gap white.** -/
lemma strict_stripJsoncComments
    (h : Row IsTrivia IsEnding tokens text) : Strict tokens (stripJsoncComments text) := by
  rw [stripJsoncComments]
  induction h with
  | stop hgap => exact .stop (stripComments_ending hgap)
  | token hgap hvalid _ ih =>
    obtain ⟨white, hwhite, hstrip⟩ := stripComments_trivia hgap
    rw [hstrip, stripComments_token hvalid]
    exact .token hwhite hvalid ih

lemma stripJsoncComments_strict (h : Strict tokens text) : stripJsoncComments text = text := by
  rw [stripJsoncComments]
  induction h with
  | @stop gap hgap =>
    have := stripComments_white hgap []
    rwa [append_nil, stripCommentsFrom, append_nil] at this
  | token hgap hvalid _ ih => rw [stripComments_white hgap, stripComments_token hvalid, ih]

/-! ## The second pass over a row -/

lemma stripCommas_white (h : IsWhite gap) (rest : List UInt8) :
    stripCommasFrom .outside (gap ++ rest) = gap ++ stripCommasFrom .outside rest := by
  induction gap with
  | nil => rfl
  | cons byte gap ih =>
    obtain ⟨hquote, -, hcomma⟩ := plain_of_isWhite (h byte mem_cons_self)
    rw [cons_append, stripCommas_cons fun _ heq => absurd heq hcomma, outside_next hquote,
      ih fun other hother => h other (mem_cons_of_mem _ hother), cons_append]

lemma stripCommas_plain (h : ∀ byte ∈ bytes, byte ≠ quote ∧ byte ≠ commaByte) (rest : List UInt8) :
    stripCommasFrom .outside (bytes ++ rest) = bytes ++ stripCommasFrom .outside rest := by
  induction bytes with
  | nil => rfl
  | cons byte bytes ih =>
    obtain ⟨hquote, hcomma⟩ := h byte mem_cons_self
    rw [cons_append, stripCommas_cons fun _ heq => absurd heq hcomma, outside_next hquote,
      ih fun other hother => h other (mem_cons_of_mem _ hother), cons_append]

lemma stripCommas_token (h : token.Valid) (hcomma : token ≠ .comma) (rest : List UInt8) :
    stripCommasFrom .outside (token.bytes ++ rest) =
      token.bytes ++ stripCommasFrom .outside rest := by
  cases token with
  | text body =>
    exact kept_string stripCommasFrom
      (fun _ _ _ => stripCommas_cons fun hoff => Quoting.noConfusion hoff)
      (fun _ => stripCommas_cons fun _ heq => nomatch heq) h rest
  | scalar bytes =>
    refine stripCommas_plain (fun byte hbyte => ?_) rest
    have hplain := plain_of_isScalarByte (IsScalar.isScalarByte h byte hbyte)
    exact ⟨hplain.1, hplain.2.2⟩
  | comma => exact absurd rfl hcomma
  | _ => exact stripCommas_plain (forall_mem_singleton.mpr (by decide)) rest

lemma isAsciiWhitespace_of_isWhite (h : isWhite byte) : isAsciiWhitespace byte := by
  simp only [isWhite, mem_cons, not_mem_nil, or_false, decide_eq_true_eq] at h
  rcases h with rfl | rfl | rfl | rfl <;> decide

/-- White space is skipped when the next byte is looked for. -/
lemma closesNext_white (h : IsWhite gap) (rest : List UInt8) :
    closesNext (gap ++ rest) = closesNext rest := by
  have hnone : gap.find? (!isAsciiWhitespace ·) = none := by
    rw [find?_eq_none]
    intro byte hbyte
    simp [isAsciiWhitespace_of_isWhite (h byte hbyte)]
  rw [closesNext, find?_append, hnone, none_or, closesNext]

/-- The next byte tells whether the next token closes an array or an object. -/
lemma closesNext_token (h : token.Valid) (rest : List UInt8) :
    closesNext (token.bytes ++ rest) = token.closes := by
  have hscalar {byte : UInt8} (hbyte : isScalarByte byte) :
      isAsciiWhitespace byte = false ∧ byte ∉ [(125 : UInt8), 93] := by
    constructor
    · rw [← Bool.not_eq_true]
      intro hwhite
      simp only [isAsciiWhitespace, mem_cons, not_mem_nil, or_false, decide_eq_true_eq] at hwhite
      rcases hwhite with rfl | rfl | rfl | rfl | rfl <;> cases hbyte
    · intro hmem
      simp only [mem_cons, not_mem_nil, or_false] at hmem
      rcases hmem with rfl | rfl <;> cases hbyte
  cases token with
  | scalar bytes =>
    obtain ⟨byte, bytes, rfl⟩ := exists_cons_of_ne_nil (IsScalar.ne_nil h)
    obtain ⟨hwhite, hmem⟩ := hscalar (IsScalar.isScalarByte h byte mem_cons_self)
    simp only [Token.bytes, cons_append, closesNext, find?_cons, hwhite, Bool.not_false,
      Token.closes, decide_eq_false_iff_not]
    exact hmem
  | _ => rfl

lemma closesNext_row (h : Strict (token :: tokens) text) : closesNext text = token.closes := by
  cases h with
  | token hgap hvalid _ => rw [closesNext_white hgap, closesNext_token hvalid]

lemma closesNext_stop (h : Strict [] text) : closesNext text = false := by
  cases h with
  | stop hgap =>
    have := closesNext_white hgap []
    rw [append_nil] at this
    rw [this]
    rfl

/-- A comma is kept where no bracket follows. -/
lemma stripCommas_comma (h : Strict tokens text)
    (hhead : ∀ token ∈ tokens.head?, token.closes = false) :
    stripCommasFrom .outside (comma.bytes ++ text) =
      comma.bytes ++ stripCommasFrom .outside text := by
  have hcloses : closesNext text = false := by
    cases tokens with
    | nil => exact closesNext_stop h
    | cons token tokens =>
      rw [closesNext_row h]
      exact hhead token rfl
  exact stripCommas_cons fun _ _ => hcloses

/-- A comma before a bracket becomes white. -/
lemma stripCommas_trailing (h : Strict (token :: tokens) text) (hcloses : token.closes) :
    stripCommasFrom .outside (comma.bytes ++ text) =
      space :: stripCommasFrom .outside text := by
  have hnext : closesNext text = true := (closesNext_row h).trans hcloses
  rw [bytes, singleton_append, stripCommasFrom, if_pos ⟨rfl, rfl, hnext⟩]

/-- White space may stand in front of a row. -/
lemma strict_append {white : List UInt8} (hwhite : IsWhite white)
    (h : Strict tokens text) : Strict tokens (white ++ text) := by
  cases h with
  | stop hgap => exact .stop (hwhite.append hgap)
  | token hgap hvalid hrest =>
    rw [← append_assoc]
    exact .token (hwhite.append hgap) hvalid hrest

/-- **The second pass leaves a row without the trailing commas.** -/
lemma strict_stripTrailingCommas {tokens loose : List Token} (htrailing : Trailing tokens loose)
    (hfits : tokens.IsChain Fits) (h : Strict loose text) :
    Strict tokens (stripTrailingCommas text) := by
  rw [stripTrailingCommas]
  induction htrailing generalizing text with
  | nil =>
    cases h with
    | stop hgap =>
      have := stripCommas_white hgap []
      rw [append_nil, stripCommasFrom, append_nil] at this
      rw [this]
      exact .stop hgap
  | @keep tokens loose token hrest ih =>
    have hchain := isChain_cons.mp hfits
    cases h with
    | @token gap _ _ behind hgap hvalid hrow =>
      rw [stripCommas_white hgap]
      by_cases hcomma : token = .comma
      · subst hcomma
        have hhead : ∀ next ∈ loose.head?, next.closes = false := by
          intro next hnext
          cases hrest with
          | nil => cases hnext
          | keep other _ =>
            exact some.inj hnext ▸ hchain.1 other rfl rfl
          | comma other hcloses _ =>
            exact absurd hcloses (by rw [hchain.1 other rfl rfl]; exact Bool.false_ne_true)
        rw [stripCommas_comma hrow hhead]
        exact .token hgap hvalid (ih hchain.2 hrow)
      · rw [stripCommas_token hvalid hcomma]
        exact .token hgap hvalid (ih hchain.2 hrow)
  | @comma tokens loose token hcloses _ ih =>
    have hchain := isChain_cons.mp hfits
    cases h with
    | @token gap _ _ behind hgap _ hrow =>
      rw [stripCommas_white hgap, stripCommas_trailing hrow hcloses]
      cases hrow with
      | @token gap' _ _ behind' hgap' hvalid hrow =>
        have hcomma : token ≠ .comma := by
          rintro rfl
          cases hcloses
        have hspace : IsWhite [space] := IsWhite.replicate 1
        rw [stripCommas_white hgap', stripCommas_token hvalid hcomma, ← singleton_append]
        exact strict_append hgap (strict_append hspace (.token hgap' hvalid (ih hchain.2 hrow)))

lemma stripTrailingCommas_strict (hfits : tokens.IsChain Fits)
    (h : Strict tokens text) : stripTrailingCommas text = text := by
  rw [stripTrailingCommas]
  induction h with
  | @stop gap hgap =>
    have := stripCommas_white hgap []
    rwa [append_nil, stripCommasFrom, append_nil] at this
  | @token gap token tokens text hgap hvalid hrow ih =>
    have hchain := isChain_cons.mp hfits
    rw [stripCommas_white hgap]
    by_cases hcomma : token = .comma
    · subst hcomma
      rw [stripCommas_comma hrow fun next hnext => hchain.1 next hnext rfl, ih hchain.2]
    · rw [stripCommas_token hvalid hcomma, ih hchain.2]

/-! ## Both passes over characters -/

section

open Utf8

/-- A comment byte that is no end of a line becomes a space. -/
lemma blankByte_of_ne {byte : UInt8} (h : byte ≠ newline) : blankByte byte = space := if_neg h

/-- The bytes of one character that is not ASCII: they open nothing and close nothing. -/
lemma stripComments_high (h : ∀ byte ∈ bytes, 128 ≤ byte) (quoting : Quoting) (rest : List UInt8) :
    stripCommentsFrom (.text quoting) (bytes ++ rest) =
      bytes ++ stripCommentsFrom (.text (bytes.foldl next quoting)) rest := by
  induction bytes generalizing quoting with
  | nil => rfl
  | cons byte bytes ih =>
    have hslash : byte ≠ slash := by
      rintro rfl
      exact absurd (h slash mem_cons_self) (by decide)
    rw [cons_append, stripComments_cons fun _ => hslash,
      ih fun other hother => h other (mem_cons_of_mem _ hother), foldl_cons,
      cons_append]

lemma stripComments_block_high (h : ∀ byte ∈ bytes, 128 ≤ byte) (rest : List UInt8) :
    stripCommentsFrom .block (bytes ++ rest) =
      replicate bytes.length space ++ stripCommentsFrom .block rest := by
  induction bytes with
  | nil => rfl
  | cons byte bytes ih =>
    have hhigh := h byte mem_cons_self
    have hstar : byte ≠ star := by
      rintro rfl
      exact nomatch hhigh
    have hnewline : byte ≠ newline := by
      rintro rfl
      exact nomatch hhigh
    have hblank : stripCommentsFrom .block (byte :: (bytes ++ rest)) =
        space :: stripCommentsFrom .block (bytes ++ rest) := by
      rw [← blankByte_of_ne hnewline]
      cases bytes ++ rest with
      | nil => rfl
      | cons next behind => rw [stripCommentsFrom, if_neg fun hand => hstar hand.1]
    rw [cons_append, hblank, ih fun other hother => h other (mem_cons_of_mem _ hother),
      length_cons, replicate_succ, cons_append]

/-- What is known of the shorter rows of characters. -/
def BlanksWithin (length : Nat) : Prop :=
  ∀ place chars, chars.length ≤ length → Blanks chars (stripCommentsFrom place (encode chars))

lemma exists_encode_cons (char : Char) (rest : List Char) :
    ∃ byte bytes, encode (char :: rest) = byte :: bytes :=
  exists_cons_of_ne_nil (by simp)

variable {rest : List Char} {char : Char}

lemma blanks_high (hsize : char.utf8Size ≠ 1) (hwithin : BlanksWithin rest.length)
    (place : Place) : Blanks (char :: rest) (stripCommentsFrom place (encode (char :: rest))) := by
  have hhigh := le_of_mem_utf8EncodeChar hsize
  have hchar : char ≠ '\n' := by
    rintro rfl
    exact hsize (by decide)
  rw [encode_cons]
  cases place with
  | text quoting =>
    rw [stripComments_high hhigh]
    exact .keep char (hwithin _ rest le_rfl)
  | line =>
    rw [stripComments_line fun hmem => absurd (hhigh _ hmem) (by decide),
      String.length_utf8EncodeChar]
    exact .blank hchar (hwithin _ rest le_rfl)
  | block =>
    rw [stripComments_block_high hhigh, String.length_utf8EncodeChar]
    exact .blank hchar (hwithin _ rest le_rfl)

variable (hsize : char.utf8Size = 1) (hwithin : BlanksWithin rest.length)

include hsize hwithin

/-- An ASCII character of the text is kept, or opens a comment with the one behind it. -/
lemma blanks_text (quoting : Quoting) : Blanks (char :: rest)
      (stripCommentsFrom (.text quoting) (char.val.toUInt8 :: encode rest)) := by
  by_cases hopen : quoting = .outside ∧ char.val.toUInt8 = slash
  · have hchar : char ≠ '\n' := by
      rintro rfl
      cases hopen.2
    cases rest with
    | nil =>
      rw [encode_nil, stripCommentsFrom, if_pos hopen]
      exact .keep_ascii hsize .nil
    | cons other behind =>
      have hbehind : behind.length ≤ (other :: behind).length := by simp
      obtain ⟨next, bytes, hnext⟩ := exists_encode_cons other behind
      rw [hnext, stripCommentsFrom, if_pos hopen]
      by_cases hline : next = slash
      · obtain ⟨rfl, rfl⟩ := eq_of_encode_cons hnext '/' (by decide) hline
        rw [if_pos hline]
        exact .blank_ascii hsize hchar
          (.blank_ascii (by decide) (by decide) (hwithin .line behind hbehind))
      · rw [if_neg hline]
        by_cases hblock : next = star
        · obtain ⟨rfl, rfl⟩ := eq_of_encode_cons hnext '*' (by decide) hblock
          rw [if_pos hblock]
          exact .blank_ascii hsize hchar
            (.blank_ascii (by decide) (by decide) (hwithin .block behind hbehind))
        · rw [if_neg hblock, ← hnext]
          exact .keep_ascii hsize (hwithin (.text .outside) (other :: behind) le_rfl)
  · rw [stripComments_cons fun hoff heq => hopen ⟨hoff, heq⟩]
    exact .keep_ascii hsize (hwithin _ rest le_rfl)

lemma blanks_line :
    Blanks (char :: rest) (stripCommentsFrom .line (char.val.toUInt8 :: encode rest)) := by
  rw [stripCommentsFrom]
  by_cases hnewline : char.val.toUInt8 = newline
  · rw [if_pos hnewline]
    exact .keep_ascii hsize (hwithin _ rest le_rfl)
  · rw [if_neg hnewline]
    refine .blank_ascii hsize ?_ (hwithin _ rest le_rfl)
    rintro rfl
    exact hnewline (by decide)

lemma blanks_block :
    Blanks (char :: rest) (stripCommentsFrom .block (char.val.toUInt8 :: encode rest)) := by
  have hbyte {bytes : List UInt8} (h : Blanks rest bytes) :
      Blanks (char :: rest) (blankByte char.val.toUInt8 :: bytes) := by
    by_cases hnewline : char.val.toUInt8 = newline
    · rw [blankByte, if_pos hnewline, ← hnewline]
      exact .keep_ascii hsize h
    · rw [blankByte_of_ne hnewline]
      refine .blank_ascii hsize ?_ h
      rintro rfl
      exact hnewline (by decide)
  cases rest with
  | nil => exact hbyte .nil
  | cons other behind =>
    obtain ⟨next, bytes, hnext⟩ := exists_encode_cons other behind
    rw [hnext, stripCommentsFrom]
    by_cases hend : char.val.toUInt8 = star ∧ next = slash
    · obtain ⟨rfl, rfl⟩ := eq_of_encode_cons hnext '/' (by decide) hend.2
      rw [if_pos hend]
      refine .blank_ascii hsize ?_
        (.blank_ascii (by decide) (by decide) (hwithin _ behind (by simp)))
      rintro rfl
      cases hend.1
    · rw [if_neg hend, ← hnext]
      exact hbyte (hwithin _ (other :: behind) le_rfl)

omit hwithin hsize

/-- The first pass keeps or blanks whole characters. -/
lemma blanksWithin (length : Nat) : BlanksWithin length := by
  induction length with
  | zero =>
    intro place chars hlength
    rw [length_eq_zero_iff.mp (Nat.le_zero.mp hlength)]
    cases place <;> exact .nil
  | succ length ih =>
    intro place chars hlength
    cases chars with
    | nil => cases place <;> exact .nil
    | cons char rest =>
      have hwithin : BlanksWithin rest.length := fun place other hother =>
        ih place other (hother.trans (Nat.le_of_succ_le_succ hlength))
      by_cases hsize : char.utf8Size = 1
      · rw [encode_cons, String.utf8EncodeChar_eq_singleton hsize, singleton_append]
        cases place with
        | text quoting => exact blanks_text hsize hwithin quoting
        | line => exact blanks_line hsize hwithin
        | block => exact blanks_block hsize hwithin
      · exact blanks_high hsize hwithin place

/-- The second pass keeps or blanks whole characters. -/
lemma blanks_stripCommas (quoting : Quoting) (chars : List Char) :
    Blanks chars (stripCommasFrom quoting (encode chars)) := by
  induction chars generalizing quoting with
  | nil => exact .nil
  | cons char rest ih =>
    by_cases hsize : char.utf8Size = 1
    · rw [encode_cons, String.utf8EncodeChar_eq_singleton hsize, singleton_append, stripCommasFrom]
      split_ifs with htrailing
      · refine .blank_ascii hsize ?_ (ih _)
        rintro rfl
        cases htrailing.2.1
      · exact .keep_ascii hsize (ih _)
    · have hhigh := le_of_mem_utf8EncodeChar hsize
      have hkeep (bytes : List UInt8) (hbytes : ∀ byte ∈ bytes, 128 ≤ byte) (quoting : Quoting) :
          stripCommasFrom quoting (bytes ++ encode rest) =
            bytes ++ stripCommasFrom (bytes.foldl next quoting) (encode rest) := by
        induction bytes generalizing quoting with
        | nil => rfl
        | cons byte bytes ih =>
          have hcomma : byte ≠ commaByte := by
            rintro rfl
            exact absurd (hbytes commaByte mem_cons_self) (by decide)
          rw [cons_append, stripCommas_cons fun _ heq => absurd heq hcomma,
            ih fun other hother => hbytes other (mem_cons_of_mem _ hother), foldl_cons,
            cons_append]
      rw [encode_cons, hkeep _ hhigh]
      exact .keep char (ih _)

/-- Both passes leave the bytes of characters that are kept or blanked. -/
lemma exists_sanitized (content : String) : ∃ chars, sanitizedBytes content = encode chars ∧
      Forall₂ SameLine (asBytes content) (encode chars) := by
  obtain ⟨stripped, hstripped, hfirst⟩ :=
    blanksWithin content.toList.length (.text .outside) content.toList le_rfl
  obtain ⟨chars, hchars, hsecond⟩ := blanks_stripCommas .outside stripped
  have hbytes : asBytes content = encode content.toList := toList_toUTF8 content
  refine ⟨chars, ?_, ?_⟩
  · rw [sanitizedBytes, stripJsoncComments, hbytes, ← hfirst, stripTrailingCommas, ← hsecond]
  · rw [hbytes]
    have htrans : ∀ {as bs cs : List UInt8}, Forall₂ SameLine as bs →
        Forall₂ SameLine bs cs → Forall₂ SameLine as cs := by
      intro as bs cs hleft hright
      induction hleft generalizing cs with
      | nil => exact hright
      | cons hhead _ ih =>
        cases hright with
        | cons hhead' htail => exact .cons (hhead.trans hhead') (ih htail)
    exact htrans hstripped.sameLine hchars.sameLine

lemma asBytes_sanitizeJsonc (content : String) :
    asBytes (sanitizeJsonc content) = sanitizedBytes content := by
  obtain ⟨chars, hchars, -⟩ := exists_sanitized content
  rw [sanitizeJsonc, hchars, fromUTF8_encode, getD_some, asBytes, toList_toUTF8,
    String.toList_ofList]

end

/-! ## Both passes over a text -/

lemma asBytes_injective {left right : String} (h : asBytes left = asBytes right) :
    left = right := by
  have hbytes : left.toUTF8 = right.toUTF8 := ByteArray.ext (Array.ext' h)
  exact String.toByteArray_inj.mp hbytes

variable {Value Key : Type*}

/-- A strict text is left alone. -/
lemma sanitizeJsonc_strict {reading : Reading Value Key} {content : String} {value : Value}
    (h : Reads reading (asBytes content) value) : sanitizeJsonc content = content := by
  obtain ⟨tokens, hsentence, hstrict⟩ := h
  apply asBytes_injective
  rw [asBytes_sanitizeJsonc, sanitizedBytes, stripJsoncComments_strict hstrict,
    stripTrailingCommas_strict hsentence.firm.1.chain hstrict]

/-- Comments and trailing commas leave the tokens. -/
lemma strict_sanitizeJsonc (hfits : tokens.IsChain Fits)
    {content : String} (h : Loose tokens (asBytes content)) :
    Strict tokens (asBytes (sanitizeJsonc content)) := by
  obtain ⟨loose, htrailing, hrow⟩ := h
  rw [asBytes_sanitizeJsonc]
  exact strict_stripTrailingCommas htrailing hfits (strict_stripJsoncComments hrow)

/-- **Removing comments and trailing commas keeps the meaning of a text**: the bytes decode, every
offset that ends a line still does and no other, a strict text is left alone, and of a text with
comments, white space and trailing commas the tokens of the original are left. -/
theorem sanitizeJsonc_keeps_meaning (reading : Reading Value Key) (content : String) :
    asBytes (sanitizeJsonc content) = sanitizedBytes content ∧
    (asBytes (sanitizeJsonc content)).length = (asBytes content).length ∧
    (∀ index : Nat, (asBytes (sanitizeJsonc content))[index]? = some newline ↔
      (asBytes content)[index]? = some newline) ∧
    (∀ value, Reads reading (asBytes content) value → sanitizeJsonc content = content) ∧
    ∀ tokens original value, Sentence reading tokens value → Strict tokens original →
      Loose tokens (asBytes content) → Strict tokens (asBytes (sanitizeJsonc content)) ∧
          Reads reading (asBytes (sanitizeJsonc content)) value := by
  have hsame : List.Forall₂ Utf8.SameLine (asBytes content)
      (asBytes (sanitizeJsonc content)) := by
    obtain ⟨chars, hchars, hsame⟩ := exists_sanitized content
    rwa [asBytes_sanitizeJsonc, hchars]
  refine ⟨asBytes_sanitizeJsonc content, hsame.length_eq.symm, fun index => ?_,
    fun value h => sanitizeJsonc_strict h, fun tokens original value hsentence _ hloose => ?_⟩
  · by_cases hindex : index < (asBytes content).length
    · have hindex' : index < (asBytes (sanitizeJsonc content)).length :=
        hsame.length_eq ▸ hindex
      rw [getElem?_eq_getElem hindex, getElem?_eq_getElem hindex', some.injEq, some.injEq]
      exact ((forall₂_iff_get.mp hsame).2 index hindex hindex').symm
    · rw [getElem?_eq_none (Nat.le_of_not_lt hindex),
        getElem?_eq_none (hsame.length_eq ▸ Nat.le_of_not_lt hindex)]
  · have hstrict := strict_sanitizeJsonc hsentence.firm.1.chain hloose
    exact ⟨hstrict, tokens, hsentence, hstrict⟩

example : sanitizedBytes "[/*,*/\"//\",]" = asBytes "[     \"//\" ]" := by decide +kernel

end Reposcout.Graph.Js
