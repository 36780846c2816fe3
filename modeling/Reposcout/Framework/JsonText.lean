import Mathlib.Data.List.Chain

/-!
# JSON texts

The grammar of JSON on bytes, in two levels.  A text is a row of tokens with white space around
them; the tokens are a sentence that stands for a value.  The values are those of any type that
says how it reads literals, arrays and objects.

Texts written by hand also hold comments, and a comma before a closing bracket.  They are rows of
tokens with wider gaps.
-/

namespace JsonText

open List

/-! ## Bytes -/

def quote : UInt8 := 34
def backslash : UInt8 := 92
def slash : UInt8 := 47
def star : UInt8 := 42
def newline : UInt8 := 10
def space : UInt8 := 32
def commaByte : UInt8 := 44

def isWhite (byte : UInt8) : Bool := byte ∈ [32, 9, 10, 13]

def isDigit (byte : UInt8) : Bool := 48 ≤ byte && byte ≤ 57

def isHexDigit (byte : UInt8) : Bool :=
  isDigit byte || (65 ≤ byte && byte ≤ 70) || (97 ≤ byte && byte ≤ 102)

/-! ## Literals -/

inductive IsStringBody : List UInt8 → Prop
  | nil : IsStringBody []
  | plain {byte rest} : byte ≠ quote → byte ≠ backslash → 32 ≤ byte → IsStringBody rest →
      IsStringBody (byte :: rest)
  /-- One of `"`, `\`, `/`, `b`, `f`, `n`, `r`, `t` behind a backslash. -/
  | escape {byte rest} : byte ∈ [34, 92, 47, 98, 102, 110, 114, 116] → IsStringBody rest →
      IsStringBody (backslash :: byte :: rest)
  /-- `\u` and four digits. -/
  | unicode {a b c d rest} : isHexDigit a → isHexDigit b → isHexDigit c → isHexDigit d →
      IsStringBody rest → IsStringBody (backslash :: 117 :: a :: b :: c :: d :: rest)

def IsDigits (bytes : List UInt8) : Prop := bytes ≠ [] ∧ ∀ byte ∈ bytes, isDigit byte

/-- A sign, an integer without leading zeros, a fraction and an exponent. -/
def IsNumber (bytes : List UInt8) : Prop :=
  ∃ sign integer fraction exponent, bytes = sign ++ (integer ++ (fraction ++ exponent)) ∧
    (sign = [] ∨ sign = [45]) ∧
    (IsDigits integer ∧ (integer.head? = some 48 → integer = [48])) ∧
    (fraction = [] ∨ ∃ digits, IsDigits digits ∧ fraction = 46 :: digits) ∧
    (exponent = [] ∨ ∃ letter mark digits, letter ∈ [69, 101] ∧ mark ∈ [[], [43], [45]] ∧
      IsDigits digits ∧ exponent = letter :: (mark ++ digits))

/-- `true`, `false`, `null` or a number. -/
def IsScalar (bytes : List UInt8) : Prop :=
  bytes ∈ [[116, 114, 117, 101], [102, 97, 108, 115, 101], [110, 117, 108, 108]] ∨ IsNumber bytes

/-- A byte of a number or of a name. -/
def isScalarByte (byte : UInt8) : Bool :=
  isDigit byte || byte ∈ [43, 45, 46, 69] || (97 ≤ byte && byte ≤ 122)

/-! ## Tokens -/

inductive Token
  | openArray
  | closeArray
  | openObject
  | closeObject
  | colon
  | comma
  | text (body : List UInt8)
  | scalar (bytes : List UInt8)
  deriving DecidableEq

namespace Token

def bytes : Token → List UInt8
  | openArray => [91]
  | closeArray => [93]
  | openObject => [123]
  | closeObject => [125]
  | colon => [58]
  | comma => [commaByte]
  | text body => quote :: (body ++ [quote])
  | scalar bytes => bytes

/-- The literals of the grammar. -/
def Valid : Token → Prop
  | text body => IsStringBody body
  | scalar bytes => IsScalar bytes
  | _ => True

def closes : Token → Bool
  | closeArray | closeObject => true
  | _ => false

end Token

/-! ## Rows of tokens -/

inductive Row (Gap Tail : List UInt8 → Prop) : List Token → List UInt8 → Prop
  | stop {gap} : Tail gap → Row Gap Tail [] gap
  | token {gap token tokens text} : Gap gap → token.Valid → Row Gap Tail tokens text →
      Row Gap Tail (token :: tokens) (gap ++ (token.bytes ++ text))

def IsWhite (gap : List UInt8) : Prop := ∀ byte ∈ gap, isWhite byte

abbrev Strict : List Token → List UInt8 → Prop := Row IsWhite IsWhite

/-! ## Sentences -/

structure Reading (Value Key : Type*) where
  scalar : List UInt8 → Option Value
  text : List UInt8 → Option Value
  key : List UInt8 → Option Key
  array : List Value → Value
  object : List (Key × Value) → Value

/-- A member of an object: its key as it is written and read, its tokens and its value. -/
structure Member (Value Key : Type*) where
  body : List UInt8
  key : Key
  tokens : List Token
  value : Value

namespace Member

variable {Value Key : Type*}

def row (member : Member Value Key) : List Token := .text member.body :: .colon :: member.tokens

end Member

variable {Value Key : Type*}

/-- Rows with a comma between each two. -/
def separated (rows : List (List Token)) : List Token := [Token.comma].intercalate rows

inductive Sentence (reading : Reading Value Key) : List Token → Value → Prop
  | scalar {bytes value} : reading.scalar bytes = some value → Sentence reading [.scalar bytes] value
  | text {body value} : reading.text body = some value → Sentence reading [.text body] value
  | array (items : List (List Token × Value)) : (∀ item ∈ items, Sentence reading item.1 item.2) →
      Sentence reading (.openArray :: (separated (items.map Prod.fst) ++ [.closeArray]))
        (reading.array (items.map Prod.snd))
  | object (members : List (Member Value Key)) :
      (∀ member ∈ members, reading.key member.body = some member.key) →
      (∀ member ∈ members, Sentence reading member.tokens member.value) →
      Sentence reading (.openObject :: (separated (members.map Member.row) ++ [.closeObject]))
        (reading.object (members.map fun member => (member.key, member.value)))

/-- **What a strict text stands for.** -/
def Reads (reading : Reading Value Key) (text : List UInt8) (value : Value) : Prop :=
  ∃ tokens, Sentence reading tokens value ∧ Strict tokens text

/-! ## Comments and trailing commas -/

/-- White space, line comments with the end of their line, and block comments. -/
inductive IsTrivia : List UInt8 → Prop
  | nil : IsTrivia []
  | white {byte rest} : isWhite byte → IsTrivia rest → IsTrivia (byte :: rest)
  | line {body rest} : newline ∉ body → IsTrivia rest →
      IsTrivia (slash :: slash :: (body ++ newline :: rest))
  | block {body rest} : ¬ [star, slash] <:+: body → IsTrivia rest →
      IsTrivia (slash :: star :: (body ++ star :: slash :: rest))

/-- The last gap of a text, where a comment may run to the end. -/
inductive IsEnding : List UInt8 → Prop
  | finished {gap} : IsTrivia gap → IsEnding gap
  | line {gap body} : IsTrivia gap → newline ∉ body → IsEnding (gap ++ slash :: slash :: body)
  | block {gap body} : IsTrivia gap → ¬ [star, slash] <:+: body →
      IsEnding (gap ++ slash :: star :: body)

/-- A row of tokens with at most one more comma before each closing bracket. -/
inductive Trailing : List Token → List Token → Prop
  | nil : Trailing [] []
  | keep {tokens loose} (token : Token) : Trailing tokens loose →
      Trailing (token :: tokens) (token :: loose)
  | comma {tokens loose} (token : Token) : token.closes → Trailing tokens loose →
      Trailing (token :: tokens) (.comma :: token :: loose)

/-- The tokens of a text with comments and trailing commas. -/
def Loose (tokens : List Token) (text : List UInt8) : Prop :=
  ∃ loose, Trailing tokens loose ∧ Row IsTrivia IsEnding loose text

/-! ## Laws -/

lemma isScalarByte_of_isDigit {byte : UInt8} (h : isDigit byte) : isScalarByte byte := by
  simp [isScalarByte, h]

namespace IsDigits

variable {bytes : List UInt8}

lemma isScalarByte (h : IsDigits bytes) : ∀ byte ∈ bytes, JsonText.isScalarByte byte :=
  fun byte hbyte => isScalarByte_of_isDigit (h.2 byte hbyte)

end IsDigits

namespace IsNumber

lemma ne_nil (h : IsNumber bytes) : bytes ≠ [] := by
  obtain ⟨sign, integer, fraction, exponent, rfl, -, ⟨hinteger, -⟩, -, -⟩ := h
  simp [hinteger.1]

lemma isScalarByte (h : IsNumber bytes) : ∀ byte ∈ bytes, JsonText.isScalarByte byte := by
  obtain ⟨sign, integer, fraction, exponent, rfl, hsign, ⟨hinteger, -⟩, hfraction, hexponent⟩ := h
  intro byte hbyte
  simp only [mem_append] at hbyte
  rcases hbyte with hbyte | hbyte | hbyte | hbyte
  · rcases hsign with rfl | rfl
    · simp at hbyte
    · obtain rfl : byte = 45 := by simpa using hbyte
      decide
  · exact hinteger.isScalarByte byte hbyte
  · rcases hfraction with rfl | ⟨digits, hdigits, rfl⟩
    · simp at hbyte
    · rcases mem_cons.mp hbyte with rfl | hbyte
      · decide
      · exact hdigits.isScalarByte byte hbyte
  · rcases hexponent with rfl | ⟨letter, mark, digits, hletter, hmark, hdigits, rfl⟩
    · simp at hbyte
    · rcases mem_cons.mp hbyte with rfl | hbyte
      · simp only [mem_cons, not_mem_nil, or_false] at hletter
        rcases hletter with rfl | rfl <;> decide
      · rcases mem_append.mp hbyte with hbyte | hbyte
        · simp only [mem_cons, not_mem_nil, or_false] at hmark
          rcases hmark with rfl | rfl | rfl
          · simp at hbyte
          · obtain rfl : byte = 43 := by simpa using hbyte
            decide
          · obtain rfl : byte = 45 := by simpa using hbyte
            decide
        · exact hdigits.isScalarByte byte hbyte

end IsNumber

namespace IsScalar

lemma ne_nil (h : IsScalar bytes) : bytes ≠ [] := by
  rcases h with h | h
  · rintro rfl
    simp at h
  · exact h.ne_nil

lemma isScalarByte (h : IsScalar bytes) : ∀ byte ∈ bytes, JsonText.isScalarByte byte := by
  rcases h with h | h
  · simp only [mem_cons, not_mem_nil, or_false] at h
    rcases h with rfl | rfl | rfl <;> exact List.all_eq_true.mp (by decide)
  · exact h.isScalarByte

end IsScalar

namespace IsWhite

lemma replicate (count : Nat) : IsWhite (List.replicate count space) := by
  intro byte hbyte
  rw [eq_of_mem_replicate hbyte]
  decide

lemma append {left right : List UInt8} (hleft : IsWhite left) (hright : IsWhite right) :
    IsWhite (left ++ right) := by
  intro byte hbyte
  rcases mem_append.mp hbyte with hbyte | hbyte
  · exact hleft byte hbyte
  · exact hright byte hbyte

lemma cons {byte : UInt8} {rest : List UInt8} (hbyte : isWhite byte) (h : IsWhite rest) :
    IsWhite (byte :: rest) := by
  intro other hother
  rcases mem_cons.mp hother with rfl | hother
  · exact hbyte
  · exact h other hother

end IsWhite

/-! ### Commas of a sentence -/

/-- No comma stands before a closing bracket. -/
def Fits (left right : Token) : Prop := left = .comma → right.closes = false

/-- A row that may stand between commas and brackets. -/
structure Firm (tokens : List Token) : Prop where
  chain : tokens.IsChain Fits
  head : ∀ token ∈ tokens.head?, token.closes = false
  last : ∀ token ∈ tokens.getLast?, token ≠ .comma

namespace Firm

lemma singleton {token : Token} (hcloses : token.closes = false) (hcomma : token ≠ .comma) :
    Firm [token] where
  chain := isChain_singleton _
  head := by simpa using hcloses
  last := by simpa using hcomma

lemma comma {left right : List Token} (hleft : Firm left) (hleft' : left ≠ [])
    (hright : Firm right) (hright' : right ≠ []) : Firm (left ++ .comma :: right) where
  chain := by
    refine isChain_append.mpr ⟨hleft.chain, ?_, fun x hx _ _ hcomma =>
      absurd hcomma (hleft.last x hx)⟩
    exact isChain_cons.mpr ⟨fun y hy _ => hright.head y hy, hright.chain⟩
  head := by
    rw [head?_append_of_ne_nil _ hleft']
    exact hleft.head
  last := by
    rw [getLast?_append_of_ne_nil _ (cons_ne_nil _ _), getLast?_cons_of_ne_nil hright']
    exact hright.last

lemma enclose {first last : Token} {tokens : List Token} (h : Firm tokens)
    (hfirst : first.closes = false) (hfirst' : first ≠ .comma) (hlast : last ≠ .comma) :
    Firm (first :: (tokens ++ [last])) where
  chain := by
    refine isChain_cons.mpr ⟨fun _ _ hcomma => absurd hcomma hfirst', ?_⟩
    exact isChain_append.mpr ⟨h.chain, isChain_singleton _, fun x hx _ _ hcomma =>
      absurd hcomma (h.last x hx)⟩
  head := by simpa using hfirst
  last := by
    intro token htoken
    rw [← cons_append, getLast?_concat] at htoken
    exact Option.some.inj htoken ▸ hlast

lemma separated {rows : List (List Token)} (h : ∀ row ∈ rows, Firm row ∧ row ≠ []) :
    Firm (JsonText.separated rows) ∧ (rows ≠ [] → JsonText.separated rows ≠ []) := by
  induction rows with
  | nil => exact ⟨⟨isChain_nil, by simp [JsonText.separated], by simp [JsonText.separated]⟩,
      fun hne => absurd rfl hne⟩
  | cons row rest ih =>
    obtain ⟨hrow, hne⟩ := h row mem_cons_self
    obtain ⟨hrest, hrest'⟩ := ih fun other hother => h other (mem_cons_of_mem _ hother)
    cases rest with
    | nil =>
      rw [JsonText.separated, intercalate_singleton]
      exact ⟨hrow, fun _ => hne⟩
    | cons next rest =>
      rw [JsonText.separated, intercalate_cons_cons, append_assoc, singleton_append]
      exact ⟨hrow.comma hne hrest (hrest' (cons_ne_nil _ _)), fun _ => by simp⟩

end Firm

lemma Sentence.firm {reading : Reading Value Key} {tokens : List Token} {value : Value}
    (h : Sentence reading tokens value) : Firm tokens ∧ tokens ≠ [] := by
  induction h with
  | scalar _ | text _ => exact ⟨.singleton rfl Token.noConfusion, cons_ne_nil _ _⟩
  | array items _ ih =>
    refine ⟨(Firm.separated ?_).1.enclose rfl Token.noConfusion Token.noConfusion, cons_ne_nil _ _⟩
    intro row hrow
    obtain ⟨item, hitem, rfl⟩ := List.mem_map.mp hrow
    exact ih item hitem
  | object members _ _ ih =>
    refine ⟨(Firm.separated ?_).1.enclose rfl Token.noConfusion Token.noConfusion, cons_ne_nil _ _⟩
    intro row hrow
    obtain ⟨member, hmember, rfl⟩ := List.mem_map.mp hrow
    obtain ⟨hfirm, hne⟩ := ih member hmember
    refine ⟨⟨?_, by simp [Member.row, Token.closes], ?_⟩, cons_ne_nil _ _⟩
    · refine isChain_cons.mpr ⟨fun _ _ => Token.noConfusion, ?_⟩
      exact isChain_cons.mpr ⟨fun _ _ => Token.noConfusion, hfirm.chain⟩
    · intro token htoken
      refine hfirm.last token ?_
      rwa [Member.row, getLast?_cons_cons, getLast?_cons_of_ne_nil hne] at htoken

end JsonText
