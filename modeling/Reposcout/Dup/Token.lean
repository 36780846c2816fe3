import Reposcout.Model.Machine
import Reposcout.Model.Path
import Reposcout.Model.Text

/-!
# Duplication tokens and their hashes

The structured lexical token of the duplication corpus, its two equalities (exact text, and
shape up to identifier names and literal values), the token hashes built on them, and the
rolling window hash both detectors index by.

The byte hash `xxh3_64` is an external function, so every hash here takes it as a parameter.
Nothing proved downstream assumes anything about it: in particular it may collide.
-/

/-!
## The fallback scanner

`tokenize_unscoped`: the scanner for texts of unknown language, without the whitespace between the
tokens.  No comments are known to it.  Only the texts of the tokens and their bytes are kept, since
the callers of this entry point read nothing else.

A token is cut off the front of the remaining text, so each function here takes that text and
returns a number of its characters.
-/

namespace Reposcout.Dup

/-- A token's text and its bytes, half-open. -/
structure Lexeme where
  text : String
  start : ℕ
  stop : ℕ

/-! ## Strings -/

/-- The loop of `take_string`, behind the opening delimiter. -/
def takeStringLoop (triple : Bool) (quote : Char) : Bool → List Char → ℕ
  | _, [] => 0
  | escaped, c :: rest =>
    if triple && (List.replicate 3 quote).isPrefixOf (c :: rest) then 3
    else if !triple && c = quote && !escaped then 1
    else 1 + takeStringLoop triple quote (c = '\\' && !escaped) rest

/-- `take_string`: a string without its end takes the whole text. -/
def takeString (quote : Char) (source : List Char) : ℕ :=
  let triple := quote ≠ '`' && (List.replicate 3 quote).isPrefixOf source
  let delimiter := if triple then 3 else 1
  delimiter + takeStringLoop triple quote false (source.drop delimiter)

/-! ## Numbers -/

def isDigit (radix : ℕ) (c : Char) : Bool :=
  let n := c.toNat
  if '0' ≤ c ∧ c ≤ '9' then n - '0'.toNat < radix
  else if 'a' ≤ c ∧ c ≤ 'z' then n - 'a'.toNat + 10 < radix
  else if 'A' ≤ c ∧ c ≤ 'Z' then n - 'A'.toNat + 10 < radix
  else false

def takeRadixDigits (radix : ℕ) (source : List Char) : ℕ :=
  (source.takeWhile fun c => c = '_' || isDigit radix c).length

/-- The radix that a number announces, and the length of the announcement. -/
def radixOf : List Char → ℕ × ℕ
  | '0' :: c :: _ =>
    if c = 'x' ∨ c = 'X' then (16, 2)
    else if c = 'b' ∨ c = 'B' then (2, 2)
    else if c = 'o' ∨ c = 'O' then (8, 2)
    else (10, 0)
  | _ => (10, 0)

def isExponentMarker (radix : ℕ) (c : Char) : Bool :=
  if radix = 10 then c = 'e' || c = 'E' else if radix = 16 then c = 'p' || c = 'P' else false

/-- The end of an exponent that may start at `i`. -/
def takeExponent (radix : ℕ) (source : List Char) (i : ℕ) : ℕ :=
  if (source[i]?).any (isExponentMarker radix) then
    let signed := (source[i + 1]?).any fun c => c = '+' || c = '-'
    let exponent := if signed then i + 2 else i + 1
    let stop := exponent + takeRadixDigits 10 (source.drop exponent)
    -- Underscores alone are no exponent.
    if ((source.take stop).drop exponent).any (isDigit 10) then stop else i
  else i

/-- `take_number`, with a suffix such as `u64`. -/
def takeNumber (source : List Char) : ℕ :=
  let (radix, announced) := radixOf source
  let whole := announced + takeRadixDigits radix (source.drop announced)
  let mantissa :=
    if source[whole]? = some '.' ∧ source[whole + 1]? ≠ some '.' then
      whole + 1 + takeRadixDigits radix (source.drop (whole + 1))
    else whole
  let stop := takeExponent radix source mantissa
  stop + ((source.drop stop).takeWhile fun c => c.isAlphanum || c = '_').length

/-! ## The scanner -/

/-- `OPERATORS`, the longer ones of a common start first. -/
def operators : List String :=
  [">>>=", "<<=", ">>=", "**=", "...", "===", "!==", "=>", "->", "::", "==", "!=", "<=", ">=",
    "&&", "||", "++", "--", "+=", "-=", "*=", "/=", "%=", "&=", "|=", "^=", "<<", ">>", "**",
    "??", "?.", "..", ":=", "<-"]

/-- `matching_operator`, as its length. -/
def matchingOperator (source : List Char) : Option ℕ :=
  (operators.find? fun operator => operator.toList.isPrefixOf source).map String.length

def isIdentifierStart (classes : CharClasses) (c : Char) : Bool :=
  classes.alphabetic c || c = '_' || c = '$'

def isIdentifierContinue (classes : CharClasses) (c : Char) : Bool :=
  classes.alphanumeric c || c = '_' || c = '$'

/-- The length of the token, or of the whitespace, that starts with `c`. -/
def takeToken (classes : CharClasses) (c : Char) (rest : List Char) : ℕ :=
  let source := c :: rest
  if isWhitespace c then (source.takeWhile isWhitespace).length
  else if c = '\'' ∨ c = '"' ∨ c = '`' then takeString c source
  else if '0' ≤ c ∧ c ≤ '9' then takeNumber source
  else if isIdentifierStart classes c then (source.takeWhile (isIdentifierContinue classes)).length
  else (matchingOperator source).getD 1

/-- The loop of `tokenize_generic` from a byte offset.  A token has a character, so as many turns
as there are characters are enough. -/
def tokenizeFrom (classes : CharClasses) : ℕ → ℕ → List Char → List Lexeme
  | 0, _, _ => []
  | _, _, [] => []
  | fuel + 1, offset, c :: rest =>
    let length := takeToken classes c rest
    let text := (c :: rest).take length
    let stop := offset + utf8Length text
    let next := tokenizeFrom classes fuel stop ((c :: rest).drop length)
    if isWhitespace c then next else ⟨String.ofList text, offset, stop⟩ :: next

def tokenizeUnscoped (classes : CharClasses) (source : String) : List Lexeme :=
  tokenizeFrom classes source.toList.length 0 source.toList

inductive LiteralKind where
  | string | character | integer | float | boolean | null
  deriving DecidableEq

inductive TokenKind where
  | keyword | identifier | literal (kind : LiteralKind)
  | operator | punctuation | comment | whitespace | other
  deriving DecidableEq

/-- A structured lexical token with precise source coordinates.  Columns are one-based with
an exclusive end, byte offsets are zero-based half-open. -/
structure Token where
  kind : TokenKind
  text : String
  line : Nat
  endLine : Nat
  startColumn : Nat
  endColumn : Nat
  startByte : Nat
  endByte : Nat
  deriving DecidableEq

/-! ## Equality of tokens -/

def Token.exactEq (t other : Token) : Bool :=
  t.kind = other.kind && t.text = other.text

def Token.shapeEq (t other : Token) : Bool :=
  match t.kind, other.kind with
  | .identifier, .identifier => true
  | .literal a, .literal b => a = b
  | _, _ => t.exactEq other

lemma Token.exactEq_iff {t other : Token} :
    t.exactEq other = true ↔ t.kind = other.kind ∧ t.text = other.text := by
  simp [Token.exactEq]

lemma Token.exactEq_comm (t other : Token) : t.exactEq other = other.exactEq t := by
  rw [Bool.eq_iff_iff, exactEq_iff, exactEq_iff, eq_comm, @eq_comm _ t.text]

/-! ## Token hashes -/

def literalLabel : LiteralKind → String
  | .string => "$STRING"
  | .character => "$CHARACTER"
  | .integer => "$INTEGER"
  | .float => "$FLOAT"
  | .boolean => "$BOOLEAN"
  | .null => "$NULL"

def kindDiscriminant : TokenKind → UInt8
  | .keyword => 1
  | .identifier => 2
  | .literal _ => 3
  | .operator => 4
  | .punctuation => 5
  | .comment => 6
  | .whitespace => 7
  | .other => 8

def literalDiscriminant : LiteralKind → UInt8
  | .string => 1
  | .character => 2
  | .integer => 3
  | .float => 4
  | .boolean => 5
  | .null => 6

section

variable (xxh3_64 : List UInt8 → UInt64)

def tokenHash (kind : TokenKind) (value : String) : UInt64 :=
  let literal := match kind with
    | .literal l => [literalDiscriminant l]
    | _ => []
  xxh3_64 (kindDiscriminant kind :: literal ++ value.toUTF8.data.toList)

def Token.exactHash (t : Token) : UInt64 := tokenHash xxh3_64 t.kind t.text

def Token.shapeHash (t : Token) : UInt64 :=
  match t.kind with
  | .identifier => tokenHash xxh3_64 t.kind "$IDENTIFIER"
  | .literal l => tokenHash xxh3_64 t.kind (literalLabel l)
  | _ => tokenHash xxh3_64 t.kind t.text

end

/-! ## The rolling window hash -/

def rollingBase : UInt64 := 0x9e3779b185ebca87

def windowHash (hashes : List UInt64) : UInt64 :=
  hashes.foldl (fun hash token => hash * rollingBase + token) 0

/-- `rolling_power`: the square-and-multiply loop, one iteration for each bit of the
exponent.  The first argument only bounds the number of iterations; the exponent halves in
each, so it is never reached. -/
def rollingPowerLoop : Nat → UInt64 → UInt64 → Nat → UInt64
  | 0, _, power, _ => power
  | fuel + 1, base, power, exponent =>
    if exponent = 0 then power
    else
      rollingPowerLoop fuel (base * base) (if exponent % 2 = 1 then power * base else power)
        (exponent / 2)

def rollingPower (window : Nat) : UInt64 :=
  rollingPowerLoop (window - 1) rollingBase 1 (window - 1)

def rollWindow (hash outgoing incoming power : UInt64) : UInt64 :=
  (hash - outgoing * power) * rollingBase + incoming

/-- The rolling hashes of all windows of a token hash list: the first is hashed from
scratch, each later one is rolled from its predecessor by the outgoing and the incoming
token. -/
def rolledHashes (hashes : List UInt64) (window : Nat) : List UInt64 :=
  let power := rollingPower window
  let first := windowHash (hashes.take window)
  ((hashes.zip (hashes.drop window)).scanl
    (fun hash io => rollWindow hash io.1 io.2 power) first)

/-! ## Bounded predecessor sampling -/

/-- Bound pathological hash buckets while keeping both stable early anchors and recent
occurrences: up to eight of the first predecessors, then the most recent ones. -/
def predecessorIndices (right maximum : Nat) : List Nat :=
  let early := min (min 8 maximum) right
  let recentCapacity := maximum - early
  let recentStart := if right > maximum then right - recentCapacity else early
  List.range early ++ List.range' recentStart (right - recentStart)

/-- `predecessor_indices` again, which panics if its subtraction goes below zero. -/
def predecessorIndicesChecked (right maximum : Nat) : Option (List Nat) :=
  let early := min (min 8 maximum) right
  let recentCapacity := maximum - early
  (if right > maximum then checkedSub right recentCapacity else some early).map fun recentStart =>
    List.range early ++ List.range' recentStart (right - recentStart)

lemma lt_of_mem_predecessorIndices {right maximum i : Nat}
    (h : i ∈ predecessorIndices right maximum) : i < right := by
  simp only [predecessorIndices, List.mem_append, List.mem_range, List.mem_range'_1] at h
  omega

end Reposcout.Dup
