import Mathlib.Algebra.Order.Ring.Unbundled.Rat
import Reposcout.Dup.Seeds

/-!
# Verification of a renamed candidate

A candidate pair of the fuzzy (Type-2) detector is verified token by token.  Identifiers must
be renamed consistently in both directions, literals may change their value, everything else
must be equal; each accepted pair of tokens earns a credit, and a match qualifies while the
credit per token stays at the threshold.  `maximalQualifiedMatch` grows a verified seed to
both sides and returns the last extent that qualified.

The arithmetic of the credits is a parameter (`Score`): the source computes in `f64`, the
exact rationals are the instance the results about reported similarities are stated for.  The
source verifies under an observer that counts comparisons; an observer is a function on an
arbitrary state here, threaded through in the order of the calls.
-/

namespace Reposcout.Dup.Fuzzy

/-! ## Similarity arithmetic -/

/-- The operations on similarities.  Nothing is assumed about them, so that rounding
arithmetic is an instance. -/
class Score (S : Type) where
  zero : S
  exactCredit : S
  renamedIdentifierCredit : S
  changedLiteralCredit : S
  add : S → S → S
  /-- `score / usize_to_f64(len)` -/
  perToken : S → Nat → S
  /-- `a < b` -/
  below : S → S → Bool
  /-- `a >= b` -/
  atLeast : S → S → Bool
  totalCmp : S → S → Ordering
  /-- Clamp to the unit interval. -/
  normalizeThreshold : S → S

instance : Score ℚ where
  zero := 0
  exactCredit := 1
  renamedIdentifierCredit := 4 / 5
  changedLiteralCredit := 7 / 10
  add := (· + ·)
  perToken score len := score / len
  below a b := a < b
  atLeast a b := b ≤ a
  totalCmp := compare
  normalizeThreshold value := max 0 (min value 1)

/-! ## Identifier renaming -/

/-- The pair-local identifier mapping, kept in both directions. -/
structure Bijection where
  forward : List (String × String)
  reverse : List (String × String)

/-- `Bijection::default()`. -/
def Bijection.empty : Bijection := ⟨[], []⟩

/-- The mapping with a pair of names reserved, or `none` when either name is already paired
with another one. -/
def Bijection.acceptIdentifier (m : Bijection) (left right : String) : Option Bijection :=
  if (KeyedList.get? left m.forward).any (fun existing => existing ≠ right)
      || (KeyedList.get? right m.reverse).any (fun existing => existing ≠ left) then none
  else
    some {
      forward := KeyedList.alter left (fun o => o.getD right) m.forward
      reverse := KeyedList.alter right (fun o => o.getD left) m.reverse }

/-! ## Observers -/

structure VerificationObserver (ω : Type) where
  compared : ω → ω

def noVerification : VerificationObserver Unit := ⟨id⟩

def progressCheckEvery : Nat := 16384

/-- Count the comparisons and report every `progressCheckEvery`-th of them. -/
def countingVerification {σ : Type} (progress : Nat → σ → σ) :
    VerificationObserver (Nat × σ) where
  compared := fun (completed, s) =>
    let completed := satAdd completed 1
    (completed, if completed % progressCheckEvery = 0 then progress completed s else s)

section

variable {S ω : Type} [Score S]

/-- Validate one shape-compatible pair and return its similarity credit, with the mapping
after it.  Equal identifier spellings still reserve both sides of the bijection. -/
def acceptPair (left right : Token) (mapping : Bijection) : Option (S × Bijection) :=
  if !left.shapeEq right then none
  else
    match left.kind, right.kind with
    | .identifier, .identifier =>
      match mapping.acceptIdentifier left.text right.text with
      | none => none
      | some mapping =>
        some (if left.text = right.text then Score.exactCredit
          else Score.renamedIdentifierCredit, mapping)
    | .literal _, .literal _ =>
      some (if left.text = right.text then Score.exactCredit
        else Score.changedLiteralCredit, mapping)
    | _, _ => if left.exactEq right then some (Score.exactCredit, mapping) else none

/-- The seed loop: the score and the mapping of a window, unless one of its pairs is not
accepted. -/
def scoreSeed (verification : VerificationObserver ω) :
    List (Token × Token) → S → Bijection → ω → Option (S × Bijection) × ω
  | [], score, mapping, w => (some (score, mapping), w)
  | (left, right) :: rest, score, mapping, w =>
    match acceptPair left right mapping with
    | none => (none, verification.compared w)
    | some (credit, mapping) =>
      scoreSeed verification rest (Score.add score credit) mapping (verification.compared w)

/-- The `best` tuple of the source. -/
structure QualifiedMatch (S : Type) where
  aStart : Nat
  bStart : Nat
  len : Nat
  similarity : S

/-- The state of the growth loops. -/
structure Growth (S : Type) where
  aStart : Nat
  bStart : Nat
  len : Nat
  score : S
  mapping : Bijection
  best : QualifiedMatch S

/-- The region after one more accepted pair, `back` tokens further to the left. -/
def Growth.accept (g : Growth S) (threshold : S) (back : Nat) (credit : S)
    (mapping : Bijection) : Growth S :=
  let aStart := g.aStart - back
  let bStart := g.bStart - back
  let len := g.len + 1
  let score := Score.add g.score credit
  let similarity := Score.perToken score len
  { aStart, bStart, len, score, mapping
    best := if Score.atLeast similarity threshold then ⟨aStart, bStart, len, similarity⟩
      else g.best }

/-- Both growth loops: `pairs` are the neighbouring tokens in the order the loop meets them,
and `back` is one to the left and zero to the right.  In one file the region stops growing at
the distance of its two sides. -/
def grow (verification : VerificationObserver ω) (sameFile : Bool) (distance : Nat)
    (threshold : S) (back : Nat) : List (Token × Token) → Growth S → ω → Growth S × ω
  | [], g, w => (g, w)
  | (left, right) :: rest, g, w =>
    if sameFile ∧ g.len + 1 > distance then (g, w)
    else
      match acceptPair left right g.mapping with
      | none => (g, verification.compared w)
      | some (credit, mapping) =>
        grow verification sameFile distance threshold back rest
          (g.accept threshold back credit mapping) (verification.compared w)

def maximalQualifiedMatch (verification : VerificationObserver ω)
    (prepared : List PreparedFile) (a b : Occurrence) (seedLen : Nat) (threshold : S) (w : ω) :
    Option (QualifiedMatch S) × ω :=
  match prepared[a.file]?, prepared[b.file]? with
  | some aSource, some bSource =>
    let leftTokens := aSource.tokens
    let rightTokens := bSource.tokens
    let sameFile : Bool := a.file = b.file
    let distance := absDiff a.start b.start
    if sameFile ∧ (distance = 0 ∨ seedLen > distance) then (none, w)
    else
      match scoreSeed verification
          (((leftTokens.drop a.start).take seedLen).zip ((rightTokens.drop b.start).take seedLen))
          Score.zero Bijection.empty w with
      | (none, w) => (none, w)
      | (some (score, mapping), w) =>
        if Score.below (Score.perToken score seedLen) threshold then (none, w)
        else
          let seed : Growth S :=
            { aStart := a.start, bStart := b.start, len := seedLen, score, mapping
              best := ⟨a.start, b.start, seedLen, Score.perToken score seedLen⟩ }
          let (g, w) := grow verification sameFile distance threshold 1
            ((leftTokens.take a.start).reverse.zip (rightTokens.take b.start).reverse) seed w
          let (g, w) := grow verification sameFile distance threshold 0
            ((leftTokens.drop (g.aStart + g.len)).zip (rightTokens.drop (g.bStart + g.len))) g w
          (some g.best, w)
  | _, _ => (none, w)

/-- The short-circuiting token comparison of `originalsEqual`. -/
def allExactEq (verification : VerificationObserver ω) : List (Token × Token) → ω → Bool × ω
  | [], w => (true, w)
  | (a, b) :: rest, w =>
    if a.exactEq b then allExactEq verification rest (verification.compared w)
    else (false, verification.compared w)

def originalsEqual (verification : VerificationObserver ω) (prepared : List PreparedFile)
    (r : Region) (w : ω) : Bool × ω :=
  allExactEq verification
    ((((tokensOf prepared r.aFile).drop r.aStart).take r.len).zip
      (((tokensOf prepared r.bFile).drop r.bStart).take r.len)) w

end

end Reposcout.Dup.Fuzzy
