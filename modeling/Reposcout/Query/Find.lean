import Reposcout.Model.Path

/-!
# Lexical search

The ranked matches of a search are admitted to its report one after the other, while the rendered
report keeps within the budgets.  The ranking, the renderer and the token counter are parameters.
-/

namespace Reposcout.Query

structure FindQueryOptions where
  limit : ℕ
  tokenBudget : ℕ
  byteBudget : ℕ

/-- A report; `header` is what the admission does not look at. -/
structure FindQueryReport (Header Hit : Type) where
  header : Header
  root : Option PathBuf
  rootOmitted : Bool
  limit : ℕ
  tokenBudget : ℕ
  byteBudget : ℕ
  totalMatches : ℕ
  returnedMatches : ℕ
  limitOmitted : ℕ
  budgetOmitted : ℕ
  hits : List Hit

structure FindRenderer (Header Hit : Type) where
  render : FindQueryReport Header Hit → Except String String
  count : String → ℕ

namespace FindRenderer

variable {Header Hit : Type} (renderer : FindRenderer Header Hit) (options : FindQueryOptions)

def fits (report : FindQueryReport Header Hit) : Except String Bool :=
  (renderer.render report).map fun rendered =>
    rendered.utf8ByteSize ≤ options.byteBudget && renderer.count rendered ≤ options.tokenBudget

/-- The candidate of the loop for its next hit. -/
def withHit (report : FindQueryReport Header Hit) (limitedMatches : ℕ) (hit : Hit) :
    FindQueryReport Header Hit :=
  let hits := report.hits ++ [hit]
  { report with
    hits := hits
    returnedMatches := hits.length
    budgetOmitted := limitedMatches - hits.length }

def withoutRoot (report : FindQueryReport Header Hit) : FindQueryReport Header Hit :=
  if report.root.isSome then { report with root := none, rootOmitted := true } else report

/-- The loop of `admit_matches`. -/
def admitHits (limitedMatches : ℕ) : List Hit → FindQueryReport Header Hit →
    Except String (FindQueryReport Header Hit)
  | [], report => .ok report
  | hit :: hits, report =>
    let candidate := withHit report limitedMatches hit
    match renderer.fits options candidate with
    | .error message => .error message
    | .ok true => admitHits limitedMatches hits candidate
    | .ok false =>
      match renderer.fits options (withoutRoot candidate) with
      | .error message => .error message
      | .ok true => admitHits limitedMatches hits (withoutRoot candidate)
      | .ok false => .ok report

def admitMatches (report : FindQueryReport Header Hit) (hits : List Hit) :
    Except String (FindQueryReport Header Hit) :=
  (renderer.fits options report).bind fun fitting =>
    let report := if fitting then report else { report with root := none, rootOmitted := true }
    match renderer.fits options report with
    | .error message => .error message
    | .ok true => renderer.admitHits options hits.length hits report
    | .ok false => .error "find budget cannot fit the status envelope"

/-- The report of `find` before any match is admitted. -/
def initialReport (header : Header) (root : Option PathBuf) (ranking : List Hit) :
    FindQueryReport Header Hit where
  header := header
  root := root
  rootOmitted := root.isNone
  limit := options.limit
  tokenBudget := options.tokenBudget
  byteBudget := options.byteBudget
  totalMatches := ranking.length
  returnedMatches := 0
  limitOmitted := ranking.length - (ranking.take options.limit).length
  budgetOmitted := (ranking.take options.limit).length
  hits := []

/-- The end of `find`, from the ranked matches on. -/
def find (header : Header) (root : Option PathBuf) (ranking : List Hit) :
    Except String (FindQueryReport Header Hit × String) :=
  match renderer.admitMatches options (initialReport options header root ranking)
      (ranking.take options.limit) with
  | .error message => .error message
  | .ok report =>
    match renderer.render report with
    | .error message => .error message
    | .ok rendered =>
      if rendered.utf8ByteSize ≤ options.byteBudget ∧
          renderer.count rendered ≤ options.tokenBudget then
        .ok (report, rendered)
      else .error "find output exceeded the validated budget"

end FindRenderer

end Reposcout.Query
