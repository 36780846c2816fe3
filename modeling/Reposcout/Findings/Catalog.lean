import Mathlib.Algebra.Order.Field.Basic
import Reposcout.Framework.KeyedList
import Reposcout.Model.Path

/-!
# Finding catalogs and their comparison

A catalog lists canonical findings.  `compare` indexes both sides by fingerprint, where a
later record replaces an earlier one, and reports each fingerprint whose finding appeared,
disappeared or changed its severity metrics.

Metrics are values of an ordered field `K`: the source compares `f64` metrics by their total
order and risk scores with a tolerance of one hundredth.
-/

namespace Reposcout.Findings

open KeyedList

structure FindingLocation where
  path : PathBuf
  startLine : Nat
  endLine : Nat
  startColumn : Option Nat := none
  endColumn : Option Nat := none
  deriving DecidableEq

/-- One canonical finding.  `kind` is `complexity`, `marker`, `duplication` or `risk`; a saved
catalog may hold any text. -/
structure FindingRecord (K : Type) where
  fingerprint : String
  identity : String
  kind : String
  severity : String
  message : String
  primaryLocation : FindingLocation
  relatedLocations : List FindingLocation
  metrics : List (String × K)
  deriving DecidableEq

structure FindingCatalog (K : Type) where
  version : Nat
  findings : List (FindingRecord K)

inductive ChangeState where
  | new | worsened | improved | resolved
  deriving DecidableEq

structure FindingChange (K : Type) where
  state : ChangeState
  before : Option (FindingRecord K)
  after : Option (FindingRecord K)
  deriving DecidableEq

structure FindingChangeCounts where
  new : Nat := 0
  resolved : Nat := 0
  worsened : Nat := 0
  improved : Nat := 0
  deriving DecidableEq

structure FindingDelta (K : Type) where
  comparison : String
  reason : Option String
  counts : FindingChangeCounts
  changes : List (FindingChange K)

variable {K : Type}

def unavailable (reason : String) : FindingDelta K :=
  ⟨"unavailable", some reason, {}, []⟩

/-! ## Severity -/

section

variable [Field K] [LinearOrder K]

def metric (finding : FindingRecord K) (name : String) : K :=
  (get? name finding.metrics).getD 0

/-- The first metric that differs decides. -/
def compareMetricTuple (before after : FindingRecord K) : List String → Ordering
  | [] => .eq
  | name :: names =>
    match Ord.compare (metric after name) (metric before name) with
    | .eq => compareMetricTuple before after names
    | ordering => ordering

def compareSeverity (before after : FindingRecord K) : Ordering :=
  if after.kind = "complexity" then
    compareMetricTuple before after ["cyclomatic", "cognitive", "max_nesting"]
  else if after.kind = "duplication" then
    compareMetricTuple before after ["removable_lines", "copies", "tokens"]
  else if after.kind = "risk" then
    if |metric after "score" - metric before "score"| < 1 / 100 then .eq
    else Ord.compare (metric after "score") (metric before "score")
  else .eq

end

/-! ## Comparison -/

/-- The records of a catalog by fingerprint, in the order of the fingerprints.  A later record
replaces an earlier one. -/
def byId (catalog : FindingCatalog K) : List (String × FindingRecord K) :=
  sortBy (fun a b => Ord.compare a.1 b.1)
    (indexBy FindingRecord.fingerprint catalog.findings)

section

variable [Field K] [LinearOrder K]

/-- The change of a fingerprint of the later catalog. -/
def currentChange (beforeById : List (String × FindingRecord K))
    (entry : String × FindingRecord K) : Option (FindingChange K) :=
  let (fingerprint, current) := entry
  match get? fingerprint beforeById with
  | none => some ⟨.new, none, some current⟩
  | some previous =>
    match compareSeverity previous current with
    | .gt => some ⟨.worsened, some previous, some current⟩
    | .lt => some ⟨.improved, some previous, some current⟩
    | .eq => none

/-- The change of a fingerprint of the earlier catalog. -/
def previousChange (afterById : List (String × FindingRecord K))
    (entry : String × FindingRecord K) : Option (FindingChange K) :=
  match get? entry.1 afterById with
  | none => some ⟨.resolved, some entry.2, none⟩
  | some _ => none

def changeRank : ChangeState → Nat
  | .new => 0
  | .worsened => 1
  | .improved => 2
  | .resolved => 3

def changeFinding (change : FindingChange K) : Option (FindingRecord K) :=
  change.after.or change.before

def changeOrder (a b : FindingChange K) : Ordering :=
  (Ord.compare (changeRank a.state) (changeRank b.state)).then <|
    match changeFinding a, changeFinding b with
    | some x, some y =>
      (Ord.compare x.kind y.kind).then <|
        (Ord.compare x.primaryLocation.path y.primaryLocation.path).then <|
          (Ord.compare x.primaryLocation.startLine y.primaryLocation.startLine).then
            (Ord.compare x.fingerprint y.fingerprint)
    | _, _ => .eq

def countState (state : ChangeState) (changes : List (FindingChange K)) : Nat :=
  (changes.filter (fun change => change.state = state)).length

def compare (before after : FindingCatalog K) : FindingDelta K :=
  if before.version ≠ after.version ∨ before.version = 0 then
    unavailable "finding catalog versions do not match"
  else
    let beforeById := byId before
    let afterById := byId after
    let changes := sortBy changeOrder
      (afterById.filterMap (currentChange beforeById) ++
        beforeById.filterMap (previousChange afterById))
    { comparison := "complete"
      reason := none
      counts :=
        { new := countState .new changes
          resolved := countState .resolved changes
          worsened := countState .worsened changes
          improved := countState .improved changes }
      changes }

end

end Reposcout.Findings
