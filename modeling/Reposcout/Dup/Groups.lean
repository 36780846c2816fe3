import Reposcout.Framework.KeyedList
import Reposcout.Model.Machine
import Reposcout.Dup.Token

/-!
# Clone instances, clone groups and their finalization

The prepared corpus both detectors read, the instances and groups they report, and the
post-processing of groups: overlap pruning inside one group, removal of repeated groups,
the minimum-lines filter and the suppression of groups contained in a larger one.
-/

namespace Reposcout.Dup

open Option KeyedList

/-- One file's content presented to the duplication detectors. -/
structure DupInput where
  path : PathBuf
  content : String
  deriving Inhabited

structure PreparedFile where
  inputIndex : Nat
  format : String
  pool : String
  tokens : List Token

/-- `prepared[file].tokens`. -/
def tokensOf (prepared : List PreparedFile) (file : Nat) : List Token :=
  match prepared[file]? with
  | some source => source.tokens
  | none => []

/-- One location of a clone group.  Token positions are one-based and inclusive. -/
structure CloneInstance where
  path : PathBuf
  startLine : Nat
  endLine : Nat
  startColumn : Nat
  endColumn : Nat
  startByte : Nat
  endByte : Nat
  startToken : Nat
  endToken : Nat
  deriving DecidableEq

/-- A family of equal regions; `S` carries the similarity. -/
structure CloneGroup (S : Type) where
  lines : Nat
  tokens : Nat
  similarity : S
  format : String
  fingerprint : String
  instances : List CloneInstance
  deriving DecidableEq

def cloneInstance (inputs : List DupInput) (prepared : List PreparedFile)
    (file start len : Nat) : Option CloneInstance := do
  let source ← prepared[file]?
  let first ← source.tokens[start]?
  let last ← source.tokens[start + len - 1]?
  let input ← inputs[source.inputIndex]?
  return {
    path := input.path
    startLine := first.line
    endLine := last.endLine
    startColumn := first.startColumn
    endColumn := last.endColumn
    startByte := first.startByte
    endByte := last.endByte
    startToken := start + 1
    endToken := start + len }

/-- What a reported instance says about its file. -/
lemma cloneInstance_eq_some {inputs : List DupInput} {prepared : List PreparedFile}
    {file start len : Nat} {i : CloneInstance} :
    cloneInstance inputs prepared file start len = some i ↔
      ∃ source first last input, prepared[file]? = some source ∧
        source.tokens[start]? = some first ∧ source.tokens[start + len - 1]? = some last ∧
        inputs[source.inputIndex]? = some input ∧
        i = ⟨input.path, first.line, last.endLine, first.startColumn, last.endColumn,
          first.startByte, last.endByte, start + 1, start + len⟩ := by
  simp only [cloneInstance, bind_eq_bind, bind_eq_some_iff, Option.pure_def, some.injEq]
  constructor
  · rintro ⟨source, hs, first, hf, last, hl, input, hi, rfl⟩
    exact ⟨source, first, last, input, hs, hf, hl, hi, rfl⟩
  · rintro ⟨source, first, last, input, hs, hf, hl, hi, rfl⟩
    exact ⟨source, hs, first, hf, last, hl, input, hi, rfl⟩

/-- `BTreeMap<&str, Vec<usize>>` of the file indices of every pool, in key order. -/
def poolsOf (prepared : List PreparedFile) : List (String × List Nat) :=
  sortBy (fun a b => compare a.1 b.1)
    (prepared.zipIdx.foldl
      (fun pools fi => KeyedList.alter fi.1.pool (fun o => o.getD [] ++ [fi.2]) pools) [])

/-! ## Occupied lines -/

def endpointOccupiedEndLine (startLine endLine endColumn startByte endByte : Nat) : Nat :=
  if endColumn = 1 ∧ endLine > startLine ∧ endByte > startByte then endLine - 1 else endLine

def occupiedEndLine (i : CloneInstance) : Nat :=
  endpointOccupiedEndLine i.startLine i.endLine i.endColumn i.startByte i.endByte

def instanceSpan (i : CloneInstance) : Nat := satAdd (occupiedEndLine i - i.startLine) 1

def tokenLineSpan (first last : Token) : Nat :=
  satAdd (endpointOccupiedEndLine first.line last.endLine last.endColumn first.startByte
    last.endByte - first.line) 1

/-! ## Overlap pruning -/

def instancesOverlap (a b : CloneInstance) : Bool :=
  if a.path ≠ b.path then false
  else if a.endByte > a.startByte ∧ b.endByte > b.startByte then
    a.startByte < b.endByte && b.startByte < a.endByte
  else
    a.startLine ≤ occupiedEndLine b && b.startLine ≤ occupiedEndLine a

/-- Within one group the token span is group-constant, so the widest physical range is
preferred among overlapping instances. -/
def pruneOrder (a b : CloneInstance) : Ordering :=
  (compare a.path b.path).then <| (compare (instanceSpan b) (instanceSpan a)).then <|
    (compare a.startLine b.startLine).then (compare a.startByte b.startByte)

def reportOrder (a b : CloneInstance) : Ordering :=
  (compare a.path b.path).then <| (compare a.startByte b.startByte).then
    (compare a.startLine b.startLine)

/-- Keep an instance when it overlaps none of those kept so far. -/
def keepDisjoint (instances : List CloneInstance) : List CloneInstance :=
  instances.foldl
    (fun kept i => if kept.any (fun other => instancesOverlap other i) then kept else kept ++ [i])
    []

section

variable {S : Type}

def maxSpan (instances : List CloneInstance) : Nat :=
  (instances.map instanceSpan).foldl max 0

def pruneGroup (group : CloneGroup S) : Option (CloneGroup S) :=
  let kept := keepDisjoint (sortBy pruneOrder group.instances)
  if kept.length < 2 then none
  else
    let sorted := sortBy reportOrder kept
    some { group with lines := maxSpan sorted, instances := sorted }

def pruneOverlaps (groups : List (CloneGroup S)) : List (CloneGroup S) :=
  groups.filterMap pruneGroup

/-! ## Repeated and short groups -/

abbrev GroupRegion := PathBuf × Nat × Nat × Nat × Nat

def regionOrder (a b : GroupRegion) : Ordering :=
  (compare a.1 b.1).then <| (compare a.2.1 b.2.1).then <| (compare a.2.2.1 b.2.2.1).then <|
    (compare a.2.2.2.1 b.2.2.2.1).then (compare a.2.2.2.2 b.2.2.2.2)

def groupSignature (group : CloneGroup S) : List GroupRegion :=
  sortBy regionOrder
    (group.instances.map fun i => (i.path, i.startByte, i.endByte, i.startLine, i.endLine))

def dedupGroups (groups : List (CloneGroup S)) : List (CloneGroup S) :=
  (groups.foldl
    (fun (acc : List (List GroupRegion) × List (CloneGroup S)) group =>
      if groupSignature group ∈ acc.1 then acc
      else (groupSignature group :: acc.1, acc.2 ++ [group]))
    ([], [])).2

def filterShort (groups : List (CloneGroup S)) (minLines : Nat) : List (CloneGroup S) :=
  if minLines ≤ 1 then groups
  else groups.filter (fun group => maxSpan group.instances ≥ minLines)

/-! ## Containment suppression -/

def instanceContains (larger smaller : CloneInstance) : Bool :=
  if larger.path ≠ smaller.path then false
  else if larger.endByte > larger.startByte ∧ smaller.endByte > smaller.startByte then
    larger.startByte ≤ smaller.startByte && larger.endByte ≥ smaller.endByte
  else
    larger.startLine ≤ smaller.startLine && occupiedEndLine larger ≥ occupiedEndLine smaller

/-- Match every smaller instance, in order, with the first containing instance of the larger
group not used before: the unused instances are carried along in their order. -/
def matchContained : List CloneInstance → List CloneInstance → Bool
  | _, [] => true
  | unused, small :: rest =>
    if unused.any (fun big => instanceContains big small) then
      matchContained (unused.eraseP (fun big => instanceContains big small)) rest
    else false

def groupContains (larger smaller : CloneGroup S) : Bool :=
  if larger.tokens < smaller.tokens ∨ larger.instances.length ≠ smaller.instances.length then
    false
  else matchContained larger.instances smaller.instances

def groupCopySet (group : CloneGroup S) : List PathBuf :=
  sortBy compare (group.instances.map (·.path))

structure Suppression (S : Type) where
  kept : List (CloneGroup S)
  byCopySet : List (List PathBuf × List Nat)

def suppressStep (acc : Suppression S) (group : CloneGroup S) : Suppression S :=
  let copySet := groupCopySet group
  let candidates := (get? copySet acc.byCopySet).getD []
  let contained := candidates.any fun index =>
    match acc.kept[index]? with
    | some larger => groupContains larger group
    | none => false
  if contained then acc
  else
    { kept := acc.kept ++ [group]
      byCopySet :=
        KeyedList.alter copySet (fun o => o.getD [] ++ [acc.kept.length]) acc.byCopySet }

/-- Drop a group only when it has the same copy cardinality as an earlier kept group whose
instances contain its own instances one by one. -/
def suppressContained (groups : List (CloneGroup S)) : List (CloneGroup S) :=
  (groups.foldl suppressStep ⟨[], []⟩).kept

def finalize (groups : List (CloneGroup S)) (minLines : Nat) : List (CloneGroup S) :=
  suppressContained (filterShort (dedupGroups (pruneOverlaps groups)) minLines)

end

end Reposcout.Dup
