import Reposcout.Dup.Fuzzy.Verification

/-!
# Alpha fingerprints and the candidate plan

Every window of `minTokens` tokens is bucketed by a pair of rolling hashes: one over the token
shapes, and one (`alphaWindowHashes`) over the distances between occurrences of the same
identifier, which renaming does not change.  The buckets with at least two windows are then
admitted, rarest first, while the budget of seed pairs of the pool lasts.

The source computes the alpha hashes in two functions, one of them reporting its progress.
Their loop bodies are the same, so they share the steps here and differ in the loops.
-/

namespace Reposcout.Dup.Fuzzy

/-! ## Seed pair counts and limits -/

def windowCount (tokens window : Nat) : Nat :=
  if window = 0 then 0
  else if tokens < window then 0
  else satAdd (tokens - window) 1

/-- `bounded_seed_pair_count`: the number of pairs that `bucketSeeds` visits, computed in
`u128` and capped at `u64::MAX`. -/
def boundedSeedPairCount (occurrences : Nat) : Nat :=
  let rights := occurrences - 1
  let maximum := maxPreviousPerWindow
  let count :=
    if rights ≤ maximum then rights * (rights + 1) / 2
    else maximum * (maximum + 1) / 2 + (rights - maximum) * maximum
  min count u64Max

/-- The limits of one pool; the seed-pair limit is a `u64`. -/
structure Type2Limits where
  maxSeedPairsPerPool : Nat
  maxMatchesPerPool : Nat
  maxOverlapChecksPerPool : Nat
  rareFirst : Bool
  seedPairs_u64 : maxSeedPairsPerPool ≤ u64Max

/-- `Type2Limits::default()`. -/
def Type2Limits.default : Type2Limits where
  maxSeedPairsPerPool := 10000000
  maxMatchesPerPool := 250000
  maxOverlapChecksPerPool := 10000000
  rareFirst := true
  seedPairs_u64 := by decide

def Type2Limits.unlimited : Type2Limits where
  maxSeedPairsPerPool := u64Max
  maxMatchesPerPool := u64Max
  maxOverlapChecksPerPool := u64Max
  rareFirst := false
  seedPairs_u64 := Nat.le_refl _

/-! ## Alpha window hashes -/

def alphaBase : UInt64 := 0x517cc1b727220a95

/-- The neighbouring occurrences of the same identifier, by token index. -/
structure IdentifierLinks where
  previous : List (Option Nat)
  next : List (Option Nat)
  lastIdentifier : List (String × Nat)

def IdentifierLinks.empty (tokens : Nat) : IdentifierLinks :=
  ⟨List.replicate tokens none, List.replicate tokens none, []⟩

def linkIdentifier (links : IdentifierLinks) (entry : Token × Nat) : IdentifierLinks :=
  let (token, index) := entry
  if token.kind ≠ .identifier then links
  else
    let lastIdentifier := KeyedList.alter token.text (fun _ => index) links.lastIdentifier
    match KeyedList.get? token.text links.lastIdentifier with
    | some prior =>
      ⟨links.previous.set index (some prior), links.next.set prior (some index), lastIdentifier⟩
    | none => { links with lastIdentifier }

/-- One more power of the base; `exponent` is the next one. -/
def pushPower (powers : List UInt64) (exponent : Nat) : List UInt64 :=
  powers ++ [(powers[exponent - 1]?).getD 0 * alphaBase]

section

variable (xxh3_64 : List UInt8 → UInt64) (tokens : List Token)

/-- The hash component of the token at `index` in the window that begins at `start`. -/
def alphaComponent (links : IdentifierLinks) (index start : Nat) : UInt64 :=
  match tokens[index]? with
  | none => 0
  | some token =>
    let unlinked := if token.kind = .identifier then 0 else token.shapeHash xxh3_64
    match (links.previous[index]?).join with
    | some prior => if prior ≥ start then UInt64.ofNat (index - prior) else unlinked
    | none => unlinked

def hashInitial (links : IdentifierLinks) (hash : UInt64) (index : Nat) : UInt64 :=
  hash * alphaBase + alphaComponent xxh3_64 tokens links index 0

/-- The hash of the window that begins at `start`, from the one before it. -/
def rollAlpha (links : IdentifierLinks) (powers : List UInt64) (window : Nat) (hash : UInt64)
    (start : Nat) : UInt64 :=
  let outgoing := start - 1
  let incoming := start + window - 1
  let windowPower := (powers[window - 1]?).getD 0
  let hash := (hash - alphaComponent xxh3_64 tokens links outgoing (start - 1) * windowPower)
    * alphaBase + alphaComponent xxh3_64 tokens links incoming start
  match (links.next[outgoing]?).join with
  | some nextOccurrence =>
    if nextOccurrence < incoming then
      hash - UInt64.ofNat (nextOccurrence - outgoing)
        * (powers[incoming - nextOccurrence]?).getD 0
    else hash
  | none => hash

def pushAlpha (links : IdentifierLinks) (powers : List UInt64) (window : Nat)
    (hashes : List UInt64 × UInt64) (start : Nat) : List UInt64 × UInt64 :=
  let hash := rollAlpha xxh3_64 tokens links powers window hashes.2 start
  (hashes.1 ++ [hash], hash)

def alphaWindowHashes (window : Nat) : List UInt64 :=
  if window = 0 ∨ tokens.length < window then []
  else
    let links := tokens.zipIdx.foldl linkIdentifier (IdentifierLinks.empty tokens.length)
    let powers := (List.range' 1 (window - 1)).foldl pushPower [1]
    let hash := (List.range window).foldl (hashInitial xxh3_64 tokens links) 0
    ((List.range' 1 (tokens.length - window)).foldl
      (pushAlpha xxh3_64 tokens links powers window) ([hash], hash)).1

/-! ### With progress -/

variable {σ : Type}

/-- A loop step followed by a progress call after every `progressCheckEvery`-th element;
`count` is the number of elements done. -/
def observed {α β : Type} (step : β → α → β) (count : α → Nat) (notify : Nat → σ → σ)
    (s : β × σ) (x : α) : β × σ :=
  (step s.1 x, if count x % progressCheckEvery = 0 then notify (count x) s.2 else s.2)

/-- `alpha_window_hashes_with_progress`; the callback gets the operation, the completed and
the total units. -/
def alphaWindowHashesWithProgress (window : Nat) (progress : String → Nat → Nat → σ → σ)
    (w : σ) : List UInt64 × σ :=
  if window = 0 ∨ tokens.length < window then ([], w)
  else
    let (links, w) := tokens.zipIdx.foldl
      (observed linkIdentifier (fun entry => entry.2 + 1)
        (fun done => progress "linking_identifiers" done tokens.length))
      (IdentifierLinks.empty tokens.length, w)
    let (powers, w) := (List.range' 1 (window - 1)).foldl
      (observed pushPower (fun exponent => exponent + 1)
        (fun done => progress "building_alpha_powers" done window)) ([1], w)
    let (hash, w) := (List.range window).foldl
      (observed (hashInitial xxh3_64 tokens links) (fun index => index + 1)
        (fun done => progress "hashing_initial_window" done window)) (0, w)
    let (hashes, w) := (List.range' 1 (tokens.length - window)).foldl
      (observed (pushAlpha xxh3_64 tokens links powers window) (fun start => start + 1)
        (fun done => progress "hashing_alpha_windows" done (tokens.length - window + 1)))
      (([hash], hash), w)
    (hashes.1, w)

end

/-! ## The window index -/

/-- Shape hash and alpha hash. -/
abbrev Fingerprint := UInt64 × UInt64

abbrev WindowIndex := List (Fingerprint × List Occurrence)

def insertWindow (file : Nat) (index : WindowIndex) (entry : Fingerprint × Nat) : WindowIndex :=
  KeyedList.alter entry.1 (fun o => o.getD [] ++ [⟨file, entry.2⟩]) index

/-! ## The candidate plan -/

structure PlannedBucket where
  occurrences : List Occurrence
  selectedPairs : Nat

structure PlanDiagnostics where
  candidateBuckets : Nat := 0
  candidateBucketsSelected : Nat := 0
  candidateBucketsSkipped : Nat := 0
  candidateBucketsPartiallySelected : Nat := 0
  seedPairsTotal : Nat := 0
  seedPairsSelected : Nat := 0
  deriving DecidableEq

def PlanDiagnostics.seedPairsSkipped (d : PlanDiagnostics) : Nat :=
  d.seedPairsTotal - d.seedPairsSelected

structure CandidatePlan where
  buckets : List PlannedBucket
  diagnostics : PlanDiagnostics

def rareFirstOrder (a b : Fingerprint × List Occurrence) : Ordering :=
  (compare a.2.length b.2.length).then <|
    (compare a.1.1.toNat b.1.1.toNat).then (compare a.1.2.toNat b.1.2.toNat)

/-- The plan so far and the seed pairs that remain. -/
structure Planning where
  remaining : Nat
  plan : CandidatePlan

def planBucket (p : Planning) (candidate : Fingerprint × List Occurrence) : Planning :=
  let seedPairs := boundedSeedPairCount candidate.2.length
  let selectedPairs := min seedPairs p.remaining
  let d := p.plan.diagnostics
  let d := { d with
    seedPairsTotal := satAdd d.seedPairsTotal seedPairs
    seedPairsSelected := satAdd d.seedPairsSelected selectedPairs }
  let remaining := p.remaining - selectedPairs
  if selectedPairs = 0 then
    { remaining
      plan := ⟨p.plan.buckets,
        { d with candidateBucketsSkipped := d.candidateBucketsSkipped + 1 }⟩ }
  else
    let d := { d with candidateBucketsSelected := d.candidateBucketsSelected + 1 }
    let d := if selectedPairs < seedPairs then
        { d with
          candidateBucketsPartiallySelected := d.candidateBucketsPartiallySelected + 1 }
      else d
    { remaining, plan := ⟨p.plan.buckets ++ [⟨candidate.2, selectedPairs⟩], d⟩ }

/-- `CandidatePlan::build`, for a given iteration order of the index. -/
def CandidatePlan.build (order : KeyedList.IterationOrder (Fingerprint × List Occurrence))
    (index : WindowIndex) (maxSeedPairs : Nat) (rareFirst : Bool) : CandidatePlan :=
  let candidates := (order.arrange index).filter (fun bucket => bucket.2.length ≥ 2)
  let candidates := if rareFirst then KeyedList.sortBy rareFirstOrder candidates else candidates
  (candidates.foldl planBucket
    ⟨maxSeedPairs, ⟨[], { candidateBuckets := candidates.length }⟩⟩).plan

end Reposcout.Dup.Fuzzy
