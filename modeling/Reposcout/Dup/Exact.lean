import Reposcout.Dup.Seeds

/-!
# Exact (Type-1) clone detection

Windows of `minTokens` tokens are bucketed by their rolling hash.  Pairs of occurrences of
one bucket, rarest bucket first, seed a verified match that is extended to the left and to
the right; each new region contributes its two instances to the group of its content.

The groups are kept in one map for all pools, keyed by the content alone, and the seed loop
never reads that map.  `scanSeeds` is the loop and yields the regions it records, in order;
`recordRegion` is the write to the map.
-/

namespace Reposcout.Dup.Exact

open KeyedList

def maxSeedPairsPerPool : Nat := 10000000
def maxMatchesPerPool : Nat := 250000

structure Type1Diagnostics where
  seedPairsSkipped : Nat := 0
  pairLimitReached : Bool := false
  matchLimitReached : Bool := false

structure Type1Detection (S : Type) where
  groups : List (CloneGroup S)
  diagnostics : Type1Diagnostics

structure ExactKey where
  kind : TokenKind
  text : String
  deriving DecidableEq

def exactKey (t : Token) : ExactKey := ⟨t.kind, t.text⟩

/-- The key of one instance in `GroupAcc::instances`. -/
abbrev InstanceKey := PathBuf × Nat × Nat

structure GroupAcc where
  format : String := ""
  instances : List (InstanceKey × CloneInstance) := []

/-- The content-keyed map of the groups of all pools. -/
abbrev Groups := List (List ExactKey × GroupAcc)

/-! ## Window index -/

section

variable (xxh3_64 : List UInt8 → UInt64)

/-- The windows of one file, each with its rolling hash. -/
def fileWindows (prepared : List PreparedFile) (minTokens file : Nat) :
    List (UInt64 × Occurrence) :=
  let tokens := tokensOf prepared file
  if tokens.length < minTokens then []
  else
    (rolledHashes (tokens.map (Token.exactHash xxh3_64)) minTokens).zipIdx.map
      (fun hs => (hs.1, ⟨file, hs.2⟩))

def windowIndex (prepared : List PreparedFile) (files : List Nat) (minTokens : Nat) :
    List (UInt64 × List Occurrence) :=
  (files.flatMap (fileWindows xxh3_64 prepared minTokens)).foldl
    (fun index ho => KeyedList.alter ho.1 (fun o => o.getD [] ++ [ho.2]) index) []

/-- The buckets with at least two occurrences, rarest first and then by hash. -/
def seedBuckets (index : List (UInt64 × List Occurrence)) : List (UInt64 × List Occurrence) :=
  sortBy
    (fun a b => (compare a.2.length b.2.length).then (compare a.1.toNat b.1.toNat))
    (index.filter (fun bucket => bucket.2.length ≥ 2))

end

/-! ## Verification and extension of a seed -/

def windowsEqual (prepared : List PreparedFile) (a b : Occurrence) (len : Nat) : Bool :=
  match slice? (tokensOf prepared a.file) a.start len,
      slice? (tokensOf prepared b.file) b.start len with
  | some left, some right => (left.zip right).all (fun p => p.1.exactEq p.2)
  | _, _ => false

/-- Token equality at two positions. -/
def exactEqAt (aTokens : List Token) (i : Nat) (bTokens : List Token) (j : Nat) : Bool :=
  match aTokens[i]?, bTokens[j]? with
  | some x, some y => x.exactEq y
  | _, _ => false

def isLeftMaximal (prepared : List PreparedFile) (a b : Occurrence) (seedLen : Nat) : Bool :=
  if a.start = 0 ∨ b.start = 0 then true
  else if a.file = b.file ∧ seedLen + 1 > absDiff a.start b.start then true
  else
    !exactEqAt (tokensOf prepared a.file) (a.start - 1) (tokensOf prepared b.file) (b.start - 1)

/-- Grow a match of `len` tokens along two token lists while the next tokens are equal.  In
one file the match stops growing at the distance of its two sides, where they would start to
overlap. -/
def extend (sameFile : Bool) (distance : Nat) : List Token → List Token → Nat → Nat
  | x :: xs, y :: ys, len =>
    if sameFile ∧ len + 1 > distance then len
    else if !x.exactEq y then len
    else extend sameFile distance xs ys (len + 1)
  | _, _, len => len

def maximalMatch (prepared : List PreparedFile) (a b : Occurrence) (seedLen : Nat) :
    Option (Nat × Nat × Nat) :=
  match prepared[a.file]?, prepared[b.file]? with
  | some aSource, some bSource =>
    let sameFile : Bool := a.file = b.file
    let distance := absDiff a.start b.start
    if sameFile ∧ (distance = 0 ∨ seedLen > distance) then none
    else
      -- The tokens before the seed, nearest first: `left` of them are added in front.
      let grown := extend sameFile distance (aSource.tokens.take a.start).reverse
        (bSource.tokens.take b.start).reverse seedLen
      let left := grown - seedLen
      let aStart := a.start - left
      let bStart := b.start - left
      let len := extend sameFile distance (aSource.tokens.drop (aStart + grown))
        (bSource.tokens.drop (bStart + grown)) grown
      some (aStart, bStart, len)
  | _, _ => none

/-! ## The seed loop of one pool -/

/-- `(a.file, b.file, a.start as i128 - b.start as i128)`. -/
abbrev Diagonal := Nat × Nat × Int

def diagonalOf (a b : Occurrence) : Diagonal := (a.file, b.file, (a.start : Int) - b.start)

/-- The state of the seed loop. -/
structure ScanState where
  examined : Nat := 0
  seenRegions : List Region := []
  covered : List (Diagonal × MergedIntervals) := []
  diagnostics : Type1Diagnostics := {}

def isCovered (st : ScanState) (a b : Occurrence) (minTokens : Nat) : Bool :=
  match get? (diagonalOf a b) st.covered with
  | some ranges => ranges.covers a.start (a.start + minTokens)
  | none => false

/-- The checks a seed pair has to pass before it is extended. -/
def seedRejected (prepared : List PreparedFile) (minTokens : Nat) (sampled : Bool)
    (st : ScanState) (a b : Occurrence) : Bool :=
  sameFileSeedOverlaps a b minTokens
    || isCovered st a b minTokens
    || ((!sampled || a.file = b.file) && !isLeftMaximal prepared a b minTokens)
    || !windowsEqual prepared a b minTokens

/-- The body of the seed loop for one pair: the state after it and the region it records, if
any. -/
def scanSeed (prepared : List PreparedFile) (minTokens : Nat) (sampled : Bool)
    (st : ScanState) (a b : Occurrence) : ScanState × Option Region :=
  let st := { st with examined := st.examined + 1 }
  if seedRejected prepared minTokens sampled st a b then (st, none)
  else
    match maximalMatch prepared a b minTokens with
    | none => (st, none)
    | some (aStart, bStart, len) =>
      let st := { st with
        covered := KeyedList.alter (diagonalOf a b)
          (fun o => (o.getD MergedIntervals.empty).insert aStart (aStart + len)) st.covered }
      let region : Region := ⟨a.file, aStart, b.file, bStart, len⟩
      if canonicalRegionKey region ∈ st.seenRegions then (st, none)
      else
        ({ st with seenRegions := canonicalRegionKey region :: st.seenRegions }, some region)

/-- The seed loop: the final state and the regions recorded, in order.  The limits are
checked before each pair and end the loop over all buckets. -/
def scanSeeds (prepared : List PreparedFile) (minTokens : Nat) (sampled : Bool) :
    List (Occurrence × Occurrence) → ScanState → ScanState × List Region
  | [], st => (st, [])
  | (a, b) :: rest, st =>
    if st.examined ≥ maxSeedPairsPerPool ∨ st.seenRegions.length ≥ maxMatchesPerPool then
      ({ st with diagnostics := { st.diagnostics with
          pairLimitReached :=
            st.diagnostics.pairLimitReached || st.examined ≥ maxSeedPairsPerPool
          matchLimitReached :=
            st.diagnostics.matchLimitReached || st.seenRegions.length ≥ maxMatchesPerPool } },
        [])
    else
      let (st, recorded) := scanSeed prepared minTokens sampled st a b
      let (st, regions) := scanSeeds prepared minTokens sampled rest st
      (st, recorded.toList ++ regions)

section

variable (xxh3_64 : List UInt8 → UInt64)

/-- The number of pairs of all buckets, with the saturation of the source. -/
def totalPairs (buckets : List (UInt64 × List Occurrence)) : Nat :=
  buckets.foldl
    (fun sum bucket => satAdd sum (satMul bucket.2.length (bucket.2.length - 1) / 2)) 0

def scanPool (prepared : List PreparedFile) (files : List Nat) (minTokens : Nat) :
    List Region × Type1Diagnostics :=
  if !files.any (fun file => (tokensOf prepared file).length ≥ minTokens) then ([], {})
  else
    let buckets := seedBuckets (windowIndex xxh3_64 prepared files minTokens)
    let sampled := buckets.any (fun bucket => bucket.2.length > maxPreviousPerWindow + 1)
    let (st, regions) := scanSeeds prepared minTokens sampled
      (buckets.flatMap (fun bucket => bucketSeeds bucket.2)) {}
    (regions, { st.diagnostics with seedPairsSkipped := totalPairs buckets - st.examined })

/-! ## Recording regions in the shared group map -/

def addInstance (inputs : List DupInput) (prepared : List PreparedFile)
    (file start len : Nat) (group : GroupAcc) : GroupAcc :=
  match cloneInstance inputs prepared file start len with
  | some i =>
    { group with instances :=
        KeyedList.alter (i.path, i.startByte, i.endByte) (fun _ => i) group.instances }
  | none => group

/-- `content_key`: the kinds and texts of the tokens of the first side. -/
def contentKey (prepared : List PreparedFile) (r : Region) : List ExactKey :=
  (((tokensOf prepared r.aFile).drop r.aStart).take r.len).map exactKey

/-- Enter a region of a pool into a group: the format is set by the first pool that enters
one. -/
def enterRegion (inputs : List DupInput) (prepared : List PreparedFile) (pool : String)
    (r : Region) (entry : GroupAcc) : GroupAcc :=
  let entry := if entry.format = "" then { entry with format := pool } else entry
  addInstance inputs prepared r.bFile r.bStart r.len
    (addInstance inputs prepared r.aFile r.aStart r.len entry)

def recordRegion (inputs : List DupInput) (prepared : List PreparedFile) (pool : String)
    (groups : Groups) (r : Region) : Groups :=
  KeyedList.alter (contentKey prepared r)
    (fun o => enterRegion inputs prepared pool r (o.getD {})) groups

def detectPool (inputs : List DupInput) (prepared : List PreparedFile) (pool : String)
    (files : List Nat) (minTokens : Nat) (groups : Groups) : Groups × Type1Diagnostics :=
  let (regions, diagnostics) := scanPool xxh3_64 prepared files minTokens
  (regions.foldl (recordRegion inputs prepared pool) groups, diagnostics)

/-! ## The detector -/

variable {S : Type} [One S]

def instanceKeyOrder (a b : InstanceKey × CloneInstance) : Ordering :=
  (compare a.1.1 b.1.1).then <| (compare a.1.2.1 b.1.2.1).then (compare a.1.2.2 b.1.2.2)

/-- `into_values()` of the ordered instance map. -/
def sortedInstances (group : GroupAcc) : List CloneInstance :=
  (sortBy instanceKeyOrder group.instances).map Prod.snd

def toGroup (entry : List ExactKey × GroupAcc) : Option (CloneGroup S) :=
  let (content, group) := entry
  if content = [] ∨ group.instances.length < 2 then none
  else
    some {
      lines := maxSpan (sortedInstances group)
      tokens := content.length
      similarity := 1
      format := group.format
      fingerprint := ""
      instances := sortedInstances group }

def groupSortKey (group : CloneGroup S) : String × Nat × Nat :=
  match group.instances.head? with
  | some i => (i.path.toStringLossy, i.startByte, i.endByte)
  | none => ("", 0, 0)

def groupOrder (a b : CloneGroup S) : Ordering :=
  (compare b.tokens a.tokens).then <| (compare (groupSortKey a).1 (groupSortKey b).1).then <|
      (compare (groupSortKey a).2.1 (groupSortKey b).2.1).then
        (compare (groupSortKey a).2.2 (groupSortKey b).2.2)

/-- The reported groups, for a given iteration order of the group map. -/
def intoSortedGroups (order : KeyedList.IterationOrder (List ExactKey × GroupAcc))
    (groups : Groups) : List (CloneGroup S) :=
  sortBy groupOrder ((order.arrange groups).filterMap toGroup)

def detectPools (inputs : List DupInput) (prepared : List PreparedFile) (minTokens : Nat) :
    Groups × Type1Diagnostics :=
  (poolsOf prepared).foldl
    (fun acc pool =>
      let (groups, d) := detectPool xxh3_64 inputs prepared pool.1 pool.2 minTokens acc.1
      (groups, {
        seedPairsSkipped := satAdd acc.2.seedPairsSkipped d.seedPairsSkipped
        pairLimitReached := acc.2.pairLimitReached || d.pairLimitReached
        matchLimitReached := acc.2.matchLimitReached || d.matchLimitReached }))
    ([], {})

def detectPreparedBounded (order : KeyedList.IterationOrder (List ExactKey × GroupAcc))
    (inputs : List DupInput) (prepared : List PreparedFile) (minTokens : Nat) :
    Type1Detection S :=
  if minTokens = 0 ∨ prepared = [] then ⟨[], {}⟩
  else
    let (groups, diagnostics) := detectPools xxh3_64 inputs prepared minTokens
    ⟨suppressContained (intoSortedGroups order groups), diagnostics⟩

end

end Reposcout.Dup.Exact
