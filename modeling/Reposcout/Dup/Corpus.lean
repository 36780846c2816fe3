import Reposcout.Dup.Exact
import Reposcout.Dup.Fuzzy.Detector
import Reposcout.Framework.Encoding

/-!
# The prepared corpus

`Corpus` is what both detectors receive: the inputs, one prepared file for each analysed
input, and the two facts the preparation guarantees (every prepared file has an input, and
no two prepared files report the same path).  `Corpus.prepare` builds one from inputs with
distinct paths, and `poolsOf` partitions its files by pool.
-/

namespace Reposcout.Dup

open List Option KeyedList

structure Corpus where
  inputs : List DupInput
  prepared : List PreparedFile
  indexed : ∀ source ∈ prepared, source.inputIndex < inputs.length
  paths_distinct :
    (prepared.map (fun source => (inputs[source.inputIndex]?).map DupInput.path)).Nodup

namespace Corpus

variable (c : Corpus)

/-- The path under which a prepared file is reported. -/
def pathOf (file : Nat) : Option PathBuf := do
  let source ← c.prepared[file]?
  let input ← c.inputs[source.inputIndex]?
  return input.path

def poolOf (file : Nat) : Option String := (c.prepared[file]?).map PreparedFile.pool

lemma pathOf_injective {file other : Nat} {path : PathBuf}
    (hf : c.pathOf file = some path) (ho : c.pathOf other = some path) : file = other := by
  simp only [pathOf, bind_eq_bind, bind_eq_some_iff, Option.pure_def, some.injEq] at hf ho
  obtain ⟨source, hsource, input, hinput, hpath⟩ := hf
  obtain ⟨source', hsource', input', hinput', hpath'⟩ := ho
  have hmap : (c.prepared.map
      (fun source => (c.inputs[source.inputIndex]?).map DupInput.path))[file]? =
      some (some path) := by
    simp [hsource, hinput, hpath]
  have hmap' : (c.prepared.map
      (fun source => (c.inputs[source.inputIndex]?).map DupInput.path))[other]? =
      some (some path) := by
    simp [hsource', hinput', hpath']
  obtain ⟨hlt, _⟩ := List.getElem?_eq_some_iff.mp hmap
  exact (getElem?_inj hlt c.paths_distinct).mp (hmap.trans hmap'.symm)

lemma exists_cloneInstance {file start len : Nat} (hlen : 0 < len)
    (hrange : start + len ≤ (tokensOf c.prepared file).length) :
    ∃ i, cloneInstance c.inputs c.prepared file start len = some i := by
  have hsource : ∃ source, c.prepared[file]? = some source := by
    cases h : c.prepared[file]? with
    | none => simp only [tokensOf, h, length_nil] at hrange; omega
    | some source => exact ⟨source, rfl⟩
  obtain ⟨source, hsource⟩ := hsource
  simp only [tokensOf, hsource] at hrange
  have hinput := c.indexed source (mem_of_getElem? hsource)
  exact ⟨_, cloneInstance_eq_some.mpr ⟨source, source.tokens[start],
    source.tokens[start + len - 1], c.inputs[source.inputIndex], hsource,
    getElem?_eq_getElem _, getElem?_eq_getElem _, getElem?_eq_getElem _, rfl⟩⟩

lemma pathOf_of_cloneInstance {file start len : Nat} {i : CloneInstance}
    (h : cloneInstance c.inputs c.prepared file start len = some i) :
    c.pathOf file = some i.path := by
  obtain ⟨source, first, last, input, hsource, _, _, hinput, rfl⟩ := cloneInstance_eq_some.mp h
  simp [pathOf, hsource, hinput]

end Corpus

/-! ## Preparation -/

/-- Which detected formats may share a candidate pool. -/
inductive DuplicationFormatScope where
  | exact | compatible | all

def formatPool (format : String) (scope : DuplicationFormatScope) : String :=
  match scope with
  | .compatible =>
    if format = "JavaScript" ∨ format = "TypeScript" ∨ format = "TSX" then "ECMAScript"
    else format
  | .exact => format
  | .all => "*"

structure Frontend where
  detect : PathBuf → Option String
  tokenizePath : PathBuf → String → List Token

def prepareFile (frontend : Frontend) (scope : DuplicationFormatScope) (inputIndex : Nat)
    (input : DupInput) : PreparedFile :=
  let format := (frontend.detect input.path).getD "Unknown"
  { inputIndex := inputIndex
    format := format
    pool := formatPool format scope
    tokens := frontend.tokenizePath input.path input.content }

def prepare (frontend : Frontend) (scope : DuplicationFormatScope) (inputs : List DupInput) :
    List PreparedFile :=
  inputs.zipIdx.map (fun input => prepareFile frontend scope input.2 input.1)

def Corpus.prepare (frontend : Frontend) (scope : DuplicationFormatScope)
    (inputs : List DupInput) (h : (inputs.map DupInput.path).Nodup) : Corpus where
  inputs := inputs
  prepared := Dup.prepare frontend scope inputs
  indexed := by
    intro source hsource
    obtain ⟨⟨input, index⟩, hmem, rfl⟩ := List.mem_map.mp hsource
    exact (List.getElem?_eq_some_iff.mp (mem_zipIdx_iff_getElem?.mp hmem)).1
  paths_distinct := by
    have hpaths : (Dup.prepare frontend scope inputs).map
        (fun source => (inputs[source.inputIndex]?).map DupInput.path) =
        inputs.map (fun input => some input.path) := by
      refine ext_getElem (by simp [Dup.prepare]) ?_
      intro index h₁ h₂
      simp only [length_map] at h₂
      simp [Dup.prepare, prepareFile, getElem?_eq_getElem h₂]
    rw [hpaths, show (fun input : DupInput => some input.path) = some ∘ DupInput.path from rfl,
      ← List.map_map]
    exact h.map (some_injective _)

/-- A front end for one-line programs whose tokens are single characters: letters are
identifiers, digits integer literals, `;` is punctuation and anything else an operator. -/
def characterFrontend : Frontend where
  detect path :=
    match path.components.getLast?.map (fun name => (name.toList.splitOn '.').getLast?) with
    | some (some ['r', 's']) => some "Rust"
    | some (some ['j', 's']) => some "JavaScript"
    | _ => none
  tokenizePath _ content :=
    content.toList.zipIdx.map fun (c, i) =>
      let kind := if c.isAlpha then .identifier
        else if c.isDigit then .literal .integer
        else if c = ';' then .punctuation
        else .operator
      ⟨kind, String.ofList [c], 1, 1, i + 1, i + 2, i, i + 1⟩

/-! ## Pools -/

/-- What the pool map contains once some of the files have been entered. -/
structure PoolsOk (prepared : List PreparedFile) (pools : List (String × List Nat)) : Prop where
  nodup : (KeyedList.keys pools).Nodup
  mem_pool : ∀ entry ∈ pools, ∀ file ∈ entry.2, (prepared[file]?).map PreparedFile.pool = some entry.1

lemma poolsOk_alter {prepared : List PreparedFile} {pools : List (String × List Nat)}
    (h : PoolsOk prepared pools) {source : PreparedFile} {file : Nat}
    (hsource : prepared[file]? = some source) :
    PoolsOk prepared (alter source.pool (fun o => o.getD [] ++ [file]) pools) where
  nodup := nodup_keys_alter h.nodup
  mem_pool := by
    refine forall_mem_alter
      (P := fun pool files => ∀ f ∈ files, (prepared[f]?).map PreparedFile.pool = some pool)
      h.mem_pool ?_ ?_
    · simp [hsource]
    · intro files hfiles f hf
      simp only [getD_some, mem_append, mem_singleton] at hf
      rcases hf with hf | rfl
      · exact hfiles f hf
      · simp [hsource]

lemma poolsOf_ok (prepared : List PreparedFile) : PoolsOk prepared (poolsOf prepared) := by
  have hfold : PoolsOk prepared (prepared.zipIdx.foldl
      (fun pools fi => alter fi.1.pool (fun o => o.getD [] ++ [fi.2]) pools) []) := by
    refine List.foldlRecOn (motive := PoolsOk prepared) _ _ ?_ ?_
    · exact ⟨by simp, by simp⟩
    · intro pools hpools fi hfi
      exact poolsOk_alter hpools (mem_zipIdx_iff_getElem?.mp hfi)
  have hperm := sortBy_perm (fun a b : String × List Nat => compare a.1 b.1)
    (prepared.zipIdx.foldl
      (fun pools fi => alter fi.1.pool (fun o => o.getD [] ++ [fi.2]) pools) [])
  exact ⟨(hperm.map Prod.fst).nodup_iff.mpr hfold.nodup,
    fun entry hentry => hfold.mem_pool entry (hperm.mem_iff.mp hentry)⟩

end Reposcout.Dup

/-!
## Content fingerprints of duplicate groups

After detection every group is given a fingerprint of its content: the exact token hashes of
an exact group, the shapes and the identifier pattern of a near-duplicate group.  The content
is that of the first instance, and where the copies are does not enter.
-/

namespace Reposcout.Dup

open KeyedList

/-- Which tokens participate. -/
inductive DuplicationMode where
  | strict | mild | weak

def DuplicationMode.toString : DuplicationMode → String
  | .strict => "strict"
  | .mild => "mild"
  | .weak => "weak"

/-- `append_part`: a part behind its `usize` length. -/
def partBytes (part : String) : List UInt8 :=
  Encoding.prefixedPart 8 part.toUTF8.data.toList

section

variable (xxh3_64 : List UInt8 → UInt64) (xxh3_128 : List UInt8 → BitVec 128)

/-- The bytes of a near-duplicate's tokens: identifiers are numbered in the order of their
first occurrence, all other tokens are hashed by shape. -/
def alphaBytes : List Token → List (String × Nat) → List UInt8
  | [], _ => []
  | token :: rest, identifiers =>
    if token.kind = .identifier then
      let identifier := (get? token.text identifiers).getD identifiers.length
      1 :: Encoding.leBytes 8 identifier ++
        alphaBytes rest (KeyedList.alter token.text (fun _ => identifier) identifiers)
    else 0 :: Encoding.leBytes 8 (token.shapeHash xxh3_64).toNat ++ alphaBytes rest identifiers

def familyBytes (kind format : String) (mode : DuplicationMode) (tokens : List Token) :
    List UInt8 :=
  partBytes "dup-family-v1" ++ partBytes kind ++ partBytes format ++ partBytes mode.toString ++
    if kind = "exact" then
      tokens.flatMap (fun token => Encoding.leBytes 8 (token.exactHash xxh3_64).toNat)
    else alphaBytes xxh3_64 tokens []

variable {S : Type}

def familyTokens (prepared : List PreparedFile) (inputs : List DupInput) (group : CloneGroup S) :
    Option (List Token) := do
  let i ← group.instances.head?
  let byPath := indexBy
    (fun file : PreparedFile => (inputs[file.inputIndex]?).map DupInput.path) prepared
  let file ← get? (some i.path) byPath
  let start := i.startToken - 1
  let stop := min i.endToken file.tokens.length
  if start ≤ stop then some ((file.tokens.drop start).take (stop - start)) else none

def assignGroupFingerprint (kind : String) (prepared : List PreparedFile)
    (inputs : List DupInput) (mode : DuplicationMode) (group : CloneGroup S) : CloneGroup S :=
  match familyTokens prepared inputs group with
  | none => group
  | some tokens =>
    { group with fingerprint := "dup:v1:" ++ String.ofList (Encoding.hexDigits 32
        (xxh3_128 (familyBytes xxh3_64 kind group.format mode tokens)).toNat) }

/-- `analyze_prepared`: the exact and the near-duplicate groups of a corpus. -/
def analyzePrepared [One S] [Fuzzy.Score S]
    (exactOrder : KeyedList.IterationOrder (List Exact.ExactKey × Exact.GroupAcc))
    (fuzzyOrder : KeyedList.IterationOrder (Fuzzy.Fingerprint × List Occurrence))
    (inputs : List DupInput) (prepared : List PreparedFile) (minTokens minLines : Nat)
    (minSimilarity : S) (mode : DuplicationMode) :
    List (CloneGroup S) × List (CloneGroup S) :=
  let type1 : Exact.Type1Detection S :=
    Exact.detectPreparedBounded xxh3_64 exactOrder inputs prepared minTokens
  let type2 := Fuzzy.detectPreparedWithLimits xxh3_64 fuzzyOrder inputs prepared minTokens
    minSimilarity .default
  ((finalize type1.groups minLines).map
      (assignGroupFingerprint xxh3_64 xxh3_128 "exact" prepared inputs mode),
    (filterShort type2.groups minLines).map
      (assignGroupFingerprint xxh3_64 xxh3_128 "type2" prepared inputs mode))

end

end Reposcout.Dup
