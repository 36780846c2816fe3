import Reposcout.Git.ChurnCache
import Reposcout.Scan.Analyzers

/-!
# Cached analyses

The analyses of single files are kept in files of the cache directory, one for each scan root and
each profile of the settings that a report reads.  An entry holds the report of a path with the hash
of its content, and the fact families that some caller required.  A hit is completed by the families
that it lacks.

Scans and queries hold a cache each, from its opening to its last save.
-/

namespace Reposcout.Scan

open KeyedList

open Git (JsonCodec loadJson saveJson)

variable (A : Analyzers)

/-! ## Profiles -/

/-- `AnalysisProfile`: the configuration that can change a cached entry. -/
structure AnalysisProfile where
  tokenEncoding : Option String
  complexity : Bool
  imports : Bool
  markers : List String
  healthScope : Option HealthScope
  healthIncludes : List HealthInclude
  healthExcludes : List String

def canonicalTokenEncoding (encoding : String) : String :=
  let name := toAsciiLowercase encoding
  if name = "o200k_base" ∨ name = "o200k" then "o200k_base"
  else if name = "cl100k_base" ∨ name = "cl100k" then "cl100k_base"
  else name

def canonicalMarkers (markers : List String) : List String :=
  (sortBy compare (markers.filter (· ≠ ""))).eraseReps

def AnalysisProfile.fromConfig (config : AnalysisConfig) : AnalysisProfile :=
  let markers := if config.enabled.markers then canonicalMarkers config.markers else []
  let healthEnabled := config.enabled.complexity || markers ≠ []
  { tokenEncoding :=
      if config.enabled.tokens then some (canonicalTokenEncoding config.encoding) else none
    complexity := config.enabled.complexity
    imports := config.enabled.imports
    markers
    healthScope := if healthEnabled then some config.healthScope else none
    healthIncludes :=
      (sortBy (compareOn HealthInclude.ctorIdx)
        (if healthEnabled && config.healthScope = .source then config.healthIncludes
          else [])).eraseReps
    healthExcludes :=
      (sortBy compare
        (if healthEnabled then config.healthExcludes else [])).eraseReps }

/-- `cache_key`, with the JSON text of a profile. -/
def AnalysisProfile.cacheKey (json : AnalysisProfile → String) (profile : AnalysisProfile) :
    String :=
  "v0.6.0|schema2.0|profile" ++ json profile ++ "|analyzer27"

/-! ## Entries -/

structure CachedAnalysis where
  report : FileReport A
  testRegions : List LineRange
  symbolOutlines : Option (List SymbolOutline)
  graphFacts : Option A.GraphFacts
  definitions : Option DefinitionFacts
  lexicalFacts : Option A.LexicalFacts
  definitionPlans : Option A.PlanningFacts

structure Entry extends CachedAnalysis A where
  hash : UInt64

structure CacheData where
  version : String
  entries : List (String × Entry A)

structure Cache where
  enabled : Bool
  path : String
  key : String
  loaded : List (String × Entry A)
  fresh : List (String × Entry A)
  hits : ℕ
  misses : ℕ
  enrichments : ℕ

structure CacheFormat where
  codec : JsonCodec (CacheData A)
  profileJson : AnalysisProfile → String
  profileJson_injective : Function.Injective profileJson

abbrev CacheDirectory {A : Analyzers} (format : CacheFormat A) := List (String × format.codec.Text)

def defaultMaxCacheFileBytes : ℕ := 256 * 1024 * 1024

variable {A} (format : CacheFormat A)

/-- `cache_path` and `profile_cache_path`. -/
def profileCachePath (root key : String) : String :=
  hex64 (A.xxh3 root) ++ "/" ++ hex64 (A.xxh3 key) ++ ".json"

def Cache.load (directory : CacheDirectory format) (path key : String) :
    Option (List (String × Entry A)) :=
  ((loadJson format.codec (get? path directory) defaultMaxCacheFileBytes).filter
    fun data => data.version = key).map CacheData.entries

/-- `Cache::open`, where the directory may be missing and its files may be unreadable. -/
def Cache.open (directory : Option (CacheDirectory format)) (root : String) (enabled : Bool)
    (profile : AnalysisProfile) : Cache A :=
  let key := profile.cacheKey format.profileJson
  { enabled := enabled && directory.isSome
    path := profileCachePath (A := A) root key
    key
    loaded :=
      if enabled then
        (directory.bind fun directory =>
          Cache.load format directory (profileCachePath (A := A) root key) key).getD []
      else []
    fresh := []
    hits := 0
    misses := 0
    enrichments := 0 }

def Cache.get (cache : Cache A) (rel : String) (hash : UInt64) :
    Cache A × Option (CachedAnalysis A) :=
  if !cache.enabled then (cache, none)
  else
    match (get? rel cache.loaded).filter fun entry => entry.hash = hash with
    | none => ({ cache with misses := cache.misses + 1 }, none)
    | some entry =>
      ({ cache with
          hits := cache.hits + 1
          fresh := KeyedList.alter rel (fun _ => entry) cache.fresh },
        some entry.toCachedAnalysis)

def Cache.put (cache : Cache A) (rel : String) (hash : UInt64) (cached : CachedAnalysis A) :
    Cache A :=
  if !cache.enabled then cache
  else { cache with fresh := KeyedList.alter rel (fun _ => { cached with hash }) cache.fresh }

def Cache.recordEnrichment (cache : Cache A) : Cache A :=
  if cache.enabled then { cache with enrichments := cache.enrichments + 1 } else cache

/-- The entries that `Cache::save` writes. -/
def Cache.saved (cache : Cache A) (pruneUnseen : Bool) : List (String × Entry A) :=
  if pruneUnseen then cache.fresh
  else
    cache.fresh.foldl (fun entries entry => KeyedList.alter entry.1 (fun _ => entry.2) entries)
      cache.loaded

/-- `Cache::save`, where `written` is the outcome of the write.  A report whose path is no UTF-8
cannot be serialized. -/
def Cache.save (cache : Cache A) (directory : CacheDirectory format) (pruneUnseen written : Bool) :
    Cache A × CacheDirectory format :=
  if !cache.enabled then (cache, directory)
  else
    let entries := cache.saved pruneUnseen
    let text :=
      if entries.all fun entry => A.isUtf8 entry.2.report.path then
        saveJson format.codec ⟨cache.key, entries⟩ defaultMaxCacheFileBytes written
      else none
    ({ cache with fresh := [] },
      match text with
      | none => directory
      | some text => KeyedList.alter cache.path (fun _ => text) directory)

/-! ## Files -/

variable (A) in
structure AnalyzedFile where
  report : FileReport A
  content : String
  duplicationArtifact : Bool
  testRegions : List LineRange
  symbolOutlines : Option (List SymbolOutline)
  definitions : Option DefinitionFacts
  lexicalFacts : Option A.LexicalFacts
  definitionPlans : Option A.PlanningFacts
  graphFacts : Option A.GraphFacts

variable (A) in
/-- The outcomes of `analyze_loaded_file`. -/
inductive AnalysisOutcome where
  | analyzed (file : AnalyzedFile A)
  | unsupported (path : A.Path)

def enrichCachedFacts (path : A.Path) (content : String) (counter : Option TokenEncoding)
    (requirements : ArtifactRequirements) (cached : CachedAnalysis A) :
    Bool × CachedAnalysis A :=
  let needsOutlines := requirements.needsDefinitions &&
    (cached.symbolOutlines.isNone || cached.definitions.isNone)
  let needsGraph := requirements.graphFacts && cached.graphFacts.isNone
  let needsLexical := requirements.lexicalFacts && cached.lexicalFacts.isNone
  let needsPlans := requirements.definitionPlans && cached.definitionPlans.isNone
  if !(needsOutlines || needsGraph || needsLexical || needsPlans) then (false, cached)
  else
    let firstClass := (A.detect path).bind LangInfo.firstClass
    let tree := firstClass.bind fun language => A.parse language content
    let outlined :=
      if needsOutlines then
        let (outlines, definitions) := declarationFacts A firstClass content tree
        { cached with symbolOutlines := some outlines, definitions := some definitions }
      else cached
    let definitions := outlined.definitions.getD emptyDefinitions
    let withLexical :=
      if needsLexical then
        { outlined with
          lexicalFacts := some
            (A.extractLexical path outlined.report.language content tree definitions) }
      else outlined
    let withPlans :=
      match needsPlans, counter with
      | true, some counter =>
        { withLexical with
          definitionPlans := some
            (A.extractPlanning withLexical.report.language content tree definitions counter) }
      | _, _ => withLexical
    let withGraph :=
      match needsGraph, A.detect path with
      | true, some info =>
        { withPlans with
          graphFacts := graphFacts A info (A.toStringLossy path) content tree requirements
            definitions }
      | _, _ => withPlans
    let enriched := needsOutlines || needsLexical || (needsPlans && counter.isSome) ||
      (needsGraph && (A.detect path).isSome)
    (enriched, withGraph)

def SourceAnalysis.toFile (analysis : SourceAnalysis A) (content : String) : AnalyzedFile A where
  report := analysis.report
  content := content
  duplicationArtifact := analysis.duplicationArtifact
  testRegions := analysis.testRegions
  symbolOutlines := analysis.symbolOutlines
  definitions := analysis.definitions
  lexicalFacts := analysis.lexicalFacts
  definitionPlans := analysis.definitionPlans
  graphFacts := analysis.graphFacts

def CachedAnalysis.toFile (cached : CachedAnalysis A) (content : String)
    (requirements : ArtifactRequirements) (duplicationArtifact : Bool) : AnalyzedFile A where
  report := cached.report
  content := content
  duplicationArtifact := duplicationArtifact
  testRegions := cached.testRegions
  symbolOutlines := if requirements.needsDefinitions then cached.symbolOutlines else none
  definitions := if requirements.needsDefinitions then cached.definitions else none
  lexicalFacts := if requirements.lexicalFacts then cached.lexicalFacts else none
  definitionPlans := if requirements.definitionPlans then cached.definitionPlans else none
  graphFacts := if requirements.graphFacts then cached.graphFacts else none

/-- The entry of a complete analysis. -/
def SourceAnalysis.toCached (analysis : SourceAnalysis A) : CachedAnalysis A where
  report := analysis.report
  testRegions := analysis.testRegions
  symbolOutlines := analysis.symbolOutlines
  graphFacts := analysis.graphFacts
  definitions := analysis.definitions
  lexicalFacts := analysis.lexicalFacts
  definitionPlans := analysis.definitionPlans

def analyzeLoadedFile (path : A.Path) (content : String) (config : AnalysisConfig)
    (policy : HealthPolicy) (counter : Option TokenEncoding) (cache : Cache A)
    (requirements : ArtifactRequirements) : Cache A × AnalysisOutcome A :=
  let rel := A.toStringLossy path
  let hash := A.xxh3 content
  match cache.get rel hash with
  | (cache, some cached) =>
    let duplicationArtifact := hintIsDuplicationArtifact cached.report.skipHint
    let (enriched, cached) := enrichCachedFacts path content counter requirements cached
    let cache := if enriched then cache.recordEnrichment.put rel hash cached else cache
    (cache, .analyzed (cached.toFile content requirements duplicationArtifact))
  | (cache, none) =>
    match analyzeSourceDetails A path content config policy counter requirements with
    | none => (cache, .unsupported path)
    | some analysis =>
      (cache.put rel hash analysis.toCached, .analyzed (analysis.toFile content))

/-! ## Sessions -/

variable (A) in
/-- A scan or a query: its settings and its cache. -/
structure Session where
  config : AnalysisConfig
  policy : HealthPolicy
  counter : Option TokenEncoding
  cache : Cache A

/-- The counter of a configuration; absent if its encoding is unknown. -/
def tokenCounter (config : AnalysisConfig) : Option (Option TokenEncoding) :=
  if config.enabled.tokens then (TokenEncoding.new config.encoding).map some else some none

/-- A session starts; absent if its settings are rejected. -/
def Session.start (directory : Option (CacheDirectory format)) (root : String)
    (config : AnalysisConfig) : Option (Session A) :=
  (HealthPolicy.new A config).bind fun policy =>
    (tokenCounter config).map fun counter =>
      { config
        policy
        counter
        cache := Cache.open format directory root config.useCache (.fromConfig config) }

variable (A) in
/-- What happens to a cache directory.  `available` and `written` are the answers of the file
system. -/
inductive Command where
  | start (root : String) (config : AnalysisConfig) (available : Bool)
  | analyze (session : ℕ) (path : A.Path) (content : String) (requirements : ArtifactRequirements)
  | save (session : ℕ) (pruneUnseen written : Bool)

structure System where
  directory : CacheDirectory format
  sessions : List (Session A)

/-- The directory before any scan. -/
def System.initial : System format := ⟨[], []⟩

def Session.analyze (session : Session A) (path : A.Path) (content : String)
    (requirements : ArtifactRequirements) : Session A × AnalysisOutcome A :=
  let (cache, outcome) := analyzeLoadedFile path content session.config session.policy
    session.counter session.cache requirements
  ({ session with cache }, outcome)

def System.step (system : System format) : Command A → System format
  | .start root config available =>
    let directory := if available then some system.directory else none
    { system with
      sessions := system.sessions ++ (Session.start format directory root config).toList }
  | .analyze index path content requirements =>
    { system with
      sessions := system.sessions.modify index fun session =>
        (session.analyze path content requirements).1 }
  | .save index pruneUnseen written =>
    match system.sessions[index]? with
    | none => system
    | some session =>
      let (cache, directory) := session.cache.save format system.directory pruneUnseen written
      { directory
        sessions := system.sessions.set index { session with cache } }

/-- A run of scans and queries, in any order. -/
def System.run (commands : List (Command A)) : System format :=
  commands.foldl (System.step format) (.initial format)

def analyzeFromScratch (path : A.Path) (content : String) (config : AnalysisConfig)
    (policy : HealthPolicy) (counter : Option TokenEncoding)
    (requirements : ArtifactRequirements) : AnalysisOutcome A :=
  match analyzeSourceDetails A path content config policy counter requirements with
  | none => .unsupported path
  | some analysis => .analyzed (analysis.toFile content)

end Reposcout.Scan
