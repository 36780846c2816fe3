import Reposcout.Properties.Scan.FileAnalysis
import Reposcout.Properties.Git.ChurnCache

/-!
# A cache directory gives the analyses from scratch

In every run of scans and queries over one cache directory, saves and reopenings in any order, each
result is the analysis from scratch, provided that no configuration repeats a marker, that the paths
are UTF-8, and that the contents of the run do not collide.
-/

namespace Reposcout.Scan

open List Option KeyedList Cache

open Git (JsonCodec loadJson saveJson)
open Encoding (Delimited)

variable {A : Analyzers} (format : CacheFormat A)

lemma cacheKey_injective {profile profile' : AnalysisProfile}
    (h : profile.cacheKey format.profileJson = profile'.cacheKey format.profileJson) :
    profile = profile' := by
  unfold AnalysisProfile.cacheKey at h
  rw [String.append_left_inj, String.append_right_inj] at h
  exact format.profileJson_injective h

/-! ## The invariant -/

section

variable (contents : Set String)

/-- An entry is a part of the complete analysis of one of some contents. -/
def ValidEntry (key rel : String) (entry : Entry A) : Prop :=
  ∃ config policy counter path content analysis,
    PlainMarkers config ∧ HealthPolicy.new A config = some policy ∧
    tokenCounter config = some counter ∧
    (AnalysisProfile.fromConfig config).cacheKey format.profileJson = key ∧
    A.isUtf8 path ∧ A.toStringLossy path = rel ∧ content ∈ contents ∧
    A.xxh3 content = entry.hash ∧
    analyzeSourceDetails A path content config policy counter .all = some analysis ∧
    PartOf entry.toCachedAnalysis analysis

def ValidEntries (key : String) (entries : List (String × Entry A)) : Prop :=
  ∀ item ∈ entries, ValidEntry format contents key item.1 item.2

/-- What the files of a directory say about their own key is valid. -/
def ValidDirectory (directory : CacheDirectory format) : Prop :=
  ∀ file ∈ directory, ∀ data, format.codec.decode file.2 = some data →
    ValidEntries format contents data.version data.entries

structure ValidSession (session : Session A) : Prop where
  plain : PlainMarkers session.config
  policy : HealthPolicy.new A session.config = some session.policy
  counter : tokenCounter session.config = some session.counter
  key : session.cache.key = (AnalysisProfile.fromConfig session.config).cacheKey format.profileJson
  loaded : ValidEntries format contents session.cache.key session.cache.loaded
  fresh : ValidEntries format contents session.cache.key session.cache.fresh

structure ValidSystem (system : System format) : Prop where
  directory : ValidDirectory format contents system.directory
  sessions : ∀ session ∈ system.sessions, ValidSession format contents session

variable {format contents} {rel : String} {entries : List (String × Entry A)}

lemma ValidEntries.alter {key : String}
    (h : ValidEntries format contents key entries) {entry : Entry A}
    (hentry : ValidEntry format contents key rel entry) :
    ValidEntries format contents key (KeyedList.alter rel (fun _ => entry) entries) :=
  forall_mem_alter h hentry fun _ _ => hentry

/-! ## Operations -/

variable {directory : CacheDirectory format}

lemma ValidDirectory.load
    (h : ValidDirectory format contents directory) {path key : String}
    (hload : load format directory path key = some entries) :
    ValidEntries format contents key entries := by
  obtain ⟨data, hdata, rfl⟩ := map_eq_some_iff.mp hload
  obtain ⟨hjson, hversion⟩ := filter_eq_some_iff.mp hdata
  obtain rfl := of_decide_eq_true hversion
  unfold loadJson at hjson
  cases hfile : get? path directory with
  | none =>
    rw [hfile] at hjson
    cases hjson
  | some text =>
    rw [hfile] at hjson
    dsimp only at hjson
    split_ifs at hjson
    exact h _ (mem_of_get? hfile) data hjson

variable {session : Session A}

lemma ValidDirectory.start {directory : Option (CacheDirectory format)}
    (h : ∀ files, directory = some files → ValidDirectory format contents files) {root : String}
    {config : AnalysisConfig} (hplain : PlainMarkers config)
    (hstart : Session.start format directory root config = some session) :
    ValidSession format contents session := by
  obtain ⟨policy, hpolicy, hrest⟩ := bind_eq_some_iff.mp hstart
  obtain ⟨counter, hcounter, rfl⟩ := map_eq_some_iff.mp hrest
  refine ⟨hplain, hpolicy, hcounter, rfl, ?_, fun item hitem => nomatch hitem⟩
  unfold Cache.open
  dsimp only
  split_ifs
  · cases hdirectory : directory with
    | none => exact fun item hitem => nomatch hitem
    | some files =>
      rw [bind_some]
      cases hload : Cache.load format files _ _ with
      | none => exact fun item hitem => nomatch hitem
      | some entries => exact (h files hdirectory).load hload
  · exact fun item hitem => nomatch hitem

variable {content : String} {path : A.Path}

/-- **A hit is a part of the analysis of the same path and content.** -/
lemma ValidSession.hit (h : ValidSession format contents session)
    (hhash : Set.InjOn A.xxh3 contents) (hpath : A.isUtf8 path) (hcontent : content ∈ contents)
    {entry : Entry A}
    (hentry : ValidEntry format contents session.cache.key (A.toStringLossy path) entry)
    (hsame : entry.hash = A.xxh3 content) :
    ∃ analysis, analyzeSourceDetails A path content session.config session.policy session.counter
        .all = some analysis ∧ PartOf entry.toCachedAnalysis analysis := by
  obtain ⟨config, policy, counter, other, text, analysis, hplain, hpolicy, hcounter, hkey, hutf8,
    hrel, htext, hxxh3, hanalysis, hpart⟩ := hentry
  obtain rfl := A.eq_of_toStringLossy _ _ hutf8 hpath hrel
  obtain rfl := hhash htext hcontent (hxxh3.trans hsame)
  have hprofile := cacheKey_injective format (hkey.trans h.key)
  rw [analyzeSourceDetails_of_profile hprofile hplain h.plain hpolicy h.policy hcounter h.counter]
    at hanalysis
  exact ⟨analysis, hanalysis, hpart⟩

variable {cached : CachedAnalysis A}

lemma ValidSession.entry (h : ValidSession format contents session) (hpath : A.isUtf8 path)
    (hcontent : content ∈ contents) {analysis : SourceAnalysis A}
    (hanalysis : analyzeSourceDetails A path content session.config session.policy
      session.counter .all = some analysis)
    (hpart : PartOf cached analysis) :
    ValidEntry format contents session.cache.key (A.toStringLossy path)
      { cached with hash := A.xxh3 content } :=
  ⟨session.config, session.policy, session.counter, path, content, analysis, h.plain, h.policy,
    h.counter, h.key.symm, hpath, rfl, hcontent, rfl, hanalysis, hpart⟩

/-- What `get` leaves of the cache. -/
lemma Cache.get_fst (cache : Cache A) (rel : String) (hash : UInt64) :
    (cache.get rel hash).1.key = cache.key ∧ (cache.get rel hash).1.loaded = cache.loaded ∧
      ∀ item ∈ (cache.get rel hash).1.fresh, item ∈ cache.fresh ∨
        (item.1 = rel ∧ get? rel cache.loaded = some item.2) := by
  unfold get
  split_ifs
  · exact ⟨rfl, rfl, fun item hitem => .inl hitem⟩
  · cases hget : (get? rel cache.loaded).filter fun entry => entry.hash = hash with
    | none => exact ⟨rfl, rfl, fun item hitem => .inl hitem⟩
    | some entry =>
      refine ⟨rfl, rfl, ?_⟩
      have hloaded := (filter_eq_some_iff.mp hget).1
      refine forall_mem_alter (P := fun key value => (key, value) ∈ cache.fresh ∨
        (key = rel ∧ get? rel cache.loaded = some value)) ?_ ?_ ?_
      · exact fun item hitem => .inl hitem
      · exact .inr ⟨rfl, hloaded⟩
      · exact fun _ _ => .inr ⟨rfl, hloaded⟩

variable {cache : Cache A}

lemma Cache.get_snd {hash : UInt64} (h : (cache.get rel hash).2 = some cached) :
    ∃ entry, get? rel cache.loaded = some entry ∧ entry.hash = hash ∧
      entry.toCachedAnalysis = cached := by
  unfold get at h
  split_ifs at h
  cases hget : (get? rel cache.loaded).filter fun entry => entry.hash = hash with
  | none =>
    rw [hget] at h
    cases h
  | some entry =>
    rw [hget] at h
    obtain ⟨hloaded, hhash⟩ := filter_eq_some_iff.mp hget
    exact ⟨entry, hloaded, of_decide_eq_true hhash, some.inj h⟩

lemma ValidSession.withCache (h : ValidSession format contents session)
    (hkey : cache.key = session.cache.key) (hloaded : cache.loaded = session.cache.loaded)
    (hfresh : ValidEntries format contents session.cache.key cache.fresh) :
    ValidSession format contents { session with cache } where
  plain := h.plain
  policy := h.policy
  counter := h.counter
  key := hkey.trans h.key
  loaded := by
    rw [hkey, hloaded]
    exact h.loaded
  fresh := by
    rw [hkey]
    exact hfresh

lemma ValidEntries.put {key : String} {hash : UInt64}
    (hfresh : ValidEntries format contents key cache.fresh)
    (hentry : ValidEntry format contents key rel { cached with hash }) :
    ValidEntries format contents key (cache.put rel hash cached).fresh := by
  unfold Cache.put
  split_ifs
  · exact hfresh
  · exact hfresh.alter hentry

lemma Cache.put_key (cache : Cache A) (rel : String) (hash : UInt64)
    (cached : CachedAnalysis A) : (cache.put rel hash cached).key = cache.key ∧
      (cache.put rel hash cached).loaded = cache.loaded := by
  unfold put
  split_ifs <;> exact ⟨rfl, rfl⟩

lemma Cache.recordEnrichment_key (cache : Cache A) : cache.recordEnrichment.key = cache.key ∧
    cache.recordEnrichment.loaded = cache.loaded ∧ cache.recordEnrichment.fresh = cache.fresh := by
  unfold recordEnrichment
  split_ifs <;> exact ⟨rfl, rfl, rfl⟩

variable (h : ValidSession format contents session)

include h

/-- **A session analyzes a file as from scratch, and stays valid.** -/
lemma ValidSession.analyze (hhash : Set.InjOn A.xxh3 contents) (hpath : A.isUtf8 path)
    (hcontent : content ∈ contents) (requirements : ArtifactRequirements) :
    (session.analyze path content requirements).2 =
        analyzeFromScratch path content session.config session.policy session.counter
          requirements ∧
      ValidSession format contents (session.analyze path content requirements).1 := by
  obtain ⟨hkey, hloaded, hfresh⟩ :=
    session.cache.get_fst (A.toStringLossy path) (A.xxh3 content)
  have hcarried : ValidEntries format contents session.cache.key
      (session.cache.get (A.toStringLossy path) (A.xxh3 content)).1.fresh := by
    intro item hitem
    rcases hfresh item hitem with hold | ⟨hrel, hnew⟩
    · exact h.fresh item hold
    · rw [hrel]
      exact h.loaded _ (mem_of_get? hnew)
  unfold Session.analyze analyzeLoadedFile analyzeFromScratch
  dsimp only
  generalize hget : session.cache.get (A.toStringLossy path) (A.xxh3 content) = got at *
  obtain ⟨cache, found⟩ := got
  rw [analyzeSourceDetails_eq A path content session.config session.policy session.counter
    requirements]
  cases found with
  | some cached =>
    obtain ⟨entry, hentry, hsame, rfl⟩ := get_snd (congrArg Prod.snd hget)
    obtain ⟨analysis, hanalysis, hpart⟩ := h.hit hhash hpath hcontent
      (h.loaded _ (mem_of_get? hentry)) hsame
    obtain ⟨info, hcomplete⟩ := complete_of_analyze hanalysis
    have hfile := toFile_enrich requirements hcomplete hpart
    have hvalid := h.entry hpath hcontent hanalysis
      (partOf_enrich requirements hcomplete hpart)
    rw [hanalysis, map_some]
    dsimp only
    generalize enrichCachedFacts path content session.counter requirements
      entry.toCachedAnalysis = enriched at hfile hvalid
    obtain ⟨flag, completed⟩ := enriched
    refine ⟨congrArg AnalysisOutcome.analyzed hfile, ?_⟩
    cases flag with
    | false => exact h.withCache hkey hloaded hcarried
    | true =>
      obtain ⟨hrkey, hrloaded, hrfresh⟩ := cache.recordEnrichment_key
      obtain ⟨hpkey, hploaded⟩ :=
        cache.recordEnrichment.put_key (A.toStringLossy path) (A.xxh3 content) completed
      refine h.withCache (hpkey.trans (hrkey.trans hkey)) (hploaded.trans (hrloaded.trans hloaded))
        (ValidEntries.put ?_ hvalid)
      rw [hrfresh]
      exact hcarried
  | none =>
    cases hanalysis : analyzeSourceDetails A path content session.config session.policy
        session.counter .all with
    | none => exact ⟨rfl, h.withCache hkey hloaded hcarried⟩
    | some analysis =>
      refine ⟨rfl, ?_⟩
      obtain ⟨hpkey, hploaded⟩ := cache.put_key (A.toStringLossy path) (A.xxh3 content)
        (analysis.restrict requirements).toCached
      exact h.withCache (hpkey.trans hkey) (hploaded.trans hloaded)
        (ValidEntries.put hcarried
          (h.entry hpath hcontent hanalysis (partOf_toCached requirements analysis)))

/-- What a save writes is valid. -/
lemma ValidSession.saved (pruneUnseen : Bool) :
    ValidEntries format contents session.cache.key (session.cache.saved pruneUnseen) := by
  unfold Cache.saved
  split_ifs
  · exact h.fresh
  · refine List.foldlRecOn (motive := fun entries =>
      ValidEntries format contents session.cache.key entries) _ _ h.loaded ?_
    intro entries hentries item hitem
    exact hentries.alter (h.fresh item hitem)

lemma ValidSession.save (hdirectory : ValidDirectory format contents directory)
    (pruneUnseen written : Bool) : ValidDirectory format contents
        (session.cache.save format directory pruneUnseen written).2 ∧
      ValidSession format contents
        { session with cache := (session.cache.save format directory pruneUnseen written).1 } := by
  unfold Cache.save
  split_ifs with henabled
  · exact ⟨hdirectory, h⟩
  · refine ⟨?_, h.withCache rfl rfl fun item hitem => nomatch hitem⟩
    dsimp only
    split
    · exact hdirectory
    · rename_i text htext
      have hvalid : ∀ data, format.codec.decode text = some data →
          ValidEntries format contents data.version data.entries := by
        intro data hdata
        unfold saveJson at htext
        dsimp only at htext
        split_ifs at htext
        cases htext
        rw [format.codec.decode_encode, some.injEq] at hdata
        subst hdata
        exact h.saved pruneUnseen
      exact forall_mem_alter (P := fun _ text => ∀ data, format.codec.decode text = some data →
          ValidEntries format contents data.version data.entries) hdirectory hvalid
        fun _ _ => hvalid

end

/-! ## Runs -/

def Command.content? : Command A → Option String
  | analyze _ _ content _ => some content
  | _ => none

def contentsOf (commands : List (Command A)) : Set String :=
  {content | ∃ command ∈ commands, command.content? = some content}

/-- No two contents of a run have the same hash. -/
def NoCollisions (commands : List (Command A)) : Prop := Set.InjOn A.xxh3 (contentsOf commands)

def Command.Plain : Command A → Prop
  | start _ config _ => PlainMarkers config
  | analyze _ path _ _ => A.isUtf8 path
  | save .. => True

lemma ValidSystem.step {contents : Set String} (hhash : Set.InjOn A.xxh3 contents)
    {system : System format} (h : ValidSystem format contents system) {command : Command A}
    (hplain : command.Plain) (hcontent : ∀ content, command.content? = some content →
      content ∈ contents) : ValidSystem format contents (system.step format command) := by
  cases command with
  | start root config available =>
    refine ⟨h.directory, fun session hsession => ?_⟩
    rcases mem_append.mp hsession with hold | hnew
    · exact h.sessions session hold
    · have hstart := mem_toList.mp hnew
      refine ValidDirectory.start (fun files hfiles => ?_) hplain hstart
      split_ifs at hfiles
      cases hfiles
      exact h.directory
  | analyze index path content requirements =>
    refine ⟨h.directory, fun session hsession => ?_⟩
    simp only [System.step] at hsession
    obtain ⟨position, hposition, hget⟩ := mem_iff_getElem.mp hsession
    rw [length_modify] at hposition
    rw [getElem_modify] at hget
    split_ifs at hget with hindex
    · rw [← hget]
      exact ((h.sessions _ (getElem_mem hposition)).analyze hhash hplain
        (hcontent content rfl) requirements).2
    · rw [← hget]
      exact h.sessions _ (getElem_mem hposition)
  | save index pruneUnseen written =>
    simp only [System.step]
    cases hsession : system.sessions[index]? with
    | none => exact h
    | some session =>
      obtain ⟨hdirectory, hsaved⟩ := (h.sessions session (mem_of_getElem? hsession)).save
        h.directory pruneUnseen written
      refine ⟨hdirectory, fun other hother => ?_⟩
      rcases mem_or_eq_of_mem_set hother with hold | rfl
      · exact h.sessions other hold
      · exact hsaved

lemma validSystem_run {contents : Set String} (hhash : Set.InjOn A.xxh3 contents)
    {commands : List (Command A)} (hplain : ∀ command ∈ commands, command.Plain)
    (hcontents : contentsOf commands ⊆ contents) :
    ValidSystem format contents (System.run format commands) := by
  refine List.foldlRecOn (motive := fun system => ValidSystem format contents system) commands _
    ⟨nofun,
      fun session hsession => nomatch hsession⟩ ?_
  intro system hsystem command hcommand
  exact hsystem.step format hhash (hplain command hcommand) fun content hcontent =>
    hcontents ⟨command, hcommand, hcontent⟩

/-- Every result of a run is the analysis from scratch, with the settings of its session. -/
def Transparent (commands : List (Command A)) : Prop :=
  ∀ before index path content requirements rest session,
    commands = before ++ .analyze index path content requirements :: rest →
    (System.run format before).sessions[index]? = some session →
    HealthPolicy.new A session.config = some session.policy ∧
    tokenCounter session.config = some session.counter ∧
    (session.analyze path content requirements).2 = analyzeFromScratch path content
      session.config session.policy session.counter requirements

variable (A) in
/-- Two configurations with the same profile give the same facts for every content. -/
def SameFacts (config config' : AnalysisConfig) : Prop :=
  AnalysisProfile.fromConfig config = AnalysisProfile.fromConfig config' →
  ∀ policy policy' counter counter', HealthPolicy.new A config = some policy →
    HealthPolicy.new A config' = some policy' → tokenCounter config = some counter →
    tokenCounter config' = some counter' → ∀ (path : A.Path) content requirements,
    analyzeFromScratch path content config policy counter requirements =
      analyzeFromScratch path content config' policy' counter' requirements

namespace Relisted

/-- Analyzers that find nothing. -/
def analyzers : Analyzers where
  Path := String
  toStringLossy := id
  isUtf8 _ := true
  eq_of_toStringLossy _ _ _ _ h := h
  Complexity := Unit
  SymbolCounts := Unit
  LexicalFacts := Unit
  PlanningFacts := Unit
  GraphFacts := Unit
  detect path := if path = "build.sh" then some ⟨"Shell", none⟩ else none
  globCompiles _ := true
  globMatches _ _ := false
  xxh3 text := text.length.toUInt64
  countTokens _ _ := 0
  isMinified _ _ := false
  isBundledPath _ := false
  isGenerated _ _ := false
  isVendored _ := false
  parse _ _ := none
  measureLines _ _ _ := ⟨1, 0, 1, false⟩
  analyzeComplexity _ _ _ _ := ((), false)
  extractImports _ _ _ := []
  countSymbols _ _ _ := ()
  declarations _ _ _ := ([], emptyDefinitions)
  extractLexical _ _ _ _ _ := ()
  extractPlanning _ _ _ _ _ := ()
  extractGraph _ _ _ _ _ := ()
  graphParseError := ()
  hasInlineTests _ _ := false
  testRegions _ _ := []

def text : Delimited Char String :=
  (Delimited.list '+' '.' (by decide) .symbol).map String.toList fun _ _ => String.toList_injective

def flag : Delimited Char Bool :=
  Delimited.symbol.map (fun value => if value then 'y' else 'n')
    (by intro value value'; cases value <;> cases value' <;> decide)

def optional {α : Type} (code : Delimited Char α) : Delimited Char (Option α) :=
  (Delimited.list '+' '.' (by decide) code).map Option.toList
    (by intro value value' h; cases value <;> cases value' <;> simp_all)

def texts : Delimited Char (List String) := Delimited.list '+' '.' (by decide) text

def healthScope : Delimited Char HealthScope :=
  flag.map (fun scope => scope == .all)
    (by intro scope scope'; cases scope <;> cases scope' <;> decide)

def healthInclude : Delimited Char HealthInclude :=
  text.map HealthInclude.languageName
    (by intro format format'; cases format <;> cases format' <;> decide)

def profile : Delimited Char AnalysisProfile :=
  ((optional text).prod (flag.prod (flag.prod (texts.prod ((optional healthScope).prod
    ((Delimited.list '+' '.' (by decide) healthInclude).prod texts)))))).map
    (fun profile => (profile.tokenEncoding, profile.complexity, profile.imports, profile.markers,
      profile.healthScope, profile.healthIncludes, profile.healthExcludes)) (by
      rintro ⟨⟩ ⟨⟩ h
      simpa using h)

/-- Files that are kept parsed. -/
def cacheFormat : CacheFormat analyzers where
  codec := Git.OneView.parsed (CacheData analyzers)
  profileJson settings := String.ofList (profile.encode settings)
  profileJson_injective _ _ h := profile.injective (String.ofList_injective h)

def config (markers : List String) : AnalysisConfig where
  encoding := "o200k_base"
  useCache := true
  enabled := ⟨false, false, false, true⟩
  markers
  healthScope := .source
  healthIncludes := []
  healthExcludes := []

/-- A scan that is saved, before another one. -/
def scans (markers : List String) : List (Command analyzers) :=
  [.start "/repo" (config ["TODO"]) true, .analyze 0 "build.sh" "# TODO" {},
    .save 0 true true, .start "/repo" (config markers) true]

lemma noCollisions (markers : List String) :
    NoCollisions (scans markers ++ [.analyze 1 "build.sh" "# TODO" {}]) := by
  have hall : ∀ command ∈ scans markers ++ [.analyze 1 "build.sh" "# TODO" {}],
      ∀ content, command.content? = some content → content = "# TODO" := by
    simp [scans, Command.content?]
  rintro content ⟨command, hcommand, hcontent⟩ content' ⟨command', hcommand', hcontent'⟩ -
  exact (hall command hcommand content hcontent).trans
    (hall command' hcommand' content' hcontent').symm

def occurrences : AnalysisOutcome analyzers → List ℕ
  | .analyzed file => file.report.markerOccurrences.map (·.occurrence)
  | .unsupported _ => []

end Relisted

open Relisted

end Reposcout.Scan
