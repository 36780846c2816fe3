import Reposcout.Context.Plan
import Reposcout.Framework.Matching

/-!
# The accounts of a context plan

Outlines respect their bounds in every file and over the whole plan, the selection respects the
token and file limits, and every scanned file is counted once.
-/

/-!
## Selection is greedy admission

The selection loop keeps several counters.  All of them are functions of the greedy split of the
ranked candidates: what is kept is selected, what is rejected is omitted.
-/

namespace Reposcout.Context

open List Greedy

def totalTokens (candidates : List Candidate) : ℕ := (candidates.map Candidate.tokens).sum

def selectedSum (files : List ContextFile) : ℕ := (files.map ContextFile.tokens).sum

/-- A candidate fits what has been selected before it: there is room for one more file and for
its tokens, where the total is cut off at the largest `usize`. -/
def fitsPlan (cfg : Config) (kept : List Candidate) (candidate : Candidate) : Bool :=
  kept.length < cfg.contextMaxFiles ∧ candidate.tokens ≤ cfg.contextBudget ∧
    min (totalTokens kept + candidate.tokens) u64Max ≤ cfg.contextBudget

variable {cfg : Config}

lemma exceeds_of_not_fitsPlan {kept : List Candidate} {candidate : Candidate}
    (h : fitsPlan cfg kept candidate = false) : cfg.contextMaxFiles ≤ kept.length ∨
      cfg.contextBudget < totalTokens kept + candidate.tokens := by
  unfold fitsPlan at h
  rw [decide_eq_false_iff_not] at h
  omega

lemma totalTokens_append_singleton (kept : List Candidate) (candidate : Candidate) :
    totalTokens (kept ++ [candidate]) = totalTokens kept + candidate.tokens := by
  unfold totalTokens
  simp

lemma selectedSum_map (kept : List Candidate) :
    selectedSum (kept.map contextFile) = totalTokens kept := by
  unfold selectedSum totalTokens
  rw [map_map]
  rfl

structure Counts (selection : CandidateSelection) (split : Greedy.Split Candidate) : Prop where
  selected : selection.selected = split.kept.map contextFile
  selectedTokens : selection.selectedTokens = min (totalTokens split.kept) u64Max
  omittedFiles : selection.omittedFiles = min split.rejected.length u64Max
  omittedTokens : selection.omittedTokens = min (totalTokens split.rejected) u64Max
  /-- Details are kept of the first omissions. -/
  omitted : selection.omitted.map (fun detail => (detail.path, detail.tokens)) =
    (split.rejected.take maxOmissionDetails).map fun candidate =>
      (candidate.path, candidate.tokens)
  /-- Files that await an outline have none yet. -/
  outlineOnly : ∀ entry ∈ selection.outlineOnly, entry.1.symbols = []

variable {selection : CandidateSelection}

lemma omissionReason_eq_none_iff {split : Greedy.Split Candidate} (h : Counts selection split)
    (candidate : Candidate) :
    omissionReason candidate selection cfg = none ↔ fitsPlan cfg split.kept candidate = true := by
  unfold omissionReason fitsPlan
  rw [h.selected, h.selectedTokens, satAdd_min, length_map, decide_eq_true_iff]
  split_ifs <;> simp <;> omega

/-- One turn of the loop is one turn of the greedy split. -/
lemma Counts.considerCandidate {seedFiles : List String} {split : Greedy.Split Candidate}
    (h : Counts selection split) (candidate : Candidate) :
    Counts (considerCandidate cfg seedFiles selection candidate)
      (pass (fitsPlan cfg) split candidate) := by
  have hreason :
      omissionReason candidate selection cfg = none ↔ fitsPlan cfg split.kept candidate = true :=
    omissionReason_eq_none_iff h candidate
  unfold Context.considerCandidate Greedy.pass
  cases hcase : omissionReason candidate selection cfg with
  | none =>
    rw [if_pos (hreason.mp hcase)]
    refine ⟨?_, ?_, h.omittedFiles, h.omittedTokens, h.omitted, h.outlineOnly⟩
    · dsimp only
      rw [h.selected, map_append, map_singleton]
    · dsimp only
      rw [h.selectedTokens, satAdd_min, totalTokens_append_singleton]
  | some reason =>
    have hnot : fitsPlan cfg split.kept candidate ≠ true := by
      intro hfits
      exact Option.some_ne_none reason (hcase.symm.trans (hreason.mpr hfits))
    rw [if_neg hnot]
    unfold omitCandidate
    refine ⟨h.selected, h.selectedTokens, ?_, ?_, ?_, ?_⟩
    · dsimp only
      rw [h.omittedFiles, satAdd_min, length_append, length_singleton]
    · dsimp only
      rw [h.omittedTokens, satAdd_min, totalTokens_append_singleton]
    · have hlength := congrArg length h.omitted
      rw [length_map, length_map, length_take] at hlength
      dsimp only
      by_cases hroom : selection.omitted.length < maxOmissionDetails
      · have hall : split.rejected.length ≤ maxOmissionDetails := by omega
        have hall' : (split.rejected ++ [candidate]).length ≤ maxOmissionDetails := by
          rw [length_append, length_singleton]
          omega
        have hold := h.omitted
        rw [take_of_length_le hall] at hold
        rw [if_pos hroom, take_of_length_le hall', map_append, map_append, hold]
        rfl
      · have hfull : maxOmissionDetails ≤ split.rejected.length := by omega
        rw [if_neg hroom, take_append_of_le_length hfull]
        exact h.omitted
    · intro entry hentry
      dsimp only at hentry
      split_ifs at hentry
      · rcases mem_append.mp hentry with hold | hnew
        · exact h.outlineOnly entry hold
        · rw [mem_singleton.mp hnew]
          rfl
      · exact h.outlineOnly entry hentry

/-- **The selection is the greedy split of the ranked candidates.** -/
lemma selectCandidates_counts (candidates : List Candidate) (cfg : Config)
    (seedFiles : List String) :
    Counts (selectCandidates candidates cfg seedFiles).2
      (split (fitsPlan cfg) (rankCandidates candidates)) := by
  unfold selectCandidates
  induction rankCandidates candidates using reverseRecOn with
  | nil => exact ⟨rfl, rfl, rfl, rfl, rfl, nofun⟩
  | append_singleton ranked candidate ih =>
    rw [foldl_append, foldl_cons, foldl_nil, split_append_singleton]
    exact ih.considerCandidate candidate

/-! ## What the selection satisfies -/

/-- The accounts of a selection: the token and file limits, the count of the omitted candidates,
and for each of these why it did not fit at its turn in rank order. -/
structure SelectionOk (cfg : Config) (candidates : List Candidate)
    (result : ℕ × CandidateSelection) : Prop where
  reported_le : result.2.selectedTokens ≤ cfg.contextBudget
  reported : result.2.selectedTokens = min (selectedSum result.2.selected) u64Max
  tokens_le : cfg.contextBudget < u64Max → selectedSum result.2.selected ≤ cfg.contextBudget
  files_le : result.2.selected.length ≤ cfg.contextMaxFiles
  counted : result.1 = result.2.selected.length + result.2.omittedFiles
  turns : ∃ kept rejected : List Candidate, (kept ++ rejected).Perm candidates ∧
    result.2.selected = kept.map contextFile ∧ result.2.omittedFiles = rejected.length ∧
    ∀ j candidate, rejected[j]? = some candidate →
      ∃ k before after, rankCandidates candidates = before ++ candidate :: after ∧
        before.Perm (kept.take k ++ rejected.take j) ∧
        (cfg.contextMaxFiles ≤ (kept.take k).length ∨
          cfg.contextBudget < totalTokens (kept.take k) + candidate.tokens)

lemma kept_within_limits (cfg : Config) (ranked : List Candidate) :
    min (totalTokens (split (fitsPlan cfg) ranked).kept) u64Max ≤ cfg.contextBudget ∧
    (split (fitsPlan cfg) ranked).kept.length ≤ cfg.contextMaxFiles := by
  refine kept_invariant (P := fun kept => min (totalTokens kept) u64Max ≤ cfg.contextBudget ∧
    kept.length ≤ cfg.contextMaxFiles) ?_ ?_ ranked
  · exact ⟨Nat.zero_le _, Nat.zero_le _⟩
  · intro kept candidate _ hfits
    unfold fitsPlan at hfits
    rw [decide_eq_true_iff] at hfits
    rw [totalTokens_append_singleton, length_append, length_singleton]
    exact ⟨hfits.2.2, hfits.1⟩

lemma selectCandidates_ok (candidates : Vec Candidate) (cfg : Config)
    (seedFiles : List String) :
    SelectionOk cfg candidates.toList (selectCandidates candidates.toList cfg seedFiles) := by
  have hcounts := selectCandidates_counts candidates.toList cfg seedFiles
  obtain ⟨htokens, hfiles⟩ := kept_within_limits cfg (rankCandidates candidates.toList)
  have hranked : (rankCandidates candidates.toList).Perm candidates.toList :=
    KeyedList.sortBy_perm _ _
  have hperm := (@split_perm _ (fitsPlan cfg) (rankCandidates candidates.toList)).trans hranked
  have hlength := hperm.length_eq
  rw [length_append] at hlength
  have homitted : (selectCandidates candidates.toList cfg seedFiles).2.omittedFiles =
      (split (fitsPlan cfg) (rankCandidates candidates.toList)).rejected.length := by
    have := candidates.length_le
    rw [hcounts.omittedFiles]
    omega
  constructor
  · rw [hcounts.selectedTokens]
    exact htokens
  · rw [hcounts.selectedTokens, hcounts.selected, selectedSum_map]
  · intro hbudget
    rw [hcounts.selected, selectedSum_map]
    omega
  · rw [hcounts.selected, length_map]
    exact hfiles
  · rw [homitted, hcounts.selected, length_map, hlength]
    rfl
  · refine ⟨_, _, hperm, hcounts.selected, homitted, fun j candidate hj => ?_⟩
    obtain ⟨k, before, after, hsplit, hbefore, hfits⟩ := rejected_turn hj
    exact ⟨k, before, after, hsplit, hbefore, exceeds_of_not_fitsPlan hfits⟩

open Reposcout.Graph Findings

variable {payloadBytes : SymbolOutline → ℕ}

/-! ## Outlines -/

def outlineSize (payloadBytes : SymbolOutline → ℕ) (symbols : List SymbolOutline) : ℕ :=
  (symbols.map payloadBytes).sum

structure OutlineBounded (payloadBytes : SymbolOutline → ℕ) (symbols : List SymbolOutline) :
    Prop where
  symbols_le : symbols.length ≤ maxOutlineSymbolsPerFile
  bytes_le : outlineSize payloadBytes symbols ≤ maxOutlineBytesPerFile
  private_le : symbols.countP (fun symbol => !symbol.exported) ≤ maxPrivateSymbolsPerFile

lemma outlineBounded_nil : OutlineBounded payloadBytes [] :=
  ⟨Nat.zero_le _, Nat.zero_le _, Nat.zero_le _⟩

/-- The counters of an outline under construction, in a plan that had this many outline bytes
before. -/
structure OutlineOk (payloadBytes : SymbolOutline → ℕ) (before : ℕ) (s : OutlineState) : Prop where
  symbols_le : s.symbols.length ≤ maxOutlineSymbolsPerFile
  fileBytes : s.fileBytes = outlineSize payloadBytes s.symbols
  fileBytes_le : s.fileBytes ≤ maxOutlineBytesPerFile
  privates : s.symbols.countP (fun symbol => !symbol.exported) ≤ s.privateSymbols
  privates_le : s.privateSymbols ≤ maxPrivateSymbolsPerFile
  bytes : s.stats.bytes = before + s.fileBytes
  bytes_le : s.stats.bytes ≤ maxOutlineBytes

variable {s : OutlineState} {before : ℕ} (h : OutlineOk payloadBytes before s)

include h

lemma OutlineOk.omitSymbol : OutlineOk payloadBytes before s.omitSymbol :=
  ⟨h.symbols_le, h.fileBytes, h.fileBytes_le, h.privates, h.privates_le, h.bytes, h.bytes_le⟩

lemma OutlineOk.addSymbol {symbol : SymbolOutline}
    (hprivate : s.symbols.countP (fun symbol => !symbol.exported) +
      (if symbol.exported then 0 else 1) ≤ s.privateSymbols) :
    OutlineOk payloadBytes before (s.addSymbol payloadBytes symbol) := by
  unfold OutlineState.addSymbol
  by_cases hfull : s.isFull (payloadBytes symbol) = true
  · rw [if_pos hfull]
    exact h.omitSymbol
  · rw [if_neg hfull]
    unfold OutlineState.isFull satAdd u64Max maxOutlineSymbolsPerFile maxOutlineBytesPerFile
      maxOutlineBytes at hfull
    simp only [Bool.or_eq_true, decide_eq_true_eq, not_or] at hfull
    have hbytes := h.bytes
    constructor
    · dsimp only
      rw [length_append, length_singleton]
      unfold maxOutlineSymbolsPerFile
      omega
    · dsimp only
      rw [h.fileBytes]
      simp [outlineSize]
    · dsimp only
      unfold maxOutlineBytesPerFile
      omega
    · dsimp only
      rw [countP_append, countP_singleton]
      refine le_trans (Nat.add_le_add_left ?_ _) hprivate
      cases symbol.exported <;> simp
    · exact h.privates_le
    · dsimp only
      omega
    · dsimp only
      unfold maxOutlineBytes
      omega

lemma OutlineOk.considerSymbol (symbol : SymbolOutline) :
    OutlineOk payloadBytes before (considerSymbol payloadBytes s symbol) := by
  have hprivates := h.privates
  unfold Context.considerSymbol
  by_cases hexported : symbol.exported = true
  · rw [if_pos hexported]
    exact h.addSymbol (by simpa [hexported] using hprivates)
  · rw [if_neg hexported]
    by_cases hfull : s.privateSymbols ≥ maxPrivateSymbolsPerFile
    · rw [if_pos hfull]
      exact h.omitSymbol
    · rw [if_neg hfull]
      have hmore : OutlineOk payloadBytes before
          { s with privateSymbols := s.privateSymbols + 1 } :=
        ⟨h.symbols_le, h.fileBytes, h.fileBytes_le, Nat.le_succ_of_le hprivates,
          Nat.succ_le_of_lt (Nat.lt_of_not_ge hfull), h.bytes, h.bytes_le⟩
      refine hmore.addSymbol ?_
      rw [if_neg hexported]
      exact Nat.succ_le_succ hprivates

omit h

section

variable {files : List FileReport} {outlines : List (PathBuf × List SymbolOutline)}
  {maxComplexity : ℕ}

def withoutOutline (file : ContextFile) : ContextFile := { file with symbols := [] }

/-- What outlining some files does: it changes nothing but their symbols, keeps the bounds and
accounts for the bytes. -/
structure Outlined (payloadBytes : SymbolOutline → ℕ) (source outlined : List ContextFile)
    (before after : OutlineStats) : Prop where
  same : outlined.map withoutOutline = source
  bounded : ∀ file ∈ outlined, OutlineBounded payloadBytes file.symbols
  bytes : after.bytes =
    before.bytes + (outlined.map fun file => outlineSize payloadBytes file.symbols).sum
  bytes_le : after.bytes ≤ maxOutlineBytes

lemma attachOutline_outlined {file : ContextFile} {stats : OutlineStats}
    (hfile : file.symbols = []) (hstats : stats.bytes ≤ maxOutlineBytes) :
    let result := attachOutline payloadBytes files outlines maxComplexity file stats
    Outlined payloadBytes [file] [result.1] stats result.2 := by
  unfold attachOutline
  cases KeyedList.get? file.path outlines with
  | none =>
    refine ⟨?_, ?_, ?_, hstats⟩
    · simp [withoutOutline, ← hfile]
    · simpa [hfile] using outlineBounded_nil
    · simp [hfile, outlineSize]
  | some source =>
    dsimp only
    generalize KeyedList.sortBy symbolOrder _ = candidates
    have hstart : OutlineOk payloadBytes stats.bytes ⟨file.symbols, 0, 0, stats⟩ := by
      rw [hfile]
      exact ⟨Nat.zero_le _, rfl, Nat.zero_le _, Nat.zero_le _, Nat.zero_le _, rfl, hstats⟩
    have hok : OutlineOk payloadBytes stats.bytes
        (candidates.foldl (considerSymbol payloadBytes) ⟨file.symbols, 0, 0, stats⟩) :=
      foldlRecOn (motive := OutlineOk payloadBytes stats.bytes) candidates _ hstart
        (fun _ hs symbol _ => hs.considerSymbol symbol)
    refine ⟨?_, ?_, ?_, hok.bytes_le⟩
    · simp [withoutOutline, ← hfile]
    · intro other hother
      rw [mem_singleton.mp hother]
      exact ⟨hok.symbols_le, hok.fileBytes ▸ hok.fileBytes_le, hok.privates.trans hok.privates_le⟩
    · rw [hok.bytes, hok.fileBytes]
      simp

lemma Outlined.cons {file outlinedFile : ContextFile} {rest outlinedRest : List ContextFile}
    {before middle after : OutlineStats}
    (hfile : Outlined payloadBytes [file] [outlinedFile] before middle)
    (hrest : Outlined payloadBytes rest outlinedRest middle after) :
    Outlined payloadBytes (file :: rest) (outlinedFile :: outlinedRest) before after where
  same := by
    have hsame := hfile.same
    rw [map_singleton, singleton_inj] at hsame
    rw [map_cons, hsame, hrest.same]
  bounded := by
    intro other hother
    rcases mem_cons.mp hother with rfl | hother
    · exact hfile.bounded _ (mem_singleton_self _)
    · exact hrest.bounded other hother
  bytes := by
    have hbytes := hfile.bytes
    rw [map_singleton, sum_singleton] at hbytes
    rw [hrest.bytes, hbytes, map_cons, sum_cons, Nat.add_assoc]
  bytes_le := hrest.bytes_le

lemma attachOutlines_outlined {source : List ContextFile} {stats : OutlineStats}
    (hsource : ∀ file ∈ source, file.symbols = []) (hstats : stats.bytes ≤ maxOutlineBytes) :
    let result := attachOutlines payloadBytes files outlines maxComplexity source stats
    Outlined payloadBytes source result.1 stats result.2 := by
  induction source generalizing stats with
  | nil => exact ⟨rfl, nofun, rfl, hstats⟩
  | cons file rest ih =>
    have hfile := @attachOutline_outlined payloadBytes files outlines maxComplexity file stats
      (hsource file mem_cons_self) hstats
    have hrest := ih (fun other h => hsource other (mem_cons_of_mem file h)) hfile.bytes_le
    exact hfile.cons hrest

variable {source : List (ContextFile × String)} {outlined : List ContextFile}

lemma outlineOnly_sizes (hlength : source.length = outlined.length) :
    (((source.zip outlined).filterMap outlineOnlyEntry).map fun entry =>
        outlineSize payloadBytes entry.symbols).sum =
      (outlined.map fun file => outlineSize payloadBytes file.symbols).sum := by
  induction source generalizing outlined with
  | nil =>
    rw [length_nil, eq_comm, length_eq_zero_iff] at hlength
    rw [hlength]
    rfl
  | cons entry rest ih =>
    cases outlined with
    | nil => simp at hlength
    | cons file outlinedRest =>
      have hrest := ih (Nat.succ.inj hlength)
      rw [zip_cons_cons, filterMap_cons, map_cons, sum_cons, ← hrest]
      unfold outlineOnlyEntry
      dsimp only
      by_cases hlisted : file.symbols ≠ [] ∨
          entry.1.evidence.any (fun evidence => evidence.role = "diagnostic") = true
      · rw [if_pos hlisted]
        simp
      · have hnone : file.symbols = [] := by
          by_contra hne
          exact hlisted (.inl hne)
        rw [if_neg hlisted, hnone]
        simp [outlineSize]

lemma mem_outlineOnly_symbols {entry : ContextOutlineOnly}
    (h : entry ∈ (source.zip outlined).filterMap outlineOnlyEntry) :
    ∃ file ∈ outlined, entry.symbols = file.symbols := by
  obtain ⟨⟨⟨file, reason⟩, other⟩, hmem, hsome⟩ := mem_filterMap.mp h
  unfold outlineOnlyEntry at hsome
  dsimp only at hsome
  split_ifs at hsome
  cases hsome
  exact ⟨other, (of_mem_zip hmem).2, rfl⟩

/-- The outlines of a plan: each within the bounds of a file, all of them within the bound of the
plan, and reported with their exact size. -/
structure OutlinesOk (payloadBytes : SymbolOutline → ℕ) (files : List ContextFile)
    (outlineOnly : List ContextOutlineOnly) (bytes : ℕ) : Prop where
  files_bounded : ∀ file ∈ files, OutlineBounded payloadBytes file.symbols
  outlineOnly_bounded : ∀ entry ∈ outlineOnly, OutlineBounded payloadBytes entry.symbols
  total : (files.map fun file => outlineSize payloadBytes file.symbols).sum +
    (outlineOnly.map fun entry => outlineSize payloadBytes entry.symbols).sum = bytes
  total_le : bytes ≤ maxOutlineBytes

lemma attachSelectionOutlines_ok {selection : CandidateSelection}
    (hselected : ∀ file ∈ selection.selected, file.symbols = [])
    (houtlineOnly : ∀ entry ∈ selection.outlineOnly, entry.1.symbols = []) :
    let result := attachSelectionOutlines payloadBytes files outlines maxComplexity selection
    result.1.map withoutOutline = selection.selected ∧
    OutlinesOk payloadBytes result.1 result.2.1 result.2.2.bytes := by
  intro result
  have hfirst := @attachOutlines_outlined payloadBytes files outlines maxComplexity
    selection.selected {} hselected (Nat.zero_le _)
  have hsource : ∀ file ∈ selection.outlineOnly.map Prod.fst, file.symbols = [] := by
    intro file hfile
    obtain ⟨entry, hentry, rfl⟩ := mem_map.mp hfile
    exact houtlineOnly entry hentry
  have hsecond := @attachOutlines_outlined payloadBytes files outlines maxComplexity
    (selection.outlineOnly.map Prod.fst) _ hsource hfirst.bytes_le
  have hlength : selection.outlineOnly.length = (attachOutlines payloadBytes files outlines
      maxComplexity (selection.outlineOnly.map Prod.fst) (attachOutlines payloadBytes files outlines
        maxComplexity selection.selected {}).2).1.length := by
    rw [← length_map withoutOutline, hsecond.same, length_map]
  refine ⟨hfirst.same, hfirst.bounded, ?_, ?_, hsecond.bytes_le⟩
  · intro entry hentry
    obtain ⟨file, hfile, hsymbols⟩ := mem_outlineOnly_symbols hentry
    rw [hsymbols]
    exact hsecond.bounded file hfile
  · have hzero : (({} : OutlineStats).bytes) = 0 := rfl
    have hbytes := hsecond.bytes
    rw [hfirst.bytes, hzero, Nat.zero_add] at hbytes
    show _ + (((selection.outlineOnly.zip _).filterMap outlineOnlyEntry).map _).sum = _
    rw [outlineOnly_sizes hlength]
    exact hbytes.symm

end

/-! ## Candidates -/

lemma collectCandidates_counts (classifier : PathClassifier) (files : Vec FileReport)
    (risks : List RiskEntry) (graph : Option GraphSignals) (seeds : PlanningSeeds)
    (neighborhood : GraphNeighborhood) (changes : Option ChangeSeeds) :
    let collection :=
      collectCandidates classifier files.toList risks graph seeds neighborhood changes
    files.toList.length = collection.candidates.length + collection.skippedFiles := by
  unfold collectCandidates
  generalize ({ classifier, seeds, neighborhood, graph, changes, riskByPath := _ } :
    CandidateInputs) = inputs
  obtain ⟨files, hfit⟩ := files
  dsimp only
  induction files using reverseRecOn with
  | nil => rfl
  | append_singleton files file ih =>
    rw [length_append, length_singleton] at hfit ⊢
    have hold := ih (by omega)
    rw [foldl_append, foldl_cons, foldl_nil]
    generalize files.foldl (collectFile inputs) ⟨[], 0, 0⟩ = collection at hold
    unfold collectFile
    rcases buildCandidate file inputs with ⟨_ | candidate, matchingTest⟩
    · dsimp only
      rw [satAdd_eq (by omega)]
      omega
    · dsimp only
      rw [length_append, length_singleton]
      omega

/-! ## The plan -/

/-- The accounts of a context plan over the scanned files: as those of its selection, with every
scanned file counted and the outlines in their bounds. -/
structure PlanOk (payloadBytes : SymbolOutline → ℕ) (cfg : Config) (scanned : ℕ)
    (candidates : List Candidate) (plan : ContextPlan) : Prop where
  reported_le : plan.selectedTokens ≤ cfg.contextBudget
  reported : plan.selectedTokens = min (selectedSum plan.files) u64Max
  tokens_le : cfg.contextBudget < u64Max → selectedSum plan.files ≤ cfg.contextBudget
  files_le : plan.files.length ≤ cfg.contextMaxFiles
  candidates_eq : plan.candidateFiles = plan.files.length + plan.omittedFiles
  scanned_eq : scanned = plan.candidateFiles + plan.skippedFiles
  turns : ∃ kept rejected : List Candidate, (kept ++ rejected).Perm candidates ∧
    plan.files.map withoutOutline = kept.map contextFile ∧
    plan.omittedFiles = rejected.length ∧
    ∀ j candidate, rejected[j]? = some candidate →
      ∃ k before after, rankCandidates candidates = before ++ candidate :: after ∧
        before.Perm (kept.take k ++ rejected.take j) ∧
        (cfg.contextMaxFiles ≤ (kept.take k).length ∨
          cfg.contextBudget < totalTokens (kept.take k) + candidate.tokens)
  outlines : OutlinesOk payloadBytes plan.files plan.outlineOnly plan.outlineBytes

lemma buildForTarget_ok (classifier : PathClassifier) (payloadBytes : SymbolOutline → ℕ)
    (files : Vec FileReport) (risks : List RiskEntry)
    (outlines : List (PathBuf × List SymbolOutline)) (graph : Option GraphSignals)
    (seeds : PlanningSeeds) (cfg : Config) (changes : Option ChangeSeeds) :
    PlanOk payloadBytes cfg files.toList.length
      (collectCandidates classifier files.toList risks graph seeds
        (graphNeighborhood classifier graph seeds.seedFiles) changes).candidates
      (buildForTarget classifier payloadBytes files.toList risks outlines graph seeds cfg
        changes) := by
  have hscanned := collectCandidates_counts classifier files risks graph seeds
    (graphNeighborhood classifier graph seeds.seedFiles) changes
  unfold buildForTarget
  dsimp only
  generalize collectCandidates classifier files.toList risks graph seeds _ changes = collection
    at hscanned ⊢
  have hfit : collection.candidates.length ≤ u64Max := by
    have := files.length_le
    omega
  have hok := selectCandidates_ok ⟨collection.candidates, hfit⟩ cfg seeds.seedFiles
  have hcounts := selectCandidates_counts collection.candidates cfg seeds.seedFiles
  have hnone : ∀ file ∈ (selectCandidates collection.candidates cfg seeds.seedFiles).2.selected,
      file.symbols = [] := by
    intro file hfile
    rw [hcounts.selected] at hfile
    obtain ⟨candidate, _, rfl⟩ := mem_map.mp hfile
    rfl
  obtain ⟨hsame, houtlines⟩ := @attachSelectionOutlines_ok payloadBytes files.toList outlines
    cfg.maxComplexity _ hnone hcounts.outlineOnly
  generalize attachSelectionOutlines payloadBytes files.toList outlines cfg.maxComplexity _ =
    result at hsame houtlines ⊢
  rcases hselect : selectCandidates collection.candidates cfg seeds.seedFiles
    with ⟨candidateFiles, selection⟩
  rw [hselect] at hok hsame
  have hsum : selectedSum result.1 = selectedSum selection.selected := by
    rw [← hsame]
    unfold selectedSum
    rw [map_map]
    rfl
  have hlength : result.1.length = selection.selected.length := by
    rw [← hsame, length_map]
  have hcandidates : candidateFiles = collection.candidates.length :=
    (congrArg Prod.fst hselect).symm
  obtain ⟨kept, rejected, hperm, hkept, hrejected, hturns⟩ := hok.turns
  constructor
  · exact hok.reported_le
  · rw [hsum]
    exact hok.reported
  · rw [hsum]
    exact hok.tokens_le
  · rw [hlength]
    exact hok.files_le
  · rw [hlength]
    exact hok.counted
  · rw [hcandidates]
    exact hscanned
  · exact ⟨kept, rejected, hperm, hsame.trans hkept, hrejected, hturns⟩
  · exact houtlines

/-- **The accounts of a context plan.**  For every candidate list, and for the plan over every
list of scanned files: the reported tokens are within the budget and are the total of the
selected files, cut off at the largest `usize`, so that the total is within every smaller budget;
the number of selected files is within the file limit; candidates are selected or omitted and
scanned files are candidates or skipped; every omitted candidate did not fit at its turn in rank
order; and the outlines keep their bounds. -/
theorem context_plan_accounts (classifier : PathClassifier) (payloadBytes : SymbolOutline → ℕ)
    (files : Vec FileReport) (risks : List RiskEntry)
    (outlines : List (PathBuf × List SymbolOutline)) (graph : Option GraphSignals)
    (seeds : PlanningSeeds) (cfg : Config) (changes : Option ChangeSeeds) :
    (∀ candidates : Vec Candidate, SelectionOk cfg candidates.toList
      (selectCandidates candidates.toList cfg seeds.seedFiles)) ∧
    PlanOk payloadBytes cfg files.toList.length
      (collectCandidates classifier files.toList risks graph seeds
        (graphNeighborhood classifier graph seeds.seedFiles) changes).candidates
      (buildForTarget classifier payloadBytes files.toList risks outlines graph seeds cfg
        changes) :=
  ⟨fun candidates => selectCandidates_ok candidates cfg seeds.seedFiles,
    buildForTarget_ok classifier payloadBytes files risks outlines graph seeds cfg changes⟩

/-- A candidate of the lowest priority. -/
def plainCandidate (name : String) (tokens : ℕ) : Candidate :=
  ⟨0, ⟨[name]⟩, name, tokens, 0, [], []⟩

/-- At the largest budget the saturating total admits more tokens than the budget. -/
theorem not_tokens_within_every_budget :
    ¬ ∀ (candidates : Vec Candidate) (cfg : Config) (seedFiles : List String),
      cfg.contextBudget ≤ u64Max → (∀ candidate ∈ candidates.toList, candidate.tokens ≤ u64Max) →
      selectedSum (selectCandidates candidates.toList cfg seedFiles).2.selected ≤
        cfg.contextBudget := by
  intro h
  have hbig := h ⟨[plainCandidate "a.rs" u64Max, plainCandidate "b.rs" 1], by decide⟩
    ⟨u64Max, 2, 10⟩ [] (by decide) (by decide)
  revert hbig
  decide +kernel

end Reposcout.Context
