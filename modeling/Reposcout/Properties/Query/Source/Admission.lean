import Reposcout.Properties.Query.Source.Budget

/-!
# Runs of admission attempts

Whatever the targets ask for and whatever fits: after each attempt the report fits, its chunks
are apart and hold the bytes of their file, and each result with a source has a chunk that covers
what its target asked for.  A rejected attempt leaves no trace.
-/

namespace Reposcout.Query

open Laminar List Option Forall₂

/-- Two reports with the same files, results and sources; the root may differ. -/
structure SameEntries (left right : SourceQueryReport) : Prop where
  files : left.files = right.files
  results : left.results = right.results
  sources : left.sources = right.sources
  requested : left.requestedTargets = right.requestedTargets
  omitted : left.omittedTargets = right.omittedTargets

lemma SameEntries.refl (report : SourceQueryReport) : SameEntries report report :=
  ⟨rfl, rfl, rfl, rfl, rfl⟩

structure Offered (contents : ℕ → String) (resolved : ResolvedTarget) : Prop where
  unsourced : resolved.result.source = none
  content : ∀ content span, resolved.source = some (content, span) →
    ∀ file ∈ resolved.result.file, content = contents file

structure Answers (sources : List SourceQueryChunk) (resolved : ResolvedTarget)
    (result : SourceQueryResult) : Prop where
  target : result.target = resolved.result.target
  covered : ∀ id, result.source = some id → ∃ content span chunk,
    resolved.source = some (content, span) ∧ chunk ∈ sources ∧ chunk.id = id ∧
      result.file = some chunk.file ∧ chunk.span.Contains span
  omitted : resolved.source.isSome → result.source = none → result.status = .budgetOmitted

/-- The state of a report while targets are admitted. `answered` are the targets with a result. -/
structure Admitted (contents : ℕ → String) (requested : ℕ) (answered : List ResolvedTarget)
    (report : SourceQueryReport) : Prop where
  chunks : ChunksOk contents answered report.sources
  answers : List.Forall₂ (Answers report.sources) answered report.results
  requested_eq : report.requestedTargets = requested
  omitted : report.omittedTargets = requested - report.results.length

/-! ## What one attempt does -/

inductive Attempted (fits : SourceQueryReport → Bool) (report : SourceQueryReport)
    (resolved : ResolvedTarget) : SourceQueryReport → Prop where
  | rejected : Attempted fits report resolved report
  | bare {next : SourceQueryReport} (file : Option SourceQueryFile) (entry : SourceQueryResult)
      (hfits : fits next = true) (hentry : Answers report.sources resolved entry)
      (hsource : entry.source = none) (hnext : SameEntries next (appended report file entry)) :
      Attempted fits report resolved next
  | sourced {next : SourceQueryReport} (content : String) (span : SourceSpan)
      (candidate : SourceQueryReport) (hfits : fits next = true)
      (hsource : resolved.source = some (content, span))
      (hcandidate : withSource report resolved content span = .ok candidate)
      (hnext : SameEntries next candidate) : Attempted fits report resolved next

variable {next candidate : SourceQueryReport}

lemma fitCandidate_eq_some {fits : SourceQueryReport → Bool}
    (h : fitCandidate fits candidate = some next) :
    fits next = true ∧ SameEntries next candidate := by
  unfold fitCandidate at h
  split_ifs at h with hfits
  · cases h
    exact ⟨hfits, SameEntries.refl _⟩
  · cases hroot : candidate.root with
    | none =>
      rw [hroot] at h
      cases h
    | some root =>
      rw [hroot] at h
      dsimp only at h
      split_ifs at h with hrootless
      cases h
      exact ⟨hrootless, ⟨rfl, rfl, rfl, rfl, rfl⟩⟩

section

variable {fits : SourceQueryReport → Bool} {report : SourceQueryReport}
  {file : Option SourceQueryFile}

variable {result : SourceQueryResult}

/-- A result that is tried with fewer and fewer candidates only loses candidates. -/
lemma admitBare_eq_some {count : ℕ} (h : admitBare fits report file count result = some next) :
    ∃ entry, entry.target = result.target ∧ entry.status = result.status ∧
      entry.source = result.source ∧ fits next = true ∧
      SameEntries next (appended report file entry) := by
  induction count generalizing result with
  | zero =>
    unfold admitBare at h
    split at h
    · rename_i candidate hcandidate
      cases h
      obtain ⟨hfits, hsame⟩ := fitCandidate_eq_some hcandidate
      exact ⟨result, rfl, rfl, rfl, hfits, hsame⟩
    · cases h
    · contradiction
  | succ count ih =>
    unfold admitBare at h
    split at h
    · rename_i candidate hcandidate
      cases h
      obtain ⟨hfits, hsame⟩ := fitCandidate_eq_some hcandidate
      exact ⟨result, rfl, rfl, rfl, hfits, hsame⟩
    · contradiction
    · rename_i rest _ hrest
      obtain rfl := Nat.succ.inj hrest
      obtain ⟨entry, htarget, hstatus, hsource, hrest⟩ := ih h
      exact ⟨entry, htarget, hstatus, hsource, hrest⟩

variable {resolved : ResolvedTarget}

lemma attempted_admitResult (htarget : result.target = resolved.result.target)
    (hunsourced : result.source = none)
    (hstatus : resolved.source.isSome → result.status = .budgetOmitted) :
    Attempted fits report resolved (admitResult fits report file result) := by
  have hnone : ∀ {entry : SourceQueryResult} {id : ℕ}, entry.source = none →
      entry.source = some id → False := by
    intro entry id hnone hsome
    rw [hnone] at hsome
    cases hsome
  unfold admitResult
  split
  · rename_i candidate hcandidate
    obtain ⟨entry, hentry, hentryStatus, hsource, hfits, hsame⟩ := admitBare_eq_some hcandidate
    rw [hunsourced] at hsource
    refine Attempted.bare file entry hfits ⟨hentry.trans htarget, fun id hid => ?_, ?_⟩ hsource hsame
    · exact (hnone hsource hid).elim
    · exact fun hasked _ => hentryStatus.trans (hstatus hasked)
  · cases hcandidate : fitCandidate fits (appended report none (budgetOmitted result)) with
    | none => exact Attempted.rejected
    | some candidate =>
      obtain ⟨hfits, hsame⟩ := fitCandidate_eq_some hcandidate
      refine Attempted.bare none (budgetOmitted result) hfits ⟨htarget, fun id hid => ?_, ?_⟩ rfl hsame
      · exact (@hnone (budgetOmitted result) id rfl hid).elim
      · exact fun _ _ => rfl

/-- **Every attempt is one of the three.** -/
lemma attempted_attempt (byteBudget : ℕ) (hunsourced : resolved.result.source = none) :
    Attempted fits report resolved (attempt byteBudget fits report resolved) := by
  unfold attempt admitWithFit
  cases hsource : resolved.source with
  | none =>
    exact attempted_admitResult rfl hunsourced (by rw [hsource]; exact fun h => nomatch h)
  | some source =>
    obtain ⟨content, span⟩ := source
    dsimp only
    split_ifs with hbytes
    · cases hcandidate : withSource report resolved content span with
      | error message => exact Attempted.rejected
      | ok candidate =>
        dsimp only
        cases hfit : fitCandidate fits candidate with
        | none => exact attempted_admitResult rfl rfl fun _ => rfl
        | some next =>
          obtain ⟨hfits, hsame⟩ := fitCandidate_eq_some hfit
          exact Attempted.sourced content span candidate hfits hsource hcandidate hsame
    · exact attempted_admitResult rfl rfl fun _ => rfl

end

/-! ## The invariant -/

section

variable {contents : ℕ → String} {fits : SourceQueryReport → Bool} {report : SourceQueryReport}
  {resolved : ResolvedTarget} {requested : ℕ}

/-- A source that could be merged. -/
lemma withSource_inv {content : String} {span : SourceSpan}
    (hids : (report.sources.map SourceQueryChunk.id).Nodup)
    (h : withSource report resolved content span = .ok candidate) :
    ∃ file text, resolved.result.file = some file ∧ getBytes content
        (combinedSpan span (report.sources.filter (overlaps file span))).startByte
        (combinedSpan span (report.sources.filter (overlaps file span))).endByte = some text := by
  unfold withSource at h
  cases hfile : resolved.result.file with
  | none =>
    rw [hfile] at h
    cases h
  | some file =>
    refine ⟨file, ?_⟩
    rw [hfile] at h
    unfold mergeSource at h
    have hsources : (appended report resolved.file resolved.result).sources = report.sources := rfl
    have hmerged : (report.sources.filter (overlaps file span)).map (·.id) =
        mergedIds file span report.sources := rfl
    dsimp only at h
    rw [hsources, hmerged, filter_mergedIds hids] at h
    cases htext : getBytes content
        (combinedSpan span (report.sources.filter (overlaps file span))).startByte
        (combinedSpan span (report.sources.filter (overlaps file span))).endByte with
    | none =>
      rw [htext] at h
      cases h
    | some text => exact ⟨text, rfl, rfl⟩

lemma Answers.redirect {sources : List SourceQueryChunk} {result : SourceQueryResult}
    (hids : (sources.map SourceQueryChunk.id).Nodup) (h : Answers sources resolved result)
    (file : ℕ) (span : SourceSpan) (text : String) :
    Answers (mergedSources sources file span text) resolved
      (redirect (mergedIds file span sources) (mergedId (mergedIds file span sources) sources)
        result) := by
  have hkept := redirect_unsourced (mergedIds file span sources)
    (mergedId (mergedIds file span sources) sources) result
  have htarget := congrArg SourceQueryResult.target hkept
  have hfile := congrArg SourceQueryResult.file hkept
  cases hsource : result.source with
  | none =>
    rw [redirect_of_none hsource]
    refine ⟨h.target, fun id hid => ?_, h.omitted⟩
    rw [hsource] at hid
    cases hid
  | some id =>
    obtain ⟨content, asked, chunk, hasked, hchunk, rfl, hchunkFile, hcovers⟩ := h.covered id hsource
    obtain ⟨other, hother, hid, hotherFile, hwithin⟩ := exists_redirected hids text hchunk hsource
    refine ⟨htarget.trans h.target, fun id' hid' => ?_, fun _ hnone => ?_⟩
    · cases hid.symm.trans hid'
      refine ⟨content, asked, other, hasked, hother, rfl, ?_, hwithin.1.trans hcovers.1,
        hcovers.2.trans hwithin.2⟩
      rw [hfile, hchunkFile, hotherFile]
    · rw [hid] at hnone
      cases hnone

variable {answered : List ResolvedTarget}

lemma Admitted.congr
    (h : Admitted contents requested answered report) (hsame : SameEntries next report) :
    Admitted contents requested answered next := by
  obtain ⟨_, hresults, hsources, hrequested, homitted⟩ := hsame
  refine ⟨?_, ?_, hrequested.trans h.requested_eq, ?_⟩
  · rw [hsources]
    exact h.chunks
  · rw [hsources, hresults]
    exact h.answers
  · rw [homitted, hresults]
    exact h.omitted

variable {entry : SourceQueryResult}

/-- A result without source keeps the invariant. -/
lemma Admitted.bare (h : Admitted contents requested answered report)
    (hentry : Answers report.sources resolved entry) (file : Option SourceQueryFile) :
    Admitted contents requested (answered ++ [resolved]) (appended report file entry) :=
  ⟨h.chunks.append [resolved],
    rel_append h.answers (cons hentry nil), h.requested_eq,
    congrArg (· - (report.results ++ [entry]).length) h.requested_eq⟩

/-- A merged source keeps the invariant. -/
lemma Admitted.sourced (h : Admitted contents requested answered report)
    (hoffered : Offered contents resolved) {content : String} {span : SourceSpan}
    (hsource : resolved.source = some (content, span))
    (hcandidate : withSource report resolved content span = .ok candidate) :
    Admitted contents requested (answered ++ [resolved]) candidate := by
  have hids := h.chunks.ids_nodup
  obtain ⟨file, text, hfile, htext⟩ := withSource_inv hids hcandidate
  obtain rfl := hoffered.content content span hsource file hfile
  obtain rfl := Except.ok.inj
    ((withSource_ok hids hoffered.unsourced hfile htext).symm.trans hcandidate)
  have hnew : (⟨mergedId (mergedIds file span report.sources) report.sources, file,
      combinedSpan span (report.sources.filter (overlaps file span)), text⟩ : SourceQueryChunk) ∈
        mergedSources report.sources file span text :=
    (mem_mergedSources_iff hids).mpr (.inr rfl)
  have hcovers := (combinedSpan_contains span (report.sources.filter (overlaps file span))).1
  refine ⟨h.chunks.merge ⟨hfile, _, hsource⟩ htext, ?_, h.requested_eq, ?_⟩
  · refine rel_append (forall₂_map_right_iff.mpr (h.answers.imp fun other result hother =>
      hother.redirect hids file span text)) (cons ⟨rfl, fun id hid => ?_, ?_⟩
        nil)
    · cases hid
      exact ⟨_, span, _, hsource, hnew, rfl, hfile, hcovers⟩
    · exact fun _ hnone => nomatch hnone
  · show report.requestedTargets - (report.results ++ [resolved.result]).length =
      requested - (report.results.map _ ++ [_]).length
    rw [h.requested_eq, length_append, length_append, length_map]
    rfl

/-- **One attempt keeps the invariant.** -/
lemma Admitted.step {answered : List ResolvedTarget} (h : Admitted contents requested answered report)
    (hoffered : Offered contents resolved)
    (hnext : Attempted fits report resolved next) :
    Admitted contents requested answered next ∨ Admitted contents requested (answered ++ [resolved]) next := by
  cases hnext with
  | rejected => exact .inl h
  | bare file entry _ hentry _ hsame => exact .inr ((h.bare hentry file).congr hsame)
  | sourced content span candidate _ hsource hcandidate hsame =>
    exact .inr ((h.sourced hoffered hsource hcandidate).congr hsame)

lemma Attempted.fits_next (h : Attempted fits report resolved next)
    (hfits : fits report = true) : fits next = true := by
  cases h with
  | rejected => exact hfits
  | bare _ _ hnext => exact hnext
  | sourced _ _ _ hnext => exact hnext

/-- An attempt that adds no result changes nothing. -/
lemma Attempted.eq_of_length (hids : (report.sources.map SourceQueryChunk.id).Nodup)
    (hunsourced : resolved.result.source = none) (h : Attempted fits report resolved next)
    (hlength : next.results.length = report.results.length) : next = report := by
  cases h with
  | rejected => rfl
  | bare file entry _ _ _ hsame =>
    rw [hsame.results] at hlength
    simp [appended] at hlength
  | sourced content span candidate _ _ hcandidate hsame =>
    obtain ⟨file, text, hfile, htext⟩ := withSource_inv hids hcandidate
    obtain rfl := Except.ok.inj ((withSource_ok hids hunsourced hfile htext).symm.trans hcandidate)
    rw [hsame.results] at hlength
    simp at hlength

/-- **A run of attempts keeps the invariant**, and the report fits if it did at the start. -/
lemma admitted_attempts (byteBudget : ℕ) {targets : List ResolvedTarget}
    (htargets : ∀ resolved ∈ targets, Offered contents resolved) (hfits : fits report = true)
    (hstart : Admitted contents requested [] report) :
    fits (attempts byteBudget fits report targets) = true ∧ ∃ answered, answered.Sublist targets ∧
        Admitted contents requested answered (attempts byteBudget fits report targets) := by
  unfold attempts
  induction targets using List.reverseRecOn with
  | nil => exact ⟨hfits, [], nil_sublist _, hstart⟩
  | append_singleton targets last ih =>
    obtain ⟨hbefore, answered, hsublist, hadmitted⟩ :=
      ih fun other hother => htargets other (mem_append_left _ hother)
    have hlast : Offered contents last := htargets last (by simp)
    rw [foldl_append, foldl_cons, foldl_nil]
    have hattempt : Attempted fits (targets.foldl (attempt byteBudget fits) report) last
        (attempt byteBudget fits (targets.foldl (attempt byteBudget fits) report) last) :=
      attempted_attempt byteBudget hlast.unsourced
    refine ⟨hattempt.fits_next hbefore, ?_⟩
    rcases hadmitted.step hlast hattempt with hsame | hmore
    · exact ⟨answered, hsublist.trans (sublist_append_left _ _), hsame⟩
    · exact ⟨answered ++ [last], hsublist.append (Sublist.refl _), hmore⟩

end

lemma Attempted.sources_eq {contents : ℕ → String} {fits : SourceQueryReport → Bool}
    {report : SourceQueryReport} {resolved : ResolvedTarget}
    (hids : (report.sources.map SourceQueryChunk.id).Nodup) (hoffered : Offered contents resolved)
    (h : Attempted fits report resolved next) (hentry : entry.source = none)
    (hresults : next.results = report.results ++ [entry]) : next.sources = report.sources := by
  cases h with
  | rejected => rfl
  | bare file other _ _ _ hsame => exact hsame.sources
  | sourced content span candidate _ _ hcandidate hsame =>
    obtain ⟨file, text, hfile, htext⟩ := withSource_inv hids hcandidate
    obtain rfl := Except.ok.inj
      ((withSource_ok hids hoffered.unsourced hfile htext).symm.trans hcandidate)
    have hlast := congrArg List.getLast? (hsame.results.symm.trans hresults)
    rw [getLast?_concat, getLast?_concat] at hlast
    rw [← some.inj hlast] at hentry
    cases hentry

structure Unanswered (report : SourceQueryReport) : Prop where
  results : report.results = []
  sources : report.sources = []
  omitted : report.omittedTargets = report.requestedTargets

lemma Unanswered.admitted {report : SourceQueryReport} (h : Unanswered report)
    (contents : ℕ → String) : Admitted contents report.requestedTargets [] report := by
  obtain ⟨hresults, hsources, homitted⟩ := h
  refine ⟨⟨?_, ?_, ?_, ?_⟩, ?_, rfl, ?_⟩
  · simp [hsources]
  · simp [hsources]
  · simp [hsources]
  · simp [hsources]
  · rw [hresults]
    exact nil
  · simp [hresults, homitted]

/-- **The admission invariant.**  After any attempts the report fits, its chunks are apart and
hold the bytes of their spans, each result answers its target, an attempt without a result leaves
no trace and one without a source leaves the sources, and every target is a result or counted. -/
theorem source_admission_invariant (byteBudget : ℕ) (fits : SourceQueryReport → Bool)
    (contents : ℕ → String) (start : SourceQueryReport) (targets : List ResolvedTarget)
    (hfits : fits start = true) (hstart : Unanswered start)
    (htargets : ∀ resolved ∈ targets, Offered contents resolved) :
    let report := attempts byteBudget fits start targets
    fits report = true ∧ ((report.sources.map SourceQueryChunk.id).Nodup ∧
        (report.sources.map chunkRange).Pairwise Range.Apart ∧
        ∀ chunk ∈ report.sources,
          getBytes (contents chunk.file) chunk.span.startByte chunk.span.endByte =
            some chunk.content) ∧
      (∃ answered, answered.Sublist targets ∧
        List.Forall₂ (Answers report.sources) answered report.results) ∧
      (∀ resolved, Offered contents resolved →
        ((attempt byteBudget fits report resolved).results.length = report.results.length →
          attempt byteBudget fits report resolved = report) ∧
        ∀ entry : SourceQueryResult, entry.source = none →
          (attempt byteBudget fits report resolved).results = report.results ++ [entry] →
            (attempt byteBudget fits report resolved).sources = report.sources) ∧
      (report.requestedTargets = start.requestedTargets ∧
        report.omittedTargets = start.requestedTargets - report.results.length ∧
        (targets.length ≤ start.requestedTargets →
          report.omittedTargets + report.results.length = start.requestedTargets)) := by
  intro report
  obtain ⟨hfinal, answered, hsublist, hadmitted⟩ :=
    admitted_attempts byteBudget htargets hfits (hstart.admitted contents)
  have hids : (report.sources.map SourceQueryChunk.id).Nodup := hadmitted.chunks.ids_nodup
  refine ⟨hfinal, ⟨hids, hadmitted.chunks.apart, hadmitted.chunks.text⟩,
    ⟨answered, hsublist, hadmitted.answers⟩, fun resolved hresolved => ⟨fun hlength => ?_,
      fun entry hentry hresults => ?_⟩, hadmitted.requested_eq, hadmitted.omitted, fun hcount => ?_⟩
  · exact (attempted_attempt byteBudget hresolved.unsourced).eq_of_length hids
      hresolved.unsourced hlength
  · exact (attempted_attempt byteBudget hresolved.unsourced).sources_eq hids hresolved hentry
      hresults
  · have homitted : report.omittedTargets = start.requestedTargets - report.results.length :=
      hadmitted.omitted
    have hlength : answered.length = report.results.length := hadmitted.answers.length_eq
    have hle := hsublist.length_le
    omega

/-! ### Two overlapping ranges of one file, of which only the first fits -/

namespace TwoRanges

def text : String := "fn a() {}\nfn b() {}\n"

def file : SourceQueryFile :=
  ⟨1, ⟨["ab.rs"]⟩, .worktree, none, some "Rust", none, some .available, some 2, some 2⟩

def resolved (index : ℕ) (start stop : ℕ) : ResolvedTarget where
  file := some file
  result := { emptyResult index (some 1) with status := .complete }
  source := some (text, ⟨start, stop, 1, 2⟩)

def targets : List ResolvedTarget := [resolved 1 0 9, resolved 2 3 19]

def start : SourceQueryReport :=
  { emptyReport (some "/work") ⟨[], 4096, 64⟩ "o200k_base" with
    requestedTargets := 2
    omittedTargets := 2 }

/-- At most twelve characters of source fit. -/
def fits (report : SourceQueryReport) : Bool :=
  (report.sources.map fun chunk => chunk.content.length).sum ≤ 12

lemma offered : ∀ other ∈ targets, Offered (fun _ => text) other := by
  intro other hother
  rcases mem_cons.mp hother with rfl | hother
  · exact ⟨rfl, fun content span hsource file _ => (Prod.mk.inj (some.inj hsource)).1.symm⟩
  · rw [mem_singleton.mp hother]
    exact ⟨rfl, fun content span hsource file _ => (Prod.mk.inj (some.inj hsource)).1.symm⟩

end TwoRanges

theorem source_admission_two_ranges :
    TwoRanges.fits (attempts 64 TwoRanges.fits TwoRanges.start TwoRanges.targets) = true ∧
      (attempts 64 TwoRanges.fits TwoRanges.start TwoRanges.targets).omittedTargets +
        (attempts 64 TwoRanges.fits TwoRanges.start TwoRanges.targets).results.length = 2 := by
  obtain ⟨hfits, _, _, _, _, _, homitted⟩ := source_admission_invariant 64 TwoRanges.fits
    (fun _ => TwoRanges.text) TwoRanges.start TwoRanges.targets (by decide) ⟨rfl, rfl, rfl⟩
    TwoRanges.offered
  exact ⟨hfits, homitted (by decide)⟩

example : (attempts 64 TwoRanges.fits TwoRanges.start TwoRanges.targets).results.map
    (fun result => (result.target, result.status, result.source)) =
      [(1, .complete, some 1), (2, .budgetOmitted, none)] := by
  decide +kernel

end Reposcout.Query
