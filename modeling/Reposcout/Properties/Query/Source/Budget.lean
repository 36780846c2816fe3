import Reposcout.Framework.Laminar
import Reposcout.Query.Source

/-!
# Admitted sources

Merging a span with the chunks it overlaps keeps the chunks of a file apart and delivers no byte
that was not requested, and every result keeps a chunk that covers its span.  So a report to
which every target could be admitted delivers each of them.
-/

namespace Reposcout.Query

open Laminar List KeyedList SourceQueryChunk Option Forall₂

/-! ## The span around merged chunks -/

lemma combinedSpan_append (span : SourceSpan) (chunks : List SourceQueryChunk)
    (chunk : SourceQueryChunk) :
    combinedSpan span (chunks ++ [chunk]) = joinSpans (combinedSpan span chunks) chunk.span :=
  foldl_append

lemma combinedSpan_contains (span : SourceSpan) (chunks : List SourceQueryChunk) :
    (combinedSpan span chunks).Contains span ∧
      ∀ chunk ∈ chunks, (combinedSpan span chunks).Contains chunk.span := by
  induction chunks using reverseRecOn with
  | nil => exact ⟨⟨le_rfl, le_rfl⟩, nofun⟩
  | append_singleton chunks last ih =>
    obtain ⟨⟨hstart, hstop⟩, hchunks⟩ := ih
    rw [combinedSpan_append]
    refine ⟨⟨?_, ?_⟩, fun chunk hchunk => ?_⟩
    · exact (min_le_left _ _).trans hstart
    · exact hstop.trans (le_max_left _ _)
    · rcases mem_append.mp hchunk with hold | hlast
      · obtain ⟨hstart', hstop'⟩ := hchunks chunk hold
        exact ⟨(min_le_left _ _).trans hstart', hstop'.trans (le_max_left _ _)⟩
      · rw [mem_singleton.mp hlast]
        exact ⟨min_le_right _ _, le_max_right _ _⟩

lemma combinedSpan_start (span : SourceSpan) (chunks : List SourceQueryChunk) :
    (combinedSpan span chunks).startByte = span.startByte ∨
      ∃ chunk ∈ chunks, (combinedSpan span chunks).startByte = chunk.span.startByte := by
  induction chunks using reverseRecOn with
  | nil => exact .inl rfl
  | append_singleton chunks last ih =>
    rw [combinedSpan_append]
    rcases min_choice (combinedSpan span chunks).startByte last.span.startByte with hmin | hmin
    · rcases ih with hspan | ⟨chunk, hchunk, heq⟩
      · exact .inl (hmin.trans hspan)
      · exact .inr ⟨chunk, mem_append_left _ hchunk, hmin.trans heq⟩
    · exact .inr ⟨last, by simp, hmin⟩

lemma combinedSpan_end (span : SourceSpan) (chunks : List SourceQueryChunk) :
    (combinedSpan span chunks).endByte = span.endByte ∨
      ∃ chunk ∈ chunks, (combinedSpan span chunks).endByte = chunk.span.endByte := by
  induction chunks using reverseRecOn with
  | nil => exact .inl rfl
  | append_singleton chunks last ih =>
    rw [combinedSpan_append]
    rcases max_choice (combinedSpan span chunks).endByte last.span.endByte with hmax | hmax
    · rcases ih with hspan | ⟨chunk, hchunk, heq⟩
      · exact .inl (hmax.trans hspan)
      · exact .inr ⟨chunk, mem_append_left _ hchunk, hmax.trans heq⟩
    · exact .inr ⟨last, by simp, hmax⟩

variable {span : SourceSpan}

lemma combinedSpan_slice {content : String} {chunks : List SourceQueryChunk}
    (hspan : (getBytes content span.startByte span.endByte).isSome)
    (hchunks : ∀ chunk ∈ chunks,
      (getBytes content chunk.span.startByte chunk.span.endByte).isSome) :
    (getBytes content (combinedSpan span chunks).startByte
      (combinedSpan span chunks).endByte).isSome := by
  rw [isSome_getBytes_iff] at hspan ⊢
  obtain ⟨hle, hstart, hend⟩ := hspan
  have hcontains := (combinedSpan_contains span chunks).1
  refine ⟨hcontains.1.trans (hle.trans hcontains.2), ?_, ?_⟩
  · rcases combinedSpan_start span chunks with heq | ⟨chunk, hchunk, heq⟩
    · exact heq ▸ hstart
    · exact heq ▸ (isSome_getBytes_iff.mp (hchunks chunk hchunk)).2.1
  · rcases combinedSpan_end span chunks with heq | ⟨chunk, hchunk, heq⟩
    · exact heq ▸ hend
    · exact heq ▸ (isSome_getBytes_iff.mp (hchunks chunk hchunk)).2.2

/-! ## The chunks of a report -/

/-- The bytes a chunk delivers. -/
def chunkRange (chunk : SourceQueryChunk) : Range ℕ :=
  ⟨chunk.file, chunk.span.startByte, chunk.span.endByte⟩

def Requests (resolved : ResolvedTarget) (file : ℕ) (span : SourceSpan) : Prop :=
  resolved.result.file = some file ∧ ∃ content, resolved.source = some (content, span)

/-- The chunks deliver what the targets ask for and nothing else, each byte once. -/
structure ChunksOk (contents : ℕ → String) (done : List ResolvedTarget)
    (sources : List SourceQueryChunk) : Prop where
  ids_nodup : (sources.map SourceQueryChunk.id).Nodup
  apart : (sources.map chunkRange).Pairwise Range.Apart
  text : ∀ chunk ∈ sources,
    getBytes (contents chunk.file) chunk.span.startByte chunk.span.endByte = some chunk.content
  requested : ∀ chunk ∈ sources, ∀ byte, chunk.span.startByte ≤ byte → byte < chunk.span.endByte →
      ∃ resolved ∈ done, ∃ span, Requests resolved chunk.file span ∧
        span.startByte ≤ byte ∧ byte < span.endByte

variable {file : ℕ}

lemma overlaps_iff {chunk : SourceQueryChunk} :
    overlaps file span chunk = true ↔ chunk.file = file ∧ (chunk.span = span ∨
        chunk.span.startByte < span.endByte ∧ span.startByte < chunk.span.endByte) := by
  simp [overlaps]

def mergedIds (file : ℕ) (span : SourceSpan) (sources : List SourceQueryChunk) : List ℕ :=
  (sources.filter (overlaps file span)).map (·.id)

section

variable {contents : ℕ → String} {done : List ResolvedTarget} {sources : List SourceQueryChunk}
variable {chunk : SourceQueryChunk}

lemma mem_mergedIds_iff (hids : (sources.map SourceQueryChunk.id).Nodup)
    (hchunk : chunk ∈ sources) :
    chunk.id ∈ mergedIds file span sources ↔ overlaps file span chunk = true := by
  unfold mergedIds
  rw [List.mem_map]
  constructor
  · rintro ⟨other, hother, hid⟩
    obtain ⟨hmem, hoverlaps⟩ := mem_filter.mp hother
    obtain rfl := inj_on_of_nodup_map hids hmem hchunk hid
    exact hoverlaps
  · intro hoverlaps
    exact ⟨chunk, mem_filter.mpr ⟨hchunk, hoverlaps⟩, rfl⟩

lemma filter_mergedIds (hids : (sources.map SourceQueryChunk.id).Nodup) (file : ℕ)
    (span : SourceSpan) :
    (sources.filter fun chunk => chunk.id ∈ mergedIds file span sources) =
      sources.filter (overlaps file span) := by
  refine filter_congr fun chunk hchunk => ?_
  exact Bool.eq_iff_iff.mpr (decide_eq_true_iff.trans (mem_mergedIds_iff hids hchunk))

variable {merged : List ℕ}

lemma mergedId_ne (hchunk : chunk ∈ sources) (hkept : chunk.id ∉ merged) :
    chunk.id ≠ mergedId merged sources := by
  unfold mergedId
  cases hmin : merged.min? with
  | some smallest =>
    have hmem : smallest ∈ merged := min?_mem hmin
    rintro heq
    exact hkept (heq ▸ hmem)
  | none =>
    have hmem : chunk.id ∈ sources.map (·.id) := mem_map_of_mem hchunk
    cases hmax : (sources.map (·.id)).max? with
    | none =>
      rw [max?_eq_none_iff.mp hmax] at hmem
      cases hmem
    | some largest =>
      have hle : chunk.id ≤ largest := (max?_eq_some_iff.mp hmax).2 _ hmem
      rw [getD_none, getD_some]
      omega

lemma combinedSpan_apart (h : ChunksOk contents done sources)
    {kept : SourceQueryChunk} (hkept : kept ∈ sources)
    (hout : ¬ overlaps file span kept = true) :
    Range.Apart (chunkRange kept)
      ⟨file, (combinedSpan span (sources.filter (overlaps file span))).startByte,
        (combinedSpan span (sources.filter (overlaps file span))).endByte⟩ := by
  intro hfile
  have hproper : kept.span.startByte ≤ kept.span.endByte :=
    (isSome_getBytes_iff.mp (isSome_iff_exists.mpr ⟨_, h.text kept hkept⟩)).1
  -- The kept chunk is apart from the span and from every merged chunk.
  have hnot : ¬ (kept.span.startByte < span.endByte ∧ span.startByte < kept.span.endByte) :=
    fun hboth => hout (overlaps_iff.mpr ⟨hfile, .inr hboth⟩)
  have hmerged : ∀ chunk ∈ sources.filter (overlaps file span),
      (kept.span.endByte ≤ chunk.span.startByte ∨ chunk.span.endByte ≤ kept.span.startByte) ∧
        (chunk.span = span ∨
          chunk.span.startByte < span.endByte ∧ span.startByte < chunk.span.endByte) := by
    intro chunk hchunk
    obtain ⟨hmem, hoverlaps⟩ := mem_filter.mp hchunk
    obtain ⟨hchunkFile, htouch⟩ := overlaps_iff.mp hoverlaps
    have hne : kept ≠ chunk := fun heq => hout (heq ▸ hoverlaps)
    have hpairwise : sources.Pairwise fun c d => (chunkRange c).Apart (chunkRange d) :=
      pairwise_map.mp h.apart
    exact ⟨hpairwise.forall hkept hmem hne (hfile.trans hchunkFile.symm), htouch⟩
  have hleft : kept.span.endByte ≤ span.startByte → kept.span.endByte ≤
      (combinedSpan span (sources.filter (overlaps file span))).startByte := by
    intro hbefore
    rcases combinedSpan_start span (sources.filter (overlaps file span)) with
      hstart | ⟨first, hfirst, hstart⟩
    · exact hstart ▸ hbefore
    · obtain ⟨hapart, heq | htouch⟩ := hmerged first hfirst
      · exact hstart ▸ heq ▸ hbefore
      · rw [hstart]
        omega
  have hright : span.endByte ≤ kept.span.startByte →
      (combinedSpan span (sources.filter (overlaps file span))).endByte ≤ kept.span.startByte := by
    intro hafter
    rcases combinedSpan_end span (sources.filter (overlaps file span)) with
      hend | ⟨last, hlast, hend⟩
    · exact hend ▸ hafter
    · obtain ⟨hapart, heq | htouch⟩ := hmerged last hlast
      · exact hend ▸ heq ▸ hafter
      · rw [hend]
        omega
  by_cases hbefore : kept.span.endByte ≤ span.startByte
  · exact .inl (hleft hbefore)
  · exact .inr (hright (by omega))

lemma combinedSpan_requested (h : ChunksOk contents done sources) {byte : ℕ}
    (hstart : (combinedSpan span (sources.filter (overlaps file span))).startByte ≤ byte)
    (hend : byte < (combinedSpan span (sources.filter (overlaps file span))).endByte) :
    (span.startByte ≤ byte ∧ byte < span.endByte) ∨
      ∃ resolved ∈ done, ∃ other, Requests resolved file other ∧
        other.startByte ≤ byte ∧ byte < other.endByte := by
  have hold : ∀ chunk ∈ sources.filter (overlaps file span),
      chunk.span.startByte ≤ byte → byte < chunk.span.endByte →
        ∃ resolved ∈ done, ∃ other, Requests resolved file other ∧
          other.startByte ≤ byte ∧ byte < other.endByte := by
    intro chunk hchunk hfirst hlast
    obtain ⟨hmem, hoverlaps⟩ := mem_filter.mp hchunk
    obtain ⟨rfl, _⟩ := overlaps_iff.mp hoverlaps
    exact h.requested chunk hmem byte hfirst hlast
  have htouch : ∀ chunk ∈ sources.filter (overlaps file span), chunk.span = span ∨
      chunk.span.startByte < span.endByte ∧ span.startByte < chunk.span.endByte := by
    intro chunk hchunk
    exact (overlaps_iff.mp (mem_filter.mp hchunk).2).2
  by_cases hbefore : byte < span.startByte
  · rcases combinedSpan_start span (sources.filter (overlaps file span)) with
      heq | ⟨chunk, hchunk, heq⟩
    · omega
    · rcases htouch chunk hchunk with hsame | htouch
      · rw [hsame] at heq
        omega
      · exact .inr (hold chunk hchunk (by omega) (by omega))
  · by_cases hafter : byte < span.endByte
    · exact .inl ⟨by omega, hafter⟩
    · rcases combinedSpan_end span (sources.filter (overlaps file span)) with
        heq | ⟨chunk, hchunk, heq⟩
      · omega
      · rcases htouch chunk hchunk with hsame | htouch
        · rw [hsame] at heq
          omega
        · exact .inr (hold chunk hchunk (by omega) (by omega))

def mergedSources (sources : List SourceQueryChunk) (file : ℕ) (span : SourceSpan)
    (text : String) : List SourceQueryChunk :=
  let merged := mergedIds file span sources
  sortBy (fun left right => compare left.id right.id)
    ((sources.filter fun chunk => chunk.id ∉ merged) ++
      [⟨mergedId merged sources, file, combinedSpan span (sources.filter (overlaps file span)),
        text⟩])

lemma mem_mergedSources_iff (hids : (sources.map SourceQueryChunk.id).Nodup) {text : String} :
    chunk ∈ mergedSources sources file span text ↔
      (chunk ∈ sources ∧ ¬ overlaps file span chunk = true) ∨
      chunk = ⟨mergedId (mergedIds file span sources) sources, file,
        combinedSpan span (sources.filter (overlaps file span)), text⟩ := by
  unfold mergedSources
  rw [mem_sortBy, mem_append, mem_filter, mem_singleton]
  refine or_congr (and_congr_right fun hchunk => ?_) Iff.rfl
  rw [decide_eq_true_iff, mem_mergedIds_iff hids hchunk]

variable (h : ChunksOk contents done sources)

include h

/-- **Merging keeps the chunks in order.** -/
lemma ChunksOk.merge {resolved : ResolvedTarget} {text : String}
    (hrequests : Requests resolved file span)
    (htext : getBytes (contents file)
      (combinedSpan span (sources.filter (overlaps file span))).startByte
      (combinedSpan span (sources.filter (overlaps file span))).endByte = some text) :
    ChunksOk contents (done ++ [resolved]) (mergedSources sources file span text) := by
  have hperm := sortBy_perm (fun left right : SourceQueryChunk =>
    compare left.id right.id) ((sources.filter fun chunk => chunk.id ∉ mergedIds file span sources)
      ++ [⟨mergedId (mergedIds file span sources) sources, file,
        combinedSpan span (sources.filter (overlaps file span)), text⟩])
  have hkept : ∀ chunk ∈ sources.filter fun chunk => chunk.id ∉ mergedIds file span sources,
      chunk ∈ sources ∧ chunk.id ∉ mergedIds file span sources := by
    intro chunk hchunk
    obtain ⟨hmem, hout⟩ := mem_filter.mp hchunk
    exact ⟨hmem, of_decide_eq_true hout⟩
  refine ⟨?_, ?_, fun chunk hchunk => ?_, fun chunk hchunk byte hstart hend => ?_⟩
  · refine (hperm.map SourceQueryChunk.id).nodup_iff.mpr ?_
    rw [map_append, map_singleton]
    refine nodup_append.mpr
      ⟨h.ids_nodup.sublist (filter_sublist.map _), nodup_singleton _, ?_⟩
    intro id hid other hother
    obtain ⟨chunk, hchunk, rfl⟩ := List.mem_map.mp hid
    rw [mem_singleton.mp hother]
    exact mergedId_ne (hkept chunk hchunk).1 (hkept chunk hchunk).2
  · refine (hperm.map chunkRange).symm.pairwise ?_ (fun hcd => Std.Symm.symm _ _ hcd)
    rw [map_append, map_singleton]
    refine pairwise_append.mpr
      ⟨h.apart.sublist (filter_sublist.map _), pairwise_singleton _ _, ?_⟩
    intro range hrange other hother
    obtain ⟨chunk, hchunk, rfl⟩ := List.mem_map.mp hrange
    rw [mem_singleton.mp hother]
    refine combinedSpan_apart h (hkept chunk hchunk).1 fun hoverlaps => ?_
    exact (hkept chunk hchunk).2
      ((mem_mergedIds_iff h.ids_nodup (hkept chunk hchunk).1).mpr hoverlaps)
  · rcases (mem_mergedSources_iff h.ids_nodup).mp hchunk with ⟨hmem, _⟩ | rfl
    · exact h.text chunk hmem
    · exact htext
  · rcases (mem_mergedSources_iff h.ids_nodup).mp hchunk with ⟨hmem, _⟩ | rfl
    · obtain ⟨other, hother, hrest⟩ := h.requested chunk hmem byte hstart hend
      exact ⟨other, mem_append_left _ hother, hrest⟩
    · rcases combinedSpan_requested h hstart hend with hspan | ⟨other, hother, hrest⟩
      · exact ⟨resolved, by simp, span, hrequests, hspan⟩
      · exact ⟨other, mem_append_left _ hother, hrest⟩

lemma ChunksOk.append (more : List ResolvedTarget) : ChunksOk contents (done ++ more) sources := by
  refine ⟨h.ids_nodup, h.apart, h.text, fun chunk hchunk byte hstart hend => ?_⟩
  obtain ⟨other, hother, hrest⟩ := h.requested chunk hchunk byte hstart hend
  exact ⟨other, mem_append_left _ hother, hrest⟩

end

/-! ## The results of a report -/

/-- The result is that of the target, and has a chunk that covers what the target asks for. -/
structure Backed (sources : List SourceQueryChunk) (resolved : ResolvedTarget)
    (result : SourceQueryResult) : Prop where
  unsourced : { result with source := none } = resolved.result
  no_source : resolved.source = none → result.source = none
  source : ∀ content span, resolved.source = some (content, span) →
    ∃ chunk ∈ sources, result.source = some chunk.id ∧ resolved.result.file = some chunk.file ∧
      chunk.span.Contains span

/-- The report admits the targets `done`, each with its file and source. -/
structure ReportOk (files : ℕ → SourceQueryFile) (contents : ℕ → String)
    (done : List ResolvedTarget) (report : SourceQueryReport) : Prop where
  chunks : ChunksOk contents done report.sources
  backed : List.Forall₂ (Backed report.sources) done report.results
  identified : ∀ file ∈ report.files, file = files file.id
  listed : ∀ resolved ∈ done, ∀ file ∈ resolved.file, file ∈ report.files

structure Deliverable (files : ℕ → SourceQueryFile) (contents : ℕ → String)
    (resolved : ResolvedTarget) : Prop where
  unsourced : resolved.result.source = none
  identified : ∀ file ∈ resolved.file, file = files file.id
  source : ∀ content span, resolved.source = some (content, span) →
    ∃ file, resolved.result.file = some file ∧ content = contents file ∧
      (getBytes content span.startByte span.endByte).isSome

variable {fits : SourceQueryReport → Bool}

lemma fitCandidate_of_fits {candidate : SourceQueryReport}
    (h : fits candidate = true) : fitCandidate fits candidate = some candidate :=
  if_pos h

variable {result : SourceQueryResult}

lemma admitResult_of_fits {report : SourceQueryReport}
    {file : Option SourceQueryFile} (h : fits (appended report file result) = true) :
    admitResult fits report file result = appended report file result := by
  unfold admitResult
  cases result.candidates.length <;> simp [admitBare, fitCandidate_of_fits h]

/-- `redirect` only changes the source. -/
lemma redirect_unsourced (merged : List ℕ) (id : ℕ) (result : SourceQueryResult) :
    { redirect merged id result with source := none } = { result with source := none } := by
  unfold redirect
  split_ifs <;> rfl

lemma redirect_of_none {id : ℕ} (h : result.source = none) :
    redirect merged id result = result := by
  unfold redirect
  rw [h]
  rfl

lemma redirect_source {id source : ℕ} (h : result.source = some source) :
    (redirect merged id result).source = some (if source ∈ merged then id else source) := by
  unfold redirect
  rw [h, any_some]
  by_cases hmem : source ∈ merged
  · simp [hmem]
  · simp [hmem, h]

lemma exists_redirected {sources : List SourceQueryChunk}
    (hids : (sources.map SourceQueryChunk.id).Nodup)
    (text : String) {chunk : SourceQueryChunk} (hchunk : chunk ∈ sources)
    (hsource : result.source = some chunk.id) :
    ∃ other ∈ mergedSources sources file span text,
      (redirect (mergedIds file span sources) (mergedId (mergedIds file span sources) sources)
        result).source = some other.id ∧
      other.file = chunk.file ∧ other.span.Contains chunk.span := by
  rw [redirect_source hsource]
  by_cases hmem : chunk.id ∈ mergedIds file span sources
  · have hoverlaps := (mem_mergedIds_iff hids hchunk).mp hmem
    have hwithin := (combinedSpan_contains span (sources.filter (overlaps file span))).2 chunk
      (mem_filter.mpr ⟨hchunk, hoverlaps⟩)
    refine ⟨_, (mem_mergedSources_iff hids).mpr (.inr rfl), by rw [if_pos hmem], ?_, hwithin⟩
    exact (overlaps_iff.mp hoverlaps).1.symm
  · refine ⟨chunk, (mem_mergedSources_iff hids).mpr (.inl ⟨hchunk, fun hoverlaps => ?_⟩),
      by rw [if_neg hmem], rfl, le_rfl, le_rfl⟩
    exact hmem ((mem_mergedIds_iff hids hchunk).mpr hoverlaps)

section

variable {files : ℕ → SourceQueryFile} {contents : ℕ → String} {done : List ResolvedTarget}
  {report : SourceQueryReport} {resolved : ResolvedTarget}

variable (h : ReportOk files contents done report)
  (hdeliverable : Deliverable files contents resolved)

include h hdeliverable

lemma mem_appended_files {file : SourceQueryFile} :
    file ∈ (appended report resolved.file resolved.result).files ↔
      file ∈ report.files ∨ file ∈ resolved.file := by
  unfold appended
  cases hfile : resolved.file with
  | none => simp
  | some other =>
    have hother : other = files other.id := hdeliverable.identified other hfile
    by_cases hpresent : (report.files.any fun present => present.id = other.id) = true
    · dsimp only
      rw [if_pos hpresent]
      obtain ⟨present, hmem, hid⟩ := any_eq_true.mp hpresent
      have hsame : present = other := by
        rw [h.identified present hmem, of_decide_eq_true hid, ← hother]
      refine ⟨.inl, ?_⟩
      rintro (hold | hnew)
      · exact hold
      · rwa [← mem_some_iff.mp hnew, ← hsame]
    · dsimp only
      rw [if_neg hpresent, mem_sortBy, mem_append, mem_singleton, mem_some_iff, eq_comm]

lemma ReportOk.appended_files :
    (∀ file ∈ (appended report resolved.file resolved.result).files, file = files file.id) ∧
      ∀ other ∈ done ++ [resolved], ∀ file ∈ other.file,
        file ∈ (appended report resolved.file resolved.result).files := by
  refine ⟨fun file hfile => ?_, fun other hother file hfile => ?_⟩
  · rcases (mem_appended_files h hdeliverable).mp hfile with hold | hnew
    · exact h.identified file hold
    · exact hdeliverable.identified file hnew
  · refine (mem_appended_files h hdeliverable).mpr ?_
    rcases mem_append.mp hother with hold | hnew
    · exact .inl (h.listed other hold file hfile)
    · rw [mem_singleton.mp hnew] at hfile
      exact .inr hfile

lemma ReportOk.admit_unsourced (hsource : resolved.source = none) :
    ReportOk files contents (done ++ [resolved])
      (appended report resolved.file resolved.result) := by
  obtain ⟨hidentified, hlisted⟩ := h.appended_files hdeliverable
  have hbacked : Backed report.sources resolved resolved.result := by
    refine ⟨?_, fun _ => hdeliverable.unsourced, fun content span hsome => ?_⟩
    · rw [← hdeliverable.unsourced]
    · rw [hsource] at hsome
      cases hsome
  exact ⟨h.chunks.append [resolved],
    rel_append h.backed (cons hbacked nil), hidentified, hlisted⟩

omit hdeliverable h

/-- The last result gets the source. -/
lemma modify_last {β : Type} (l : List β) (x : β) (f : β → β) :
    (l ++ [x]).modify l.length f = l ++ [f x] := by
  induction l with
  | nil => rfl
  | cons y l ih => rw [cons_append, length_cons, modify_succ_cons, ih, cons_append]

/-- What admitting a target with its source produces. -/
lemma withSource_ok {content text : String} (hids : (report.sources.map SourceQueryChunk.id).Nodup)
    (hunsourced : resolved.result.source = none) (hfile : resolved.result.file = some file)
    (htext : getBytes content
      (combinedSpan span (report.sources.filter (overlaps file span))).startByte
      (combinedSpan span (report.sources.filter (overlaps file span))).endByte = some text) :
    withSource report resolved content span =
      .ok { appended report resolved.file resolved.result with
        results := report.results.map (redirect (mergedIds file span report.sources)
            (mergedId (mergedIds file span report.sources) report.sources)) ++
          [{ resolved.result with
            source := some (mergedId (mergedIds file span report.sources) report.sources) }]
        sources := mergedSources report.sources file span text } := by
  have hfilter := filter_mergedIds hids file span
  have hsources : (appended report resolved.file resolved.result).sources = report.sources := rfl
  have hmerged : (report.sources.filter (overlaps file span)).map (·.id) =
      mergedIds file span report.sources := rfl
  unfold withSource mergeSource
  rw [hfile]
  dsimp only
  rw [hsources, hmerged, hfilter, htext]
  have hresults : (appended report resolved.file resolved.result).results =
      report.results ++ [resolved.result] := rfl
  have hlast : ∀ merged id, (report.results ++ [resolved.result]).map (redirect merged id) =
      report.results.map (redirect merged id) ++ [resolved.result] := by
    intro merged id
    rw [map_append, map_singleton, redirect_of_none hunsourced]
  simp only [Except.map, sourceLast, hresults, hlast, length_append, length_singleton,
    Nat.add_sub_cancel, modify_last]
  rfl

variable (h : ReportOk files contents done report)
  (hdeliverable : Deliverable files contents resolved)

include h hdeliverable

/-- **A target with source is admitted**: it gets its span, and every other result keeps its
own. -/
lemma ReportOk.admit_sourced {content : String} (hsource : resolved.source = some (content, span)) :
    ∃ report', withSource report resolved content span = .ok report' ∧
      ReportOk files contents (done ++ [resolved]) report' := by
  obtain ⟨file, hfile, rfl, hslice⟩ := hdeliverable.source content span hsource
  have hold : ∀ chunk ∈ report.sources.filter (overlaps file span),
      (getBytes (contents file) chunk.span.startByte chunk.span.endByte).isSome := by
    intro chunk hchunk
    obtain ⟨hmem, hoverlaps⟩ := mem_filter.mp hchunk
    obtain ⟨rfl, _⟩ := overlaps_iff.mp hoverlaps
    exact isSome_iff_exists.mpr ⟨_, h.chunks.text chunk hmem⟩
  obtain ⟨text, htext⟩ := isSome_iff_exists.mp (combinedSpan_slice hslice hold)
  have hids := h.chunks.ids_nodup
  refine ⟨_, withSource_ok hids hdeliverable.unsourced hfile htext, ?_⟩
  obtain ⟨hidentified, hlisted⟩ := h.appended_files hdeliverable
  refine ⟨h.chunks.merge ⟨hfile, _, hsource⟩ htext, ?_, hidentified, hlisted⟩
  have hnew : (⟨mergedId (mergedIds file span report.sources) report.sources, file,
      combinedSpan span (report.sources.filter (overlaps file span)), text⟩ : SourceQueryChunk) ∈
        mergedSources report.sources file span text :=
    (mem_mergedSources_iff hids).mpr (.inr rfl)
  have hcontains := combinedSpan_contains span (report.sources.filter (overlaps file span))
  refine rel_append ?_ (cons ?_ nil)
  · -- The results admitted before keep a chunk: their own, or the one it was merged into.
    refine forall₂_map_right_iff.mpr (h.backed.imp fun other result hbacked => ?_)
    refine ⟨(redirect_unsourced _ _ _).trans hbacked.unsourced, fun hnone => ?_, ?_⟩
    · rw [redirect_of_none (hbacked.no_source hnone)]
      exact hbacked.no_source hnone
    · intro otherContent otherSpan hother
      obtain ⟨chunk, hchunk, hid, hchunkFile, hcovers⟩ :=
        hbacked.source otherContent otherSpan hother
      obtain ⟨kept, hkept, hkeptId, hkeptFile, hwithin⟩ := exists_redirected hids text hchunk hid
      exact ⟨kept, hkept, hkeptId, hchunkFile.trans (congrArg some hkeptFile.symm),
        hwithin.1.trans hcovers.1, hcovers.2.trans hwithin.2⟩
  · refine ⟨?_, fun hnone => ?_, fun otherContent otherSpan hother => ?_⟩
    · rw [← hdeliverable.unsourced]
    · rw [hsource] at hnone
      cases hnone
    · rw [hsource] at hother
      cases hother
      exact ⟨_, hnew, rfl, hfile, hcontains.1⟩

lemma ReportOk.admitWithFit {byteBudget : ℕ}
    (hbytes : ∀ content span, resolved.source = some (content, span) →
      span.endByte - span.startByte ≤ byteBudget) :
    ∃ report', admitWithFit byteBudget (fun _ => true) report resolved = .ok report' ∧
      ReportOk files contents (done ++ [resolved]) report' := by
  unfold Query.admitWithFit
  cases hsource : resolved.source with
  | none =>
    refine ⟨_, rfl, ?_⟩
    rw [admitResult_of_fits rfl]
    exact h.admit_unsourced hdeliverable hsource
  | some source =>
    obtain ⟨content, span⟩ := source
    obtain ⟨report', hok, hreport⟩ := h.admit_sourced hdeliverable hsource
    dsimp only
    rw [if_pos (hbytes content span hsource), hok]
    exact ⟨report', rfl, hreport⟩

end

lemma reportOk_empty (files : ℕ → SourceQueryFile) (contents : ℕ → String)
    {report : SourceQueryReport} (hfiles : report.files = []) (hresults : report.results = [])
    (hsources : report.sources = []) : ReportOk files contents [] report := by
  refine ⟨⟨?_, ?_, ?_, ?_⟩, ?_, ?_, ?_⟩
  · simp [hsources]
  · simp [hsources]
  · simp [hsources]
  · simp [hsources]
  · rw [hresults]
    exact nil
  · simp [hfiles]
  · simp

variable {byteBudget : ℕ}

/-- **Every target is delivered if everything fits.** -/
lemma admitAll_ok {files : ℕ → SourceQueryFile} {contents : ℕ → String}
    {report : SourceQueryReport} {targets done : List ResolvedTarget}
    (h : ReportOk files contents done report)
    (hdeliverable : ∀ resolved ∈ targets, Deliverable files contents resolved)
    (hbytes : ∀ resolved ∈ targets, ∀ content span, resolved.source = some (content, span) →
      span.endByte - span.startByte ≤ byteBudget) :
    ∃ report', admitAll byteBudget (fun _ => true) report targets = .ok report' ∧
      ReportOk files contents (done ++ targets) report' := by
  unfold admitAll
  induction targets generalizing report done with
  | nil => exact ⟨report, rfl, by rwa [append_nil]⟩
  | cons resolved targets ih =>
    obtain ⟨next, hnext, hok⟩ := h.admitWithFit (hdeliverable resolved mem_cons_self)
      (hbytes resolved mem_cons_self)
    obtain ⟨report', hrun, hreport⟩ := ih hok
      (fun other hother => hdeliverable other (mem_cons_of_mem _ hother))
      (fun other hother => hbytes other (mem_cons_of_mem _ hother))
    refine ⟨report', ?_, ?_⟩
    · rw [foldlM_cons, hnext]
      exact hrun
    · rwa [append_assoc] at hreport

/-! ## Budgets that are large enough -/

lemma admitWithFit_of_fits {report next : SourceQueryReport} {resolved : ResolvedTarget}
    (h : admitWithFit byteBudget (fun _ => true) report resolved = .ok next)
    (hfits : fits next = true) : admitWithFit byteBudget fits report resolved = .ok next := by
  unfold admitWithFit at h ⊢
  cases hsource : resolved.source with
  | none =>
    rw [hsource] at h
    rw [admitResult_of_fits rfl] at h
    rw [admitResult_of_fits (by rw [Except.ok.inj h]; exact hfits)]
    exact h
  | some source =>
    obtain ⟨content, span⟩ := source
    rw [hsource] at h
    dsimp only at h ⊢
    split_ifs at h ⊢ with hbytes
    · cases hcandidate : withSource report resolved content span with
      | error message =>
        rw [hcandidate] at h
        cases h
      | ok candidate =>
        rw [hcandidate] at h
        dsimp only at h ⊢
        cases h
        rw [fitCandidate_of_fits hfits]
    · rw [admitResult_of_fits rfl] at h
      rw [admitResult_of_fits (by rw [Except.ok.inj h]; exact hfits)]
      exact h

lemma admitAll_of_fits {report final : SourceQueryReport} {targets : List ResolvedTarget}
    (h : admitAll byteBudget (fun _ => true) report targets = .ok final)
    (hfits : ∀ n next, admitAll byteBudget (fun _ => true) report (targets.take n) = .ok next →
      fits next = true) : admitAll byteBudget fits report targets = .ok final := by
  unfold admitAll at h hfits ⊢
  induction targets generalizing report with
  | nil => exact h
  | cons resolved targets ih =>
    rw [foldlM_cons] at h ⊢
    cases hnext : admitWithFit byteBudget (fun _ => true) report resolved with
    | error message =>
      rw [hnext] at h
      cases h
    | ok next =>
      rw [hnext] at h
      have hstep : ∀ n, ((resolved :: targets).take (n + 1)).foldlM
          (admitWithFit byteBudget fun _ => true) report =
            (targets.take n).foldlM (admitWithFit byteBudget fun _ => true) next := by
        intro n
        rw [take_succ_cons, foldlM_cons, hnext]
        rfl
      have hfirst : fits next = true := hfits 1 next ((hstep 0).trans rfl)
      rw [admitWithFit_of_fits hnext hfirst]
      exact ih h fun n other hother => hfits (n + 1) other ((hstep n).trans hother)

end Reposcout.Query
