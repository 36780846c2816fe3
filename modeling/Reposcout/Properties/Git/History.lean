import Reposcout.Git.History
import Reposcout.Properties.Git.ChurnCache
import Reposcout.Properties.Git.NativeChurn

/-!
# What a collection is computed from

A limit always marks the result before something is left out, and the mark is never taken back.
So as long as there is no mark, every event that is applied has all the changes of its commit, and
only such events reach the cache.
-/

namespace Reposcout.Git

open List Option KeyedList HistoryProcessor Repository

/-! ## Whole events -/

/-- The histories that runs find, by their state, and what Git and the platform do with them. -/
structure World where
  histories : String → Repository
  changes : TreeChanges
  pathFromGit : List UInt8 → PathBuf
  toRfc3339 : ℤ → Option String

/-- The changes of a commit after rename detection, if it is possible. -/
def Repository.renamed (repo : Repository) (oid : String) : Option (List DiffDelta) :=
  (repo.diff oid).bind fun _ => repo.findSimilar oid

/-- The event has all changes of its commit, as one of the sources lists them. -/
inductive Listed (world : World) (repo : Repository) (oid : String) : CommitEvent → Prop
  | native {commit : Commit} {parent : TreeId} (hcommit : repo.findCommit oid = some commit)
      (hparent : commit.parentTree = some parent) :
      Listed world repo oid (commitEvent commit oid
        ((world.changes parent commit.tree).map (NativeChange.delta world.pathFromGit)) false)
  | raw {commit : Commit} {diff : List DiffDelta} (hcommit : repo.findCommit oid = some commit)
      (hdiff : repo.diff oid = some diff) :
      Listed world repo oid (commitEvent commit oid (diff.map DiffDelta.cached) false)
  | renamed {commit : Commit} {similar : List DiffDelta}
      (hcommit : repo.findCommit oid = some commit) (hsimilar : repo.renamed oid = some similar) :
      Listed world repo oid (commitEvent commit oid (similar.map DiffDelta.cached) true)

def Repository.IsMerge (repo : Repository) (oid : String) : Prop :=
  ∃ commit, repo.findCommit oid = some commit ∧ 1 < commit.parentCount

/-- The event of a commit that counts everything: a merge counts nothing of its own. -/
inductive Whole (world : World) (repo : Repository) (oid : String) : CommitEvent → Prop
  | merge {commit : Commit} (hcommit : repo.findCommit oid = some commit)
      (hmerge : 1 < commit.parentCount) : Whole world repo oid (commitEvent commit oid [] true)
  | listed {event : CommitEvent} (hmerge : ¬ repo.IsMerge oid)
      (hlisted : Listed world repo oid event) : Whole world repo oid event

/-- Renames are resolved if the event needs it for these aliases and it is possible. -/
def Resolved (repo : Repository) (aliases : Aliases) (oid : String) (event : CommitEvent) : Prop :=
  event.renamesResolved = true ∨ eventNeedsRenameResolution event.deltas aliases = false ∨
    repo.renamed oid = none

/-- Commits processed with all their changes, one after the other. -/
inductive Processed (world : World) (repo : Repository) :
    List String → Aliases × Accs → Aliases × Accs → Prop
  | nil (state : Aliases × Accs) : Processed world repo [] state state
  | cons {oid : String} {oids : List String} {event : CommitEvent} {state final : Aliases × Accs}
      (hwhole : Whole world repo oid event) (hresolved : Resolved repo state.1 oid event)
      (hrest : Processed world repo oids (applyEvent state event) final) :
      Processed world repo (oid :: oids) state final

lemma Listed.oid_eq {world : World} {repo : Repository} {oid : String} {event : CommitEvent}
    (h : Listed world repo oid event) : event.oid = oid := by
  cases h <;> rfl

lemma Whole.oid_eq {world : World} {repo : Repository} {oid : String} {event : CommitEvent}
    (h : Whole world repo oid event) : event.oid = oid := by
  cases h with
  | merge => rfl
  | listed _ hlisted => exact hlisted.oid_eq

/-! ## Limits leave marks -/

variable {stats : CollectStats}

/-- **Deltas are left out only with a mark.** -/
lemma cachedDeltas_eq {limits : ChurnLimits} {diff : List DiffDelta} {deltas : List CachedDelta}
    (h : (cachedDeltas limits diff stats deltas).1.isPartial = false) :
    cachedDeltas limits diff stats deltas = (stats, deltas ++ diff.map DiffDelta.cached) ∧
      stats.isPartial = false := by
  induction diff generalizing stats deltas with
  | nil => exact ⟨by simp [cachedDeltas], h⟩
  | cons delta diff ih =>
    have homit : ∀ {deltas : List CachedDelta},
        (cachedDeltas limits diff (stats.omit 1) deltas).1.isPartial ≠ false :=
      fun hunmarked => by cases (ih hunmarked).2
    unfold cachedDeltas at h ⊢
    by_cases hlength : deltas.length ≥ limits.maxDeltasPerCommit
    · rw [if_pos hlength] at h
      exact absurd h homit
    · rw [if_neg hlength] at h ⊢
      by_cases hlong : pathTooLong delta.oldFile limits.maxPathBytes = true ∨
          pathTooLong delta.newFile limits.maxPathBytes = true
      · rw [if_pos hlong] at h
        exact absurd h homit
      · rw [if_neg hlong] at h ⊢
        obtain ⟨hrest, hstats⟩ := ih h
        exact ⟨by rw [hrest]; simp, hstats⟩

lemma LimitedDeltas.dropLongPaths_eq {limits : ChurnLimits} {state : LimitedDeltas}
    (h : (state.dropLongPaths limits).stats.isPartial = false) :
    state.dropLongPaths limits = state := by
  unfold dropLongPaths at h ⊢
  dsimp only at h ⊢
  split_ifs at h ⊢ with hremoved
  · cases h
  · -- As nothing is removed, the deltas stay as they are.
    have hlength := length_filter_le (fun delta : CachedDelta =>
      decide (¬ pathTooLong delta.oldPath limits.maxPathBytes = true ∧
        ¬ pathTooLong delta.newPath limits.maxPathBytes = true)) state.deltas
    have hsame := (filter_sublist (l := state.deltas) (p := fun delta : CachedDelta =>
      decide (¬ pathTooLong delta.oldPath limits.maxPathBytes = true ∧
        ¬ pathTooLong delta.newPath limits.maxPathBytes = true))).eq_of_length (by omega)
    rw [hsame]

lemma LimitedDeltas.truncate_eq {exceeded : Bool} {allowed : ℕ} {state : LimitedDeltas}
    (h : (state.truncate exceeded allowed).stats.isPartial = false) :
    state.truncate exceeded allowed = state := by
  unfold truncate at h ⊢
  split_ifs at h ⊢ with hexceeded
  · cases h
  · rfl

/-- **An event is cut only with a mark.** -/
lemma enforceEventLimits_eq {limits : ChurnLimits} {event : CommitEvent}
    (h : (enforceEventLimits limits event stats).2.1.isPartial = false) :
    (enforceEventLimits limits event stats).1 = event ∧ stats.isPartial = false ∧
      (enforceEventLimits limits event stats).2.2 = true := by
  unfold enforceEventLimits at h ⊢
  dsimp only at h ⊢
  have htotal := LimitedDeltas.truncate_eq h
  rw [htotal] at h ⊢
  have hcommit := LimitedDeltas.truncate_eq h
  rw [hcommit] at h ⊢
  have hpaths := LimitedDeltas.dropLongPaths_eq h
  rw [hpaths] at h ⊢
  exact ⟨rfl, h, rfl⟩

lemma walkHistoryOids_complete {limits : ChurnLimits} {deadline : ℕ → Bool} {index : ℕ}
    {rest : List (Option String)} {walk : HistoryWalk}
    (h : (walkHistoryOids limits deadline index rest walk).complete = true) :
    walk.complete = true ∧
      (walkHistoryOids limits deadline index rest walk).isPartial = walk.isPartial ∧
      (walkHistoryOids limits deadline index rest walk).oids.map some = walk.oids.map some ++
        if limits.maxCommits > 0 then rest.take (limits.maxCommits - walk.oids.length)
        else rest := by
  induction rest generalizing index walk with
  | nil => exact ⟨h, rfl, by simp [walkHistoryOids]⟩
  | cons oid rest ih =>
    unfold walkHistoryOids at h ⊢
    by_cases hdeadline : deadline index = true
    · rw [if_pos hdeadline] at h
      cases h
    · rw [if_neg hdeadline] at h ⊢
      by_cases hlimit : limits.maxCommits > 0 ∧ walk.oids.length ≥ limits.maxCommits
      · rw [if_pos hlimit] at h ⊢
        refine ⟨h, rfl, ?_⟩
        rw [if_pos hlimit.1, Nat.sub_eq_zero_of_le hlimit.2]
        simp
      · rw [if_neg hlimit] at h ⊢
        cases oid with
        | none =>
          cases (ih h).1
        | some oid =>
          obtain ⟨hcomplete, hunmarked, hoids⟩ := ih h
          refine ⟨hcomplete, hunmarked, ?_⟩
          rw [hoids, map_append, append_assoc, length_append, length_singleton]
          by_cases hbounded : limits.maxCommits > 0
          · obtain ⟨left, hleft⟩ : ∃ left, limits.maxCommits - walk.oids.length = left + 1 :=
              ⟨limits.maxCommits - walk.oids.length - 1, by omega⟩
            rw [if_pos hbounded, if_pos hbounded, hleft, take_succ_cons]
            rw [show limits.maxCommits - (walk.oids.length + 1) = left by omega]
            rfl
          · rw [if_neg hbounded, if_neg hbounded]
            rfl

/-! ## One commit -/

section

variable {world : World} {repo : Repository} {oid : String} (limits : ChurnLimits) {oids : List
      String}

lemma mem_mergeCommitOids (hoid : oid ∈ oids) :
    oid ∈ mergeCommitOids repo oids ↔ repo.IsMerge oid := by
  unfold mergeCommitOids IsMerge
  rw [mem_filter, Option.any_eq_true]
  simp [hoid]

lemma analyzeCommit_spec (aliases : Aliases) (stats : CollectStats)
    (h : (analyzeCommit repo limits oid aliases stats).1.isPartial = false) :
    stats.isPartial = false ∧ ∀ event ∈ (analyzeCommit repo limits oid aliases stats).2,
      Listed world repo oid event := by
  unfold analyzeCommit at h ⊢
  cases hcommit : repo.findCommit oid with
  | none =>
    rw [hcommit] at h
    exact ⟨h, fun _ hevent => absurd hevent (not_mem_none _)⟩
  | some commit =>
    rw [hcommit] at h
    cases hdiff : repo.diff oid with
    | none =>
      rw [hdiff] at h
      exact ⟨h, fun _ hevent => absurd hevent (not_mem_none _)⟩
    | some diff =>
      rw [hdiff] at h
      dsimp only at h ⊢
      have hraw : ∀ (hunmarked : (cachedDeltas limits diff stats []).1.isPartial = false),
          stats.isPartial = false ∧ Listed world repo oid
              (commitEvent commit oid (cachedDeltas limits diff stats []).2 false) := by
        intro hunmarked
        obtain ⟨heq, hstats⟩ := cachedDeltas_eq hunmarked
        rw [heq]
        exact ⟨hstats, Listed.raw hcommit hdiff⟩
      split_ifs at h ⊢ with hneeds
      · cases hsimilar : repo.findSimilar oid with
        | none =>
          rw [hsimilar] at h
          obtain ⟨hstats, hlisted⟩ := hraw h
          refine ⟨hstats, fun event hevent => ?_⟩
          cases hevent
          exact hlisted
        | some similar =>
          rw [hsimilar] at h
          obtain ⟨heq, hunmarked⟩ := cachedDeltas_eq h
          refine ⟨(hraw hunmarked).1, fun event hevent => ?_⟩
          dsimp only at hevent
          rw [heq] at hevent
          cases hevent
          refine Listed.renamed hcommit ?_
          rw [renamed, hdiff, bind_some, hsimilar]
      · obtain ⟨hstats, hlisted⟩ := hraw h
        refine ⟨hstats, fun event hevent => ?_⟩
        cases hevent
        exact hlisted

/-- Renames are resolved with the whole diff, or resolving them is impossible. -/
lemma resolveCommitRenames_spec (stats : CollectStats)
    (h : (resolveCommitRenames repo limits oid stats).1.isPartial = false) :
    stats.isPartial = false ∧ (∀ event ∈ (resolveCommitRenames repo limits oid stats).2,
        Listed world repo oid event ∧ event.renamesResolved = true) ∧
      ((resolveCommitRenames repo limits oid stats).2 = none →
        repo.findCommit oid = none ∨ repo.renamed oid = none) := by
  unfold resolveCommitRenames at h ⊢
  cases hcommit : repo.findCommit oid with
  | none =>
    rw [hcommit] at h
    exact ⟨h, fun _ hevent => absurd hevent (not_mem_none _), fun _ => .inl rfl⟩
  | some commit =>
    rw [hcommit] at h
    unfold renamed
    cases hdiff : repo.diff oid with
    | none =>
      rw [hdiff] at h
      exact ⟨h, fun _ hevent => absurd hevent (not_mem_none _), fun _ => .inr rfl⟩
    | some diff =>
      rw [hdiff] at h
      cases hsimilar : repo.findSimilar oid with
      | none =>
        rw [hsimilar] at h
        exact ⟨h, fun _ hevent => absurd hevent (not_mem_none _), fun _ => .inr rfl⟩
      | some similar =>
        rw [hsimilar] at h
        obtain ⟨heq, hstats⟩ := cachedDeltas_eq h
        refine ⟨hstats, fun event hevent => ?_, fun hnone => by cases hnone⟩
        dsimp only at hevent
        rw [heq] at hevent
        cases hevent
        refine ⟨Listed.renamed hcommit ?_, rfl⟩
        rw [renamed, hdiff, bind_some, hsimilar]

/-- What holds while the history is processed: the cache has whole events only, and so has the
stream unless something was left out. -/
structure Sound (world : World) (repo : Repository) (processor : HistoryProcessor) : Prop where
  cached : ∀ entry ∈ processor.cache.events.getD [], Whole world repo entry.1 entry.2
  streamed : processor.stats.isPartial = false → ∀ oid event,
    get? oid processor.streamedEvents = some event → Whole world repo oid event

variable {processor : HistoryProcessor}

lemma Sound.event (h : Sound world repo processor)
    {event : CommitEvent} (hevent : processor.cache.event oid = some event) :
    Whole world repo oid event := by
  unfold ChurnCache.event at hevent
  cases hevents : processor.cache.events with
  | none =>
    rw [hevents] at hevent
    cases hevent
  | some events =>
    rw [hevents] at hevent
    refine h.cached (oid, event) ?_
    rw [hevents]
    exact mem_of_get? hevent

/-- **The event of a commit is whole**, if nothing was left out. -/
lemma eventFor_spec (hoid : oid ∈ oids) (h : Sound world repo processor) :
    let found := processor.eventFor repo limits (mergeCommitOids repo oids) oid
    Sound world repo found.1 ∧ found.1.cache = processor.cache ∧
      found.1.aliases = processor.aliases ∧ found.1.acc = processor.acc ∧
      (found.1.complete = true → processor.complete = true ∧ found.2 ≠ none) ∧
      (found.1.stats.isPartial = false → processor.stats.isPartial = false ∧
        ∀ event ∈ found.2, Whole world repo oid event) := by
  unfold eventFor
  by_cases hmerge : oid ∈ mergeCommitOids repo oids
  · rw [if_pos hmerge]
    obtain ⟨commit, hcommit, hparents⟩ := (mem_mergeCommitOids hoid).mp hmerge
    rw [hcommit]
    refine ⟨h, rfl, rfl, rfl, fun hcomplete => ⟨hcomplete, by simp⟩, fun hunmarked =>
      ⟨hunmarked, fun event hevent => ?_⟩⟩
    cases hevent
    exact Whole.merge hcommit hparents
  · rw [if_neg hmerge]
    have hsingle : ¬ repo.IsMerge oid := fun hmem => hmerge ((mem_mergeCommitOids hoid).mpr hmem)
    cases hcached : processor.cache.event oid with
    | some event =>
      refine ⟨h, rfl, rfl, rfl, fun hcomplete => ⟨hcomplete, by simp⟩, fun hunmarked =>
        ⟨hunmarked, fun other hother => ?_⟩⟩
      cases hother
      exact h.event hcached
    | none =>
      dsimp only
      cases hstreamed : get? oid processor.streamedEvents with
      | some event =>
        refine ⟨⟨h.cached, fun hunmarked other found hfound => ?_⟩, rfl, rfl, rfl,
          fun hcomplete => ⟨hcomplete, by simp⟩, fun hunmarked =>
            ⟨hunmarked, fun other hother => ?_⟩⟩
        · rw [get?_filter_ne] at hfound
          split_ifs at hfound
          exact h.streamed hunmarked other found hfound
        · cases hother
          exact h.streamed hunmarked oid event hstreamed
      | none =>
        by_cases hskip : limits.skipLibgit2Fallback = true
        · rw [if_pos hskip]
          refine ⟨⟨h.cached, ?_⟩, rfl, rfl, rfl, ?_, ?_⟩
          all_goals
            intro hmark
            cases hmark
        · rw [if_neg hskip]
          have hanalyzed := @analyzeCommit_spec world repo oid limits processor.aliases
            processor.stats
          cases hevent : (analyzeCommit repo limits oid processor.aliases processor.stats).2 with
          | none =>
            refine ⟨⟨h.cached, fun hunmarked => h.streamed (hanalyzed hunmarked).1⟩, rfl, rfl, rfl,
              ?_, fun hunmarked => ⟨(hanalyzed hunmarked).1,
                fun event hnone => absurd hnone (not_mem_none _)⟩⟩
            intro hcomplete
            cases hcomplete
          | some event =>
            refine ⟨⟨h.cached, fun hunmarked => h.streamed (hanalyzed hunmarked).1⟩, rfl, rfl, rfl,
              fun hcomplete => ⟨hcomplete, by simp⟩, fun hunmarked => ⟨(hanalyzed hunmarked).1,
                fun other hother => ?_⟩⟩
            cases hother
            exact Whole.listed hsingle ((hanalyzed hunmarked).2 event hevent)

/-- **Renames are resolved where they are needed**, if nothing was left out. -/
lemma resolveRenames_spec {event : CommitEvent} (h : Sound world repo processor)
    (hevent : processor.stats.isPartial = false → Whole world repo oid event) :
    let resolved := processor.resolveRenames repo limits oid event
    Sound world repo resolved.1 ∧ resolved.1.cache = processor.cache ∧
      resolved.1.aliases = processor.aliases ∧ resolved.1.acc = processor.acc ∧
      (resolved.1.complete = true → processor.complete = true) ∧
      (resolved.1.stats.isPartial = false → processor.stats.isPartial = false ∧
        Whole world repo oid resolved.2 ∧ Resolved repo processor.aliases oid resolved.2) := by
  unfold resolveRenames
  by_cases hneeds : event.renamesResolved = false ∧
      eventNeedsRenameResolution event.deltas processor.aliases = true
  · rw [if_pos hneeds]
    by_cases hskip : limits.skipLibgit2Fallback = true ∨ processor.stats.isPartial = true
    · rw [if_pos hskip]
      refine ⟨⟨h.cached, ?_⟩, rfl, rfl, rfl, ?_, ?_⟩
      all_goals
        intro hmark
        cases hmark
    · rw [if_neg hskip]
      have hresolve := @resolveCommitRenames_spec world repo oid limits processor.stats
      refine ⟨⟨h.cached, fun hunmarked => h.streamed (hresolve hunmarked).1⟩, rfl, rfl, rfl, id,
        fun hunmarked => ?_⟩
      obtain ⟨hstats, hsome, hnone⟩ := hresolve hunmarked
      have hwhole := hevent hstats
      refine ⟨hstats, ?_⟩
      dsimp only
      cases hfound : (resolveCommitRenames repo limits oid processor.stats).2 with
      | none =>
        refine ⟨hwhole, ?_⟩
        rcases hnone hfound with hcommit | hrenamed
        · -- A whole event is about a commit that can be read.
          exfalso
          cases hwhole with
          | merge hother => rw [hcommit] at hother; cases hother
          | listed _ hlisted =>
            cases hlisted with
            | native hother => rw [hcommit] at hother; cases hother
            | raw hother => rw [hcommit] at hother; cases hother
            | renamed hother => rw [hcommit] at hother; cases hother
        · exact .inr (.inr hrenamed)
      | some resolved =>
        obtain ⟨hlisted, hresolved⟩ := hsome resolved hfound
        refine ⟨?_, .inl hresolved⟩
        cases hwhole with
        | merge => cases hneeds.1
        | listed hmerge => exact Whole.listed hmerge hlisted
  · rw [if_neg hneeds]
    refine ⟨h, rfl, rfl, rfl, id, fun hunmarked => ⟨hunmarked, hevent hunmarked, ?_⟩⟩
    by_cases hflag : event.renamesResolved = true
    · exact .inl hflag
    · refine .inr (.inl ?_)
      rw [Bool.not_eq_true] at hflag
      exact Bool.not_eq_true _ ▸ fun hneed => hneeds ⟨hflag, hneed⟩

end

/-! ## The whole history -/

/-- The events of a cache may differ, the rest is the same. -/
structure SameViews (left right : ChurnCache) : Prop where
  enabled : right.enabled = left.enabled
  views : right.views = left.views
  historyState : right.historyState = left.historyState

lemma sameViews_putEvent (cache : ChurnCache) (event : CommitEvent) :
    SameViews cache (cache.putEvent event) := by
  unfold ChurnCache.putEvent
  split_ifs
  · exact ⟨rfl, rfl, rfl⟩
  · exact ⟨rfl, rfl, rfl⟩

section

variable {world : World} {repo : Repository} (limits : ChurnLimits) (useEventCache : Bool) {oid :
      String}

/-- **Only whole events reach the cache.** -/
lemma putEvent_whole {cache : ChurnCache} {event : CommitEvent}
    (h : ∀ entry ∈ cache.events.getD [], Whole world repo entry.1 entry.2)
    (hevent : Whole world repo oid event) :
    ∀ entry ∈ (cache.putEvent event).events.getD [], Whole world repo entry.1 entry.2 := by
  unfold ChurnCache.putEvent
  split_ifs
  · refine forall_mem_alter (P := fun oid (event : CommitEvent) =>
      Whole world repo oid event) h ?_ fun _ _ => ?_
    · rw [hevent.oid_eq]
      exact hevent
    · rw [hevent.oid_eq]
      exact hevent
  · exact h

variable {processor : HistoryProcessor}

lemma applyLimited_spec {event : CommitEvent} (h : Sound world repo processor)
    (hevent : processor.stats.isPartial = false → Whole world repo oid event) :
    let next := processor.applyLimited limits useEventCache event
    Sound world repo next ∧ SameViews processor.cache next.cache ∧
      (next.complete = true → processor.complete = true) ∧
      (next.stats.isPartial = false → processor.stats.isPartial = false ∧
        (next.aliases, next.acc) = applyEvent (processor.aliases, processor.acc) event) := by
  unfold applyLimited
  dsimp only
  refine ⟨⟨?_, fun hunmarked => ?_⟩, ?_, fun hcomplete => ?_, fun hunmarked => ?_⟩
  · split_ifs with hput
    · obtain ⟨hsame, hunmarked, _⟩ := enforceEventLimits_eq (by simpa using hput.2)
      rw [hsame]
      exact putEvent_whole h.cached (hevent hunmarked)
    · exact h.cached
  · exact h.streamed (enforceEventLimits_eq hunmarked).2.1
  · split_ifs
    · exact sameViews_putEvent _ _
    · exact ⟨rfl, rfl, rfl⟩
  · exact (Bool.and_eq_true_iff.mp hcomplete).1
  · obtain ⟨hsame, hstats, _⟩ := enforceEventLimits_eq hunmarked
    rw [hsame]
    exact ⟨hstats, rfl⟩

/-- **One commit**: what was sound stays sound, and without a mark the commit was applied with all
its changes. -/
lemma processOid_spec (deadline : Bool) (hoid : oid ∈ oids) (h : Sound world repo processor) :
    let step := processor.processOid repo limits useEventCache (mergeCommitOids repo oids)
      deadline oid
    Sound world repo step.1 ∧ SameViews processor.cache step.1.cache ∧
      (step.1.complete = true → processor.complete = true) ∧
      (step.1.stats.isPartial = false → processor.stats.isPartial = false) ∧
      (step.1.complete = true → step.1.stats.isPartial = false → step.2 = false ∧
        ∃ event, Whole world repo oid event ∧ Resolved repo processor.aliases oid event ∧
          (step.1.aliases, step.1.acc) = applyEvent (processor.aliases, processor.acc) event) := by
  unfold processOid
  by_cases hlimit : deadline = true ∨ processor.stats.totalDeltas ≥ limits.maxTotalDeltas
  · rw [if_pos hlimit]
    refine ⟨⟨h.cached, ?_⟩, ⟨rfl, rfl, rfl⟩, ?_, ?_, ?_⟩
    all_goals
      intro hmark
      cases hmark
  · rw [if_neg hlimit]
    dsimp only
    obtain ⟨hfound, hcache, haliases, hacc, hcomplete, hunmarked⟩ :=
      eventFor_spec limits hoid h
    revert hfound hcache haliases hacc hcomplete hunmarked
    generalize processor.eventFor repo limits (mergeCommitOids repo oids) oid = found
    intro hfound hcache haliases hacc hcomplete hunmarked
    cases hevent : found.2 with
    | none =>
      refine ⟨hfound, hcache ▸ ⟨rfl, rfl, rfl⟩, fun hmark => (hcomplete hmark).1,
        fun hmark => (hunmarked hmark).1, fun hmark _ => absurd hevent (hcomplete hmark).2⟩
    | some event =>
      dsimp only
      obtain ⟨hresolved, hresolvedCache, hresolvedAliases, hresolvedAcc, hresolvedComplete,
        hresolvedPartial⟩ := resolveRenames_spec limits hfound
          fun hmark => (hunmarked hmark).2 event hevent
      revert hresolved hresolvedCache hresolvedAliases hresolvedAcc hresolvedComplete
        hresolvedPartial
      generalize found.1.resolveRenames repo limits oid event = resolved
      intro hresolved hresolvedCache hresolvedAliases hresolvedAcc hresolvedComplete
        hresolvedPartial
      obtain ⟨hnext, hviews, hnextComplete, hnextPartial⟩ := applyLimited_spec limits useEventCache
        hresolved fun hmark => (hresolvedPartial hmark).2.1
      refine ⟨hnext, ?_, fun hmark => ?_, fun hmark => ?_, fun _ hmark => ⟨?_, ?_⟩⟩
      · rw [hresolvedCache, hcache] at hviews
        exact hviews
      · exact (hcomplete (hresolvedComplete (hnextComplete hmark))).1
      · exact (hunmarked (hresolvedPartial (hnextPartial hmark).1).1).1
      · rw [hmark]
        rfl
      · obtain ⟨hstats, happlied⟩ := hnextPartial hmark
        obtain ⟨_, hwhole, hrenames⟩ := hresolvedPartial hstats
        rw [haliases] at hrenames
        rw [hresolvedAliases, hresolvedAcc, haliases, hacc] at happlied
        exact ⟨resolved.2, hwhole, hrenames, happlied⟩

/-- **A history that is processed without a mark** was applied with all its changes. -/
lemma process_spec {oids rest : List String}
    (deadline : ℕ → Bool) (index : ℕ) (hrest : rest ⊆ oids) (h : Sound world repo processor) :
    let final := processor.process repo limits useEventCache (mergeCommitOids repo oids) deadline
      index rest
    Sound world repo final ∧ SameViews processor.cache final.cache ∧
      (final.complete = true → processor.complete = true) ∧
      (final.stats.isPartial = false → processor.stats.isPartial = false) ∧
      (final.complete = true → final.stats.isPartial = false →
        Processed world repo rest (processor.aliases, processor.acc)
          (final.aliases, final.acc)) := by
  induction rest generalizing processor index with
  | nil =>
    exact ⟨h, ⟨rfl, rfl, rfl⟩, id, id, fun _ _ => Processed.nil _⟩
  | cons oid rest ih =>
    obtain ⟨hoid, hothers⟩ := cons_subset.mp hrest
    obtain ⟨hsound, hviews, hcomplete, hunmarked, happlied⟩ := processOid_spec limits useEventCache
      (deadline index) hoid h
    unfold process
    revert hsound hviews hcomplete hunmarked happlied
    generalize processor.processOid repo limits useEventCache (mergeCommitOids repo oids)
      (deadline index) oid = step
    obtain ⟨next, stop⟩ := step
    intro hsound hviews hcomplete hunmarked happlied
    cases stop with
    | true =>
      refine ⟨hsound, hviews, hcomplete, hunmarked, fun hmark hstats => ?_⟩
      cases (happlied hmark hstats).1
    | false =>
      obtain ⟨hfinal, hfinalViews, hfinalComplete, hfinalPartial, hprocessed⟩ :=
        ih (index + 1) hothers hsound
      refine ⟨hfinal, ⟨hfinalViews.enabled.trans hviews.enabled, hfinalViews.views.trans hviews.views,
        hfinalViews.historyState.trans hviews.historyState⟩,
        fun hmark => hcomplete (hfinalComplete hmark),
        fun hmark => hunmarked (hfinalPartial hmark), fun hmark hstats => ?_⟩
      obtain ⟨_, event, hwhole, hresolved, hstate⟩ :=
        happlied (hfinalComplete hmark) (hfinalPartial hstats)
      refine Processed.cons hwhole hresolved ?_
      rw [← hstate]
      exact hprocessed hmark hstats

end

/-! ## The stream -/

section

variable {world : World}

/-- What is assumed of a run: its process prints all changes of its commits if it ends with success,
the state of a history that can be cached determines the history, and the files are paths. -/
structure ChurnRun.Faithful (world : World) (run : ChurnRun) : Prop where
  prints : ∀ commits, ∀ process ∈ run.startGit commits, process.Prints world.changes commits
  history : run.cacheable = true → run.repository = world.histories run.historyState
  separated : ∀ file ∈ run.files, file.Separated

lemma prepareCommits_spec {repo : Repository} {commits : List NativeCommit}
    (h : prepareCommits repo oids = .ok commits) : ∀ native ∈ commits, native.oid ∈ oids ∧ ∃ commit,
      repo.findCommit native.oid = some commit ∧ commit.parentTree = some native.oldTree ∧
      native.author = commit.author ∧ native.seconds = commit.seconds ∧
      native.newTree = commit.tree := by
  induction oids generalizing commits with
  | nil =>
    cases h
    exact nofun
  | cons oid oids ih =>
    unfold prepareCommits at h
    split at h
    · cases h
    · rename_i commit hcommit
      split_ifs at h
      · intro native hnative
        obtain ⟨hoid, hnative⟩ := ih h native hnative
        exact ⟨mem_cons_of_mem _ hoid, hnative⟩
      · split at h
        · cases h
        · rename_i parentTree hparent
          split at h
          · cases h
          · rename_i others hothers
            cases h
            intro native hnative
            rcases mem_cons.mp hnative with rfl | hnative
            · exact ⟨mem_cons_self, commit, hcommit, hparent, rfl, rfl, rfl⟩
            · obtain ⟨hoid, hnative⟩ := ih hothers native hnative
              exact ⟨mem_cons_of_mem _ hoid, hnative⟩

/-- **The events of a stream without a mark are whole.** -/
lemma collectStreamedEvents_spec {run : ChurnRun} (hrun : run.Faithful world)
    {uncached : List String} (huncached : ∀ oid ∈ uncached, ¬ run.repository.IsMerge oid)
    (h : (run.collectStreamedEvents world.pathFromGit uncached stats).2.1.isPartial = false) :
    stats.isPartial = false ∧ ∀ oid event,
      get? oid (run.collectStreamedEvents world.pathFromGit uncached stats).1 =
        some event → Whole world run.repository oid event := by
  unfold ChurnRun.collectStreamedEvents at h ⊢
  split_ifs at h ⊢
  · exact ⟨h, fun _ _ hevent => by cases hevent⟩
  · split at h
    · exact ⟨(Bool.or_eq_false_iff.mp h).1, fun _ _ hevent => by cases hevent⟩
    · rename_i commits hprepare
      split at h
      · exact ⟨(Bool.or_eq_false_iff.mp h).1, fun _ _ hevent => by cases hevent⟩
      · rename_i events stream hcollect
        obtain ⟨hstats, hstream⟩ := Bool.or_eq_false_iff.mp h
        refine ⟨hstats, fun oid event hevent => ?_⟩
        rw [collectEvents_complete (fun process hprocess => hrun.prints commits process hprocess)
          hcollect hstream] at hevent
        obtain ⟨rfl, hmem⟩ := mem_of_get?_indexBy hevent
        obtain ⟨native, hnative, rfl⟩ := List.mem_map.mp hmem
        obtain ⟨hoid, commit, hcommit, hparent, hauthor, hseconds, htree⟩ :=
          prepareCommits_spec hprepare native hnative
        refine Whole.listed (huncached _ hoid) ?_
        have hlisted : Listed world run.repository native.oid _ := Listed.native hcommit hparent
        unfold nativeEvent
        rw [hauthor, hseconds, htree]
        exact hlisted

lemma sound_processor {run : ChurnRun} (hrun : run.Faithful world) {cache : ChurnCache}
    (hcache : ∀ entry ∈ cache.events.getD [], Whole world run.repository entry.1 entry.2)
    (walk : HistoryWalk) : Sound world run.repository (run.processor world.pathFromGit cache walk) ∧
      ((run.processor world.pathFromGit cache walk).stats.isPartial = false →
        walk.isPartial = false) ∧
      ((run.processor world.pathFromGit cache walk).complete = true → walk.complete = true) := by
  have huncached : ∀ oid ∈ uncachedEventOids walk.oids
      (mergeCommitOids run.repository walk.oids) cache, ¬ run.repository.IsMerge oid := by
    intro oid hoid hmerge
    obtain ⟨hmem, hkept⟩ := mem_filter.mp hoid
    exact (of_decide_eq_true hkept).1 ((mem_mergeCommitOids hmem).mpr hmerge)
  refine ⟨⟨hcache, fun hunmarked => ?_⟩, fun hunmarked => ?_, fun hcomplete => ?_⟩
  · exact (collectStreamedEvents_spec hrun huncached hunmarked).2
  · exact (collectStreamedEvents_spec hrun huncached hunmarked).1
  · exact (Bool.and_eq_true_iff.mp hcomplete).1

end

end Reposcout.Git
