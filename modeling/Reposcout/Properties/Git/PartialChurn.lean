import Reposcout.Properties.Git.History

/-!
# Partial churn is not kept

The files of a cache are filled by runs.  Whatever limit strikes in them, the cache only ever has
whole events and views of complete runs, and a report that is not partial was computed from all
changes of the commits in its range.  Merges are left out on purpose: the commits of the branch
carry their changes.
-/

namespace Reposcout.Git

open List Option KeyedList

/-- The commits of a walk that a history is computed from. -/
def historyRange (maxCommits : ℕ) (oids : List (Option String)) : List (Option String) :=
  if maxCommits > 0 then oids.take maxCommits else oids

/-- The counts of some files, computed from all changes of the commits in a range. -/
def Computed (world : World) (repo : Repository) (head : String) (maxCommits : ℕ)
    (wanted : List PathBuf) (churn : List (PathBuf × Churn)) : Prop :=
  ∃ oids range final, repo.revwalk head = some oids ∧
    historyRange maxCommits oids = range.map some ∧
    Processed world repo range (initialAliases wanted, []) final ∧
    ∀ path, get? path churn = get? path (finishChurn world.toRfc3339 final.2)

def ViewComputed (world : World) (entry : ViewEntry) : Prop :=
  ∃ files : List PathBuf, (∀ file ∈ files, file.Separated) ∧ entry.identity.wantedPaths =
      (sortBy compare (files.dedup.map encodePath)).dedup ∧
    Computed world (world.histories entry.identity.historyState) entry.identity.head
      entry.identity.maxCommits files.dedup (ChurnCache.viewResults entry)

/-! ## Views -/

lemma get?_results (churn : List (PathBuf × Churn)) (path : PathBuf) :
    (get? path (churn.map fun item => (item.1, ViewResult.mk item.1 item.2))).map
      ViewResult.churn = get? path churn := by
  induction churn with
  | nil => rfl
  | cons item churn ih =>
    show (if item.1 = path then some (ViewResult.mk item.1 item.2) else get? path _).map
        ViewResult.churn = if item.1 = path then some item.2 else get? path churn
    by_cases hpath : item.1 = path
    · rw [if_pos hpath, if_pos hpath]
      rfl
    · rw [if_neg hpath, if_neg hpath, ih]

open KeyedList

open ChurnCache

variable {churn : List (PathBuf × Churn)} (order : KeyedList.IterationOrder (PathBuf × Churn))

lemma get?_viewResults_viewEntry (identity : ViewIdentity)
    (hchurn : (keys churn).Nodup) (path : PathBuf) :
    get? path (viewResults (viewEntry order identity churn)) =
      get? path churn := by
  have hnodup :
      (keys (churn.map fun item => (item.1, ViewResult.mk item.1 item.2))).Nodup := by
    unfold KeyedList.keys
    rw [List.map_map]
    exact hchurn
  have hkey : ∀ entry ∈ churn.map fun item => (item.1, ViewResult.mk item.1 item.2),
      entry.2.path = entry.1 := by
    intro entry hentry
    obtain ⟨item, _, rfl⟩ := List.mem_map.mp hentry
    rfl
  have hperm : (viewEntry order identity churn).results.Perm
      ((churn.map fun item => (item.1, ViewResult.mk item.1 item.2)).map Prod.snd) := by
    rw [List.map_map]
    exact (sortBy_perm _ _).trans ((order.perm churn).map _)
  unfold viewResults
  rw [get?_map (fun result : ViewResult => result.churn), get?_indexBy_of_perm hnodup hkey hperm]
  exact get?_results churn path

lemma nodup_keys_recordAll {event : CommitEvent} {paths : List PathBuf} {acc : Accs}
    (h : (keys acc).Nodup) : (keys (recordAll event paths acc)).Nodup :=
  List.foldlRecOn (motive := fun acc : Accs => (keys acc).Nodup) paths _ h
    fun _ hacc _ _ => nodup_keys_alter hacc

lemma Processed.nodup_keys {world : World} {repo : Repository} {oids : List String}
    {state final : Aliases × Accs} (h : Processed world repo oids state final)
    (hstate : (keys state.2).Nodup) : (keys final.2).Nodup := by
  induction h with
  | nil => exact hstate
  | cons _ _ _ ih => exact ih (nodup_keys_recordAll hstate)

lemma keys_finishChurn (toRfc3339 : ℤ → Option String) (acc : Accs) :
    keys (finishChurn toRfc3339 acc) = keys acc := by
  unfold KeyedList.keys finishChurn
  rw [List.map_map]
  rfl

section

variable {codec : CacheCodec} {world : World}

structure DiskSound (world : World) (disk : CacheDisk codec) : Prop where
  events : ∀ text ∈ disk.events, ∀ data ∈ codec.events.decode text, ∀ event ∈ data.events,
    Whole world (world.histories data.historyState) event.oid event
  views : ∀ text ∈ disk.views, ∀ data ∈ codec.views.decode text, ∀ entry ∈ data.views,
    ViewComputed world entry

structure CacheSound (world : World) (cache : ChurnCache) : Prop where
  events : ∀ entry ∈ cache.events.getD [],
    Whole world (world.histories cache.historyState) entry.1 entry.2
  views : ∀ entry ∈ cache.views, ViewComputed world entry

lemma decode_of_loadJson {α : Type} {codec : JsonCodec α} {file : Option codec.Text}
    {maxBytes : ℕ} {data : α} (h : loadJson codec file maxBytes = some data) :
    ∃ text ∈ file, codec.decode text = some data := by
  unfold loadJson at h
  split at h
  · cases h
  · rename_i text
    split_ifs at h
    exact ⟨text, rfl, h⟩

variable {disk : CacheDisk codec} (h : DiskSound world disk)

include h

lemma DiskSound.storedViews (maxBytes : ℕ) :
    ∀ entry ∈ storedViews codec disk maxBytes, ViewComputed world entry := by
  intro entry hentry
  unfold ChurnCache.storedViews at hentry
  cases hload : loadJson codec.views disk.views maxBytes with
  | none =>
    rw [hload] at hentry
    cases hentry
  | some data =>
    obtain ⟨text, htext, hdata⟩ := decode_of_loadJson hload
    rw [hload, filter_some] at hentry
    split_ifs at hentry
    · exact h.views text htext data hdata entry hentry
    · cases hentry

lemma DiskSound.storedEvents (maxBytes : ℕ) (historyState : String) :
    ∀ entry ∈ storedEvents codec disk maxBytes historyState,
      Whole world (world.histories historyState) entry.1 entry.2 := by
  intro entry hentry
  unfold ChurnCache.storedEvents at hentry
  cases hload : loadJson codec.events disk.events maxBytes with
  | none =>
    rw [hload] at hentry
    cases hentry
  | some data =>
    obtain ⟨text, htext, hdata⟩ := decode_of_loadJson hload
    rw [hload, filter_some] at hentry
    split_ifs at hentry with hversion
    · obtain ⟨hkey, hmem⟩ := mem_of_get?_indexBy
        (get?_of_mem (nodup_keys_indexBy _ _) hentry)
      have hstate : data.historyState = historyState :=
        of_decide_eq_true (Bool.and_eq_true_iff.mp hversion).2
      rw [← hkey, ← hstate]
      exact h.events text htext data hdata entry.2 hmem
    · cases hentry

variable {cache : ChurnCache}

lemma DiskSound.save (hcache : cache.enabled = true → CacheSound world cache)
    (order : IterationOrder CommitEvent) (eventsWritten viewsWritten : Bool) :
    DiskSound world (cache.save order eventsWritten viewsWritten disk).2 := by
  unfold ChurnCache.save
  split_ifs with henabled
  · have hsound := hcache henabled
    have hevents : DiskSound world (saveEvents order eventsWritten cache disk).2 ∧
        CacheSound world (saveEvents order eventsWritten cache disk).1 := by
      unfold saveEvents
      split_ifs
      · split
        · rename_i text hsave
          refine ⟨⟨fun written hwritten data hdata event hevent => ?_, h.views⟩,
            ⟨hsound.events, hsound.views⟩⟩
          cases hwritten
          obtain ⟨other, hother, hdecode⟩ := decode_of_loadJson (loadJson_saveJson hsave)
          cases hother
          cases hdecode.symm.trans hdata
          obtain ⟨entry, hentry, rfl⟩ := List.mem_map.mp
            (((sortBy_perm _ _).trans (order.perm _)).mem_iff.mp hevent)
          have hwhole := hsound.events entry hentry
          rw [hwhole.oid_eq]
          exact hwhole
        · exact ⟨h, hsound⟩
      · exact ⟨h, hsound⟩
    dsimp only
    unfold saveViews
    split_ifs
    · split
      · rename_i text hsave
        refine ⟨hevents.1.events, fun written hwritten data hdata => ?_⟩
        cases hwritten
        obtain ⟨other, hother, hdecode⟩ := decode_of_loadJson (loadJson_saveJson hsave)
        cases hother
        cases hdecode.symm.trans hdata
        exact hevents.2.views
      · exact hevents.1
    · exact hevents.1
  · exact h

lemma DiskSound.openAt (enabled : Bool) (maxCacheBytes : ℕ) :
    CacheSound world (openAt codec disk enabled maxCacheBytes) ∧
      (openAt codec disk enabled maxCacheBytes).events = none := by
  unfold ChurnCache.openAt
  split_ifs
  · exact ⟨⟨fun entry hentry => absurd hentry not_mem_nil, h.storedViews maxCacheBytes⟩, rfl⟩
  · exact ⟨⟨nofun,
      nofun⟩, rfl⟩

omit h

lemma CacheSound.getView (h : CacheSound world cache) (identity : ViewIdentity) :
    CacheSound world (cache.getView identity).1 ∧ (cache.getView identity).1.events = cache.events ∧
      ∀ churn ∈ (cache.getView identity).2, ∃ entry ∈ cache.views,
        entry.identity = identity ∧ churn = viewResults entry := by
  unfold ChurnCache.getView
  split_ifs
  · split
    · exact ⟨h, rfl, fun _ hchurn => absurd hchurn (not_mem_none _)⟩
    · rename_i index hindex
      split
      · exact ⟨h, rfl, fun _ hchurn => absurd hchurn (not_mem_none _)⟩
      · rename_i entry hentry
        have hmem := mem_of_getElem? hentry
        refine ⟨⟨h.events, fun other hother => ?_⟩, rfl, fun churn hchurn => ?_⟩
        · rcases mem_cons.mp hother with rfl | hother
          · exact h.views _ hmem
          · exact h.views other (mem_of_mem_eraseIdx hother)
        · cases hchurn
          obtain ⟨hlt, hfound, _⟩ := findIdx?_eq_some_iff_getElem.mp hindex
          obtain ⟨_, hget⟩ := List.getElem?_eq_some_iff.mp hentry
          rw [hget] at hfound
          exact ⟨entry, hmem, of_decide_eq_true hfound, rfl⟩
  · exact ⟨h, rfl, fun _ hchurn => absurd hchurn (not_mem_none _)⟩

lemma storedViews_save {order : IterationOrder CommitEvent}
    {eventsWritten viewsWritten : Bool} {maxBytes : ℕ} {entry : ViewEntry}
    (h : entry ∈ storedViews codec
      (cache.save order eventsWritten viewsWritten disk).2 maxBytes) :
    entry ∈ storedViews codec disk maxBytes ∨ entry ∈ cache.views := by
  have hevents : (saveEvents order eventsWritten cache disk).2.views = disk.views ∧
      (saveEvents order eventsWritten cache disk).1.views = cache.views := by
    unfold saveEvents
    split_ifs
    · split <;> exact ⟨rfl, rfl⟩
    · exact ⟨rfl, rfl⟩
  unfold save at h
  split_ifs at h
  · dsimp only at h
    unfold saveViews at h
    unfold storedViews at h ⊢
    split_ifs at h
    · split at h
      · rename_i text hsave
        cases hload : loadJson codec.views (some text) maxBytes with
        | none =>
          rw [hload] at h
          cases h
        | some data =>
          obtain ⟨other, hother, hdecode⟩ := decode_of_loadJson hload
          cases hother
          obtain ⟨written, hwritten, hdata⟩ := decode_of_loadJson (loadJson_saveJson hsave)
          cases hwritten
          cases hdata.symm.trans hdecode
          rw [hload, filter_some] at h
          split_ifs at h
          · rw [← hevents.2]
            exact .inr h
          · cases h
      · rw [hevents.1] at h
        exact .inl h
    · rw [hevents.1] at h
      exact .inl h
  · exact .inl h

end

/-! ## Runs -/

section

variable {codec : CacheCodec} {world : World} {run : ChurnRun}

inductive Filled (codec : CacheCodec) (world : World) : CacheDisk codec → Prop
  | empty : Filled codec world ⟨none, none⟩
  | run {disk : CacheDisk codec} (hdisk : Filled codec world disk) (run : ChurnRun)
      (hrun : run.Faithful world) :
      Filled codec world (run.collect world.pathFromGit world.toRfc3339 disk).1

variable {cache : ChurnCache} {disk : CacheDisk codec}

lemma DiskSound.loadEvents (hdisk : DiskSound world disk)
    (hnone : cache.events = none) (historyState : String) :
    let loaded := cache.loadEvents codec disk historyState
    (∀ entry ∈ loaded.events.getD [], Whole world (world.histories historyState) entry.1 entry.2) ∧
    (loaded.enabled = true → loaded.historyState = historyState) ∧
    loaded.views = cache.views := by
  dsimp only
  unfold ChurnCache.loadEvents
  split_ifs with hskip
  · rw [hnone] at hskip ⊢
    refine ⟨nofun, fun henabled => ?_, rfl⟩
    simp [henabled] at hskip
  · exact ⟨hdisk.storedEvents cache.maxCacheBytes historyState, fun _ => rfl, rfl⟩

variable {head : String}

/-- The state in which a history was processed without a mark. -/
lemma processed_spec (hrun : run.Faithful world)
    (hcache : ∀ entry ∈ cache.events.getD [], Whole world run.repository entry.1 entry.2)
    {oids : List (Option String)} (hoids : run.repository.revwalk head = some oids) :
    let final := run.processed world.pathFromGit cache
      (walkHistoryOids run.limits run.walkDeadline 0 oids ⟨[], true, false⟩)
    Sound world run.repository final ∧ SameViews cache final.cache ∧
      (final.complete = true → final.stats.isPartial = false →
        Computed world run.repository head run.limits.maxCommits run.wanted
          (finishChurn world.toRfc3339 final.acc) ∧ (keys final.acc).Nodup) := by
  generalize hwalk : walkHistoryOids run.limits run.walkDeadline 0 oids ⟨[], true, false⟩ = walk
  obtain ⟨hsound, hunmarked, hcomplete⟩ := sound_processor hrun hcache walk
  obtain ⟨hfinal, hviews, hfinalComplete, hfinalPartial, hprocessed⟩ :=
    process_spec run.limits run.cacheable run.processDeadline 0 (Subset.refl walk.oids) hsound
  refine ⟨hfinal, hviews, fun hmark hstats => ?_⟩
  have happlied := hprocessed hmark hstats
  have hrange := (walkHistoryOids_complete (hwalk ▸ hcomplete (hfinalComplete hmark))).2.2
  rw [hwalk] at hrange
  exact ⟨⟨oids, walk.oids, _, hoids, hrange.symm, happlied, fun _ => rfl⟩,
    happlied.nodup_keys nodup_nil⟩

variable {entry : ViewEntry}

lemma mem_putView {order : IterationOrder (PathBuf × Churn)} {identity : ViewIdentity}
    (h : entry ∈ (cache.putView order identity churn).views) :
    entry ∈ cache.views ∨ entry = viewEntry order identity churn := by
  unfold putView at h
  split_ifs at h
  · rcases mem_cons.mp (mem_of_mem_take h) with rfl | hother
    · exact .inr rfl
    · exact .inl (mem_filter.mp hother).1
  · exact .inl h

lemma putView_eq (cache : ChurnCache) (identity : ViewIdentity) (churn : List (PathBuf × Churn)) :
    (cache.putView order identity churn).enabled = cache.enabled ∧
      (cache.putView order identity churn).events = cache.events ∧
      (cache.putView order identity churn).historyState = cache.historyState := by
  unfold putView
  split_ifs <;> exact ⟨rfl, rfl, rfl⟩

/-- **A view is stored only if the result is complete**, and what is stored is sound. -/
lemma finish_spec (hdisk : DiskSound world disk)
    (hrun : run.Faithful world) (hcacheable : run.cacheable = true) {final : HistoryProcessor}
    (hwhole : final.cache.enabled = true → ∀ entry ∈ final.cache.events.getD [],
      Whole world (world.histories final.cache.historyState) entry.1 entry.2)
    (hviews : ∀ entry ∈ final.cache.views, ViewComputed world entry)
    (hcomputed : final.complete = true → final.stats.isPartial = false →
      Computed world run.repository head run.limits.maxCommits run.wanted
        (finishChurn world.toRfc3339 final.acc) ∧ (keys final.acc).Nodup) :
    let result := run.finish world.toRfc3339 head disk final
    DiskSound world result.1 ∧ ∀ maxBytes, ∀ entry ∈ storedViews codec result.1 maxBytes,
        entry ∈ storedViews codec disk maxBytes ∨ entry ∈ final.cache.views ∨
          (entry.identity = run.viewIdentity head ∧ result.2.isPartial = false ∧
            ∀ path, get? path (viewResults entry) =
              get? path result.2.churn) := by
  unfold ChurnRun.finish
  split_ifs with hfound
  · obtain ⟨_, hcomplete, hunmarked⟩ := hfound
    rw [Bool.not_eq_true] at hunmarked
    obtain ⟨hchurn, hnodup⟩ := hcomputed hcomplete hunmarked
    rw [← keys_finishChurn world.toRfc3339] at hnodup
    have hresults := get?_viewResults_viewEntry run.orders.results (run.viewIdentity head) hnodup
    have hnew : ViewComputed world (viewEntry run.orders.results
        (run.viewIdentity head) (finishChurn world.toRfc3339 final.acc)) := by
      obtain ⟨oids, range, processed, hoids, hrange, hprocessed, hget⟩ := hchurn
      rw [hrun.history hcacheable] at hoids hprocessed
      exact ⟨run.files, hrun.separated, rfl, oids, range, processed, hoids, hrange, hprocessed,
        fun path => (hresults path).trans (hget path)⟩
    obtain ⟨henabled, hevents, hstate⟩ := putView_eq run.orders.results final.cache
      (run.viewIdentity head) (finishChurn world.toRfc3339 final.acc)
    refine ⟨hdisk.save (fun hon => ⟨?_, fun entry hentry => ?_⟩) _ _ _,
      fun maxBytes entry hentry => ?_⟩
    · rw [hevents, hstate]
      exact hwhole (henabled ▸ hon)
    · rcases mem_putView hentry with hold | rfl
      · exact hviews entry hold
      · exact hnew
    · rcases storedViews_save hentry with hfile | hcache
      · exact .inl hfile
      · rcases mem_putView hcache with hold | rfl
        · exact .inr (.inl hold)
        · exact .inr (.inr ⟨rfl, by simp [hcomplete, hunmarked], hresults⟩)
  · refine ⟨hdisk.save (fun hon => ⟨hwhole hon, hviews⟩) _ _ _, fun maxBytes entry hentry => ?_⟩
    rcases storedViews_save hentry with hfile | hcache
    · exact .inl hfile
    · exact .inr (.inl hcache)

/-- **A collection that finds no view**: the files stay sound, a view is stored only if the result
is complete, and a result that is not partial is computed from all changes. -/
lemma collectHistory_spec (hdisk : DiskSound world disk)
    (hrun : run.Faithful world) (hcache : CacheSound world cache) (hnone : cache.events = none)
    (head : String) :
    let result := run.collectHistory world.pathFromGit world.toRfc3339 head disk cache
    DiskSound world result.1 ∧
      (∀ maxBytes, ∀ entry ∈ storedViews codec result.1 maxBytes,
        entry ∈ storedViews codec disk maxBytes ∨ entry ∈ cache.views ∨
          (entry.identity = run.viewIdentity head ∧ result.2.isPartial = false ∧
            ∀ path, get? path (viewResults entry) = get? path result.2.churn)) ∧
      (result.2.isPartial = false → run.repository.revwalk head ≠ none →
        Computed world run.repository head run.limits.maxCommits run.wanted result.2.churn) := by
  unfold ChurnRun.collectHistory
  cases hoids : run.repository.revwalk head with
  | none => exact ⟨hdisk, fun _ _ hentry => .inl hentry, fun _ hwalk => absurd rfl hwalk⟩
  | some oids =>
    dsimp only
    have hloaded : ∀ entry ∈ (if run.cacheable = true then
          cache.loadEvents codec disk run.historyState else cache).events.getD [],
        Whole world run.repository entry.1 entry.2 := by
      split_ifs with hcacheable
      · rw [hrun.history hcacheable]
        exact (hdisk.loadEvents hnone run.historyState).1
      · rw [hnone]
        exact nofun
    obtain ⟨hfinal, hviews, hcomputed⟩ := processed_spec hrun hloaded hoids
    revert hfinal hviews hcomputed
    generalize run.processed world.pathFromGit _ (walkHistoryOids _ _ _ _ _) = final
    intro hfinal hviews hcomputed
    have hcomplete : (final.stats.isPartial || !final.complete) = false →
        final.complete = true ∧ final.stats.isPartial = false := by
      intro hreport
      obtain ⟨hunmarked, hmark⟩ := Bool.or_eq_false_iff.mp hreport
      exact ⟨by simpa using hmark, hunmarked⟩
    by_cases hcacheable : run.cacheable = true
    · rw [if_pos hcacheable] at hviews
      obtain ⟨_, hstate, hloadedViews⟩ := hdisk.loadEvents hnone run.historyState
      have hfinalViews : final.cache.views = cache.views := hviews.views.trans hloadedViews
      have hwhole : final.cache.enabled = true → ∀ entry ∈ final.cache.events.getD [],
          Whole world (world.histories final.cache.historyState) entry.1 entry.2 := by
        intro henabled
        rw [hviews.historyState, hstate (hviews.enabled ▸ henabled), ← hrun.history hcacheable]
        exact hfinal.cached
      obtain ⟨hsound, hstored⟩ := finish_spec hdisk hrun hcacheable hwhole
        (hfinalViews ▸ hcache.views) hcomputed
      rw [hfinalViews] at hstored
      exact ⟨hsound, hstored, fun hreport _ =>
        (hcomputed (hcomplete hreport).1 (hcomplete hreport).2).1⟩
    · unfold ChurnRun.finish
      dsimp only
      rw [if_neg hcacheable]
      exact ⟨hdisk, fun _ _ hentry => .inl hentry, fun hreport _ =>
        (hcomputed (hcomplete hreport).1 (hcomplete hreport).2).1⟩

lemma mem_openAt {enabled : Bool} {maxCacheBytes : ℕ}
    (h : entry ∈ (openAt codec disk enabled maxCacheBytes).views) :
    ∃ oldBytes, entry ∈ storedViews codec disk oldBytes := by
  unfold openAt at h
  split_ifs at h
  · exact ⟨_, h⟩
  · cases h

lemma mem_getView {identity : ViewIdentity}
    (h : entry ∈ (cache.getView identity).1.views) : entry ∈ cache.views := by
  unfold getView at h
  split_ifs at h
  · split at h
    · exact h
    · split at h
      · exact h
      · rename_i found hfound
        rcases mem_cons.mp h with rfl | hother
        · exact mem_of_getElem? hfound
        · exact mem_of_mem_eraseIdx hother
  · exact h

lemma toList_loop_eq (bytes : ByteArray) (index : ℕ) (read : List UInt8) :
    ByteArray.toList.loop bytes index read = read.reverse ++ bytes.data.toList.drop index := by
  induction hleft : bytes.size - index generalizing index read with
  | zero =>
    have hsize : bytes.data.toList.length = bytes.size := rfl
    rw [ByteArray.toList.loop, if_neg (by omega), drop_eq_nil_of_le (by omega), append_nil]
  | succ left ih =>
    have hlt : index < bytes.data.toList.length := by
      show index < bytes.size
      omega
    rw [ByteArray.toList.loop, if_pos (by omega), ih (index + 1) _ (by omega),
      drop_eq_getElem_cons hlt, reverse_cons, append_assoc]
    have hget : bytes.get! index = bytes.data.toList[index] := by
      show bytes.data[index]! = _
      rw [getElem!_pos bytes.data index hlt]
      rfl
    rw [hget]
    rfl

lemma encodeBytes_injective : Function.Injective encodeBytes := by
  intro left right h
  have hdecode := decodeBytes_encodeBytes left
  rw [h, decodeBytes_encodeBytes] at hdecode
  exact (Except.ok.inj hdecode).symm

lemma toStringLossy_eq_of_encodePath {left right : PathBuf}
    (h : encodePath left = encodePath right) : left.toStringLossy = right.toStringLossy := by
  have hbytes := encodeBytes_injective (String.ofList_injective h)
  unfold ByteArray.toList at hbytes
  rw [toList_loop_eq, toList_loop_eq] at hbytes
  apply String.toByteArray_inj.mp
  apply ByteArray.ext
  apply Array.ext'
  simpa using hbytes

/-- Views of the same wanted paths are about the same files. -/
lemma mem_of_wantedPaths {left right : List PathBuf} (hleft : ∀ file ∈ left, file.Separated)
    (hright : ∀ file ∈ right, file.Separated)
    (h : (sortBy compare (left.dedup.map encodePath)).dedup =
      (sortBy compare (right.dedup.map encodePath)).dedup) {path : PathBuf}
    (hpath : path ∈ left) : path ∈ right := by
  have hmem : encodePath path ∈ (sortBy compare (left.dedup.map encodePath)).dedup := by
    rw [mem_dedup, mem_sortBy]
    exact List.mem_map_of_mem (mem_dedup.mpr hpath)
  rw [h, mem_dedup, mem_sortBy] at hmem
  obtain ⟨other, hother, hencoded⟩ := List.mem_map.mp hmem
  have hmemOther := mem_dedup.mp hother
  rw [← (hright other hmemOther).eq_of_toStringLossy (hleft path hpath)
    (toStringLossy_eq_of_encodePath hencoded)]
  exact hmemOther

structure Kept (world : World) (run : ChurnRun) (disk : CacheDisk codec)
    (result : CacheDisk codec × ChurnCollection) : Prop where
  sound : DiskSound world result.1
  stored : ∀ maxBytes, ∀ entry ∈ ChurnCache.storedViews codec result.1 maxBytes,
    (∃ oldBytes, entry ∈ ChurnCache.storedViews codec disk oldBytes) ∨
      ∃ head, run.head = some head ∧ entry.identity = run.viewIdentity head ∧
        result.2.isPartial = false ∧
        ∀ path, get? path (ChurnCache.viewResults entry) = get? path result.2.churn
  computed : result.2.isPartial = false → run.files ≠ [] → ∀ head, run.head = some head →
    run.repository.revwalk head ≠ none →
      ∃ wanted : List PathBuf, wanted.Nodup ∧ (∀ path, path ∈ wanted ↔ path ∈ run.files) ∧
        Computed world run.repository head run.limits.maxCommits wanted result.2.churn

lemma kept_collectHistory (hdisk : DiskSound world disk)
    (hrun : run.Faithful world) (hcache : CacheSound world cache) (hnone : cache.events = none)
    (hviews : ∀ entry ∈ cache.views, ∃ oldBytes, entry ∈ storedViews codec disk oldBytes)
    (hhead : run.head = some head) :
    Kept world run disk
      (run.collectHistory world.pathFromGit world.toRfc3339 head disk cache) := by
  obtain ⟨hsound, hstored, hcomputed⟩ := collectHistory_spec hdisk hrun hcache hnone head
  refine ⟨hsound, fun maxBytes entry hentry => ?_, fun hreport _ other hother hwalk => ?_⟩
  · rcases hstored maxBytes entry hentry with hfile | hold | hnew
    · exact .inl ⟨maxBytes, hfile⟩
    · exact .inl (hviews entry hold)
    · exact .inr ⟨head, hhead, hnew⟩
  · cases hhead.symm.trans hother
    exact ⟨run.wanted, nodup_dedup _, fun path => mem_dedup, hcomputed hreport hwalk⟩

/-- **What a run guarantees.** -/
lemma kept_collect (hdisk : DiskSound world disk) (hrun : run.Faithful world) :
    Kept world run disk (run.collect world.pathFromGit world.toRfc3339 disk) := by
  unfold ChurnRun.collect
  split_ifs with hempty hcacheable
  · refine ⟨hdisk, fun maxBytes entry hentry => .inl ⟨maxBytes, hentry⟩,
      fun _ hfiles => absurd ?_ hfiles⟩
    exact (dedup_eq_nil _).mp (List.isEmpty_iff.mp hempty)
  · cases hhead : run.head with
    | none =>
      refine ⟨hdisk, fun maxBytes entry hentry => .inl ⟨maxBytes, hentry⟩,
        fun _ _ head hsome => ?_⟩
      rw [hhead] at hsome
      cases hsome
    | some head =>
      dsimp only
      obtain ⟨hopened, hnone⟩ := hdisk.openAt run.useCache (max run.limits.maxCacheBytes 1)
      obtain ⟨hread, hreadEvents, hfound⟩ := hopened.getView (run.viewIdentity head)
      have hreadViews : ∀ entry ∈ ((openAt codec disk run.useCache
          (max run.limits.maxCacheBytes 1)).getView (run.viewIdentity head)).1.views,
          ∃ oldBytes, entry ∈ storedViews codec disk oldBytes :=
        fun entry hentry => mem_openAt (mem_getView hentry)
      split
      · -- The view of an earlier run.
        rename_i read churn hget
        rw [hget] at hread hreadEvents hfound hreadViews
        refine ⟨hdisk.save (fun _ => hread) _ _ _, fun maxBytes entry hentry => ?_,
          fun _ _ other hother _ => ?_⟩
        · rcases storedViews_save hentry with hfile | hcache
          · exact .inl ⟨maxBytes, hfile⟩
          · exact .inl (hreadViews entry hcache)
        · cases hhead.symm.trans hother
          obtain ⟨entry, hentry, hidentity, rfl⟩ := hfound churn rfl
          obtain ⟨files, hfiles, hwanted, hcomputed⟩ := hopened.views entry hentry
          rw [hidentity] at hwanted hcomputed
          rw [hrun.history hcacheable]
          refine ⟨files.dedup, nodup_dedup _, fun path => ?_, hcomputed⟩
          rw [mem_dedup]
          exact ⟨mem_of_wantedPaths hfiles hrun.separated hwanted.symm,
            mem_of_wantedPaths hrun.separated hfiles hwanted⟩
      · rename_i read hget
        rw [hget] at hread hreadEvents hreadViews
        exact kept_collectHistory hdisk hrun hread (hreadEvents.trans hnone) hreadViews hhead
  · cases hhead : run.head with
    | none =>
      refine ⟨hdisk, fun maxBytes entry hentry => .inl ⟨maxBytes, hentry⟩,
        fun _ _ head hsome => ?_⟩
      rw [hhead] at hsome
      cases hsome
    | some head =>
      obtain ⟨hopened, hnone⟩ := hdisk.openAt run.useCache (max run.limits.maxCacheBytes 1)
      exact kept_collectHistory hdisk hrun hopened hnone (fun entry hentry => mem_openAt hentry)
        hhead

lemma Filled.sound (h : Filled codec world disk) :
    DiskSound world disk := by
  induction h with
  | empty =>
    exact ⟨fun text htext => absurd htext (not_mem_none _),
      fun text htext => absurd htext (not_mem_none _)⟩
  | run _ run hrun ih => exact (kept_collect ih hrun).sound

end

/-- **Partial churn is never kept or reported as complete.** Whatever runs filled the cache, after
a run every event that is stored is whole, a view that was not there before has the result of a
report that is not partial, and such a report was computed from all changes of the commits in its
range, if the walk could be started. -/
theorem partial_churn_not_kept (codec : CacheCodec) (world : World) (disk : CacheDisk codec)
    (hdisk : Filled codec world disk) (run : ChurnRun) (hrun : run.Faithful world) :
    let result := run.collect world.pathFromGit world.toRfc3339 disk
    (∀ maxBytes historyState oid event,
      get? oid (storedEvents codec result.1 maxBytes historyState) =
        some event → Whole world (world.histories historyState) oid event) ∧
    (∀ maxBytes, ∀ entry ∈ storedViews codec result.1 maxBytes,
      (∃ oldBytes, entry ∈ storedViews codec disk oldBytes) ∨
        ∃ head, run.head = some head ∧ entry.identity = run.viewIdentity head ∧
          result.2.isPartial = false ∧
          ∀ path, get? path (viewResults entry) = get? path result.2.churn) ∧
    (result.2.isPartial = false → run.files ≠ [] → ∀ head, run.head = some head →
      run.repository.revwalk head ≠ none →
        ∃ wanted : List PathBuf, wanted.Nodup ∧ (∀ path, path ∈ wanted ↔ path ∈ run.files) ∧
          Computed world run.repository head run.limits.maxCommits wanted result.2.churn) := by
  have hkept := kept_collect hdisk.sound hrun
  refine ⟨fun maxBytes historyState oid event hevent => ?_, hkept.stored, hkept.computed⟩
  exact hkept.sound.storedEvents maxBytes historyState (oid, event) (mem_of_get? hevent)

/-! ### A merge -/

namespace Merged

def path : PathBuf := ⟨["f"]⟩

def tree (digit : UInt8) (h : (48 ≤ digit ∧ digit ≤ 57) ∨ (97 ≤ digit ∧ digit ≤ 102)) : TreeId :=
  ⟨[digit], fun byte hbyte => by rw [mem_singleton.mp hbyte]; exact h⟩

/-- `m` merges a branch whose commit `c` edits the file. -/
def commit : String → Option Commit
  | "m" => some ⟨some "ann@example.com", 200, 2, tree 48 (by decide), some (tree 49 (by decide))⟩
  | "c" => some ⟨some "bob@example.com", 100, 1, tree 48 (by decide), some (tree 49 (by decide))⟩
  | _ => none

def edited : List DiffDelta := [⟨.modified, some path, some path⟩]

def repository : Repository where
  findCommit := commit
  diff _ := some edited
  findSimilar _ := some edited
  revwalk _ := some [some "m", some "c"]

def world : World where
  histories _ := repository
  changes _ _ := [⟨77, .other, [102], rfl, by decide⟩]
  pathFromGit _ := path
  toRfc3339 seconds := some (toString seconds)

/-- A run without Git. -/
def run (maxCommits : ℕ) : ChurnRun where
  files := [path]
  limits := { OneView.limits with maxCommits := maxCommits }
  useCache := true
  repository := repository
  head := some "m"
  historyState := "history"
  cacheable := true
  walkDeadline _ := false
  processDeadline _ := false
  startGit _ := none
  orders := OneView.orders
  eventsWritten := true
  viewsWritten := true

lemma faithful (maxCommits : ℕ) : (run maxCommits).Faithful world := by
  refine ⟨fun _ _ hprocess => absurd hprocess (not_mem_none _), fun _ => rfl, ?_⟩
  intro file hfile
  rw [mem_singleton.mp hfile]
  intro c hc
  rw [mem_singleton.mp hc]
  decide

/-- The report of a run that fills an empty cache. -/
def report (maxCommits : ℕ) : ChurnCollection :=
  ((run maxCommits).collect world.pathFromGit world.toRfc3339
    (⟨none, none⟩ : CacheDisk OneView.parsedCodec)).2

lemma report_one : report 1 = ⟨[], false, 0⟩ := by decide +kernel

lemma report_two : report 2 = ⟨[(path, ⟨1, 1, some "100", some "100"⟩)], false, 0⟩ := by
  decide +kernel

end Merged

open Merged

theorem partial_churn_not_kept_merge :
    ∃ wanted : List PathBuf, wanted.Nodup ∧ (∀ path, path ∈ wanted ↔ path ∈ [Merged.path]) ∧
      Computed Merged.world Merged.repository "m" 2 wanted (Merged.report 2).churn :=
  (partial_churn_not_kept OneView.parsedCodec world ⟨none, none⟩ Filled.empty (run 2)
    (faithful 2)).2.2 (congrArg ChurnCollection.isPartial report_two)
    (cons_ne_nil _ _) "m" rfl (some_ne_none _)

/-- The counts of some files, computed from all changes of all commits in a range, merges too. -/
def ComputedWithMerges (world : World) (repo : Repository) (head : String) (maxCommits : ℕ)
    (wanted : List PathBuf) (churn : List (PathBuf × Churn)) : Prop :=
  ∃ oids range events, repo.revwalk head = some oids ∧
    historyRange maxCommits oids = range.map some ∧
    List.Forall₂ (Listed world repo) range events ∧
    ∀ path, get? path churn = get? path (finishChurn world.toRfc3339 (applyEvents wanted events).2)

/-- A report that is not partial leaves out the changes of a merge against its first parent. -/
theorem not_partial_churn_not_kept_merges :
    ¬ ∀ (codec : CacheCodec) (world : World) (disk : CacheDisk codec), Filled codec world disk →
      ∀ run : ChurnRun, run.Faithful world →
        (run.collect world.pathFromGit world.toRfc3339 disk).2.isPartial = false →
        run.files ≠ [] → ∀ head, run.head = some head → run.repository.revwalk head ≠ none →
          ∃ wanted : List PathBuf, wanted.Nodup ∧ (∀ path, path ∈ wanted ↔ path ∈ run.files) ∧
            ComputedWithMerges world run.repository head run.limits.maxCommits wanted
              (run.collect world.pathFromGit world.toRfc3339 disk).2.churn := by
  intro h
  obtain ⟨wanted, hnodup, hwanted, oids, range, events, hoids, hrange, hevents, hchurn⟩ :=
    h OneView.parsedCodec world ⟨none, none⟩ Filled.empty (run 1) (faithful 1)
      (congrArg ChurnCollection.isPartial report_one) (cons_ne_nil _ _) "m" rfl
      (some_ne_none _)
  obtain rfl : wanted = [path] := by
    apply perm_singleton.mp
    rw [perm_ext_iff_of_nodup hnodup (nodup_singleton _)]
    exact hwanted
  obtain rfl : [some "m", some "c"] = oids := some.inj hoids
  have hone : range = ["m"] := by
    have hmap : [some "m"] = range.map some := hrange
    cases range with
    | nil => cases hmap
    | cons oid range =>
      obtain ⟨hoid, hrest⟩ := cons.inj hmap
      rw [← some.inj hoid, map_eq_nil_iff.mp hrest.symm]
  rw [hone] at hevents
  obtain ⟨event, _, hlisted, hnil, rfl⟩ := forall₂_cons_left_iff.mp hevents
  obtain rfl := forall₂_nil_left_iff.mp hnil
  have hreport : (((run 1).collect world.pathFromGit world.toRfc3339
      (⟨none, none⟩ : CacheDisk OneView.parsedCodec)).2.churn) = [] :=
    congrArg ChurnCollection.churn report_one
  have hnone := hchurn path
  rw [hreport] at hnone
  have htouched : ∀ commit renamesResolved, get? path (finishChurn world.toRfc3339
        (applyEvents [path] [commitEvent commit "m"
          [⟨.other, some path, some path⟩] renamesResolved]).2) ≠ none := by
    intro commit renamesResolved hget
    unfold finishChurn at hget
    cases hget
  cases hlisted with
  | native => exact htouched _ _ hnone.symm
  | raw _ hdiff =>
    obtain rfl := some.inj hdiff
    exact htouched _ _ hnone.symm
  | renamed _ hsimilar =>
    obtain rfl := some.inj hsimilar
    exact htouched _ _ hnone.symm

end Reposcout.Git
