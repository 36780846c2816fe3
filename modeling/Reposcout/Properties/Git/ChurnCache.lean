import Reposcout.Git.ChurnCache

/-!
# Persistence of the churn cache

While a clean part of the cache equals its file, a save that succeeds makes both parts equal.
Reading a view cleans the views too early: if the most recent view is read before it was saved,
the next save leaves it out.
-/

namespace Reposcout.Git

open ChurnCache List Option KeyedList

variable {codec : CacheCodec}

/-! ## What is persisted -/

/-- Each event is filed under its own commit. -/
structure EventsOk (events : List (String × CommitEvent)) : Prop where
  nodup : (KeyedList.keys events).Nodup
  keyed : ∀ entry ∈ events, entry.2.oid = entry.1

def ViewsPersisted (session : CacheSession codec) : Prop :=
  storedViews codec session.disk session.cache.maxCacheBytes = session.cache.views

def EventsPersisted (session : CacheSession codec) : Prop :=
  ∀ oid, get? oid (storedEvents codec session.disk session.cache.maxCacheBytes
    session.cache.historyState) = session.cache.event oid

structure Tracked (session : CacheSession codec) : Prop where
  enabled : session.cache.enabled = true
  loaded : session.cache.events.isSome
  events : EventsOk (session.cache.events.getD [])
  clean_events : session.cache.eventsDirty = false → EventsPersisted session
  clean_views : session.cache.viewsDirty = false → ViewsPersisted session

def SaveSucceeds (orders : CacheOrders) (session : CacheSession codec)
    (eventsWritten viewsWritten : Bool) : Prop :=
  (session.cache.eventsDirty = true →
    (saveJson codec.events (session.cache.eventsData orders.events) session.cache.maxCacheBytes
      eventsWritten).isSome) ∧
  (session.cache.viewsDirty = true →
    (saveJson codec.views session.cache.viewsData session.cache.maxCacheBytes
      viewsWritten).isSome)

/-- The most recent view is not read before the views are saved. -/
def Guards (session : CacheSession codec) : CacheOperation → Prop
  | .getView identity =>
    (∃ entry ∈ session.cache.views.head?, entry.identity = identity) →
      session.cache.viewsDirty = false
  | _ => True

def Guarded (orders : CacheOrders) (session : CacheSession codec) : List CacheOperation → Prop
  | [] => True
  | operation :: rest => Guards session operation ∧ Guarded orders (session.step orders operation) rest

/-! ## Events -/

lemma eventsOk_indexBy (events : List CommitEvent) :
    EventsOk (indexBy CommitEvent.oid events) := by
  refine ⟨nodup_keys_indexBy _ _, fun entry hentry => ?_⟩
  have hfound := get?_of_mem (nodup_keys_indexBy CommitEvent.oid events) hentry
  exact (mem_of_get?_indexBy hfound).1

lemma eventsOk_storedEvents (disk : CacheDisk codec) (maxBytes : ℕ) (historyState : String) :
    EventsOk (storedEvents codec disk maxBytes historyState) := by
  unfold storedEvents
  cases (loadJson codec.events disk.events maxBytes).filter fun data =>
      data.version = cacheVersion && data.historyState = historyState with
  | none => exact ⟨nodup_nil, nofun⟩
  | some data => exact eventsOk_indexBy data.events

variable {events : List (String × CommitEvent)}

lemma EventsOk.alter (h : EventsOk events)
    (event : CommitEvent) : EventsOk (KeyedList.alter event.oid (fun _ => event) events) :=
  ⟨nodup_keys_alter h.nodup,
    forall_mem_alter (P := fun oid (other : CommitEvent) => other.oid = oid) h.keyed rfl
      fun _ _ => rfl⟩

/-- The events that are written, in whatever order the map yields them, read back. -/
lemma EventsOk.get?_written (h : EventsOk events)
    (order : KeyedList.IterationOrder CommitEvent) (oid : String) :
    get? oid (indexBy CommitEvent.oid
      (sortBy (fun left right => compare left.oid right.oid)
        (order.arrange (events.map Prod.snd)))) = get? oid events := by
  exact get?_indexBy_of_perm h.nodup h.keyed
    ((sortBy_perm _ _).trans (order.perm _)) oid

/-! ## Saving -/

section

variable {session : CacheSession codec} (orders : CacheOrders) (h : Tracked session)

include h

lemma event_eq (oid : String) :
    session.cache.event oid = get? oid (session.cache.events.getD []) := by
  obtain ⟨events, hevents⟩ := isSome_iff_exists.mp h.loaded
  unfold event
  rw [hevents]
  rfl

/-- Saving the events keeps the invariant. -/
lemma Tracked.saveEvents (written : Bool) :
    Tracked (⟨(session.cache.saveEvents orders.events written session.disk).1,
      (session.cache.saveEvents orders.events written session.disk).2⟩ : CacheSession codec) := by
  unfold ChurnCache.saveEvents
  split_ifs with hdirty
  · cases hsave : saveJson codec.events (session.cache.eventsData orders.events)
        session.cache.maxCacheBytes written with
    | none => exact h
    | some text =>
      refine ⟨h.enabled, h.loaded, h.events, fun _ oid => ?_, h.clean_views⟩
      show get? oid (storedEvents codec _ _ _) = session.cache.event oid
      rw [event_eq h, ← h.events.get?_written orders.events oid]
      unfold storedEvents
      rw [loadJson_saveJson hsave]
      simp [ChurnCache.eventsData, Option.filter]
  · exact h

/-- Saving the views keeps the invariant. -/
lemma Tracked.saveViews (written : Bool) :
    Tracked (⟨(session.cache.saveViews written session.disk).1,
      (session.cache.saveViews written session.disk).2⟩ : CacheSession codec) := by
  unfold ChurnCache.saveViews
  split_ifs with hdirty
  · cases hsave : saveJson codec.views session.cache.viewsData session.cache.maxCacheBytes written with
    | none => exact h
    | some text =>
      refine ⟨h.enabled, h.loaded, h.events, h.clean_events, fun _ => ?_⟩
      show storedViews codec _ _ = session.cache.views
      unfold storedViews
      rw [loadJson_saveJson hsave]
      simp [ChurnCache.viewsData, Option.filter]
  · exact h

lemma save_eq (eventsWritten viewsWritten : Bool) :
    session.step orders (.save eventsWritten viewsWritten) =
      let saved := session.cache.saveEvents orders.events eventsWritten session.disk
      ⟨(saved.1.saveViews viewsWritten saved.2).1, (saved.1.saveViews viewsWritten saved.2).2⟩ := by
  show (⟨(session.cache.save orders.events eventsWritten viewsWritten session.disk).1,
    (session.cache.save orders.events eventsWritten viewsWritten session.disk).2⟩ :
      CacheSession codec) = _
  unfold save
  rw [if_pos h.enabled]

omit h

variable {disk : CacheDisk codec}

lemma saveEvents_succeeds {cache : ChurnCache} {written : Bool}
    (h : cache.eventsDirty = true → (saveJson codec.events (cache.eventsData orders.events)
      cache.maxCacheBytes written).isSome) :
    (cache.saveEvents orders.events written disk).1 = { cache with eventsDirty := false } := by
  unfold saveEvents
  split_ifs with hdirty
  · obtain ⟨text, htext⟩ := isSome_iff_exists.mp (h hdirty)
    rw [htext]
  · rw [Bool.not_eq_true] at hdirty
    rw [← hdirty]

lemma saveViews_succeeds {cache : ChurnCache} {written : Bool}
    (h : cache.viewsDirty = true →
      (saveJson codec.views cache.viewsData cache.maxCacheBytes written).isSome) :
    (cache.saveViews written disk).1 = { cache with viewsDirty := false } := by
  unfold saveViews
  split_ifs with hdirty
  · obtain ⟨text, htext⟩ := isSome_iff_exists.mp (h hdirty)
    rw [htext]
  · rw [Bool.not_eq_true] at hdirty
    rw [← hdirty]

lemma save_succeeds (h : Tracked session) {eventsWritten viewsWritten : Bool}
    (hsave : SaveSucceeds orders session eventsWritten viewsWritten) :
    (session.step orders (.save eventsWritten viewsWritten)).cache =
      { session.cache with eventsDirty := false, viewsDirty := false } := by
  rw [save_eq orders h]
  have hevents : (session.cache.saveEvents orders.events eventsWritten session.disk).1 =
      { session.cache with eventsDirty := false } := saveEvents_succeeds orders hsave.1
  dsimp only
  rw [saveViews_succeeds (by rw [hevents]; exact hsave.2), hevents]

end

/-! ## Runs -/

section

variable {session : CacheSession codec} (orders : CacheOrders) (h : Tracked session)

include h

/-- A guarded read of a view keeps the invariant. -/
lemma Tracked.getView {identity : ViewIdentity} (hguards : Guards session (.getView identity)) :
    Tracked (session.step orders (.getView identity)) := by
  show Tracked { session with cache := (session.cache.getView identity).1 }
  unfold ChurnCache.getView
  rw [if_pos h.enabled]
  cases hindex : session.cache.views.findIdx? fun entry => entry.identity = identity with
  | none => exact h
  | some index =>
    dsimp only
    cases hentry : session.cache.views[index]? with
    | none => exact h
    | some entry =>
      refine ⟨h.enabled, h.loaded, h.events, h.clean_events, fun hclean => ?_⟩
      -- A clean flag afterwards means that the view was in front, so the views are the same.
      obtain rfl : index = 0 := by simpa using hclean
      obtain ⟨_, hidentity, _⟩ := findIdx?_eq_some_iff_getElem.mp hindex
      obtain ⟨_, hfirst⟩ := List.getElem?_eq_some_iff.mp hentry
      rw [hfirst] at hidentity
      have hhead : entry ∈ session.cache.views.head? := by
        rw [head?_eq_getElem?, hentry]
        exact mem_some_self entry
      have hpersisted := h.clean_views (hguards ⟨entry, hhead, of_decide_eq_true hidentity⟩)
      show storedViews codec session.disk session.cache.maxCacheBytes =
        entry :: session.cache.views.eraseIdx 0
      rw [hpersisted]
      obtain ⟨rest, hrest⟩ : ∃ rest, session.cache.views = entry :: rest :=
        head?_eq_some_iff.mp hhead
      rw [hrest]
      rfl

/-- **A guarded operation keeps the invariant.** -/
lemma Tracked.step {operation : CacheOperation} (hguards : Guards session operation) :
    Tracked (session.step orders operation) := by
  cases operation with
  | getView identity => exact h.getView orders hguards
  | putView identity churn =>
    show Tracked { session with cache := session.cache.putView orders.results identity churn }
    unfold putView
    rw [if_pos h.enabled]
    exact ⟨h.enabled, h.loaded, h.events, h.clean_events, fun hclean => nomatch hclean⟩
  | getEvent oid => exact h
  | putEvent event =>
    show Tracked { session with cache := session.cache.putEvent event }
    unfold putEvent
    rw [if_pos h.enabled]
    exact ⟨h.enabled, rfl, h.events.alter event, fun hclean => absurd hclean (by simp),
      h.clean_views⟩
  | save eventsWritten viewsWritten =>
    rw [save_eq orders h]
    exact (h.saveEvents orders eventsWritten).saveViews viewsWritten

/-- **A guarded run keeps the invariant.** -/
lemma Tracked.run {operations : List CacheOperation}
    (hguarded : Guarded orders session operations) : Tracked (session.run orders operations) := by
  induction operations generalizing session with
  | nil => exact h
  | cons operation operations ih => exact ih (h.step orders hguarded.1) hguarded.2

omit h

lemma tracked_load (disk : CacheDisk codec) (maxCacheBytes : ℕ) (historyState : String) :
    Tracked (CacheSession.load disk maxCacheBytes historyState) := by
  refine ⟨rfl, rfl, eventsOk_storedEvents disk maxCacheBytes historyState, fun _ oid => rfl,
    fun _ => rfl⟩

/-- **What is in the cache when a save succeeds is persisted**, views in order, and the save
keeps it, if in the run before no most recent view is read while the views are unsaved. -/
theorem churn_cache_persistence (orders : CacheOrders) (disk : CacheDisk codec)
    (maxCacheBytes : ℕ) (historyState : String) (operations : List CacheOperation)
    (eventsWritten viewsWritten : Bool)
    (hguarded : Guarded orders (CacheSession.load disk maxCacheBytes historyState) operations)
    (hsave : SaveSucceeds orders
      ((CacheSession.load disk maxCacheBytes historyState).run orders operations)
      eventsWritten viewsWritten) :
    let before := (CacheSession.load disk maxCacheBytes historyState).run orders operations
    let after := before.step orders (.save eventsWritten viewsWritten)
    ViewsPersisted after ∧ EventsPersisted after ∧ after.cache.views = before.cache.views ∧
      after.cache.events = before.cache.events := by
  intro before after
  have hbefore : Tracked before := (tracked_load disk maxCacheBytes historyState).run orders hguarded
  have hafter : Tracked after := hbefore.step orders trivial
  have hcache : after.cache = _ := save_succeeds orders hbefore hsave
  refine ⟨hafter.clean_views (by rw [hcache]), hafter.clean_events (by rw [hcache]),
    by rw [hcache], by rw [hcache]⟩

end

/-! ### A view that is stored and read -/

namespace OneView

/-- A codec whose texts are kept parsed. The length is that of a small document. -/
def parsed (α : Type) : JsonCodec α where
  Text := α
  encode := id
  decode := some
  length _ := 512
  decode_encode _ := rfl

def parsedCodec : CacheCodec := ⟨parsed EventsData, parsed ViewsData⟩

def orders : CacheOrders :=
  ⟨KeyedList.IterationOrder.insertion _, KeyedList.IterationOrder.insertion _⟩

def limits : ChurnLimits := ⟨5000, 50000, 500000, 67108864, 4096, 67108864, false⟩

def identity : ViewIdentity where
  head := "9c56cc51b374c3ba189210d5b6d4bf57790d351c"
  historyState := "history:ab6e5f64077e7d8a"
  maxCommits := limits.maxCommits
  wantedPaths := ["6d61696e2e7273"]
  maxDeltasPerCommit := limits.maxDeltasPerCommit
  maxTotalDeltas := limits.maxTotalDeltas
  maxOutputBytes := limits.maxOutputBytes
  maxPathBytes := limits.maxPathBytes
  maxCacheBytes := limits.maxCacheBytes

def churn : List (PathBuf × Churn) :=
  [(⟨["main.rs"]⟩, ⟨2, 1, some "2024-01-01T00:00:00+00:00", some "2024-01-02T00:00:00+00:00"⟩)]

/-- A cache without files. -/
def loaded : CacheSession parsedCodec :=
  CacheSession.load ⟨none, none⟩ limits.maxCacheBytes identity.historyState

end OneView

/-- The view is saved before it is read. -/
theorem churn_cache_persistence_saved : ViewsPersisted ((OneView.loaded.run OneView.orders
      [.putView OneView.identity OneView.churn, .save true true,
        .getView OneView.identity]).step OneView.orders (.save true true)) :=
  (churn_cache_persistence OneView.orders (⟨none, none⟩ : CacheDisk OneView.parsedCodec)
    OneView.limits.maxCacheBytes OneView.identity.historyState
    [.putView OneView.identity OneView.churn, .save true true, .getView OneView.identity] true true
    ⟨trivial, trivial, fun _ => by decide +kernel, trivial⟩
    ⟨fun h => absurd h (by decide +kernel), fun h => absurd h (by decide +kernel)⟩).1

/-- The view is read before it is saved: the save succeeds without writing it. -/
theorem not_churn_cache_persistence_unsaved :
    SaveSucceeds OneView.orders (OneView.loaded.run OneView.orders
        [.putView OneView.identity OneView.churn, .getView OneView.identity]) true true ∧
      ¬ ViewsPersisted ((OneView.loaded.run OneView.orders
        [.putView OneView.identity OneView.churn, .getView OneView.identity]).step
          OneView.orders (.save true true)) := by
  refine ⟨⟨fun h => absurd h (by decide +kernel), fun h => absurd h (by decide +kernel)⟩, ?_⟩
  unfold ViewsPersisted
  decide +kernel

end Reposcout.Git
