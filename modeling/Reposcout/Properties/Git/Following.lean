import Reposcout.Git.Following

/-!
# Following all files at once

The aliases of all wanted files move together.  At every point of a history each wanted file is
filed under exactly one name, the one it has when it is followed alone, so both count the same
events, in whatever order an event lists its deltas.
-/

namespace Reposcout.Git

open List Option KeyedList

/-! ## The aliases -/

/-- Each wanted file is filed under its current name and nothing else is filed. -/
structure Tracks (wanted : List PathBuf) (aliases : Aliases) (current : PathBuf → PathBuf) :
    Prop where
  nodup : (KeyedList.keys aliases).Nodup
  filed : ∀ name path, path ∈ filedUnder aliases (some name) ↔ path ∈ wanted ∧ current path = name

variable {aliases : Aliases} {current : PathBuf → PathBuf} {wanted : List PathBuf}

lemma Tracks.existsUnique (h : Tracks wanted aliases current)
    {path : PathBuf} (hpath : path ∈ wanted) : ∃! name, path ∈ filedUnder aliases (some name) := by
  refine ⟨current path, (h.filed _ _).mpr ⟨hpath, rfl⟩, fun name hname => ?_⟩
  exact ((h.filed _ _).mp hname).2.symm

lemma tracks_initialAliases (hwanted : wanted.Nodup) :
    Tracks wanted (initialAliases wanted) id := by
  have hkeys : keys (initialAliases wanted) = wanted := by
    unfold KeyedList.keys initialAliases
    rw [List.map_map]
    exact List.map_id _
  have hnodup : (keys (initialAliases wanted)).Nodup := by
    rw [hkeys]
    exact hwanted
  refine ⟨hnodup, fun name path => ?_⟩
  show path ∈ (get? name (initialAliases wanted)).getD [] ↔ _
  by_cases hname : name ∈ wanted
  · have hget : get? name (initialAliases wanted) = some [name] :=
      get?_of_mem hnodup (List.mem_map.mpr ⟨name, hname, rfl⟩)
    rw [hget, getD_some, mem_singleton]
    constructor
    · rintro rfl
      exact ⟨hname, rfl⟩
    · exact fun h => h.2
  · have hget : get? name (initialAliases wanted) = none := by
      rw [get?_eq_none_iff, hkeys]
      exact hname
    rw [hget]
    constructor
    · intro h
      cases h
    · rintro ⟨hpath, rfl⟩
      exact absurd hpath hname

def renameBack (name : PathBuf) (delta : CachedDelta) : PathBuf :=
  if delta.kind = .renamed then
    match delta.oldPath, delta.newPath with
    | some oldPath, some newPath => if name = newPath then oldPath else name
    | _, _ => name
  else name

/-- **Moving an alias renames the files filed under it.** -/
lemma Tracks.moveAlias {aliases : Aliases}
    {current : PathBuf → PathBuf} (h : Tracks wanted aliases current) (delta : CachedDelta) :
    Tracks wanted (moveAlias aliases delta) fun path => renameBack (current path) delta := by
  unfold Git.moveAlias renameBack
  by_cases hkind : delta.kind = .renamed
  · simp only [if_pos hkind]
    cases hold : delta.oldPath with
    | none => exact h
    | some oldPath =>
      cases hnew : delta.newPath with
      | none => exact h
      | some newPath =>
        dsimp only
        cases hcurrent : get? newPath aliases with
        | none =>
          -- No wanted file has the new name.
          refine ⟨h.nodup, fun name path => ?_⟩
          have hnone : ¬ (path ∈ wanted ∧ current path = newPath) := by
            rw [← h.filed]
            show path ∉ (get? newPath aliases).getD []
            simp [hcurrent]
          rw [h.filed]
          by_cases hsame : current path = newPath
          · have hunwanted : path ∉ wanted := fun hpath => hnone ⟨hpath, hsame⟩
            simp [hunwanted]
          · simp [hsame]
        | some filed =>
          refine ⟨nodup_keys_alter (nodup_keys_filter _ h.nodup),
            fun name path => ?_⟩
          have hfiled : path ∈ filed ↔ path ∈ wanted ∧ current path = newPath := by
            rw [← h.filed]
            show _ ↔ path ∈ (get? newPath aliases).getD []
            rw [hcurrent, getD_some]
          have hother : ∀ other, path ∈ (get? other aliases).getD [] ↔
              path ∈ wanted ∧ current path = other := fun other => h.filed other path
          show path ∈ (get? name (alter oldPath _ _)).getD [] ↔ _
          rw [get?_alter, get?_filter_ne, get?_filter_ne]
          by_cases hname : name = oldPath
          · subst hname
            rw [if_pos rfl, getD_some, mem_union_iff, hfiled]
            by_cases hrename : name = newPath
            · subst hrename
              simp
            · rw [if_neg hrename, hother]
              by_cases hsame : current path = newPath
              · simp [hsame, Ne.symm hrename]
              · simp [hsame]
          · rw [if_neg hname]
            by_cases hrename : name = newPath
            · subst hrename
              by_cases hsame : current path = name
              · simp [hsame, Ne.symm hname]
              · simp [hsame]
            · rw [if_neg hrename, hother]
              by_cases hsame : current path = newPath
              · simp [hsame, Ne.symm hrename, Ne.symm hname]
              · simp [hsame]
  · simp only [if_neg hkind]
    exact h

lemma Tracks.foldl_moveAlias (h : Tracks wanted aliases current) (deltas : List CachedDelta) :
    Tracks wanted (deltas.foldl Git.moveAlias aliases) fun path =>
      deltas.foldl renameBack (current path) := by
  induction deltas generalizing aliases current with
  | nil => exact h
  | cons delta deltas ih => exact ih (h.moveAlias delta)

/-! ## The renames of an event -/

/-- The name before some renames that are applied one after the other. -/
def renameAll (name : PathBuf) (pairs : List (PathBuf × PathBuf)) : PathBuf :=
  pairs.foldl (fun name rename => if name = rename.2 then rename.1 else name) name

lemma foldl_renameBack (event : CommitEvent) (name : PathBuf) :
    event.deltas.foldl renameBack name = renameAll name (renames event) := by
  unfold renames renameAll
  induction event.deltas generalizing name with
  | nil => rfl
  | cons delta deltas ih =>
    rw [foldl_cons, ih, filterMap_cons]
    unfold renameBack
    by_cases hkind : delta.kind = .renamed
    · simp only [if_pos hkind]
      cases delta.oldPath with
      | none => rfl
      | some oldPath =>
        cases delta.newPath with
        | none => rfl
        | some newPath => rfl
    · simp only [if_neg hkind]

variable {pairs : List (PathBuf × PathBuf)} {name : PathBuf}

lemma renameAll_of_not_mem (h : name ∉ pairs.map Prod.snd) : renameAll name pairs = name := by
  induction pairs with
  | nil => rfl
  | cons rename pairs ih =>
    rw [map_cons, mem_cons, not_or] at h
    show renameAll (if name = rename.2 then rename.1 else name) pairs = name
    rw [if_neg h.1]
    exact ih h.2

/-- Without chains the renames of an event are one step back. -/
lemma renameAll_eq (hnodup : (pairs.map Prod.snd).Nodup)
    (hdisjoint : ∀ rename ∈ pairs, rename.1 ∉ pairs.map Prod.snd) : renameAll name pairs =
      ((pairs.find? fun rename => rename.2 = name).map Prod.fst).getD name := by
  induction pairs with
  | nil => rfl
  | cons rename pairs ih =>
    rw [map_cons, nodup_cons] at hnodup
    have hrest : ∀ other ∈ pairs, other.1 ∉ pairs.map Prod.snd := fun other hother hmem =>
      hdisjoint other (mem_cons_of_mem _ hother) (mem_cons_of_mem _ hmem)
    show renameAll (if name = rename.2 then rename.1 else name) pairs = _
    by_cases hname : name = rename.2
    · rw [if_pos hname, find?_cons_of_pos (by simp [hname])]
      refine renameAll_of_not_mem fun hmem => ?_
      exact hdisjoint rename mem_cons_self (mem_cons_of_mem _ hmem)
    · rw [if_neg hname, find?_cons_of_neg (by simpa using Ne.symm hname)]
      exact ih hnodup.2 hrest

lemma RenamesOk.renameBack_eq {event : CommitEvent} (h : RenamesOk event) (name : PathBuf) :
    event.deltas.foldl renameBack name = previousName event name := by
  rw [foldl_renameBack, renameAll_eq h.nodup h.disjoint]
  rfl

/-! ## Counting -/

/-- An event is counted once for each of the files. -/
lemma get?_recordAll (event : CommitEvent) {paths : List PathBuf} (hpaths : paths.Nodup)
    (acc : Accs) (path : PathBuf) :
    get? path (recordAll event paths acc) =
      if path ∈ paths then some (((get? path acc).getD Acc.empty).record event)
      else get? path acc := by
  unfold recordAll
  induction paths generalizing acc with
  | nil => simp
  | cons first paths ih =>
    obtain ⟨hfirst, hrest⟩ := nodup_cons.mp hpaths
    rw [foldl_cons, ih hrest, get?_alter]
    by_cases hsame : path = first
    · subst hsame
      simp [hfirst]
    · simp [hsame]

lemma Tracks.mem_touched (h : Tracks wanted aliases current)
    (event : CommitEvent) (path : PathBuf) :
    path ∈ touched event aliases ↔ path ∈ wanted ∧ Touches event (current path) := by
  have hside : ∀ name : Option PathBuf, path ∈ filedUnder aliases name ↔
      path ∈ wanted ∧ name = some (current path) := by
    intro name
    cases name with
    | none => simp [filedUnder]
    | some name =>
      rw [h.filed, some_inj]
      exact and_congr_right fun _ => eq_comm
  unfold touched Touches
  rw [mem_dedup, mem_flatMap]
  constructor
  · rintro ⟨delta, hdelta, hfiled⟩
    rcases mem_append.mp hfiled with hnew | hold
    · exact ⟨((hside _).mp hnew).1, delta, hdelta, .inl ((hside _).mp hnew).2⟩
    · exact ⟨((hside _).mp hold).1, delta, hdelta, .inr ((hside _).mp hold).2⟩
  · rintro ⟨hwanted, delta, hdelta, hnew | hold⟩
    · exact ⟨delta, hdelta, mem_append_left _ ((hside _).mpr ⟨hwanted, hnew⟩)⟩
    · exact ⟨delta, hdelta, mem_append_right _ ((hside _).mpr ⟨hwanted, hold⟩)⟩

/-! ## Histories -/

structure Follows (wanted : List PathBuf) (state : Aliases × Accs)
    (alone : PathBuf → PathBuf × Option Acc) : Prop where
  tracks : Tracks wanted state.1 fun path => (alone path).1
  counted : ∀ path ∈ wanted, get? path state.2 = (alone path).2
  nothing_else : ∀ path ∉ wanted, get? path state.2 = none

/-- **One event does to all files what it does to each.** -/
lemma Follows.step {state : Aliases × Accs}
    {alone : PathBuf → PathBuf × Option Acc} (h : Follows wanted state alone) {event : CommitEvent}
    (hevent : RenamesOk event) :
    Follows wanted (applyEvent state event) fun path => followEvent (alone path) event := by
  have hmoved := h.tracks.foldl_moveAlias event.deltas
  have hget : ∀ path, get? path (recordAll event (touched event state.1) state.2) =
      if path ∈ touched event state.1 then
        some (((get? path state.2).getD Acc.empty).record event)
      else get? path state.2 :=
    get?_recordAll event (nodup_dedup _) state.2
  refine ⟨?_, fun path hpath => ?_, fun path hpath => ?_⟩
  · have hnames : (fun path => event.deltas.foldl renameBack (alone path).1) =
        fun path => (followEvent (alone path) event).1 :=
      funext fun path => hevent.renameBack_eq (alone path).1
    rwa [hnames] at hmoved
  · show get? path (recordAll event (touched event state.1) state.2) = _
    rw [hget, h.counted path hpath]
    simp only [h.tracks.mem_touched event path]
    by_cases htouches : Touches event (alone path).1
    · simp [followEvent, htouches, hpath]
    · simp [followEvent, htouches]
  · show get? path (recordAll event (touched event state.1) state.2) = _
    rw [hget, h.nothing_else path hpath]
    simp only [h.tracks.mem_touched event path]
    simp [hpath]

lemma follows_applyEvents (hwanted : wanted.Nodup)
    {events : List CommitEvent} (hevents : ∀ event ∈ events, RenamesOk event) :
    Follows wanted (applyEvents wanted events) fun path => follow path events := by
  induction events using List.reverseRecOn with
  | nil =>
    exact ⟨tracks_initialAliases hwanted, fun _ _ => rfl, fun _ _ => rfl⟩
  | append_singleton events event ih =>
    have hbefore := ih fun other hother => hevents other (mem_append_left _ hother)
    have hstep := hbefore.step (hevents event (by simp))
    unfold applyEvents follow
    simp only [foldl_append, foldl_cons, foldl_nil]
    exact hstep

structure SameEvent (left right : CommitEvent) : Prop where
  oid : left.oid = right.oid
  author : left.author = right.author
  seconds : left.seconds = right.seconds
  deltas : left.deltas.Perm right.deltas

variable {left right : CommitEvent}

/-- The order of the deltas does not matter to one file. -/
lemma SameEvent.followEvent_eq (h : SameEvent left right) (hleft : RenamesOk left)
    (state : PathBuf × Option Acc) : followEvent state left = followEvent state right := by
  have hrenames : (renames left).Perm (renames right) := h.deltas.filterMap _
  have hprevious : previousName left state.1 = previousName right state.1 := by
    unfold previousName
    have hfind : (renames left).find? (fun rename => rename.2 = state.1) =
        (renames right).find? fun rename => rename.2 = state.1 := by
      have hright : ((renames right).map Prod.snd).Nodup :=
        (hrenames.map Prod.snd).nodup_iff.mp hleft.nodup
      cases hfound : (renames left).find? fun rename => rename.2 = state.1 with
      | none =>
        refine (find?_eq_none.mpr fun rename hrename => ?_).symm
        exact find?_eq_none.mp hfound rename (hrenames.mem_iff.mpr hrename)
      | some rename =>
        have hname : rename.2 = state.1 := by simpa using find?_some hfound
        have hmem := hrenames.mem_iff.mp (mem_of_find?_eq_some hfound)
        cases hother : (renames right).find? fun rename => rename.2 = state.1 with
        | none =>
          exact absurd (decide_eq_true hname) (find?_eq_none.mp hother rename hmem)
        | some other =>
          have hotherName : other.2 = state.1 := by simpa using find?_some hother
          have hotherMem := mem_of_find?_eq_some hother
          rw [inj_on_of_nodup_map hright hmem hotherMem (hname.trans hotherName.symm)]
    rw [hfind]
  have htouches : Touches left state.1 ↔ Touches right state.1 := by
    unfold Touches
    simp only [h.deltas.mem_iff]
  have hrecord : ∀ acc : Acc, acc.record left = acc.record right := by
    intro acc
    unfold Acc.record
    rw [h.author, h.seconds]
  unfold followEvent
  rw [hprevious, hrecord]
  simp only [htouches]

lemma follow_congr {left right : List CommitEvent} (h : List.Forall₂ SameEvent left right)
    (hleft : ∀ event ∈ left, RenamesOk event) (state : PathBuf × Option Acc) :
    left.foldl followEvent state = right.foldl followEvent state := by
  induction h generalizing state with
  | nil => rfl
  | cons hsame _ ih =>
    rw [foldl_cons, foldl_cons, ← hsame.followEvent_eq (hleft _ mem_cons_self)]
    exact ih (fun event hevent => hleft event (mem_cons_of_mem _ hevent)) _

lemma SameEvent.renamesOk (h : SameEvent left right) (hleft : RenamesOk left) :
    RenamesOk right := by
  have hrenames : (renames left).Perm (renames right) := h.deltas.filterMap _
  refine ⟨(hrenames.map Prod.snd).nodup_iff.mp hleft.nodup, fun rename hrename hmem => ?_⟩
  exact hleft.disjoint rename (hrenames.mem_iff.mpr hrename)
    ((hrenames.map Prod.snd).mem_iff.mpr hmem)

/-- **Following all files at once is following each alone**, at every moment each file is filed
under exactly one name, and the order of the deltas of an event does not matter. -/
theorem churn_follows_renames (wanted : List PathBuf) (hwanted : wanted.Nodup)
    (events : List CommitEvent) (hevents : ∀ event ∈ events, RenamesOk event) :
    (∀ path ∈ wanted, get? path (applyEvents wanted events).2 = (follow path events).2) ∧
    (∀ deltas : List CachedDelta, ∀ path ∈ wanted,
      ∃! name, path ∈ filedUnder (deltas.foldl moveAlias (applyEvents wanted events).1)
        (some name)) ∧
    ∀ others, List.Forall₂ SameEvent events others → ∀ path,
      get? path (applyEvents wanted others).2 =
        get? path (applyEvents wanted events).2 := by
  have hfollows := follows_applyEvents hwanted hevents
  refine ⟨hfollows.counted, fun deltas path hpath => ?_, fun others hothers path => ?_⟩
  · exact (hfollows.tracks.foldl_moveAlias deltas).existsUnique hpath
  · have hothersOk : ∀ event ∈ others, RenamesOk event := by
      intro event hevent
      obtain ⟨index, hindex⟩ := mem_iff_getElem?.mp hevent
      have hlt : index < events.length := by
        rw [hothers.length_eq]
        exact (List.getElem?_eq_some_iff.mp hindex).1
      obtain ⟨_, hget⟩ := List.getElem?_eq_some_iff.mp hindex
      have hsame : SameEvent events[index] event := hget ▸ hothers.get hlt _
      exact hsame.renamesOk (hevents _ (getElem_mem hlt))
    have hother := follows_applyEvents hwanted hothersOk
    by_cases hpath : path ∈ wanted
    · rw [hother.counted path hpath, hfollows.counted path hpath]
      exact congrArg Prod.snd (follow_congr hothers hevents (path, none)).symm
    · rw [hother.nothing_else path hpath, hfollows.nothing_else path hpath]

/-! ### A renamed file whose new name was in use before -/

namespace Renamed

def path (name : String) : PathBuf := ⟨[name]⟩

/-- From the newest event: `new.rs` is edited, `old.rs` is renamed to it, the `new.rs` of that time
is deleted. -/
def events : List CommitEvent :=
  [⟨"c3", some "ann@example.com", 300, [⟨.other, some (path "new.rs"), some (path "new.rs")⟩], false⟩,
    ⟨"c2", some "bob@example.com", 200, [⟨.renamed, some (path "old.rs"), some (path "new.rs")⟩], true⟩,
    ⟨"c1", some "ann@example.com", 100, [⟨.deleted, some (path "new.rs"), none⟩,
      ⟨.other, some (path "old.rs"), some (path "old.rs")⟩], false⟩]

lemma renamesOk : ∀ event ∈ events, RenamesOk event := by
  intro event hevent
  simp only [events, mem_cons, not_mem_nil, or_false] at hevent
  rcases hevent with rfl | rfl | rfl
  · exact ⟨by decide, by decide⟩
  · exact ⟨by decide, by decide⟩
  · exact ⟨by decide, by decide⟩

end Renamed

theorem churn_follows_renamed : get? (Renamed.path "new.rs")
        (applyEvents [Renamed.path "new.rs"] Renamed.events).2 =
      (follow (Renamed.path "new.rs") Renamed.events).2 :=
  (churn_follows_renames [Renamed.path "new.rs"] (by decide) Renamed.events
    Renamed.renamesOk).1 _ (by decide)

example : (follow (Renamed.path "new.rs") Renamed.events).2.map Acc.commits = some 3 := by
  decide +kernel

/-! ## What is counted -/

/-- The events that touch a file under the name it has then, from the newest one. -/
def counted (name : PathBuf) : List CommitEvent → List CommitEvent
  | [] => []
  | event :: older =>
    if Touches event name then event :: counted (previousName event name) older
    else counted (previousName event name) older

/-- The number of some events, their authors, and the first and the last of their times. -/
structure Acc.Counts (acc : Acc) (events : List CommitEvent) : Prop where
  commits : acc.commits = events.length
  authors_nodup : acc.authors.Nodup
  authors : ∀ author, author ∈ acc.authors ↔ ∃ event ∈ events, event.author = some author
  first : acc.first = (events.map CommitEvent.seconds).min?
  last : acc.last = (events.map CommitEvent.seconds).max?

lemma Acc.Counts.record {acc : Acc} {events : List CommitEvent} (h : acc.Counts events)
    (event : CommitEvent) : (acc.record event).Counts (events ++ [event]) where
  commits := by rw [length_append, ← h.commits]; rfl
  authors_nodup := by
    unfold Acc.record
    cases event.author with
    | none => exact h.authors_nodup
    | some author => exact h.authors_nodup.insert
  authors := by
    intro author
    simp only [mem_append, mem_singleton, or_and_right, exists_or, exists_eq_left, ← h.authors]
    unfold Acc.record
    cases event.author with
    | none => simp
    | some other => simp [or_comm, eq_comm]
  first := by
    unfold Acc.record
    rw [h.first]
    cases events with
    | nil => rfl
    | cons =>
      simp only [cons_append, map_cons, map_append, map_nil, List.min?_cons', foldl_append]
      rfl
  last := by
    unfold Acc.record
    rw [h.last]
    cases events with
    | nil => rfl
    | cons =>
      simp only [cons_append, map_cons, map_append, map_nil, List.max?_cons', foldl_append]
      rfl

lemma followed_counts {entry : Option Acc} {before : List CommitEvent}
    (h : (entry.getD Acc.empty).Counts before) (hnone : entry = none ↔ before = [])
    (events : List CommitEvent) : ((events.foldl followEvent (name, entry)).2.getD Acc.empty).Counts
        (before ++ counted name events) ∧
      ((events.foldl followEvent (name, entry)).2 = none ↔ before ++ counted name events = []) := by
  induction events generalizing name entry before with
  | nil => simpa [counted] using ⟨h, hnone⟩
  | cons event older ih =>
    rw [foldl_cons, followEvent, counted]
    dsimp only
    split_ifs
    · rw [← singleton_append, ← append_assoc]
      exact ih (h.record event) (by simp)
    · exact ih h hnone

/-- **A file's churn** is the number of the events that touch it under the name it has then, with
their different authors and the times of the first and the last of them. -/
theorem applyEvents_counts (wanted : List PathBuf) (hwanted : wanted.Nodup)
    (events : List CommitEvent) (hevents : ∀ event ∈ events, RenamesOk event) (path : PathBuf)
    (hpath : path ∈ wanted) : match get? path (applyEvents wanted events).2 with
      | none => counted path events = []
      | some acc => counted path events ≠ [] ∧ acc.Counts (counted path events) := by
  have hempty : Acc.empty.Counts [] := ⟨rfl, nodup_nil, by simp [Acc.empty], rfl, rfl⟩
  obtain ⟨hcounts, hnone⟩ := @followed_counts path none [] hempty (by simp) events
  rw [(follows_applyEvents hwanted hevents).counted path hpath, follow]
  cases hentry : (events.foldl followEvent (path, none)).2 with
  | none => exact hnone.mp hentry
  | some acc =>
    rw [hentry] at hcounts hnone
    exact ⟨fun hnil => Option.some_ne_none acc (hnone.mpr hnil), hcounts⟩

theorem applyEvents_counts_renamed :
    match get? (Renamed.path "new.rs") (applyEvents [Renamed.path "new.rs"] Renamed.events).2 with
      | none => counted (Renamed.path "new.rs") Renamed.events = []
      | some acc => counted (Renamed.path "new.rs") Renamed.events ≠ [] ∧
          acc.Counts (counted (Renamed.path "new.rs") Renamed.events) :=
  applyEvents_counts [Renamed.path "new.rs"] (by decide) _ Renamed.renamesOk
    (Renamed.path "new.rs") (by decide)

end Reposcout.Git
