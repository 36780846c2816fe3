import Reposcout.Properties.Git.Following
import Reposcout.Properties.Git.PartialChurn

/-!
# Transparency of the churn cache

An event may be in the cache with its renames resolved for another run, or unresolved because the
other run did not need them.  Neither matters as long as every rename that detection finds is seen
in the unresolved listings, as a deletion and an addition of the new name: then a run that follows
the new name resolves the renames, and to one that does not they mean nothing.

Git lists a path that changes its type with one entry, rename detection sees a deletion and an
addition.  A rename onto such a path is not seen in the listing of Git.
-/

namespace Reposcout.Git

open List Option KeyedList DiffDelta

/-! ## Equal states -/

structure SameFiled (left right : Option (List PathBuf)) : Prop where
  isSome : left.isSome = right.isSome
  mem : ∀ path, path ∈ left.getD [] ↔ path ∈ right.getD []

/-- The same files are filed under each name. -/
def SameAliases (left right : Aliases) : Prop :=
  ∀ name, SameFiled (get? name left) (get? name right)

/-- The same files are filed under each name and have the same counts. -/
structure SameState (left right : Aliases × Accs) : Prop where
  aliases : SameAliases left.1 right.1
  acc : ∀ path, get? path left.2 = get? path right.2

lemma SameFiled.refl (filed : Option (List PathBuf)) : SameFiled filed filed :=
  ⟨rfl, fun _ => Iff.rfl⟩

lemma get?_moveAlias (aliases : Aliases) (delta : CachedDelta) (name : PathBuf) :
    get? name (moveAlias aliases delta) =
      if delta.kind = .renamed then
        match delta.oldPath, delta.newPath with
        | some oldPath, some newPath =>
          match get? newPath aliases with
          | none => get? name aliases
          | some current =>
            if name = oldPath then
              some ((if oldPath = newPath then none else get? oldPath aliases).getD [] ∪
                current)
            else if name = newPath then none
            else get? name aliases
        | _, _ => get? name aliases
      else get? name aliases := by
  unfold moveAlias
  by_cases hkind : delta.kind = .renamed
  · rw [if_pos hkind, if_pos hkind]
    cases delta.oldPath with
    | none => rfl
    | some oldPath =>
      cases delta.newPath with
      | none => rfl
      | some newPath =>
        dsimp only
        cases get? newPath aliases with
        | none => rfl
        | some current =>
          rw [get?_alter, get?_filter_ne, get?_filter_ne]
  · rw [if_neg hkind, if_neg hkind]

variable {left right : Aliases}

lemma SameAliases.moveAlias (h : SameAliases left right)
    (delta : CachedDelta) : SameAliases (moveAlias left delta) (moveAlias right delta) := by
  intro name
  rw [get?_moveAlias, get?_moveAlias]
  by_cases hkind : delta.kind = .renamed
  · rw [if_pos hkind, if_pos hkind]
    cases delta.oldPath with
    | none => exact h name
    | some oldPath =>
      cases delta.newPath with
      | none => exact h name
      | some newPath =>
        dsimp only
        obtain ⟨hsome, hmem⟩ := h newPath
        cases hleft : get? newPath left with
        | none =>
          rw [hleft] at hsome
          rw [isSome_eq_false_iff.mp hsome.symm |> isNone_iff_eq_none.mp]
          exact h name
        | some leftFiled =>
          rw [hleft] at hsome hmem
          obtain ⟨rightFiled, hright⟩ := isSome_iff_exists.mp hsome.symm
          rw [hright] at hmem ⊢
          dsimp only
          by_cases hname : name = oldPath
          · rw [if_pos hname, if_pos hname]
            refine ⟨rfl, fun path => ?_⟩
            rw [getD_some, getD_some, mem_union_iff, mem_union_iff]
            refine or_congr ?_ (hmem path)
            by_cases hsame : oldPath = newPath
            · rw [if_pos hsame, if_pos hsame]
            · rw [if_neg hsame, if_neg hsame]
              exact (h oldPath).mem path
          · rw [if_neg hname, if_neg hname]
            by_cases hrename : name = newPath
            · rw [if_pos hrename, if_pos hrename]
              exact SameFiled.refl none
            · rw [if_neg hrename, if_neg hrename]
              exact h name
  · rw [if_neg hkind, if_neg hkind]
    exact h name

lemma SameAliases.foldl_moveAlias (h : SameAliases left right) (deltas : List CachedDelta) :
    SameAliases (deltas.foldl Git.moveAlias left) (deltas.foldl Git.moveAlias right) := by
  induction deltas generalizing left right with
  | nil => exact h
  | cons delta deltas ih => exact ih (h.moveAlias delta)

variable {aliases : Aliases} {deltas : List CachedDelta}

/-- Renames of names that nothing is filed under move nothing. -/
lemma foldl_moveAlias_of_unfiled
    (h : ∀ delta ∈ deltas, delta.kind = .renamed → ∀ newPath ∈ delta.newPath,
      get? newPath aliases = none) :
    deltas.foldl moveAlias aliases = aliases := by
  induction deltas with
  | nil => rfl
  | cons delta deltas ih =>
    have hfirst : moveAlias aliases delta = aliases := by
      unfold moveAlias
      by_cases hkind : delta.kind = .renamed
      · rw [if_pos hkind]
        split
        · rename_i oldPath newPath _ hnew
          rw [h delta mem_cons_self hkind newPath hnew]
        · rfl
      · rw [if_neg hkind]
    rw [foldl_cons, hfirst]
    exact ih fun other hother => h other (mem_cons_of_mem _ hother)

lemma SameAliases.needs_eq (h : SameAliases left right) (deltas : List CachedDelta) :
    eventNeedsRenameResolution deltas left = eventNeedsRenameResolution deltas right := by
  unfold eventNeedsRenameResolution
  simp only [(h _).isSome]

lemma SameAliases.filedUnder (h : SameAliases left right) (name : Option PathBuf) (path : PathBuf) :
    path ∈ filedUnder left name ↔ path ∈ filedUnder right name := by
  cases name with
  | none => exact Iff.rfl
  | some name => exact (h name).mem path

variable {event : CommitEvent}

lemma mem_touched_iff {path : PathBuf} :
    path ∈ touched event aliases ↔
      ∃ name, Touches event name ∧ path ∈ filedUnder aliases (some name) := by
  unfold touched Touches
  rw [mem_dedup, mem_flatMap]
  constructor
  · rintro ⟨delta, hdelta, hfiled⟩
    rcases mem_append.mp hfiled with hnew | hold
    · cases hname : delta.newPath with
      | none =>
        rw [hname] at hnew
        cases hnew
      | some name => exact ⟨name, ⟨delta, hdelta, .inl hname⟩, hname ▸ hnew⟩
    · cases hname : delta.oldPath with
      | none =>
        rw [hname] at hold
        cases hold
      | some name => exact ⟨name, ⟨delta, hdelta, .inr hname⟩, hname ▸ hold⟩
  · rintro ⟨name, ⟨delta, hdelta, hnew | hold⟩, hfiled⟩
    · exact ⟨delta, hdelta, mem_append_left _ (hnew ▸ hfiled)⟩
    · exact ⟨delta, hdelta, mem_append_right _ (hold ▸ hfiled)⟩

variable {leftEvent rightEvent : CommitEvent}

/-- **Two events that touch the same names count the same.** -/
lemma SameState.recordAll {left right : Aliases × Accs} (h : SameState left right)
    (hauthor : leftEvent.author = rightEvent.author)
    (hseconds : leftEvent.seconds = rightEvent.seconds)
    (htouches : ∀ name, Touches leftEvent name ↔ Touches rightEvent name) (path : PathBuf) :
    get? path (recordAll leftEvent (touched leftEvent left.1) left.2) =
      get? path (recordAll rightEvent (touched rightEvent right.1) right.2) := by
  have htouched : path ∈ touched leftEvent left.1 ↔ path ∈ touched rightEvent right.1 := by
    rw [mem_touched_iff, mem_touched_iff]
    exact exists_congr fun name =>
      and_congr (htouches name) (h.aliases.filedUnder (some name) path)
  have hrecord : ∀ acc : Acc, acc.record leftEvent = acc.record rightEvent := by
    intro acc
    unfold Acc.record
    rw [hauthor, hseconds]
  have hleft : (touched leftEvent left.1).Nodup := nodup_dedup _
  have hright : (touched rightEvent right.1).Nodup := nodup_dedup _
  rw [get?_recordAll leftEvent hleft, get?_recordAll rightEvent hright, h.acc path, hrecord]
  simp only [htouched]

/-! ## Listings of a commit -/

/-- What is assumed of the listings of a commit: all touch the same names, and a diff has no
renames before they are detected. -/
structure Listings (world : World) (repo : Repository) (oid : String) : Prop where
  names : ∀ left right, Listed world repo oid left → Listed world repo oid right → ∀ name,
    Touches left name ↔ Touches right name
  raw : ∀ diff, repo.diff oid = some diff → ∀ delta ∈ diff, delta.status ≠ .renamed

/-- The names that may be followed: those that are wanted and the old names of renames. -/
def Followed (repo : Repository) (oids : List String) (wanted : List PathBuf) (name : PathBuf) :
    Prop :=
  name ∈ wanted ∨ ∃ oid ∈ oids, ∃ similar, repo.renamed oid = some similar ∧
    ∃ delta ∈ similar, delta.status = .renamed ∧ delta.oldFile = some name

/-- Every rename to a name that may be followed is seen in the listings without renames: they have
a deletion, and the new name is added. -/
def RenamesSeen (world : World) (repo : Repository) (oids : List String) (wanted : List PathBuf) :
    Prop :=
  ∀ oid ∈ oids, ∀ similar, repo.renamed oid = some similar →
    ∀ delta ∈ similar, delta.status = .renamed → ∀ newPath, delta.newFile = some newPath →
      Followed repo oids wanted newPath →
        ∀ event, Listed world repo oid event → event.renamesResolved = false →
          (∃ deleted ∈ event.deltas, deleted.kind = .deleted) ∧
            ∃ added ∈ event.deltas, added.kind = .added ∧ added.newPath = some newPath

section

variable {world : World} {repo : Repository} {oid : String}

lemma deltaKind_ne_renamed {status : List UInt8} : deltaKind status ≠ .ok .renamed := by
  unfold deltaKind
  split <;> simp

lemma DiffDelta.cached_kind {delta : DiffDelta} :
    delta.cached.kind = .renamed ↔ delta.status = .renamed := by
  unfold cached Delta.kind
  cases delta.status <;> simp

variable (h : Listed world repo oid event)

include h

lemma Listed.commit : ∃ commit, repo.findCommit oid = some commit ∧ event.author = commit.author ∧
      event.seconds = commit.seconds := by
  cases h with
  | native hcommit => exact ⟨_, hcommit, rfl, rfl⟩
  | raw hcommit => exact ⟨_, hcommit, rfl, rfl⟩
  | renamed hcommit => exact ⟨_, hcommit, rfl, rfl⟩

lemma Listed.not_renamed (hlistings : Listings world repo oid)
    (hresolved : event.renamesResolved = false) :
    ∀ delta ∈ event.deltas, delta.kind ≠ .renamed := by
  intro delta hdelta hkind
  cases h with
  | native =>
    obtain ⟨change, _, rfl⟩ := mem_map.mp hdelta
    have hchange : change.kind = .renamed := by
      unfold NativeChange.delta nativeDelta at hkind
      cases hname : change.kind <;> simp_all
    exact deltaKind_ne_renamed (hchange ▸ change.known)
  | raw _ hdiff =>
    obtain ⟨entry, hentry, rfl⟩ := mem_map.mp hdelta
    exact hlistings.raw _ hdiff entry hentry (cached_kind.mp hkind)
  | renamed => cases hresolved

lemma Listed.deltas_eq (hresolved : event.renamesResolved = true) :
    ∃ similar, repo.renamed oid = some similar ∧ event.deltas = similar.map cached := by
  cases h with
  | native => cases hresolved
  | raw => cases hresolved
  | renamed _ hsimilar => exact ⟨_, hsimilar, rfl⟩

end

/-! ## Histories -/

section

variable {world : World} {repo : Repository} {oids : List String} {wanted : List PathBuf}

/-- Something is filed only under names that may be followed. -/
def AliasesFollowed (repo : Repository) (oids : List String) (wanted : List PathBuf)
    (aliases : Aliases) : Prop :=
  ∀ name, (get? name aliases).isSome → Followed repo oids wanted name

lemma AliasesFollowed.foldl_moveAlias (h : AliasesFollowed repo oids wanted aliases)
    (hdeltas : ∀ delta ∈ deltas, delta.kind = .renamed → ∀ oldPath, delta.oldPath = some oldPath →
      Followed repo oids wanted oldPath) :
    AliasesFollowed repo oids wanted (deltas.foldl moveAlias aliases) := by
  induction deltas generalizing aliases with
  | nil => exact h
  | cons delta deltas ih =>
    refine ih (fun name hname => ?_) fun other hother =>
      hdeltas other (mem_cons_of_mem _ hother)
    have hfirst := hdeltas delta mem_cons_self
    rw [get?_moveAlias] at hname
    split_ifs at hname with hkind
    · split at hname
      · rename_i oldPath newPath hold _
        split at hname
        · exact h name hname
        · by_cases hsame : name = oldPath
          · rw [hsame]
            exact hfirst hkind oldPath hold
          · rw [if_neg hsame] at hname
            split_ifs at hname
            · cases hname
            · exact h name hname
      · exact h name hname
    · exact h name hname

variable {oid : String}

lemma Whole.followed (hoid : oid ∈ oids) (h : Whole world repo oid event)
    (hlistings : Listings world repo oid) :
    ∀ delta ∈ event.deltas, delta.kind = .renamed → ∀ oldPath, delta.oldPath = some oldPath →
      Followed repo oids wanted oldPath := by
  intro delta hdelta hkind oldPath hold
  cases h with
  | merge => cases hdelta
  | listed _ hlisted =>
    cases hflag : event.renamesResolved with
    | false => exact absurd hkind (hlisted.not_renamed hlistings hflag delta hdelta)
    | true =>
      obtain ⟨similar, hsimilar, hdeltas⟩ := hlisted.deltas_eq hflag
      rw [hdeltas] at hdelta
      obtain ⟨entry, hentry, rfl⟩ := mem_map.mp hdelta
      exact .inr ⟨oid, hoid, similar, hsimilar, entry, hentry,
        cached_kind.mp hkind, hold⟩

lemma foldl_moveAlias_similar (hoid : oid ∈ oids) (hseen : RenamesSeen world repo oids wanted)
    (haliases : AliasesFollowed repo oids wanted aliases) (hlisted : Listed world repo oid event)
    (hflag : event.renamesResolved = false)
    (hneeds : eventNeedsRenameResolution event.deltas aliases = false) {similar : List DiffDelta}
    (hsimilar : repo.renamed oid = some similar) :
    (similar.map DiffDelta.cached).foldl moveAlias aliases = aliases := by
  apply foldl_moveAlias_of_unfiled
  intro delta hdelta hkind newPath hnew
  obtain ⟨entry, hentry, rfl⟩ := List.mem_map.mp hdelta
  by_contra hfiled
  have hsome : (get? newPath aliases).isSome := ne_none_iff_isSome.mp hfiled
  obtain ⟨⟨deleted, hdeleted, hdeletedKind⟩, added, hadded, haddedKind, haddedPath⟩ :=
    hseen oid hoid similar hsimilar entry hentry (DiffDelta.cached_kind.mp hkind) newPath hnew
      (haliases newPath hsome) event hlisted hflag
  have hneeded : eventNeedsRenameResolution event.deltas aliases = true := by
    unfold eventNeedsRenameResolution
    rw [Bool.and_eq_true, List.any_eq_true, List.any_eq_true]
    refine ⟨⟨deleted, hdeleted, by simp [hdeletedKind]⟩, added, hadded, ?_⟩
    simp [haddedKind, haddedPath, hsome]
  rw [hneeded] at hneeds
  cases hneeds

/-- **One commit has the same effect in whatever form its event is.** -/
lemma SameState.applyEvent (hoid : oid ∈ oids) (hlistings : Listings world repo oid)
    (hseen : RenamesSeen world repo oids wanted) {left right : Aliases × Accs}
    (h : SameState left right) (hleftAliases : AliasesFollowed repo oids wanted left.1)
    (hrightAliases : AliasesFollowed repo oids wanted right.1)
    (hleft : Whole world repo oid leftEvent) (hright : Whole world repo oid rightEvent)
    (hleftResolved : Resolved repo left.1 oid leftEvent)
    (hrightResolved : Resolved repo right.1 oid rightEvent) :
    SameState (Git.applyEvent left leftEvent) (Git.applyEvent right rightEvent) := by
  cases hleft with
  | merge hcommit hmerge =>
    cases hright with
    | merge hother =>
      cases hcommit.symm.trans hother
      exact ⟨h.aliases, h.recordAll rfl rfl fun _ => Iff.rfl⟩
    | listed hsingle => exact absurd ⟨_, hcommit, hmerge⟩ hsingle
  | listed hsingle hleft =>
    cases hright with
    | merge hcommit hmerge => exact absurd ⟨_, hcommit, hmerge⟩ hsingle
    | listed _ hright =>
      obtain ⟨commit, hcommit, hauthor, hseconds⟩ := hleft.commit
      obtain ⟨other, hother, hotherAuthor, hotherSeconds⟩ := hright.commit
      cases hcommit.symm.trans hother
      refine ⟨?_, h.recordAll (hauthor.trans hotherAuthor.symm)
        (hseconds.trans hotherSeconds.symm) (hlistings.names _ _ hleft hright)⟩
      show SameAliases (leftEvent.deltas.foldl moveAlias left.1)
        (rightEvent.deltas.foldl moveAlias right.1)
      have hraw : ∀ {event : CommitEvent} (aliases : Aliases), Listed world repo oid event →
          event.renamesResolved = false → event.deltas.foldl moveAlias aliases = aliases :=
        fun aliases hevent hflag => foldl_moveAlias_of_unfiled fun delta hdelta hkind =>
          absurd hkind (hevent.not_renamed hlistings hflag delta hdelta)
      cases hleftFlag : leftEvent.renamesResolved with
      | false =>
        rw [hraw left.1 hleft hleftFlag]
        cases hrightFlag : rightEvent.renamesResolved with
        | false =>
          rw [hraw right.1 hright hrightFlag]
          exact h.aliases
        | true =>
          obtain ⟨similar, hsimilar, hdeltas⟩ := hright.deltas_eq hrightFlag
          rcases hleftResolved with hflag | hneeds | hnone
          · rw [hleftFlag] at hflag
            cases hflag
          · rw [h.aliases.needs_eq] at hneeds
            rw [hdeltas, foldl_moveAlias_similar hoid hseen hrightAliases hleft hleftFlag hneeds
              hsimilar]
            exact h.aliases
          · rw [hnone] at hsimilar
            cases hsimilar
      | true =>
        obtain ⟨similar, hsimilar, hdeltas⟩ := hleft.deltas_eq hleftFlag
        rw [hdeltas]
        cases hrightFlag : rightEvent.renamesResolved with
        | true =>
          obtain ⟨other, hotherSimilar, hotherDeltas⟩ := hright.deltas_eq hrightFlag
          cases hsimilar.symm.trans hotherSimilar
          rw [hotherDeltas]
          exact h.aliases.foldl_moveAlias _
        | false =>
          rw [hraw right.1 hright hrightFlag]
          rcases hrightResolved with hflag | hneeds | hnone
          · rw [hrightFlag] at hflag
            cases hflag
          · rw [← h.aliases.needs_eq] at hneeds
            rw [foldl_moveAlias_similar hoid hseen hleftAliases hright hrightFlag hneeds hsimilar]
            exact h.aliases
          · rw [hnone] at hsimilar
            cases hsimilar

/-- **Two ways to process a history end in the same state.** -/
lemma Processed.same (hlistings : ∀ oid ∈ oids, Listings world repo oid)
    (hseen : RenamesSeen world repo oids wanted) {rest : List String} (hrest : rest ⊆ oids)
    {left leftFinal right rightFinal : Aliases × Accs}
    (hleft : Processed world repo rest left leftFinal)
    (hright : Processed world repo rest right rightFinal) (h : SameState left right)
    (hleftAliases : AliasesFollowed repo oids wanted left.1)
    (hrightAliases : AliasesFollowed repo oids wanted right.1) :
    SameState leftFinal rightFinal := by
  induction hleft generalizing right with
  | nil =>
    cases hright
    exact h
  | cons hwhole hresolved _ ih =>
    cases hright with
    | cons hotherWhole hotherResolved hotherRest =>
      obtain ⟨hoid, hothers⟩ := cons_subset.mp hrest
      have holdNames := hlistings _ hoid
      refine ih hothers hotherRest (h.applyEvent hoid holdNames hseen hleftAliases hrightAliases
        hwhole hotherWhole hresolved hotherResolved) ?_ ?_
      · exact hleftAliases.foldl_moveAlias (hwhole.followed hoid holdNames)
      · exact hrightAliases.foldl_moveAlias (hotherWhole.followed hoid holdNames)

end

/-! ## Runs -/

lemma get?_initialAliases (wanted : List PathBuf) (name : PathBuf) :
    get? name (initialAliases wanted) = if name ∈ wanted then some [name] else none := by
  unfold initialAliases
  induction wanted with
  | nil => rfl
  | cons path wanted ih =>
    show (if path = name then some [path] else get? name _) = _
    by_cases hname : path = name
    · rw [if_pos hname, hname, if_pos mem_cons_self]
    · rw [if_neg hname, ih]
      simp [Ne.symm hname]

lemma sameAliases_initialAliases {left right : List PathBuf}
    (h : ∀ path, path ∈ left ↔ path ∈ right) :
    SameAliases (initialAliases left) (initialAliases right) := by
  intro name
  rw [get?_initialAliases, get?_initialAliases]
  simp only [h name]
  exact SameFiled.refl _

lemma get?_finishChurn (toRfc3339 : ℤ → Option String) {left right : Accs}
    (h : ∀ path, get? path left = get? path right) (path : PathBuf) :
    get? path (finishChurn toRfc3339 left) =
      get? path (finishChurn toRfc3339 right) := by
  have hmap : ∀ acc : Accs, get? path (finishChurn toRfc3339 acc) =
      (get? path acc).map fun counts => Churn.mk counts.commits counts.authors.length
        (counts.first.bind toRfc3339) (counts.last.bind toRfc3339) :=
    get?_map (fun counts : Acc => Churn.mk counts.commits counts.authors.length
      (counts.first.bind toRfc3339) (counts.last.bind toRfc3339)) path
  rw [hmap, hmap, h path]

section

variable {codec : CacheCodec} {world : World}

structure SameHistory (left right : ChurnRun) : Prop where
  files : ∀ path, path ∈ left.files ↔ path ∈ right.files
  repository : left.repository = right.repository
  head : left.head = right.head
  maxCommits : left.limits.maxCommits = right.limits.maxCommits

lemma churn_of_nothing {disk : CacheDisk codec} (hdisk : DiskSound world disk) {run : ChurnRun}
    (hrun : run.Faithful world)
    (h : run.files = [] ∨ ∀ head, run.head = some head → run.repository.revwalk head = none) :
    (run.collect world.pathFromGit world.toRfc3339 disk).2.churn = [] := by
  unfold ChurnRun.collect
  by_cases hempty : run.wanted.isEmpty = true
  · rw [if_pos hempty]
  · rw [if_neg hempty]
    have hwalk : ∀ head, run.head = some head → run.repository.revwalk head = none := by
      rcases h with hfiles | hwalk
      · unfold ChurnRun.wanted at hempty
        rw [hfiles] at hempty
        exact absurd rfl hempty
      · exact hwalk
    cases hhead : run.head with
    | none => rfl
    | some head =>
      have hnone := hwalk head hhead
      have hhistory : ∀ cache, (run.collectHistory world.pathFromGit world.toRfc3339 head disk
          cache).2.churn = [] := by
        intro cache
        unfold ChurnRun.collectHistory
        rw [hnone]
      dsimp only
      split_ifs with hcacheable
      · split
        · rename_i read churn hget
          exfalso
          obtain ⟨hopened, _⟩ := hdisk.openAt run.useCache (max run.limits.maxCacheBytes 1)
          obtain ⟨_, _, hfound⟩ := hopened.getView (run.viewIdentity head)
          rw [hget] at hfound
          obtain ⟨entry, hentry, hidentity, _⟩ := hfound churn rfl
          obtain ⟨_, _, _, oids, _, _, hoids, _⟩ := hopened.views entry hentry
          rw [hidentity] at hoids
          rw [hrun.history hcacheable] at hnone
          exact some_ne_none _ (hoids.symm.trans hnone)
        · exact hhistory _
      · exact hhistory _

end

/-! ### A link that is moved over a file -/

namespace MovedLink

def path (name : String) : PathBuf := ⟨[name]⟩

def pathFromGit (bytes : List UInt8) : PathBuf :=
  path (String.ofList (bytes.map fun byte => Char.ofNat byte.toNat))

/-- `r` adds the file `q`, `b` adds the link `x`, and `c` changes files. -/
def commit : String → Option Commit
  | "c" => some ⟨some "ann@example.com", 300, 1, Merged.tree 99 (by decide),
      some (Merged.tree 98 (by decide))⟩
  | "b" => some ⟨some "bob@example.com", 200, 1, Merged.tree 98 (by decide),
      some (Merged.tree 97 (by decide))⟩
  | "r" => some ⟨some "ann@example.com", 100, 0, Merged.tree 97 (by decide), none⟩
  | _ => none

def added (name : String) : DiffDelta := ⟨.added, some (path name), some (path name)⟩

def deleted (name : String) : DiffDelta := ⟨.deleted, some (path name), some (path name)⟩

/-- The diffs of the commits, with that of `c`. -/
def diffs (changes : List DiffDelta) : String → Option (List DiffDelta)
  | "c" => some changes
  | "b" => some [added "x"]
  | "r" => some [added "q"]
  | _ => none

def repository (diff similar : List DiffDelta) : Repository where
  findCommit := commit
  diff := diffs diff
  findSimilar := diffs similar
  revwalk _ := some [some "c", some "b", some "r"]

def addedX : NativeChange := ⟨65, .added, [120], rfl, by decide⟩

def deletedX : NativeChange := ⟨68, .deleted, [120], rfl, by decide⟩

def addedY : NativeChange := ⟨65, .added, [121], rfl, by decide⟩

def world (native : List NativeChange) (diff similar : List DiffDelta) : World where
  histories _ := repository diff similar
  changes _ newTree := if newTree.text = [99] then native else [addedX]
  pathFromGit := pathFromGit
  toRfc3339 seconds := some (toString seconds)

def run (world : World) (files : List PathBuf) : ChurnRun where
  files := files
  limits := OneView.limits
  useCache := true
  repository := world.histories "history"
  head := some "c"
  historyState := "history"
  cacheable := true
  walkDeadline _ := false
  processDeadline _ := false
  startGit commits :=
    some ⟨streamBytes world.changes commits, ⟨false, fun _ => false⟩, false, some true, some true⟩
  orders := OneView.orders
  eventsWritten := true
  viewsWritten := true

lemma faithful (world : World) {files : List PathBuf}
    (hfiles : ∀ file ∈ files, file.Separated) : (run world files).Faithful world := by
  refine ⟨fun commits process hprocess => ?_, fun _ => rfl, hfiles⟩
  cases hprocess
  exact fun _ _ => rfl

lemma separated_path {name : String} (h : name ≠ "" ∧ '/' ∉ name.toList) :
    (path name).Separated := by
  intro c hc
  rw [mem_singleton.mp hc]
  exact h

lemma separated {name : String} (h : name ≠ "" ∧ '/' ∉ name.toList) :
    ∀ file ∈ [path name], file.Separated := by
  intro file hfile
  rw [mem_singleton.mp hfile]
  exact separated_path h

/-- `c` moves the link over the file: Git lists a change of type, libgit2 a deletion and an
addition. -/
def moved : World :=
  world [⟨84, .other, [113], rfl, by decide⟩, deletedX, addedY]
    [deleted "q", added "q", deleted "x", added "y"]
    [deleted "q", ⟨.renamed, some (path "x"), some (path "q")⟩, added "y"]

/-- The cache of a run for the file that `c` adds. -/
def disk : CacheDisk OneView.parsedCodec :=
  ((run moved [path "y"]).collect moved.pathFromGit moved.toRfc3339 ⟨none, none⟩).1

lemma filled : Filled OneView.parsedCodec moved disk :=
  Filled.run Filled.empty _ (faithful moved (separated (by decide)))

lemma cached_report : ((run moved [path "q"]).collect moved.pathFromGit moved.toRfc3339 disk).2 =
    ⟨[(path "q", ⟨2, 2, some "200", some "300"⟩)], false, 0⟩ := by
  decide +kernel

lemma fresh_report : ((run moved [path "q"]).collect moved.pathFromGit moved.toRfc3339
    (⟨none, none⟩ : CacheDisk OneView.parsedCodec)).2 =
      ⟨[(path "q", ⟨2, 1, some "100", some "300"⟩)], false, 0⟩ := by
  decide +kernel

def deltaNames (deltas : List CachedDelta) : List PathBuf :=
  deltas.flatMap fun delta => delta.newPath.toList ++ delta.oldPath.toList

lemma touches_iff (event : CommitEvent) (name : PathBuf) :
    Touches event name ↔ name ∈ deltaNames event.deltas := by
  unfold Touches deltaNames
  simp [mem_flatMap]

/-- The names that the commits touch, with those of `c`. -/
def names (changed : List PathBuf) : String → List PathBuf
  | "c" => changed
  | "b" => [path "x"]
  | _ => [path "q"]

def SameNames (left right : List PathBuf) : Prop :=
  (∀ name ∈ left, name ∈ right) ∧ ∀ name ∈ right, name ∈ left

instance (left right : List PathBuf) : Decidable (SameNames left right) :=
  inferInstanceAs (Decidable (_ ∧ _))

lemma eq_of_commit {oid : String} {commit : Commit} (h : MovedLink.commit oid = some commit) :
    oid = "c" ∨ oid = "b" ∨ oid = "r" := by
  unfold MovedLink.commit at h
  split at h
  · exact .inl rfl
  · exact .inr (.inl rfl)
  · exact .inr (.inr rfl)
  · cases h

section

variable {native : List NativeChange} {diff similar : List DiffDelta} {changed : List PathBuf}
variable (hnative : SameNames (deltaNames (native.map (NativeChange.delta pathFromGit))) changed)
  (hdiff : SameNames (deltaNames (diff.map cached)) changed)

include hnative hdiff

variable (hsimilar : SameNames (deltaNames (similar.map cached)) changed)

include hsimilar

lemma sameNames_listed {oid : String}
    (h : Listed (world native diff similar) (repository diff similar) oid event) :
    SameNames (deltaNames event.deltas) (names changed oid) := by
  cases h with
  | native hcommit hparent =>
    rcases eq_of_commit hcommit with rfl | rfl | rfl
    · cases hcommit
      exact hnative
    · cases hcommit
      show SameNames (deltaNames [addedX.delta pathFromGit]) [path "x"]
      decide +kernel
    · cases hcommit
      cases hparent
  | raw hcommit hlisted =>
    rcases eq_of_commit hcommit with rfl | rfl | rfl
    · cases hlisted
      exact hdiff
    · cases hlisted
      show SameNames (deltaNames [(added "x").cached]) [path "x"]
      decide +kernel
    · cases hlisted
      show SameNames (deltaNames [(added "q").cached]) [path "q"]
      decide +kernel
  | renamed hcommit hlisted =>
    rcases eq_of_commit hcommit with rfl | rfl | rfl
    · cases hlisted
      exact hsimilar
    · cases hlisted
      show SameNames (deltaNames [(added "x").cached]) [path "x"]
      decide +kernel
    · cases hlisted
      show SameNames (deltaNames [(added "q").cached]) [path "q"]
      decide +kernel

lemma listings (hraw : ∀ delta ∈ diff, delta.status ≠ .renamed) (oid : String) :
    Listings (world native diff similar) (repository diff similar) oid := by
  refine ⟨fun left right hleft hright name => ?_, fun listed hlisted => ?_⟩
  · have hleftNames := sameNames_listed hnative hdiff hsimilar hleft
    have hrightNames := sameNames_listed hnative hdiff hsimilar hright
    rw [touches_iff, touches_iff]
    exact ⟨fun h => hrightNames.2 name (hleftNames.1 name h),
      fun h => hleftNames.2 name (hrightNames.1 name h)⟩
  · have hdiffs : diffs diff oid = some listed := hlisted
    unfold diffs at hdiffs
    split at hdiffs
    · cases hdiffs
      exact hraw
    · cases hdiffs
      decide
    · cases hdiffs
      decide
    · cases hdiffs

end

/-- `c` renames the link. -/
def renamed : World :=
  world [deletedX, addedY] [deleted "x", added "y"]
    [⟨.renamed, some (path "x"), some (path "y")⟩]

/-- The cache of a run for the old name, which does not need the rename. -/
def renamedDisk : CacheDisk OneView.parsedCodec :=
  ((run renamed [path "x"]).collect renamed.pathFromGit renamed.toRfc3339 ⟨none, none⟩).1

lemma renamesSeen (range : List String) (files : List PathBuf) :
    RenamesSeen renamed (renamed.histories "history") range files := by
  intro oid _ similar hsimilar delta hdelta hkind newPath hnew _ event hevent hflag
  have hrenames : oid = "c" → newPath = path "y" := by
    rintro rfl
    cases hsimilar
    obtain rfl := mem_singleton.mp hdelta
    exact (some.inj hnew).symm
  have hother : oid = "b" ∨ oid = "r" → False := by
    rintro (rfl | rfl)
    all_goals
      cases hsimilar
      obtain rfl := mem_singleton.mp hdelta
      cases hkind
  cases hevent with
  | native hcommit hparent =>
    rcases eq_of_commit hcommit with rfl | hbase
    · cases hcommit
      rw [hrenames rfl]
      exact ⟨⟨_, mem_cons_self, rfl⟩, _, mem_cons_of_mem _ mem_cons_self, rfl, rfl⟩
    · exact absurd hbase hother
  | raw hcommit hlisted =>
    rcases eq_of_commit hcommit with rfl | hbase
    · cases hlisted
      rw [hrenames rfl]
      exact ⟨⟨_, mem_cons_self, rfl⟩, _, mem_cons_of_mem _ mem_cons_self, rfl, rfl⟩
    · exact absurd hbase hother
  | renamed => cases hflag

end MovedLink

open MovedLink

end Reposcout.Git
