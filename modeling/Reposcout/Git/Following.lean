import Reposcout.Framework.KeyedList
import Reposcout.Model.Churn

/-!
# Following files through renames

History is read from the newest commit to the oldest.  Each wanted file is filed under the name it
has at that point, its alias, and an event that touches an alias counts for all files filed under
it.  After it is counted, the renames of the event move the aliases to the older names.
-/

namespace Reposcout.Git

/-- What has been counted for a file. -/
structure Acc where
  commits : ℕ
  authors : List String
  first : Option ℤ
  last : Option ℤ
  deriving DecidableEq

/-- The names at this point of the history, each with the wanted files it stands for. -/
abbrev Aliases := List (PathBuf × List PathBuf)

/-- The counts by wanted file. -/
abbrev Accs := List (PathBuf × Acc)

namespace Acc

def empty : Acc := ⟨0, [], none, none⟩

def record (acc : Acc) (event : CommitEvent) : Acc where
  commits := acc.commits + 1
  authors :=
    match event.author with
    | some author => acc.authors.insert author
    | none => acc.authors
  first := some (acc.first.elim event.seconds fun first => min first event.seconds)
  last := some (acc.last.elim event.seconds fun last => max last event.seconds)

end Acc

def filedUnder (aliases : Aliases) (name : Option PathBuf) : List PathBuf :=
  (name.bind fun name => KeyedList.get? name aliases).getD []

/-- The wanted files an event touches, each once. -/
def touched (event : CommitEvent) (aliases : Aliases) : List PathBuf :=
  (event.deltas.flatMap fun delta =>
    filedUnder aliases delta.newPath ++ filedUnder aliases delta.oldPath).dedup

/-- Count an event for some files. -/
def recordAll (event : CommitEvent) (paths : List PathBuf) (acc : Accs) : Accs :=
  paths.foldl (fun acc path =>
    KeyedList.alter path (fun entry => (entry.getD Acc.empty).record event) acc) acc

/-- A rename moves the files filed under the new name to the old one. -/
def moveAlias (aliases : Aliases) (delta : CachedDelta) : Aliases :=
  if delta.kind = .renamed then
    match delta.oldPath, delta.newPath with
    | some oldPath, some newPath =>
      match KeyedList.get? newPath aliases with
      | none => aliases
      | some current =>
        KeyedList.alter oldPath (fun entry => entry.getD [] ∪ current)
          (aliases.filter fun entry => entry.1 ≠ newPath)
    | _, _ => aliases
  else aliases

def applyEvent (state : Aliases × Accs) (event : CommitEvent) : Aliases × Accs :=
  (event.deltas.foldl moveAlias state.1, recordAll event (touched event state.1) state.2)

/-- Every wanted file starts under its own name. -/
def initialAliases (wanted : List PathBuf) : Aliases := wanted.map fun path => (path, [path])

/-- The aliases and counts after a history. -/
def applyEvents (wanted : List PathBuf) (events : List CommitEvent) : Aliases × Accs :=
  events.foldl applyEvent (initialAliases wanted, [])

/-- `finish_churn`. `toRfc3339` formats a time. -/
def finishChurn (toRfc3339 : ℤ → Option String) (acc : Accs) : List (PathBuf × Churn) :=
  acc.map fun entry =>
    (entry.1,
      { commits := entry.2.commits
        authors := entry.2.authors.length
        firstCommit := entry.2.first.bind toRfc3339
        lastCommit := entry.2.last.bind toRfc3339 })

/-! ## Following one file -/

def Touches (event : CommitEvent) (name : PathBuf) : Prop :=
  ∃ delta ∈ event.deltas, delta.newPath = some name ∨ delta.oldPath = some name

instance (event : CommitEvent) (name : PathBuf) : Decidable (Touches event name) :=
  inferInstanceAs (Decidable (∃ delta ∈ event.deltas, _))

/-- The renames of an event, from the old name to the new one. -/
def renames (event : CommitEvent) : List (PathBuf × PathBuf) :=
  event.deltas.filterMap fun delta =>
    if delta.kind = .renamed then
      match delta.oldPath, delta.newPath with
      | some oldPath, some newPath => some (oldPath, newPath)
      | _, _ => none
    else none

def previousName (event : CommitEvent) (name : PathBuf) : PathBuf :=
  (((renames event).find? fun rename => rename.2 = name).map Prod.fst).getD name

/-- The name and the count of one file after an event. -/
def followEvent (state : PathBuf × Option Acc) (event : CommitEvent) : PathBuf × Option Acc :=
  (previousName event state.1,
    if Touches event state.1 then some ((state.2.getD Acc.empty).record event) else state.2)

/-- One file followed alone, from the newest event to the oldest. -/
def follow (path : PathBuf) (events : List CommitEvent) : PathBuf × Option Acc :=
  events.foldl followEvent (path, none)

/-- What is assumed of rename detection: no two renames of an event have the same new name, and no
name is both an old and a new one. -/
structure RenamesOk (event : CommitEvent) : Prop where
  nodup : ((renames event).map Prod.snd).Nodup
  disjoint : ∀ rename ∈ renames event, rename.1 ∉ (renames event).map Prod.snd

end Reposcout.Git
