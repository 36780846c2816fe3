import Reposcout.Model.Path

/-!
# Churn

What the history of a repository says about a file, and the events it is computed from: one for
each commit, with the files the commit touches.
-/

namespace Reposcout

structure Churn where
  commits : ℕ
  authors : ℕ
  firstCommit : Option String
  lastCommit : Option String
  deriving DecidableEq

namespace Git

/-- The resource limits of churn collection, without the deadline. -/
structure ChurnLimits where
  maxCommits : ℕ
  maxDeltasPerCommit : ℕ
  maxTotalDeltas : ℕ
  maxOutputBytes : ℕ
  maxPathBytes : ℕ
  maxCacheBytes : ℕ
  skipLibgit2Fallback : Bool

inductive DeltaKind where
  | added
  | deleted
  | renamed
  | other
  deriving DecidableEq

structure CachedDelta where
  kind : DeltaKind
  oldPath : Option PathBuf
  newPath : Option PathBuf
  deriving DecidableEq

structure CommitEvent where
  oid : String
  author : Option String
  seconds : ℤ
  deltas : List CachedDelta
  renamesResolved : Bool
  deriving DecidableEq

end Git

end Reposcout
