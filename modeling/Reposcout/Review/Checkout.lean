import Reposcout.Review.Snapshot
import Reposcout.Walk.Walker

/-!
# Clean checkouts

In a clean checkout the working tree, the index and the committed tree have the same entries.  Each
of the three loaders sees its own side of them: the walker finds what is checked out, together with
the directory of the repository; the index lists every entry with its blob; and the walk of the tree
meets every entry, its directories included, as an object of some kind.

Names are texts, of which `isUtf8` says whether they are what git stores or stand for bytes that are
not UTF-8.
-/

namespace Reposcout.Review

open Walk

/-- An entry of the index: a regular file, executable or not; a link, with what its path resolves
to; or a submodule, with what is checked out in its place. -/
inductive Tracked where
  | file (bytes : List UInt8)
  | link (target : List UInt8) (resolved : PathBuf)
  | submodule (worktree : WorkTree)

namespace Tracked

/-- What the checkout puts at the place of an entry. -/
def placed : Tracked → WorkTree
  | file bytes => .leaf (.regular bytes)
  | link _ _ => .leaf .other
  | submodule worktree => worktree

/-- A blob of the object database. -/
def stored (bytes : List UInt8) : Blob where
  size := bytes.length
  headerReadable := true
  bytes := some bytes
  length_bytes := by simp

/-- What the object database answers for an object that it does not have or that is no blob. -/
def absent : Blob where
  size := 0
  headerReadable := false
  bytes := none
  length_bytes := by simp

/-- The object of an entry.  The commit of a submodule is not in the database. -/
def object : Tracked → Blob
  | file bytes => stored bytes
  | link target _ => stored target
  | submodule _ => absent

/-- Whether the kind of the entry in a tree is that of a blob. -/
def isBlob : Tracked → Bool
  | file _ | link _ _ => true
  | submodule _ => false

end Tracked

/-- The files that are checked out for some entries of the root, next to the directory of the
repository. -/
def checkedOut (tracked : List (String × NamedTree String Tracked)) (gitDirectory : WorkTree) :
    WorkTree :=
  .node ((".git", gitDirectory) :: NamedTree.graftOf Tracked.placed tracked)

/-- A checkout without changes and untracked files.  A path leads to one thing only. -/
structure Checkout where
  tracked : List (String × NamedTree String Tracked)
  gitDirectory : WorkTree
  isUtf8 : String → Bool
  entries_nodup : ((NamedTree.leavesOf tracked).map Prod.fst).Nodup
  files_nodup : ((checkedOut tracked gitDirectory).leaves.map Prod.fst).Nodup

namespace Checkout

variable (checkout : Checkout)

/-- The entries of the index by path. -/
def entries : List (List String × Tracked) := NamedTree.leavesOf checkout.tracked

def worktree : WorkTree := checkedOut checkout.tracked checkout.gitDirectory

/-- `canonicalize` on a path below the root; a path that leads nowhere stays as it is. -/
def identity (root path : PathBuf) : PathBuf :=
  match checkout.entries.find? fun entry => entry.1 = path.components with
  | some (_, .link _ resolved) => resolved
  | _ => root.join path

/-! ## The three sides -/

/-- A walk of the working tree; a directory may be listed in any order. -/
def Walked (matcher : PathMatcher) (traversal : Traversal) : Prop :=
  traversal.items.Perm (walkItems matcher matcher.root ⟨[]⟩ checkout.worktree)

/-- `SnapshotFilter::new` for the root of the checkout. -/
def filter (discovery : Discovery) (matcher : PathMatcher) (rejected : ℕ) : SnapshotFilter where
  detect := discovery.detect
  identity := checkout.identity matcher.root
  exclusions := discovery.exclusions
  ignored path := matcher.matched path false
  rejected

def indexEntry (entry : List String × Tracked) : IndexEntry where
  path := some ⟨entry.1⟩
  blob := entry.2.object

def index (filter : SnapshotFilter) : IndexSource where
  filter
  entries := checkout.entries.map indexEntry

/-- The name of an entry in its tree, if it is UTF-8. -/
def named (path : List String) : Option PathBuf :=
  if path.getLast?.all checkout.isUtf8 then some ⟨path⟩ else none

def treeEntry : List String × Option Tracked → TreeEntry
  | (path, some tracked) => ⟨tracked.isBlob, checkout.named path, tracked.object⟩
  | (path, none) => ⟨false, checkout.named path, Tracked.absent⟩

/-- Whether the directory of an entry can be told to the visitor of a tree, which takes text. -/
def visitable (path : List String) : Bool := path.dropLast.all checkout.isUtf8

/-- What the walk of the tree meets. -/
def visited : List (List String × Option Tracked) :=
  NamedTree.walkOf (fun _ _ => false) checkout.tracked

/-- The walk of the tree fails at the first entry that is not visitable. -/
def tree (filter : SnapshotFilter) : TreeSource where
  filter
  entries := (checkout.visited.takeWhile fun entry => checkout.visitable entry.1).map
    checkout.treeEntry
  walkFails := !(checkout.visited.all fun entry => checkout.visitable entry.1)

end Checkout

end Reposcout.Review
