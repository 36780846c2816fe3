import Reposcout.Framework.NamedTree
import Reposcout.Walk.Discovery

/-!
# The walker

The walker visits the working tree below its target and asks the ignore policy about everything
but the target itself.  It follows no links, and the order in which it lists a directory is that of
the file system.
-/

/-!
## The ignore policy

Discovery and the snapshots of git objects share one policy.  A path is ignored if it or a directory
above it, up to the root of the policy's scan, is; what is said about one of them comes from the
overrides of the configuration, then from the ignore files of the directories above it, and last
from its name.

The matchers are compiled from globs by a library and are parameters.  Paths are absolute unless
they are said to be relative to the root.
-/

namespace Reposcout

namespace PathBuf

/-- `Path::join` with a relative path. -/
def join (base relative : PathBuf) : PathBuf := ⟨base.components ++ relative.components⟩

def startsWith (path base : PathBuf) : Bool := base.components.isPrefixOf path.components

def stripPrefix (path base : PathBuf) : Option PathBuf :=
  if path.startsWith base then some ⟨path.components.drop base.components.length⟩ else none

/-- `path.parent().ancestors()`, from the nearest one. -/
def properAncestors (path : PathBuf) : List PathBuf :=
  (path.components.inits.reverse.tail).map PathBuf.mk

def fileName (path : PathBuf) : Option String := path.components.getLast?

@[simp] lemma startsWith_join (base relative : PathBuf) :
    (base.join relative).startsWith base = true := by
  simp [startsWith, join]

@[simp] lemma stripPrefix_join (base relative : PathBuf) :
    (base.join relative).stripPrefix base = some relative := by
  rw [stripPrefix, if_pos (startsWith_join base relative)]
  simp [join]

end PathBuf

namespace Walk

/-- What compiled globs say about a path, of which it is known whether it is a directory: whether it
is ignored, if any of them matches. -/
abbrev GlobMatcher := PathBuf → Bool → Option Bool

structure DirectoryRules where
  custom : GlobMatcher
  plain : GlobMatcher
  git : GlobMatcher
  exclude : GlobMatcher
  gitBoundary : Bool
  failed : Bool

/-- `PathMatcher`, with the rules of each directory as they are loaded at the first question, and
the global excludes, absent if their file is rejected. -/
structure PathMatcher where
  root : PathBuf
  policyRoot : PathBuf
  overrides : GlobMatcher
  includeHidden : Bool
  repositoryIgnores : Bool
  directories : PathBuf → DirectoryRules
  global : Option GlobMatcher

def overrideIgnored (overrides : GlobMatcher) (absolute root : PathBuf) : Bool :=
  overrides absolute false = some true ||
    (absolute.properAncestors.takeWhile fun path => path.startsWith root).any fun path =>
      overrides path true = some true

namespace PathMatcher

variable (matcher : PathMatcher)

def rules (path : PathBuf) : List DirectoryRules :=
  if matcher.repositoryIgnores then
    (path.properAncestors.takeWhile fun directory => directory.startsWith matcher.policyRoot).map
      matcher.directories
  else []

/-- What the git rules say: those up to the boundary of the repository, then its excludes, then the
global ones. -/
def gitDecision (rules : List DirectoryRules) (path : PathBuf) (isDir : Bool) : Option Bool :=
  match rules.findIdx? DirectoryRules.gitBoundary with
  | none => none
  | some boundary =>
    ((rules.take (boundary + 1)).findSome? fun rules => rules.git path isDir).or <|
      ((rules[boundary]?.bind fun rules => rules.exclude path isDir)).or <|
        matcher.global.bind fun global => global path isDir

/-- `check_one`, absent if a file with rules is rejected. -/
def checkOne (path : PathBuf) (isDir : Bool) : Option Bool :=
  if matcher.overrides path isDir = some true ∨
      overrideIgnored matcher.overrides path matcher.root then some true
  else if matcher.overrides path isDir = some false then some false
  else
    let rules := matcher.rules path
    if (rules.any DirectoryRules.gitBoundary && matcher.global.isNone) ||
        rules.any DirectoryRules.failed then none
    else
      some <|
        (rules.findSome? fun rules => rules.custom path isDir).getD <|
          (rules.findSome? fun rules => rules.plain path isDir).getD <|
            (matcher.gitDecision rules path isDir).getD <|
              !matcher.includeHidden && path.fileName.any fun name => name.startsWith "."

/-- The loop of `check` over the remaining components. -/
def checkFrom (isDir : Bool) (candidate : PathBuf) : List String → Option Bool
  | [] => some false
  | part :: rest =>
    let candidate := candidate.join ⟨[part]⟩
    match matcher.checkOne candidate (isDir || !rest.isEmpty) with
    | none => none
    | some true => some true
    | some false => checkFrom isDir candidate rest

/-- `matched` for a path relative to the root. -/
def matched (relative : PathBuf) (isDir : Bool) : Bool :=
  (matcher.checkFrom isDir matcher.root relative.components).getD true

/-- `matched` for an absolute path. -/
def matchedAbsolute (path : PathBuf) (isDir : Bool) : Bool :=
  match path.stripPrefix matcher.root with
  | none => true
  | some relative => matcher.matched relative isDir

@[simp] lemma matchedAbsolute_join (relative : PathBuf) (isDir : Bool) :
    matcher.matchedAbsolute (matcher.root.join relative) isDir =
      matcher.matched relative isDir := by
  simp [matchedAbsolute]

/-- Whether `check` stops at a path relative to a base. -/
def stopsAt (base : PathBuf) (relative : List String) (isDir : Bool) : Bool :=
  (matcher.checkOne (base.join ⟨relative⟩) isDir).getD true

lemma checkFrom_eq (isDir : Bool) (base : PathBuf) (relative : List String) :
    (matcher.checkFrom isDir base relative).getD true =
      NamedTree.skipsPart (matcher.stopsAt base) isDir relative := by
  induction relative generalizing base with
  | nil => rfl
  | cons part rest ih =>
    have hrest : (fun path => matcher.stopsAt base (part :: path)) =
        matcher.stopsAt (base.join ⟨[part]⟩) := by
      funext path isDir
      simp [stopsAt, PathBuf.join]
    cases rest with
    | nil =>
      simp only [checkFrom, NamedTree.skipsPart, stopsAt, List.isEmpty_nil, Bool.not_true,
        Bool.or_false]
      rcases matcher.checkOne (base.join ⟨[part]⟩) isDir with _ | (_ | _) <;> rfl
    | cons next rest =>
      rw [NamedTree.skipsPart, hrest, ← ih]
      simp only [checkFrom, stopsAt, List.isEmpty_cons, Bool.not_false, Bool.or_true]
      rcases matcher.checkOne (base.join ⟨[part]⟩) true with _ | (_ | _) <;> rfl

/-- **A path is matched** if `check` stops at it or at a directory above it. -/
lemma matched_eq (relative : PathBuf) (isDir : Bool) : matcher.matched relative isDir =
      NamedTree.skipsPart (matcher.stopsAt matcher.root) isDir relative.components :=
  matcher.checkFrom_eq isDir matcher.root relative.components

end PathMatcher

end Walk

end Reposcout

namespace Reposcout.Walk

/-- What a path of a working tree leads to: a regular file with its bytes, or anything else that is
no directory, such as a link. -/
inductive WorkFile where
  | regular (bytes : List UInt8)
  | other

abbrev WorkTree := NamedTree String WorkFile

/-- What opening the components of a path yields one after the other: the directories, and last the
file. -/
def openedComponents (bytes : List UInt8) : List String → List (PathComponent × OpenResult)
  | [] => []
  | [name] =>
    let metadata := some ⟨true, false, bytes.length⟩
    [(.normal name, .handle ⟨metadata, metadata, some bytes⟩)]
  | name :: next :: rest =>
    let metadata := some ⟨false, false, 0⟩
    (.normal name, .handle ⟨metadata, metadata, none⟩) :: openedComponents bytes (next :: rest)

def regularFile (root path : PathBuf) (bytes : List UInt8) : WalkFile where
  absolutePath := root.join path
  reportPath := path
  metadata := some ⟨true, false, bytes.length⟩
  opened := some (openedComponents bytes path.components)

/-- What the walker yields for a path below the target, which is itself below the root. -/
def walkItem (root target : PathBuf) : List String × Option WorkFile → WalkItem
  | (path, some (.regular bytes)) =>
    .entry path.length (some (regularFile root (target.join ⟨path⟩) bytes))
  | (path, some .other) | (path, none) => .entry path.length none

def walkerSkips (matcher : PathMatcher) (root target : PathBuf) (path : List String)
    (isDir : Bool) : Bool :=
  matcher.matchedAbsolute (root.join (target.join ⟨path⟩)) isDir

/-- What the walker yields below the target, in the order of the file system. -/
def walkItems (matcher : PathMatcher) (root target : PathBuf) (tree : WorkTree) : List WalkItem :=
  (tree.walk (walkerSkips matcher root target)).map (walkItem root target)

end Reposcout.Walk
