import Mathlib.Data.List.DropRight
import Mathlib.Data.List.Infix
import Reposcout.Framework.FileTree
import Reposcout.Framework.Utf8
import Reposcout.TaskDiagnostics.Record

/-!
# Paths of diagnostics

A diagnostic names a file by a text: a path, or a `file:` URI.  It is resolved against the
repository and its inventory, and never followed through a symbolic link.
-/

namespace Reposcout.TaskDiagnostics

open PathStep

/-! ## Paths -/

/-- A name in a path, as bytes. -/
abbrev Name := List UInt8

/-- What the separators leave of the text of a path.  The empty path is one empty name, and an
absolute path begins with an empty name that is not all. -/
abbrev RawPath := List Name

namespace RawPath

def ofText (text : List Char) : RawPath := (text.splitOn '/').map Utf8.encode

def isEmpty : RawPath → Bool
  | [] | [[]] => true
  | _ => false

def isAbsolute : RawPath → Bool
  | [] :: _ :: _ => true
  | _ => false

def ofPlace (place : List Name) : RawPath := [] :: if place = [] then [[]] else place

/-- `join`, also `push`. -/
def join (path other : RawPath) : RawPath :=
  if other.isAbsolute || path.isEmpty then other
  else if path.getLast? = some [] then path.dropLast ++ other
  else path ++ other

end RawPath

/-- `Component`.  There are no prefixes on the supported targets. -/
inductive Component
  | rootDir
  | curDir
  | parentDir
  | normal (name : Name)
  deriving DecidableEq

def step (name : Name) : PathStep Name :=
  if name = [] ∨ name = [46] then .stay else if name = [46, 46] then .up else .down name

/-- The component of a name that is not at the start of its path. -/
def bodyComponent (name : Name) : Option Component :=
  match step name with
  | .stay => none
  | .up => some .parentDir
  | .down name => some (.normal name)

/-- `as_os_str` of a component. -/
def Component.path : Component → RawPath
  | rootDir => [[], []]
  | curDir => [[46]]
  | parentDir => [[46, 46]]
  | normal name => [name]

namespace RawPath

def components : RawPath → List Component
  | [] => []
  | first :: rest =>
    if first = [] ∧ rest ≠ [] then .rootDir :: rest.filterMap bodyComponent
    else if first = [46] then .curDir :: rest.filterMap bodyComponent
    else (first :: rest).filterMap bodyComponent

/-- Components `collect`ed into a path. -/
def collect (components : List Component) : RawPath :=
  components.foldl (fun path component => path.join component.path) [[]]

def startsWith (path other : RawPath) : Bool := other.components.isPrefixOf path.components

/-- The names that stay behind those of a place, without the separators around them. -/
def namesAfter : List Name → List Name → Option RawPath
  | [], rest => some ((rest.dropWhile fun name => step name = .stay).rdropWhile
      fun name => step name = .stay)
  | _ :: _, [] => none
  | name :: names, other :: rest =>
    if step other = .stay then namesAfter (name :: names) rest
    else if other = name then namesAfter names rest
    else none

/-- `strip_prefix`, of the path of a place. -/
def stripPrefix (path : RawPath) (place : List Name) : Option RawPath :=
  if path.isAbsolute then namesAfter place path.tail else none

end RawPath

/-! ## The file system -/

structure ProperName (name : Name) : Prop where
  ne_nil : name ≠ []
  ne_dot : name ≠ [46]
  ne_dotdot : name ≠ [46, 46]
  separator : 47 ∉ name

/-- Directories, regular files and symbolic links, with the directory of the process and the number
of links that are followed. -/
structure FileSystem extends FileTree Name where
  proper : ∀ place name, node (place ++ [name]) ≠ none → ProperName name
  currentDir : List Name
  maxLinks : ℕ

namespace FileSystem

variable (fs : FileSystem)

def start (path : RawPath) : List Name := if path.isAbsolute then [] else fs.currentDir

def canonicalize (path : RawPath) : Option (List Name) :=
  if path.isEmpty then none
  else fs.toFileTree.realpath fs.maxLinks (fs.start path) (path.map step)

def symlinkMetadata (path : RawPath) : Option (FileNode Name) :=
  if path.isEmpty then none
  else fs.toFileTree.lstat fs.maxLinks (fs.start path) (path.map step)

def isFile (path : RawPath) : Bool :=
  decide ((fs.canonicalize path).bind fs.node = some .file)

end FileSystem

/-! ## Local paths -/

/-- `char::from(byte).to_digit(16)`. -/
def hexDigit (byte : UInt8) : Option UInt8 :=
  if 48 ≤ byte ∧ byte ≤ 57 then some (byte - 48)
  else if 97 ≤ byte ∧ byte ≤ 102 then some (byte - 87)
  else if 65 ≤ byte ∧ byte ≤ 70 then some (byte - 55)
  else none

/-- The loop of `percent_decode`. -/
def percentBytes : List UInt8 → Option (List UInt8)
  | [] => some []
  | byte :: high :: low :: rest =>
    if byte = 37 then do
      let high ← hexDigit high
      let low ← hexDigit low
      let rest ← percentBytes rest
      some ((high * 16 + low) :: rest)
    else (percentBytes (high :: low :: rest)).map (byte :: ·)
  | byte :: rest => if byte = 37 then none else (percentBytes rest).map (byte :: ·)

def percentDecode (value : List Char) : Option (List Char) := do
  let bytes ← percentBytes (Utf8.encode value)
  let text ← String.fromUTF8? bytes.toByteArray
  some text.toList

/-- The path of a `file:` URI, behind its scheme. -/
def uriPath (uri : List Char) : Option (List Char) :=
  match stripStart "//" uri with
  | none => some uri
  | some rest =>
    if rest.head? = some '/' then some rest
    else (stripStart "localhost/" rest).map fun rest => '/' :: rest

/-- The text of `local_path`. -/
def localText (value : List Char) (uri : Bool) : Option (List Char) :=
  match stripStart "file:" value with
  | some rest => do
    let path ← uriPath rest
    if '?' ∈ path ∨ '#' ∈ path then none else percentDecode path
  | none =>
    if "://".toList <:+: value ∨ ':' ∈ value then none
    else if uri then if '?' ∈ value ∨ '#' ∈ value then none else percentDecode value
    else some value

/-- `value.replace('\\', "/")`. -/
def replaceBackslashes (text : List Char) : List Char :=
  text.map fun c => if c = '\\' then '/' else c

def localPath (value : List Char) (uri : Bool) : Option RawPath := do
  let text ← localText value uri
  if isInvalidPath text then none
  else
    let components := (RawPath.ofText (replaceBackslashes text)).components
    if .parentDir ∈ components then none
    else some (RawPath.collect (components.filter fun component => component ≠ .curDir))

/-! ## Resolution -/

/-- The loop of `no_symlink`. -/
def noSymlinkFrom (fs : FileSystem) : RawPath → List Component → Bool
  | current, [] => fs.isFile current
  | current, component :: rest =>
    match fs.symlinkMetadata (current.join component.path) with
    | none | some (.link _ _) => false
    | some _ => noSymlinkFrom fs (current.join component.path) rest

def noSymlink (fs : FileSystem) (root : List Name) (relative : RawPath) : Bool :=
  noSymlinkFrom fs (.ofPlace root) relative.components

/-- `relative.to_string_lossy().replace('\\', "/")`. -/
def identity (relative : RawPath) : String :=
  String.ofList (replaceBackslashes
    (Utf8.decodeLossy (Char.ofNat 0xFFFD) (List.intercalate [47] relative)))

/-- The record with a reason why its path is not resolved. -/
def TaskDiagnostic.rejected (record : TaskDiagnostic) (reason : String) : TaskDiagnostic :=
  { record with reason := some reason }

/-- The record at a file of the inventory. -/
def TaskDiagnostic.located (record : TaskDiagnostic) (path : String) (inTarget : Bool) :
    TaskDiagnostic :=
  { record with
    path := some path
    originalPath := none
    status := if inTarget then .resolved else .outOfScope
    reason := if inTarget then none else some "outside-target" }

/-- The loop of `resolve` over the candidates. -/
def resolveCandidates (fs : FileSystem) (root : List Name) (target : RawPath)
    (inventory : List String) (record : TaskDiagnostic) : List RawPath → TaskDiagnostic
  | [] => record.rejected "not-in-inventory"
  | candidate :: rest =>
    match candidate.stripPrefix root with
    | none => resolveCandidates fs root target inventory record rest
    | some relative =>
      if identity relative ∉ inventory then
        resolveCandidates fs root target inventory record rest
      else if ¬ noSymlink fs root relative then record.rejected "symlink-or-unavailable-path"
      else
        match fs.canonicalize candidate with
        | none => resolveCandidates fs root target inventory record rest
        | some canonical =>
          if ¬ (RawPath.ofPlace canonical).startsWith (.ofPlace root) then
            record.rejected "outside-root"
          else
            record.located (identity relative)
              ((RawPath.ofPlace canonical).startsWith target)

def canonicalTarget (fs : FileSystem) (target : RawPath) : RawPath :=
  ((fs.canonicalize target).map .ofPlace).getD target

/-- What the second candidate is relative to.  A target that does not resolve is no file. -/
def anchor (fs : FileSystem) (target : RawPath) : RawPath :=
  match fs.canonicalize target with
  | some place => .ofPlace (if fs.node place = some .file then place.dropLast else place)
  | none => target

/-- The candidates for a path, absent for an absolute path outside of the root. -/
def candidates (fs : FileSystem) (root : List Name) (target path : RawPath) :
    Option (List RawPath) :=
  if path.isAbsolute then if path.startsWith (.ofPlace root) then some [path] else none
  else some [(RawPath.ofPlace root).join path, (anchor fs target).join path]

def resolve (fs : FileSystem) (root target : RawPath) (inventory : List String) (uri : Bool)
    (record : TaskDiagnostic) : TaskDiagnostic :=
  if record.reason.isSome then record
  else
    match record.originalPath with
    | none => record.rejected "missing-path"
    | some original =>
      match localPath original.toList uri with
      | none => record.rejected "invalid-or-external-path"
      | some path =>
        match fs.canonicalize root with
        | none => record.rejected "unavailable-root"
        | some root =>
          match candidates fs root target path with
          | none => record.rejected "outside-root"
          | some paths =>
            resolveCandidates fs root (canonicalTarget fs target) inventory record paths

end Reposcout.TaskDiagnostics
