import Reposcout.Framework.KeepSmallest
import Reposcout.Model.ReviewContext

/-!
# Entry chains

From every changed file of the head a chain to a dependent that no file imports but tests, read off
the predecessors of the context.
-/

namespace Reposcout.Query.ReviewContext.Brief

open KeyedList

def maxChainDistance : ℕ := 8

def headFiles (context : List ReviewContextFile) : List (PathBuf × ReviewContextFile) :=
  indexBy ReviewContextFile.path (context.filter fun file => file.side = "head")

def isTestPath (context : List ReviewContextFile) (path : PathBuf) : Bool :=
  (get? path (headFiles context)).any fun file => !file.testEvidence.isEmpty

/-- What the files of the head other than tests import. -/
def importedPaths (relations : List ReviewContextRelation) (context : List ReviewContextFile) :
    List PathBuf :=
  ((relations.filter fun relation => relation.side = "head" && relation.kind = "import").filter
    fun relation => !isTestPath context (.ofString relation.edge.source)).map
      fun relation => .ofString relation.edge.target

/-- A file that a chain starts at. -/
def isEntry (relations : List ReviewContextRelation) (context : List ReviewContextFile)
    (file : ReviewContextFile) : Bool :=
  !(file.distance < 2 || maxChainDistance < file.distance || !file.testEvidence.isEmpty ||
    (importedPaths relations context).contains file.path ||
    !file.roles.any fun role => "dependent".toList.isSuffixOf role.toList)

/-- Follow the predecessors: the file at the end, and the paths behind the first file.  Every step
lowers the distance, so no more than the distance of the first file are taken. -/
def follow (head : List (PathBuf × ReviewContextFile)) :
    ℕ → ReviewContextFile → ReviewContextFile × List PathBuf
  | 0, current => (current, [])
  | bound + 1, current =>
    if current.distance = 0 then (current, [])
    else
      match current.via.bind fun via => get? via head with
      | none => (current, [])
      | some next =>
        if current.distance ≤ next.distance then (current, [])
        else
          let rest := follow head bound next
          (rest.1, next.path :: rest.2)

/-- The seed that the predecessors of a file lead to, with the chain in front of it. -/
def chainOf (head : List (PathBuf × ReviewContextFile)) (file : ReviewContextFile) :
    Option (PathBuf × List PathBuf) :=
  let walk := follow head file.distance file
  let chain := file.path :: walk.2
  if walk.1.distance = 0 then some (chain.getLastD ⟨[]⟩, chain.dropLast) else none

def entryChains (relations : List ReviewContextRelation) (context : List ReviewContextFile) :
    List (List PathBuf) :=
  let head := headFiles context
  let files := sortBy (compareOn ReviewContextFile.path) (head.map Prod.snd)
  let nearest := (files.filter (isEntry relations context)).foldl
    (keepSmallest List.length (chainOf head)) []
  (sortBy (compareOn Prod.fst) nearest).map fun entry => entry.2 ++ [entry.1]

end Reposcout.Query.ReviewContext.Brief
