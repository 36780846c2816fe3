import Reposcout.Graph.Topology

/-!
# The neighborhood of a reviewed change

The review context gives every path around the changed ones its roles: `changed`, `dependency`
for what a changed file imports, and `direct-dependent` or `transitive-dependent` for what a
breadth-first search along the reversed edges reaches.
-/

namespace Reposcout.Review

open Reposcout.Graph KeyedList

structure Candidate where
  roles : List String
  distance : Nat
  via : Option PathBuf
  deriving DecidableEq

def insertOrdered {α : Type} [LinearOrder α] (x : α) (set : List α) : List α :=
  if x ∈ set then set else set.orderedInsert (· ≤ ·) x

/-- `add`: one more role for a path; the smallest distance stays. -/
def add (candidates : List (PathBuf × Candidate)) (path : PathBuf) (role : String)
    (distance : Nat) (via : Option PathBuf) : List (PathBuf × Candidate) :=
  KeyedList.alter path (fun existing =>
    let item := existing.getD ⟨[], distance, via⟩
    let item := if distance < item.distance then { item with distance, via } else item
    { item with roles := insertOrdered role item.roles }) candidates

/-- The maps that the search updates. -/
structure NeighborhoodState where
  candidates : List (PathBuf × Candidate)
  distances : List (PathBuf × Nat)

def incomingEdges (edges : List GraphEdge) : List (PathBuf × List PathBuf) :=
  edges.foldl (fun incoming edge =>
    KeyedList.alter (PathBuf.ofString edge.target)
      (fun sources => insertOrdered (PathBuf.ofString edge.source) (sources.getD [])) incoming) []

def dependencyCandidates (seeds : List PathBuf) (edges : List GraphEdge) :
    List (PathBuf × Candidate) :=
  edges.foldl (fun candidates edge =>
    if PathBuf.ofString edge.source ∈ seeds then
      add candidates (PathBuf.ofString edge.target) "dependency" 1
        (some (PathBuf.ofString edge.source))
    else candidates) []

def dependentRole (distance : Nat) : String :=
  if distance = 1 then "direct-dependent" else "transitive-dependent"

def passImporter (path : PathBuf) (distance : Nat) (s : NeighborhoodState × List PathBuf)
    (dependent : PathBuf) : NeighborhoodState × List PathBuf :=
  if (get? dependent s.1.distances).isSome then s
  else
    ({ candidates := add s.1.candidates dependent (dependentRole distance) distance (some path)
       distances := KeyedList.alter dependent (fun _ => distance) s.1.distances },
      s.2 ++ [dependent])

/-- Visit a path whose importers are reached next.  Every pending path has a distance. -/
def visitPending (incoming : List (PathBuf × List PathBuf)) (s : NeighborhoodState)
    (path : PathBuf) : NeighborhoodState × List PathBuf :=
  let distance := (get? path s.distances).getD 0 + 1
  ((get? path incoming).getD []).foldl (passImporter path distance) (s, [])

def enterSeed (s : NeighborhoodState) (seed : PathBuf) : NeighborhoodState where
  candidates := add s.candidates seed "changed" 0 none
  distances := KeyedList.alter seed (fun _ => 0) s.distances

/-- The candidates and distances before the search. -/
def seedNeighborhood (seeds : List PathBuf) (edges : List GraphEdge) : NeighborhoodState :=
  seeds.foldl enterSeed ⟨dependencyCandidates seeds edges, []⟩

def neighborhoodSearch (seeds : List PathBuf) (edges : List GraphEdge) :
    List PathBuf × NeighborhoodState :=
  BreadthFirst.drain (visitPending (incomingEdges edges)) (seeds.length + edges.length) seeds
    (seedNeighborhood seeds edges)

/-- `neighborhood` for an ordered set of seeds. -/
def neighborhood (seeds : List PathBuf) (edges : List GraphEdge) : List (PathBuf × Candidate) :=
  (neighborhoodSearch seeds edges).2.candidates

end Reposcout.Review
