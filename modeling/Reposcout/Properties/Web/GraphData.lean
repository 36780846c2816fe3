import Reposcout.Web.GraphData

/-!
# The files around a focus

A selection around a focus has all files within the depth, if they are not too many; otherwise it
has as many as it may, and no file that is left out is nearer than one that is kept.

The neighbours of a file are visited in the order of the locale.  Neighbours that the locale does
not tell apart are visited in the order of the edges, and if there is room for one of them only,
this order decides which.
-/

namespace Reposcout.Web

open BreadthFirst List KeyedList InsertionSet

/-! ## Neighbours -/

def Joined (edges : List GraphEdge) (key value : GraphEdge → String) (path neighbor : String) :
    Prop :=
  ∃ edge ∈ edges, key edge = path ∧ value edge = neighbor

def Adjacent (edges : List GraphEdge) (direction : GraphDirection) (path neighbor : String) :
    Prop :=
  match direction with
  | .dependencies => Joined edges GraphEdge.source GraphEdge.target path neighbor
  | .dependents => Joined edges GraphEdge.target GraphEdge.source path neighbor
  | .both => Joined edges GraphEdge.source GraphEdge.target path neighbor ∨
      Joined edges GraphEdge.target GraphEdge.source path neighbor

/-- The locale tells the neighbours of each path apart. -/
def Distinguishes (locale : Collation) (edges : List GraphEdge) (direction : GraphDirection) :
    Prop :=
  ∀ path left right, Adjacent edges direction path left → Adjacent edges direction path right →
    locale.localeCompare left right = .eq → left = right

section

variable {locale : Collation} {key value : GraphEdge → String} {edges edges' : List GraphEdge}

lemma getD_neighborMap (path : String) :
    (get? path (neighborMap locale key value edges)).getD [] = sortBy locale.localeCompare
        ((edges.filter fun edge => key edge = path).map value) := by
  rw [neighborMap, get?_map, get?_groupBy]
  split_ifs with h
  · show sortBy locale.localeCompare
      ((edges.filter fun edge => key edge = path).flatMap fun edge => [value edge]) = _
    rw [map_eq_flatMap]
  · have hnone : edges.filter (fun edge => key edge = path) = [] := by
      rw [filter_eq_nil_iff]
      intro edge hedge hkey
      exact h (List.mem_map.mpr ⟨edge, hedge, of_decide_eq_true hkey⟩)
    rw [hnone]
    rfl

lemma mem_neighborMap {path neighbor : String} :
    neighbor ∈ (get? path (neighborMap locale key value edges)).getD [] ↔
      Joined edges key value path neighbor := by
  simp only [Joined, getD_neighborMap, mem_sortBy, List.mem_map, mem_filter,
    decide_eq_true_eq, and_assoc]

lemma joined_of_perm (hperm : edges'.Perm edges) {path neighbor : String} :
    Joined edges' key value path neighbor ↔ Joined edges key value path neighbor :=
  exists_congr fun _ => and_congr_left fun _ => hperm.mem_iff

/-- The neighbours in the map are in an order of their own, if the locale tells them apart. -/
lemma getD_neighborMap_of_perm {path : String} (hperm : edges'.Perm edges)
    (happart : ∀ left right, Joined edges key value path left →
      Joined edges key value path right → locale.localeCompare left right = .eq → left = right) :
    (get? path (neighborMap locale key value edges')).getD [] =
      (get? path (neighborMap locale key value edges)).getD [] := by
  rw [getD_neighborMap, getD_neighborMap]
  refine sortBy_eq_of_perm (fun left hleft right hright heq => ?_)
    ((hperm.filter _).map value)
  obtain ⟨edge, hedge, rfl⟩ := List.mem_map.mp hleft
  obtain ⟨edge', hedge', rfl⟩ := List.mem_map.mp hright
  rw [mem_filter, decide_eq_true_eq] at hedge hedge'
  exact happart _ _ ⟨edge, hedge.1, hedge.2, rfl⟩ ⟨edge', hedge'.1, hedge'.2, rfl⟩ heq

end

variable {locale : Collation} {edges edges' : List GraphEdge} {direction : GraphDirection}

lemma mem_graphNeighbors {path neighbor : String} :
    neighbor ∈ graphNeighbors locale edges direction path ↔
      Adjacent edges direction path neighbor := by
  cases direction with
  | dependencies | dependents => exact mem_neighborMap
  | both =>
    show neighbor ∈ sortBy locale.localeCompare (ofList _) ↔ _
    rw [mem_sortBy, mem_ofList, mem_append]
    exact or_congr mem_neighborMap mem_neighborMap

lemma adjacent_of_perm (hperm : edges'.Perm edges) {path neighbor : String} :
    Adjacent edges' direction path neighbor ↔ Adjacent edges direction path neighbor := by
  cases direction with
  | dependencies | dependents => exact joined_of_perm hperm
  | both => exact or_congr (joined_of_perm hperm) (joined_of_perm hperm)

/-- Where the locale tells the neighbours apart, they do not depend on the order of the edges. -/
lemma graphNeighbors_of_perm (hperm : edges'.Perm edges)
    (happart : Distinguishes locale edges direction) :
    graphNeighbors locale edges' direction = graphNeighbors locale edges direction := by
  funext path
  cases direction with
  | dependencies | dependents => exact getD_neighborMap_of_perm hperm (happart path)
  | both =>
    refine sortBy_eq_of_perm (fun left hleft right hright => ?_)
      (ofList_perm fun neighbor => ?_)
    · rw [mem_ofList, mem_append] at hleft hright
      exact happart path left right (hleft.imp mem_neighborMap.mp mem_neighborMap.mp)
        (hright.imp mem_neighborMap.mp mem_neighborMap.mp)
    · rw [mem_append, mem_append]
      exact or_congr (mem_neighborMap.trans ((joined_of_perm hperm).trans mem_neighborMap.symm))
        (mem_neighborMap.trans ((joined_of_perm hperm).trans mem_neighborMap.symm))

/-! ## Selections -/

def Distance (edges : List GraphEdge) (direction : GraphDirection) (focus : String) (n : ℕ)
    (path : String) : Prop :=
  Shortest (Adjacent edges direction) (· = focus) n path

def within (edges : List GraphEdge) (direction : GraphDirection) (focus : String) (depth : ℕ) :
    Set String :=
  {path | ∃ n ≤ depth, ReachIn (Adjacent edges direction) (· = focus) n path}

structure DistanceClosed (edges : List GraphEdge) (direction : GraphDirection) (focus : String)
    (depth limit : ℕ) (selection : Selection) : Prop where
  nodup : selection.paths.Nodup
  inside : ∀ path ∈ selection.paths, path ∈ within edges direction focus depth
  complete : (within edges direction focus depth).encard ≤ limit →
    ∀ path ∈ within edges direction focus depth, path ∈ selection.paths
  full : limit < (within edges direction focus depth).encard → selection.paths.length = limit
  nearest : ∀ path ∈ selection.paths, ∀ omitted ∉ selection.paths, ∀ n m,
    Distance edges direction focus n path → Distance edges direction focus m omitted → n ≤ m
  truncated : selection.truncated = true ↔
    ∃ path ∈ within edges direction focus depth, path ∉ selection.paths

/-- The selections keep the same paths and say the same about the others. -/
def SameSelection (selection selection' : Selection) : Prop :=
  (∀ path, path ∈ selection.paths ↔ path ∈ selection'.paths) ∧
    selection.truncated = selection'.truncated

lemma step_graphNeighbors :
    (fun path neighbor => neighbor ∈ graphNeighbors locale edges direction path) =
      Adjacent edges direction := by
  funext path neighbor
  exact propext mem_graphNeighbors

lemma ball_graphNeighbors (focus : String) (depth : ℕ) :
    ball (graphNeighbors locale edges direction) focus depth =
      within edges direction focus depth := by
  rw [ball, within, ← @step_graphNeighbors locale edges direction]

lemma within_of_perm (hperm : edges'.Perm edges) (focus : String) (depth : ℕ) :
    within edges' direction focus depth = within edges direction focus depth := by
  have hadjacent : Adjacent edges' direction = Adjacent edges direction := by
    funext path neighbor
    exact propext (adjacent_of_perm hperm)
  rw [within, within, hadjacent]

/-- The loop ends, and what it selects is closed under distance. -/
lemma distanceClosed_focusedPaths (locale : Collation) (edges : List GraphEdge)
    (direction : GraphDirection) (focus : String) (depth : ℕ) {limit : ℕ} (hlimit : 1 ≤ limit) :
    (focusedRun locale edges focus direction depth limit).1 = [] ∧
      DistanceClosed edges direction focus depth limit
        (focusedPaths locale edges focus direction depth limit) := by
  obtain ⟨kept, heq, h⟩ :=
    exploreBounded_spec (graphNeighbors locale edges direction) depth focus hlimit
  have hrun : focusedRun locale edges focus direction depth limit = ([], kept) := heq
  have hball := @ball_graphNeighbors locale edges direction focus depth
  have hstep := @step_graphNeighbors locale edges direction
  rw [focusedPaths, hrun]
  refine ⟨rfl, ⟨h.explored.nodup, fun path hpath => hball ▸ h.mem_ball hpath, fun hroom => ?_,
    fun hroom => ?_, fun path hpath omitted homitted n m hn hm => ?_, ?_⟩⟩
  · rw [← hball] at hroom ⊢
    intro path hpath
    rw [← h.eq_ball hroom] at hpath
    exact hpath
  · rw [← hball] at hroom
    exact h.length_eq hroom
  · rw [Distance, ← hstep] at hn hm
    exact h.distance_le hpath homitted hn hm
  · rw [← hball]
    exact h.cut_iff

lemma sameSelection_of_perm (hperm : edges'.Perm edges) (focus : String) (depth : ℕ) {limit : ℕ}
    (hlimit : 1 ≤ limit)
    (h : (within edges direction focus depth).encard ≤ limit ∨
      Distinguishes locale edges direction) :
    SameSelection (focusedPaths locale edges' focus direction depth limit)
      (focusedPaths locale edges focus direction depth limit) := by
  rcases h with hroom | happart
  · obtain ⟨-, hclosed⟩ := distanceClosed_focusedPaths locale edges direction focus depth hlimit
    obtain ⟨-, hclosed'⟩ := distanceClosed_focusedPaths locale edges' direction focus depth hlimit
    have hwithin := @within_of_perm _ _ direction hperm focus depth
    have hroom' : (within edges' direction focus depth).encard ≤ limit := hwithin.symm ▸ hroom
    have hsame : ∀ path, path ∈ (focusedPaths locale edges' focus direction depth limit).paths ↔
        path ∈ (focusedPaths locale edges focus direction depth limit).paths := by
      intro path
      constructor
      · exact fun hpath => hclosed.complete hroom path (hwithin ▸ hclosed'.inside path hpath)
      · exact fun hpath =>
          hclosed'.complete hroom' path (hwithin.symm ▸ hclosed.inside path hpath)
    refine ⟨hsame, Bool.eq_iff_iff.mpr ?_⟩
    rw [hclosed.truncated, hclosed'.truncated, hwithin]
    exact exists_congr fun path => and_congr_right fun _ => not_congr (hsame path)
  · rw [focusedPaths, focusedPaths, focusedRun, focusedRun, graphNeighbors_of_perm hperm happart]
    exact ⟨fun _ => Iff.rfl, rfl⟩

/-- The loop ends, what it selects is closed under distance, and it does not depend on the order of
the edges unless there are too many paths and the locale does not tell two neighbours apart. -/
theorem focusedPaths_spec (locale : Collation) (edges : List GraphEdge)
    (direction : GraphDirection) (focus : String) (depth : ℕ) {limit : ℕ} (hlimit : 1 ≤ limit) :
    (focusedRun locale edges focus direction depth limit).1 = [] ∧
      DistanceClosed edges direction focus depth limit
        (focusedPaths locale edges focus direction depth limit) ∧
      ∀ edges' : List GraphEdge, edges'.Perm edges →
        (within edges direction focus depth).encard ≤ limit ∨ Distinguishes locale edges direction →
        SameSelection (focusedPaths locale edges' focus direction depth limit)
          (focusedPaths locale edges focus direction depth limit) := by
  obtain ⟨hends, hclosed⟩ := distanceClosed_focusedPaths locale edges direction focus depth hlimit
  exact ⟨hends, hclosed, fun _ hperm h => sameSelection_of_perm hperm focus depth hlimit h⟩

/-! ## A locale -/

/-- A letter with an accent, taken apart. -/
def decomposed (c : Char) : List ℕ := if c = '\u00e9' then [0x65, 0x301] else [c.toNat]

/-- A locale that does not tell an accented letter from a letter with an accent behind it. -/
def accentLocale : Collation where
  localeCompare := compareOn fun text => text.toList.flatMap decomposed
  trans := inferInstanceAs
    (Std.TransCmp (compareOn fun text : String => text.toList.flatMap decomposed))

/-- Two dependencies whose names look the same. -/
def accentEdges : List GraphEdge :=
  [⟨"app.ts", "\u00e9.ts", "import"⟩, ⟨"app.ts", "e\u0301.ts", "import"⟩]

theorem focusedPaths_spec_accentEdges :
    (focusedRun accentLocale accentEdges "app.ts" .dependencies 1 2).1 = [] ∧
      DistanceClosed accentEdges .dependencies "app.ts" 1 2
        (focusedPaths accentLocale accentEdges "app.ts" .dependencies 1 2) ∧
      ∀ edges' : List GraphEdge, edges'.Perm accentEdges →
        (within accentEdges .dependencies "app.ts" 1).encard ≤ (2 : ℕ) ∨
          Distinguishes accentLocale accentEdges .dependencies →
        SameSelection (focusedPaths accentLocale edges' "app.ts" .dependencies 1 2)
          (focusedPaths accentLocale accentEdges "app.ts" .dependencies 1 2) :=
  focusedPaths_spec accentLocale accentEdges .dependencies "app.ts" 1 (by decide)

/-- Which of two dependencies is kept depends on the order of the edges. -/
theorem accentEdges_order_matters : ¬ ∀ edges' : List GraphEdge, edges'.Perm accentEdges →
      SameSelection (focusedPaths accentLocale edges' "app.ts" .dependencies 1 2)
        (focusedPaths accentLocale accentEdges "app.ts" .dependencies 1 2) := by
  intro hall
  have h := hall accentEdges.reverse (reverse_perm accentEdges)
  have hkept : "\u00e9.ts" ∈
      (focusedPaths accentLocale accentEdges "app.ts" .dependencies 1 2).paths := by
    decide +kernel
  have homitted : "\u00e9.ts" ∉
      (focusedPaths accentLocale accentEdges.reverse "app.ts" .dependencies 1 2).paths := by
    decide +kernel
  exact homitted ((h.1 "\u00e9.ts").mpr hkept)

end Reposcout.Web
