import Reposcout.Graph.Imports

/-!
# Places in a repository

The text of a path is normalised as a clamped walk: a `..` at the root is dropped.
-/

namespace Reposcout.Graph

open PathStep List String

/-! ## Texts and their parts -/

def placeText (place : List String) : String := "/".intercalate place

/-- A name that is a part of its own on a path. -/
structure PlainName (name : String) : Prop where
  not_empty : name ≠ ""
  not_dot : name ≠ "."
  not_parent : name ≠ ".."
  not_slash : '/' ∉ name.toList

def segmentStep (segment : String) : PathStep String :=
  if segment = "" ∨ segment = "." then .stay else if segment = ".." then .up else .down segment

def pathSteps (path : String) : List (PathStep String) := (splitSlash path).map segmentStep

lemma segmentStep_plain {name : String} (h : PlainName name) : segmentStep name = .down name := by
  rw [segmentStep, if_neg (not_or.mpr ⟨h.not_empty, h.not_dot⟩), if_neg h.not_parent]

lemma plainName_of_segmentStep {segment name : String} (hslash : '/' ∉ segment.toList)
    (h : segmentStep segment = .down name) : PlainName name := by
  unfold segmentStep at h
  split_ifs at h with hstay hup
  obtain rfl := PathStep.down.inj h
  obtain ⟨hempty, hdot⟩ := not_or.mp hstay
  exact ⟨hempty, hdot, hup, hslash⟩

variable {place : List String}

lemma splitSlash_placeText (hne : place ≠ [])
    (hplain : ∀ name ∈ place, PlainName name) : splitSlash (placeText place) = place := by
  have hslash : ∀ chars ∈ place.map toList, '/' ∉ chars := by
    intro chars hmem
    obtain ⟨name, hname, rfl⟩ := List.mem_map.mp hmem
    exact (hplain name hname).not_slash
  have hchars : (placeText place).toList = ['/'].intercalate (place.map toList) := by
    rw [placeText, toList_intercalate]
    rfl
  rw [splitSlash, hchars, splitOn_intercalate '/' hslash (by simpa using hne), List.map_map]
  have hid : ofList ∘ toList = id := funext fun _ => ofList_toList
  rw [hid, List.map_id]

lemma splitSlash_append (first rest : String) :
    splitSlash (first ++ "/" ++ rest) = splitSlash first ++ splitSlash rest := by
  have hchars : (first ++ "/" ++ rest).toList = first.toList ++ '/' :: rest.toList := by simp
  simp only [splitSlash, hchars, List.splitOn]
  rw [splitOnP_append_cons _ _ (by simp), map_append]

lemma not_slash_of_mem_splitSlash {path segment : String} (h : segment ∈ splitSlash path) :
    '/' ∉ segment.toList := by
  obtain ⟨chars, hchars, rfl⟩ := List.mem_map.mp h
  rw [toList_ofList]
  intro hslash
  simpa using (mem_of_mem_splitOnP hchars hslash).2

lemma placeText_eq_empty_iff (hplain : ∀ name ∈ place, PlainName name) :
    placeText place = "" ↔ place = [] := by
  constructor
  · intro h
    by_contra hne
    have hsplit := splitSlash_placeText hne hplain
    rw [h] at hsplit
    have hmem : "" ∈ place := by
      rw [← hsplit]
      decide
    exact (hplain "" hmem).not_empty rfl
  · rintro rfl
    rfl

lemma placeText_append {first rest : List String} (hfirst : first ≠ []) (hrest : rest ≠ []) :
    placeText (first ++ rest) = placeText first ++ "/" ++ placeText rest :=
  intercalate_append_of_ne_nil hfirst hrest

lemma placeText_splitSlash (path : String) : placeText (splitSlash path) = path := by
  apply toList_injective
  rw [placeText, toList_intercalate, splitSlash, List.map_map]
  have hid : toList ∘ ofList = id := funext fun _ => toList_ofList
  rw [hid, List.map_id]
  exact intercalate_splitOn '/'

lemma pathSteps_placeText (hne : place ≠ []) (hplain : ∀ name ∈ place, PlainName name) :
    pathSteps (placeText place) = place.map .down := by
  rw [pathSteps, splitSlash_placeText hne hplain]
  exact map_congr_left fun name hname => segmentStep_plain (hplain name hname)

/-- **Normalising a text clamps the walk at the root.** -/
lemma normalizePath_eq (path : String) :
    normalizePath path = placeText (clamp [] (pathSteps path)) := by
  rw [normalizePath, placeText, clamp, pathSteps, foldl_map]
  congr 2
  funext place segment
  unfold segmentStep
  split_ifs <;> rfl

lemma plain_clamp (hplain : ∀ name ∈ place, PlainName name)
    (path : String) : ∀ name ∈ clamp place (pathSteps path), PlainName name := by
  refine forall_mem_clamp hplain ?_
  intro name hmem
  obtain ⟨segment, hsegment, hstep⟩ := List.mem_map.mp hmem
  exact plainName_of_segmentStep (not_slash_of_mem_splitSlash hsegment) hstep

lemma normalizePath_join (hne : place ≠ [])
    (hplain : ∀ name ∈ place, PlainName name) (path : String) :
    normalizePath (placeText place ++ "/" ++ path) = placeText (clamp place (pathSteps path)) := by
  rw [normalizePath_eq, pathSteps, splitSlash_append, map_append]
  rw [← pathSteps, ← pathSteps, pathSteps_placeText hne hplain, clamp_map_down_append]

variable (hplain : ∀ name ∈ place, PlainName name)

include hplain

lemma joinGraphPath_eq (path : String) :
    joinGraphPath (placeText place) path = placeText (clamp place (pathSteps path)) := by
  by_cases hne : place = []
  · subst hne
    exact normalizePath_eq path
  · have hdot : placeText place ≠ "." := by
      intro h
      have hsplit := splitSlash_placeText hne hplain
      rw [h] at hsplit
      have hmem : "." ∈ place := by
        rw [← hsplit]
        decide
      exact (hplain "." hmem).not_dot rfl
    have hempty := mt (placeText_eq_empty_iff hplain).mp hne
    rw [joinGraphPath, if_neg (not_or.mpr ⟨hempty, hdot⟩), normalizePath_join hne hplain]

lemma normalizePath_placeText : normalizePath (placeText place) = placeText place := by
  rw [normalizePath_eq]
  by_cases hne : place = []
  · subst hne
    rfl
  · rw [pathSteps_placeText hne hplain, clamp_map_down, nil_append]

/-- **Going up clamps the walk at the root.** -/
lemma goUp_eq (levels : ℕ) :
    goUp (placeText place) levels = placeText (clamp place (List.replicate levels .up)) := by
  rw [clamp_replicate_up]
  by_cases hlevels : levels = 0
  · simp [goUp, hlevels]
  by_cases hne : place = []
  · subst hne
    simp [goUp, hlevels, placeText, splitSlash]
  · have hfilter : place.filter (· ≠ "") = place := by
      rw [filter_eq_self]
      intro name hname
      simpa using (hplain name hname).not_empty
    rw [goUp, if_neg hlevels]
    simp only [splitSlash_placeText hne hplain, hfilter]
    split_ifs with hlength
    · rw [Nat.sub_eq_zero_of_le hlength, take_zero]
      rfl
    · rfl

end Reposcout.Graph
