import Mathlib.Data.List.Basic

/-!
# Walking along a path

A place is the list of the names on the way to it from the root.  A path is a list of steps.  A
walk that takes a step up at the root leads nowhere; a clamped walk ignores that step.
-/

inductive PathStep (α : Type) where
  | stay
  | up
  | down (name : α)
  deriving DecidableEq

namespace PathStep

open List

variable {α : Type}

/-- The place that some steps lead to, absent if they leave the root. -/
def walk : List α → List (PathStep α) → Option (List α)
  | place, [] => some place
  | place, stay :: steps => walk place steps
  | [], up :: _ => none
  | name :: names, up :: steps => walk (name :: names).dropLast steps
  | place, down name :: steps => walk (place ++ [name]) steps

/-- One step that stays at the root if it would leave it. -/
@[simp] def clampStep (place : List α) : PathStep α → List α
  | stay => place
  | up => place.dropLast
  | down name => place ++ [name]

/-- The place that some steps lead to if those out of the root are ignored. -/
def clamp (place : List α) (steps : List (PathStep α)) : List α := steps.foldl clampStep place

variable (place : List α)

@[simp] lemma walk_nil : walk place [] = some place := by
  cases place <;> rfl

@[simp] lemma walk_stay (steps : List (PathStep α)) :
    walk place (stay :: steps) = walk place steps := by
  cases place <;> rfl

@[simp] lemma walk_down (name : α) (steps : List (PathStep α)) :
    walk place (down name :: steps) = walk (place ++ [name]) steps := by
  cases place <;> rfl

lemma walk_up {place : List α} (h : place ≠ []) (steps : List (PathStep α)) :
    walk place (up :: steps) = walk place.dropLast steps := by
  cases place with
  | nil => exact absurd rfl h
  | cons name names => rfl

@[simp] lemma clamp_nil : clamp place [] = place := rfl

@[simp] lemma clamp_cons (step : PathStep α) (steps : List (PathStep α)) :
    clamp place (step :: steps) = clamp (clampStep place step) steps := rfl

lemma clamp_append (first rest : List (PathStep α)) :
    clamp place (first ++ rest) = clamp (clamp place first) rest := by
  simp [clamp]

variable {steps : List (PathStep α)}

/-- A walk that stays below the root is not changed by the clamp. -/
lemma clamp_of_walk {place last : List α} (h : walk place steps = some last) :
    clamp place steps = last := by
  induction steps generalizing place with
  | nil => simpa using h
  | cons step steps ih =>
    cases step with
    | stay => exact ih (by simpa using h)
    | down name => exact ih (by simpa using h)
    | up =>
      have hne : place ≠ [] := by
        rintro rfl
        cases h
      rw [walk_up hne] at h
      exact ih h

/-- Steps down never leave the root. -/
lemma walk_map_down (place names : List α) :
    walk place (names.map down) = some (place ++ names) := by
  induction names generalizing place with
  | nil => simp
  | cons name names ih => simp [ih]

lemma clamp_map_down (place names : List α) : clamp place (names.map down) = place ++ names :=
  clamp_of_walk (walk_map_down place names)

lemma clamp_map_down_append (names : List α) (steps : List (PathStep α)) :
    clamp [] (names.map down ++ steps) = clamp names steps := by
  rw [clamp_append, clamp_map_down, nil_append]

/-- Steps that stay below the root also do from a place further down. -/
lemma walk_of_root {last : List α} (h : walk [] steps = some last) (place : List α) :
    walk place steps = some (place ++ last) := by
  have hdeeper : ∀ (below : List α), walk below steps = some last →
      walk (place ++ below) steps = some (place ++ last) := by
    clear h
    induction steps with
    | nil =>
      intro below h
      simpa using h
    | cons step steps ih =>
      intro below h
      cases step with
      | stay => simpa using ih below (by simpa using h)
      | down name => simpa using ih (below ++ [name]) (by simpa using h)
      | up =>
        have hne : below ≠ [] := by
          rintro rfl
          cases h
        rw [walk_up hne] at h
        rw [walk_up (append_ne_nil_of_right_ne_nil place hne), dropLast_append_of_ne_nil hne]
        exact ih _ h
  simpa using hdeeper [] h

/-- Two clamped walks of the same steps meet where the deeper one leaves the root. -/
lemma clamp_eq_of_walk_eq_none {place : List α} (h : walk place steps = none) :
    clamp place steps = clamp [] steps := by
  have hmeet : ∀ (above below : List α), walk (above ++ below) steps = none →
      clamp (above ++ below) steps = clamp below steps := by
    clear h
    induction steps with
    | nil =>
      intro above below h
      simp at h
    | cons step steps ih =>
      intro above below h
      cases step with
      | stay => exact ih above below (by simpa using h)
      | down name =>
        have hmeet := ih above (below ++ [name]) (by simpa using h)
        simpa using hmeet
      | up =>
        rcases eq_nil_or_concat below with rfl | ⟨names, name, rfl⟩
        · -- the upper place loses a name, the root stays
          rcases eq_nil_or_concat above with rfl | ⟨names, name, rfl⟩
          · rfl
          · rw [append_nil, walk_up (by simp)] at h
            have hmeet := ih names [] (by simpa using h)
            simpa using hmeet
        · rw [walk_up (by simp)] at h
          have hmeet := ih above names (by simpa [← append_assoc] using h)
          simpa [← append_assoc] using hmeet
  simpa using hmeet place [] (by simpa using h)

lemma forall_mem_clamp {P : α → Prop} {place : List α} (hplace : ∀ name ∈ place, P name)
    (hsteps : ∀ name, down name ∈ steps → P name) : ∀ name ∈ clamp place steps, P name := by
  induction steps generalizing place with
  | nil => simpa using hplace
  | cons step steps ih =>
    have hrest : ∀ name, down name ∈ steps → P name := fun name h =>
      hsteps name (mem_cons_of_mem _ h)
    refine ih ?_ hrest
    cases step with
    | stay => exact hplace
    | up => exact fun name h => hplace name (dropLast_subset _ h)
    | down name =>
      simp only [clampStep, mem_append, mem_singleton]
      rintro other (h | rfl)
      · exact hplace other h
      · exact hsteps other (mem_cons_self ..)

/-- Steps up take as many names away. -/
lemma clamp_replicate_up (levels : ℕ) :
    clamp place (List.replicate levels up) = place.take (place.length - levels) := by
  induction levels generalizing place with
  | zero => simp
  | succ levels ih =>
    rw [replicate_succ, clamp_cons, ih, clampStep, length_dropLast, dropLast_eq_take, take_take]
    congr 1
    omega

end PathStep
