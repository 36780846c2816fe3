import Mathlib.Data.List.Induction

/-!
# Runs of a state machine

A machine takes an action in a state where it may, and gives an output.  A run is its history: the
actions with their outputs and the states behind them.  What one step preserves of the history and
the state together, a run preserves (`Run.invariant`).

A machine owes an answer when something asked for it and nothing answered since.
-/

namespace Runs

open List Option

variable {σ α ω : Type}

structure Entry (σ α ω : Type) where
  action : α
  output : ω
  after : σ

inductive Run (step : σ → α → Option (σ × ω)) (start : σ) : List (Entry σ α ω) → σ → Prop
  | start : Run step start [] start
  | step {history state action next output} : Run step start history state →
      step state action = some (next, output) →
      Run step start (history ++ [⟨action, output, next⟩]) next

/-- The states of a run, in order. -/
def states (start : σ) (history : List (Entry σ α ω)) : List σ :=
  start :: history.map Entry.after

def Taken (start : σ) (history : List (Entry σ α ω)) (before : List σ) (state : σ)
    (entry : Entry σ α ω) : Prop :=
  ∃ earlier later, history = earlier ++ entry :: later ∧ before = states start earlier ∧
    before.getLast? = some state

/-- Something asked and nothing answered since. -/
def Owed (asks answers : Entry σ α ω → Prop) (history : List (Entry σ α ω)) : Prop :=
  ∃ earlier entry later, history = earlier ++ entry :: later ∧ asks entry ∧
    ∀ other ∈ later, ¬ answers other

variable {step : σ → α → Option (σ × ω)} {start state : σ} {history : List (Entry σ α ω)}

/-- **What every step preserves, every run preserves.** -/
lemma Run.invariant {I : List (Entry σ α ω) → σ → Prop} (hstart : I [] start)
    (hstep : ∀ history state action next output, I history state →
      step state action = some (next, output) → I (history ++ [⟨action, output, next⟩]) next)
    (h : Run step start history state) :
    I history state := by
  induction h with
  | start => exact hstart
  | step _ hnext ih => exact hstep _ _ _ _ _ ih hnext

lemma states_append (start : σ) (history : List (Entry σ α ω)) (entry : Entry σ α ω) :
    states start (history ++ [entry]) = states start history ++ [entry.after] := by
  simp [states]

lemma Run.getLast?_states
    (h : Run step start history state) : (states start history).getLast? = some state := by
  cases h with
  | start => rfl
  | step _ _ => rw [states_append, getLast?_concat]

lemma Run.of_append {earlier later : List (Entry σ α ω)}
    (h : Run step start (earlier ++ later) state) : ∃ middle, Run step start earlier middle := by
  induction later using List.reverseRecOn generalizing state with
  | nil => exact ⟨state, by simpa using h⟩
  | append_singleton later entry ih =>
    rw [← append_assoc] at h
    generalize hhistory : earlier ++ later ++ [entry] = history at h
    cases h with
    | start => exact absurd hhistory (by simp)
    | step hrun _ =>
      obtain rfl := (append_inj' hhistory rfl).1
      exact ih hrun

variable {final : σ}

lemma Run.step_of_taken (h : Run step start history final) {before : List σ} {entry : Entry σ α ω}
    (htaken : Taken start history before state entry) :
    step state entry.action = some (entry.after, entry.output) := by
  obtain ⟨earlier, later, rfl, rfl, hlast⟩ := htaken
  rw [← singleton_append, ← append_assoc] at h
  obtain ⟨middle, hmiddle⟩ := h.of_append
  generalize hhistory : earlier ++ [entry] = front at hmiddle
  cases hmiddle with
  | start => exact absurd hhistory (by simp)
  | @step other state' action next output hrun hstep =>
    obtain ⟨rfl, hentry⟩ := append_inj' hhistory rfl
    obtain rfl := singleton_inj.mp hentry
    cases hrun.getLast?_states.symm.trans hlast
    exact hstep

variable {asks answers : Entry σ α ω → Prop}

/-- What is owed after one more step. -/
lemma owed_append {entry : Entry σ α ω} :
    Owed asks answers (history ++ [entry]) ↔
      asks entry ∨ (Owed asks answers history ∧ ¬ answers entry) := by
  constructor
  · rintro ⟨earlier, first, later, hhistory, hasks, hnone⟩
    rcases eq_nil_or_concat later with rfl | ⟨front, last, rfl⟩
    · obtain ⟨-, hentry⟩ := append_inj' hhistory rfl
      obtain rfl := singleton_inj.mp hentry
      exact .inl hasks
    · rw [concat_eq_append, ← cons_append, ← append_assoc] at hhistory
      obtain ⟨rfl, hentry⟩ := append_inj' hhistory rfl
      obtain rfl := singleton_inj.mp hentry
      refine .inr ⟨⟨earlier, first, front, rfl, hasks, fun other hother => ?_⟩, ?_⟩
      · exact hnone other (by simp [hother])
      · exact hnone _ (by simp)
  · rintro (hasks | ⟨⟨earlier, first, later, rfl, hasks, hnone⟩, hentry⟩)
    · exact ⟨history, entry, [], rfl, hasks, by simp⟩
    · refine ⟨earlier, first, later ++ [entry], by simp, hasks, fun other hother => ?_⟩
      rcases mem_append.mp hother with hother | hother
      · exact hnone other hother
      · exact mem_singleton.mp hother ▸ hentry

lemma not_owed_nil : ¬ Owed asks answers [] := by
  rintro ⟨earlier, entry, later, hhistory, -⟩
  simp at hhistory

lemma not_owed_iff :
    ¬ Owed asks answers history ↔ ∀ earlier entry later, history = earlier ++ entry :: later →
      asks entry → ∃ other ∈ later, answers other := by
  constructor
  · intro h earlier entry later hhistory hasks
    by_contra hnone
    exact h ⟨earlier, entry, later, hhistory, hasks, fun other hother hanswers =>
      hnone ⟨other, hother, hanswers⟩⟩
  · rintro h ⟨earlier, entry, later, hhistory, hasks, hnone⟩
    obtain ⟨other, hother, hanswers⟩ := h earlier entry later hhistory hasks
    exact hnone other hother hanswers

/-- Take actions in a row, where each may be taken. -/
def play (step : σ → α → Option (σ × ω)) : σ → List α → Option (List (Entry σ α ω) × σ)
  | state, [] => some ([], state)
  | state, action :: rest =>
    (step state action).bind fun (next, output) =>
      (play step next rest).map fun (history, final) => (⟨action, output, next⟩ :: history, final)

lemma Run.append_play {actions : List α} {earlier : List (Entry σ α ω)}
    (hrun : Run step start earlier state) (h : play step state actions = some (history, final)) :
    Run step start (earlier ++ history) final := by
  induction actions generalizing state earlier history with
  | nil =>
    cases h
    rwa [append_nil]
  | cons action rest ih =>
    obtain ⟨⟨next, output⟩, hstep, hrest⟩ := bind_eq_some_iff.mp h
    obtain ⟨⟨later, last⟩, hplay, heq⟩ := map_eq_some_iff.mp hrest
    cases heq
    rw [← singleton_append, ← append_assoc]
    exact ih (hrun.step hstep) hplay

lemma run_of_play (actions : List α)
    (h : play step start actions = some (history, final)) : Run step start history final :=
  Run.append_play .start h

end Runs
