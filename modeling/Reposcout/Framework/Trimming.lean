import Mathlib.Algebra.GroupWithZero.Nat
import Mathlib.Logic.Relation

/-!
# Trimming to a bound

A row of stacks gives up one element at a time: always from the first stack that has one.  `pop`
takes an element from a stack and fails on an empty one.  A single list is cut to a prefix, whose
length is searched by bisection.
-/

namespace Trimming

open List Option

variable {σ : Type} (pop : σ → Option σ)

def popFirst : List σ → Option (List σ)
  | [] => none
  | stack :: rest => ((pop stack).map (· :: rest)) <|> ((popFirst rest).map (stack :: ·))

/-- A stack after some of its elements were taken. -/
def Popped : σ → σ → Prop := Relation.ReflTransGen fun before after => pop before = some after

/-- A row after some elements were taken: stacks that are empty, then one that was trimmed, then
stacks that are as they were. -/
inductive Trimmed : List σ → List σ → Prop where
  | untouched (row : List σ) : Trimmed row row
  | trimmed {before after : σ} (h : Popped pop before after) (rest : List σ) :
      Trimmed (before :: rest) (after :: rest)
  | emptied {before after : σ} {rest later : List σ} (h : Popped pop before after)
      (hempty : pop after = none) (hrest : Trimmed rest later) :
      Trimmed (before :: rest) (after :: later)

variable {pop}

lemma popFirst_eq_none {row : List σ} :
    popFirst pop row = none ↔ ∀ stack ∈ row, pop stack = none := by
  induction row with
  | nil => simp [popFirst]
  | cons stack rest ih =>
    cases h : pop stack <;> simp [popFirst, h, ih]

lemma popFirst_cons_of_some {stack next : σ} {rest : List σ} (h : pop stack = some next) :
    popFirst pop (stack :: rest) = some (next :: rest) := by
  simp [popFirst, h]

lemma popFirst_cons_of_none {stack : σ} {rest : List σ} (h : pop stack = none) :
    popFirst pop (stack :: rest) = (popFirst pop rest).map (stack :: ·) := by
  simp [popFirst, h]

/-- One element is taken. -/
lemma trimmed_of_popFirst {row next : List σ} (hpop : popFirst pop row = some next) :
    Trimmed pop row next := by
  induction row generalizing next with
  | nil => cases hpop
  | cons stack rest ih =>
    cases hstack : pop stack with
    | some taken =>
      rw [popFirst_cons_of_some hstack] at hpop
      cases hpop
      exact .trimmed (.single hstack) rest
    | none =>
      rw [popFirst_cons_of_none hstack] at hpop
      obtain ⟨later, hlater, rfl⟩ := map_eq_some_iff.mp hpop
      exact .emptied .refl hstack (ih hlater)

/-- One more element is taken. -/
lemma Trimmed.step {start row next : List σ} (h : Trimmed pop start row)
    (hpop : popFirst pop row = some next) : Trimmed pop start next := by
  induction h generalizing next with
  | untouched row => exact trimmed_of_popFirst hpop
  | @trimmed before after hpopped rest =>
    cases hstack : pop after with
    | some taken =>
      rw [popFirst_cons_of_some hstack] at hpop
      cases hpop
      exact .trimmed (hpopped.tail hstack) rest
    | none =>
      rw [popFirst_cons_of_none hstack] at hpop
      obtain ⟨later, hlater, rfl⟩ := map_eq_some_iff.mp hpop
      exact .emptied hpopped hstack (trimmed_of_popFirst hlater)
  | emptied hpopped hempty _ ih =>
    rw [popFirst_cons_of_none hempty] at hpop
    obtain ⟨last, hlast, rfl⟩ := map_eq_some_iff.mp hpop
    exact .emptied hpopped hempty (ih hlast)

/-- **A stack is trimmed only when all earlier ones are empty.** -/
lemma Trimmed.earlier_empty {start row : List σ} (h : Trimmed pop start row) {i j : ℕ}
    (hlt : i < j) {earlier : σ} (hearlier : row[i]? = some earlier)
    (htouched : start[j]? ≠ row[j]?) : pop earlier = none := by
  induction h generalizing i j with
  | untouched row => exact absurd rfl htouched
  | trimmed h rest =>
    cases j with
    | zero => omega
    | succ j => simp at htouched
  | emptied h hempty hrest ih =>
    cases j with
    | zero => omega
    | succ j =>
      cases i with
      | zero =>
        cases hearlier
        exact hempty
      | succ i =>
        exact ih (Nat.lt_of_succ_lt_succ hlt) hearlier htouched

lemma Popped.invariant {P : σ → Prop} (hpop : ∀ before after, pop before = some after →
    P before → P after) {before after : σ} (h : Popped pop before after) (hbefore : P before) :
    P after := by
  induction h with
  | refl => exact hbefore
  | tail _ hstep ih => exact hpop _ _ hstep ih

/-- A measure that popping lowers is lower for the row. -/
lemma sum_popFirst {size : σ → ℕ} (hsize : ∀ before after, pop before = some after →
    size before = size after + 1) {row next : List σ} (h : popFirst pop row = some next) :
    (row.map size).sum = (next.map size).sum + 1 := by
  induction row generalizing next with
  | nil => cases h
  | cons stack rest ih =>
    cases hstack : pop stack with
    | some taken =>
      rw [popFirst_cons_of_some hstack] at h
      cases h
      simp only [map_cons, sum_cons, hsize _ _ hstack]
      omega
    | none =>
      rw [popFirst_cons_of_none hstack] at h
      obtain ⟨later, hlater, rfl⟩ := map_eq_some_iff.mp h
      simp only [map_cons, sum_cons, ih hlater]
      omega

end Trimming

/-!
## Searching for a prefix by bisection

The bisection keeps a length that was accepted and looks for a longer one.  It asks about few
lengths only, so what it finds need not be the longest accepted length unless acceptance is closed
under shorter ones.  It is monotone in the predicate without any such assumption: at the first
length where two searches part, the one that accepts is ahead for good.
-/

namespace PrefixSearch

/-- The length that the bisection between two lengths ends with. -/
def search (accepts : ℕ → Bool) (low high : ℕ) : ℕ :=
  if low < high then
    if accepts (low + (high - low + 1) / 2) then search accepts (low + (high - low + 1) / 2) high
    else search accepts low (low + (high - low + 1) / 2 - 1)
  else low
termination_by high - low

variable {accepts wider : ℕ → Bool} {low high : ℕ}

lemma le_search (accepts : ℕ → Bool) (low high : ℕ) : low ≤ search accepts low high := by
  fun_induction search accepts low high with
  | case1 low high hlt haccepts ih => omega
  | case2 low high hlt haccepts ih => exact ih
  | case3 low high hlt => exact Nat.le_refl low

lemma search_le (hle : low ≤ high) : search accepts low high ≤ high := by
  fun_induction search accepts low high with
  | case1 low high hlt haccepts ih => exact ih (by omega)
  | case2 low high hlt haccepts ih =>
    omega
  | case3 low high hlt => exact hle

/-- What is found was accepted, unless it is where the search started. -/
lemma accepts_search (accepts : ℕ → Bool) (low high : ℕ) :
    search accepts low high = low ∨ accepts (search accepts low high) = true := by
  fun_induction search accepts low high with
  | case1 low high hlt haccepts ih =>
    right
    rcases ih with hsame | hfound
    · rw [hsame]
      exact haccepts
    · exact hfound
  | case2 low high hlt haccepts ih => exact ih
  | case3 low high hlt => exact .inl rfl

lemma search_of_accepts (hlt : low < high)
    (haccepts : accepts (low + (high - low + 1) / 2) = true) :
    search accepts low high = search accepts (low + (high - low + 1) / 2) high := by
  rw [search, if_pos hlt, if_pos haccepts]

lemma search_of_rejects (hlt : low < high)
    (hrejects : ¬ accepts (low + (high - low + 1) / 2) = true) :
    search accepts low high = search accepts low (low + (high - low + 1) / 2 - 1) := by
  rw [search, if_pos hlt, if_neg hrejects]

/-- **A search that accepts more finds no less.** -/
lemma search_mono (h : ∀ length, accepts length = true → wider length = true) (low high : ℕ) :
    search accepts low high ≤ search wider low high := by
  fun_induction search accepts low high with
  | case1 low high hlt haccepts ih =>
    rw [search_of_accepts hlt (h _ haccepts)]
    exact ih
  | case2 low high hlt haccepts ih =>
    by_cases hwider : wider (low + (high - low + 1) / 2) = true
    · -- The wider search goes on above the middle, this one stays below it.
      have hbelow : search accepts low (low + (high - low + 1) / 2 - 1) ≤
          low + (high - low + 1) / 2 - 1 := search_le (by omega)
      have habove := le_search wider (low + (high - low + 1) / 2) high
      rw [search_of_accepts hlt hwider]
      omega
    · rw [search_of_rejects hlt hwider]
      exact ih
  | case3 low high hlt => exact le_search wider low high

end PrefixSearch
