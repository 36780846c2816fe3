import Mathlib.Algebra.BigOperators.Ring.Finset

/-!
# Loops that may be left early

`Loop.run` is a `for` loop over a list whose body either carries on or leaves the loop with
a result.  A client reasons about such a loop by one of two rules: an invariant kept by every
pass of the body, or a relation with a second loop over the same list.  The relation of the
second rule may mention the elements still to come, which is how a budget that the remaining
passes will consume is expressed.
-/

namespace Loop

open List

variable {α σ τ ρ : Type}

/-- Pass the elements of a list to the body until it leaves the loop. -/
def run (body : σ → α → σ × Option ρ) : List α → σ → σ × Option ρ
  | [], s => (s, none)
  | a :: rest, s =>
    match body s a with
    | (s, some r) => (s, some r)
    | (s, none) => run body rest s

variable {l : List α} {s : σ} (body : σ → α → σ × Option ρ)

/-- The invariant rule: what holds at the start and is kept by every pass holds at the end,
however the loop is left. -/
lemma run_invariant {I : σ → Prop} (hbody : ∀ a ∈ l, ∀ s, I s → I (body s a).1) (hs : I s) :
    I (run body l s).1 := by
  induction l generalizing s with
  | nil => exact hs
  | cons a rest ih =>
    have hnext := hbody a mem_cons_self s hs
    unfold run
    split
    · next s' r heq =>
      rw [heq] at hnext
      exact hnext
    · next s' heq =>
      rw [heq] at hnext
      exact ih (fun b hb => hbody b (mem_cons_of_mem a hb)) hnext

/-- What every pass that leaves the loop establishes holds when the loop has been left. -/
lemma run_leaves {body : σ → α → σ × Option ρ} {Q : σ → ρ → Prop}
    (hbody : ∀ a ∈ l, ∀ s s' r, body s a = (s', some r) → Q s' r) {s' : σ} {r : ρ}
    (h : run body l s = (s', some r)) : Q s' r := by
  induction l generalizing s with
  | nil => simp [run] at h
  | cons a rest ih =>
    unfold run at h
    split at h
    · next s₁ r₁ heq =>
      obtain ⟨rfl, rfl⟩ : s₁ = s' ∧ r₁ = r := by simpa using h
      exact hbody a mem_cons_self s _ _ heq
    · exact ih (fun b hb => hbody b (mem_cons_of_mem a hb)) h

/-- The simulation rule: two loops over one list whose bodies keep a relation and leave
together, with the same result, end in related states with the same result.  The relation is
indexed by the elements still to be passed. -/
lemma run_simulates (body' : τ → α → τ × Option ρ) {R : List α → σ → τ → Prop}
    (hbody : ∀ a rest s t, R (a :: rest) s t →
      (body s a).2 = (body' t a).2 ∧ R rest (body s a).1 (body' t a).1)
    {t : τ} (h : R l s t) : (run body l s).2 = (run body' l t).2 ∧
      ∃ rest, R rest (run body l s).1 (run body' l t).1 := by
  induction l generalizing s t with
  | nil => exact ⟨rfl, [], h⟩
  | cons a rest ih =>
    obtain ⟨hres, hrel⟩ := hbody a rest s t h
    rcases hs : body s a with ⟨s', r⟩
    rcases ht : body' t a with ⟨t', r'⟩
    rw [hs, ht] at hres hrel
    obtain rfl : r = r' := hres
    cases r with
    | none =>
      simp only [run, hs, ht]
      exact ih hrel
    | some result =>
      simp only [run, hs, ht]
      exact ⟨trivial, rest, hrel⟩

end Loop

/-!
## Filling a budget

Items with costs are taken in order while the budget lasts: whole as long as they fit, and of the
first one that does not fit the part that is left of the budget.  `fill` says what is taken;
`Pass` is the loop that a program runs, which offers every item and skips those of which nothing
is left to take.
-/

namespace Filling

open List

variable {α : Type} (cost : α → ℕ)

/-- The items taken, with what is taken of each. -/
def fill : ℕ → List α → List (α × ℕ)
  | _, [] => []
  | budget, a :: rest =>
    if cost a ≤ budget then (a, cost a) :: fill (budget - cost a) rest
    else if 0 < budget then [(a, budget)] else []

/-- The cost of all items. -/
def total (l : List α) : ℕ := (l.map cost).sum

variable {cost}

@[simp] lemma total_nil : total cost [] = 0 := rfl

@[simp] lemma total_cons (a : α) (l : List α) : total cost (a :: l) = cost a + total cost l := by
  simp [total]

lemma total_append (cost : α → ℕ) (l m : List α) :
    total cost (l ++ m) = total cost l + total cost m := by
  simp [total]

variable {l : List α}

lemma total_of_perm {m : List α} (h : l.Perm m) : total cost l = total cost m :=
  (h.map cost).sum_eq

lemma fill_zero (hpos : ∀ a ∈ l, 0 < cost a) : fill cost 0 l = [] := by
  cases l with
  | nil => rfl
  | cons a rest =>
    have ha := hpos a mem_cons_self
    rw [fill, if_neg (by omega), if_neg (by omega)]

variable (budget : ℕ)

/-- What is taken is the whole cost or the whole budget. -/
lemma sum_fill (l : List α) :
    ((fill cost budget l).map Prod.snd).sum = min (total cost l) budget := by
  induction l generalizing budget with
  | nil => simp [fill]
  | cons a rest ih =>
    rw [fill, total_cons]
    split_ifs with hfits hleft
    · rw [map_cons, sum_cons, ih]
      omega
    · rw [map_singleton, sum_singleton]
      omega
    · rw [map_nil, sum_nil]
      omega

/-- The items are taken from the front. -/
lemma fill_prefix (cost : α → ℕ) (budget : ℕ) (l : List α) :
    (fill cost budget l).map Prod.fst <+: l := by
  induction l generalizing budget with
  | nil => exact prefix_rfl
  | cons a rest ih =>
    rw [fill]
    split_ifs
    · rw [map_cons]
      exact cons_prefix_cons.mpr ⟨rfl, ih _⟩
    · exact prefix_append [a] rest
    · exact nil_prefix

lemma fill_pos {budget : ℕ} (hpos : ∀ a ∈ l, 0 < cost a) {taken : α × ℕ}
    (h : taken ∈ fill cost budget l) : 0 < taken.2 ∧ taken.2 ≤ cost taken.1 := by
  induction l generalizing budget with
  | nil => cases h
  | cons a rest ih =>
    rw [fill] at h
    split_ifs at h with hfits hleft
    · rcases mem_cons.mp h with rfl | h
      · exact ⟨hpos a mem_cons_self, Nat.le_refl _⟩
      · exact ih (fun b hb => hpos b (mem_cons_of_mem a hb)) h
    · rw [mem_singleton.mp h]
      exact ⟨hleft, by dsimp only; omega⟩
    · cases h

lemma whole_of_mem_dropLast (l : List α) {taken : α × ℕ}
    (h : taken ∈ (fill cost budget l).dropLast) : taken.2 = cost taken.1 := by
  induction l generalizing budget with
  | nil => cases h
  | cons a rest ih =>
    rw [fill] at h
    split_ifs at h with hfits hleft
    · cases hrest : fill cost (budget - cost a) rest with
      | nil =>
        rw [hrest] at h
        cases h
      | cons b others =>
        rw [hrest, dropLast_cons_cons] at h
        rcases mem_cons.mp h with rfl | h
        · rfl
        · exact ih _ (hrest ▸ h)
    · cases h
    · cases h

/-- At most one item is cut. -/
lemma countP_cut_le_one (l : List α) :
    (fill cost budget l).countP (fun taken => taken.2 < cost taken.1) ≤ 1 := by
  rcases eq_nil_or_concat (fill cost budget l) with hnil | ⟨front, last, hlast⟩
  · rw [hnil]
    exact Nat.zero_le 1
  · have hwhole : front.countP (fun taken => taken.2 < cost taken.1) = 0 := by
      apply countP_eq_zero.mpr
      intro taken htaken
      have hcost : taken.2 = cost taken.1 := by
        apply whole_of_mem_dropLast budget l
        rw [hlast, concat_eq_append, dropLast_concat]
        exact htaken
      simp [hcost]
    rw [hlast, concat_eq_append, countP_append, hwhole, Nat.zero_add]
    exact countP_le_length

/-! ## The loop -/

/-- The state of the loop: what is left of the budget, what is taken, and how many items were
skipped. -/
structure Pass (α : Type) where
  remaining : ℕ
  taken : List (α × ℕ)
  skipped : ℕ

def Pass.offer (cost : α → ℕ) (p : Pass α) (a : α) : Pass α :=
  if min (cost a) p.remaining = 0 then { p with skipped := p.skipped + 1 }
  else
    { p with
      remaining := p.remaining - min (cost a) p.remaining
      taken := p.taken ++ [(a, min (cost a) p.remaining)] }

/-- **The loop fills the budget**, and every item is taken or skipped. -/
lemma Pass.foldl_offer (hpos : ∀ a ∈ l, 0 < cost a) (p : Pass α) :
    (l.foldl (Pass.offer cost) p).taken = p.taken ++ fill cost p.remaining l ∧
      (l.foldl (Pass.offer cost) p).skipped + (fill cost p.remaining l).length =
        p.skipped + l.length := by
  induction l generalizing p with
  | nil => simp [fill]
  | cons a rest ih =>
    have ha := hpos a mem_cons_self
    obtain ⟨htaken, hskipped⟩ := ih (fun b hb => hpos b (mem_cons_of_mem a hb)) (p.offer cost a)
    rw [foldl_cons, htaken]
    by_cases hnone : p.remaining = 0
    · have hoffer : p.offer cost a = { p with skipped := p.skipped + 1 } := by
        rw [Pass.offer, if_pos (by omega)]
      rw [hoffer] at hskipped ⊢
      dsimp only at hskipped ⊢
      rw [hnone, fill_zero (fun b hb => hpos b (mem_cons_of_mem a hb))] at hskipped ⊢
      rw [fill_zero hpos]
      exact ⟨rfl, by rw [length_cons]; omega⟩
    · have hoffer : p.offer cost a =
          { p with
            remaining := p.remaining - min (cost a) p.remaining
            taken := p.taken ++ [(a, min (cost a) p.remaining)] } := by
        rw [Pass.offer, if_neg (by omega)]
      rw [hoffer] at hskipped ⊢
      dsimp only at hskipped ⊢
      rw [fill]
      by_cases hfits : cost a ≤ p.remaining
      · rw [Nat.min_eq_left hfits] at hskipped ⊢
        rw [if_pos hfits, append_assoc, singleton_append, length_cons, length_cons]
        exact ⟨rfl, by omega⟩
      · rw [Nat.min_eq_right (by omega), Nat.sub_self,
          fill_zero (fun b hb => hpos b (mem_cons_of_mem a hb))] at hskipped ⊢
        rw [if_neg hfits, if_pos (by omega), append_nil]
        rw [length_nil] at hskipped
        refine ⟨rfl, ?_⟩
        rw [length_singleton, length_cons]
        omega

end Filling
