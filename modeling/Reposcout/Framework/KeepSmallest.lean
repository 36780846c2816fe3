import Reposcout.Framework.KeyedList

/-!
# The smallest value of every key

Values are offered one after the other, each under a key, and a key keeps the first of its smallest
values.
-/

namespace KeyedList

open List Option

variable {α β κ : Type}

/-- The value is offered under the key, none is smaller, and none in front of it is as small. -/
def IsFirstSmallest (size : β → ℕ) (pick : α → Option (κ × β)) (l : List α) (k : κ) (v : β) :
    Prop :=
  ∃ front x back, l = front ++ x :: back ∧ pick x = some (k, v) ∧
    (∀ y ∈ front, ∀ w, pick y = some (k, w) → size v < size w) ∧
    ∀ y ∈ back, ∀ w, pick y = some (k, w) → size v ≤ size w

variable {size : β → ℕ} {pick : α → Option (κ × β)} {l : List α} {k : κ} {v : β}

lemma IsFirstSmallest.le (h : IsFirstSmallest size pick l k v) {y : α} (hy : y ∈ l) {w : β}
    (hw : pick y = some (k, w)) : size v ≤ size w := by
  obtain ⟨front, x, back, rfl, hx, hfront, hback⟩ := h
  rcases mem_append.mp hy with hy | hy
  · exact (hfront y hy w hw).le
  rcases mem_cons.mp hy with rfl | hy
  · obtain rfl : v = w := congrArg Prod.snd (some.inj (hx.symm.trans hw))
    exact Nat.le_refl _
  · exact hback y hy w hw

/-- A value that is kept stays the first of the smallest when a larger one is offered. -/
lemma IsFirstSmallest.append (h : IsFirstSmallest size pick l k v) {x : α}
    (hx : ∀ w, pick x = some (k, w) → size v ≤ size w) :
    IsFirstSmallest size pick (l ++ [x]) k v := by
  obtain ⟨front, y, back, rfl, hy, hfront, hback⟩ := h
  refine ⟨front, y, back ++ [x], by simp, hy, hfront, fun z hz w hw => ?_⟩
  rcases mem_append.mp hz with hz | hz
  · exact hback z hz w hw
  · rw [mem_singleton.mp hz] at hw
    exact hx w hw

lemma isFirstSmallest_concat {x : α} (hx : pick x = some (k, v))
    (h : ∀ y ∈ l, ∀ w, pick y = some (k, w) → size v < size w) :
    IsFirstSmallest size pick (l ++ [x]) k v :=
  ⟨l, x, [], rfl, hx, h, nofun⟩

variable [DecidableEq κ]

/-- Offer the value of an element: it is kept if it is smaller than the value that is there. -/
def keepSmallest (size : β → ℕ) (pick : α → Option (κ × β)) (m : List (κ × β)) (x : α) :
    List (κ × β) :=
  match pick x with
  | none => m
  | some (k, v) =>
    if (get? k m).all fun old => size v < size old then alter k (fun _ => v) m else m

lemma nodup_keys_keepSmallest {m : List (κ × β)} (h : (keys m).Nodup) (x : α) :
    (keys (keepSmallest size pick m x)).Nodup := by
  unfold keepSmallest
  split
  · exact h
  · split_ifs
    · exact nodup_keys_alter h
    · exact h

/-- What a key keeps after one more element. -/
lemma get?_keepSmallest (size : β → ℕ) (pick : α → Option (κ × β)) (m : List (κ × β)) (x : α)
    (k : κ) :
    (get? k (keepSmallest size pick m x) = get? k m ∧
      ∀ w, pick x = some (k, w) → ∃ v, get? k m = some v ∧ size v ≤ size w) ∨
    ∃ w, pick x = some (k, w) ∧ get? k (keepSmallest size pick m x) = some w ∧
      ∀ v, get? k m = some v → size w < size v := by
  unfold keepSmallest
  cases hpick : pick x with
  | none => exact .inl ⟨rfl, fun w hw => nomatch hw.symm⟩
  | some offered =>
    obtain ⟨key, value⟩ := offered
    dsimp only
    by_cases hkey : k = key
    · subst hkey
      cases hget : get? k m with
      | none =>
        right
        refine ⟨value, rfl, ?_, fun v hv => nomatch hv.symm⟩
        rw [all_none, if_pos rfl, get?_alter_self]
      | some old =>
        rw [all_some]
        by_cases hlt : size value < size old
        · right
          refine ⟨value, rfl, ?_, fun v hv => ?_⟩
          · rw [if_pos (decide_eq_true hlt), get?_alter_self]
          · rw [← some.inj hv]
            exact hlt
        · left
          rw [if_neg (by simpa using hlt)]
          refine ⟨hget, fun w hw => ⟨old, rfl, ?_⟩⟩
          obtain rfl : value = w := congrArg Prod.snd (some.inj hw)
          exact Nat.le_of_not_lt hlt
    · left
      refine ⟨?_, fun w hw => absurd (congrArg Prod.fst (some.inj hw)).symm hkey⟩
      split_ifs
      · exact get?_alter_of_ne hkey _ m
      · rfl

/-- **Every key keeps the first of its smallest values.** -/
lemma get?_foldl_keepSmallest (size : β → ℕ) (pick : α → Option (κ × β)) (l : List α) (k : κ) :
    (∀ v, get? k (l.foldl (keepSmallest size pick) []) = some v → IsFirstSmallest size pick l k v) ∧
    (get? k (l.foldl (keepSmallest size pick) []) = none →
      ∀ x ∈ l, ∀ v, pick x ≠ some (k, v)) := by
  induction l using List.reverseRecOn with
  | nil =>
    exact ⟨fun v h => absurd h (some_ne_none v).symm,
      nofun⟩
  | append_singleton l x ih =>
    rw [foldl_append, foldl_cons, foldl_nil]
    generalize l.foldl (keepSmallest size pick) [] = m at ih
    obtain ⟨hsome, hnone⟩ := ih
    rcases get?_keepSmallest size pick m x k with
      ⟨hkept, hlarger⟩ | ⟨w, hpick, hnew, hsmaller⟩
    · rw [hkept]
      refine ⟨fun v hv => (hsome v hv).append fun w hw => ?_, fun h y hy v hv => ?_⟩
      · obtain ⟨old, hold, hle⟩ := hlarger w hw
        rw [← some.inj (hold.symm.trans hv)]
        exact hle
      · rcases mem_append.mp hy with hy | hy
        · exact hnone h y hy v hv
        · rw [mem_singleton.mp hy] at hv
          obtain ⟨old, hold, -⟩ := hlarger v hv
          exact absurd (hold.symm.trans h) (some_ne_none old)
    · rw [hnew]
      refine ⟨fun v hv => ?_, fun h => absurd h (some_ne_none w)⟩
      cases hv
      apply isFirstSmallest_concat hpick
      intro y hy w' hw'
      cases hget : get? k m with
      | none => exact absurd hw' (hnone hget y hy w')
      | some old => exact (hsmaller old hget).trans_le ((hsome old hget).le hy hw')

end KeyedList
