import Mathlib.Data.List.Basic
import Mathlib.Tactic.Ring

/-!
# Windows of lists

What a search for common parts of two lists rests on: the hash of a window from the hash of the one
before it, and the runs that two lists have in common on one diagonal, of which the maximal ones
never touch.
-/

/-!
## Rolling hashes

A list over a commutative ring is hashed as a polynomial in a base, the first element with the
highest power.  The hash of a window is then got from the hash of the window before it: take away
what leaves on the left, multiply by the base, add what enters on the right.
-/

namespace RollingHash

open List

variable {R : Type} [CommRing R] (base : R)

def hash (l : List R) : R := l.foldl (fun h x => h * base + x) 0

lemma foldl_eq (l : List R) (h : R) :
    l.foldl (fun h x => h * base + x) h = h * base ^ l.length + hash base l := by
  induction l generalizing h with
  | nil => simp [hash]
  | cons a rest ih =>
    rw [hash, foldl_cons, foldl_cons, ih, ih (0 * base + a), length_cons, pow_succ]
    ring

lemma hash_append (l m : List R) :
    hash base (l ++ m) = hash base l * base ^ m.length + hash base m := by
  rw [hash, foldl_append, foldl_eq]
  rfl

lemma hash_cons (a : R) (l : List R) :
    hash base (a :: l) = a * base ^ l.length + hash base l := by
  rw [hash, foldl_cons, foldl_eq, zero_mul, zero_add]

lemma hash_concat (l : List R) (b : R) : hash base (l ++ [b]) = hash base l * base + b := by
  rw [hash, foldl_append]
  rfl

/-- Taking an element out of the hash leaves the hash with a zero in its place. -/
lemma hash_sub (l m : List R) (a : R) :
    hash base (l ++ a :: m) - a * base ^ m.length = hash base (l ++ 0 :: m) := by
  rw [hash_append, hash_append, hash_cons, hash_cons, length_cons, length_cons]
  ring

/-- The next window's hash from the one before it. -/
def roll (power h outgoing incoming : R) : R := (h - outgoing * power) * base + incoming

/-- **Rolling** moves the window by one element. -/
lemma roll_hash (a b : R) (l : List R) :
    roll base (base ^ l.length) (hash base (a :: l)) a b = hash base (l ++ [b]) := by
  rw [roll, hash_cons, add_sub_cancel_left, hash_concat]

/-! ## All windows -/

def window {α : Type} (l : List α) (width start : ℕ) : List α := (l.drop start).take width

/-- **The rolled hashes of a list** are the hashes of its windows. -/
lemma scanl_roll_eq (width : ℕ) (l : List R) (h : width + 1 ≤ l.length) :
    (l.zip (l.drop (width + 1))).scanl (fun h io => roll base (base ^ width) h io.1 io.2)
        (hash base (l.take (width + 1))) =
      (List.range (l.length - width)).map fun start => hash base (window l (width + 1) start) := by
  induction l with
  | nil => cases h
  | cons a rest ih =>
    rw [length_cons] at h ⊢
    rw [drop_succ_cons, take_succ_cons]
    by_cases hlast : rest.length = width
    · rw [drop_eq_nil_of_le (Nat.le_of_eq hlast), zip_nil_right, scanl_nil,
        show rest.length + 1 - width = 1 by omega, range_one, map_singleton]
      rfl
    · have hwidth : width < rest.length := by omega
      have hdrop : rest.drop width = rest[width] :: rest.drop (width + 1) :=
        drop_eq_getElem_cons hwidth
      have hlength : (rest.take width).length = width := by
        rw [length_take]
        omega
      have hnext : roll base (base ^ width) (hash base (a :: rest.take width)) a
          rest[width] = hash base (rest.take (width + 1)) := by
        rw [take_succ_eq_append_getElem hwidth, ← roll_hash base a, hlength]
      rw [hdrop, zip_cons_cons, scanl_cons, hnext, ih (by omega),
        show rest.length + 1 - width = rest.length - width + 1 by omega,
        range_succ_eq_map, map_cons, List.map_map]
      rfl

end RollingHash

/-!
## Common runs

Two lists have a run in common where they agree, element for element, over a length. Runs whose
positions differ by the same amount lie on one diagonal; there a run that can be extended neither
to the left nor to the right is met by no other such run.
-/

namespace CommonRuns

variable {α : Type} {A B : List α}

/-- The elements from `i` of one list and from `j` of the other agree over a length. -/
structure Common (A : List α) (i : ℕ) (B : List α) (j len : ℕ) : Prop where
  left_le : i + len ≤ A.length
  right_le : j + len ≤ B.length
  agree : ∀ k < len, A[i + k]? = B[j + k]?

structure Maximal (A : List α) (i : ℕ) (B : List α) (j len : ℕ) : Prop
    extends Common A i B j len where
  left_stop : 0 < i → 0 < j → A[i - 1]? ≠ B[j - 1]?
  right_stop : i + len < A.length → j + len < B.length → A[i + len]? ≠ B[j + len]?

variable {i j len : ℕ}

lemma Common.symm (h : Common A i B j len) : Common B j A i len :=
  ⟨h.right_le, h.left_le, fun k hk => (h.agree k hk).symm⟩

lemma Maximal.symm (h : Maximal A i B j len) : Maximal B j A i len where
  toCommon := h.toCommon.symm
  left_stop := fun hj hi heq => h.left_stop hi hj heq.symm
  right_stop := fun hj hi heq => h.right_stop hi hj heq.symm

lemma Common.sub (h : Common A i B j len) (offset : ℕ) {width : ℕ} (hwidth : offset + width ≤ len) :
    Common A (i + offset) B (j + offset) width where
  left_le := by have := h.left_le; omega
  right_le := by have := h.right_le; omega
  agree := by
    intro k hk
    rw [Nat.add_assoc, Nat.add_assoc]
    exact h.agree (offset + k) (by omega)

/-- One more element on the left. -/
lemma Common.cons (h : Common A (i + 1) B (j + 1) len) (heq : A[i]? = B[j]?) :
    Common A i B j (len + 1) where
  left_le := by have := h.left_le; omega
  right_le := by have := h.right_le; omega
  agree := by
    intro k hk
    cases k with
    | zero => exact heq
    | succ k =>
      have hagree := h.agree k (by omega)
      rwa [Nat.add_right_comm, Nat.add_right_comm j] at hagree

/-- Every common run starts within one that cannot be extended to the left. -/
lemma Common.exists_leftmost (h : Common A i B j len) :
    ∃ back, back ≤ i ∧ back ≤ j ∧ Common A (i - back) B (j - back) (back + len) ∧
      (0 < i - back → 0 < j - back → A[i - back - 1]? ≠ B[j - back - 1]?) := by
  induction i generalizing j len with
  | zero => exact ⟨0, Nat.le_refl 0, Nat.zero_le j, by simpa using h, fun h => nomatch h⟩
  | succ i ih =>
    by_cases hstop : 0 < j ∧ A[i]? = B[j - 1]?
    · obtain ⟨hpos, heq⟩ := hstop
      obtain ⟨n, rfl⟩ := Nat.exists_eq_succ_of_ne_zero hpos.ne'
      obtain ⟨back, hi, hj, hcommon, hleft⟩ := ih (h.cons heq)
      refine ⟨back + 1, by omega, by omega, ?_, ?_⟩
      · rw [Nat.add_sub_add_right, Nat.succ_eq_add_one, Nat.add_sub_add_right,
          Nat.add_right_comm, Nat.add_assoc]
        exact hcommon
      · rw [Nat.add_sub_add_right, Nat.succ_eq_add_one, Nat.add_sub_add_right]
        exact hleft
    · refine ⟨0, Nat.zero_le _, Nat.zero_le _, by simpa using h, ?_⟩
      intro _ hj heq
      exact hstop ⟨by simpa using hj, by simpa using heq⟩

/-- A common run that starts in a maximal one on its diagonal ends in it. -/
lemma Maximal.stop_le {s t len : ℕ} (h : Maximal A s B t len) {i j width : ℕ}
    (hrun : Common A i B j width) (hdiagonal : s + j = t + i) (hle : i ≤ s + len) :
    i + width ≤ s + len := by
  by_contra hlt
  have hleft := hrun.left_le
  have hright := hrun.right_le
  have hagree := hrun.agree (s + len - i) (by omega)
  rw [show i + (s + len - i) = s + len by omega, show j + (s + len - i) = t + len by omega]
    at hagree
  exact h.right_stop (by omega) (by omega) hagree

lemma Maximal.le_start {s t len : ℕ} (h : Maximal A s B t len) {i j width : ℕ}
    (hrun : Common A i B j width) (hdiagonal : s + j = t + i) (hle : s ≤ i + width) :
    s ≤ i := by
  by_contra hlt
  have hagree := hrun.agree (s - 1 - i) (by omega)
  rw [show i + (s - 1 - i) = s - 1 by omega, show j + (s - 1 - i) = t - 1 by omega] at hagree
  exact h.left_stop (by omega) (by omega) hagree

/-- **Maximal runs of a diagonal do not touch.** -/
lemma Maximal.eq_of_touch {s t len s' t' len' : ℕ} (h : Maximal A s B t len)
    (h' : Maximal A s' B t' len') (hdiagonal : s + t' = t + s') (hle : s ≤ s' + len')
    (hle' : s' ≤ s + len) : s = s' ∧ t = t' ∧ len = len' := by
  have hdiagonal' : s' + t = t' + s := by omega
  have hs := h.le_start h'.toCommon hdiagonal hle
  have hs' := h'.le_start h.toCommon hdiagonal' hle'
  have hstop := h.stop_le h'.toCommon hdiagonal hle'
  have hstop' := h'.stop_le h.toCommon hdiagonal' hle
  exact ⟨by omega, by omega, by omega⟩

end CommonRuns
