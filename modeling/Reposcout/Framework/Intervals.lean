import Mathlib.Data.Finset.Interval
import Mathlib.Order.Interval.Finset.Nat
import Mathlib.Algebra.BigOperators.Group.Finset.Basic

/-!
# Rows of intervals

Half-open intervals of numbers in a row with gaps between them, as a set of numbers: how many
numbers a row has, how many are below a bound, and how many two rows have in common.
-/

namespace Intervals

open List

/-- From the first number up to the second, without it. -/
abbrev Interval := ℕ × ℕ

def points (l : List Interval) : Finset ℕ := l.foldr (fun r s => Finset.Ico r.1 r.2 ∪ s) ∅

/-- The intervals are not empty, and stand in a row with gaps between them. -/
structure Spaced (l : List Interval) : Prop where
  nonempty : ∀ r ∈ l, r.1 < r.2
  gaps : l.Pairwise fun r s => r.2 < s.1

@[simp] lemma points_nil : points [] = ∅ := rfl

@[simp] lemma points_cons (r : Interval) (l : List Interval) :
    points (r :: l) = Finset.Ico r.1 r.2 ∪ points l := rfl

variable {l : List Interval}

@[simp] lemma mem_points {n : ℕ} : n ∈ points l ↔ ∃ r ∈ l, r.1 ≤ n ∧ n < r.2 := by
  induction l with
  | nil => simp
  | cons r rest ih => simp [ih]

@[simp] lemma points_append (l m : List Interval) : points (l ++ m) = points l ∪ points m := by
  ext n
  simp only [mem_points, mem_append, Finset.mem_union]
  constructor
  · rintro ⟨r, hr | hr, hn⟩
    · exact .inl ⟨r, hr, hn⟩
    · exact .inr ⟨r, hr, hn⟩
  · rintro (⟨r, hr, hn⟩ | ⟨r, hr, hn⟩)
    · exact ⟨r, .inl hr, hn⟩
    · exact ⟨r, .inr hr, hn⟩

lemma Spaced.nil : Spaced [] := ⟨nofun, Pairwise.nil⟩

lemma Spaced.tail {r : Interval} {l : List Interval} (h : Spaced (r :: l)) : Spaced l :=
  ⟨fun s hs => h.nonempty s (mem_cons_of_mem r hs), (pairwise_cons.mp h.gaps).2⟩

variable {r : Interval} {s : Interval}

lemma Spaced.lt (h : Spaced (r :: l)) (hs : s ∈ l) : r.2 < s.1 :=
  (pairwise_cons.mp h.gaps).1 s hs

/-- What comes behind an interval has none of its numbers. -/
lemma Spaced.lt_of_mem_points (h : Spaced (r :: l)) {n : ℕ} (hn : n ∈ points l) : r.2 < n := by
  obtain ⟨s, hs, hle, -⟩ := mem_points.mp hn
  exact Nat.lt_of_lt_of_le (h.lt hs) hle

lemma Spaced.card_below (h : Spaced l) (bound : ℕ) :
    ((points l).filter (· < bound)).card = (l.map fun r => min r.2 bound - r.1).sum := by
  induction l with
  | nil => rfl
  | cons r rest ih =>
    have hclip : (Finset.Ico r.1 r.2).filter (· < bound) = Finset.Ico r.1 (min r.2 bound) := by
      ext n
      simp only [Finset.mem_filter, Finset.mem_Ico]
      omega
    have hdisjoint : Disjoint ((Finset.Ico r.1 r.2).filter (· < bound))
        ((points rest).filter (· < bound)) := by
      rw [Finset.disjoint_left]
      intro n hn hn'
      have hlt := h.lt_of_mem_points (Finset.mem_filter.mp hn').1
      have hlt' := (Finset.mem_Ico.mp (Finset.mem_filter.mp hn).1).2
      omega
    rw [points_cons, Finset.filter_union, Finset.card_union_of_disjoint hdisjoint, hclip,
      Nat.card_Ico, ih h.tail, map_cons, sum_cons]

lemma Spaced.card_points (h : Spaced l) : (points l).card = (l.map fun r => r.2 - r.1).sum := by
  induction l with
  | nil => rfl
  | cons r rest ih =>
    have hdisjoint : Disjoint (Finset.Ico r.1 r.2) (points rest) := by
      rw [Finset.disjoint_left]
      intro n hn hn'
      have hlt := h.lt_of_mem_points hn'
      have hlt' := (Finset.mem_Ico.mp hn).2
      omega
    rw [points_cons, Finset.card_union_of_disjoint hdisjoint, Nat.card_Ico, ih h.tail,
      map_cons, sum_cons]

variable {m : List Interval}

lemma Spaced.sublist (h : Spaced l) (hsub : m.Sublist l) : Spaced m :=
  ⟨fun r hr => h.nonempty r (hsub.subset hr), h.gaps.sublist hsub⟩

lemma Spaced.append (hl : Spaced l) (hm : Spaced m)
    (hgap : ∀ r ∈ l, ∀ s ∈ m, r.2 < s.1) : Spaced (l ++ m) where
  nonempty r hr := (mem_append.mp hr).elim (hl.nonempty r) (hm.nonempty r)
  gaps := pairwise_append.mpr ⟨hl.gaps, hm.gaps, hgap⟩

lemma Spaced.lt_getLast (h : Spaced l) {last : Interval} (hlast : l.getLast? = some last)
    (hr : r ∈ l) : r = last ∨ r.2 < last.1 := by
  obtain ⟨front, rfl⟩ := getLast?_eq_some_iff.mp hlast
  rcases mem_append.mp hr with hr | hr
  · exact .inr ((pairwise_append.mp h.gaps).2.2 r hr last (mem_singleton_self last))
  · exact .inl (mem_singleton.mp hr)

lemma Spaced.apart (h : Spaced l) (hr : r ∈ l) (hs : s ∈ l) : r = s ∨ r.2 < s.1 ∨ s.2 < r.1 :=
  Pairwise.forall_of_forall_of_flip (R := fun r s : Interval => r = s ∨ r.2 < s.1 ∨ s.2 < r.1)
    (fun _ _ => .inl rfl) (h.gaps.imp fun hlt => .inr (.inl hlt))
    (h.gaps.imp fun hlt => .inr (.inr hlt)) hr hs

/-- A gap is seen at the end of the interval in front of it. -/
lemma Spaced.exists_superset_iff (h : Spaced l) {start stop : ℕ} (hlt : start < stop) :
    (∃ r ∈ l, r.1 ≤ start ∧ stop ≤ r.2) ↔ Finset.Ico start stop ⊆ points l := by
  constructor
  · rintro ⟨r, hr, hle, hstop⟩ n hn
    have hbounds := Finset.mem_Ico.mp hn
    exact mem_points.mpr ⟨r, hr, by omega, by omega⟩
  · intro hsub
    obtain ⟨r, hr, hle, hend⟩ := mem_points.mp (hsub (Finset.mem_Ico.mpr ⟨le_refl start, hlt⟩))
    refine ⟨r, hr, hle, ?_⟩
    by_contra hshort
    obtain ⟨s, hs, hsle, hsend⟩ :=
      mem_points.mp (hsub (Finset.mem_Ico.mpr ⟨hend.le, not_le.mp hshort⟩))
    rcases h.apart hr hs with rfl | hlt | hlt
    · omega
    · omega
    · omega

/-! ## Two rows -/

/-- Walk along two rows, and add up what their intervals have in common. -/
def overlap : List Interval → List Interval → ℕ
  | [], _ => 0
  | _ :: _, [] => 0
  | r :: l, s :: m =>
    (min r.2 s.2 - max r.1 s.1) +
      if r.2 ≤ s.2 then overlap l (s :: m) else overlap (r :: l) m
termination_by l m => l.length + m.length

lemma Spaced.inter_first (hl : Spaced (r :: l)) (hm : Spaced (s :: m)) (h : r.2 ≤ s.2) :
    (points (r :: l) ∩ points (s :: m)).card =
      (min r.2 s.2 - max r.1 s.1) + (points l ∩ points (s :: m)).card := by
  have hmeet : Finset.Ico r.1 r.2 ∩ points (s :: m) =
      Finset.Ico (max r.1 s.1) (min r.2 s.2) := by
    ext n
    rw [Finset.mem_inter, points_cons, Finset.mem_union, Finset.mem_Ico, Finset.mem_Ico,
      Finset.mem_Ico]
    constructor
    · rintro ⟨hn, hn' | hn'⟩
      · omega
      · have hlt := hm.lt_of_mem_points hn'
        omega
    · intro hn
      exact ⟨by omega, .inl (by omega)⟩
  have hdisjoint : Disjoint (Finset.Ico r.1 r.2 ∩ points (s :: m))
      (points l ∩ points (s :: m)) := by
    rw [Finset.disjoint_left]
    intro n hn hn'
    have hlt := hl.lt_of_mem_points (Finset.mem_inter.mp hn').1
    have hlt' := (Finset.mem_Ico.mp (Finset.mem_inter.mp hn).1).2
    omega
  rw [points_cons, Finset.union_inter_distrib_right, Finset.card_union_of_disjoint hdisjoint,
    hmeet, Nat.card_Ico]

/-- **The walk counts what the rows have in common.** -/
lemma overlap_eq (hl : Spaced l) (hm : Spaced m) :
    overlap l m = (points l ∩ points m).card := by
  induction l, m using overlap.induct with
  | case1 m => simp [overlap]
  | case2 r l => simp [overlap]
  | case3 r l s m ihLeft ihRight =>
    rw [overlap]
    split_ifs with hle
    · rw [ihLeft hl.tail hm, hl.inter_first hm hle]
    · rw [ihRight hl hm.tail, Finset.inter_comm (points (r :: l)),
        Finset.inter_comm (points (r :: l)), hm.inter_first hl (by omega), min_comm, max_comm]

end Intervals
