import Reposcout.Dup.Seeds
import Reposcout.Framework.Intervals

/-!
# Merged intervals

The ranges of a diagonal stand in a row with gaps between them, so an insertion merges its interval
with a single range in front of it and with the ranges that begin inside of it.  The numbers in the
ranges are then the numbers inserted, and only the nearest range in front can hold an interval.
-/

namespace Reposcout.Dup.MergedIntervals

open List Intervals Finset
open Intervals (Spaced points mem_points)

variable {m : MergedIntervals} {start stop : ℕ}

/-! ## One insertion -/

/-- Put a range in its place, absorbing the ranges that begin inside of it. -/
def place (start stop : ℕ) (remaining : List (ℕ × ℕ)) : List (ℕ × ℕ) :=
  let absorbed := absorb stop (remaining.filter fun r => start ≤ r.1)
  remaining.filter (fun r => r.1 < start) ++ (start, absorbed.1) :: absorbed.2

/-- The range in front is merged if it reaches the interval. -/
lemma insert_cases (m : MergedIntervals) (start stop : ℕ) :
    (∃ previous, m.predecessor start = some previous ∧ start ≤ previous.2 ∧
      (m.insert start stop).byStart = place previous.1 (max stop previous.2)
        (m.byStart.filter fun r => r.1 ≠ previous.1)) ∨
    (∀ previous, m.predecessor start = some previous → previous.2 < start) ∧
      (m.insert start stop).byStart = place start stop m.byStart := by
  unfold insert
  cases hprevious : m.predecessor start with
  | none => exact .inr ⟨nofun, rfl⟩
  | some previous =>
    by_cases htouch : start ≤ previous.2
    · refine .inl ⟨previous, rfl, htouch, ?_⟩
      simp only [ge_iff_le, if_pos htouch]
      rfl
    · refine .inr ⟨fun other h => by obtain rfl := Option.some.inj h; omega, ?_⟩
      simp only [ge_iff_le, if_neg htouch]
      rfl

lemma mem_of_predecessor {previous : ℕ × ℕ} (h : m.predecessor start = some previous) :
    previous ∈ m.byStart ∧ previous.1 ≤ start := by
  obtain ⟨hmem, hle⟩ := mem_filter.mp (mem_of_getLast? h)
  exact ⟨hmem, of_decide_eq_true hle⟩

/-! ## Intervals that nothing touches -/

/-- If only the interval itself begins in its reach, nothing is absorbed into it. -/
lemma absorb_of_apart (start stop : ℕ) (l : List (ℕ × ℕ))
    (h : ∀ r ∈ l, r.1 ≤ stop → r = (start, stop)) :
    (absorb stop l).1 = stop ∧ ∀ r ∈ (absorb stop l).2, r ∈ l := by
  induction l with
  | nil => exact ⟨rfl, fun r hr => hr⟩
  | cons first rest ih =>
    obtain ⟨nextStart, nextEnd⟩ := first
    rw [absorb]
    by_cases hlater : nextStart > stop
    · rw [if_pos hlater]
      exact ⟨rfl, fun r hr => hr⟩
    · rw [if_neg hlater]
      have hsame := h (nextStart, nextEnd) mem_cons_self (not_lt.mp hlater)
      obtain ⟨rfl, rfl⟩ : nextStart = start ∧ nextEnd = stop := by simpa using hsame
      rw [Nat.max_self]
      obtain ⟨hstop, hmem⟩ := ih fun r hr => h r (mem_cons_of_mem _ hr)
      exact ⟨hstop, fun r hr => mem_cons_of_mem _ (hmem r hr)⟩

variable {remaining : List (ℕ × ℕ)}

lemma mem_place_of_apart (h : ∀ r ∈ remaining, start ≤ r.1 → r.1 ≤ stop → r = (start, stop))
    {r : ℕ × ℕ} (hr : r ∈ place start stop remaining) : r ∈ remaining ∨ r = (start, stop) := by
  obtain ⟨hstop, hmem⟩ := absorb_of_apart start stop (remaining.filter fun r => start ≤ r.1)
    fun r hr => h r (mem_filter.mp hr).1 (of_decide_eq_true (mem_filter.mp hr).2)
  simp only [place, hstop] at hr
  rcases mem_append.mp hr with hr | hr
  · exact .inl (mem_of_mem_filter hr)
  · rcases mem_cons.mp hr with rfl | hr
    · exact .inr rfl
    · exact .inl (mem_of_mem_filter (hmem r hr))

/-- An interval that no other one touches is stored as it is. -/
lemma mem_insert_of_apart (hle : start ≤ stop) (hok : ∀ r ∈ m.byStart, r.1 ≤ r.2)
    (h : ∀ r ∈ m.byStart, r.1 ≤ stop → start ≤ r.2 → r = (start, stop)) :
    ∀ r ∈ (m.insert start stop).byStart, r ∈ m.byStart ∨ r = (start, stop) := by
  have hreach : ∀ r ∈ m.byStart, start ≤ r.1 → r.1 ≤ stop → r = (start, stop) :=
    fun r hr hstart hstop => h r hr hstop (hstart.trans (hok r hr))
  intro r hr
  rcases insert_cases m start stop with ⟨previous, hprevious, htouch, heq⟩ | ⟨-, heq⟩
  · obtain ⟨hmem, hbefore⟩ := mem_of_predecessor hprevious
    obtain rfl := h previous hmem (hbefore.trans hle) htouch
    rw [heq, Nat.max_self] at hr
    exact (mem_place_of_apart (fun s hs => hreach s (mem_of_mem_filter hs)) hr).imp_left
      mem_of_mem_filter
  · rw [heq] at hr
    exact mem_place_of_apart hreach hr

/-! ## The numbers of the ranges -/

lemma absorb_spec {l : List (ℕ × ℕ)} (hl : Spaced l) (hlt : start < stop)
    (hstart : ∀ r ∈ l, start ≤ r.1) :
    Spaced ((start, (absorb stop l).1) :: (absorb stop l).2) ∧
      points ((start, (absorb stop l).1) :: (absorb stop l).2) =
        Finset.Ico start stop ∪ points l := by
  induction l generalizing stop with
  | nil => exact ⟨⟨by simpa [absorb] using hlt, by simp [absorb]⟩, rfl⟩
  | cons next rest ih =>
    obtain ⟨nextStart, nextEnd⟩ := next
    rw [absorb]
    by_cases hlater : nextStart > stop
    · rw [if_pos hlater]
      refine ⟨⟨?_, pairwise_cons.mpr ⟨?_, hl.gaps⟩⟩, rfl⟩
      · exact forall_mem_cons.mpr ⟨hlt, hl.nonempty⟩
      · intro r hr
        rcases mem_cons.mp hr with rfl | hr
        · exact hlater
        · have hgap := hl.lt hr
          have hne := hl.nonempty _ mem_cons_self
          dsimp only at hgap hne ⊢
          omega
    · rw [if_neg hlater]
      have hnext := hstart _ mem_cons_self
      have hne := hl.nonempty _ mem_cons_self
      have hlater : start < max stop nextEnd := by omega
      obtain ⟨hspaced, hpoints⟩ := ih hl.tail hlater fun r hr => hstart r (mem_cons_of_mem _ hr)
      refine ⟨hspaced, ?_⟩
      rw [hpoints, points_cons, ← union_assoc]
      congr 1
      ext n
      simp only [mem_union, mem_Ico]
      omega

lemma place_spec (h : Spaced remaining) (hlt : start < stop)
    (hbefore : ∀ r ∈ remaining, r.1 < start → r.2 < start) : Spaced (place start stop remaining) ∧
      points (place start stop remaining) = points remaining ∪ Finset.Ico start stop := by
  obtain ⟨hspaced, hpoints⟩ := absorb_spec (h.sublist filter_sublist) hlt
    (l := remaining.filter fun r => start ≤ r.1) fun r hr => of_decide_eq_true (mem_filter.mp hr).2
  unfold place
  constructor
  · refine (h.sublist filter_sublist).append hspaced fun r hr s hs => ?_
    obtain ⟨hr, hfirst⟩ := mem_filter.mp hr
    have hend := hbefore r hr (of_decide_eq_true hfirst)
    rcases mem_cons.mp hs with rfl | hs
    · exact hend
    · have hgap := hspaced.lt hs
      have hne := hspaced.nonempty _ mem_cons_self
      dsimp only at hgap hne
      omega
  · rw [points_append, hpoints]
    ext n
    simp only [mem_union, mem_points, mem_filter, decide_eq_true_eq]
    constructor
    · rintro (⟨r, ⟨hr, -⟩, hn⟩ | hn | ⟨r, ⟨hr, -⟩, hn⟩)
      · exact .inl ⟨r, hr, hn⟩
      · exact .inr hn
      · exact .inl ⟨r, hr, hn⟩
    · rintro (⟨r, hr, hn⟩ | hn)
      · by_cases hfirst : r.1 < start
        · exact .inl ⟨r, ⟨hr, hfirst⟩, hn⟩
        · exact .inr (.inr ⟨r, ⟨hr, not_lt.mp hfirst⟩, hn⟩)
      · exact .inr (.inl hn)

/-- Of the ranges that begin in front of a number, the nearest one ends last. -/
lemma le_predecessor (h : Spaced m.byStart) {previous r : ℕ × ℕ}
    (hprevious : m.predecessor start = some previous) (hr : r ∈ m.byStart) (hle : r.1 ≤ start) :
    r = previous ∨ r.2 < previous.1 :=
  (h.sublist filter_sublist).lt_getLast hprevious (mem_filter.mpr ⟨hr, decide_eq_true hle⟩)

lemma exists_predecessor {r : ℕ × ℕ} (hr : r ∈ m.byStart) (hle : r.1 ≤ start) :
    ∃ previous, m.predecessor start = some previous := by
  apply Option.isSome_iff_exists.mp
  rw [predecessor, getLast?_isSome]
  exact List.ne_nil_of_mem (mem_filter.mpr ⟨hr, decide_eq_true hle⟩)

/-- **An insertion** adds the numbers of its interval, and keeps the gaps. -/
lemma insert_spec (h : Spaced m.byStart) (hlt : start < stop) :
    Spaced (m.insert start stop).byStart ∧
      points (m.insert start stop).byStart = points m.byStart ∪ Finset.Ico start stop := by
  rcases insert_cases m start stop with ⟨previous, hprevious, htouch, heq⟩ | ⟨hapart, heq⟩
  · obtain ⟨hmem, hbefore⟩ := mem_of_predecessor hprevious
    have hlonger : previous.1 < max stop previous.2 := by omega
    obtain ⟨hspaced, hpoints⟩ := place_spec
      (h.sublist (filter_sublist (p := fun r => r.1 ≠ previous.1))) hlonger fun r hr hfirst => by
        obtain ⟨hr, hne⟩ := mem_filter.mp hr
        rcases le_predecessor h hprevious hr (by omega) with rfl | hend
        · omega
        · exact hend
    rw [heq]
    refine ⟨hspaced, hpoints.trans ?_⟩
    ext n
    simp only [mem_union, mem_points, mem_filter, decide_eq_true_eq, mem_Ico]
    constructor
    · rintro (⟨r, ⟨hr, -⟩, hn⟩ | hn)
      · exact .inl ⟨r, hr, hn⟩
      · by_cases hin : n < previous.2
        · exact .inl ⟨previous, hmem, hn.1, hin⟩
        · exact .inr (by omega)
    · rintro (⟨r, hr, hn⟩ | hn)
      · rcases h.apart hr hmem with rfl | hgap
        · exact .inr (by omega)
        · have hne := h.nonempty r hr
          have hne' := h.nonempty previous hmem
          exact .inl ⟨r, ⟨hr, by omega⟩, hn⟩
      · exact .inr (by omega)
  · rw [heq]
    apply place_spec h hlt
    intro r hr hfirst
    obtain ⟨previous, hprevious⟩ := exists_predecessor hr hfirst.le
    have hend := hapart previous hprevious
    rcases le_predecessor h hprevious hr hfirst.le with rfl | hgap
    · exact hend
    · have hbounds := mem_of_predecessor hprevious
      omega

/-! ## Covered intervals -/

lemma exists_of_covers (h : m.covers start stop = true) :
    ∃ r ∈ m.byStart, r.1 ≤ start ∧ stop ≤ r.2 := by
  unfold covers at h
  split at h
  · next first last hprevious =>
    obtain ⟨hmem, hle⟩ := mem_of_predecessor hprevious
    exact ⟨(first, last), hmem, hle, of_decide_eq_true h⟩
  · cases h

lemma covers_iff (h : Spaced m.byStart) :
    m.covers start stop = true ↔ ∃ r ∈ m.byStart, r.1 ≤ start ∧ stop ≤ r.2 := by
  refine ⟨exists_of_covers, ?_⟩
  rintro ⟨r, hr, hle, hstop⟩
  obtain ⟨previous, hprevious⟩ := exists_predecessor hr hle
  rw [covers, hprevious]
  apply decide_eq_true
  have hne := h.nonempty previous (mem_of_predecessor hprevious).1
  rcases le_predecessor h hprevious hr hle with rfl | hlt
  · exact hstop
  · omega

/-- The ranges after a run of insertions. -/
def insertAll (inserted : List (ℕ × ℕ)) : MergedIntervals :=
  inserted.foldl (fun m r => m.insert r.1 r.2) empty

lemma insertAll_spec {inserted : List (ℕ × ℕ)} (h : ∀ r ∈ inserted, r.1 < r.2) :
    Spaced (insertAll inserted).byStart ∧
      points (insertAll inserted).byStart = points inserted := by
  induction inserted using List.reverseRecOn with
  | nil => exact ⟨Spaced.nil, rfl⟩
  | append_singleton earlier r ih =>
    obtain ⟨hspaced, hpoints⟩ := ih fun s hs => h s (mem_append_left [r] hs)
    have hstep := insert_spec hspaced (h r mem_concat_self)
    rw [insertAll, foldl_append]
    refine ⟨hstep.1, hstep.2.trans ?_⟩
    rw [hpoints, points_append, points_cons, points_nil,
      union_empty]

/-- **Merged intervals** stay in a row with gaps.  An interval is covered exactly if all its numbers
were inserted; for an empty one the code asks for a range that reaches it. -/
theorem insertAll_covers {inserted : List (ℕ × ℕ)} (h : ∀ r ∈ inserted, r.1 < r.2) :
    (∀ r ∈ (insertAll inserted).byStart, r.1 < r.2) ∧
    (insertAll inserted).byStart.Pairwise (fun r s => r.2 < s.1) ∧
    ∀ start stop, (insertAll inserted).covers start stop = true ↔
      if start < stop then ∀ n, start ≤ n → n < stop → ∃ r ∈ inserted, r.1 ≤ n ∧ n < r.2
      else ∃ n ≤ start, stop ≤ n + 1 ∧ ∃ r ∈ inserted, r.1 ≤ n ∧ n < r.2 := by
  obtain ⟨hspaced, hpoints⟩ := insertAll_spec h
  refine ⟨hspaced.nonempty, hspaced.gaps, fun start stop => ?_⟩
  rw [covers_iff hspaced]
  by_cases hlt : start < stop
  · rw [if_pos hlt, hspaced.exists_superset_iff hlt, hpoints]
    simp only [Finset.subset_iff, Finset.mem_Ico, mem_points, and_imp]
  · rw [if_neg hlt]
    simp only [← mem_points (l := inserted), ← hpoints]
    constructor
    · rintro ⟨r, hr, hle, hstop⟩
      have hne := hspaced.nonempty r hr
      exact ⟨min start (r.2 - 1), by omega, by omega, mem_points.mpr ⟨r, hr, by omega, by omega⟩⟩
    · rintro ⟨n, hn, hstop, hmem⟩
      obtain ⟨r, hr, hfirst, hend⟩ := mem_points.mp hmem
      exact ⟨r, hr, by omega, by omega⟩

theorem insertAll_covers_bridged :
    (insertAll [(0, 2), (4, 6), (2, 4)]).covers 1 6 = true :=
  ((insertAll_covers (by decide)).2.2 1 6).mpr (by decide)

/-- An empty interval has no numbers, and is not covered before anything is inserted. -/
theorem not_covers_iff_empty :
    ¬ ∀ inserted : List (ℕ × ℕ), (∀ r ∈ inserted, r.1 < r.2) → ∀ start stop,
      ((insertAll inserted).covers start stop = true ↔
        ∀ n, start ≤ n → n < stop → ∃ r ∈ inserted, r.1 ≤ n ∧ n < r.2) := by
  intro h
  have hcovers := (h [] nofun 0 0).mpr fun n _ hn => absurd hn (Nat.not_lt_zero n)
  exact absurd hcovers (by decide)

end Reposcout.Dup.MergedIntervals
