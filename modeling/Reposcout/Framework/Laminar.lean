import Mathlib.Algebra.BigOperators.Ring.Finset
import Mathlib.Data.List.Dedup
import Mathlib.Data.List.Pairwise
import Mathlib.Data.Prod.Lex
import Mathlib.Order.Minimal

/-!
# Outermost ranges

Items occupy half-open ranges, each inside a group (a file, say).  The union of the ranges of a
group is the union of the maximal ones.  A single sweep in order of the left end, longer ranges
first, finds them: an item whose range is inside that of the last item taken is skipped, every
other one is taken.

The sweep is correct whenever a taken range starts behind the previous one, so whenever no two
ranges cross.  What it takes is then one item for each maximal range, and the ranges taken do
not overlap.
-/

namespace Laminar

open List Option

variable {κ α : Type}

/-- The half-open range `lo .. hi` of a group. -/
@[ext] structure Range (κ : Type) where
  group : κ
  lo : ℕ
  hi : ℕ
  deriving DecidableEq

namespace Range

instance : PartialOrder (Range κ) where
  le r s := r.group = s.group ∧ s.lo ≤ r.lo ∧ r.hi ≤ s.hi
  le_refl r := ⟨rfl, le_rfl, le_rfl⟩
  le_trans r s t hrs hst := ⟨hrs.1.trans hst.1, hst.2.1.trans hrs.2.1, hrs.2.2.trans hst.2.2⟩
  le_antisymm r s hrs hsr :=
    Range.ext hrs.1 (le_antisymm hsr.2.1 hrs.2.1) (le_antisymm hrs.2.2 hsr.2.2)

instance [DecidableEq κ] : DecidableLE (Range κ) :=
  fun r s => inferInstanceAs (Decidable (r.group = s.group ∧ s.lo ≤ r.lo ∧ r.hi ≤ s.hi))

/-- A range with at least one position. -/
def Proper (r : Range κ) : Prop := r.lo < r.hi

def Apart (r s : Range κ) : Prop := r.group = s.group → r.hi ≤ s.lo ∨ s.hi ≤ r.lo

instance : Std.Symm (Apart : Range κ → Range κ → Prop) :=
  ⟨fun _ _ h hgroup => (h hgroup.symm).symm⟩

lemma Apart.not_le {r s : Range κ} (hr : r.Proper) (h : r.Apart s) : ¬ r ≤ s := by
  rintro ⟨hgroup, hlo, hhi⟩
  unfold Proper at hr
  have hends := h hgroup
  omega

/-- `r` ends before `s` starts, in the order of the groups. -/
def Before [LT κ] (r s : Range κ) : Prop := r.group < s.group ∨ r.group = s.group ∧ r.hi ≤ s.lo

end Range

section

variable [LinearOrder κ]

/-- The order of the sweep: by group and left end, longer ranges first. -/
def sweepOrder (r s : Range κ) : Ordering :=
  (compare r.group s.group).then <| (compare r.lo s.lo).then (compare s.hi r.hi)

instance : Std.TransCmp (sweepOrder (κ := κ)) :=
  haveI : Std.TransCmp (fun r s : Range κ => compare s.hi r.hi) :=
    @Std.TransCmp.opposite _ (compareOn Range.hi) _
  inferInstanceAs (Std.TransCmp (compareLex (compareOn (Range.group : Range κ → κ))
    (compareLex (compareOn Range.lo) fun r s => compare s.hi r.hi)))

lemma transCmp_sweepOrder (range : α → Range κ) :
    Std.TransCmp fun x y => sweepOrder (range x) (range y) where
  eq_swap := Std.OrientedCmp.eq_swap
  isLE_trans := Std.TransCmp.isLE_trans

lemma sweepOrder_self (r : Range κ) : sweepOrder r r ≠ .gt := by
  simp [sweepOrder]

variable {r s : Range κ}

/-- A range that contains another one of its group comes first. -/
lemma lt_or_of_sweepOrder (h : sweepOrder r s ≠ .gt) :
    r.group < s.group ∨ r.group = s.group ∧ r.lo ≤ s.lo := by
  rcases lt_trichotomy r.group s.group with hlt | heq | hgt
  · exact .inl hlt
  · refine .inr ⟨heq, ?_⟩
    by_contra hlo
    have hcompare : compare r.lo s.lo = .gt := compare_gt_iff_gt.mpr (by omega)
    rw [sweepOrder, compare_eq_iff_eq.mpr heq, hcompare] at h
    exact h rfl
  · rw [sweepOrder, compare_gt_iff_gt.mpr hgt] at h
    exact absurd rfl h

lemma Range.Before.trans {t : Range κ} (hs : s.Proper) (hrs : r.Before s) (hst : s.Before t) :
    r.Before t := by
  unfold Range.Proper at hs
  rcases hrs with hrs | ⟨hrs, hlo⟩ <;> rcases hst with hst | ⟨hst, hlo'⟩
  · exact .inl (hrs.trans hst)
  · exact .inl (hst ▸ hrs)
  · exact .inl (hrs ▸ hst)
  · exact .inr ⟨hrs.trans hst, by omega⟩

lemma Range.Before.not_le (hs : s.Proper) (h : r.Before s) : ¬ s ≤ r := by
  rintro ⟨hgroup, hlo, hhi⟩
  unfold Range.Proper at hs
  rcases h with hlt | ⟨_, hle⟩
  · exact absurd hgroup hlt.ne'
  · omega

lemma Range.Before.apart (h : r.Before s) : r.Apart s := by
  intro hgroup
  rcases h with hlt | ⟨_, hle⟩
  · exact absurd hgroup hlt.ne
  · exact .inl hle

end

/-! ## The maximal ranges and their weight -/

section

variable [DecidableEq κ]

def maximals (rs : List (Range κ)) : List (Range κ) :=
  rs.dedup.filter fun r => ∀ s ∈ rs, r ≤ s → s = r

lemma mem_maximals {rs : List (Range κ)} {r : Range κ} :
    r ∈ maximals rs ↔ Maximal (· ∈ rs) r := by
  unfold maximals
  rw [mem_filter, mem_dedup, decide_eq_true_iff]
  constructor
  · rintro ⟨hmem, hmax⟩
    exact ⟨hmem, fun s hs hle => (hmax s hs hle).le⟩
  · rintro ⟨hmem, hmax⟩
    exact ⟨hmem, fun s hs hle => le_antisymm (hmax hs hle) hle⟩

lemma nodup_maximals (rs : List (Range κ)) : (maximals rs).Nodup :=
  (nodup_dedup rs).filter _

lemma maximals_perm {rs rs' : List (Range κ)} (h : rs'.Perm rs) :
    (maximals rs').Perm (maximals rs) := by
  refine (perm_ext_iff_of_nodup (nodup_maximals rs') (nodup_maximals rs)).mpr fun r => ?_
  rw [mem_maximals, mem_maximals]
  simp only [h.mem_iff]

/-- The weight of a range: that of the first item that occupies it. -/
def weightAt (range : α → Range κ) (weight : α → ℕ) (l : List α) (r : Range κ) : ℕ :=
  ((l.find? fun x => range x = r).map weight).getD 0

/-- **The weight of the union**: each maximal range counts once. -/
def unionWeight (range : α → Range κ) (weight : α → ℕ) (l : List α) : ℕ :=
  ((maximals (l.map range)).map (weightAt range weight l)).sum

lemma weightAt_map {β : Type} (view : α → β) (range : β → Range κ) (weight : β → ℕ)
    (l : List α) :
    weightAt range weight (l.map view) = weightAt (range ∘ view) (weight ∘ view) l := by
  funext r
  unfold weightAt
  rw [find?_map, Option.map_map]
  rfl

/-- The order of the items matters only between items of the same range. -/
lemma unionWeight_congr {range : α → Range κ} {weight : α → ℕ} {l l' : List α}
    (hperm : l'.Perm l)
    (hfind : ∀ r, (l'.find? fun x => range x = r) = l.find? fun x => range x = r) :
    unionWeight range weight l' = unionWeight range weight l := by
  have hweight : weightAt range weight l' = weightAt range weight l := by
    funext r
    unfold weightAt
    rw [hfind]
  unfold unionWeight
  rw [hweight]
  exact ((maximals_perm (hperm.map range)).map _).sum_eq

end

/-! ## The sweep -/

section

variable [LinearOrder κ] {range : α → Range κ}

/-- The items a sweep takes after the item `last`. -/
def outermost (range : α → Range κ) : Option α → List α → List α
  | _, [] => []
  | last, x :: l =>
    if ∃ p ∈ last, range x ≤ range p then outermost range last l
    else x :: outermost range (some x) l

/-- Every item the sweep takes starts behind the one taken before it. -/
def Separated (range : α → Range κ) : Option α → List α → Prop
  | _, [] => True
  | last, x :: l =>
    if ∃ p ∈ last, range x ≤ range p then Separated range last l
    else (∀ p ∈ last, (range p).group = (range x).group → (range p).hi ≤ (range x).lo) ∧
      Separated range (some x) l

structure Swept (range : α → Range κ) (l : List α) : Prop where
  ordered : l.Pairwise fun x y => sweepOrder (range x) (range y) ≠ .gt
  proper : ∀ x ∈ l, (range x).Proper

lemma Swept.tail {x : α} {l : List α} (h : Swept range (x :: l)) : Swept range l :=
  ⟨h.ordered.of_cons, fun y hy => h.proper y (mem_cons_of_mem x hy)⟩

lemma outermost_subset (last : Option α) (l : List α) : outermost range last l ⊆ l := by
  induction l generalizing last with
  | nil => exact Subset.refl []
  | cons x l ih =>
    unfold outermost
    split_ifs
    · exact Subset.trans (ih last) (subset_cons_self x l)
    · exact cons_subset_cons x (ih (some x))

variable {l : List α} {x : α}

/-- Every item is inside one that the sweep takes. -/
lemma exists_outermost (last : Option α) (hx : x ∈ l) :
    ∃ y, (y ∈ last ∨ y ∈ outermost range last l) ∧ range x ≤ range y := by
  induction l generalizing last with
  | nil => cases hx
  | cons z l ih =>
    unfold outermost
    rcases mem_cons.mp hx with rfl | hrest
    · split_ifs with hinside
      · obtain ⟨p, hp, hle⟩ := hinside
        exact ⟨p, .inl hp, hle⟩
      · exact ⟨x, .inr mem_cons_self, le_rfl⟩
    · split_ifs
      · exact ih last hrest
      · obtain ⟨y, hy | hy, hle⟩ := ih (some z) hrest
        · obtain rfl := mem_some_iff.mp hy
          exact ⟨z, .inr mem_cons_self, hle⟩
        · exact ⟨y, .inr (mem_cons_of_mem z hy), hle⟩

/-- What the sweep takes lies behind the last item taken, each item behind the previous. -/
lemma pairwise_outermost {last : Option α} (hswept : Swept range l)
    (hlast : ∀ p ∈ last, ∀ x ∈ l, sweepOrder (range p) (range x) ≠ .gt)
    (hseparated : Separated range last l) :
    (∀ p ∈ last, ∀ x ∈ outermost range last l, (range p).Before (range x)) ∧
      (outermost range last l).Pairwise fun x y => (range x).Before (range y) := by
  induction l generalizing last with
  | nil => exact ⟨nofun, Pairwise.nil⟩
  | cons x l ih =>
    unfold outermost
    unfold Separated at hseparated
    split_ifs at hseparated ⊢ with hinside
    · exact ih hswept.tail (fun p hp y hy => hlast p hp y (mem_cons_of_mem x hy)) hseparated
    · obtain ⟨hstart, hrest⟩ := hseparated
      have hhead : ∀ p ∈ some x, ∀ y ∈ l, sweepOrder (range p) (range y) ≠ .gt := by
        intro p hp
        obtain rfl := mem_some_iff.mp hp
        exact (pairwise_cons.mp hswept.ordered).1
      obtain ⟨hafter, hpairwise⟩ := ih hswept.tail hhead hrest
      have hbehind : ∀ y ∈ outermost range (some x) l, (range x).Before (range y) :=
        hafter x (mem_some_iff.mpr rfl)
      refine ⟨fun p hp y hy => ?_, pairwise_cons.mpr ⟨hbehind, hpairwise⟩⟩
      have hbefore : (range p).Before (range x) := by
        rcases lt_or_of_sweepOrder (hlast p hp x mem_cons_self) with hlt | ⟨heq, _⟩
        · exact .inl hlt
        · exact .inr ⟨heq, hstart p hp heq⟩
      rcases mem_cons.mp hy with rfl | hy
      · exact hbefore
      · exact hbefore.trans (hswept.proper x mem_cons_self) (hbehind y hy)

/-- A taken item is the first one of its range. -/
lemma find?_outermost {last : Option α} (hswept : Swept range l)
    (hlast : ∀ p ∈ last, ∀ x ∈ l, sweepOrder (range p) (range x) ≠ .gt)
    (hseparated : Separated range last l) {y : α} (hy : y ∈ outermost range last l) :
    (l.find? fun x => range x = range y) = some y := by
  induction l generalizing last with
  | nil => cases hy
  | cons x l ih =>
    have hbehind := (pairwise_outermost hswept hlast hseparated).1
    have hpairwise := (pairwise_outermost hswept hlast hseparated).2
    have hproper : (range y).Proper := hswept.proper y (outermost_subset last _ hy)
    unfold outermost at hy hbehind hpairwise
    unfold Separated at hseparated
    split_ifs at hseparated hy hbehind hpairwise with hinside
    · obtain ⟨p, hp, hle⟩ := hinside
      have hne : range x ≠ range y := fun heq => (hbehind p hp y hy).not_le hproper (heq ▸ hle)
      rw [find?_cons_of_neg (by simpa using hne)]
      exact ih hswept.tail (fun p hp z hz => hlast p hp z (mem_cons_of_mem x hz)) hseparated hy
    · rcases mem_cons.mp hy with rfl | hrest
      · rw [find?_cons_of_pos (by simp)]
      · have hbefore : (range x).Before (range y) := (pairwise_cons.mp hpairwise).1 y hrest
        have hne : range x ≠ range y := fun heq => hbefore.not_le hproper heq.ge
        rw [find?_cons_of_neg (by simpa using hne)]
        refine ih hswept.tail ?_ hseparated.2 hrest
        intro p hp
        obtain rfl := mem_some_iff.mp hp
        exact (pairwise_cons.mp hswept.ordered).1

lemma outermost_perm_maximals (hswept : Swept range l) (hseparated : Separated range none l) :
    ((outermost range none l).map range).Perm (maximals (l.map range)) := by
  have hpairwise := (pairwise_outermost hswept (by simp) hseparated).2
  have hapart : ((outermost range none l).map range).Pairwise Range.Apart :=
    pairwise_map.mpr (hpairwise.imp Range.Before.apart)
  have hproper : ∀ x ∈ outermost range none l, (range x).Proper :=
    fun x hx => hswept.proper x (outermost_subset none l hx)
  have hnodup : ((outermost range none l).map range).Nodup := by
    refine pairwise_map.mpr (hpairwise.imp_of_mem fun {x y} _ hy hbefore heq => ?_)
    exact hbefore.not_le (hproper y hy) heq.ge
  -- Taken ranges of which one contains the other are the same.
  have hsame : ∀ x ∈ outermost range none l, ∀ y ∈ outermost range none l,
      range x ≤ range y → range x = range y := by
    intro x hx y hy hle
    by_contra hne
    have hdistinct : (range x).Apart (range y) :=
      hapart.forall (List.mem_map_of_mem hx) (List.mem_map_of_mem hy) hne
    exact hdistinct.not_le (hproper x hx) hle
  refine (perm_ext_iff_of_nodup hnodup (nodup_maximals _)).mpr fun r => ?_
  rw [mem_maximals, List.mem_map]
  constructor
  · rintro ⟨x, hx, rfl⟩
    refine ⟨List.mem_map_of_mem (outermost_subset none l hx), fun s hs hle => ?_⟩
    obtain ⟨z, hz, rfl⟩ := List.mem_map.mp hs
    have houter : ∃ y, (y ∈ none ∨ y ∈ outermost range none l) ∧ range z ≤ range y :=
      exists_outermost none hz
    obtain ⟨y, hy | hy, hzy⟩ := houter
    · cases hy
    · exact hzy.trans (hsame x hx y hy (hle.trans hzy)).ge
  · rintro ⟨hmem, hmax⟩
    obtain ⟨x, hx, rfl⟩ := List.mem_map.mp hmem
    have houter : ∃ y, (y ∈ none ∨ y ∈ outermost range none l) ∧ range x ≤ range y :=
      exists_outermost none hx
    obtain ⟨y, hy | hy, hxy⟩ := houter
    · cases hy
    · have hback := hmax (List.mem_map_of_mem (outermost_subset none l hy)) hxy
      exact ⟨y, hy, le_antisymm hback hxy⟩

/-- Items of the sweep with the same range are the same item. -/
lemma outermost_inj (hswept : Swept range l) (hseparated : Separated range none l) {y : α}
    (hx : x ∈ outermost range none l) (hy : y ∈ outermost range none l) (h : range x = range y) :
    x = y := by
  have hnodup : ((outermost range none l).map range).Nodup :=
    (outermost_perm_maximals hswept hseparated).nodup_iff.mpr (nodup_maximals _)
  exact inj_on_of_nodup_map hnodup hx hy h

lemma weightAt_outermost (weight : α → ℕ) (hswept : Swept range l)
    (hseparated : Separated range none l) (hx : x ∈ outermost range none l) :
    weightAt range weight l (range x) = weight x := by
  unfold weightAt
  rw [find?_outermost hswept (by simp) hseparated hx]
  rfl

/-- **The sweep finds the union**: the weight of what it takes is the weight of the maximal
ranges, each counted once. -/
lemma sum_outermost (weight : α → ℕ) (hswept : Swept range l)
    (hseparated : Separated range none l) :
    ((outermost range none l).map weight).sum = unionWeight range weight l := by
  have hweight : ∀ x ∈ outermost range none l, weight x = weightAt range weight l (range x) :=
    fun x hx => (weightAt_outermost weight hswept hseparated hx).symm
  calc ((outermost range none l).map weight).sum
      = ((outermost range none l).map (weightAt range weight l ∘ range)).sum :=
        congrArg List.sum (map_congr_left hweight)
    _ = (((outermost range none l).map range).map (weightAt range weight l)).sum := by
        rw [List.map_map]
    _ = unionWeight range weight l :=
        ((outermost_perm_maximals hswept hseparated).map _).sum_eq

lemma maximals_apart (hswept : Swept range l) (hseparated : Separated range none l) :
    (maximals (l.map range)).Pairwise Range.Apart := by
  have hpairwise := (pairwise_outermost hswept (by simp) hseparated).2
  refine (outermost_perm_maximals hswept hseparated).pairwise ?_ (fun h => Std.Symm.symm _ _ h)
  exact pairwise_map.mpr (hpairwise.imp Range.Before.apart)

end

end Laminar
