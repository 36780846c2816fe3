import Mathlib.Data.List.Nodup
import Mathlib.Logic.Function.Iterate

/-!
# Work lists

A work list takes an item, passes over it when it was seen before, and else sees it and puts what
follows from it on the list.  Over finitely many items it runs empty, cycles or not, and has then
seen what is reached from its start and nothing else.
-/

namespace Worklist

open List

variable {α : Type}

/-- The items to come, and the items taken, in this order. -/
structure Work (α : Type) where
  pending : List α
  seen : List α

/-- A list that is put together from two holds what they hold. -/
def Joins (join : List α → List α → List α) : Prop :=
  ∀ left right item, item ∈ join left right ↔ item ∈ left ∨ item ∈ right

/-- Take one item. -/
def step [DecidableEq α] (join : List α → List α → List α) (next : α → List α) (work : Work α) : Work α :=
  match work.pending with
  | [] => work
  | item :: rest =>
    if item ∈ work.seen then { work with pending := rest }
    else { pending := join rest (next item), seen := work.seen ++ [item] }

inductive Reached (start : List α) (next : α → List α) : α → Prop
  | start {item} : item ∈ start → Reached start next item
  | next {item other} : Reached start next item → other ∈ next item → Reached start next other

structure Sound (start : List α) (next : α → List α) (work : Work α) : Prop where
  nodup : work.seen.Nodup
  pending : ∀ item ∈ work.pending, Reached start next item
  seen : ∀ item ∈ work.seen, Reached start next item
  covers_start : ∀ item ∈ start, item ∈ work.seen ∨ item ∈ work.pending
  covers_next : ∀ item ∈ work.seen, ∀ other ∈ next item, other ∈ work.seen ∨ other ∈ work.pending

variable {join : List α → List α → List α} {start : List α} {next : α → List α}

lemma sound_start : Sound start next ⟨start, []⟩ where
  nodup := nodup_nil
  pending _ hitem := .start hitem
  seen _ hitem := nomatch hitem
  covers_start _ hitem := .inr hitem
  covers_next _ hitem := nomatch hitem

variable [DecidableEq α]

lemma covered_step (next : α → List α) (hjoin : Joins join) {work : Work α} {item : α}
    (h : item ∈ work.seen ∨ item ∈ work.pending) :
    item ∈ (step join next work).seen ∨ item ∈ (step join next work).pending := by
  obtain ⟨pending, seen⟩ := work
  cases pending with
  | nil => exact h
  | cons first rest =>
    simp only [mem_cons] at h
    simp only [step]
    split_ifs with hseen
    · rcases h with h | rfl | h
      · exact .inl h
      · exact .inl hseen
      · exact .inr h
    · rcases h with h | rfl | h
      · exact .inl (mem_append_left _ h)
      · exact .inl (mem_append_right _ (mem_singleton_self _))
      · exact .inr ((hjoin _ _ _).mpr (.inl h))

lemma sound_step (hjoin : Joins join) {work : Work α} (h : Sound start next work) :
    Sound start next (step join next work) := by
  obtain ⟨pending, seen⟩ := work
  cases pending with
  | nil => exact h
  | cons first rest =>
    have hfirst : Reached start next first := h.pending first mem_cons_self
    have hrest : ∀ item ∈ rest, Reached start next item :=
      fun item hitem => h.pending item (mem_cons_of_mem _ hitem)
    by_cases hseen : first ∈ seen
    · have hstep : step join next ⟨first :: rest, seen⟩ = ⟨rest, seen⟩ := by
        simp only [step, if_pos hseen]
      refine hstep ▸ ⟨h.nodup, hrest, h.seen, fun item hitem => ?_, fun item hitem other hother => ?_⟩
      · exact hstep ▸ covered_step next hjoin (h.covers_start item hitem)
      · exact hstep ▸ covered_step next hjoin (h.covers_next item hitem other hother)
    · have hstep : step join next ⟨first :: rest, seen⟩ =
          ⟨join rest (next first), seen ++ [first]⟩ := by
        simp only [step, if_neg hseen]
      refine hstep ▸ ⟨?_, fun item hitem => ?_, fun item hitem => ?_, fun item hitem => ?_,
        fun item hitem other hother => ?_⟩
      · exact nodup_append.mpr ⟨h.nodup, nodup_singleton _, fun item hitem other hother =>
          by rintro rfl; exact hseen (mem_singleton.mp hother ▸ hitem)⟩
      · rcases (hjoin _ _ _).mp hitem with hitem | hitem
        · exact hrest item hitem
        · exact .next hfirst hitem
      · rcases mem_append.mp hitem with hitem | hitem
        · exact h.seen item hitem
        · exact mem_singleton.mp hitem ▸ hfirst
      · exact hstep ▸ covered_step next hjoin (h.covers_start item hitem)
      · rcases mem_append.mp hitem with hitem | hitem
        · exact hstep ▸ covered_step next hjoin (h.covers_next item hitem other hother)
        · obtain rfl := mem_singleton.mp hitem
          exact .inr ((hjoin _ _ _).mpr (.inr hother))

lemma sound_iterate (start : List α) (next : α → List α) (hjoin : Joins join) (count : ℕ) :
    Sound start next ((step join next)^[count] ⟨start, []⟩) := by
  induction count with
  | zero => exact sound_start
  | succ count ih =>
    rw [Function.iterate_succ_apply']
    exact sound_step hjoin ih

/-- **An empty work list has seen what is reached.** -/
lemma mem_seen_iff (start : List α) (next : α → List α) (hjoin : Joins join) {count : ℕ}
    (hempty : ((step join next)^[count] ⟨start, []⟩).pending = []) {item : α} :
    item ∈ ((step join next)^[count] ⟨start, []⟩).seen ↔ Reached start next item := by
  have hsound := sound_iterate start next hjoin count
  refine ⟨hsound.seen item, fun hreached => ?_⟩
  induction hreached with
  | start hitem =>
    rcases hsound.covers_start _ hitem with h | h
    · exact h
    · exact absurd (hempty ▸ h) not_mem_nil
  | next _ hother ih =>
    rcases hsound.covers_next _ ih _ hother with h | h
    · exact h
    · exact absurd (hempty ▸ h) not_mem_nil

/-- **A work list over finitely many items runs empty.** -/
lemma exists_empty (items : List α) (next : α → List α)
    (hnext : ∀ item ∈ items, ∀ other ∈ next item, other ∈ items)
    (hjoin : Joins join) (work : Work α) (hpending : ∀ item ∈ work.pending, item ∈ items) :
    ∃ count, ((step join next)^[count] work).pending = [] := by
  obtain ⟨unseen, hunseen⟩ : ∃ unseen, unseen = (items.filter (· ∉ work.seen)).length := ⟨_, rfl⟩
  induction unseen using Nat.strongRecOn generalizing work with
  | ind unseen ih =>
    obtain ⟨pending, seen⟩ := work
    induction pending with
    | nil => exact ⟨0, rfl⟩
    | cons first rest ihrest =>
      have hrest : ∀ item ∈ rest, item ∈ items :=
        fun item hitem => hpending item (mem_cons_of_mem _ hitem)
      have hfirst : first ∈ items := hpending first mem_cons_self
      by_cases hseen : first ∈ seen
      · obtain ⟨count, hcount⟩ := ihrest hrest hunseen
        refine ⟨count + 1, ?_⟩
        rw [Function.iterate_succ_apply]
        simpa only [step, if_pos hseen] using hcount
      · have hfewer : (items.filter (· ∉ seen ++ [first])).length < unseen := by
          rw [hunseen]
          have hfilter : items.filter (· ∉ seen ++ [first]) =
              (items.filter (· ∉ seen)).filter (· ≠ first) := by
            simp [and_comm]
          rw [hfilter, length_filter_lt_length_iff_exists]
          exact ⟨first, mem_filter.mpr ⟨hfirst, by simpa using hseen⟩, by simp⟩
        obtain ⟨count, hcount⟩ := ih _ hfewer ⟨join rest (next first), seen ++ [first]⟩
          (fun item hitem => by
            rcases (hjoin _ _ _).mp hitem with hitem | hitem
            · exact hrest item hitem
            · exact hnext first hfirst item hitem) rfl
        refine ⟨count + 1, ?_⟩
        rw [Function.iterate_succ_apply]
        simpa only [step, if_neg hseen] using hcount

end Worklist
