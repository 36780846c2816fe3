import Mathlib.Data.Set.Card
import Reposcout.Framework.BreadthFirst

/-!
# Breadth-first search with a bound

A breadth-first search that stops at a depth and keeps at most so many vertices.  When it has kept
as many as it may, it does not stop: it goes on through its queue, and notes whether a vertex was
passed over.

What is kept is a ball around the start up to its last layer, which may be kept in part
(`Explored.near`), and a vertex was passed over exactly if one is missing
(`exploreBounded_cut_iff`).
-/

namespace BreadthFirst

open List

variable {V : Type}

/-- What a bounded search has kept, and whether it has passed a vertex over. -/
structure Kept (V : Type) where
  seen : List V
  cut : Bool
  deriving DecidableEq

section

variable [DecidableEq V]

/-- Pass one neighbour. -/
def offer (limit next : ℕ) (state : Kept V × List (V × ℕ)) (w : V) : Kept V × List (V × ℕ) :=
  if w ∈ state.1.seen then state
  else if limit ≤ state.1.seen.length then ({ state.1 with cut := true }, state.2)
  else ({ state.1 with seen := state.1.seen ++ [w] }, state.2 ++ [(w, next)])

/-- Visit a vertex at its distance. -/
def visitBounded (neighbours : V → List V) (depth limit : ℕ) (s : Kept V) (item : V × ℕ) :
    Kept V × List (V × ℕ) :=
  if depth ≤ item.2 then (s, [])
  else (neighbours item.1).foldl (offer limit (item.2 + 1)) (s, [])

/-- The bounded search, with the queue that is left after as many visits as vertices may be
kept. -/
def exploreBounded (neighbours : V → List V) (depth limit : ℕ) (start : V) :
    List (V × ℕ) × Kept V :=
  drain (visitBounded neighbours depth limit) limit [(start, 0)] ⟨[start], false⟩

end

/-! ## Distances from one vertex -/

variable {neighbours : V → List V} {depth limit : ℕ} {start : V}

/-- There is a walk of `n` steps from the start to the vertex. -/
abbrev Walks (neighbours : V → List V) (start : V) (n : ℕ) (v : V) : Prop :=
  ReachIn (fun v w => w ∈ neighbours v) (· = start) n v

/-- The distance of the vertex from the start is `n`. -/
abbrev AtDistance (neighbours : V → List V) (start : V) (n : ℕ) (v : V) : Prop :=
  Shortest (fun v w => w ∈ neighbours v) (· = start) n v

/-- The vertices within a depth. -/
def ball (neighbours : V → List V) (start : V) (depth : ℕ) : Set V :=
  {v | ∃ n ≤ depth, Walks neighbours start n v}

/-- What holds of the vertices kept so far. -/
structure Explored (neighbours : V → List V) (depth limit : ℕ) (start : V) (s : Kept V) :
    Prop where
  nodup : s.seen.Nodup
  start_mem : start ∈ s.seen
  bounded : s.seen.length ≤ limit
  inside : ∀ v ∈ s.seen, ∃ n ≤ depth, AtDistance neighbours start n v
  near : ∀ v ∈ s.seen, ∀ n, AtDistance neighbours start (n + 1) v →
    ∀ w m, m ≤ n → Walks neighbours start m w → w ∈ s.seen
  full : s.cut = true → s.seen.length = limit ∧ ∃ w ∈ ball neighbours start depth, w ∉ s.seen

/-- The state of a bounded search between two visits. -/
structure BoundedFrontier (neighbours : V → List V) (depth limit : ℕ) (start : V) (s : Kept V)
    (queue : List (V × ℕ)) : Prop where
  explored : Explored neighbours depth limit start s
  queued : ∀ item ∈ queue, item.1 ∈ s.seen ∧ AtDistance neighbours start item.2 item.1
  sorted : queue.Pairwise fun item item' => item.2 ≤ item'.2
  ahead : ∀ item, queue.head? = some item → ∀ v ∈ s.seen, ∀ n,
    AtDistance neighbours start n v → n ≤ item.2 + 1
  done : ∀ v ∈ s.seen, ∀ n, AtDistance neighbours start n v → n < depth → (v, n) ∉ queue →
    ∀ w ∈ neighbours v, w ∈ s.seen ∨ s.cut = true

/-! ## One visit -/

/-- What passing some neighbours of a vertex at distance `d` does. -/
structure Offered (neighbours : V → List V) (depth limit : ℕ) (start : V) (d : ℕ) (s s' : Kept V)
    (fresh : List (V × ℕ)) : Prop where
  explored : Explored neighbours depth limit start s'
  grows : s'.seen = s.seen ++ fresh.map Prod.fst
  cut : s.cut = true → s'.cut = true
  fresh : ∀ item ∈ fresh, item.2 = d + 1 ∧ AtDistance neighbours start (d + 1) item.1

/-- Every vertex within the distance is kept, unless there is no room for another. -/
def Covers (neighbours : V → List V) (limit : ℕ) (start : V) (d : ℕ) (s : Kept V) : Prop :=
  s.seen.length < limit → ∀ w m, m ≤ d → Walks neighbours start m w → w ∈ s.seen

variable {d : ℕ}

lemma Covers.offered {s s' : Kept V} {fresh : List (V × ℕ)}
    (h : Covers neighbours limit start d s)
    (hoffered : Offered neighbours depth limit start d s s' fresh) :
    Covers neighbours limit start d s' := by
  intro hlt w m hm hw
  rw [hoffered.grows, length_append] at hlt
  rw [hoffered.grows]
  exact mem_append_left _ (h (by omega) w m hm hw)

lemma offered_offer [DecidableEq V] {s : Kept V} {pushed : List (V × ℕ)} {v w : V}
    (hs : Explored neighbours depth limit start s) (hcovers : Covers neighbours limit start d s)
    (hv : AtDistance neighbours start d v) (hd : d < depth) (hw : w ∈ neighbours v) :
    ∃ s' fresh, offer limit (d + 1) (s, pushed) w = (s', pushed ++ fresh) ∧
      Offered neighbours depth limit start d s s' fresh ∧ (w ∈ s'.seen ∨ s'.cut = true) := by
  have hwalk : Walks neighbours start (d + 1) w := hv.1.tail hw
  by_cases hmem : w ∈ s.seen
  · refine ⟨s, [], ?_, ⟨hs, ?_, id, ?_⟩, .inl hmem⟩
    · rw [offer, if_pos hmem, append_nil]
    · rw [map_nil, append_nil]
    · exact nofun
  by_cases hfull : limit ≤ s.seen.length
  · refine ⟨{ s with cut := true }, [], ?_, ⟨⟨hs.nodup, hs.start_mem, hs.bounded, hs.inside,
      hs.near, fun _ => ?_⟩, ?_, fun _ => rfl, ?_⟩, .inr rfl⟩
    · rw [offer, if_neg hmem, if_pos hfull, append_nil]
    · exact ⟨Nat.le_antisymm hs.bounded hfull, w, ⟨d + 1, hd, hwalk⟩, hmem⟩
    · rw [map_nil, append_nil]
    · exact nofun
  · rw [not_le] at hfull
    have hclosed := hcovers hfull
    have hdistance : AtDistance neighbours start (d + 1) w := by
      refine ⟨hwalk, fun m hm => ?_⟩
      by_contra hlt
      exact hmem (hclosed w m (by omega) hm)
    refine ⟨{ s with seen := s.seen ++ [w] }, [(w, d + 1)], ?_,
      ⟨⟨?_, ?_, ?_, ?_, ?_, ?_⟩, rfl, id, ?_⟩,
      Or.inl (mem_append_right _ (mem_singleton_self w))⟩
    · rw [offer, if_neg hmem, if_neg (Nat.not_le.mpr hfull)]
    · exact nodup_append.mpr ⟨hs.nodup, nodup_singleton w, fun x hx y hy hxy =>
        hmem (mem_singleton.mp hy ▸ hxy ▸ hx)⟩
    · exact mem_append_left _ hs.start_mem
    · rw [length_append, length_singleton]
      exact hfull
    · intro x hx
      rcases mem_append.mp hx with hx | hx
      · exact hs.inside x hx
      · rw [mem_singleton.mp hx]
        exact ⟨d + 1, hd, hdistance⟩
    · intro x hx n hn y m hm hy
      refine mem_append_left _ ?_
      rcases mem_append.mp hx with hx | hx
      · exact hs.near x hx n hn y m hm hy
      · rw [mem_singleton.mp hx] at hn
        exact hclosed y m (hm.trans (by have := hn.unique hdistance; omega)) hy
    · -- With room for another vertex nothing has been passed over yet.
      intro hcut
      exact absurd (hs.full hcut).1 (Nat.ne_of_lt hfull)
    · intro item hitem
      rw [mem_singleton.mp hitem]
      exact ⟨rfl, hdistance⟩

lemma Offered.refl {s : Kept V} (hs : Explored neighbours depth limit start s) :
    Offered neighbours depth limit start d s s [] where
  explored := hs
  grows := (append_nil _).symm
  cut := id
  fresh _ h := nomatch h

lemma Offered.trans {s s' s'' : Kept V} {fresh fresh' : List (V × ℕ)}
    (h : Offered neighbours depth limit start d s s' fresh)
    (h' : Offered neighbours depth limit start d s' s'' fresh') :
    Offered neighbours depth limit start d s s'' (fresh ++ fresh') where
  explored := h'.explored
  grows := by rw [h'.grows, h.grows, map_append, append_assoc]
  cut := h'.cut ∘ h.cut
  fresh item hitem := (mem_append.mp hitem).elim (h.fresh item) (h'.fresh item)

/-- Passing some neighbours keeps each of them, or passes one over. -/
lemma offered_foldl [DecidableEq V] {d : ℕ} {s : Kept V} {pushed : List (V × ℕ)} {v : V}
    {l : List V} (hs : Explored neighbours depth limit start s)
    (hcovers : Covers neighbours limit start d s) (hv : AtDistance neighbours start d v)
    (hd : d < depth) (hl : ∀ w ∈ l, w ∈ neighbours v) :
    ∃ s' fresh, l.foldl (offer limit (d + 1)) (s, pushed) = (s', pushed ++ fresh) ∧
      Offered neighbours depth limit start d s s' fresh ∧
      ∀ w ∈ l, w ∈ s'.seen ∨ s'.cut = true := by
  induction l generalizing s pushed with
  | nil =>
    refine ⟨s, [], ?_, .refl hs, nofun⟩
    rw [foldl_nil, append_nil]
  | cons w rest ih =>
    obtain ⟨s₁, fresh₁, heq₁, hoffered₁, hw₁⟩ :=
      offered_offer hs hcovers hv hd (hl w mem_cons_self)
    obtain ⟨s₂, fresh₂, heq₂, hoffered₂, hrest⟩ := ih hoffered₁.explored (hcovers.offered hoffered₁)
      fun x hx => hl x (mem_cons_of_mem w hx)
    refine ⟨s₂, fresh₁ ++ fresh₂, ?_, hoffered₁.trans hoffered₂, fun x hx => ?_⟩
    · rw [foldl_cons, heq₁, heq₂, append_assoc]
    · rcases mem_cons.mp hx with rfl | hx
      · rw [hoffered₂.grows]
        exact hw₁.imp (mem_append_left _) hoffered₂.cut
      · exact hrest x hx

variable {queue : List (V × ℕ)}

/-- The queue is ahead of everything within the distance of its first vertex. -/
lemma BoundedFrontier.covers {s : Kept V} {v : V}
    (h : BoundedFrontier neighbours depth limit start s ((v, d) :: queue)) :
    Covers neighbours limit start d s := by
  intro hroom w m
  induction m generalizing w with
  | zero =>
    rintro - ⟨rfl⟩
    exact h.explored.start_mem
  | succ m ih =>
    rintro hm ⟨⟩
    next u hu hstep =>
      have hmem := ih u (by omega) hu
      obtain ⟨n, hn, hdistance⟩ := hu.exists_shortest
      obtain ⟨hhead, -⟩ := h.queued _ mem_cons_self
      have hdepth : d ≤ depth := by
        obtain ⟨k, hk, hk'⟩ := h.explored.inside v hhead
        have heq : k = d := hk'.unique (h.queued _ mem_cons_self).2
        exact heq ▸ hk
      have hgone : (u, n) ∉ (v, d) :: queue := by
        intro hin
        have hle : d ≤ n := by
          rcases mem_cons.mp hin with heq | hin
          · exact Nat.le_of_eq (Prod.mk.inj heq).2.symm
          · exact rel_of_pairwise_cons h.sorted hin
        omega
      refine (h.done u hmem n hdistance (by omega) hgone w hstep).resolve_right fun hcut => ?_
      exact absurd (h.explored.full hcut).1 (Nat.ne_of_lt hroom)

/-- A visit keeps the state of the search, and pushes what it keeps. -/
lemma boundedFrontier_visit [DecidableEq V] {s : Kept V} {item : V × ℕ}
    (h : BoundedFrontier neighbours depth limit start s (item :: queue)) :
    ∃ s' fresh, visitBounded neighbours depth limit s item = (s', fresh) ∧
      BoundedFrontier neighbours depth limit start s' (queue ++ fresh) ∧
      s'.seen.length = s.seen.length + fresh.length := by
  obtain ⟨v, d⟩ := item
  obtain ⟨hmem, hdistance⟩ := h.queued _ mem_cons_self
  have htail : ∀ item ∈ queue, d ≤ item.2 := fun item => rel_of_pairwise_cons h.sorted
  have hahead := h.ahead _ rfl
  by_cases hdeep : depth ≤ d
  · refine ⟨s, [], if_pos hdeep, ⟨h.explored, fun x hx => h.queued x ?_, ?_, ?_, ?_⟩, rfl⟩
    · exact mem_cons_of_mem _ (append_nil queue ▸ hx)
    · rw [append_nil]
      exact h.sorted.of_cons
    · intro x hx y hy n hn
      rw [append_nil] at hx
      exact (hahead y hy n hn).trans (Nat.succ_le_succ (htail x (mem_of_mem_head? hx)))
    · intro x hx n hn hlt hgone
      refine h.done x hx n hn hlt fun hin => ?_
      rcases mem_cons.mp hin with heq | hin
      · have := (Prod.mk.inj heq).2
        omega
      · exact hgone (mem_append_left [] hin)
  · obtain ⟨s', fresh, heq, hoffered, hpassed⟩ := @offered_foldl V neighbours depth limit start _
      d s [] v (neighbours v) h.explored h.covers hdistance (by omega) fun _ hw => hw
    have hseen : ∀ x, x ∈ s'.seen ↔ x ∈ s.seen ∨ ∃ item ∈ fresh, item.1 = x := by
      intro x
      rw [hoffered.grows, mem_append, List.mem_map]
    refine ⟨s', fresh, (if_neg hdeep).trans heq, ⟨hoffered.explored, ?_, ?_, ?_, ?_⟩, ?_⟩
    · intro x hx
      rcases mem_append.mp hx with hx | hx
      · obtain ⟨hx₁, hx₂⟩ := h.queued x (mem_cons_of_mem _ hx)
        exact ⟨(hseen _).mpr (.inl hx₁), hx₂⟩
      · obtain ⟨hx₁, hx₂⟩ := hoffered.fresh x hx
        exact ⟨(hseen _).mpr (.inr ⟨x, hx, rfl⟩), hx₁ ▸ hx₂⟩
    · refine pairwise_append.mpr ⟨h.sorted.of_cons, ?_, fun x hx y hy => ?_⟩
      · exact pairwise_of_forall_mem_list fun x hx y hy =>
          Nat.le_of_eq ((hoffered.fresh x hx).1.trans (hoffered.fresh y hy).1.symm)
      · obtain ⟨hx₁, hx₂⟩ := h.queued x (mem_cons_of_mem _ hx)
        rw [(hoffered.fresh y hy).1]
        exact hahead x.1 hx₁ x.2 hx₂
    · intro x hx y hy n hn
      have hx' : d ≤ x.2 := by
        rcases mem_append.mp (mem_of_mem_head? hx) with hx | hx
        · exact htail x hx
        · exact (hoffered.fresh x hx).1 ▸ Nat.le_succ d
      rcases (hseen y).mp hy with hy | ⟨item, hitem, rfl⟩
      · exact (hahead y hy n hn).trans (Nat.succ_le_succ hx')
      · rw [hn.unique (hoffered.fresh item hitem).2]
        exact Nat.succ_le_succ hx'
    · intro x hx n hn hlt hgone w hw
      rcases (hseen x).mp hx with hx | ⟨item, hitem, rfl⟩
      · by_cases hvisited : (x, n) = (v, d)
        · cases hvisited
          exact hpassed w hw
        · refine (h.done x hx n hn hlt (fun hin => ?_) w hw).imp
            (fun hw => (hseen w).mpr (.inl hw)) hoffered.cut
          exact hgone (mem_append_left _ ((mem_cons.mp hin).resolve_left hvisited))
      · obtain ⟨hitem₁, hitem₂⟩ := hoffered.fresh item hitem
        refine absurd (mem_append_right _ ?_) hgone
        rw [hn.unique hitem₂, ← hitem₁]
        exact hitem
    · rw [hoffered.grows, length_append, length_map]

/-! ## The search -/

lemma boundedFrontier_start (hlimit : 1 ≤ limit) :
    BoundedFrontier neighbours depth limit start ⟨[start], false⟩ [(start, 0)] := by
  have hzero : AtDistance neighbours start 0 start := shortest_zero_iff.mpr rfl
  refine ⟨⟨nodup_singleton start, mem_singleton_self start, hlimit, ?_, ?_, ?_⟩, ?_, ?_, ?_, ?_⟩
  · intro v hv
    rw [mem_singleton.mp hv]
    exact ⟨0, Nat.zero_le depth, hzero⟩
  · intro v hv n hn
    rw [mem_singleton.mp hv] at hn
    exact absurd (hn.unique hzero) (Nat.succ_ne_zero n)
  · exact fun h => nomatch h
  · intro item hitem
    rw [mem_singleton.mp hitem]
    exact ⟨mem_singleton_self start, hzero⟩
  · exact pairwise_singleton _ _
  · intro item _ v hv n hn
    rw [mem_singleton.mp hv] at hn
    rw [hn.unique hzero]
    exact Nat.zero_le _
  · intro v hv n hn _ hgone
    rw [mem_singleton.mp hv] at hn hgone
    rw [hn.unique hzero] at hgone
    exact absurd (mem_singleton_self _) hgone

/-- The search empties its queue, whatever room is left for vertices. -/
lemma boundedFrontier_drain [DecidableEq V] {fuel : ℕ} {s : Kept V}
    (h : BoundedFrontier neighbours depth limit start s queue)
    (hfuel : queue.length + (limit - s.seen.length) ≤ fuel) :
    ∃ s', drain (visitBounded neighbours depth limit) fuel queue s = ([], s') ∧
      BoundedFrontier neighbours depth limit start s' [] := by
  induction fuel generalizing s queue with
  | zero =>
    have hnil : queue = [] := eq_nil_of_length_eq_zero (by omega)
    subst hnil
    exact ⟨s, rfl, h⟩
  | succ fuel ih =>
    cases queue with
    | nil => exact ⟨s, rfl, h⟩
    | cons item queue =>
      obtain ⟨s', fresh, heq, h', hlength⟩ := boundedFrontier_visit h
      have hbounded := h'.explored.bounded
      rw [drain, heq]
      refine ih h' ?_
      show (queue ++ fresh).length + (limit - s'.seen.length) ≤ fuel
      rw [length_cons] at hfuel
      rw [length_append]
      omega

/-- The search ends with an empty queue. -/
lemma exploreBounded_spec [DecidableEq V] (neighbours : V → List V) (depth : ℕ) (start : V)
    (hlimit : 1 ≤ limit) :
    ∃ s, exploreBounded neighbours depth limit start = ([], s) ∧
      BoundedFrontier neighbours depth limit start s [] :=
  boundedFrontier_drain (boundedFrontier_start hlimit) (by
    rw [length_singleton, length_singleton]
    omega)

section

variable {s : Kept V} {v : V}
variable (h : BoundedFrontier neighbours depth limit start s [])

include h

lemma BoundedFrontier.mem_ball
    (hv : v ∈ s.seen) : v ∈ ball neighbours start depth := by
  obtain ⟨n, hn, hdistance⟩ := h.explored.inside v hv
  exact ⟨n, hn, hdistance.1⟩

/-- A search that has passed nothing over has everything within the depth. -/
lemma BoundedFrontier.mem_of_mem_ball
    (hcut : s.cut = false) (hv : v ∈ ball neighbours start depth) : v ∈ s.seen := by
  obtain ⟨n, hn, hwalk⟩ := hv
  induction n generalizing v with
  | zero =>
    obtain ⟨rfl⟩ := hwalk
    exact h.explored.start_mem
  | succ n ih =>
    obtain _ | ⟨hu, hstep⟩ := hwalk
    next u =>
      have hmem := ih (Nat.le_of_succ_le hn) hu
      obtain ⟨m, hm, hdistance⟩ := hu.exists_shortest
      refine (h.done u hmem m hdistance (by omega) not_mem_nil v hstep).resolve_right ?_
      rw [hcut]
      exact Bool.false_ne_true

/-- A vertex was passed over exactly if one within the depth is missing. -/
lemma BoundedFrontier.cut_iff :
    s.cut = true ↔ ∃ v ∈ ball neighbours start depth, v ∉ s.seen := by
  constructor
  · exact fun hcut => (h.explored.full hcut).2
  · rintro ⟨v, hv, hnot⟩
    by_contra hcut
    exact hnot (h.mem_of_mem_ball (Bool.eq_false_of_not_eq_true hcut) hv)

/-- No missing vertex is nearer than a kept one. -/
lemma BoundedFrontier.distance_le
    {w : V} (hv : v ∈ s.seen) (hw : w ∉ s.seen) {n m : ℕ} (hn : AtDistance neighbours start n v)
    (hm : AtDistance neighbours start m w) : n ≤ m := by
  by_contra hlt
  obtain ⟨k, rfl⟩ := Nat.exists_eq_succ_of_ne_zero (show n ≠ 0 by omega)
  exact hw (h.explored.near v hv k hn w m (by omega) hm.1)

lemma BoundedFrontier.encard :
    Set.encard {v | v ∈ s.seen} = s.seen.length := by
  classical
  rw [← coe_toFinset, Set.encard_coe_eq_coe_finsetCard, toFinset_card_of_nodup
    h.explored.nodup]

/-- Everything is kept if there is room for it. -/
lemma BoundedFrontier.eq_ball (hroom : (ball neighbours start depth).encard ≤ limit) :
    {v | v ∈ s.seen} = ball neighbours start depth := by
  have hsub : {v | v ∈ s.seen} ⊆ ball neighbours start depth := fun v hv => h.mem_ball hv
  refine Set.Subset.antisymm hsub fun v hv => ?_
  by_contra hnot
  have hcut := h.cut_iff.mpr ⟨v, hv, hnot⟩
  have hlength := (h.explored.full hcut).1
  have hinsert : insert v {v | v ∈ s.seen} ⊆ ball neighbours start depth :=
    Set.insert_subset hv hsub
  have hcard := Set.encard_le_encard hinsert
  rw [Set.encard_insert_of_notMem hnot, h.encard, hlength] at hcard
  have hle : ((limit + 1 : ℕ) : ℕ∞) ≤ (limit : ℕ) := by
    exact hcard.trans hroom
  exact absurd (Nat.cast_le.mp hle) (Nat.not_succ_le_self limit)

/-- As many vertices are kept as may be, if there is no room for all. -/
lemma BoundedFrontier.length_eq
    (hroom : limit < (ball neighbours start depth).encard) : s.seen.length = limit := by
  refine (h.explored.full (h.cut_iff.mpr ?_)).1
  by_contra hall
  push Not at hall
  have hsub : ball neighbours start depth ⊆ {v | v ∈ s.seen} := hall
  have hcard := hroom.trans_le (Set.encard_le_encard hsub)
  rw [h.encard] at hcard
  exact absurd (Nat.cast_lt.mp hcard) (Nat.not_lt.mpr h.explored.bounded)

end

end BreadthFirst
