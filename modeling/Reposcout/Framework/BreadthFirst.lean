import Mathlib.Data.List.Count
import Mathlib.Data.List.Nodup
import Mathlib.Data.List.Perm.Basic
import Mathlib.Data.Nat.Find

/-!
# Breadth-first search

The first half is about walks in a directed graph given by its steps: a vertex is reached in
`n` steps from a start, its shortest distance is the least such `n`, and both are kept by a
correspondence of two graphs.

The second half is about loops.  `drain` is a work list: the first vertex is taken from a queue,
visited, and what the visit pushes goes to the end of the queue.  A loop may keep its distances
in any kind of state.  If its visits discover the unknown successors of a vertex at the next
distance (`Explores`), then it empties its queue within as many visits as there are vertices, and
its distances are the shortest ones (`drain_shortest`).
-/

namespace BreadthFirst

open List Option

variable {V W : Type}

/-! ## Walks and shortest distances -/

/-- The vertex ends a walk of `n` steps from a start. -/
inductive ReachIn (step : V → V → Prop) (start : V → Prop) : ℕ → V → Prop where
  | refl {v : V} (h : start v) : ReachIn step start 0 v
  | tail {n : ℕ} {v w : V} (h : ReachIn step start n v) (hstep : step v w) :
      ReachIn step start (n + 1) w

/-- The shortest walk from a start to the vertex has `n` steps. -/
def Shortest (step : V → V → Prop) (start : V → Prop) (n : ℕ) (v : V) : Prop :=
  ReachIn step start n v ∧ ∀ m, ReachIn step start m v → n ≤ m

variable {step : V → V → Prop} {start : V → Prop}

lemma Shortest.unique {n m : ℕ} {v : V} (hn : Shortest step start n v)
    (hm : Shortest step start m v) : n = m :=
  Nat.le_antisymm (hn.2 m hm.1) (hm.2 n hn.1)

lemma ReachIn.exists_shortest {n : ℕ} {v : V}
    (h : ReachIn step start n v) : ∃ m ≤ n, Shortest step start m v := by
  classical
  have hex : ∃ m, ReachIn step start m v := ⟨n, h⟩
  exact ⟨Nat.find hex, Nat.find_le h, Nat.find_spec hex, fun m hm => Nat.find_le hm⟩

lemma shortest_zero_iff {v : V} : Shortest step start 0 v ↔ start v := by
  constructor
  · rintro ⟨⟨h⟩, _⟩
    exact h
  · intro h
    exact ⟨.refl h, fun m _ => Nat.zero_le m⟩

/-- A relation between the vertices of two graphs under which walks correspond. -/
structure Matches (step : V → V → Prop) (start : V → Prop) (step' : W → W → Prop)
    (start' : W → Prop) (R : V → W → Prop) : Prop where
  start_forth : ∀ v, start v → ∃ w, R v w ∧ start' w
  start_back : ∀ w, start' w → ∃ v, R v w ∧ start v
  step_forth : ∀ v w v', R v w → step v v' → ∃ w', R v' w' ∧ step' w w'
  step_back : ∀ v w w', R v w → step' w w' → ∃ v', R v' w' ∧ step v v'
  right_unique : ∀ v w w', R v w → R v w' → w = w'
  left_unique : ∀ v v' w, R v w → R v' w → v = v'

section

variable {step' : W → W → Prop} {start' : W → Prop} {R : V → W → Prop}
variable (h : Matches step start step' start' R)

include h

lemma Matches.symm : Matches step' start' step start (fun w v => R v w) where
  start_forth := h.start_back
  start_back := h.start_forth
  step_forth := fun w v w' hR hstep => h.step_back v w w' hR hstep
  step_back := fun w v v' hR hstep => h.step_forth v w v' hR hstep
  right_unique := fun w v v' hv hv' => h.left_unique v v' w hv hv'
  left_unique := fun w w' v hw hw' => h.right_unique v w w' hw hw'

variable {n : ℕ}

lemma Matches.reachIn {v : V} (hv : ReachIn step start n v) :
    ∃ w, R v w ∧ ReachIn step' start' n w := by
  induction hv with
  | refl hstart =>
    obtain ⟨w, hR, hw⟩ := h.start_forth _ hstart
    exact ⟨w, hR, .refl hw⟩
  | tail _ hstep ih =>
    obtain ⟨w, hR, hw⟩ := ih
    obtain ⟨w', hR', hstep'⟩ := h.step_forth _ w _ hR hstep
    exact ⟨w', hR', hw.tail hstep'⟩

variable {w : W}

lemma Matches.reachIn_iff {v : V} (hR : R v w) :
    ReachIn step start n v ↔ ReachIn step' start' n w := by
  constructor
  · intro hv
    obtain ⟨w', hR', hw'⟩ := h.reachIn hv
    rw [h.right_unique v w w' hR hR']
    exact hw'
  · intro hw
    obtain ⟨v', hR', hv'⟩ := h.symm.reachIn hw
    rw [h.left_unique v v' w hR hR']
    exact hv'

/-- Corresponding vertices have the same shortest distance. -/
lemma Matches.shortest_iff {v : V} (hR : R v w) :
    Shortest step start n v ↔ Shortest step' start' n w := by
  unfold Shortest
  rw [h.reachIn_iff hR]
  refine and_congr_right fun _ => forall_congr' fun m => ?_
  rw [h.reachIn_iff hR]

/-- Vertices with a shortest distance have a counterpart. -/
lemma Matches.exists_of_shortest (hw : Shortest step' start' n w) :
    ∃ v, R v w ∧ Shortest step start n v := by
  obtain ⟨v, hR, _⟩ := h.symm.reachIn hw.1
  exact ⟨v, hR, (h.shortest_iff hR).mpr hw⟩

end

/-! ## Visits -/

variable {σ : Type}

/-- Visit the vertices of a queue, in order, until it is empty. -/
def drain (visit : σ → V → σ × List V) : ℕ → List V → σ → List V × σ
  | 0, queue, s => (queue, s)
  | _ + 1, [], s => ([], s)
  | fuel + 1, v :: queue, s => drain visit fuel (queue ++ (visit s v).2) (visit s v).1

/-- What a visit of `v` at distance `d` does to the distances: its unknown successors, which are
pushed, get the next distance. -/
structure Discovers (step : V → V → Prop) (v : V) (d : ℕ) (old new : V → Option ℕ)
    (pushed : List V) : Prop where
  nodup : pushed.Nodup
  mem_iff : ∀ w, w ∈ pushed ↔ step v w ∧ old w = none
  discovered : ∀ w ∈ pushed, new w = some (d + 1)
  kept : ∀ w, w ∉ pushed → new w = old w

section

variable {v : V} {d : ℕ} {old new : V → Option ℕ} {pushed : List V} {w : V}
variable (h : Discovers step v d old new pushed)

include h

lemma Discovers.known {k : ℕ} (hw : old w = some k) : new w = some k := by
  have hnot : w ∉ pushed := by
    intro hmem
    have hnone := ((h.mem_iff w).mp hmem).2
    rw [hw] at hnone
    exact absurd hnone (some_ne_none k)
  rw [h.kept w hnot, hw]

lemma Discovers.cases {k : ℕ} (hw : new w = some k) : old w = some k ∨ w ∈ pushed ∧ k = d + 1 := by
  by_cases hmem : w ∈ pushed
  · have hnew := h.discovered w hmem
    rw [hw] at hnew
    exact .inr ⟨hmem, some.inj hnew⟩
  · rw [h.kept w hmem] at hw
    exact .inl hw

/-- After the visit every successor is known. -/
lemma Discovers.successor (hbound : ∀ w k, old w = some k → k ≤ d + 1) (hstep : step v w) :
    ∃ k, new w = some k ∧ k ≤ d + 1 := by
  cases hold : old w with
  | none => exact ⟨d + 1, h.discovered w ((h.mem_iff w).mpr ⟨hstep, hold⟩), le_refl _⟩
  | some k => exact ⟨k, h.known hold, hbound w k hold⟩

end

section

variable [DecidableEq V] {I : σ → Prop} {dist : σ → V → Option ℕ}

/-- Passing one neighbour: an unknown one is pushed at the given distance, a known one that is
not farther is left alone. -/
structure Relaxes (I : σ → Prop) (dist : σ → V → Option ℕ) (next : ℕ) (neighbours : List V)
    (relax : σ × List V → V → σ × List V) : Prop where
  unknown : ∀ s queue w, I s → w ∈ neighbours → dist s w = none →
    (relax (s, queue) w).2 = queue ++ [w] ∧ I (relax (s, queue) w).1 ∧
    ∀ x, dist (relax (s, queue) w).1 x = if x = w then some next else dist s x
  known : ∀ s queue w k, dist s w = some k → k ≤ next → relax (s, queue) w = (s, queue)

variable {relax : σ × List V → V → σ × List V}

/-- Passing some neighbours pushes the unknown ones. -/
lemma foldl_relaxes {next : ℕ} {neighbours : List V}
    (h : Relaxes I dist next neighbours relax) {l : List V} (hl : ∀ w ∈ l, w ∈ neighbours)
    {s : σ} {queue : List V} (hI : I s) (hbound : ∀ w k, dist s w = some k → k ≤ next) :
    I (l.foldl relax (s, queue)).1 ∧ ∃ fresh, (l.foldl relax (s, queue)).2 = queue ++ fresh ∧
      fresh.Nodup ∧ (∀ w, w ∈ fresh ↔ w ∈ l ∧ dist s w = none) ∧
      (∀ w ∈ fresh, dist (l.foldl relax (s, queue)).1 w = some next) ∧
      (∀ w, w ∉ fresh → dist (l.foldl relax (s, queue)).1 w = dist s w) := by
  induction l generalizing s queue with
  | nil =>
    exact ⟨hI, [], (append_nil queue).symm, nodup_nil, by simp, by simp, fun _ _ => rfl⟩
  | cons w rest ih =>
    have hrest : ∀ x ∈ rest, x ∈ neighbours := fun x hx => hl x (mem_cons_of_mem w hx)
    rw [foldl_cons]
    cases hw : dist s w with
    | some k =>
      rw [h.known s queue w k hw (hbound w k hw)]
      obtain ⟨hI', fresh, hqueue, hnodup, hmem, hnew, hold⟩ := ih hrest hI hbound
      refine ⟨hI', fresh, hqueue, hnodup, fun x => ?_, hnew, hold⟩
      rw [hmem, mem_cons]
      constructor
      · exact fun hx => ⟨.inr hx.1, hx.2⟩
      · rintro ⟨rfl | hx, hnone⟩
        · rw [hw] at hnone
          exact absurd hnone (some_ne_none k)
        · exact ⟨hx, hnone⟩
    | none =>
      obtain ⟨hpush, hI₁, hdist⟩ := h.unknown s queue w hI (hl w mem_cons_self) hw
      rcases hrelax : relax (s, queue) w with ⟨s₁, queue₁⟩
      rw [hrelax] at hpush hI₁ hdist
      dsimp only at hpush hI₁ hdist
      have hbound₁ : ∀ x k, dist s₁ x = some k → k ≤ next := by
        intro x k hx
        rw [hdist] at hx
        split_ifs at hx with heq
        · exact Nat.le_of_eq (some.inj hx).symm
        · exact hbound x k hx
      obtain ⟨hI', fresh, hqueue, hnodup, hmem, hnew, hold⟩ := ih hrest hI₁ hbound₁
      have hwfresh : w ∉ fresh := by
        rw [hmem, hdist, if_pos rfl]
        exact fun hw => some_ne_none _ hw.2
      refine ⟨hI', w :: fresh, ?_, nodup_cons.mpr ⟨hwfresh, hnodup⟩, fun x => ?_, ?_, ?_⟩
      · rw [hqueue, hpush, append_assoc, singleton_append]
      · rw [mem_cons, hmem, hdist, mem_cons]
        by_cases hx : x = w
        · simp [hx, hw]
        · simp [hx]
      · intro x hx
        rcases mem_cons.mp hx with rfl | hx
        · rw [hold x hwfresh, hdist, if_pos rfl]
        · exact hnew x hx
      · intro x hx
        rw [mem_cons, not_or] at hx
        rw [hold x hx.2, hdist, if_neg hx.1]

/-- A visit that passes the successors one after the other discovers them. -/
lemma discovers_foldl {v : V} {d : ℕ} {successors : List V}
    (hsuccessors : ∀ w, w ∈ successors ↔ step v w)
    (h : Relaxes I dist (d + 1) successors relax) {s : σ} (hI : I s)
    (hbound : ∀ w k, dist s w = some k → k ≤ d + 1) :
    Discovers step v d (dist s) (dist (successors.foldl relax (s, [])).1)
      (successors.foldl relax (s, [])).2 ∧ I (successors.foldl relax (s, [])).1 := by
  obtain ⟨hI', fresh, hqueue, hnodup, hmem, hnew, hold⟩ :=
    foldl_relaxes h (fun _ hw => hw) hI hbound
  rw [hqueue]
  have hmem' : ∀ w, w ∈ fresh ↔ step v w ∧ dist s w = none := by
    intro w
    rw [hmem, hsuccessors]
  exact ⟨⟨hnodup, hmem', hnew, hold⟩, hI'⟩

end

/-! ## The search -/

/-- The visits of a loop discover what they should, as long as the loop is at one of its vertices whose
distance leaves room for one more step and bounds all distances. -/
structure Explores (step : V → V → Prop) (vertices : List V) (dist : σ → V → Option ℕ)
    (I : σ → Prop) (visit : σ → V → σ × List V) : Prop where
  nodup : vertices.Nodup
  closed : ∀ v w, v ∈ vertices → step v w → w ∈ vertices
  visit : ∀ s v d, I s → v ∈ vertices → dist s v = some d → d < vertices.length →
    (∀ w k, dist s w = some k → k ≤ d + 1) →
    Discovers step v d (dist s) (dist (visit s v).1) (visit s v).2 ∧ I (visit s v).1

/-- How many visits are left: those of the queue and of the unknown vertices. -/
def remaining (vertices : List V) (dist : V → Option ℕ) (queue : List V) : ℕ :=
  queue.length + vertices.countP (fun v => (dist v).isNone)

/-- The state of a search between two visits.  The queue is sorted by distance and spans at most
two distances, and the successors of every vertex that has left it are known. -/
structure Frontier (step : V → V → Prop) (start : V → Prop) (vertices : List V)
    (dist : V → Option ℕ) (queue : List V) : Prop where
  start_zero : ∀ v, start v → dist v = some 0
  reached : ∀ v d, dist v = some d → ReachIn step start d v
  inside : ∀ v d, dist v = some d → v ∈ vertices
  queued : ∀ v ∈ queue, ∃ d, dist v = some d
  sorted : queue.Pairwise (fun v w => ∀ d e, dist v = some d → dist w = some e → d ≤ e)
  ahead : ∀ v, queue.head? = some v → ∀ d, dist v = some d → ∀ w k, dist w = some k → k ≤ d + 1
  done : ∀ v d, dist v = some d → v ∉ queue → ∀ w, step v w → ∃ k, dist w = some k ∧ k ≤ d + 1
  budget : ∀ v d, dist v = some d → d + remaining vertices dist queue ≤ vertices.length

variable {vertices : List V}

lemma countP_mem [DecidableEq V] (hnodup : vertices.Nodup) {l : List V} (hl : l.Nodup)
    (hsub : ∀ v ∈ l, v ∈ vertices) : vertices.countP (fun v => decide (v ∈ l)) = l.length := by
  have hperm : (vertices.filter (fun v => decide (v ∈ l))).Perm l := by
    rw [perm_ext_iff_of_nodup (hnodup.filter _) hl]
    intro v
    rw [mem_filter, decide_eq_true_iff]
    exact ⟨fun hv => hv.2, fun hv => ⟨hsub v hv, hv⟩⟩
  rw [countP_eq_length_filter, hperm.length_eq]

lemma remaining_visit (hnodup : vertices.Nodup) {v : V} {d : ℕ} {old new : V → Option ℕ}
    {pushed : List V} (queue : List V) (h : Discovers step v d old new pushed)
    (hsub : ∀ w ∈ pushed, w ∈ vertices) :
    remaining vertices new (queue ++ pushed) + 1 = remaining vertices old (v :: queue) := by
  classical
  -- The unknown vertices are those still unknown and those pushed.
  have hcount : vertices.countP (fun w => (old w).isNone) =
      vertices.countP (fun w => (new w).isNone) + pushed.length := by
    rw [← countP_mem hnodup h.nodup hsub]
    clear hsub hnodup
    induction vertices with
    | nil => rfl
    | cons w rest ih =>
      rw [countP_cons, countP_cons, countP_cons, ih]
      by_cases hw : w ∈ pushed
      · have hold := ((h.mem_iff w).mp hw).2
        rw [hold, h.discovered w hw]
        simp [hw]
        omega
      · rw [h.kept w hw]
        simp [hw]
        omega
  unfold remaining
  rw [hcount, length_append, length_cons]
  omega

variable {queue : List V}

/-- A visit of the first vertex keeps the state of the search. -/
lemma Frontier.visit (hnodup : vertices.Nodup)
    (hclosed : ∀ v w, v ∈ vertices → step v w → w ∈ vertices) {old new : V → Option ℕ} {v : V}
    {d : ℕ} {pushed : List V} (h : Frontier step start vertices old (v :: queue))
    (hd : old v = some d) (hdiscovers : Discovers step v d old new pushed) :
    Frontier step start vertices new (queue ++ pushed) ∧
      remaining vertices new (queue ++ pushed) + 1 = remaining vertices old (v :: queue) := by
  have hinside := h.inside v d hd
  have hahead := h.ahead v rfl d hd
  have hsub : ∀ w ∈ pushed, w ∈ vertices := fun w hw =>
    hclosed v w hinside ((hdiscovers.mem_iff w).mp hw).1
  have hremaining := remaining_visit hnodup queue hdiscovers hsub
  have hle : ∀ w k, new w = some k → k ≤ d + 1 := by
    intro w k hw
    rcases hdiscovers.cases hw with hold | ⟨_, rfl⟩
    · exact hahead w k hold
    · exact le_refl _
  -- Everything in the queue is at least as far as the visited vertex.
  have hqueue : ∀ w ∈ queue, ∃ k, new w = some k ∧ d ≤ k := by
    intro w hw
    obtain ⟨k, hk⟩ := h.queued w (mem_cons_of_mem v hw)
    have hsorted := rel_of_pairwise_cons h.sorted hw
    exact ⟨k, hdiscovers.known hk, hsorted d k hd hk⟩
  have hfrom : ∀ w ∈ queue ++ pushed, ∃ k, new w = some k ∧ d ≤ k := by
    intro w hw
    rcases mem_append.mp hw with hw | hw
    · exact hqueue w hw
    · exact ⟨d + 1, hdiscovers.discovered w hw, Nat.le_succ d⟩
  refine ⟨?_, hremaining⟩
  constructor
  · exact fun w hw => hdiscovers.known (h.start_zero w hw)
  · intro w k hw
    rcases hdiscovers.cases hw with hold | ⟨hmem, rfl⟩
    · exact h.reached w k hold
    · exact (h.reached v d hd).tail ((hdiscovers.mem_iff w).mp hmem).1
  · intro w k hw
    rcases hdiscovers.cases hw with hold | ⟨hmem, _⟩
    · exact h.inside w k hold
    · exact hsub w hmem
  · intro w hw
    obtain ⟨k, hk, _⟩ := hfrom w hw
    exact ⟨k, hk⟩
  · rw [pairwise_append]
    refine ⟨?_, ?_, ?_⟩
    · refine (pairwise_cons.mp h.sorted).2.imp_of_mem ?_
      intro x y hx hy hxy a b ha hb
      obtain ⟨k, hk⟩ := h.queued x (mem_cons_of_mem v hx)
      obtain ⟨l, hl⟩ := h.queued y (mem_cons_of_mem v hy)
      have hak : some a = some k := ha.symm.trans (hdiscovers.known hk)
      have hbl : some b = some l := hb.symm.trans (hdiscovers.known hl)
      rw [some.inj hak, some.inj hbl]
      exact hxy k l hk hl
    · refine pairwise_of_forall_mem_list ?_
      intro x hx y hy a b ha hb
      rw [hdiscovers.discovered x hx] at ha
      rw [hdiscovers.discovered y hy] at hb
      exact Nat.le_of_eq (some.inj (ha.symm.trans hb))
    · intro x _ y hy a b ha hb
      rw [hdiscovers.discovered y hy] at hb
      exact some.inj hb ▸ hle x a ha
  · intro w hhead k hk x l hx
    obtain ⟨k', hk', hdk⟩ := hfrom w (mem_of_mem_head? hhead)
    have hkk : k = k' := some.inj (hk.symm.trans hk')
    have := hle x l hx
    omega
  · intro w k hw hnot x hstep
    rw [mem_append, not_or] at hnot
    rcases hdiscovers.cases hw with hold | ⟨hmem, _⟩
    · by_cases hwv : w = v
      · subst hwv
        obtain rfl : k = d := some.inj (hold.symm.trans hd)
        exact hdiscovers.successor hahead hstep
      · have hnot' : w ∉ v :: queue := by
          rw [mem_cons, not_or]
          exact ⟨hwv, hnot.1⟩
        obtain ⟨l, hl, hlk⟩ := h.done w k hold hnot' x hstep
        exact ⟨l, hdiscovers.known hl, hlk⟩
    · exact absurd hmem hnot.2
  · intro w k hw
    have hbudget := h.budget v d hd
    rcases hdiscovers.cases hw with hold | ⟨_, rfl⟩
    · have := h.budget w k hold
      omega
    · omega

lemma Frontier.lt_length {dist : V → Option ℕ} {v : V} {d : ℕ}
    (h : Frontier step start vertices dist (v :: queue)) (hd : dist v = some d) :
    d < vertices.length := by
  have hbudget := h.budget v d hd
  unfold remaining at hbudget
  rw [length_cons] at hbudget
  omega

variable {s : σ} {visit : σ → V → σ × List V}

/-- A visit of the first vertex keeps the frontier, and uses up one of the remaining visits. -/
def Advances (step : V → V → Prop) (start : V → Prop) (vertices : List V)
    (dist : σ → V → Option ℕ) (I : σ → Prop) (visit : σ → V → σ × List V) : Prop :=
  ∀ s v queue, I s → Frontier step start vertices (dist s) (v :: queue) →
    Frontier step start vertices (dist (visit s v).1) (queue ++ (visit s v).2) ∧
    I (visit s v).1 ∧
    remaining vertices (dist (visit s v).1) (queue ++ (visit s v).2) + 1 =
      remaining vertices (dist s) (v :: queue)

lemma Explores.advances {dist : σ → V → Option ℕ} {I : σ → Prop}
    (hexplores : Explores step vertices dist I visit) :
    Advances step start vertices dist I visit := by
  intro s v queue hI h
  obtain ⟨d, hd⟩ := h.queued v mem_cons_self
  obtain ⟨hdiscovers, hI'⟩ :=
    hexplores.visit s v d hI (h.inside v d hd) hd (h.lt_length hd) (h.ahead v rfl d hd)
  obtain ⟨hfrontier, hremaining⟩ := h.visit hexplores.nodup hexplores.closed hd hdiscovers
  exact ⟨hfrontier, hI', hremaining⟩

variable {fuel : ℕ}

lemma drain_frontier {dist : σ → V → Option ℕ} {I : σ → Prop}
    (hadvances : Advances step start vertices dist I visit) (hI : I s)
    (h : Frontier step start vertices (dist s) queue)
    (hfuel : remaining vertices (dist s) queue ≤ fuel) :
    (drain visit fuel queue s).1 = [] ∧ I (drain visit fuel queue s).2 ∧
    Frontier step start vertices (dist (drain visit fuel queue s).2) [] := by
  induction fuel generalizing s queue with
  | zero =>
    have hempty : queue = [] := by
      rw [← length_eq_zero_iff]
      unfold remaining at hfuel
      omega
    subst hempty
    exact ⟨rfl, hI, h⟩
  | succ fuel ih =>
    cases queue with
    | nil => exact ⟨rfl, hI, h⟩
    | cons v queue =>
      obtain ⟨hnext, hI', hremaining⟩ := hadvances s v queue hI h
      exact ih hI' hnext (by omega)

/-- Once the queue is empty, the distances are the shortest ones. -/
lemma shortest_of_frontier {dist : V → Option ℕ} (h : Frontier step start vertices dist [])
    (v : V) (d : ℕ) : dist v = some d ↔ Shortest step start d v := by
  have hcomplete : ∀ n w, ReachIn step start n w → ∃ k, dist w = some k ∧ k ≤ n := by
    intro n w hw
    induction hw with
    | refl hstart => exact ⟨0, h.start_zero _ hstart, le_refl 0⟩
    | tail _ hstep ih =>
      obtain ⟨k, hk, hkn⟩ := ih
      obtain ⟨l, hl, hlk⟩ := h.done _ k hk not_mem_nil _ hstep
      exact ⟨l, hl, by omega⟩
  constructor
  · intro hd
    refine ⟨h.reached v d hd, fun m hm => ?_⟩
    obtain ⟨k, hk, hkm⟩ := hcomplete m v hm
    have hdk : d = k := some.inj (hd.symm.trans hk)
    omega
  · rintro ⟨hreach, hleast⟩
    obtain ⟨k, hk, hkd⟩ := hcomplete d v hreach
    have hdk : d = k := Nat.le_antisymm (hleast k (h.reached v k hk)) hkd
    rw [hk, hdk]

/-- The state before the first visit. -/
lemma frontier_start [DecidableEq V] (hnodup : vertices.Nodup) {dist : V → Option ℕ}
    (hqueue : queue.Nodup) (hstart : ∀ v, v ∈ queue ↔ start v) (hsub : ∀ v ∈ queue, v ∈ vertices)
    (hdist : ∀ v, dist v = if v ∈ queue then some 0 else none) :
    Frontier step start vertices dist queue ∧ remaining vertices dist queue = vertices.length := by
  have hzero : ∀ v d, dist v = some d → v ∈ queue ∧ d = 0 := by
    intro v d hd
    rw [hdist] at hd
    split_ifs at hd with hmem
    exact ⟨hmem, (some.inj hd).symm⟩
  have hknown : ∀ v ∈ queue, dist v = some 0 := by
    intro v hv
    rw [hdist, if_pos hv]
  have hremaining : remaining vertices dist queue = vertices.length := by
    have hunknown : vertices.countP (fun v => (dist v).isNone) =
        vertices.countP (fun v => ¬ decide (v ∈ queue)) := by
      refine countP_congr fun v _ => ?_
      rw [hdist]
      split_ifs with hmem <;> simp [hmem]
    unfold remaining
    rw [hunknown, ← countP_mem hnodup hqueue hsub]
    exact (length_eq_countP_add_countP _).symm
  refine ⟨?_, hremaining⟩
  constructor
  · exact fun v hv => hknown v ((hstart v).mpr hv)
  · intro v d hd
    obtain ⟨hmem, rfl⟩ := hzero v d hd
    exact .refl ((hstart v).mp hmem)
  · exact fun v d hd => hsub v (hzero v d hd).1
  · exact fun v hv => ⟨0, hknown v hv⟩
  · refine pairwise_of_forall_mem_list ?_
    intro v _ w _ d e hd _
    rw [(hzero v d hd).2]
    exact Nat.zero_le e
  · intro v _ d _ w k hk
    rw [(hzero w k hk).2]
    exact Nat.zero_le _
  · exact fun v d hd hnot => absurd (hzero v d hd).1 hnot
  · intro v d hd
    rw [(hzero v d hd).2, hremaining]
    omega

/-- **Breadth-first search finds the shortest distances.**  Started with the start vertices in
the queue at distance zero, a loop whose visits discover the unknown successors empties its
queue within as many visits as there are vertices and ends with the shortest distances. -/
lemma drain_shortest [DecidableEq V] {dist : σ → V → Option ℕ} {I : σ → Prop}
    (hexplores : Explores step vertices dist I visit) (hI : I s)
    (hqueue : queue.Nodup) (hstart : ∀ v, v ∈ queue ↔ start v) (hsub : ∀ v ∈ queue, v ∈ vertices)
    (hdist : ∀ v, dist s v = if v ∈ queue then some 0 else none) (hfuel : vertices.length ≤ fuel) :
    (drain visit fuel queue s).1 = [] ∧ I (drain visit fuel queue s).2 ∧
    ∀ v d, dist (drain visit fuel queue s).2 v = some d ↔ Shortest step start d v := by
  obtain ⟨hfrontier, hremaining⟩ := frontier_start hexplores.nodup hqueue hstart hsub hdist
  obtain ⟨hempty, hI', hend⟩ := drain_frontier hexplores.advances hI hfrontier (hremaining ▸ hfuel)
  exact ⟨hempty, hI', shortest_of_frontier hend⟩

/-! ## Within a depth -/

variable {depth : ℕ}

def Near (step : V → V → Prop) (start : V → Prop) (depth : ℕ) (v w : V) : Prop :=
  step v w ∧ ∃ n < depth, Shortest step start n v

/-- Shortest walks have nearer vertices on their way. -/
lemma reachIn_near {n : ℕ} {v : V} (h : Shortest step start n v) (hn : n ≤ depth) :
    ReachIn (Near step start depth) start n v := by
  obtain ⟨hreach, hleast⟩ := h
  induction hreach with
  | refl hstart => exact .refl hstart
  | @tail n u v hu hstep ih =>
    have hshort : ∀ m, ReachIn step start m u → n ≤ m := by
      intro m hm
      have hle := hleast (m + 1) (hm.tail hstep)
      omega
    exact (ih (by omega) hshort).tail ⟨hstep, n, hn, hu, hshort⟩

lemma shortest_near_iff {d : ℕ} {v : V} :
    Shortest (Near step start depth) start d v ↔ Shortest step start d v ∧ d ≤ depth := by
  have hforget : ∀ n w, ReachIn (Near step start depth) start n w → ReachIn step start n w := by
    intro n w h
    induction h with
    | refl hstart => exact .refl hstart
    | tail _ hstep ih => exact ih.tail hstep.1
  constructor
  · rintro ⟨hreach, hleast⟩
    obtain ⟨m, hm, hlow⟩ : ∃ m, Shortest step start m v ∧ m ≤ depth := by
      cases hreach with
      | refl hstart => exact ⟨0, shortest_zero_iff.mpr hstart, Nat.zero_le depth⟩
      | tail _ hstep =>
        obtain ⟨hstep, n, hn, hshort⟩ := hstep
        obtain ⟨m, hle, hm⟩ := (hshort.1.tail hstep).exists_shortest
        exact ⟨m, hm, by omega⟩
    have hsame : d = m := Nat.le_antisymm (hleast m (reachIn_near hm hlow))
      (hm.2 d (hforget d v hreach))
    exact hsame ▸ ⟨hm, hlow⟩
  · rintro ⟨hshort, hle⟩
    exact ⟨reachIn_near hshort hle, fun m hm => hshort.2 m (hforget m v hm)⟩

lemma Frontier.head_shortest {dist : V → Option ℕ} {v : V} {d : ℕ}
    (h : Frontier step start vertices dist (v :: queue)) (hd : dist v = some d) :
    Shortest step start d v := by
  have hnear : ∀ n w, ReachIn step start n w → n < d → ∃ k, dist w = some k ∧ k ≤ n := by
    intro n w hw
    induction hw with
    | refl hstart => exact fun _ => ⟨0, h.start_zero _ hstart, le_refl 0⟩
    | @tail n u w _ hstep ih =>
      intro hlt
      obtain ⟨k, hk, hkn⟩ := ih (by omega)
      have hleft : u ∉ v :: queue := by
        intro hmem
        rcases mem_cons.mp hmem with rfl | hmem
        · cases hk.symm.trans hd
          omega
        · have hle := rel_of_pairwise_cons h.sorted hmem d k hd hk
          omega
      obtain ⟨l, hl, hlk⟩ := h.done u k hk hleft w hstep
      exact ⟨l, hl, by omega⟩
  refine ⟨h.reached v d hd, fun m hm => ?_⟩
  by_contra hlt
  obtain ⟨k, hk, hkm⟩ := hnear m v hm (by omega)
  cases hk.symm.trans hd
  omega

structure ExploresWithin (step : V → V → Prop) (vertices : List V) (depth : ℕ)
    (dist : σ → V → Option ℕ) (I : σ → Prop) (visit : σ → V → σ × List V) : Prop where
  nodup : vertices.Nodup
  closed : ∀ v w, v ∈ vertices → step v w → w ∈ vertices
  stop : ∀ s v d, dist s v = some d → depth ≤ d → visit s v = (s, [])
  visit : ∀ s v d, I s → v ∈ vertices → dist s v = some d → d < depth → d < vertices.length →
    (∀ w k, dist s w = some k → k ≤ d + 1) →
    Discovers step v d (dist s) (dist (visit s v).1) (visit s v).2 ∧ I (visit s v).1

lemma ExploresWithin.advances {dist : σ → V → Option ℕ} {I : σ → Prop}
    (hexplores : ExploresWithin step vertices depth dist I visit) :
    Advances (Near step start depth) start vertices dist I visit := by
  intro s v queue hI h
  obtain ⟨d, hd⟩ := h.queued v mem_cons_self
  obtain ⟨hshort, -⟩ := shortest_near_iff.mp (h.head_shortest hd)
  have hnext : Discovers (Near step start depth) v d (dist s) (dist (visit s v).1)
      (visit s v).2 ∧ I (visit s v).1 := by
    by_cases hlt : d < depth
    · obtain ⟨hdiscovers, hI'⟩ := hexplores.visit s v d hI (h.inside v d hd) hd hlt
        (h.lt_length hd) (h.ahead v rfl d hd)
      refine ⟨⟨hdiscovers.nodup, fun w => ?_, hdiscovers.discovered, hdiscovers.kept⟩, hI'⟩
      have hnear : Near step start depth v w ↔ step v w := and_iff_left ⟨d, hlt, hshort⟩
      rw [hdiscovers.mem_iff, hnear]
    · rw [hexplores.stop s v d hd (not_lt.mp hlt)]
      refine ⟨⟨nodup_nil, fun w => ?_, nofun, fun w _ => rfl⟩, hI⟩
      refine ⟨nofun, ?_⟩
      rintro ⟨⟨-, n, hn, hn'⟩, -⟩
      exact absurd (hn'.unique hshort) (by omega)
  obtain ⟨hfrontier, hremaining⟩ := h.visit hexplores.nodup
    (fun v w hv hstep => hexplores.closed v w hv hstep.1) hd hnext.1
  exact ⟨hfrontier, hnext.2, hremaining⟩

/-- **Within a depth**, a search finds the shortest distances up to the depth. -/
lemma drain_within [DecidableEq V] {dist : σ → V → Option ℕ} {I : σ → Prop}
    (hexplores : ExploresWithin step vertices depth dist I visit)
    (hI : I s) (hqueue : queue.Nodup) (hstart : ∀ v, v ∈ queue ↔ start v)
    (hsub : ∀ v ∈ queue, v ∈ vertices)
    (hdist : ∀ v, dist s v = if v ∈ queue then some 0 else none) (hfuel : vertices.length ≤ fuel) :
    (drain visit fuel queue s).1 = [] ∧ I (drain visit fuel queue s).2 ∧
    ∀ v d, dist (drain visit fuel queue s).2 v = some d ↔ Shortest step start d v ∧ d ≤ depth := by
  obtain ⟨hfrontier, hremaining⟩ := frontier_start hexplores.nodup hqueue hstart hsub hdist
  obtain ⟨hempty, hI', hend⟩ :=
    drain_frontier hexplores.advances hI hfrontier (hremaining ▸ hfuel)
  refine ⟨hempty, hI', fun v d => ?_⟩
  rw [shortest_of_frontier hend, shortest_near_iff]

end BreadthFirst
