import Mathlib.Logic.Function.Iterate
import Reposcout.Framework.Components

/-!
# Strong components by two searches

The first search goes depth first and lists the vertices as it finishes them (`finishOrder`).  The
second follows the edges backwards, from the vertex that was finished last on.  At any time of the
first search, a finished vertex from which an unfinished one is reached has a companion in its
component that is finished later (`FinishedBy`), so a backward search from the last of a component
takes that component and no vertex more (`strongComponents_ok`).
-/

namespace Components

open List

variable {V : Type} [DecidableEq V]

/-! ## The two searches -/

/-- The entries of the stack, the top first, are vertices with the successors that are not yet
passed. -/
structure Walk (V : Type) where
  visited : List V
  finished : List V
  stack : List (V × List V)

/-- Pass one successor of the vertex at the top, or finish it. -/
def walkStep (next : V → List V) (walk : Walk V) : Walk V :=
  match walk.stack with
  | [] => walk
  | (vertex, []) :: stack => { walk with finished := walk.finished ++ [vertex], stack }
  | (vertex, successor :: rest) :: stack =>
    if successor ∈ walk.visited then { walk with stack := (vertex, rest) :: stack }
    else
      { walk with
        visited := walk.visited ++ [successor]
        stack := (successor, next successor) :: (vertex, rest) :: stack }

/-- Walk from a vertex that is not visited. -/
def walkFrom (next : V → List V) (fuel : ℕ) (walk : Walk V) (start : V) : Walk V :=
  if start ∈ walk.visited then walk
  else (walkStep next)^[fuel] ⟨walk.visited ++ [start], walk.finished, [(start, next start)]⟩

/-- How many steps the vertices that are not visited take. -/
def unvisitedSteps (next : V → List V) (vertices visited : List V) : ℕ :=
  ((vertices.filter (· ∉ visited)).map fun v => (next v).length + 1).sum

def finishOrder (next : V → List V) (vertices : List V) : List V :=
  (vertices.foldl (walkFrom next (unvisitedSteps next vertices [])) ⟨[], [], []⟩).finished

/-- Visit the vertices of a stack until it is empty. -/
def drainStack (next : V → List V) : ℕ → List V → List V × List V → List V × (List V × List V)
  | 0, stack, state => (stack, state)
  | _ + 1, [], state => ([], state)
  | fuel + 1, v :: stack, state =>
    drainStack next fuel ((visit next state v).2.reverse ++ stack) (visit next state v).1

/-- Search backwards from a vertex that is not marked. -/
def strongFrom (previous : V → List V) (fuel : ℕ) (state : List V × List (List V)) (start : V) :
    List V × List (List V) :=
  if start ∈ state.1 then state
  else
    let (marked, found) := (drainStack previous fuel [start] (state.1 ++ [start], [])).2
    (marked, state.2 ++ [found])

/-- What the backward searches have taken. -/
def strongComponents (next previous : V → List V) (vertices : List V) : List (List V) :=
  ((finishOrder next vertices).reverse.foldl (strongFrom previous vertices.length) ([], [])).2

/-! ## The finish order -/

/-- Each vertex is reached from the other. -/
def Mutual (next : V → List V) (v w : V) : Prop :=
  Joined next v w ∧ Joined next w v

omit [DecidableEq V] in
lemma Mutual.trans {next : V → List V} {u v w : V} (h : Mutual next u v) (h' : Mutual next v w) :
    Mutual next u w :=
  ⟨h.1.trans h'.1, h'.2.trans h.2⟩

/-- Whatever was finished at some time and reached a vertex that was not, has a companion that was
not finished then either. -/
def FinishedBy (next : V → List V) (finished stack : List V) : Prop :=
  ∀ before after, finished = before ++ after → ∀ v ∈ before, ∀ w, w ∉ before → Joined next v w →
    ∃ companion, (companion ∈ after ∨ companion ∈ stack) ∧ Mutual next companion v

section

variable {next : V → List V} {finished stack : List V}

omit [DecidableEq V] in
lemma FinishedBy.mono (h : FinishedBy next finished stack) {stack' : List V}
    (hsub : ∀ v ∈ stack, v ∈ stack') : FinishedBy next finished stack' := by
  intro before after hsplit v hv w hw hjoined
  obtain ⟨companion, hcompanion, hmutual⟩ := h before after hsplit v hv w hw hjoined
  exact ⟨companion, hcompanion.imp_right (hsub companion), hmutual⟩

omit [DecidableEq V] in
/-- The vertex at the top may be finished when its successors are visited. -/
lemma FinishedBy.finish {top : V} (h : FinishedBy next finished (top :: stack))
    (hpassed : ∀ v ∈ finished ++ [top], ∀ w ∈ next v, w ∈ finished ++ [top] ∨ w ∈ stack)
    (hpath : ∀ v ∈ stack, Joined next v top) : FinishedBy next (finished ++ [top]) stack := by
  -- a way out of the finished vertices leads over the stack, from which the top is reached
  have hexit : ∀ w, w ∉ finished ++ [top] → Joined next top w →
      ∃ companion ∈ stack, Mutual next companion top := by
    intro w hw hjoined
    have hcases : w ∈ finished ++ [top] ∨ ∃ companion ∈ stack, Joined next top companion := by
      induction hjoined with
      | refl => exact absurd (mem_append_right _ (mem_singleton_self top)) hw
      | @tail v w hjoined hstep ih =>
        by_cases hv : v ∈ finished ++ [top]
        · exact (hpassed v hv w hstep).imp_right fun hmem => ⟨w, hmem, hjoined.tail hstep⟩
        · exact .inr ((ih hv).resolve_left hv)
    obtain ⟨companion, hmem, hreach⟩ := hcases.resolve_left hw
    exact ⟨companion, hmem, hpath companion hmem, hreach⟩
  intro before after hsplit v hv w hw hjoined
  rcases eq_nil_or_concat' after with rfl | ⟨after, last, rfl⟩
  · rw [append_nil] at hsplit
    subst hsplit
    have htop : Mutual next top v →
        ∃ companion, (companion ∈ [] ∨ companion ∈ stack) ∧ Mutual next companion v := by
      intro hmutual
      obtain ⟨companion, hmem, hcompanion⟩ := hexit w hw (hmutual.1.trans hjoined)
      exact ⟨companion, .inr hmem, hcompanion.trans hmutual⟩
    rcases mem_append.mp hv with hv | hv
    · obtain ⟨companion, hcompanion, hmutual⟩ := h finished [] (append_nil _).symm v hv w
        (fun hmem => hw (mem_append_left _ hmem)) hjoined
      rcases mem_cons.mp (hcompanion.resolve_left not_mem_nil) with rfl | hmem
      · exact htop hmutual
      · exact ⟨companion, .inr hmem, hmutual⟩
    · rw [mem_singleton] at hv
      exact htop (hv ▸ ⟨.refl, .refl⟩)
  · rw [← append_assoc] at hsplit
    obtain ⟨hfinished, hlast⟩ := append_inj' hsplit rfl
    obtain rfl := singleton_inj.mp hlast
    obtain ⟨companion, hcompanion, hmutual⟩ := h before after hfinished v hv w hw hjoined
    refine ⟨companion, ?_, hmutual⟩
    rw [mem_append, mem_singleton]
    rw [mem_cons] at hcompanion
    tauto

end

/-- A first search between two steps.  The stack is a path, the top at its end. -/
structure Walking (next : V → List V) (vertices : List V) (walk : Walk V) : Prop where
  nodup : (walk.finished ++ walk.stack.map Prod.fst).Nodup
  visited_iff : ∀ v, v ∈ walk.visited ↔ v ∈ walk.finished ∨ v ∈ walk.stack.map Prod.fst
  inside : ∀ v ∈ walk.visited, v ∈ vertices
  passed : ∀ v ∈ walk.finished, ∀ w ∈ next v, w ∈ walk.visited
  entries : ∀ entry ∈ walk.stack, ∃ done, next entry.1 = done ++ entry.2 ∧
    ∀ w ∈ done, w ∈ walk.visited
  path : (walk.stack.map Prod.fst).Pairwise fun upper lower => Joined next lower upper
  order : FinishedBy next walk.finished (walk.stack.map Prod.fst)

section

variable {next : V → List V} {vertices visited finished : List V} {stack : List (V × List V)}

omit [DecidableEq V] in
lemma Walking.push (h : Walking next vertices ⟨visited, finished, stack⟩) {vertex : V}
    (hinside : vertex ∈ vertices) (hnew : vertex ∉ visited)
    (hpath : ∀ v ∈ stack.map Prod.fst, Joined next v vertex) :
    Walking next vertices ⟨visited ++ [vertex], finished, (vertex, next vertex) :: stack⟩ where
  nodup := by
    have hperm : (finished ++ vertex :: stack.map Prod.fst).Perm
        (vertex :: (finished ++ stack.map Prod.fst)) := perm_middle
    rw [map_cons, hperm.nodup_iff, nodup_cons]
    exact ⟨fun hmem => hnew ((h.visited_iff vertex).mpr (mem_append.mp hmem)), h.nodup⟩
  visited_iff v := by
    have hvisited := h.visited_iff v
    rw [mem_append, mem_singleton, hvisited, map_cons, mem_cons]
    tauto
  inside v hv := by
    rcases mem_append.mp hv with hv | hv
    · exact h.inside v hv
    · exact mem_singleton.mp hv ▸ hinside
  passed v hv w hw := mem_append_left _ (h.passed v hv w hw)
  entries entry hentry := by
    rcases mem_cons.mp hentry with rfl | hentry
    · exact ⟨[], rfl, nofun⟩
    · obtain ⟨done, hdone, hvisited⟩ := h.entries entry hentry
      exact ⟨done, hdone, fun w hw => mem_append_left _ (hvisited w hw)⟩
  path := pairwise_cons.mpr ⟨hpath, h.path⟩
  order := h.order.mono fun _ => mem_cons_of_mem vertex

omit [DecidableEq V] in
lemma Walking.pass {above : List (V × List V)} {vertex successor : V} {rest : List V}
    (h : Walking next vertices ⟨visited, finished, above ++ (vertex, successor :: rest) :: stack⟩)
    (hvisited : successor ∈ visited) :
    Walking next vertices ⟨visited, finished, above ++ (vertex, rest) :: stack⟩ := by
  have hsame : (above ++ (vertex, successor :: rest) :: stack).map Prod.fst =
      (above ++ (vertex, rest) :: stack).map Prod.fst := by
    simp
  have hnodup := h.nodup
  have hiff := h.visited_iff
  have hpath := h.path
  have horder := h.order
  rw [hsame] at hnodup hiff hpath horder
  refine ⟨hnodup, hiff, h.inside, h.passed, fun entry hentry => ?_, hpath, horder⟩
  rw [mem_append, mem_cons] at hentry
  rcases hentry with hentry | rfl | hentry
  · exact h.entries entry (mem_append_left _ hentry)
  · obtain ⟨done, hdone, hpassed⟩ := h.entries _ (mem_append_right above mem_cons_self)
    refine ⟨done ++ [successor], by rw [hdone]; simp, fun w hw => ?_⟩
    rcases mem_append.mp hw with hw | hw
    · exact hpassed w hw
    · exact mem_singleton.mp hw ▸ hvisited
  · exact h.entries entry (mem_append_right above (mem_cons_of_mem _ hentry))

omit [DecidableEq V] in
lemma Walking.finish {vertex : V}
    (h : Walking next vertices ⟨visited, finished, (vertex, []) :: stack⟩) :
    Walking next vertices ⟨visited, finished ++ [vertex], stack⟩ := by
  have hvisited : ∀ v, v ∈ visited ↔ v ∈ finished ++ [vertex] ∨ v ∈ stack.map Prod.fst := by
    intro v
    refine (h.visited_iff v).trans ?_
    rw [mem_append, mem_singleton, map_cons, mem_cons, or_assoc]
  have hpassed : ∀ v ∈ finished ++ [vertex], ∀ w ∈ next v, w ∈ visited := by
    intro v hv w hw
    rcases mem_append.mp hv with hv | hv
    · exact h.passed v hv w hw
    · obtain ⟨done, hdone, hmem⟩ := h.entries _ mem_cons_self
      rw [mem_singleton.mp hv, hdone, append_nil] at hw
      exact hmem w hw
  refine ⟨?_, hvisited, h.inside, hpassed,
    fun entry hentry => h.entries entry (mem_cons_of_mem _ hentry),
    (pairwise_cons.mp h.path).2, ?_⟩
  · rw [append_assoc, singleton_append]
    exact h.nodup
  · exact h.order.finish (fun v hv w hw => (hvisited w).mp (hpassed v hv w hw))
      (pairwise_cons.mp h.path).1

lemma unvisitedSteps_append (hnodup : vertices.Nodup) {vertex : V} (hinside : vertex ∈ vertices)
    (hnew : vertex ∉ visited) :
    unvisitedSteps next vertices visited =
      unvisitedSteps next vertices (visited ++ [vertex]) + ((next vertex).length + 1) := by
  have hperm : (vertices.filter (· ∉ visited)).Perm
      (vertex :: vertices.filter (· ∉ visited ++ [vertex])) := by
    have hnot : vertex ∉ vertices.filter (· ∉ visited ++ [vertex]) := by simp
    refine (perm_ext_iff_of_nodup (hnodup.filter _)
      (nodup_cons.mpr ⟨hnot, hnodup.filter _⟩)).mpr fun v => ?_
    by_cases hv : v = vertex
    · simp [hv, hinside, hnew]
    · simp [hv]
  unfold unvisitedSteps
  rw [(hperm.map _).sum_nat, map_cons, sum_cons, Nat.add_comm]

lemma unvisitedSteps_le (next : V → List V) (vertices visited : List V) :
    unvisitedSteps next vertices visited ≤ unvisitedSteps next vertices [] := by
  unfold unvisitedSteps
  induction vertices with
  | nil => exact le_refl _
  | cons v rest ih =>
    by_cases hv : v ∈ visited
    · simp [hv] at ih ⊢
      omega
    · simp [hv] at ih ⊢
      omega

def stepsLeft (next : V → List V) (vertices : List V) (walk : Walk V) : ℕ :=
  unvisitedSteps next vertices walk.visited + (walk.stack.map fun entry => entry.2.length + 1).sum

/-- A step keeps the search going and is counted. -/
lemma Walking.step (hnodup : vertices.Nodup)
    (hclosed : ∀ v ∈ vertices, ∀ w ∈ next v, w ∈ vertices) {entry : V × List V}
    (h : Walking next vertices ⟨visited, finished, entry :: stack⟩) :
    Walking next vertices (walkStep next ⟨visited, finished, entry :: stack⟩) ∧
      (∀ v ∈ visited, v ∈ (walkStep next ⟨visited, finished, entry :: stack⟩).visited) ∧
      stepsLeft next vertices (walkStep next ⟨visited, finished, entry :: stack⟩) + 1 =
        stepsLeft next vertices ⟨visited, finished, entry :: stack⟩ := by
  obtain ⟨vertex, rest⟩ := entry
  cases rest with
  | nil =>
    refine ⟨h.finish, fun v hv => hv, ?_⟩
    simp only [walkStep, stepsLeft, map_cons, sum_cons, length_nil]
    omega
  | cons successor rest =>
    by_cases hvisited : successor ∈ visited
    · have hstep : walkStep next ⟨visited, finished, (vertex, successor :: rest) :: stack⟩ =
          ⟨visited, finished, (vertex, rest) :: stack⟩ := if_pos hvisited
      rw [hstep]
      refine ⟨@Walking.pass V next vertices visited finished stack [] vertex successor rest h
        hvisited, fun v hv => hv, ?_⟩
      simp only [stepsLeft, map_cons, sum_cons, length_cons]
      omega
    · have hstep : walkStep next ⟨visited, finished, (vertex, successor :: rest) :: stack⟩ =
          ⟨visited ++ [successor], finished,
            (successor, next successor) :: (vertex, rest) :: stack⟩ := if_neg hvisited
      obtain ⟨done, hdone, -⟩ := h.entries _ mem_cons_self
      have hsuccessor : successor ∈ next vertex := by
        rw [hdone]
        exact mem_append_right done mem_cons_self
      have hvertex : vertex ∈ visited := (h.visited_iff vertex).mpr (.inr mem_cons_self)
      have hinside := hclosed vertex (h.inside vertex hvertex) successor hsuccessor
      have hpush := h.push hinside hvisited fun v hv => by
        rcases mem_cons.mp hv with rfl | hv
        · exact .single hsuccessor
        · exact ((pairwise_cons.mp h.path).1 v hv).tail hsuccessor
      rw [hstep]
      refine ⟨@Walking.pass V next vertices _ finished stack [(successor, next successor)] vertex
        successor rest hpush (mem_append_right _ (mem_singleton_self successor)),
        fun v hv => mem_append_left _ hv, ?_⟩
      have hsteps : unvisitedSteps next vertices visited = _ := unvisitedSteps_append hnodup hinside hvisited
      simp only [stepsLeft, map_cons, sum_cons, length_cons]
      omega

lemma Walking.run (hnodup : vertices.Nodup)
    (hclosed : ∀ v ∈ vertices, ∀ w ∈ next v, w ∈ vertices) (fuel : ℕ) {walk : Walk V}
    (h : Walking next vertices walk) (hfuel : stepsLeft next vertices walk ≤ fuel) :
    Walking next vertices ((walkStep next)^[fuel] walk) ∧
      (∀ v ∈ walk.visited, v ∈ ((walkStep next)^[fuel] walk).visited) ∧
      ((walkStep next)^[fuel] walk).stack = [] := by
  induction fuel generalizing walk with
  | zero =>
    refine ⟨h, fun v hv => hv, ?_⟩
    obtain ⟨visited, finished, stack⟩ := walk
    cases stack with
    | nil => rfl
    | cons entry stack =>
      unfold stepsLeft at hfuel
      rw [map_cons, sum_cons] at hfuel
      omega
  | succ fuel ih =>
    obtain ⟨visited, finished, stack⟩ := walk
    cases stack with
    | nil =>
      have hfixed := Function.iterate_fixed (f := walkStep next) (x := ⟨visited, finished, []⟩) rfl
        (fuel + 1)
      rw [hfixed]
      exact ⟨h, fun v hv => hv, rfl⟩
    | cons entry stack =>
      obtain ⟨hstep, hkept, hsteps⟩ := h.step hnodup hclosed
      obtain ⟨hrun, hkept', hempty⟩ := ih hstep (by omega)
      exact ⟨hrun, fun v hv => hkept' v (hkept v hv), hempty⟩

lemma Walking.walkFrom (hnodup : vertices.Nodup)
    (hclosed : ∀ v ∈ vertices, ∀ w ∈ next v, w ∈ vertices) {walk : Walk V} {start : V}
    (hstart : start ∈ vertices) (h : Walking next vertices walk ∧ walk.stack = []) :
    let after := walkFrom next (unvisitedSteps next vertices []) walk start
    (Walking next vertices after ∧ after.stack = []) ∧ start ∈ after.visited ∧
      ∀ v ∈ walk.visited, v ∈ after.visited := by
  intro after
  obtain ⟨visited, finished, stack⟩ := walk
  obtain ⟨hwalk, rfl⟩ := h
  by_cases hvisited : start ∈ visited
  · rw [show after = ⟨visited, finished, []⟩ from if_pos hvisited]
    exact ⟨⟨hwalk, rfl⟩, hvisited, fun v hv => hv⟩
  · have hpush := hwalk.push hstart hvisited nofun
    have hfuel : stepsLeft next vertices ⟨visited ++ [start], finished, [(start, next start)]⟩ ≤
        unvisitedSteps next vertices [] := by
      have hsteps : unvisitedSteps next vertices visited = _ := unvisitedSteps_append hnodup hstart hvisited
      have hall := unvisitedSteps_le next vertices visited
      simp only [stepsLeft, map_cons, map_nil, sum_cons, sum_nil]
      omega
    obtain ⟨hrun, hkept, hempty⟩ := hpush.run hnodup hclosed _ hfuel
    rw [show after = _ from if_neg hvisited]
    exact ⟨⟨hrun, hempty⟩, hkept start (mem_append_right _ (mem_singleton_self start)),
      fun v hv => hkept v (mem_append_left _ hv)⟩

end

/-- **The finish order**: every vertex once, and what is finished before a vertex it reaches has a
companion that is not. -/
lemma finishOrder_ok {next : V → List V} {vertices : List V} (hnodup : vertices.Nodup)
    (hclosed : ∀ v ∈ vertices, ∀ w ∈ next v, w ∈ vertices) :
    (finishOrder next vertices).Perm vertices ∧
      FinishedBy next (finishOrder next vertices) [] := by
  have hstart : Walking next vertices ⟨[], [], []⟩ := by
    refine ⟨nodup_nil, fun v => by simp, nofun,
      nofun, nofun,
      Pairwise.nil, fun before after hsplit v hv => ?_⟩
    rw [(append_eq_nil_iff.mp hsplit.symm).1] at hv
    cases hv
  obtain ⟨⟨hwalk, hempty⟩, hall⟩ := @foldl_covers V _ vertices
    (walkFrom next (unvisitedSteps next vertices []))
    (fun walk => Walking next vertices walk ∧ walk.stack = []) (fun walk v => v ∈ walk.visited)
    (fun done start rest walk hstarts h _ => Walking.walkFrom hnodup hclosed
      (hstarts ▸ mem_append_right done mem_cons_self) h) ⟨[], [], []⟩ ⟨hstart, rfl⟩
  have hfinished := hwalk.nodup
  have hvisited := hwalk.visited_iff
  have horder := hwalk.order
  rw [hempty, map_nil] at hfinished hvisited horder
  rw [append_nil] at hfinished
  refine ⟨(perm_ext_iff_of_nodup hfinished hnodup).mpr fun v => ?_, horder⟩
  constructor
  · exact fun hv => hwalk.inside v ((hvisited v).mpr (.inl hv))
  · exact fun hv => ((hvisited v).mp (hall v hv)).resolve_right not_mem_nil

/-! ## The backward searches -/

/-- Nonempty and closed under mutual reachability, and all in it are mutual. -/
structure IsStrong (next : V → List V) (part : List V) : Prop where
  ne_nil : part ≠ []
  mem_iff : ∀ v ∈ part, ∀ w, w ∈ part ↔ Mutual next v w

section

variable {next previous : V → List V} {vertices old : List V} {start : V}

omit [DecidableEq V] in
/-- The order of the stack does not matter. -/
lemma Searching.perm {marked taken queue queue' : List V} (hperm : queue.Perm queue')
    (h : Searching previous old start marked taken queue) :
    Searching previous old start marked taken queue' where
  nodup := (hperm.append_left (old ++ taken)).nodup_iff.mp h.nodup
  marked_iff v := by rw [h.marked_iff, hperm.mem_iff]
  joined v hv := h.joined v (by rwa [hperm.mem_iff])
  start := by rw [← hperm.mem_iff]; exact h.start
  passed := h.passed

lemma Searching.drainStack (hclosed : ∀ v ∈ vertices, ∀ w ∈ previous v, w ∈ vertices)
    (hstart : start ∈ vertices) (fuel : ℕ) {marked taken stack : List V}
    (hfuel : vertices.length ≤ fuel + taken.length)
    (h : Searching previous old start marked taken stack) :
    Searching previous old start
      (drainStack previous fuel stack (marked, taken)).2.1
      (drainStack previous fuel stack (marked, taken)).2.2 [] := by
  induction fuel generalizing marked taken stack with
  | zero =>
    have hlength := h.length_le hclosed hstart
    obtain rfl : stack = [] := length_eq_zero_iff.mp (by omega)
    exact h
  | succ fuel ih =>
    cases stack with
    | nil => exact h
    | cons v stack =>
      refine ih ?_ (h.visit.perm ?_)
      · simp only [length_append, length_singleton]
        omega
      · exact perm_append_comm.trans ((reverse_perm _).symm.append_right stack)

omit [DecidableEq V] in
lemma joined_previous (hprevious : ∀ v w, w ∈ previous v ↔ v ∈ next w) {v w : V}
    (h : Joined previous v w) : Joined next w v := by
  induction h with
  | refl => exact .refl
  | tail _ hstep ih => exact ih.head ((hprevious _ _).mp hstep)

omit [DecidableEq V] in
/-- A backward search from the vertex finished last takes its component. -/
lemma Searching.isStrong {marked taken : List V} {found : List (List V)}
    {before after : List V} (hprevious : ∀ v w, w ∈ previous v ↔ v ∈ next w)
    (hfound : ∀ part ∈ found, IsStrong next part)
    (hnodup : (before ++ start :: after).Nodup)
    (horder : FinishedBy next (before ++ start :: after) [])
    (hall : ∀ v ∈ taken, v ∈ before ++ start :: after)
    (hafter : ∀ v ∈ after, v ∈ found.flatten) (hstart : start ∉ found.flatten)
    (h : Searching previous found.flatten start marked taken []) : IsStrong next taken := by
  have hclosed : ∀ v ∈ found.flatten, ∀ w, Mutual next v w → w ∈ found.flatten := by
    intro v hv w hmutual
    obtain ⟨part, hpart, hv⟩ := mem_flatten.mp hv
    exact mem_flatten.mpr ⟨part, hpart, ((hfound part hpart).mem_iff v hv w).mpr hmutual⟩
  have hback : ∀ v ∈ taken, Joined next v start := fun v hv =>
    joined_previous hprevious (h.joined v (.inl hv))
  have htaken : ∀ v, v ∈ taken ↔ Mutual next start v := by
    intro v
    constructor
    · intro hv
      have hnew : v ∉ found.flatten := by
        intro hmem
        have hdisjoint := h.nodup
        rw [append_nil, nodup_append] at hdisjoint
        exact hdisjoint.2.2 v hmem v hv rfl
      have hmem := hall v hv
      rw [mem_append, mem_cons] at hmem
      rcases hmem with hv' | rfl | hv'
      · have hfresh : start ∉ before := fun hmem =>
          (nodup_append.mp hnodup).2.2 start hmem start mem_cons_self rfl
        obtain ⟨companion, hcompanion, hmutual⟩ :=
          horder before (start :: after) rfl v hv' start hfresh (hback v hv)
        rcases mem_cons.mp (hcompanion.resolve_right not_mem_nil) with rfl | hmem
        · exact hmutual
        · exact absurd (hclosed companion (hafter companion hmem) v hmutual) hnew
      · exact ⟨.refl, .refl⟩
      · exact absurd (hafter v hv') hnew
    · rintro ⟨hforth, hreach⟩
      have hreach' : Joined previous start v :=
        joined_previous (fun v w => (hprevious w v).symm) hreach
      clear hreach
      induction hreach' with
      | refl => exact h.start.resolve_right not_mem_nil
      | @tail v w hjoined hstep ih =>
        have hv := ih (hforth.tail ((hprevious v w).mp hstep))
        rcases (h.marked_iff w).mp (h.passed v hv w hstep) with hw | hw | hw
        · have hmutual : Mutual next w start :=
            ⟨joined_previous hprevious (hjoined.tail hstep), hforth⟩
          exact absurd (hclosed w hw start hmutual) hstart
        · exact hw
        · cases hw
  refine ⟨ne_nil_of_mem (h.start.resolve_right not_mem_nil), fun v hv w => ?_⟩
  have hmutual := (htaken v).mp hv
  rw [htaken]
  exact ⟨fun hw => Mutual.trans ⟨hmutual.2, hmutual.1⟩ hw, hmutual.trans⟩

/-- Once everything finished later is marked, the search from a vertex finds a component. -/
lemma Found.strongFrom {before after : List V} {state : List V × List (List V)}
    (hclosed : ∀ v ∈ vertices, ∀ w ∈ previous v, w ∈ vertices)
    (hprevious : ∀ v w, w ∈ previous v ↔ v ∈ next w)
    (hnodup : (before ++ start :: after).Nodup)
    (hall : ∀ v, v ∈ before ++ start :: after ↔ v ∈ vertices)
    (horder : FinishedBy next (before ++ start :: after) [])
    (hafter : ∀ v ∈ after, v ∈ state.1)
    (h : Found (IsStrong next) vertices state.1 state.2) :
    Found (IsStrong next) vertices (strongFrom previous vertices.length state start).1
        (strongFrom previous vertices.length state start).2 ∧
      start ∈ (strongFrom previous vertices.length state start).1 ∧
      ∀ v ∈ state.1, v ∈ (strongFrom previous vertices.length state start).1 := by
  have hstart : start ∈ vertices := (hall start).mp (mem_append_right _ mem_cons_self)
  unfold Components.strongFrom
  by_cases hmarked : start ∈ state.1
  · rw [if_pos hmarked]
    exact ⟨h, hmarked, fun v hv => hv⟩
  · rw [if_neg hmarked]
    have hnew : start ∉ state.2.flatten := fun hmem => hmarked ((h.marked_iff start).mpr hmem)
    have hsearch := (Searching.start_search h.nodup h.marked_iff hnew).drainStack hclosed
      hstart vertices.length (Nat.le_add_right _ _)
    have hinside : ∀ v, Joined previous start v → v ∈ vertices := by
      intro v hv
      induction hv with
      | refl => exact hstart
      | tail _ hstep ih => exact hclosed _ ih _ hstep
    refine h.append hsearch (fun v hv => hinside v (hsearch.joined v (.inl hv))) ?_
    exact hsearch.isStrong hprevious h.part hnodup horder
      (fun v hv => (hall v).mpr (hinside v (hsearch.joined v (.inl hv))))
      (fun v hv => (h.marked_iff v).mp (hafter v hv)) hnew

/-- **The backward searches find the strong components**, each vertex in exactly one. -/
lemma strongComponents_ok (hnodup : vertices.Nodup)
    (hclosed : ∀ v ∈ vertices, ∀ w ∈ next v, w ∈ vertices)
    (hclosed' : ∀ v ∈ vertices, ∀ w ∈ previous v, w ∈ vertices)
    (hprevious : ∀ v w, w ∈ previous v ↔ v ∈ next w) :
    (strongComponents next previous vertices).flatten.Perm vertices ∧
      ∀ part ∈ strongComponents next previous vertices, IsStrong next part := by
  obtain ⟨hperm, horder⟩ := finishOrder_ok hnodup hclosed
  obtain ⟨hfound, hall⟩ := @foldl_covers V _ (finishOrder next vertices).reverse
    (strongFrom previous vertices.length)
    (fun state => Found (IsStrong next) vertices state.1 state.2) (fun state v => v ∈ state.1)
    (fun done start rest state hsplit h hdone => by
      have hreverse : finishOrder next vertices = rest.reverse ++ start :: done.reverse := by
        rw [← reverse_reverse (finishOrder next vertices), hsplit]
        simp
      rw [hreverse] at hperm horder
      exact h.strongFrom hclosed' hprevious (hperm.nodup_iff.mpr hnodup)
        (fun v => hperm.mem_iff) horder fun v hv => hdone v (mem_reverse.mp hv))
    ([], []) (Found.nil _ _)
  refine ⟨hfound.perm hnodup fun v hv => hall v ?_, hfound.part⟩
  exact mem_reverse.mpr (hperm.mem_iff.mpr hv)

end

end Components
