import Mathlib.Algebra.GroupWithZero.Nat
import Mathlib.Data.List.Induction
import Mathlib.Data.List.Perm.Subperm
import Reposcout.Framework.BreadthFirst

/-!
# Connected components by marking

A vertex is marked when it is put on the queue.  A search from an unmarked vertex takes vertices
off the queue and queues their unmarked neighbours, until the queue is empty; what it has taken is
a component.  Searches from all vertices in turn find all components (`components_ok`).
-/

namespace Components

open List Relation.ReflTransGen Components

variable {V : Type} [DecidableEq V]

/-! ## The search -/

/-- Mark and queue a neighbour, unless it is marked. -/
def pass (state : List V × List V) (neighbour : V) : List V × List V :=
  if neighbour ∈ state.1 then state else (state.1 ++ [neighbour], state.2 ++ [neighbour])

/-- Take a vertex: pass its neighbours.  The state is what is marked and what was taken. -/
def visit (next : V → List V) (state : List V × List V) (vertex : V) :
    (List V × List V) × List V :=
  let (marked, queued) := (next vertex).foldl pass (state.1, [])
  ((marked, state.2 ++ [vertex]), queued)

/-- The marks after a search from `start`, and what the search has taken. -/
def search (next : V → List V) (fuel : ℕ) (marked : List V) (start : V) : List V × List V :=
  (BreadthFirst.drain (visit next) fuel [start] (marked ++ [start], [])).2

/-- Search from a vertex that is not marked. -/
def searchFrom (next : V → List V) (fuel : ℕ) (state : List V × List (List V)) (start : V) :
    List V × List (List V) :=
  if start ∈ state.1 then state
  else
    let (marked, found) := search next fuel state.1 start
    (marked, state.2 ++ [found])

/-- What the searches from all vertices have taken. -/
def components (next : V → List V) (vertices : List V) : List (List V) :=
  (vertices.foldl (searchFrom next vertices.length) ([], [])).2

/-! ## One search -/

/-- The neighbours of the vertices are vertices, both ways. -/
structure Undirected (next : V → List V) (vertices : List V) : Prop where
  nodup : vertices.Nodup
  closed : ∀ v ∈ vertices, ∀ w ∈ next v, w ∈ vertices
  symm : ∀ v ∈ vertices, ∀ w ∈ next v, v ∈ next w

/-- One vertex is reached from the other. -/
def Joined (next : V → List V) : V → V → Prop :=
  Relation.ReflTransGen fun v w => w ∈ next v

lemma foldl_pass {neighbours marked queued : List V} :
    ∃ fresh, neighbours.foldl pass (marked, queued) = (marked ++ fresh, queued ++ fresh) ∧
      fresh.Nodup ∧ (∀ w, w ∈ fresh ↔ w ∈ neighbours ∧ w ∉ marked) := by
  induction neighbours generalizing marked queued with
  | nil => exact ⟨[], by simp, nodup_nil, by simp⟩
  | cons w rest ih =>
    rw [foldl_cons, pass]
    by_cases hw : w ∈ marked
    · rw [if_pos hw]
      obtain ⟨fresh, hfold, hnodup, hmem⟩ := @ih marked queued
      refine ⟨fresh, hfold, hnodup, fun x => ?_⟩
      rw [hmem, mem_cons]
      constructor
      · exact fun hx => ⟨.inr hx.1, hx.2⟩
      · rintro ⟨rfl | hx, hnot⟩
        · exact absurd hw hnot
        · exact ⟨hx, hnot⟩
    · rw [if_neg hw]
      obtain ⟨fresh, hfold, hnodup, hmem⟩ := @ih (marked ++ [w]) (queued ++ [w])
      have hfresh : w ∉ fresh := fun h => ((hmem w).mp h).2 (by simp)
      refine ⟨w :: fresh, ?_, nodup_cons.mpr ⟨hfresh, hnodup⟩, fun x => ?_⟩
      · rw [hfold, append_assoc, append_assoc, singleton_append]
      · rw [mem_cons, hmem, mem_cons, mem_append, mem_singleton]
        by_cases hx : x = w
        · simp [hx, hw]
        · simp [hx]

/-- A search between two visits: `old` was marked before it, and `taken` was taken by it. -/
structure Searching (next : V → List V) (old : List V) (start : V)
    (marked taken queue : List V) : Prop where
  nodup : (old ++ taken ++ queue).Nodup
  marked_iff : ∀ v, v ∈ marked ↔ v ∈ old ∨ v ∈ taken ∨ v ∈ queue
  joined : ∀ v, v ∈ taken ∨ v ∈ queue → Joined next start v
  start : start ∈ taken ∨ start ∈ queue
  passed : ∀ v ∈ taken, ∀ w ∈ next v, w ∈ marked

section

variable {next : V → List V} {vertices old : List V} {start : V}

omit [DecidableEq V] in
lemma Searching.start_search {marked : List V} (hnodup : old.Nodup)
    (hmarked : ∀ v, v ∈ marked ↔ v ∈ old) (hstart : start ∉ old) :
    Searching next old start (marked ++ [start]) [] [start] where
  nodup := by
    rw [append_nil, nodup_append]
    refine ⟨hnodup, nodup_singleton start, ?_⟩
    rintro v hv w hw rfl
    exact hstart (mem_singleton.mp hw ▸ hv)
  marked_iff v := by simp [hmarked]
  joined v hv := by
    rcases hv with hv | hv
    · cases hv
    · exact mem_singleton.mp hv ▸ refl
  start := .inr (mem_singleton_self start)
  passed _ hv := nomatch hv

variable {marked taken queue : List V}

/-- Taking a vertex off the queue keeps the search going. -/
lemma Searching.visit {v : V} (h : Searching next old start marked taken (v :: queue)) :
    Searching next old start (Components.visit next (marked, taken) v).1.1
      (Components.visit next (marked, taken) v).1.2
      (queue ++ (Components.visit next (marked, taken) v).2) := by
  obtain ⟨fresh, hfold, hfresh, hmem⟩ := @foldl_pass V _ (next v) marked []
  have hvisit : Components.visit next (marked, taken) v =
      ((marked ++ fresh, taken ++ [v]), fresh) := by
    simp [Components.visit, hfold]
  rw [hvisit]
  have hunmarked : ∀ w ∈ fresh, w ∉ marked := fun w hw => ((hmem w).mp hw).2
  refine ⟨?_, fun w => ?_, fun w hw => ?_, ?_, fun w hw x hx => ?_⟩
  · have hsame : old ++ (taken ++ [v]) ++ (queue ++ fresh) =
        (old ++ taken ++ v :: queue) ++ fresh := by
      simp
    rw [hsame, nodup_append]
    refine ⟨h.nodup, hfresh, ?_⟩
    rintro w hw x hx rfl
    apply hunmarked w hx
    rw [append_assoc, mem_append, mem_append] at hw
    exact (h.marked_iff w).mpr hw
  · simp only [mem_append, h.marked_iff, mem_cons, not_mem_nil, or_false]
    tauto
  · have hstep : ∀ w ∈ fresh, Joined next start w := fun w hw =>
      (h.joined v (.inr mem_cons_self)).tail ((hmem w).mp hw).1
    simp only [mem_append, mem_singleton] at hw
    rcases hw with (hw | rfl) | hw | hw
    · exact h.joined w (.inl hw)
    · exact h.joined w (.inr mem_cons_self)
    · exact h.joined w (.inr (mem_cons_of_mem v hw))
    · exact hstep w hw
  · have hstart := h.start
    simp only [mem_cons] at hstart
    simp only [mem_append, mem_singleton]
    tauto
  · rw [mem_append, mem_singleton] at hw
    rw [mem_append]
    rcases hw with hw | rfl
    · exact .inl (h.passed w hw x hx)
    · by_cases hmarked : x ∈ marked
      · exact .inl hmarked
      · exact .inr ((hmem x).mpr ⟨hx, hmarked⟩)

omit [DecidableEq V] in
lemma Searching.length_le (hclosed : ∀ v ∈ vertices, ∀ w ∈ next v, w ∈ vertices)
    (hstart : start ∈ vertices) (h : Searching next old start marked taken queue) :
    taken.length + queue.length ≤ vertices.length := by
  have hinside : ∀ v, Joined next start v → v ∈ vertices := by
    intro v hv
    induction hv with
    | refl => exact hstart
    | tail _ hstep ih => exact hclosed _ ih _ hstep
  have hnodup : (taken ++ queue).Nodup := by
    have := h.nodup
    rw [append_assoc] at this
    exact this.of_append_right
  rw [← length_append]
  refine (subperm_of_subset hnodup fun v hv => ?_).length_le
  exact hinside v (h.joined v (mem_append.mp hv))

lemma Searching.drain (hgraph : Undirected next vertices) (hstart : start ∈ vertices) (fuel : ℕ)
    (hfuel : vertices.length ≤ fuel + taken.length)
    (h : Searching next old start marked taken queue) : Searching next old start
      (BreadthFirst.drain (Components.visit next) fuel queue (marked, taken)).2.1
      (BreadthFirst.drain (Components.visit next) fuel queue (marked, taken)).2.2 [] := by
  induction fuel generalizing marked taken queue with
  | zero =>
    have hlength := h.length_le hgraph.closed hstart
    obtain rfl : queue = [] := length_eq_zero_iff.mp (by omega)
    exact h
  | succ fuel ih =>
    cases queue with
    | nil => exact h
    | cons v queue =>
      apply ih _ h.visit
      simp only [Components.visit, length_append, length_singleton]
      omega

end

/-! ## All components -/

section

variable {next : V → List V} {vertices : List V}

omit [DecidableEq V] in
lemma Joined.symm (hgraph : Undirected next vertices) {v w : V} (hv : v ∈ vertices)
    (h : Joined next v w) : w ∈ vertices ∧ Joined next w v := by
  induction h with
  | refl => exact ⟨hv, refl⟩
  | tail _ hstep ih =>
    exact ⟨hgraph.closed _ ih.1 _ hstep, ih.2.head (hgraph.symm _ ih.1 _ hstep)⟩

omit [DecidableEq V] in
lemma foldl_covers {σ : Type} {starts : List V} {f : σ → V → σ} {I : σ → Prop}
    {Marked : σ → V → Prop}
    (hstep : ∀ done start rest s, starts = done ++ start :: rest → I s → (∀ v ∈ done, Marked s v) →
      I (f s start) ∧ Marked (f s start) start ∧ ∀ v, Marked s v → Marked (f s start) v)
    {s : σ} (hs : I s) :
    I (starts.foldl f s) ∧ ∀ v ∈ starts, Marked (starts.foldl f s) v := by
  suffices h : ∀ done rest, starts = done ++ rest →
      I (done.foldl f s) ∧ ∀ v ∈ done, Marked (done.foldl f s) v from
    h starts [] (append_nil starts).symm
  intro done
  induction done using List.reverseRecOn with
  | nil => exact fun _ _ => ⟨hs, nofun⟩
  | append_singleton done start ih =>
    intro rest hstarts
    rw [append_assoc, singleton_append] at hstarts
    obtain ⟨hI, hdone⟩ := ih _ hstarts
    obtain ⟨hI', hstart, hkept⟩ := hstep done start rest _ hstarts hI hdone
    rw [foldl_append, foldl_cons, foldl_nil]
    refine ⟨hI', fun v hv => ?_⟩
    rcases mem_append.mp hv with hv | hv
    · exact hkept v (hdone v hv)
    · exact mem_singleton.mp hv ▸ hstart

/-- Nonempty and closed under being joined, and joined itself. -/
structure IsComponent (next : V → List V) (found : List V) : Prop where
  ne_nil : found ≠ []
  mem_iff : ∀ v ∈ found, ∀ w, w ∈ found ↔ Joined next v w

/-- The searches so far: they have marked what they have found, parts of one kind each. -/
structure Found (IsPart : List V → Prop) (vertices marked : List V) (found : List (List V)) :
    Prop where
  nodup : found.flatten.Nodup
  marked_iff : ∀ v, v ∈ marked ↔ v ∈ found.flatten
  inside : ∀ v ∈ found.flatten, v ∈ vertices
  part : ∀ part ∈ found, IsPart part

variable {found : List (List V)} {IsPart : List V → Prop}

omit [DecidableEq V] in
lemma Found.append {marked marked' taken : List V} {start : V}
    (h : Found IsPart vertices marked found)
    (hsearch : Searching next found.flatten start marked' taken [])
    (hinside : ∀ v ∈ taken, v ∈ vertices) (hpart : IsPart taken) :
    Found IsPart vertices marked' (found ++ [taken]) ∧ start ∈ marked' ∧
      ∀ v ∈ marked, v ∈ marked' := by
  have hmarks : ∀ v, v ∈ marked' ↔ v ∈ found.flatten ∨ v ∈ taken := by
    intro v
    rw [hsearch.marked_iff, or_iff_left not_mem_nil]
  refine ⟨⟨?_, fun v => ?_, fun v hv => ?_, fun part hmem => ?_⟩, ?_, fun v hv => ?_⟩
  · rw [flatten_append, flatten_singleton]
    exact append_nil (found.flatten ++ taken) ▸ hsearch.nodup
  · rw [flatten_append, flatten_singleton, mem_append]
    exact hmarks v
  · rw [flatten_append, flatten_singleton, mem_append] at hv
    exact hv.elim (h.inside v) (hinside v)
  · rcases mem_append.mp hmem with hmem | hmem
    · exact h.part part hmem
    · exact mem_singleton.mp hmem ▸ hpart
  · exact (hsearch.marked_iff start).mpr (.inr hsearch.start)
  · exact (hmarks v).mpr (.inl ((h.marked_iff v).mp hv))

omit [DecidableEq V] in
lemma Found.perm {marked : List V} (h : Found IsPart vertices marked found)
    (hnodup : vertices.Nodup) (hall : ∀ v ∈ vertices, v ∈ marked) : found.flatten.Perm vertices :=
  (perm_ext_iff_of_nodup h.nodup hnodup).mpr fun v =>
    ⟨h.inside v, fun hv => (h.marked_iff v).mp (hall v hv)⟩

omit [DecidableEq V] in
lemma Found.nil (IsPart : List V → Prop) (vertices : List V) : Found IsPart vertices [] [] :=
  ⟨nodup_nil, fun v => by simp, nofun,
    nofun⟩

omit [DecidableEq V] in
lemma Searching.isComponent {old marked taken : List V} {start : V}
    (hgraph : Undirected next vertices) (hstart : start ∈ vertices)
    (hold : ∀ v ∈ old, ∀ w ∈ next v, w ∈ old)
    (h : Searching next old start marked taken []) : IsComponent next taken := by
  have htaken : start ∈ taken := by
    rcases h.start with h | h
    · exact h
    · cases h
  have hvertices : ∀ v ∈ taken, v ∈ vertices := fun v hv =>
    (Joined.symm hgraph hstart (h.joined v (.inl hv))).1
  have hdisjoint : ∀ v ∈ old, v ∉ taken := by
    intro v hv hv'
    have hnodup := h.nodup
    rw [append_nil, nodup_append] at hnodup
    exact hnodup.2.2 v hv v hv' rfl
  -- a neighbour that was marked before would have marked its neighbour
  have hclosed : ∀ v ∈ taken, ∀ w ∈ next v, w ∈ taken := by
    intro v hv w hw
    rcases (h.marked_iff w).mp (h.passed v hv w hw) with hw' | hw' | hw'
    · exact absurd hv (hdisjoint v (hold w hw' v (hgraph.symm v (hvertices v hv) w hw)))
    · exact hw'
    · cases hw'
  refine ⟨ne_nil_of_mem htaken, fun v hv w => ⟨fun hw => ?_, fun hw => ?_⟩⟩
  · have hback := (Joined.symm hgraph hstart (h.joined v (.inl hv))).2
    exact hback.trans (h.joined w (.inl hw))
  · induction hw with
    | refl => exact hv
    | tail _ hstep ih => exact hclosed _ ih _ hstep

omit [DecidableEq V] in
/-- Components are closed under neighbours, and so are several together. -/
lemma Found.closed {marked : List V} (h : Found (IsComponent next) vertices marked found) {v w : V}
    (hv : v ∈ found.flatten) (hw : w ∈ next v) : w ∈ found.flatten := by
  obtain ⟨part, hpart, hv⟩ := mem_flatten.mp hv
  refine mem_flatten.mpr ⟨part, hpart, ?_⟩
  exact ((h.part part hpart).mem_iff v hv w).mpr (single hw)

lemma Found.searchFrom (hgraph : Undirected next vertices) {state : List V × List (List V)}
    (h : Found (IsComponent next) vertices state.1 state.2) {start : V}
    (hstart : start ∈ vertices) :
    Found (IsComponent next) vertices (searchFrom next vertices.length state start).1
        (searchFrom next vertices.length state start).2 ∧
      start ∈ (searchFrom next vertices.length state start).1 ∧
      ∀ v ∈ state.1, v ∈ (searchFrom next vertices.length state start).1 := by
  unfold Components.searchFrom
  by_cases hmarked : start ∈ state.1
  · rw [if_pos hmarked]
    exact ⟨h, hmarked, fun v hv => hv⟩
  · rw [if_neg hmarked]
    have hnew : start ∉ state.2.flatten := fun hmem => hmarked ((h.marked_iff start).mpr hmem)
    have hsearch := (Searching.start_search h.nodup h.marked_iff hnew).drain hgraph hstart
      vertices.length (Nat.le_add_right _ _)
    have hpart := hsearch.isComponent hgraph hstart fun v hv w hw => h.closed hv hw
    exact h.append hsearch
      (fun v hv => (Joined.symm hgraph hstart (hsearch.joined v (.inl hv))).1) hpart

/-- **The searches find the components**, each vertex in exactly one. -/
lemma components_ok (hgraph : Undirected next vertices) :
    (components next vertices).flatten.Perm vertices ∧
      ∀ part ∈ components next vertices, IsComponent next part := by
  obtain ⟨hfound, hall⟩ := @foldl_covers V _ vertices
    (searchFrom next vertices.length)
    (fun state => Found (IsComponent next) vertices state.1 state.2) (fun state v => v ∈ state.1)
    (fun done start rest state hstarts h _ => h.searchFrom hgraph
      (hstarts ▸ mem_append_right done mem_cons_self)) ([], []) (Found.nil _ _)
  exact ⟨hfound.perm hgraph.nodup hall, hfound.part⟩

end

end Components
