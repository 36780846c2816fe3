import Reposcout.Context.Definitions
import Reposcout.Framework.Laminar

/-!
# Definition plans account for their candidates

The planner adds up the cost of what it selects by a sweep over the selected spans.  The sweep
computes the weight of their union, so the total of a plan does not depend on the order of
selection, however the spans nest.  Around it, every step of the planner keeps the limits and
leaves each candidate either selected or with one reason.
-/

namespace Reposcout.Context.Definitions

open Laminar List Option KeyedList PlannedDefinition Planner

/-! ## The cost of a selection -/

/-- The bytes a planned definition occupies in its file. -/
def spanRange (item : PlannedDefinition) : Range ℕ :=
  ⟨item.file, item.sourceSpan.startByte, item.sourceSpan.endByte⟩

lemma spanOrder_eq (left right : PlannedDefinition) :
    spanOrder left right = sweepOrder (spanRange left) (spanRange right) :=
  rfl

instance : Std.TransCmp spanOrder := transCmp_sweepOrder spanRange

variable {item : PlannedDefinition}

lemma contains_iff {previous : PlannedDefinition} (h : previous.file = item.file) :
    previous.sourceSpan.Contains item.sourceSpan ↔ spanRange item ≤ spanRange previous := by
  exact ⟨fun hcontains => ⟨h.symm, hcontains⟩, fun hle => hle.2⟩

/-- A definition costs what the outer one costs if both have the same span. -/
def Consistent (outer item : PlannedDefinition) : Prop :=
  item.file = outer.file → item.sourceSpan = outer.sourceSpan → item.tokens = outer.tokens

variable {total : ℕ} {last last' : Option PlannedDefinition}

/-- What one turn of the sweep does. -/
lemma unionStep_ok {total' : ℕ} (h : unionStep (last, total) item = .ok (last', total')) :
    ((∃ p ∈ last, spanRange item ≤ spanRange p ∧ Consistent p item) ∧
        last' = last ∧ total' = total) ∨
      ((¬ ∃ p ∈ last, spanRange item ≤ spanRange p) ∧
        (∀ p ∈ last, p.file = item.file → p.sourceSpan.endByte ≤ item.sourceSpan.startByte) ∧
        last' = some item ∧ total' = total + item.tokens) := by
  have hcount : ∀ {result : Option PlannedDefinition × ℕ}, countSpan total item = .ok result →
      result = (some item, total + item.tokens) := by
    intro result hresult
    unfold countSpan at hresult
    split_ifs at hresult
    exact (Except.ok.inj hresult).symm
  unfold unionStep at h
  cases hfilter : last.filter fun previous => previous.file = item.file with
  | none =>
    have hother : ∀ p ∈ last, p.file ≠ item.file := by
      simpa [filter_eq_none_iff] using hfilter
    rw [hfilter] at h
    cases hcount h
    refine .inr ⟨?_, fun p hp heq => absurd heq (hother p hp), rfl, rfl⟩
    rintro ⟨p, hp, hle⟩
    exact hother p hp hle.1.symm
  | some previous =>
    obtain ⟨hlast, hfile⟩ : last = some previous ∧ previous.file = item.file := by
      simpa [filter_eq_some_iff] using hfilter
    subst hlast
    rw [hfilter] at h
    dsimp only at h
    split_ifs at h with hcontains hcost hcross
    · cases h
      refine .inl ⟨⟨previous, rfl, (contains_iff hfile).mp hcontains, fun _ hspan => ?_⟩, rfl, rfl⟩
      by_contra hne
      exact hcost ⟨hspan.symm, fun heq => hne heq.symm⟩
    · cases hcount h
      refine .inr ⟨?_, ?_, rfl, rfl⟩
      · rintro ⟨p, hp, hle⟩
        obtain rfl := mem_some_iff.mp hp
        exact hcontains ((contains_iff hfile).mpr hle)
      · intro p hp _
        obtain rfl := mem_some_iff.mp hp
        exact Nat.le_of_not_lt hcross

/-- What the whole sweep does: it takes the outermost definitions and adds up their cost. -/
lemma unionFold_ok {l : List PlannedDefinition} {total' : ℕ}
    (h : l.foldlM unionStep (last, total) = .ok (last', total')) : Separated spanRange last l ∧
      total' = total + ((outermost spanRange last l).map fun item => item.tokens).sum ∧
      ∀ item ∈ l, ∃ outer, (outer ∈ last ∨ outer ∈ outermost spanRange last l) ∧
        spanRange item ≤ spanRange outer ∧ Consistent outer item := by
  induction l generalizing last total with
  | nil =>
    cases h
    exact ⟨trivial, rfl, nofun⟩
  | cons item l ih =>
    rw [foldlM_cons] at h
    cases hstep : unionStep (last, total) item with
    | error reason =>
      rw [hstep] at h
      cases h
    | ok state =>
      obtain ⟨middle, sum⟩ := state
      rw [hstep] at h
      obtain ⟨hseparated, htotal, houter⟩ := ih h
      unfold Separated outermost
      rcases unionStep_ok hstep with ⟨⟨p, hp, hle, hcost⟩, rfl, rfl⟩ | ⟨hout, hstart, rfl, rfl⟩
      · rw [if_pos ⟨p, hp, hle⟩, if_pos ⟨p, hp, hle⟩]
        refine ⟨hseparated, htotal, fun x hx => ?_⟩
        rcases mem_cons.mp hx with rfl | hx
        · exact ⟨p, .inl hp, hle, hcost⟩
        · exact houter x hx
      · rw [if_neg hout, if_neg hout]
        refine ⟨⟨hstart, hseparated⟩, ?_, fun x hx => ?_⟩
        · rw [map_cons, sum_cons, htotal]
          omega
        · rcases mem_cons.mp hx with rfl | hx
          · exact ⟨x, .inr mem_cons_self, le_rfl, fun _ _ => rfl⟩
          · obtain ⟨outer, hmem | hmem, hrest⟩ := houter x hx
            · obtain rfl := mem_some_iff.mp hmem
              exact ⟨item, .inr mem_cons_self, hrest⟩
            · exact ⟨outer, .inr (mem_cons_of_mem item hmem), hrest⟩

/-- **The cost of a selection** is the weight of the union of its spans. -/
structure Costed (items : List PlannedDefinition) (total : ℕ) : Prop where
  proper : ∀ item ∈ items, (spanRange item).Proper
  total_eq : total = unionWeight spanRange (fun item => item.tokens) items
  apart : (maximals (items.map spanRange)).Pairwise Range.Apart
  consistent : ∀ r ∈ maximals (items.map spanRange), ∃ outer ∈ items, spanRange outer = r ∧
    outer.tokens = weightAt spanRange (fun item => item.tokens) items r ∧
    ∀ item ∈ items, spanRange item = r → Consistent outer item

lemma costed_nil : Costed [] 0 where
  proper _ hitem := nomatch hitem
  total_eq := rfl
  apart := Pairwise.nil
  consistent _ hr := nomatch hr

lemma find?_sortBy_spanOrder (items : List PlannedDefinition) (r : Range ℕ) :
    ((sortBy spanOrder items).find? fun item => spanRange item = r) =
      items.find? fun item => spanRange item = r := by
  refine find?_sortBy (fun left right hleft hright => ?_) items
  have hrange : spanRange left = spanRange right :=
    (of_decide_eq_true hleft).trans (of_decide_eq_true hright).symm
  rw [spanOrder_eq, hrange]
  exact sweepOrder_self _

lemma unionCost_costed {items : List PlannedDefinition}
    (hproper : ∀ item ∈ items, (spanRange item).Proper) (h : unionCost items = .ok total) :
    Costed items total := by
  obtain ⟨⟨last, sum⟩, hfold, rfl⟩ : ∃ state : Option PlannedDefinition × ℕ,
      (sortBy spanOrder items).foldlM unionStep (none, 0) = .ok state ∧
        state.2 = total := by
    unfold unionCost at h
    cases hfold : (sortBy spanOrder items).foldlM unionStep (none, 0) with
    | error reason =>
      rw [hfold] at h
      cases h
    | ok state =>
      rw [hfold] at h
      exact ⟨state, rfl, Except.ok.inj h⟩
  obtain ⟨hseparated, hsum, houter⟩ := unionFold_ok hfold
  have hperm := sortBy_perm spanOrder items
  have hswept : Swept spanRange (sortBy spanOrder items) :=
    ⟨pairwise_sortBy spanOrder items,
      fun item hitem => hproper item (hperm.mem_iff.mp hitem)⟩
  have hmaximals := maximals_perm (hperm.map spanRange)
  refine ⟨hproper, ?_, ?_, fun r hr => ?_⟩
  · rw [hsum, Nat.zero_add, sum_outermost _ hswept hseparated]
    exact unionWeight_congr hperm (find?_sortBy_spanOrder items)
  · exact hmaximals.pairwise (maximals_apart hswept hseparated) (fun h => Std.Symm.symm _ _ h)
  · have htaken : r ∈ (outermost spanRange none (sortBy spanOrder items)).map spanRange :=
      (outermost_perm_maximals hswept hseparated).mem_iff.mpr (hmaximals.mem_iff.mpr hr)
    obtain ⟨outer, hmem, rfl⟩ := mem_map.mp htaken
    have hweight := weightAt_outermost (fun item => item.tokens) hswept hseparated hmem
    unfold weightAt at hweight
    rw [find?_sortBy_spanOrder] at hweight
    refine ⟨outer, hperm.mem_iff.mp (outermost_subset none _ hmem), rfl, hweight.symm, ?_⟩
    intro item hitem hrange
    obtain ⟨outer', hmem' | hmem', hle, hconsistent⟩ := houter item (hperm.mem_iff.mpr hitem)
    · cases hmem'
    · have houter' : spanRange outer' ∈ items.map spanRange :=
        mem_map_of_mem (hperm.mem_iff.mp (outermost_subset none _ hmem'))
      have hge := (mem_maximals.mp hr).2 houter' (hrange ▸ hle)
      have heq : spanRange outer = spanRange outer' := le_antisymm (hrange ▸ hle) hge
      obtain rfl := outermost_inj hswept hseparated hmem hmem' heq
      exact hconsistent

/-! ## What a step leaves unchanged -/

/-- A planned definition without the reasons and gaps collected for it. -/
def bare (item : PlannedDefinition) : PlannedDefinition :=
  { item with reasons := [], environmentGaps := [] }

lemma bare_addReason (reason : String) (item : PlannedDefinition) :
    bare (addReason reason item) = bare item := by
  unfold addReason
  split_ifs <;> rfl

lemma bare_addGap (gap : String) (item : PlannedDefinition) :
    bare (addGap gap item) = bare item := by
  unfold addGap
  split_ifs <;> rfl

variable {change : PlannedDefinition → PlannedDefinition}

lemma map_bare_modify
    (hchange : ∀ item, bare (change item) = bare item) (items : List PlannedDefinition)
    (index : ℕ) : (items.modify index change).map bare = items.map bare := by
  refine ext_getElem? fun i => ?_
  rw [getElem?_map, getElem?_map, getElem?_modify]
  cases items[i]? with
  | none => rfl
  | some item =>
    by_cases h : index = i
    · simp [h, hchange]
    · simp [h]

lemma eq_of_bare_eq {β : Type} {item' : PlannedDefinition} (view : PlannedDefinition → β)
    (hview : ∀ item, view (bare item) = view item) (h : bare item = bare item') :
    view item = view item' := by
  rw [← hview item, h, hview]

variable {items items' : List PlannedDefinition}

lemma exists_bare_eq (h : items'.map bare = items.map bare) (hitem : item ∈ items') :
    ∃ item' ∈ items, bare item' = bare item := by
  have hmem : bare item ∈ items.map bare := h ▸ mem_map_of_mem hitem
  exact mem_map.mp hmem

/-- The cost of a selection does not depend on the reasons and gaps. -/
lemma Costed.congr (h : items'.map bare = items.map bare) (hcosted : Costed items total) :
    Costed items' total := by
  have hmap : ∀ l : List PlannedDefinition, (l.map bare).map spanRange = l.map spanRange :=
    fun l => map_map
  have hranges : items'.map spanRange = items.map spanRange := by
    rw [← hmap items', h, hmap]
  have hweight : weightAt spanRange (fun item => item.tokens) items' =
      weightAt spanRange (fun item => item.tokens) items := by
    have hbare : ∀ l : List PlannedDefinition,
        weightAt spanRange (fun item => item.tokens) (l.map bare) =
          weightAt spanRange (fun item => item.tokens) l :=
      fun l => weightAt_map bare spanRange (fun item => item.tokens) l
    rw [← hbare items', h, hbare]
  refine ⟨fun item hitem => ?_, ?_, hranges ▸ hcosted.apart, fun r hr => ?_⟩
  · obtain ⟨item', hitem', hbare⟩ := exists_bare_eq h hitem
    have hrange : spanRange item' = spanRange item := eq_of_bare_eq spanRange (fun _ => rfl) hbare
    exact hrange ▸ hcosted.proper item' hitem'
  · rw [hcosted.total_eq]
    unfold unionWeight
    rw [hranges, hweight]
  · rw [hranges] at hr
    obtain ⟨outer, houter, hrange, htokens, hconsistent⟩ := hcosted.consistent r hr
    obtain ⟨outer', houter', hbare⟩ := exists_bare_eq h.symm houter
    have hrange' : spanRange outer' = spanRange outer := eq_of_bare_eq spanRange (fun _ => rfl) hbare
    have htokens' : outer'.tokens = outer.tokens :=
      eq_of_bare_eq tokens (fun _ => rfl) hbare
    have hspan' : outer'.sourceSpan = outer.sourceSpan :=
      eq_of_bare_eq sourceSpan (fun _ => rfl) hbare
    refine ⟨outer', houter', hrange'.trans hrange, by rw [htokens', htokens, hweight], ?_⟩
    intro item hitem hitemRange hfile hspan
    obtain ⟨item', hitem', hbare'⟩ := exists_bare_eq h hitem
    have hbareRange : spanRange item' = spanRange item := eq_of_bare_eq spanRange (fun _ => rfl) hbare'
    have hcost : item'.tokens = outer.tokens := by
      refine hconsistent item' hitem' (hbareRange.trans hitemRange) ?_ ?_
      · exact congrArg Range.group (hbareRange.trans (hitemRange.trans hrange.symm))
      · exact (eq_of_bare_eq sourceSpan (fun _ => rfl) hbare').trans
          (hspan.trans hspan')
    have hitemTokens : item'.tokens = item.tokens :=
      eq_of_bare_eq tokens (fun _ => rfl) hbare'
    rw [← hitemTokens, hcost, htokens']

/-! ## Selecting one candidate -/

section

variable {inputs : List DefinitionPlanInput}

/-- The position of a planned definition: one-based file and definition. -/
def position (item : PlannedDefinition) : ℕ × ℕ := (item.file, item.definition)

def candidatePosition (candidate : Candidate inputs) : ℕ × ℕ := (candidate.1 + 1, candidate.2)

lemma candidatePosition_injective :
    Function.Injective (@candidatePosition inputs) := by
  rintro ⟨file, definition⟩ ⟨file', definition'⟩ h
  obtain ⟨hfile, rfl⟩ := Prod.mk.inj h
  exact Prod.ext (Fin.ext (by omega)) rfl

structure PlannedFrom (inputs : List DefinitionPlanInput) (item : PlannedDefinition) : Prop where
  exists_fact : ∃ (candidate : Candidate inputs) (fact : DefinitionFact)
    (planning : DefinitionPlanningFact),
    position item = candidatePosition candidate ∧
    unavailable (inputs.get candidate.1) = none ∧
    (inputs.get candidate.1).definitions.definitions[candidate.2]? = some fact ∧
    cost candidate = some planning ∧
    item.name = fact.symbol.name ∧ item.kind = fact.symbol.kind ∧
    item.declarationSpan = fact.declarationSpan ∧ fact.sourceSpan = some item.sourceSpan ∧
    item.tokens = planning.tokens

def selectedFiles (items : List PlannedDefinition) : Finset ℕ :=
  (items.map fun item => item.file).toFinset

variable {item : PlannedDefinition} {report : DefinitionPlanReport} {item' : PlannedDefinition}

lemma admissible_ok (h : admissible report item = .ok (item', total)) :
    item' = item ∧ report.selected.length < report.maxDefinitions ∧
      (item.file ∈ selectedFiles report.selected ∨
        (selectedFiles report.selected).card < report.maxFiles) ∧
      unionCost (report.selected ++ [item]) = .ok total ∧ total ≤ report.tokenBudget := by
  unfold admissible at h
  dsimp only at h
  cases hcost : unionCost (report.selected ++ [item]) with
  | error reason =>
    rw [hcost] at h
    split_ifs at h
  | ok sum =>
    rw [hcost] at h
    dsimp only at h
    split_ifs at h with hlength hfiles hbudget
    cases h
    refine ⟨rfl, Nat.lt_of_not_le hlength, ?_, rfl, Nat.le_of_not_lt hbudget⟩
    by_cases hmem : item.file ∈ selectedFiles report.selected
    · exact .inl hmem
    · exact .inr (Nat.lt_of_not_le fun hcard => hfiles ⟨hmem, hcard⟩)

variable {candidate : Candidate inputs}

lemma selection_ok {role reason : String}
    (h : selection report candidate role reason = .ok (item, total)) :
    PlannedFrom inputs item ∧ position item = candidatePosition candidate ∧
      (spanRange item).Proper ∧ report.selected.length < report.maxDefinitions ∧
      (item.file ∈ selectedFiles report.selected ∨
        (selectedFiles report.selected).card < report.maxFiles) ∧
      unionCost (report.selected ++ [item]) = .ok total ∧ total ≤ report.tokenBudget := by
  unfold selection at h
  dsimp only at h
  cases hunavailable : unavailable inputs[candidate.1] with
  | some failure =>
    rw [hunavailable] at h
    cases h
  | none =>
    rw [hunavailable] at h
    split_ifs at h with hencoding
    cases hfact : inputs[candidate.1].definitions.definitions[candidate.2]? with
    | none =>
      rw [hfact] at h
      cases h
    | some fact =>
      rw [hfact] at h
      dsimp only at h
      cases hspan : fact.sourceSpan with
      | none =>
        rw [hspan] at h
        cases h
      | some span =>
        rw [hspan] at h
        dsimp only at h
        split_ifs at h with hproper
        cases hcost : cost candidate with
        | none =>
          rw [hcost] at h
          cases h
        | some planning =>
          rw [hcost] at h
          obtain ⟨rfl, hrest⟩ := admissible_ok h
          exact ⟨⟨candidate, fact, planning, rfl, hunavailable, hfact, hcost, rfl, rfl, rfl, hspan,
            rfl⟩, rfl, Nat.lt_of_not_le hproper, hrest⟩

/-! ## The invariant of planning -/

/-- **The planner invariant.** -/
structure PlannerOk (limits : DefinitionPlanLimits) (planner : Planner inputs) : Prop where
  token_budget : planner.report.tokenBudget = limits.tokenBudget
  max_files : planner.report.maxFiles = min limits.maxFiles 32
  max_definitions : planner.report.maxDefinitions = min limits.maxDefinitions 32
  files : planner.report.files = inputs.zipIdx.map fun item => planFile item.1 item.2
  costed : Costed planner.report.selected planner.report.selectedTokens
  within_budget : planner.report.selectedTokens ≤ limits.tokenBudget
  within_definitions : planner.report.selected.length ≤ min limits.maxDefinitions 32
  within_files : (selectedFiles planner.report.selected).card ≤ min limits.maxFiles 32
  planned : ∀ item ∈ planner.report.selected, PlannedFrom inputs item
  positions : (KeyedList.keys planner.selected).map candidatePosition =
    planner.report.selected.map position
  selected_nodup : (KeyedList.keys planner.selected).Nodup
  failures_nodup : (KeyedList.keys planner.failures).Nodup
  mem_candidates : ∀ candidate, candidate ∈ planner.candidates ↔
    candidate ∈ KeyedList.keys planner.selected ∨ candidate ∈ KeyedList.keys planner.failures
  details : planner.report.omissions.length ≤ 32

structure SameSelection (report report' : DefinitionPlanReport) : Prop where
  token_budget : report'.tokenBudget = report.tokenBudget
  max_files : report'.maxFiles = report.maxFiles
  max_definitions : report'.maxDefinitions = report.maxDefinitions
  files : report'.files = report.files
  selected_tokens : report'.selectedTokens = report.selectedTokens
  selected : report'.selected.map bare = report.selected.map bare
  details : report.omissions.length ≤ 32 → report'.omissions.length ≤ 32

lemma PlannedFrom.congr (h : bare item' = bare item) (hplanned : PlannedFrom inputs item) :
    PlannedFrom inputs item' := by
  obtain ⟨candidate, fact, planning, hposition, hunavailable, hfact, hcost, hname, hkind,
    hdeclaration, hspan, htokens⟩ := hplanned.exists_fact
  refine ⟨candidate, fact, planning, ?_, hunavailable, hfact, hcost, ?_, ?_, ?_, ?_, ?_⟩
  · exact (eq_of_bare_eq position (fun _ => rfl) h).trans hposition
  · exact (eq_of_bare_eq name (fun _ => rfl) h).trans hname
  · exact (eq_of_bare_eq kind (fun _ => rfl) h).trans hkind
  · exact (eq_of_bare_eq declarationSpan (fun _ => rfl) h).trans hdeclaration
  · rw [eq_of_bare_eq sourceSpan (fun _ => rfl) h]
    exact hspan
  · exact (eq_of_bare_eq tokens (fun _ => rfl) h).trans htokens

/-- A step that only changes what the report says about its selection keeps the invariant. -/
lemma PlannerOk.of_report {limits : DefinitionPlanLimits} {planner : Planner inputs}
    (h : PlannerOk limits planner)
    (hsame : SameSelection planner.report report) :
    PlannerOk limits { planner with report := report } := by
  have hview : ∀ {β : Type} (view : PlannedDefinition → β), (∀ item, view (bare item) = view item) →
        report.selected.map view = planner.report.selected.map view := by
    intro β view hbare
    have hmap : ∀ l : List PlannedDefinition, (l.map bare).map view = l.map view := by
      intro l
      rw [List.map_map]
      exact map_congr_left fun item _ => hbare item
    rw [← hmap report.selected, hsame.selected, hmap]
  have hfiles : selectedFiles report.selected = selectedFiles planner.report.selected :=
    congrArg List.toFinset (hview file fun _ => rfl)
  have hlength : report.selected.length = planner.report.selected.length := by
    have hmap := congrArg List.length hsame.selected
    rwa [length_map, length_map] at hmap
  refine
    { token_budget := hsame.token_budget.trans h.token_budget
      max_files := hsame.max_files.trans h.max_files
      max_definitions := hsame.max_definitions.trans h.max_definitions
      files := hsame.files.trans h.files
      costed := ?_
      within_budget := hsame.selected_tokens ▸ h.within_budget
      within_definitions := hlength ▸ h.within_definitions
      within_files := hfiles ▸ h.within_files
      planned := fun item hitem => ?_
      positions := h.positions.trans (hview position fun _ => rfl).symm
      selected_nodup := h.selected_nodup
      failures_nodup := h.failures_nodup
      mem_candidates := h.mem_candidates
      details := hsame.details h.details }
  · show Costed report.selected report.selectedTokens
    rw [hsame.selected_tokens]
    exact h.costed.congr hsame.selected
  · obtain ⟨item', hitem', hbare⟩ := exists_bare_eq hsame.selected hitem
    exact (h.planned item' hitem').congr hbare.symm

lemma sameSelection_pushOmission (report : DefinitionPlanReport)
    (omission : DefinitionPlanOmission) :
    SameSelection report (pushOmission report omission) := by
  unfold pushOmission
  split_ifs with h
  · refine ⟨rfl, rfl, rfl, rfl, rfl, rfl, fun _ => ?_⟩
    show (report.omissions ++ [omission]).length ≤ 32
    rw [length_append, length_singleton]
    omega
  · exact ⟨rfl, rfl, rfl, rfl, rfl, rfl, id⟩

lemma sameSelection_modifySelected (report : DefinitionPlanReport) (index : ℕ)
    (hchange : ∀ item, bare (change item) = bare item) :
    SameSelection report (modifySelected report index change) :=
  ⟨rfl, rfl, rfl, rfl, rfl, map_bare_modify hchange report.selected index, id⟩

section

variable {limits : DefinitionPlanLimits} {planner : Planner inputs} (h : PlannerOk limits planner)

include h

lemma PlannerOk.push (omission : DefinitionPlanOmission) :
    PlannerOk limits (planner.push omission) :=
  h.of_report (sameSelection_pushOmission planner.report omission)

lemma PlannerOk.countUnresolved :
    PlannerOk limits planner.countUnresolved :=
  h.of_report ⟨rfl, rfl, rfl, rfl, rfl, rfl, id⟩

lemma PlannerOk.countAmbiguous :
    PlannerOk limits planner.countAmbiguous :=
  h.of_report ⟨rfl, rfl, rfl, rfl, rfl, rfl, id⟩

lemma PlannerOk.countUnavailable :
    PlannerOk limits planner.countUnavailable :=
  h.of_report ⟨rfl, rfl, rfl, rfl, rfl, rfl, id⟩

lemma PlannerOk.fail (candidate : Candidate inputs)
    (entry : Option (String × Bool) → String × Bool) :
    PlannerOk limits { planner with
      candidates := insert candidate planner.candidates
      failures := alter candidate entry planner.failures } where
  token_budget := h.token_budget
  max_files := h.max_files
  max_definitions := h.max_definitions
  files := h.files
  costed := h.costed
  within_budget := h.within_budget
  within_definitions := h.within_definitions
  within_files := h.within_files
  planned := h.planned
  positions := h.positions
  selected_nodup := h.selected_nodup
  failures_nodup := nodup_keys_alter h.failures_nodup
  mem_candidates other := by
    rw [Finset.mem_insert, h.mem_candidates, mem_keys_alter]
    tauto
  details := h.details

lemma PlannerOk.known (hselected : candidate ∈ keys planner.selected) :
    insert candidate planner.candidates = planner.candidates :=
  Finset.insert_eq_self.mpr ((h.mem_candidates candidate).mpr (.inl hselected))

lemma PlannerOk.select {role reason : String} {item : PlannedDefinition}
    (hnew : get? candidate planner.selected = none)
    (hselection : selection planner.report candidate role reason = .ok (item, total)) :
    PlannerOk limits { planner with
      candidates := insert candidate planner.candidates
      failures := planner.failures.filter fun entry => entry.1 ≠ candidate
      selected := alter candidate (fun _ => planner.report.selected.length)
        planner.selected
      report :=
        { planner.report with
          selected := planner.report.selected ++ [item]
          selectedTokens := total } } := by
  obtain ⟨hplanned, hposition, hproper, hlength, hfiles, hcost, hbudget⟩ := selection_ok hselection
  have hlength' := h.max_definitions ▸ hlength
  refine
    { token_budget := h.token_budget
      max_files := h.max_files
      max_definitions := h.max_definitions
      files := h.files
      costed := unionCost_costed ?_ hcost
      within_budget := h.token_budget ▸ hbudget
      within_definitions := ?_
      within_files := ?_
      planned := ?_
      positions := ?_
      selected_nodup := nodup_keys_alter h.selected_nodup
      failures_nodup := nodup_keys_filter _ h.failures_nodup
      mem_candidates := fun other => ?_
      details := h.details }
  · intro other hother
    rcases mem_append.mp hother with hold | hnew
    · exact h.costed.proper other hold
    · rw [mem_singleton.mp hnew]
      exact hproper
  · show (planner.report.selected ++ [item]).length ≤ min limits.maxDefinitions 32
    rw [length_append, length_singleton]
    exact hlength'
  · have hinsert : selectedFiles (planner.report.selected ++ [item]) =
        insert item.file (selectedFiles planner.report.selected) := by
      ext file
      simp only [selectedFiles, List.mem_toFinset, map_append, map_singleton,
        mem_append, mem_singleton, Finset.mem_insert]
      tauto
    show (selectedFiles (planner.report.selected ++ [item])).card ≤ min limits.maxFiles 32
    rw [hinsert]
    rcases hfiles with hmem | hcard
    · rw [Finset.insert_eq_self.mpr hmem]
      exact h.within_files
    · rw [h.max_files] at hcard
      exact (Finset.card_insert_le _ _).trans hcard
  · intro other hother
    rcases mem_append.mp hother with hold | hnew
    · exact h.planned other hold
    · rw [mem_singleton.mp hnew]
      exact hplanned
  · rw [alter_of_get?_eq_none hnew, KeyedList.keys, map_append, map_append,
      map_append, ← KeyedList.keys, h.positions]
    exact congrArg (planner.report.selected.map position ++ [·]) hposition.symm
  · rw [Finset.mem_insert, h.mem_candidates, mem_keys_alter, mem_keys_filter_ne]
    by_cases hother : other = candidate
    · simp [hother]
    · simp [hother]

lemma PlannerOk.admitOne (candidate : Candidate inputs) (role reason : String) (explicit : Bool) :
    PlannerOk limits (planner.admitOne candidate role reason explicit).1 := by
  unfold Planner.admitOne
  dsimp only
  cases hget : get? candidate planner.selected with
  | some index =>
    have hmem : candidate ∈ keys planner.selected :=
      mem_map_of_mem (mem_of_get? hget)
    rw [h.known hmem]
    exact h.of_report (sameSelection_modifySelected planner.report index (bare_addReason reason))
  | none =>
    cases hselection : selection planner.report candidate role reason with
    | ok planned => exact h.select hget hselection
    | error failure => exact h.fail candidate _

lemma PlannerOk.admitAll (candidates : List (Candidate inputs))
    (role reason : String) (explicit : Bool) :
    PlannerOk limits (planner.admitAll candidates role reason explicit) :=
  foldlRecOn candidates _ h fun _ hok candidate _ => hok.admitOne candidate role reason explicit

variable (file : Fin inputs.length)

lemma PlannerOk.seedFile (selector : DefinitionSelector) :
    PlannerOk limits (planner.seedFile file selector) := by
  unfold Planner.seedFile
  cases unavailable inputs[file] with
  | some reason => exact h.countUnavailable.push _
  | none =>
    dsimp only
    split_ifs
    · exact h.countUnavailable.push _
    · exact h.countUnresolved.push _
    · exact foldlRecOn _ _ h.countAmbiguous fun _ hok candidate _ => hok.fail candidate _
    · exact h.admitAll _ _ _ _

lemma PlannerOk.seed (seed : DefinitionSeed) :
    PlannerOk limits (planner.seed seed) := by
  unfold Planner.seed
  dsimp only
  split
  · exact h.seedFile _ _
  · exact h.countUnresolved.push _
  · exact h.countAmbiguous.push _

lemma PlannerOk.need (candidate : Candidate inputs) (environment : DefinitionEnvironment) :
    PlannerOk limits (Planner.need candidate planner environment) := by
  unfold Planner.need
  have hadmit := h.admitOne (candidate.1, environment.definition) "environment" environment.reason false
  dsimp only
  split
  · next planner' heq =>
    rw [heq] at hadmit
    exact hadmit
  · next planner' heq =>
    rw [heq] at hadmit
    unfold Planner.environmentGap
    split
    · exact hadmit
    · exact hadmit.of_report (sameSelection_modifySelected _ _ (bare_addGap _))

lemma PlannerOk.environment (candidate : Candidate inputs) :
    PlannerOk limits (planner.environment candidate) := by
  unfold Planner.environment
  cases cost candidate with
  | none => exact h
  | some planning =>
    exact foldlRecOn _ _ h fun _ hok environment _ => hok.need candidate environment

lemma PlannerOk.expand : PlannerOk limits (planner.expand file) := by
  unfold Planner.expand
  cases unavailable inputs[file] with
  | some reason => exact (h.push _).admitAll _ _ _ _
  | none => exact h.admitAll _ _ _ _

end

lemma plannerOk_new (inputs : List DefinitionPlanInput) (limits : DefinitionPlanLimits) :
    PlannerOk limits (new inputs limits) where
  token_budget := rfl
  max_files := rfl
  max_definitions := rfl
  files := rfl
  costed := costed_nil
  within_budget := Nat.zero_le _
  within_definitions := Nat.zero_le _
  within_files := Nat.zero_le _
  planned _ hitem := nomatch hitem
  positions := rfl
  selected_nodup := nodup_nil
  failures_nodup := nodup_nil
  mem_candidates candidate := by simp [new]
  details := Nat.zero_le _

lemma plannerOk_run (inputs : List DefinitionPlanInput) (seeds : List DefinitionSeed)
    (limits : DefinitionPlanLimits) : PlannerOk limits (run inputs seeds limits) := by
  unfold run
  have hnew := plannerOk_new inputs limits
  split_ifs
  · exact foldlRecOn _ _ hnew fun _ hok file _ => hok.expand file
  · have hseeded : PlannerOk limits (seeds.foldl seed (new inputs limits)) :=
      foldlRecOn _ _ hnew fun _ hok seed _ => hok.seed seed
    exact foldlRecOn _ _ hseeded fun _ hok candidate _ => hok.environment candidate

/-! ## Accounting for the candidates -/

section

variable {limits : DefinitionPlanLimits} {planner : Planner inputs}

/-- Details are listed until there are 32, the rest is counted. -/
lemma foldl_pushOmission (omissions : List DefinitionPlanOmission)
    (report : DefinitionPlanReport) (h : report.omissions.length ≤ 32) :
    omissions.foldl pushOmission report =
      { report with
        omissions := (report.omissions ++ omissions).take 32
        omittedDetails :=
          report.omittedDetails + (report.omissions.length + omissions.length - 32) } := by
  induction omissions generalizing report with
  | nil =>
    rw [foldl_nil, append_nil, take_of_length_le h, length_nil, Nat.sub_eq_zero_of_le (by omega)]
    rfl
  | cons omission omissions ih =>
    rw [foldl_cons, pushOmission]
    split_ifs with hroom
    · rw [ih]
      · have hcount : report.omissions.length + 1 + omissions.length - 32 =
            report.omissions.length + (omissions.length + 1) - 32 := by omega
        simp [hcount]
      · rw [length_append, length_singleton]
        omega
    · rw [ih { report with omittedDetails := report.omittedDetails + 1 } h]
      have hfull : report.omissions.length = 32 := by omega
      have hcount : report.omittedDetails + 1 + (32 + omissions.length - 32) =
          report.omittedDetails + (32 + (omissions.length + 1) - 32) := by omega
      have htake : ∀ rest, (report.omissions ++ rest).take 32 = report.omissions := by
        intro rest
        rw [take_append_of_le_length hfull.ge, take_of_length_le h]
      rw [htake, htake, hfull, length_cons, hcount]

variable (h : PlannerOk limits planner)

include h

open KeyedList

lemma PlannerOk.mem_selected_iff (candidate : Candidate inputs) :
    candidate ∈ keys planner.selected ↔
      candidatePosition candidate ∈ planner.report.selected.map position := by
  rw [← h.positions, List.mem_map_of_injective candidatePosition_injective]

lemma PlannerOk.length_selected :
    planner.selected.length = planner.report.selected.length := by
  have hlength := congrArg length h.positions
  rwa [length_map, KeyedList.keys, length_map, length_map] at hlength

lemma PlannerOk.mem_openFailures_iff (candidate : Candidate inputs) :
    candidate ∈ keys planner.openFailures ↔
      candidate ∈ planner.candidates ∧ candidate ∉ keys planner.selected := by
  rw [h.mem_candidates]
  constructor
  · intro hmem
    obtain ⟨entry, hentry, rfl⟩ := mem_map.mp hmem
    obtain ⟨hfailure, hopen⟩ := mem_filter.mp hentry
    have hnone := get?_eq_none_iff.mp (isNone_iff_eq_none.mp hopen)
    exact ⟨.inr (mem_map_of_mem (mem_sortBy.mp hfailure)), hnone⟩
  · rintro ⟨hselected | hfailure, hnone⟩
    · exact absurd hselected hnone
    · obtain ⟨entry, hentry, rfl⟩ := mem_map.mp hfailure
      refine mem_map_of_mem (mem_filter.mpr ⟨mem_sortBy.mpr hentry, ?_⟩)
      exact isNone_iff_eq_none.mpr (get?_eq_none_iff.mpr hnone)

lemma PlannerOk.nodup_openFailures :
    (keys planner.openFailures).Nodup := by
  refine nodup_keys_filter _ ?_
  exact ((sortBy_perm _ planner.failures).map Prod.fst).nodup_iff.mpr h.failures_nodup

lemma PlannerOk.card_candidates :
    planner.candidates.card = planner.selected.length + planner.openFailures.length := by
  have hunion : planner.candidates =
      (keys planner.selected ++ keys planner.openFailures).toFinset := by
    ext candidate
    rw [List.mem_toFinset, mem_append, h.mem_openFailures_iff, h.mem_candidates]
    tauto
  have hnodup : (keys planner.selected ++ keys planner.openFailures).Nodup := by
    refine nodup_append.mpr ⟨h.selected_nodup, h.nodup_openFailures, ?_⟩
    rintro candidate hselected other hopen rfl
    exact ((h.mem_openFailures_iff candidate).mp hopen).2 hselected
  rw [hunion, toFinset_card_of_nodup hnodup, length_append, KeyedList.keys,
    KeyedList.keys, length_map, length_map]

lemma finish_eq : planner.finish =
      { planner.report with
        omissions := (planner.report.omissions ++
          planner.openFailures.map failureOmission).take 32
        omittedDetails := planner.report.omittedDetails +
          (planner.report.omissions.length + planner.openFailures.length - 32)
        candidateDefinitions := planner.candidates.card
        omittedDefinitions := planner.openFailures.length
        selectedFiles := (selectedFiles planner.report.selected).card } := by
  unfold finish
  rw [foldl_pushOmission _ _ h.details, length_map, h.card_candidates, Nat.add_sub_cancel_left]
  rfl

end

end

lemma plan_files (inputs : List DefinitionPlanInput) (seeds : List DefinitionSeed)
    (limits : DefinitionPlanLimits) :
    (plan inputs seeds limits).files = inputs.zipIdx.map fun item => planFile item.1 item.2 := by
  have h := plannerOk_run inputs seeds limits
  unfold plan
  rw [finish_eq h]
  exact h.files

lemma plan_planned (inputs : List DefinitionPlanInput) (seeds : List DefinitionSeed)
    (limits : DefinitionPlanLimits) :
    ∀ item ∈ (plan inputs seeds limits).selected, PlannedFrom inputs item := by
  have h := plannerOk_run inputs seeds limits
  unfold plan
  rw [finish_eq h]
  exact h.planned

/-- **A definition plan accounts for its candidates.** The tokens of a plan are the weight of the
union of the selected spans, whose maximal ranges do not overlap and cost what any of the
selected definitions with that span costs. The plan keeps its limits and selects no definition
twice. Its candidates are the selected and the omitted definitions, and each omitted one has
exactly one entry, with its reason, among the omissions that are listed or counted. -/
theorem definition_plan_accounts (inputs : List DefinitionPlanInput)
    (seeds : List DefinitionSeed) (limits : DefinitionPlanLimits) :
    let planner := Planner.run inputs seeds limits
    let report := plan inputs seeds limits
    Costed report.selected report.selectedTokens ∧
    report.selectedTokens ≤ limits.tokenBudget ∧
    report.selected.length ≤ min limits.maxDefinitions 32 ∧
    (selectedFiles report.selected).card ≤ min limits.maxFiles 32 ∧
    report.selectedFiles = (selectedFiles report.selected).card ∧
    (report.selected.map position).Nodup ∧
    report.candidateDefinitions = planner.candidates.card ∧
    (∀ item ∈ report.selected, ∃ candidate ∈ planner.candidates,
      candidatePosition candidate = position item) ∧
    report.candidateDefinitions = report.selected.length + report.omittedDefinitions ∧
    (∀ candidate, candidate ∈ planner.openFailures.map Prod.fst ↔ candidate ∈ planner.candidates ∧
        candidatePosition candidate ∉ report.selected.map position) ∧
    (planner.openFailures.map Prod.fst).Nodup ∧
    planner.openFailures.length = report.omittedDefinitions ∧
    report.omissions = (planner.report.omissions ++
      planner.openFailures.map Planner.failureOmission).take 32 ∧
    report.omissions.length + report.omittedDetails =
      planner.report.omissions.length + planner.report.omittedDetails +
        report.omittedDefinitions := by
  intro planner report
  have h : PlannerOk limits planner := plannerOk_run inputs seeds limits
  have hreport : report = _ := finish_eq h
  have hposition : (planner.report.selected.map position).Nodup := by
    rw [← h.positions]
    exact h.selected_nodup.map candidatePosition_injective
  rw [hreport]
  refine ⟨h.costed, h.within_budget, h.within_definitions, h.within_files, rfl, hposition, rfl,
    fun item hitem => ?_, ?_, fun candidate => ?_, h.nodup_openFailures, rfl, rfl, ?_⟩
  · have hmem : position item ∈ planner.report.selected.map position := List.mem_map_of_mem hitem
    rw [← h.positions] at hmem
    obtain ⟨candidate, hcandidate, heq⟩ := List.mem_map.mp hmem
    exact ⟨candidate, (h.mem_candidates candidate).mpr (.inl hcandidate), heq⟩
  · show planner.candidates.card = planner.report.selected.length + planner.openFailures.length
    rw [h.card_candidates, h.length_selected]
  · exact (h.mem_openFailures_iff candidate).trans
      (and_congr_right fun _ => not_congr (h.mem_selected_iff candidate))
  · show ((planner.report.omissions ++
        planner.openFailures.map Planner.failureOmission).take 32).length +
      (planner.report.omittedDetails +
        (planner.report.omissions.length + planner.openFailures.length - 32)) =
      planner.report.omissions.length + planner.report.omittedDetails + planner.openFailures.length
    rw [length_take, length_append, length_map]
    omega

end Reposcout.Context.Definitions
