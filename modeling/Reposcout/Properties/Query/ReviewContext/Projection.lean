import Reposcout.Query.ReviewContext.Projection

/-!
# Projections are monotone in the token budget

A larger budget fits whatever a smaller one fits, so on one rung the bisection goes no less far.
Between rungs the choice just below the start of a rung is kept until the rung admits as many
entries and hunks.  The admitted entries and hunks of all rungs are prefixes of one order, so as
many means the same ones and more.
-/

namespace Reposcout.Query.ReviewContext

open List Option

/-! ## Selections -/

def entryOf : BriefItem → Option ℕ
  | .entry change => some change
  | _ => none

def hunkOf : BriefItem → Option ℕ
  | .hunk index => some index
  | _ => none

open ReviewBriefSelection

lemma foldl_select_eq (items : List BriefItem) (selection : ReviewBriefSelection) :
    let selected := items.foldl (fun selection item => selection.select item true) selection
    selected.entries = (items.filterMap entryOf).toFinset ∪ selection.entries ∧
      selected.hunks = (items.filterMap hunkOf).toFinset ∪ selection.hunks ∧
      selected.level = selection.level ∧
      (.explainedSites ∉ items → selected.explainedSites = selection.explainedSites) := by
  induction items generalizing selection with
  | nil => simp
  | cons item items ih =>
    obtain ⟨hentries, hhunks, hlevel, hsites⟩ := ih (selection.select item true)
    simp only [foldl_cons]
    refine ⟨?_, ?_, ?_, ?_⟩
    · rw [hentries]
      cases item <;> simp [filterMap_cons, entryOf, select, toggle]
    · rw [hhunks]
      cases item <;> simp [filterMap_cons, hunkOf, select, toggle]
    · rw [hlevel]
      cases item <;> rfl
    · intro hnone
      rw [mem_cons, not_or] at hnone
      rw [hsites hnone.2]
      cases item with
      | explainedSites => exact absurd rfl hnone.1
      | _ => rfl

lemma mem_hunkItems {hunks : List (ReviewBriefHunk × ℕ)} {detailed : List ℕ} {item : BriefItem}
    (h : item ∈ (hunkItems hunks detailed).1) :
    ∃ hunk ∈ hunks, item = .hunk hunk.2 ∨ item = .details hunk.1.change := by
  induction hunks generalizing detailed with
  | nil => cases h
  | cons hunk rest ih =>
    have hrest : ∀ {detailed : List ℕ}, item ∈ (hunkItems rest detailed).1 →
        ∃ other ∈ hunk :: rest, item = .hunk other.2 ∨ item = .details other.1.change := by
      intro detailed hmem
      obtain ⟨other, hother, hitem⟩ := ih hmem
      exact ⟨other, mem_cons_of_mem _ hother, hitem⟩
    unfold hunkItems at h
    split_ifs at h with hdetailed
    · rcases mem_cons.mp h with hhunk | hmem
      · exact ⟨hunk, mem_cons_self, .inl hhunk⟩
      · exact hrest hmem
    · rcases mem_cons.mp h with hhunk | hmem
      · exact ⟨hunk, mem_cons_self, .inl hhunk⟩
      · rcases mem_cons.mp hmem with hdetails | hmem
        · exact ⟨hunk, mem_cons_self, .inr hdetails⟩
        · exact hrest hmem

lemma explainedSites_not_mem_items (brief : ReviewBrief) : .explainedSites ∉ brief.items := by
  have hhunks : .explainedSites ∉ (hunkItems brief.shownHunks []).1 := by
    intro hmem
    obtain ⟨hunk, -, hitem | hitem⟩ := mem_hunkItems hmem
    · exact BriefItem.noConfusion hitem
    · exact BriefItem.noConfusion hitem
  unfold ReviewBrief.items
  simp [hhunks]

section

variable (projection : BriefProjection)

open BriefProjection

lemma prefixSelection_entries (rung length : ℕ) :
    (projection.prefixSelection rung length).entries =
      ((projection.brief.items.take length).filterMap entryOf).toFinset := by
  unfold prefixSelection setSelection rungBase
  rw [(foldl_select_eq _ _).1]
  split_ifs <;> simp [filterMap_cons, entryOf, ofLevel]

lemma prefixSelection_hunks (rung length : ℕ) : (projection.prefixSelection rung length).hunks =
      ((projection.brief.items.take length).filterMap hunkOf).toFinset := by
  unfold prefixSelection setSelection rungBase
  rw [(foldl_select_eq _ _).2.1]
  split_ifs <;> simp [filterMap_cons, hunkOf, ofLevel]

lemma prefixSelection_level (rung length : ℕ) :
    (projection.prefixSelection rung length).level = rungLevel rung := by
  unfold prefixSelection setSelection
  rw [(foldl_select_eq _ _).2.2.1]
  rfl

lemma prefixSelection_explainedSites (rung length : ℕ) :
    (projection.prefixSelection rung length).explainedSites = rungSites rung := by
  have hitems : .explainedSites ∉ projection.brief.items.take length := fun hmem =>
    explainedSites_not_mem_items projection.brief (mem_of_mem_take hmem)
  unfold prefixSelection setSelection rungBase
  rw [foldl_append, (foldl_select_eq _ _).2.2.2 hitems]
  split_ifs with hsites
  · rw [hsites]
    rfl
  · rw [Bool.eq_false_iff.mpr hsites]
    rfl

lemma prefixSelection_mono (rung other : ℕ) {shorter longer : ℕ} (hle : shorter ≤ longer) :
    (projection.prefixSelection rung shorter).entries ⊆
        (projection.prefixSelection other longer).entries ∧
      (projection.prefixSelection rung shorter).hunks ⊆
        (projection.prefixSelection other longer).hunks := by
  have htake : projection.brief.items.take shorter <+: projection.brief.items.take longer :=
    take_prefix_take_left hle
  rw [prefixSelection_entries, prefixSelection_entries, prefixSelection_hunks,
    prefixSelection_hunks]
  refine ⟨fun value hvalue => ?_, fun value hvalue => ?_⟩
  · rw [List.mem_toFinset] at hvalue ⊢
    exact (htake.filterMap entryOf).subset hvalue
  · rw [List.mem_toFinset] at hvalue ⊢
    exact (htake.filterMap hunkOf).subset hvalue

variable {rung : ℕ}

/-- **Prefixes that admit as many entries and hunks admit the same ones and more.** -/
lemma prefixSelection_subset {other left right : ℕ}
    (h : projection.admittedCount rung left ≤ projection.admittedCount other right) :
    (projection.prefixSelection rung left).entries ⊆
        (projection.prefixSelection other right).entries ∧
      (projection.prefixSelection rung left).hunks ⊆
        (projection.prefixSelection other right).hunks := by
  rcases Nat.le_total left right with hle | hle
  · exact prefixSelection_mono projection rung other hle
  · -- The other prefix is shorter, so it admits a subset that is no smaller.
    obtain ⟨hentries, hhunks⟩ := prefixSelection_mono projection other rung hle
    have hentriesCard := Finset.card_le_card hentries
    have hhunksCard := Finset.card_le_card hhunks
    unfold admittedCount at h
    rw [Finset.eq_of_subset_of_card_le hentries (by omega),
      Finset.eq_of_subset_of_card_le hhunks (by omega)]
    exact ⟨Finset.Subset.refl _, Finset.Subset.refl _⟩

/-! ## Budgets -/

variable {projection} {budget : ℕ}
variable {selection : ReviewBriefSelection}

lemma briefFits_iff :
    projection.briefFits selection budget = true ↔
      ∃ cost, projection.briefCost selection = some cost ∧ cost ≤ budget := by
  unfold briefFits briefCost
  dsimp only
  by_cases hbytes : (projection.render selection).text.utf8ByteSize > projection.byteBudget
  · simp [hbytes]
  · by_cases hsoft : (projection.render selection).soft.isEmpty = true ∨
        projection.count (projection.render selection).soft ≤
          max briefSoftTokens (projection.count (projection.render selection).diff / 2)
    · rw [if_neg (not_or.mpr ⟨hbytes, not_not.mpr hsoft⟩)]
      by_cases htokens : projection.count (projection.render selection).text > budget
      · simp [htokens]
      · rw [if_neg (not_or.mpr ⟨hbytes, htokens⟩)]
        simp only [Bool.or_eq_true, decide_eq_true_eq, some.injEq, exists_eq_left']
        exact ⟨fun _ => by omega, fun _ => hsoft⟩
    · rw [if_pos (Or.inr hsoft)]
      split_ifs
      · simp
      · simpa using hsoft

variable {larger : ℕ}

lemma briefFits_mono (hle : budget ≤ larger) (h : projection.briefFits selection budget = true) :
    projection.briefFits selection larger = true := by
  obtain ⟨cost, hcost, hbudget⟩ := briefFits_iff.mp h
  exact briefFits_iff.mpr ⟨cost, hcost, hbudget.trans hle⟩

lemma longestPrefix_mono (rung : ℕ) (hle : budget ≤ larger) :
    projection.longestPrefix rung budget ≤ projection.longestPrefix rung larger :=
  PrefixSearch.search_mono (fun _ hfits => briefFits_mono hle hfits) _ _

lemma admittedCount_longestPrefix_mono (rung : ℕ) (hle : budget ≤ larger) :
    projection.admittedCount rung (projection.longestPrefix rung budget) ≤
      projection.admittedCount rung (projection.longestPrefix rung larger) := by
  obtain ⟨hentries, hhunks⟩ := prefixSelection_mono projection rung rung
    (longestPrefix_mono rung hle)
  exact Nat.add_le_add (Finset.card_le_card hentries) (Finset.card_le_card hhunks)

lemma briefFits_longestPrefix
    (h : projection.briefFits (projection.prefixSelection rung 0) budget = true) :
    projection.briefFits (projection.prefixSelection rung (projection.longestPrefix rung budget))
      budget = true := by
  rcases PrefixSearch.accepts_search (fun length =>
      projection.briefFits (projection.prefixSelection rung length) budget) 0
      projection.brief.items.length with hzero | hfits
  · unfold longestPrefix
    rw [hzero]
    exact h
  · exact hfits

lemma briefFits_of_rungStart {start : ℕ} (h : projection.rungStart rung = some start)
    (hle : start ≤ budget) :
    projection.briefFits (projection.prefixSelection rung 0) budget = true := by
  obtain ⟨anchor, _, hcosts⟩ := bind_eq_some_iff.mp h
  split at hcosts
  · rename_i empty anchored hempty _
    cases hcosts
    refine briefFits_iff.mpr ⟨empty, ?_, (le_max_left empty anchored).trans hle⟩
    unfold prefixSelection
    rw [take_zero, append_nil]
    exact hempty
  · cases hcosts

/-! ## Rungs -/

structure RungChoice.Valid (projection : BriefProjection) (rung budget : ℕ) (choice : RungChoice) :
    Prop where
  rung_le : choice.rung ≤ rung
  budget_le : choice.budget ≤ budget
  fits : projection.briefFits (projection.prefixSelection choice.rung 0) choice.budget = true
  admitted : choice.admitted = projection.admittedCount choice.rung
    (projection.longestPrefix choice.rung choice.budget)

variable {choice : RungChoice}

lemma RungChoice.Valid.mono (h : choice.Valid projection rung budget) (hle : budget ≤ larger) :
    choice.Valid projection (rung + 1) larger :=
  ⟨h.rung_le.trans (Nat.le_succ rung), h.budget_le.trans hle, h.fits, h.admitted⟩

/-- From its start on a rung is chosen, unless the choice below it admits more. -/
lemma chooseRung_eq (kept : Option RungChoice)
    (h : projection.briefFits (projection.prefixSelection rung 0) budget = true) :
    ∃ choice, projection.chooseRung rung budget kept = some choice ∧ ((kept = some choice ∧
          projection.admittedCount rung (projection.longestPrefix rung budget) < choice.admitted) ∨
        (choice = ⟨rung, budget,
            projection.admittedCount rung (projection.longestPrefix rung budget)⟩ ∧
          ∀ other, kept = some other → other.admitted ≤ choice.admitted)) := by
  have hempty : projection.briefFits (setSelection (rungLevel rung) (rungBase rung)) budget =
      true := by
    unfold prefixSelection at h
    rwa [take_zero, append_nil] at h
  unfold chooseRung
  rw [if_neg (not_not.mpr hempty)]
  cases kept with
  | none => exact ⟨_, rfl, Or.inr ⟨rfl, fun _ hnone => by cases hnone⟩⟩
  | some kept =>
    dsimp only
    split_ifs with hless
    · exact ⟨kept, rfl, Or.inl ⟨rfl, hless⟩⟩
    · refine ⟨_, rfl, Or.inr ⟨rfl, fun other hother => ?_⟩⟩
      cases hother
      exact not_lt.mp hless

lemma rungChoice_valid (h : projection.rungChoice rung budget = some choice) :
    choice.Valid projection rung budget := by
  induction rung generalizing budget choice with
  | zero =>
    unfold rungChoice at h
    split at h
    · cases h
    · rename_i start hstart
      split_ifs at h with hbelow
      have hfits := briefFits_of_rungStart hstart (not_lt.mp hbelow)
      obtain ⟨found, hfound, hkept | ⟨rfl, _⟩⟩ := chooseRung_eq none hfits
      · cases hkept.1
      · cases hfound.symm.trans h
        exact ⟨le_refl 0, le_refl budget, hfits, rfl⟩
  | succ rung ih =>
    unfold rungChoice at h
    split at h
    · exact (ih h).mono (le_refl budget)
    · rename_i start hstart
      split_ifs at h with hbelow hzero
      · exact (ih h).mono (le_refl budget)
      all_goals
        have hfits := briefFits_of_rungStart hstart (not_lt.mp hbelow)
      · obtain ⟨found, hfound, hkept | ⟨rfl, _⟩⟩ := chooseRung_eq none hfits
        · cases hkept.1
        · cases hfound.symm.trans h
          exact ⟨le_refl _, le_refl budget, hfits, rfl⟩
      · obtain ⟨found, hfound, hkept | ⟨rfl, _⟩⟩ :=
          chooseRung_eq (projection.rungChoice rung (start - 1)) hfits
        · cases hfound.symm.trans h
          exact (ih hkept.1).mono (by omega)
        · cases hfound.symm.trans h
          exact ⟨le_refl _, le_refl budget, hfits, rfl⟩

/-- **A larger budget chooses no coarser rung and admits no less.** -/
lemma rungChoice_mono (hle : budget ≤ larger)
    (h : projection.rungChoice rung budget = some choice) :
    ∃ other, projection.rungChoice rung larger = some other ∧ choice.rung ≤ other.rung ∧
      choice.admitted ≤ other.admitted := by
  induction rung generalizing budget larger choice with
  | zero =>
    unfold rungChoice at h ⊢
    split at h
    · cases h
    · rename_i start hstart
      split_ifs at h with hbelow
      rw [if_neg (by omega)]
      have hfits := briefFits_of_rungStart hstart (not_lt.mp hbelow)
      obtain ⟨found, hfound, hkept | ⟨rfl, _⟩⟩ := chooseRung_eq none hfits
      · cases hkept.1
      · obtain ⟨other, hother, hkept | ⟨rfl, _⟩⟩ := chooseRung_eq none (briefFits_mono hle hfits)
        · cases hkept.1
        · cases hfound.symm.trans h
          exact ⟨_, hother, le_refl 0, admittedCount_longestPrefix_mono 0 hle⟩
  | succ rung ih =>
    have hvalid := rungChoice_valid h
    unfold rungChoice at h ⊢
    cases hstart : projection.rungStart (rung + 1) with
    | none =>
      rw [hstart] at h
      exact ih hle h
    | some start =>
      rw [hstart] at h
      dsimp only at h ⊢
      by_cases hlarger : larger < start
      · rw [if_pos (by omega)] at h
        rw [if_pos hlarger]
        exact ih hle h
      · rw [if_neg hlarger]
        have hlargerFits := briefFits_of_rungStart hstart (not_lt.mp hlarger)
        by_cases hbudget : budget < start
        · -- The choice just below the start of the rung admits no less than the smaller budget.
          rw [if_pos hbudget] at h
          rw [if_neg (show ¬ start = 0 by omega)]
          obtain ⟨below, hbelow, hbelowRung, hbelowAdmitted⟩ :=
            ih (show budget ≤ start - 1 by omega) h
          obtain ⟨other, hother, hkept | ⟨rfl, hmore⟩⟩ :=
            chooseRung_eq (projection.rungChoice rung (start - 1)) hlargerFits
          · rw [hbelow] at hkept
            cases hkept.1
            exact ⟨below, hother, hbelowRung, hbelowAdmitted⟩
          · refine ⟨_, hother, ?_, hbelowAdmitted.trans (hmore below hbelow)⟩
            exact hvalid.rung_le
        · rw [if_neg hbudget] at h
          have hfits := briefFits_of_rungStart hstart (not_lt.mp hbudget)
          have hcounts : projection.admittedCount (rung + 1)
                (projection.longestPrefix (rung + 1) budget) ≤
              projection.admittedCount (rung + 1) (projection.longestPrefix (rung + 1) larger) :=
            admittedCount_longestPrefix_mono (rung + 1) hle
          revert h
          generalize (if start = 0 then none else projection.rungChoice rung (start - 1)) = kept
          intro h
          obtain ⟨found, hfound, hfoundChoice⟩ := chooseRung_eq kept hfits
          obtain rfl := some.inj (hfound.symm.trans h)
          obtain ⟨other, hother, hotherChoice⟩ := chooseRung_eq kept hlargerFits
          refine ⟨other, hother, ?_⟩
          rcases hfoundChoice with ⟨hkept, hless⟩ | ⟨hfoundEq, hmore⟩
          · rcases hotherChoice with ⟨hotherKept, _⟩ | ⟨hotherEq, hotherMore⟩
            · cases hkept.symm.trans hotherKept
              exact ⟨le_refl _, le_refl _⟩
            · refine ⟨?_, hotherMore found hkept⟩
              rw [hotherEq]
              exact hvalid.rung_le
          · rcases hotherChoice with ⟨hotherKept, hotherLess⟩ | ⟨hotherEq, _⟩
            · -- What admits less at the smaller budget is not kept at the larger one.
              have hfewer := hmore other hotherKept
              rw [hfoundEq] at hfewer
              exact absurd (hfewer.trans hcounts) (not_le.mpr hotherLess)
            · rw [hfoundEq, hotherEq]
              exact ⟨le_refl _, hcounts⟩

/-! ## Greedy admissions -/

/-- An item that is taken out again after it was put in leaves no trace. -/
lemma select_undo (selection : ReviewBriefSelection) (item : BriefItem) :
    selection.select item true = selection ∨
      (selection.select item true).select item false = selection := by
  have htoggle : ∀ (values : Finset ℕ) (value : ℕ), toggle values value true = values ∨
      toggle (toggle values value true) value false = values := by
    intro values value
    by_cases hmem : value ∈ values
    · exact .inl (Finset.insert_eq_of_mem hmem)
    · exact .inr (Finset.erase_insert hmem)
  obtain ⟨examples, siteLines, explainedSites, entries, details, importers, hunks, mentions, usage,
    level⟩ := selection
  cases item with
  | examples => cases examples <;> simp [select]
  | siteLines => cases siteLines <;> simp [select]
  | explainedSites => cases explainedSites <;> simp [select]
  | entry change => simpa [select] using htoggle entries change
  | details change => simpa [select] using htoggle details change
  | hunk index => simpa [select] using htoggle hunks index
  | importers change => simpa [select] using htoggle importers change
  | mention index => simpa [select] using htoggle mentions index
  | usage index => simpa [select] using htoggle usage index

variable {items : List BriefItem}

lemma briefFits_selectGreedily {attempts : ℕ}
    (h : projection.briefFits selection budget = true) :
    projection.briefFits (projection.selectGreedily budget items attempts selection) budget =
      true := by
  induction items generalizing attempts selection with
  | nil => exact h
  | cons item items ih =>
    unfold selectGreedily
    split_ifs with hattempts hpasses
    · exact h
    · exact ih h
    · apply ih
      split_ifs with hfits
      · exact hfits
      · rcases select_undo selection item with hsame | hundone
        · rw [hsame] at hfits
          exact absurd h hfits
        · rw [hundone]
          exact h

/-- Greedy admissions add no entries or hunks and keep the rung. -/
lemma selectGreedily_eq (budget attempts : ℕ)
    (selection : ReviewBriefSelection) (hitems : .explainedSites ∉ items) :
    let selected := projection.selectGreedily budget items attempts selection
    selected.entries = selection.entries ∧ selected.hunks = selection.hunks ∧
      selected.level = selection.level ∧
      selected.explainedSites = selection.explainedSites := by
  induction items generalizing attempts selection with
  | nil => exact ⟨rfl, rfl, rfl, rfl⟩
  | cons item items ih =>
    rw [mem_cons, not_or] at hitems
    dsimp only
    unfold selectGreedily
    split_ifs with hattempts hpasses
    · exact ⟨rfl, rfl, rfl, rfl⟩
    · exact ih attempts selection hitems.2
    · have hselect : ∀ (other : ReviewBriefSelection) (admitted : Bool),
          (other.select item admitted).entries = other.entries ∧
            (other.select item admitted).hunks = other.hunks ∧
            (other.select item admitted).level = other.level ∧
            (other.select item admitted).explainedSites = other.explainedSites := by
        intro other admitted
        cases item with
        | entry => simp [passesOver] at hpasses
        | hunk => simp [passesOver] at hpasses
        | explainedSites => exact absurd rfl hitems.1
        | _ => exact ⟨rfl, rfl, rfl, rfl⟩
      obtain ⟨hentries, hhunks, hlevel, hsites⟩ := ih (attempts + 1)
        (if projection.briefFits (selection.select item true) budget = true then
          selection.select item true else (selection.select item true).select item false) hitems.2
      rw [hentries, hhunks, hlevel, hsites]
      split_ifs
      · exact hselect selection true
      · obtain ⟨hundoneEntries, hundoneHunks, hundoneLevel, hundoneSites⟩ :=
          hselect (selection.select item true) false
        rw [hundoneEntries, hundoneHunks, hundoneLevel, hundoneSites]
        exact hselect selection true

lemma projectBrief_eq (h : projection.projectBrief budget = some selection) :
    ∃ choice, projection.rungChoice (briefRungs.length - 1) budget = some choice ∧
      projection.briefFits selection choice.budget = true ∧
      selection.entries = (projection.prefixSelection choice.rung
        (projection.longestPrefix choice.rung choice.budget)).entries ∧
      selection.hunks = (projection.prefixSelection choice.rung
        (projection.longestPrefix choice.rung choice.budget)).hunks ∧
      selection.level = rungLevel choice.rung ∧
      selection.explainedSites = rungSites choice.rung := by
  obtain ⟨choice, hchoice, rfl⟩ := map_eq_some_iff.mp h
  have hitems : .explainedSites ∉ projection.brief.items.drop
      (projection.longestPrefix choice.rung choice.budget + 1) := fun hmem =>
    explainedSites_not_mem_items projection.brief (mem_of_mem_drop hmem)
  obtain ⟨hentries, hhunks, hlevel, hsites⟩ := selectGreedily_eq choice.budget 0
    (projection.prefixSelection choice.rung (projection.longestPrefix choice.rung choice.budget))
    hitems
  refine ⟨choice, hchoice, ?_, hentries, hhunks, ?_, ?_⟩
  · exact briefFits_selectGreedily (briefFits_longestPrefix (rungChoice_valid hchoice).fits)
  · exact hlevel.trans (prefixSelection_level projection _ _)
  · exact hsites.trans (prefixSelection_explainedSites projection _ _)

/-! ## Admitted items -/

def ReviewBriefSelection.Has (selection : ReviewBriefSelection) : BriefItem → Prop
  | .examples => selection.examples = true
  | .siteLines => selection.siteLines = true
  | .explainedSites => selection.explainedSites = true
  | .entry change => change ∈ selection.entries
  | .details change => change ∈ selection.details
  | .hunk index => index ∈ selection.hunks
  | .importers change => change ∈ selection.importers
  | .mention index => index ∈ selection.mentions
  | .usage index => index ∈ selection.usage

variable {item : BriefItem}

lemma has_select {other : BriefItem} :
    (selection.select item true).Has other ↔ other = item ∨ selection.Has other := by
  cases item <;> cases other <;>
    simp [Has, select, toggle]

lemma has_of_deselect {other : BriefItem}
    (h : (selection.select item false).Has other) : selection.Has other := by
  revert h
  cases item <;> cases other <;>
    simp +contextual [Has, select, toggle]

lemma has_foldl_select :
    (items.foldl (fun selection item => selection.select item true) selection).Has item ↔
      item ∈ items ∨ selection.Has item := by
  induction items generalizing selection with
  | nil => simp
  | cons first rest ih =>
    rw [foldl_cons, ih, has_select, mem_cons]
    exact or_left_comm.trans (or_assoc.symm)

lemma has_setSelection {level : ℕ} :
    (setSelection level items).Has item ↔ item ∈ items := by
  have hempty : ¬(ofLevel level).Has item := by
    cases item <;> simp [Has, ofLevel]
  unfold setSelection
  rw [has_foldl_select, or_iff_left hempty]

/-- What a projection selects are items of the brief, and with each of them the entry that it
belongs to if its change has one. -/
structure Admitted (brief : ReviewBrief) (selection : ReviewBriefSelection) : Prop where
  mem_items : ∀ item, selection.Has item → item = .explainedSites ∨ item ∈ brief.items
  entry_mem : ∀ item change, selection.Has item → brief.itemEntry item = some change →
    change ∈ brief.entryChanges → change ∈ selection.entries

/-- A prefix that goes past a part has all of it. -/
lemma mem_take_append {α : Type} {part rest : List α} {length : ℕ} {x : α}
    (h : x ∈ (part ++ rest).take length) (hpart : x ∉ part) {y : α} (hy : y ∈ part) :
    y ∈ (part ++ rest).take length := by
  rw [take_append] at h ⊢
  rcases mem_append.mp h with hbefore | hrest
  · exact absurd (mem_of_mem_take hbefore) hpart
  · have hlong : part.length ≤ length := by
      by_contra hshort
      rw [Nat.sub_eq_zero_of_le (by omega), take_zero] at hrest
      exact not_mem_nil hrest
    rw [take_of_length_le hlong]
    exact mem_append_left _ hy

/-- An item with an entry comes after all entries. -/
lemma admitted_prefixSelection (rung length : ℕ) :
    Admitted projection.brief (projection.prefixSelection rung length) := by
  have hmem : ∀ item, (projection.prefixSelection rung length).Has item →
      item = .explainedSites ∨ item ∈ projection.brief.items.take length := by
    intro item hitem
    rw [prefixSelection, has_setSelection, mem_append] at hitem
    refine hitem.imp_left fun hbase => ?_
    unfold rungBase at hbase
    split_ifs at hbase
    · exact mem_singleton.mp hbase
    · cases hbase
  refine ⟨fun item hitem => (hmem item hitem).imp_right mem_of_mem_take, ?_⟩
  intro item change hitem hentry hchange
  rcases hmem item hitem with rfl | htake
  · exact absurd hentry.symm (some_ne_none change)
  · have hparts : ∃ rest, projection.brief.items =
        (.siteLines :: projection.brief.entryChanges.map .entry) ++ rest := by
      unfold ReviewBrief.items
      simp only [append_assoc, cons_append]
      exact ⟨_, rfl⟩
    obtain ⟨rest, hitems⟩ := hparts
    have hbefore : item ∉ BriefItem.siteLines :: projection.brief.entryChanges.map .entry := by
      intro hbefore
      rcases mem_cons.mp hbefore with rfl | hentries
      · exact some_ne_none change hentry.symm
      · obtain ⟨other, -, rfl⟩ := List.mem_map.mp hentries
        exact some_ne_none change hentry.symm
    rw [hitems] at htake
    have hselected : (projection.prefixSelection rung length).Has (.entry change) := by
      rw [prefixSelection, has_setSelection, mem_append, hitems]
      exact .inr (mem_take_append htake hbefore
        (mem_cons_of_mem _ (List.mem_map_of_mem hchange)))
    exact hselected

lemma admitted_selectGreedily {attempts : ℕ} (h : Admitted projection.brief selection)
    (hitems : ∀ item ∈ items, item ∈ projection.brief.items) :
    Admitted projection.brief (projection.selectGreedily budget items attempts selection) := by
  induction items generalizing attempts selection with
  | nil => exact h
  | cons item rest ih =>
    have hrest : ∀ item ∈ rest, item ∈ projection.brief.items := fun other hother =>
      hitems other (mem_cons_of_mem _ hother)
    unfold selectGreedily
    split_ifs with hattempts hpasses
    · exact h
    · exact ih h hrest
    · apply ih _ hrest
      have hentries : (selection.select item true).entries = selection.entries := by
        cases item with
        | entry => simp [passesOver] at hpasses
        | _ => rfl
      have hadmitted : Admitted projection.brief (selection.select item true) := by
        refine ⟨fun other hother => ?_, fun other change hother hentry hchange => ?_⟩
        · rcases has_select.mp hother with rfl | hother
          · exact .inr (hitems _ mem_cons_self)
          · exact h.mem_items other hother
        · rw [hentries]
          rcases has_select.mp hother with rfl | hother
          · simp only [passesOver, hentry, any_some, Bool.or_eq_true,
              decide_eq_true_eq, not_or, not_not] at hpasses
            exact hpasses.1.2
          · exact h.entry_mem other change hother hentry hchange
      split_ifs
      · exact hadmitted
      · have hkept : ((selection.select item true).select item false).entries =
            selection.entries := by
          cases item with
          | entry => simp [passesOver] at hpasses
          | _ => rfl
        refine ⟨fun other hother => hadmitted.mem_items other (has_of_deselect hother),
          fun other change hother hentry hchange => ?_⟩
        rw [hkept, ← hentries]
        exact hadmitted.entry_mem other change (has_of_deselect hother) hentry hchange

lemma admitted_of_projectBrief (h : projection.projectBrief budget = some selection) :
    Admitted projection.brief selection := by
  obtain ⟨choice, -, rfl⟩ := map_eq_some_iff.mp h
  exact admitted_selectGreedily (admitted_prefixSelection _ _) fun item hitem =>
    mem_of_mem_drop hitem

lemma rung_finer : ∀ finer < briefRungs.length, ∀ coarser ≤ finer,
    rungLevel finer ≤ rungLevel coarser ∧ (rungSites coarser = true → rungSites finer = true) := by
  decide

/-- **Projections are monotone in the token budget and fit it.** A selection fits its budget, and a
larger budget shows its entries and hunks and more, at no coarser rung. -/
theorem brief_projection_monotone (projection : BriefProjection) (budget larger : ℕ)
    (hle : budget ≤ larger) (selection : ReviewBriefSelection)
    (h : projection.projectBrief budget = some selection) :
    projection.briefFits selection budget = true ∧
      ∃ other, projection.projectBrief larger = some other ∧
        selection.entries ⊆ other.entries ∧ selection.hunks ⊆ other.hunks ∧
        other.level ≤ selection.level ∧
        (selection.explainedSites = true → other.explainedSites = true) := by
  obtain ⟨choice, hchoice, hfits, hentries, hhunks, hlevel, hsites⟩ := projectBrief_eq h
  have hvalid := rungChoice_valid hchoice
  refine ⟨briefFits_mono hvalid.budget_le hfits, ?_⟩
  obtain ⟨finer, hfiner, hrung, hadmitted⟩ := rungChoice_mono hle hchoice
  have hfinerValid := rungChoice_valid hfiner
  obtain ⟨other, hother⟩ : ∃ other, projection.projectBrief larger = some other := by
    unfold projectBrief
    rw [hfiner]
    exact ⟨_, rfl⟩
  obtain ⟨same, hsame, _, hotherEntries, hotherHunks, hotherLevel, hotherSites⟩ :=
    projectBrief_eq hother
  cases hfiner.symm.trans hsame
  rw [hvalid.admitted, hfinerValid.admitted] at hadmitted
  obtain ⟨hmoreEntries, hmoreHunks⟩ := prefixSelection_subset projection hadmitted
  obtain ⟨hmoreLevel, hmoreSites⟩ := rung_finer finer.rung
    (Nat.lt_of_le_of_lt hfinerValid.rung_le (by decide)) choice.rung hrung
  rw [hentries, hhunks, hlevel, hsites]
  exact ⟨other, hother, hotherEntries ▸ hmoreEntries, hotherHunks ▸ hmoreHunks,
    hotherLevel ▸ hmoreLevel, hotherSites ▸ hmoreSites⟩

end

/-! ### A brief with one hunk -/

namespace OneHunk

def brief : ReviewBrief where
  changes := [⟨some ⟨["a.rs"]⟩, some ⟨["a.rs"]⟩⟩]
  hunks := [⟨0, .shown, 0, false⟩]
  entryChanges := [0]
  mentions := 0
  usage := []

/-- Every entry and hunk takes ten characters, and a finer level takes more. -/
def projection : BriefProjection where
  brief := brief
  render selection :=
    { text := String.ofList (List.replicate
        (10 * (selection.entries.card + selection.hunks.card) + (3 - selection.level)) 'x')
      soft := ""
      diff := "" }
  count := String.length
  byteBudget := 1000

end OneHunk

theorem brief_projection_monotone_one :
    ∃ other, OneHunk.projection.projectBrief 30 = some other ∧ 0 ∈ other.entries ∧
      0 ∈ other.hunks := by
  obtain ⟨_, other, hother, hentries, hhunks, _⟩ :=
    brief_projection_monotone OneHunk.projection 23 30 (by decide)
      ((OneHunk.projection.projectBrief 23).get (by decide +kernel)) (by decide +kernel)
  exact ⟨other, hother, hentries (by decide +kernel), hhunks (by decide +kernel)⟩

end Reposcout.Query.ReviewContext
