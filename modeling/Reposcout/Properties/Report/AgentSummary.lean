import Reposcout.Report.AgentSummary

/-!
# The agent summary is bounded and honest

Every list shows the first of its entries and counts the rest; entries are removed list by list,
and no further than the byte limit asks for.
-/

namespace Reposcout.Report

open List Option Trimming

section

variable {E : Type}

def totalTokens (entries : List (Entry E)) : ℕ := (entries.map Entry.tokens).sum

/-- Token counters add up.  They are exact unless the tokens of the whole list saturate. -/
structure TokenCounts.Honest (tokens : TokenCounts) (entries original : List (Entry E)) :
    Prop where
  available : tokens.available = min (totalTokens original) u64Max
  accounted : tokens.shown + tokens.omitted = tokens.available
  exact : totalTokens original ≤ u64Max → tokens.shown = totalTokens entries

structure Shown.Honest (list : Shown E) (original : List (Entry E)) : Prop where
  first : list.entries <+: original
  available : list.available = original.length
  shown : list.shown = list.entries.length
  accounted : list.shown + list.omitted = list.available
  tokens : ∀ tokens, list.tokens = some tokens → tokens.Honest list.entries original

lemma totalTokens_append (first rest : List (Entry E)) :
    totalTokens (first ++ rest) = totalTokens first + totalTokens rest := by
  simp [totalTokens]

lemma totalTokens_prefix {first entries : List (Entry E)} (h : first <+: entries) :
    totalTokens first ≤ totalTokens entries := by
  obtain ⟨rest, rfl⟩ := h
  rw [totalTokens_append]
  exact Nat.le_add_right _ _

variable {α : Type}

/-- `sum_token_cost` cuts the sum off at the largest value. -/
lemma sumTokenCost_eq [TokenCost α] (entries : List α) :
    sumTokenCost entries = min (entries.map tokenCost).sum u64Max := by
  have hfold : ∀ total, entries.foldl (fun total entry => satAdd total (tokenCost entry))
      (min total u64Max) = min (total + (entries.map tokenCost).sum) u64Max := by
    induction entries with
    | nil => simp
    | cons entry rest ih =>
      intro total
      rw [foldl_cons, satAdd_min, ih, map_cons, sum_cons, Nat.add_assoc]
  simpa [sumTokenCost] using hfold 0

lemma totalTokens_map [TokenCost α] {entry : α → Entry E}
    (htokens : ∀ x, (entry x).tokens = tokenCost x) (entries : List α) :
    totalTokens (entries.map entry) = (entries.map tokenCost).sum := by
  simp [totalTokens, Function.comp_def, htokens]

lemma honest_new (entry : α → Entry E) (entries : List α) (maximum : ℕ) :
    ((BoundedList.new entries maximum).toShown entry).Honest (entries.map entry) where
  first := (List.take_prefix maximum entries).map entry
  available := by simp [BoundedList.toShown, BoundedList.new]
  shown := by simp [BoundedList.toShown, BoundedList.new]
  accounted := by
    simp only [BoundedList.toShown, BoundedList.new]
    have hle := length_take_le' maximum entries
    omega
  tokens := by simp [BoundedList.toShown]

open ContextBoundedList

lemma honest_newContext [TokenCost α] {entry : α → Entry E}
    (htokens : ∀ x, (entry x).tokens = tokenCost x) (entries : List α) (maximum : ℕ) :
    ((new entries maximum).toShown entry).Honest (entries.map entry) where
  first := (List.take_prefix maximum entries).map entry
  available := by simp [toShown, new]
  shown := by simp [toShown, new]
  accounted := by
    simp only [toShown, new]
    have hle := length_take_le' maximum entries
    omega
  tokens := by
    have hle := totalTokens_prefix ((List.take_prefix maximum entries).map entry)
    rw [totalTokens_map htokens, totalTokens_map htokens] at hle
    intro tokens h
    obtain rfl := some.inj h
    refine ⟨?_, ?_, ?_⟩
    · simp [new, sumTokenCost_eq, totalTokens_map htokens]
    · simp only [new, sumTokenCost_eq]
      omega
    · intro hexact
      rw [totalTokens_map htokens] at hexact
      simp only [new, toShown, sumTokenCost_eq,
        totalTokens_map htokens]
      omega

/-- **Removing an entry keeps a list honest.** -/
lemma Shown.Honest.removeLast {list next : Shown E} {original : List (Entry E)}
    (h : list.Honest original) (hremove : list.removeLast = some next) : next.Honest original := by
  obtain ⟨removed, hlast, rfl⟩ := map_eq_some_iff.mp hremove
  have hentries : list.entries = list.entries.dropLast ++ [removed] :=
    (dropLast_append_getLast? removed hlast).symm
  have hlength : list.entries.length = list.entries.dropLast.length + 1 := by
    conv_lhs => rw [hentries]
    simp
  refine ⟨(List.dropLast_prefix _).trans h.first, h.available, ?_, ?_, ?_⟩
  · have hshown := h.shown
    dsimp only
    omega
  · have hshown := h.shown
    have haccounted := h.accounted
    dsimp only
    omega
  · intro tokens htokens
    obtain ⟨before, hbefore, rfl⟩ := map_eq_some_iff.mp htokens
    have hhonest := h.tokens before hbefore
    have htotal : totalTokens list.entries =
        totalTokens list.entries.dropLast + removed.tokens := by
      conv_lhs => rw [hentries]
      simp [totalTokens]
    have havailable := hhonest.available
    have haccounted := hhonest.accounted
    refine ⟨havailable, ?_, fun hexact => ?_⟩
    · -- if the removed tokens exceed those shown, the whole list saturates
      by_cases hexact : totalTokens original ≤ u64Max
      · have hshown := hhonest.exact hexact
        simp only [satAdd]
        omega
      · simp only [satAdd]
        omega
    · have hshown := hhonest.exact hexact
      dsimp only
      omega

end

/-! ## The lists of a report -/

section

variable {F E : Type}

/-- The whole lists of a report, in the order in which the summary trims them. -/
def originals (report : ScanReport F E) : List (Option (List (Entry E))) :=
  let summary := report.summary
  [report.context.bind fun context =>
      context.taskEvidence.map fun evidence =>
        (orderedDiagnostics evidence.diagnostics).map .diagnostic,
    summary.testPresence.map fun tests => tests.frameworks.map .record,
    some (summary.skipCandidates.map .record),
    if report.analyzers.any AnalyzerProfile.duplication then
      some ((topBlocks summary).2.map .record)
    else none,
    report.context.map fun context => (partitionedEntries context.plan).2.map .context,
    some (summary.topSourceTokenFiles.map .record),
    some (summary.topRisks.map .record),
    if report.analyzers.any AnalyzerProfile.complexity then
      some (summary.complexityViolations.map .record)
    else none,
    report.context.map fun context =>
      (context.plan.outlineOnly.map outlineEntry).map .outline,
    report.context.map fun context => context.plan.unmatchedFocus.map .focus,
    report.context.map fun context => (partitionedEntries context.plan).1.map .context]

def AllHonest (lists : List (Option (Shown E))) (originals : List (Option (List (Entry E)))) :
    Prop :=
  List.Forall₂ (Option.Rel Shown.Honest) lists originals

lemma rel_map {α β γ : Type} {R : β → γ → Prop} {f : α → β} {g : α → γ} (x : Option α)
    (h : ∀ a, R (f a) (g a)) : Rel R (x.map f) (x.map g) := by
  cases x with
  | none => exact .none
  | some a => exact .some (h a)

open AgentSummary

/-- **The lists start honest.** -/
lemma allHonest_new (report : ScanReport F E) :
    AllHonest (new report).lists (originals report) := by
  obtain ⟨facts, analyzers, summary, context⟩ := report
  refine .cons ?_ (.cons ?_ (.cons ?_ (.cons ?_ (.cons ?_ (.cons ?_ (.cons ?_ (.cons ?_ (.cons ?_
    (.cons ?_ (.cons ?_ .nil))))))))))
  · cases context with
    | none => exact .none
    | some context =>
      simp only [new, map_some, bind_some, buildContext, Option.map_map]
      exact rel_map _ fun evidence => honest_new _ _ _
  · simp only [new, buildSignals, Option.map_map]
    exact rel_map _ fun tests => honest_new _ _ _
  · exact .some (honest_new _ _ _)
  · simp only [new, buildSignals]
    split
    · exact .some (honest_new _ _ _)
    · exact .none
  · simp only [new, Option.map_map]
    exact rel_map _ fun context => honest_newContext (fun _ => rfl) _ _
  · exact .some (honest_new _ _ _)
  · exact .some (honest_new _ _ _)
  · simp only [new, buildSignals]
    split
    · exact .some (honest_new _ _ _)
    · exact .none
  · simp only [new, Option.map_map]
    exact rel_map _ fun context => honest_newContext (fun _ => rfl) _ _
  · simp only [new, Option.map_map]
    exact rel_map _ fun context => honest_new _ _ _
  · simp only [new, Option.map_map]
    exact rel_map _ fun context => honest_newContext (fun _ => rfl) _ _

lemma honest_popShown {list next : Option (Shown E)} {original : Option (List (Entry E))}
    (hpop : popShown list = some next) (h : Rel Shown.Honest list original) :
    Rel Shown.Honest next original := by
  obtain ⟨after, hafter, rfl⟩ := map_eq_some_iff.mp hpop
  obtain ⟨before, rfl, hremove⟩ := bind_eq_some_iff.mp hafter
  cases h with
  | some hhonest => exact .some (hhonest.removeLast hremove)

lemma allHonest_trimmed {start lists : List (Option (Shown E))}
    {originals : List (Option (List (Entry E)))} (htrimmed : Trimmed popShown start lists)
    (h : AllHonest start originals) : AllHonest lists originals := by
  have hpopped : ∀ {before after : Option (Shown E)} {original : Option (List (Entry E))},
      Popped popShown before after → Rel Shown.Honest before original →
      Rel Shown.Honest after original := fun hpopped hbefore =>
    hpopped.invariant (fun _ _ hpop => honest_popShown hpop) hbefore
  induction htrimmed generalizing originals with
  | untouched lists => exact h
  | trimmed hstack rest =>
    cases h with
    | cons hfirst hrest => exact .cons (hpopped hstack hfirst) hrest
  | emptied hstack _ _ ih =>
    cases h with
    | cons hfirst hrest => exact .cons (hpopped hstack hfirst) (ih hrest)

def EmptyList (list : Option (Shown E)) : Prop := ∀ shown, list = some shown → shown.entries = []

lemma emptyList_of_popShown {list : Option (Shown E)} (h : popShown list = none) :
    EmptyList list := by
  rintro shown rfl
  simpa [popShown, Shown.removeLast] using h

/-! ## The loop -/

namespace AgentSummary

lemma facts_updateContext {summary next : AgentSummary F E}
    {update : AgentContext F E → Option (AgentContext F E)}
    (h : summary.updateContext update = some next) :
    next.facts = summary.facts ∧ next.projection = summary.projection := by
  obtain ⟨context, _, rfl⟩ := map_eq_some_iff.mp h
  exact ⟨rfl, rfl⟩

lemma facts_updateSignals {summary next : AgentSummary F E}
    {update : Signals F E → Option (Signals F E)}
    (h : summary.updateSignals update = some next) :
    next.facts = summary.facts ∧ next.projection = summary.projection := by
  obtain ⟨signals, _, rfl⟩ := map_eq_some_iff.mp h
  exact ⟨rfl, rfl⟩

lemma keeps_orElse {α : Type} {P : α → Prop} {first rest : Option α}
    (hfirst : ∀ a, first = some a → P a) (hrest : ∀ a, rest = some a → P a) :
    ∀ a, (first <|> rest) = some a → P a := by
  intro a h
  cases first with
  | none => exact hrest a h
  | some _ => exact hfirst a h

/-- Removing an entry keeps the facts and the metadata. -/
lemma facts_trimOne {summary next : AgentSummary F E} (h : summary.trimOne = some next) :
    next.facts = summary.facts ∧ next.projection = summary.projection := by
  have hcontext : ∀ update next, summary.updateContext update = some next →
      next.facts = summary.facts ∧ next.projection = summary.projection :=
    fun _ _ => facts_updateContext
  have hsignals : ∀ update next, summary.updateSignals update = some next →
      next.facts = summary.facts ∧ next.projection = summary.projection :=
    fun _ _ => facts_updateSignals
  exact keeps_orElse (hcontext _) (keeps_orElse (hsignals _) (keeps_orElse (hsignals _)
    (keeps_orElse (hsignals _) (keeps_orElse (hcontext _) (keeps_orElse (hsignals _)
      (keeps_orElse (hsignals _) (keeps_orElse (hsignals _) (keeps_orElse (hcontext _)
        (keeps_orElse (hcontext _) (hcontext _)))))))))) next h

lemma popFirst_of_trimOne {summary next : AgentSummary F E} (h : summary.trimOne = some next) :
    popFirst popShown summary.lists = some next.lists := by
  rw [← lists_trimOne, h, map_some]

lemma emptyList_of_trimOne {summary : AgentSummary F E} (h : summary.trimOne = none) :
    ∀ list ∈ summary.lists, EmptyList list := by
  have hpop : popFirst popShown summary.lists = none := by
    rw [← lists_trimOne, h, map_none]
  exact fun list hmem => emptyList_of_popShown (popFirst_eq_none.mp hpop list hmem)

def omittedEntries (summary : AgentSummary F E) : ℕ :=
  (summary.lists.map fun list => list.elim 0 Shown.omitted).sum

/-- **The omission count of the metadata is that of the lists.** -/
lemma entriesOmitted_refresh (summary : AgentSummary F E) :
    summary.refreshProjectionOmissions.projection.entriesOmitted =
      summary.refreshProjectionOmissions.omittedEntries := by
  have hbounded : ∀ {α : Type} (entry : α → Entry E) (list : BoundedList α),
      (list.toShown entry).omitted = list.omitted := fun _ _ => rfl
  have hcontext : ∀ {α : Type} (entry : α → Entry E) (list : ContextBoundedList α),
      (list.toShown entry).omitted = list.omitted := fun _ _ => rfl
  obtain ⟨facts, projection, ⟨complexity, symbols, duplication, tests, source, risks, violations,
    skips⟩, context⟩ := summary
  -- the sections are summed in another order than they are trimmed
  simp only [refreshProjectionOmissions, omittedEntries, lists, signalsOmitted, map_cons,
    map_nil, sum_cons, sum_nil, elim_some, hbounded]
  rcases context with _ | ⟨version, evidence, budget, counts, focus, scope, unmatched, direct,
    expansion, outline⟩
  · cases tests <;> cases duplication <;> cases violations <;> simp [hbounded] <;> omega
  · cases tests <;> cases duplication <;> cases violations <;> cases evidence <;>
      simp [contextOmitted, hbounded, hcontext] <;> omega

def TooLong (render : AgentSummary F E → Option String) (summary : AgentSummary F E) : Prop :=
  ∃ rendered, render summary = some rendered ∧ maxBytes < (rendered ++ "\n").utf8ByteSize

lemma tooLong_of_le {render : AgentSummary F E → Option String} {summary : AgentSummary F E}
    {rendered : String} (hrender : render summary = some rendered)
    (hsize : ¬rendered.utf8ByteSize < maxBytes) : TooLong render summary := by
  refine ⟨rendered, hrender, ?_⟩
  have hnewline : (rendered ++ "\n").utf8ByteSize = rendered.utf8ByteSize + 1 := by
    rw [String.utf8ByteSize_append]
    rfl
  omega

/-- What holds of a summary that the loop comes to, before it counts the omissions. -/
structure Reached (render : AgentSummary F E → Option String) (start summary : AgentSummary F E) :
    Prop where
  trimmed : Trimming.Trimmed popShown start.lists summary.lists
  facts : summary.facts = start.facts
  last : summary.lists = start.lists ∨ summary.projection.byteLimitReached = true ∧
    ∃ previous : AgentSummary F E, previous.trimOne = some summary ∧ TooLong render previous

variable {render : AgentSummary F E → Option String} {start summary : AgentSummary F E}

lemma Reached.reachByteLimit (h : Reached render start summary)
    (hlimit : summary.projection.byteLimitReached = false) :
    Reached render start summary.refreshProjectionOmissions.reachByteLimit where
  trimmed := h.trimmed
  facts := h.facts
  last := by
    rcases h.last with hlists | ⟨hreached, _⟩
    · exact .inl hlists
    · rw [hlimit] at hreached
      cases hreached

lemma Reached.trimOne (h : Reached render start summary) {next : AgentSummary F E}
    (hlimit : summary.projection.byteLimitReached ≠ false)
    (htrim : summary.refreshProjectionOmissions.trimOne = some next)
    (hlong : TooLong render summary.refreshProjectionOmissions) : Reached render start next := by
  obtain ⟨hfacts, hprojection⟩ := facts_trimOne htrim
  refine ⟨?_, ?_, .inr ⟨?_, _, htrim, hlong⟩⟩
  · have hpop := popFirst_of_trimOne htrim
    exact h.trimmed.step hpop
  · exact hfacts.trans h.facts
  · rw [hprojection]
    exact Bool.eq_true_of_not_eq_false hlimit

end AgentSummary

open AgentSummary

/-- Why no summary comes out of the loop. -/
def Fails (render : AgentSummary F E → Option String) (start : AgentSummary F E) :
    SummaryError → Prop
  | .pretty => False
  | .render => ∃ summary, render summary = none
  | .requiredFields => ∃ summary, Reached render start summary ∧
      (∀ list ∈ summary.lists, EmptyList list) ∧
      TooLong render summary.refreshProjectionOmissions

/-- **What the loop returns.** -/
lemma project_spec {render : AgentSummary F E → Option String} {start summary : AgentSummary F E}
    (h : Reached render start summary) :
    match project render summary with
    | .ok (projected, rendered) => ∃ last : AgentSummary F E, Reached render start last ∧
        projected = last.refreshProjectionOmissions ∧ render projected = some rendered ∧
        rendered.utf8ByteSize < maxBytes
    | .error reason => Fails render start reason := by
  fun_induction project render summary with
  | case1 summary hrender => exact ⟨_, hrender⟩
  | case2 summary rendered hrender hsize => exact ⟨summary, h, rfl, hrender, hsize⟩
  | case3 summary rendered hrender hsize hlimit ih => exact ih (h.reachByteLimit hlimit)
  | case4 summary rendered hrender hsize hlimit htrim =>
    have hempty := emptyList_of_trimOne htrim
    exact ⟨summary, h, hempty, tooLong_of_le hrender hsize⟩
  | case5 summary rendered hrender hsize hlimit next htrim ih =>
    exact ih (h.trimOne hlimit htrim (tooLong_of_le hrender hsize))

/-! ## The summary of a report -/

structure Projected (render : AgentSummary F E → Option String) (report : ScanReport F E)
    (summary : AgentSummary F E) : Prop where
  facts : summary.facts = report.facts
  honest : AllHonest summary.lists (originals report)
  entriesOmitted : summary.projection.entriesOmitted = summary.omittedEntries
  ordered : ∀ {i j : ℕ} {earlier : Option (Shown E)}, i < j → summary.lists[i]? = some earlier →
    (AgentSummary.new report).lists[j]? ≠ summary.lists[j]? → EmptyList earlier
  minimal : summary.lists = (AgentSummary.new report).lists ∨
    ∃ previous next : AgentSummary F E, previous.trimOne = some next ∧
      summary = next.refreshProjectionOmissions ∧ TooLong render previous

lemma projected_of_reached {render : AgentSummary F E → Option String} {report : ScanReport F E}
    {summary : AgentSummary F E} (h : Reached render (new report) summary) :
    Projected render report summary.refreshProjectionOmissions where
  facts := h.facts
  honest := allHonest_trimmed h.trimmed (allHonest_new report)
  entriesOmitted := entriesOmitted_refresh summary
  ordered hlt hearlier htouched :=
    emptyList_of_popShown (h.trimmed.earlier_empty hlt hearlier htouched)
  minimal := by
    rcases h.last with hlists | ⟨_, previous, htrim, hlong⟩
    · exact .inl hlists
    · exact .inr ⟨previous, summary, htrim, rfl, hlong⟩

end

end Reposcout.Report
