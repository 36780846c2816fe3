import Reposcout.Properties.Query.ReviewContext.Projection
import Reposcout.Report.ReviewContext.Brief.Entries

/-!
# What a brief prints and what it counts

References and type relations are printed with the details of a change and are counted without
them, and so are the importers, but these are printed by a selection of their own.  Usage lines are
subtracted from the omitted ones by the selection alone, and are printed with the entries.
-/

namespace Reposcout.Report.ReviewContext

open Query.ReviewContext List Option KeyedList ReviewBrief

/-! ## Items of the evidence -/

inductive EvidenceItem where
  | reference (reference : Reference)
  | typeRelation (type : List Char × List String)
  | importer (importer : String × List String)

def Evidence.items (evidence : Evidence) : List EvidenceItem :=
  evidence.references.map .reference ++ evidence.types.map .typeRelation ++
    evidence.importers.map .importer

def BriefEntry.Prints (entry : BriefEntry) (evidence : Evidence) : EvidenceItem → Prop
  | .reference reference => ∃ group ∈ groupReferences evidence.references,
      group.target = reference.text.1 ∧ group.marker = sidesMarker reference.sides ∧
        reference.text.2 ∈ group.sites ∧ group.line ∈ entry.relations
  | .typeRelation type => typeLine type ∈ entry.relations
  | .importer importer => ∃ line, entry.importers = some line ∧
      (importer ∈ line.listed ∨ 0 < line.more)

def Printed (report : BriefReport) (selection : ReviewBriefSelection) (index : ℕ)
    (evidence : Evidence) (item : EvidenceItem) : Prop :=
  ∃ entry ∈ (plain report selection).entries, entry.change = index ∧ entry.Prints evidence item

/-- The items of a change are in the number of those that are counted and not listed. -/
def Counted (report : BriefReport) (selection : ReviewBriefSelection) (index : ℕ) : Prop :=
  ∃ evidence, (evidence, index) ∈ countedEvidence report selection

structure Conserved (report : BriefReport) (selection : ReviewBriefSelection) : Prop where
  evidence : ∀ (index : ℕ) evidence, (allEvidence report.report)[index]? = some evidence →
    ∀ item ∈ evidence.items,
      (Printed report selection index evidence item ↔ ¬Counted report selection index)
  usage : ((plain report selection).entries.map fun entry => entry.usage.length).sum +
    omittedUsage report selection = report.usageTotal
  mentions : (plain report selection).mentions.length + omittedMentions report selection =
    report.mentionsTotal

/-! ## Printed evidence -/

lemma exists_group_groupReference {reference : Reference} {groups : List ReferenceGroup}
    {target marker site : List Char}
    (h : (∃ group ∈ groups, group.target = target ∧ group.marker = marker ∧ site ∈ group.sites) ∨
      (reference.text.1 = target ∧ sidesMarker reference.sides = marker ∧
        reference.text.2 = site)) :
    ∃ group ∈ groupReference reference groups,
      group.target = target ∧ group.marker = marker ∧ site ∈ group.sites := by
  induction groups with
  | nil =>
    rcases h with ⟨group, hgroup, -⟩ | ⟨htarget, hmarker, rfl⟩
    · cases hgroup
    · exact ⟨_, mem_singleton_self _, htarget, hmarker, mem_singleton_self _⟩
  | cons first rest ih =>
    unfold groupReference
    by_cases hsame : first.target = reference.text.1 ∧ first.marker = sidesMarker reference.sides
    · rw [if_pos hsame]
      rcases h with ⟨group, hgroup, hkeys⟩ | ⟨htarget, hmarker, rfl⟩
      · rcases mem_cons.mp hgroup with rfl | hrest
        · exact ⟨_, mem_cons_self, hkeys.1, hkeys.2.1, mem_append_left _ hkeys.2.2⟩
        · exact ⟨group, mem_cons_of_mem _ hrest, hkeys⟩
      · exact ⟨_, mem_cons_self, hsame.1.trans htarget, hsame.2.trans hmarker,
          mem_append_right _ (mem_singleton_self _)⟩
    · rw [if_neg hsame]
      rcases h with ⟨group, hgroup, hkeys⟩ | hreference
      · rcases mem_cons.mp hgroup with rfl | hrest
        · exact ⟨group, mem_cons_self, hkeys⟩
        · obtain ⟨group', hgroup', hkeys'⟩ := ih (.inl ⟨group, hrest, hkeys⟩)
          exact ⟨group', mem_cons_of_mem _ hgroup', hkeys'⟩
      · obtain ⟨group', hgroup', hkeys'⟩ := ih (.inr hreference)
        exact ⟨group', mem_cons_of_mem _ hgroup', hkeys'⟩

lemma exists_group_of_mem {references : List Reference} {reference : Reference}
    (h : reference ∈ references) :
    ∃ group ∈ groupReferences references, group.target = reference.text.1 ∧
      group.marker = sidesMarker reference.sides ∧ reference.text.2 ∈ group.sites := by
  have hfold : ∀ (references : List Reference) (groups : List ReferenceGroup),
      ((∃ group ∈ groups, group.target = reference.text.1 ∧
          group.marker = sidesMarker reference.sides ∧ reference.text.2 ∈ group.sites) ∨
        reference ∈ references) →
      ∃ group ∈ references.foldl (fun groups reference => groupReference reference groups) groups,
        group.target = reference.text.1 ∧ group.marker = sidesMarker reference.sides ∧
          reference.text.2 ∈ group.sites := by
    intro references
    induction references with
    | nil =>
      rintro groups (hgroup | hmem)
      · exact hgroup
      · cases hmem
    | cons first rest ih =>
      intro groups hcases
      apply ih
      rcases hcases with hgroup | hmem
      · exact .inl (exists_group_groupReference (.inl hgroup))
      · rcases mem_cons.mp hmem with rfl | hrest
        · exact .inl (exists_group_groupReference (.inr ⟨rfl, rfl, rfl⟩))
        · exact .inr hrest
  exact hfold references [] (.inr h)

variable {evidence : Evidence}

/-- The line of the importers names each importer or counts it. -/
lemma listed_or_more {importer : String × List String} (h : importer ∈ evidence.importers) :
    importer ∈ (importers evidence).listed ∨ 0 < (importers evidence).more := by
  unfold importers
  dsimp only
  by_cases hfew : evidence.importers.length ≤ maxImporters
  · left
    rw [take_of_length_le (by rw [length_sortBy]; exact hfew)]
    exact mem_sortBy.mpr h
  · right
    rw [length_sortBy]
    omega

lemma mem_entries {report : BriefReport} {selection : ReviewBriefSelection} {item : BriefEntry} :
    item ∈ (plain report selection).entries ↔ ∃ index change evidence,
      index ∈ report.brief.entryChanges ∧ index ∈ selection.entries ∧
        report.report.changes[index]? = some change ∧
        (allEvidence report.report)[index]? = some evidence ∧
        entry report selection index change evidence = item := by
  simp only [plain, mem_filterMap, mem_filter, decide_eq_true_eq, bind_eq_bind,
    bind_eq_some_iff, Option.pure_def, some.injEq, and_assoc]
  constructor
  · rintro ⟨index, hindex, hselected, change, hchange, evidence, hevidence, hentry⟩
    exact ⟨index, change, evidence, hindex, hselected, hchange, hevidence, hentry⟩
  · rintro ⟨index, change, evidence, hindex, hselected, hchange, hevidence, hentry⟩
    exact ⟨index, hindex, hselected, change, hchange, evidence, hevidence, hentry⟩

/-! ## Entry changes -/

variable {index : ℕ} {changes : List ReviewChangePaths} {hasDiff modeChanged : ℕ → Bool} {hunks :
      List ReviewBriefHunk}

lemma lt_of_mem_classify (h : index ∈ classify changes hasDiff modeChanged hunks) :
    index < changes.length := by
  obtain ⟨change, hchange, rfl⟩ := List.mem_map.mp h
  exact (mem_zipIdx' (mem_of_mem_filter hchange)).1

lemma nodup_classify (changes : List ReviewChangePaths) (hasDiff modeChanged : ℕ → Bool)
    (hunks : List ReviewBriefHunk) : (classify changes hasDiff modeChanged hunks).Nodup := by
  apply Nodup.sublist (Sublist.map _ filter_sublist)
  rw [zipIdx_map_snd]
  exact nodup_range'

lemma mem_classify_of_shown {hunk : ReviewBriefHunk} (hmem : hunk ∈ hunks)
    (hshown : hunk.role = .shown) (hlt : hunk.change < changes.length) :
    hunk.change ∈ classify changes hasDiff modeChanged hunks := by
  have hown : ((hunks.filter fun other => other.change = hunk.change).any
      fun other => other.role ≠ .rewrite) = true := by
    rw [List.any_eq_true]
    refine ⟨hunk, mem_filter.mpr ⟨hmem, decide_eq_true rfl⟩, decide_eq_true ?_⟩
    rw [hshown]
    exact ReviewHunkRole.noConfusion
  refine List.mem_map.mpr ⟨(changes[hunk.change], hunk.change), mem_filter.mpr ⟨?_, ?_⟩, rfl⟩
  · exact mk_mem_zipIdx_iff_getElem?.mpr (getElem?_eq_getElem hlt)
  · dsimp only
    rw [hown]
    rfl

lemma mem_entryChanges_of_details {report : BriefReport}
    (h : .details index ∈ report.brief.items) : index ∈ report.brief.entryChanges := by
  unfold items at h
  simp only [mem_append, List.mem_map, mem_filter, mem_singleton, reduceCtorEq,
    and_false, exists_false, or_false, false_or, BriefItem.details.injEq, exists_eq_right] at h
  rcases h with hhunk | hentry
  · obtain ⟨hunk, hmem, hitem | hitem⟩ := mem_hunkItems hhunk
    · exact BriefItem.noConfusion hitem
    · obtain rfl := BriefItem.details.inj hitem
      obtain ⟨hzip, hrole⟩ := mem_filter.mp (mem_sortBy.mp hmem)
      have hhunk := fst_mem_of_mem_zipIdx hzip
      apply mem_classify_of_shown hhunk (of_decide_eq_true hrole)
      rw [length_map]
      exact report.change_lt _ hhunk
  · exact hentry.1

lemma mem_entryChanges_of_importers {report : BriefReport}
    (h : .importers index ∈ report.brief.items) : index ∈ report.brief.entryChanges := by
  have hhunks : .importers index ∉ (hunkItems report.brief.shownHunks []).1 := by
    intro hmem
    obtain ⟨hunk, -, hitem | hitem⟩ := mem_hunkItems hmem
    · exact BriefItem.noConfusion hitem
    · exact BriefItem.noConfusion hitem
  unfold items at h
  simp only [mem_append, List.mem_map, mem_singleton, reduceCtorEq, and_false,
    exists_false, or_false, false_or, BriefItem.importers.injEq, exists_eq_right, hhunks] at h
  exact h

/-- The documentation lines among the items are lines of the brief. -/
lemma lt_of_mention_mem {report : BriefReport}
    (h : .mention index ∈ report.brief.items) : index < report.mentions.length := by
  have hhunks : .mention index ∉ (hunkItems report.brief.shownHunks []).1 := by
    intro hmem
    obtain ⟨hunk, -, hitem | hitem⟩ := mem_hunkItems hmem
    · exact BriefItem.noConfusion hitem
    · exact BriefItem.noConfusion hitem
  unfold items at h
  simp only [mem_append, List.mem_map, mem_singleton, reduceCtorEq, and_false,
    exists_false, or_false, false_or, BriefItem.mention.injEq, exists_eq_right, hhunks,
    mem_range] at h
  exact h

lemma lt_of_itemEntry_usage {report : BriefReport} {line index : ℕ}
    (h : report.brief.itemEntry (.usage line) = some index) :
    index < report.report.changes.length := by
  obtain ⟨paths, -, hfind⟩ := bind_eq_some_iff.mp h
  obtain ⟨hlt, -⟩ := findIdx?_eq_some_iff_getElem.mp hfind
  rwa [BriefReport.brief, length_map] at hlt

lemma length_evidences (report : ReviewContextReport) (changes : List ReviewContextChange)
    (marked : List (ReviewContextRelation × Bool)) :
    (evidences report changes marked).length = changes.length := by
  induction changes generalizing marked with
  | nil => rfl
  | cons change rest ih => rw [evidences, length_cons, length_cons, ih]

/-! ## Evidence -/

section

variable {report : BriefReport} {selection : ReviewBriefSelection}

lemma counted_iff (h : (allEvidence report.report)[index]? = some evidence) :
    Counted report selection index ↔ index ∉ selection.details := by
  constructor
  · rintro ⟨other, hother⟩
    exact of_decide_eq_true (mem_filter.mp hother).2
  · intro hindex
    exact ⟨evidence, mem_filter.mpr
      ⟨mk_mem_zipIdx_iff_getElem?.mpr h, decide_eq_true hindex⟩⟩

/-- The change has an entry in the output. -/
def Rendered (report : BriefReport) (selection : ReviewBriefSelection) (index : ℕ) : Prop :=
  index ∈ report.brief.entryChanges ∧ index ∈ selection.entries

/-- Items are printed with the entry of their change, under the selection that is for them. -/
lemma printed_iff (h : (allEvidence report.report)[index]? = some evidence) {item : EvidenceItem}
    (hitem : item ∈ evidence.items) :
    Printed report selection index evidence item ↔ Rendered report selection index ∧
      match item with
      | .importer _ => index ∈ selection.importers
      | _ => index ∈ selection.details := by
  have hlt : index < report.report.changes.length := by
    rw [← length_evidences report.report report.report.changes]
    exact (List.getElem?_eq_some_iff.mp h).1
  have hentries : ∀ prints : BriefEntry → Prop,
      (∃ entry ∈ (plain report selection).entries, entry.change = index ∧ prints entry) ↔
        Rendered report selection index ∧
          prints (entry report selection index report.report.changes[index] evidence) := by
    intro prints
    constructor
    · rintro ⟨item, hitem, hchange, hprints⟩
      obtain ⟨other, change, listed, hother, hselected, hat, hlisted, rfl⟩ := mem_entries.mp hitem
      obtain rfl : other = index := hchange
      cases hlisted.symm.trans h
      obtain rfl := some.inj ((getElem?_eq_getElem hlt).symm.trans hat)
      exact ⟨⟨hother, hselected⟩, hprints⟩
    · rintro ⟨⟨hother, hselected⟩, hprints⟩
      exact ⟨_, mem_entries.mpr ⟨index, _, evidence, hother, hselected,
        getElem?_eq_getElem hlt, h, rfl⟩, rfl, hprints⟩
  rw [Printed, hentries]
  refine and_congr_right fun _ => ?_
  simp only [Evidence.items, mem_append, List.mem_map] at hitem
  rcases hitem with (⟨reference, hreference, rfl⟩ | ⟨type, htype, rfl⟩) | ⟨importer, himporter, rfl⟩
  · constructor
    · rintro ⟨group, -, -, -, -, hline⟩
      by_contra hdetails
      simp only [entry, if_neg hdetails, not_mem_nil] at hline
    · intro hdetails
      obtain ⟨group, hgroup, htarget, hmarker, hsite⟩ := exists_group_of_mem hreference
      refine ⟨group, hgroup, htarget, hmarker, hsite, ?_⟩
      simp only [entry, if_pos hdetails, relationLines]
      exact mem_append_left _ (mem_append_left _ (List.mem_map_of_mem hgroup))
  · constructor
    · intro hline
      by_contra hdetails
      simp only [BriefEntry.Prints, entry, if_neg hdetails, not_mem_nil] at hline
    · intro hdetails
      simp only [BriefEntry.Prints, entry, if_pos hdetails, relationLines]
      exact mem_append_left _ (mem_append_right _ (List.mem_map_of_mem htype))
  · have hsome : ¬evidence.importers.isEmpty := by
      rw [List.isEmpty_iff]
      exact ne_nil_of_mem himporter
    constructor
    · rintro ⟨line, hline, -⟩
      by_contra hselected
      simp only [entry, hselected, false_and, if_false, reduceCtorEq] at hline
    · intro hselected
      exact ⟨_, if_pos ⟨hselected, hsome⟩, listed_or_more himporter⟩

lemma evidence_conserved_iff (hadmitted : Admitted report.brief selection) :
    (∀ (index : ℕ) evidence, (allEvidence report.report)[index]? = some evidence →
      ∀ item ∈ evidence.items,
        (Printed report selection index evidence item ↔ ¬Counted report selection index)) ↔
    ∀ (index : ℕ) evidence, (allEvidence report.report)[index]? = some evidence →
      evidence.importers ≠ [] → (index ∈ selection.importers ↔ index ∈ selection.details) := by
  have hdetails : ∀ index, index ∈ selection.details → Rendered report selection index := by
    intro index hindex
    have hselected : selection.Has (.details index) := hindex
    have hchange : index ∈ report.brief.entryChanges := by
      apply mem_entryChanges_of_details
      exact (hadmitted.mem_items _ hselected).resolve_left BriefItem.noConfusion
    exact ⟨hchange, hadmitted.entry_mem _ index hselected rfl hchange⟩
  have himporters : ∀ index, index ∈ selection.importers → Rendered report selection index := by
    intro index hindex
    have hselected : selection.Has (.importers index) := hindex
    have hchange : index ∈ report.brief.entryChanges := by
      apply mem_entryChanges_of_importers
      exact (hadmitted.mem_items _ hselected).resolve_left BriefItem.noConfusion
    exact ⟨hchange, hadmitted.entry_mem _ index hselected rfl hchange⟩
  refine forall_congr' fun index => forall_congr' fun evidence => forall_congr' fun h => ?_
  rw [counted_iff h, not_not]
  constructor
  · intro hall hsome
    obtain ⟨importer, himporter⟩ := exists_mem_of_ne_nil _ hsome
    have hitem : EvidenceItem.importer importer ∈ evidence.items :=
      mem_append_right _ (List.mem_map_of_mem himporter)
    rw [← hall _ hitem, printed_iff h hitem]
    exact ⟨fun hselected => ⟨himporters index hselected, hselected⟩, And.right⟩
  · intro hselected item hitem
    rw [printed_iff h hitem]
    cases item with
    | reference reference => exact ⟨And.right, fun hindex => ⟨hdetails index hindex, hindex⟩⟩
    | typeRelation type => exact ⟨And.right, fun hindex => ⟨hdetails index hindex, hindex⟩⟩
    | importer importer =>
      have hsome : evidence.importers ≠ [] := by
        simp only [Evidence.items, mem_append, List.mem_map, reduceCtorEq, and_false,
          exists_false, false_or, EvidenceItem.importer.injEq, exists_eq_right] at hitem
        exact ne_nil_of_mem hitem
      constructor
      · rintro ⟨-, himporter⟩
        exact (hselected hsome).mp himporter
      · intro hindex
        exact ⟨hdetails index hindex, (hselected hsome).mpr hindex⟩

end

/-! ## Lines -/

section

variable {report : BriefReport} {selection : ReviewBriefSelection}

/-- The number of selected usage lines of the change at a place. -/
def usageCount (report : BriefReport) (selection : ReviewBriefSelection) (index : ℕ) : ℕ :=
  (report.usage.zipIdx.filter fun line => line.2 ∈ selection.usage).countP fun line =>
    some line.1.change = (report.report.changes[index]?).map changePaths

lemma length_usageLines {change : ReviewContextChange}
    (h : report.report.changes[index]? = some change) :
    (usageLines report selection change).length = usageCount report selection index := by
  rw [usageLines, length_sortBy, length_map, usageCount, countP_filter, countP_eq_length_filter, h]
  simp [Bool.and_comm]

lemma sum_length_usageLines :
    (report.report.changes.map fun change => (usageLines report selection change).length).sum =
      ∑ index ∈ Finset.range report.report.changes.length, usageCount report selection index := by
  congr 1
  apply ext_getElem
  · rw [length_map, length_map, length_range]
  · intro index hleft hright
    rw [getElem_map, getElem_map, getElem_range]
    rw [length_map] at hleft
    exact length_usageLines (getElem?_eq_getElem hleft)

lemma sum_usageCount_le :
    ∑ index ∈ Finset.range report.report.changes.length, usageCount report selection index ≤
      report.usageTotal := by
  rw [← sum_length_usageLines]
  have hcounts : (report.report.changes.map fun change =>
      (usageLines report selection change).length) =
        (report.report.changes.map changePaths).map fun paths =>
          (report.usage.zipIdx.filter fun line => line.2 ∈ selection.usage).countP fun line =>
            line.1.change = paths := by
    rw [List.map_map]
    refine map_congr_left fun change _ => ?_
    rw [usageLines, length_sortBy, length_map, Function.comp_apply,
      countP_filter, countP_eq_length_filter]
    congr 2
    funext line
    exact Bool.and_comm _ _
  rw [hcounts]
  rw [sum_countP_eq report.nodup_paths fun line : ReviewUsageLine × ℕ => line.1.change]
  calc _ ≤ (report.usage.zipIdx.filter fun line => line.2 ∈ selection.usage).length :=
        countP_le_length
    _ ≤ report.usage.zipIdx.length := length_filter_le _ _
    _ = report.usage.length := length_zipIdx
    _ ≤ report.usageTotal := report.usage_le

/-- The changes with an entry in the output. -/
def renderedChanges (report : BriefReport) (selection : ReviewBriefSelection) : Finset ℕ :=
  (report.brief.entryChanges.filter fun index => index ∈ selection.entries).toFinset

lemma mem_renderedChanges :
    index ∈ renderedChanges report selection ↔ Rendered report selection index := by
  rw [renderedChanges, List.mem_toFinset, mem_filter, decide_eq_true_eq, Rendered]

lemma lt_of_mem_entryChanges (h : index ∈ report.brief.entryChanges) :
    index < report.report.changes.length := by
  have hlt := lt_of_mem_classify h
  rwa [length_map] at hlt

lemma renderedChanges_subset :
    renderedChanges report selection ⊆ Finset.range report.report.changes.length := by
  intro index hindex
  rw [Finset.mem_range]
  exact lt_of_mem_entryChanges (mem_renderedChanges.mp hindex).1

lemma sum_usage_entries :
    ((plain report selection).entries.map fun entry => entry.usage.length).sum =
      ∑ index ∈ renderedChanges report selection, usageCount report selection index := by
  have hnodup : (report.brief.entryChanges.filter fun index =>
      index ∈ selection.entries).Nodup := (nodup_classify _ _ _ _).filter _
  rw [renderedChanges, sum_toFinset _ hnodup]
  have hlt : ∀ index ∈ report.brief.entryChanges.filter fun index => index ∈ selection.entries,
      index < report.report.changes.length := fun index hindex =>
    lt_of_mem_entryChanges (mem_of_mem_filter hindex)
  unfold plain
  generalize report.brief.entryChanges.filter (fun index => index ∈ selection.entries) = indices
    at hlt
  induction indices with
  | nil => rfl
  | cons index rest ih =>
    have hindex := hlt index mem_cons_self
    have hevidence : index < (allEvidence report.report).length := by
      rw [allEvidence, length_evidences]
      exact hindex
    rw [filterMap_cons]
    simp only [getElem?_eq_getElem hindex, getElem?_eq_getElem hevidence,
      bind_eq_bind, bind_some, Option.pure_def, map_cons, sum_cons]
    have hrest := ih fun other hother => hlt other (mem_cons_of_mem _ hother)
    congr 1
    exact length_usageLines (getElem?_eq_getElem hindex)

lemma usage_conserved_iff :
    ((plain report selection).entries.map fun entry => entry.usage.length).sum +
        omittedUsage report selection = report.usageTotal ↔
      ∀ index < report.report.changes.length, ¬Rendered report selection index →
        usageCount report selection index = 0 := by
  have hle : ∑ index ∈ Finset.range report.report.changes.length,
      usageCount report selection index ≤ report.usageTotal := sum_usageCount_le
  have hsubset : renderedChanges report selection ⊆ Finset.range report.report.changes.length :=
    renderedChanges_subset
  have hsplit := Finset.sum_sdiff (f := usageCount report selection) hsubset
  rw [omittedUsage, sum_length_usageLines, sum_usage_entries]
  have hzero : ∑ index ∈
        Finset.range report.report.changes.length \ renderedChanges report selection,
      usageCount report selection index = 0 ↔
        ∀ index < report.report.changes.length, ¬Rendered report selection index →
          usageCount report selection index = 0 := by
    rw [Finset.sum_eq_zero_iff]
    simp [mem_renderedChanges]
  rw [← hzero]
  omega

lemma usageCount_ne_zero_iff (hlt : index < report.report.changes.length) :
    usageCount report selection index ≠ 0 ↔
      ∃ line ∈ selection.usage, report.brief.itemEntry (.usage line) = some index := by
  have hentry : ∀ line, report.brief.itemEntry (.usage line) = some index ↔
      ∃ usage, report.usage[line]? = some usage ∧
        usage.change = changePaths report.report.changes[index] := by
    intro line
    simp only [itemEntry, BriefReport.brief, getElem?_map,
      bind_eq_some_iff, map_eq_some_iff]
    constructor
    · rintro ⟨paths, ⟨usage, husage, rfl⟩, hfind⟩
      obtain ⟨hat, hpaths, -⟩ := findIdx?_eq_some_iff_getElem.mp hfind
      rw [decide_eq_true_eq, getElem_map] at hpaths
      exact ⟨usage, husage, hpaths.symm⟩
    · rintro ⟨usage, husage, hpaths⟩
      refine ⟨usage.change, ⟨usage, husage, rfl⟩, ?_⟩
      rw [findIdx?_eq_some_iff_getElem]
      refine ⟨by rw [length_map]; exact hlt, ?_, fun other hother => ?_⟩
      · rw [decide_eq_true_eq, getElem_map]
        exact hpaths.symm
      · -- An earlier change with the same paths would be the same change.
        rw [decide_eq_true_eq, hpaths]
        intro hsame
        have hlt' : index < (report.report.changes.map changePaths).length := by
          rwa [length_map]
        have heq := (Nodup.getElem_inj_iff report.nodup_paths).mp
          (hsame.trans (getElem_map changePaths (h := hlt')).symm)
        exact Nat.ne_of_lt hother heq
  simp only [hentry]
  rw [usageCount, Nat.ne_zero_iff_zero_lt, countP_pos_iff]
  simp only [mem_filter, decide_eq_true_eq, getElem?_eq_getElem hlt, map_some, some.injEq]
  constructor
  · rintro ⟨⟨usage, line⟩, ⟨hmem, hselected⟩, hpaths⟩
    exact ⟨line, hselected, usage, mk_mem_zipIdx_iff_getElem?.mp hmem, hpaths⟩
  · rintro ⟨line, hselected, usage, husage, hpaths⟩
    exact ⟨(usage, line), ⟨mk_mem_zipIdx_iff_getElem?.mpr husage, hselected⟩, hpaths⟩

/-- Documentation lines are conserved under the selections of a projection. -/
lemma mentions_conserved (hadmitted : Admitted report.brief selection) :
    (plain report selection).mentions.length + omittedMentions report selection =
      report.mentionsTotal := by
  have hsubset : selection.mentions ⊆ Finset.range report.mentions.length := by
    intro index hindex
    have hselected : selection.Has (.mention index) := hindex
    rw [Finset.mem_range]
    exact lt_of_mention_mem ((hadmitted.mem_items _ hselected).resolve_left BriefItem.noConfusion)
  have hcard : (plain report selection).mentions.length = selection.mentions.card := by
    have hindices : ((report.mentions.zipIdx.filter fun mention =>
        mention.2 ∈ selection.mentions).map Prod.snd).toFinset = selection.mentions := by
      ext index
      simp only [List.mem_toFinset, List.mem_map, mem_filter, decide_eq_true_eq]
      constructor
      · rintro ⟨mention, ⟨-, hselected⟩, rfl⟩
        exact hselected
      · intro hselected
        have hlt := Finset.mem_range.mp (hsubset hselected)
        exact ⟨(report.mentions[index], index),
          ⟨mk_mem_zipIdx_iff_getElem?.mpr (getElem?_eq_getElem hlt), hselected⟩, rfl⟩
    have hnodup : ((report.mentions.zipIdx.filter fun mention =>
        mention.2 ∈ selection.mentions).map Prod.snd).Nodup := by
      apply Nodup.sublist (Sublist.map _ filter_sublist)
      rw [zipIdx_map_snd]
      exact nodup_range'
    rw [← hindices, toFinset_card_of_nodup hnodup, length_map]
    exact length_map _
  have hle := Finset.card_le_card hsubset
  have htotal := report.mentions_le
  rw [Finset.card_range] at hle
  rw [hcard, omittedMentions]
  omega

end

/-! ## The condition -/

def BriefReport.projection (report : BriefReport) (render : ReviewBriefSelection → BriefParts)
    (count : String → ℕ) (byteBudget : ℕ) : BriefProjection :=
  ⟨report.brief, render, count, byteBudget⟩

/-- A selection conserves evidence, usage lines and documentation lines exactly if it has the
importers of the changes whose details it has, and usage lines only of changes with an entry. -/
theorem conserved_iff (report : BriefReport) (render : ReviewBriefSelection → BriefParts)
    (count : String → ℕ) (byteBudget tokenBudget : ℕ) {selection : ReviewBriefSelection}
    (h : (report.projection render count byteBudget).projectBrief tokenBudget = some selection) :
    Conserved report selection ↔
      (∀ (index : ℕ) evidence, (allEvidence report.report)[index]? = some evidence →
        evidence.importers ≠ [] → (index ∈ selection.importers ↔ index ∈ selection.details)) ∧
      ∀ line ∈ selection.usage, ∀ index, report.brief.itemEntry (.usage line) = some index →
        index ∈ report.brief.entryChanges := by
  have hadmitted : Admitted report.brief selection := admitted_of_projectBrief h
  have husage : ((plain report selection).entries.map fun entry => entry.usage.length).sum +
      omittedUsage report selection = report.usageTotal ↔
        ∀ line ∈ selection.usage, ∀ index, report.brief.itemEntry (.usage line) = some index →
          index ∈ report.brief.entryChanges := by
    rw [usage_conserved_iff]
    constructor
    · intro hzero line hline index hentry
      have hlt := lt_of_itemEntry_usage hentry
      by_contra hnone
      exact (usageCount_ne_zero_iff hlt).mpr ⟨line, hline, hentry⟩
        (hzero index hlt fun hrendered => hnone hrendered.1)
    · intro hentries index hlt hnone
      by_contra hcount
      obtain ⟨line, hline, hentry⟩ := (usageCount_ne_zero_iff hlt).mp hcount
      have hchange := hentries line hline index hentry
      exact hnone ⟨hchange, hadmitted.entry_mem (.usage line) index hline hentry hchange⟩
  rw [← evidence_conserved_iff hadmitted, ← husage]
  constructor
  · intro hconserved
    exact ⟨hconserved.evidence, hconserved.usage⟩
  · rintro ⟨hevidence, hlines⟩
    exact ⟨hevidence, hlines, mentions_conserved hadmitted⟩

namespace OneChange

/-- The changed file on one of the sides. -/
def rates : ReviewChangedSide where
  path := ⟨⟨["rates.py"]⟩, by unfold PathBuf.Separated; decide +kernel, by decide +kernel⟩
  ranges := [⟨1, 9⟩]

def commit : ObjectId :=
  ⟨"0123456789012345678901234567890123456789", by decide +kernel, by decide +kernel⟩

/-- A modified file with three hunks of a role, whose importer names one of its functions. -/
def report (role : ReviewHunkRole) : BriefReport where
  report := ⟨⟨commit, commit⟩, [⟨some rates, some rates⟩],
    [⟨"head", "import", ⟨"main.py", "rates.py", "python"⟩, none, none, none⟩], []⟩
  hasDiff _ := true
  modeChanged _ := false
  hunks := [⟨0, role, 2, false⟩, ⟨0, role, 2, false⟩, ⟨0, role, 2, false⟩]
  entryChains := []
  mentions := []
  mentionsTotal := 0
  usage := [⟨⟨some ⟨["rates.py"]⟩, some ⟨["rates.py"]⟩⟩, "head", ⟨["main.py"]⟩, 12,
    "total = apply(rates)"⟩]
  usageTotal := 1
  nodup_paths := nodup_singleton _
  change_lt := by cases role <;> decide +kernel
  mentions_le := Nat.le_refl _
  usage_le := Nat.le_refl _

/-- The projection of the report under a budget that holds everything. -/
def projection (role : ReviewHunkRole) : BriefProjection :=
  (report role).projection (fun _ => ⟨"review-context brief", "", ""⟩) String.length 1000

def selection (role : ReviewHunkRole) : ReviewBriefSelection :=
  ((projection role).projectBrief 400).get (by cases role <;> decide +kernel)

end OneChange

open OneChange

/-- A file whose hunks are all shown has everything printed. -/
theorem conserved_iff_shown : Conserved (OneChange.report .shown) (OneChange.selection .shown) := by
  have hprojected : (projection .shown).projectBrief 400 =
      some (selection .shown) := (some_get _).symm
  refine (conserved_iff (report .shown) _ _ _ _ hprojected).mpr
    ⟨fun index evidence _ _ => ?_, ?_⟩
  · have hsame : (selection .shown).importers = (selection .shown).details := by
      decide +kernel
    rw [hsame]
  · decide +kernel

/-- The usage line of a file whose hunks are all rewritten is neither printed nor omitted. -/
theorem usage_lost_of_rewritten :
    ¬∀ (report : BriefReport) (render : ReviewBriefSelection → BriefParts) (count : String → ℕ)
      (byteBudget tokenBudget : ℕ) (selection : ReviewBriefSelection),
      (report.projection render count byteBudget).projectBrief tokenBudget = some selection →
        Conserved report selection := by
  intro h
  have hconserved : Conserved (report .rewrite) (selection .rewrite) :=
    h _ _ _ _ _ _ (some_get _).symm
  have hprinted : ((plain (report .rewrite) (selection .rewrite)).entries.map
      fun entry => entry.usage.length).sum +
        omittedUsage (report .rewrite) (selection .rewrite) = 0 := by
    decide +kernel
  exact Nat.zero_ne_one (hprinted.symm.trans hconserved.usage)

end Reposcout.Report.ReviewContext
