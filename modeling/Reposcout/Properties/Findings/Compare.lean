import Mathlib.Tactic.NormNum
import Reposcout.Findings.Catalog

/-!
# Catalog comparison is a classification

`changeAt` says what the comparison reports about one fingerprint, from the two records filed
under it.  The reported changes are exactly these, each once, so every property of the
comparison is a property of `changeAt`: comparing a catalog with itself reports nothing,
swapping the catalogs mirrors every change, and each fingerprint has exactly one class.

Mirroring a worsened or improved finding needs its two records to be of one kind, because the
kind of the later record alone decides which metrics are compared.
-/

namespace Reposcout.Findings

open List Option KeyedList

variable {K : Type}

/-! ## The index by fingerprint -/

def fingerprints (catalog : FindingCatalog K) : List String :=
  catalog.findings.map FindingRecord.fingerprint

lemma byId_perm (catalog : FindingCatalog K) : (byId catalog).Perm
    (indexBy FindingRecord.fingerprint catalog.findings) :=
  sortBy_perm _ _

lemma nodup_keys_byId (catalog : FindingCatalog K) : (keys (byId catalog)).Nodup :=
  ((byId_perm catalog).map Prod.fst).nodup_iff.mpr (nodup_keys_indexBy _ _)

def recordAt (catalog : FindingCatalog K) (fingerprint : String) : Option (FindingRecord K) :=
  get? fingerprint (byId catalog)

lemma recordAt_eq (catalog : FindingCatalog K) (fingerprint : String) :
    recordAt catalog fingerprint = get? fingerprint
      (indexBy FindingRecord.fingerprint catalog.findings) :=
  get?_of_perm (nodup_keys_indexBy _ _) (byId_perm catalog)

variable {catalog : FindingCatalog K} {fingerprint : String} {record : FindingRecord K}

lemma mem_byId_iff :
    (fingerprint, record) ∈ byId catalog ↔ recordAt catalog fingerprint = some record :=
  (get?_eq_some_iff (nodup_keys_byId catalog)).symm

lemma mem_of_recordAt (h : recordAt catalog fingerprint = some record) :
    record.fingerprint = fingerprint ∧ record ∈ catalog.findings := by
  rw [recordAt_eq] at h
  exact mem_of_get?_indexBy h

lemma isSome_recordAt :
    (recordAt catalog fingerprint).isSome ↔ fingerprint ∈ fingerprints catalog := by
  rw [recordAt_eq]
  exact isSome_get?_indexBy

/-! ## Severity -/

section

variable [Field K] [LinearOrder K]

lemma compareMetricTuple_self (record : FindingRecord K) (names : List String) :
    compareMetricTuple record record names = .eq := by
  induction names with
  | nil => rfl
  | cons name names ih =>
    unfold compareMetricTuple
    rw [compare_eq_iff_eq.mpr rfl]
    exact ih

lemma compareMetricTuple_swap (a b : FindingRecord K) (names : List String) :
    compareMetricTuple b a names = (compareMetricTuple a b names).swap := by
  induction names with
  | nil => rfl
  | cons name names ih =>
    unfold compareMetricTuple
    rw [@Std.OrientedCmp.eq_swap K Ord.compare _ (metric a name)]
    cases Ord.compare (metric b name) (metric a name) <;> simp [ih]

variable [IsStrictOrderedRing K]

lemma compareSeverity_self (record : FindingRecord K) :
    compareSeverity record record = .eq := by
  unfold compareSeverity
  rw [compareMetricTuple_self, compareMetricTuple_self, sub_self, abs_zero,
    if_pos (by positivity : (0 : K) < 1 / 100)]
  simp

omit [IsStrictOrderedRing K] in
lemma compareSeverity_swap {a b : FindingRecord K} (h : a.kind = b.kind) :
    compareSeverity b a = (compareSeverity a b).swap := by
  unfold compareSeverity
  rw [h, abs_sub_comm, compareMetricTuple_swap a b, compareMetricTuple_swap a b]
  split_ifs
  · rfl
  · rfl
  · rfl
  · exact Std.OrientedCmp.eq_swap
  · rfl

end

/-! ## The change of one fingerprint -/

section

variable [Field K] [LinearOrder K]

/-- What the comparison reports about one fingerprint. -/
def changeAt (before after : FindingCatalog K) (fingerprint : String) :
    Option (FindingChange K) :=
  match recordAt before fingerprint, recordAt after fingerprint with
  | none, none => none
  | none, some current => some ⟨.new, none, some current⟩
  | some previous, none => some ⟨.resolved, some previous, none⟩
  | some previous, some current =>
    match compareSeverity previous current with
    | .gt => some ⟨.worsened, some previous, some current⟩
    | .lt => some ⟨.improved, some previous, some current⟩
    | .eq => none

def changeFingerprint (change : FindingChange K) : String :=
  ((changeFinding change).map FindingRecord.fingerprint).getD ""

/-- The unsorted changes of a comparison. -/
def allChanges (before after : FindingCatalog K) : List (FindingChange K) :=
  (byId after).filterMap (currentChange (byId before)) ++
    (byId before).filterMap (previousChange (byId after))

variable {before : FindingCatalog K} {after : FindingCatalog K}

lemma compare_of_versions (hversion : before.version = after.version)
    (hnonzero : before.version ≠ 0) :
    (compare before after).changes =
      sortBy changeOrder (allChanges before after) := by
  unfold compare
  rw [if_neg (by simp [hversion, hversion ▸ hnonzero])]
  rfl

variable {change : FindingChange K}

lemma changeFingerprint_of_changeAt (h : changeAt before after fingerprint = some change) :
    changeFingerprint change = fingerprint := by
  unfold changeAt at h
  split at h
  · simp at h
  · next current _ hcurrent =>
    cases h
    exact (mem_of_recordAt hcurrent).1
  · next previous hprevious _ =>
    cases h
    exact (mem_of_recordAt hprevious).1
  · next previous current _ hcurrent =>
    split at h
    · cases h
      exact (mem_of_recordAt hcurrent).1
    · cases h
      exact (mem_of_recordAt hcurrent).1
    · simp at h

variable {entry : String × FindingRecord K}

lemma currentChange_eq (h : entry ∈ byId after) :
    currentChange (byId before) entry = changeAt before after entry.1 := by
  obtain ⟨fingerprint, current⟩ := entry
  unfold currentChange changeAt recordAt
  rw [show get? fingerprint (byId after) = some current from mem_byId_iff.mp h]
  dsimp only
  cases get? fingerprint (byId before) <;> rfl

lemma previousChange_eq (h : entry ∈ byId before) :
    previousChange (byId after) entry =
      if (recordAt after entry.1).isSome then none else changeAt before after entry.1 := by
  obtain ⟨fingerprint, previous⟩ := entry
  unfold previousChange changeAt recordAt
  rw [show get? fingerprint (byId before) = some previous from mem_byId_iff.mp h]
  cases get? fingerprint (byId after) <;> rfl

/-- **The reported changes are the changes of the single fingerprints.** -/
lemma mem_allChanges_iff : change ∈ allChanges before after ↔
      ∃ fingerprint, changeAt before after fingerprint = some change := by
  unfold allChanges
  rw [mem_append, mem_filterMap, mem_filterMap]
  constructor
  · rintro (⟨entry, hmem, hchange⟩ | ⟨entry, hmem, hchange⟩)
    · exact ⟨entry.1, currentChange_eq hmem ▸ hchange⟩
    · rw [previousChange_eq hmem] at hchange
      split_ifs at hchange
      exact ⟨entry.1, hchange⟩
  · rintro ⟨fingerprint, hchange⟩
    cases hafter : recordAt after fingerprint with
    | some current =>
      have hmem := mem_byId_iff.mpr hafter
      exact .inl ⟨(fingerprint, current), hmem, (currentChange_eq hmem).trans hchange⟩
    | none =>
      cases hbefore : recordAt before fingerprint with
      | none => simp [changeAt, hbefore, hafter] at hchange
      | some previous =>
        have hmem := mem_byId_iff.mpr hbefore
        refine .inr ⟨(fingerprint, previous), hmem, ?_⟩
        rw [previousChange_eq hmem, hafter]
        exact hchange

/-- No fingerprint is reported twice. -/
lemma nodup_changeFingerprints (before after : FindingCatalog K) :
    ((allChanges before after).map changeFingerprint).Nodup := by
  have hcurrent : (((byId after).filterMap (currentChange (byId before))).map
      changeFingerprint).Sublist (keys (byId after)) := by
    apply keys_filterMap_sublist
    intro entry hmem change hchange
    rw [currentChange_eq hmem] at hchange
    exact changeFingerprint_of_changeAt hchange
  have hprevious : ∀ entry ∈ byId before, ∀ change,
      previousChange (byId after) entry = some change →
      changeFingerprint change = entry.1 ∧ recordAt after entry.1 = none := by
    intro entry hmem change hchange
    rw [previousChange_eq hmem] at hchange
    split_ifs at hchange with hafter
    exact ⟨changeFingerprint_of_changeAt hchange, not_isSome_iff_eq_none.mp hafter⟩
  have hresolved : (((byId before).filterMap (previousChange (byId after))).map
      changeFingerprint).Sublist (keys (byId before)) := by
    apply keys_filterMap_sublist
    intro entry hmem change hchange
    exact (hprevious entry hmem change hchange).1
  unfold allChanges
  rw [map_append, nodup_append]
  refine ⟨hcurrent.nodup (nodup_keys_byId after), hresolved.nodup (nodup_keys_byId before), ?_⟩
  -- A resolved fingerprint has no record in the later catalog.
  intro fingerprint hnew other hold hsame
  obtain ⟨change, hchange, rfl⟩ := List.mem_map.mp hold
  obtain ⟨entry, hmem, hentry⟩ := mem_filterMap.mp hchange
  obtain ⟨hfingerprint, hnone⟩ := hprevious entry hmem change hentry
  have hkey := hcurrent.subset hnew
  rw [hsame, hfingerprint] at hkey
  exact get?_eq_none_iff.mp hnone hkey

end

/-! ## The classification -/

/-- The mirror image of a change, as seen with the catalogs swapped. -/
def FindingChange.swap (change : FindingChange K) : FindingChange K where
  state := match change.state with
    | .new => .resolved
    | .resolved => .new
    | .worsened => .improved
    | .improved => .worsened
  before := change.after
  after := change.before

/-- Records that share a fingerprint are of one kind. -/
def SameKinds (before after : FindingCatalog K) : Prop :=
  ∀ x ∈ before.findings, ∀ y ∈ after.findings, x.fingerprint = y.fingerprint → x.kind = y.kind

def InClass (delta : FindingDelta K) (state : ChangeState) (fingerprint : String) : Prop :=
  ∃ change ∈ delta.changes, change.state = state ∧ changeFingerprint change = fingerprint

/-- The class of a fingerprint: one of the four states, or unchanged. -/
def Classified (before after : FindingCatalog K) (delta : FindingDelta K)
    (fingerprint : String) : Option ChangeState → Prop
  | some state => InClass delta state fingerprint
  | none => fingerprint ∈ fingerprints before ∧ fingerprint ∈ fingerprints after ∧
      ∀ state, ¬ InClass delta state fingerprint

section

variable [Field K] [LinearOrder K] {before after : FindingCatalog K}

lemma changeAt_swap (h : SameKinds before after) (fingerprint : String) :
    changeAt after before fingerprint =
      (changeAt before after fingerprint).map FindingChange.swap := by
  unfold changeAt
  cases hbefore : recordAt before fingerprint with
  | none => cases recordAt after fingerprint <;> rfl
  | some previous =>
    cases hafter : recordAt after fingerprint with
    | none => rfl
    | some current =>
      obtain ⟨hfpPrevious, hmemPrevious⟩ := mem_of_recordAt hbefore
      obtain ⟨hfpCurrent, hmemCurrent⟩ := mem_of_recordAt hafter
      have hkind := h previous hmemPrevious current hmemCurrent
        (hfpPrevious.trans hfpCurrent.symm)
      dsimp only
      rw [compareSeverity_swap hkind]
      cases compareSeverity previous current <;> rfl

variable (hversion : before.version = after.version) (hnonzero : before.version ≠ 0)

include hversion hnonzero

lemma inClass_iff {state : ChangeState} : InClass (compare before after) state fingerprint ↔
      ∃ change, changeAt before after fingerprint = some change ∧ change.state = state := by
  unfold InClass
  rw [compare_of_versions hversion hnonzero]
  constructor
  · rintro ⟨change, hmem, hstate, rfl⟩
    obtain ⟨fingerprint, hchange⟩ := mem_allChanges_iff.mp (mem_sortBy.mp hmem)
    rw [changeFingerprint_of_changeAt hchange]
    exact ⟨change, hchange, hstate⟩
  · rintro ⟨change, hchange, hstate⟩
    exact ⟨change, mem_sortBy.mpr (mem_allChanges_iff.mpr ⟨fingerprint, hchange⟩),
      hstate, changeFingerprint_of_changeAt hchange⟩

lemma inClass_new_iff : InClass (compare before after) .new fingerprint ↔
      recordAt before fingerprint = none ∧ (recordAt after fingerprint).isSome := by
  rw [inClass_iff hversion hnonzero]
  unfold changeAt
  cases recordAt before fingerprint with
  | none => cases recordAt after fingerprint <;> simp
  | some previous =>
    cases recordAt after fingerprint with
    | none => simp
    | some current =>
      dsimp only
      cases compareSeverity previous current <;> simp

lemma inClass_resolved_iff : InClass (compare before after) .resolved fingerprint ↔
      recordAt after fingerprint = none ∧ (recordAt before fingerprint).isSome := by
  rw [inClass_iff hversion hnonzero]
  unfold changeAt
  cases recordAt before fingerprint with
  | none => cases recordAt after fingerprint <;> simp
  | some previous =>
    cases recordAt after fingerprint with
    | none => simp
    | some current =>
      dsimp only
      cases compareSeverity previous current <;> simp

omit hnonzero hversion

omit [Field K] [LinearOrder K] in
lemma FindingChange.swap_swap (change : FindingChange K) : change.swap.swap = change := by
  obtain ⟨state, before, after⟩ := change
  cases state <;> rfl

lemma nodup_allChanges (before after : FindingCatalog K) : (allChanges before after).Nodup :=
  (nodup_changeFingerprints before after).of_map _

lemma allChanges_swap (hkinds : SameKinds before after) :
    ((allChanges before after).map FindingChange.swap).Perm (allChanges after before) := by
  have hinjective : Function.Injective (FindingChange.swap (K := K)) :=
    Function.LeftInverse.injective FindingChange.swap_swap
  rw [perm_ext_iff_of_nodup ((nodup_allChanges before after).map hinjective)
    (nodup_allChanges after before)]
  intro change
  rw [List.mem_map, mem_allChanges_iff]
  constructor
  · rintro ⟨mirrored, hmem, rfl⟩
    obtain ⟨fingerprint, hchange⟩ := mem_allChanges_iff.mp hmem
    exact ⟨fingerprint, by rw [changeAt_swap hkinds, hchange]; rfl⟩
  · rintro ⟨fingerprint, hchange⟩
    rw [changeAt_swap hkinds, map_eq_some_iff] at hchange
    obtain ⟨mirrored, hmirrored, rfl⟩ := hchange
    exact ⟨mirrored, mem_allChanges_iff.mpr ⟨fingerprint, hmirrored⟩, rfl⟩

variable [IsStrictOrderedRing K]

lemma compare_self (catalog : FindingCatalog K) (hnonzero : catalog.version ≠ 0) :
    (compare catalog catalog).changes = [] := by
  rw [compare_of_versions rfl hnonzero]
  have hnone : allChanges catalog catalog = [] := by
    rw [eq_nil_iff_forall_not_mem]
    intro change hmem
    obtain ⟨fingerprint, hchange⟩ := mem_allChanges_iff.mp hmem
    unfold changeAt at hchange
    cases hrecord : recordAt catalog fingerprint with
    | none => simp [hrecord] at hchange
    | some record => simp [hrecord, compareSeverity_self] at hchange
  rw [hnone]
  rfl

omit [IsStrictOrderedRing K] in
lemma existsUnique_classified {before : FindingCatalog K}
    (hversion : before.version = after.version) (hnonzero : before.version ≠ 0)
    (h : fingerprint ∈ fingerprints before ∨ fingerprint ∈ fingerprints after) :
    ∃! class_, Classified before after (compare before after) fingerprint class_ := by
  rw [← isSome_recordAt, ← isSome_recordAt] at h
  cases hchange : changeAt before after fingerprint with
  | some change =>
    refine ⟨some change.state, (inClass_iff hversion hnonzero).mpr ⟨change, hchange, rfl⟩, ?_⟩
    rintro (_ | state) hclass
    · exact absurd ((inClass_iff hversion hnonzero).mpr ⟨change, hchange, rfl⟩)
        (hclass.2.2 change.state)
    · obtain ⟨other, hother, rfl⟩ := (inClass_iff hversion hnonzero).mp hclass
      rw [some.inj (hchange.symm.trans hother)]
  | none =>
    -- Nothing is reported, so both catalogs have the fingerprint.
    have hnotReported : ∀ state, ¬ InClass (compare before after) state fingerprint := by
      intro state hclass
      obtain ⟨change, hsome, _⟩ := (inClass_iff hversion hnonzero).mp hclass
      rw [hchange] at hsome
      exact absurd hsome.symm (some_ne_none change)
    have hboth : (recordAt before fingerprint).isSome ∧ (recordAt after fingerprint).isSome := by
      unfold changeAt at hchange
      cases hbefore : recordAt before fingerprint <;>
        cases hafter : recordAt after fingerprint <;> simp_all
    refine ⟨none, ⟨isSome_recordAt.mp hboth.1, isSome_recordAt.mp hboth.2, hnotReported⟩, ?_⟩
    rintro (_ | state) hclass
    · rfl
    · exact absurd hclass (hnotReported state)

/-- **Comparison is a symmetric, exhaustive classification.**  For catalogs of the same version
other than zero: comparing a catalog with itself reports nothing; a fingerprint is new exactly
when only the later catalog has it, and swapping the catalogs swaps new with resolved; if
records that share a fingerprint are of one kind, the swap mirrors every change, so worsened is
swapped with improved; no fingerprint is reported twice, and each fingerprint of either catalog
has exactly one class. -/
theorem compare_classifies (before after : FindingCatalog K)
    (hversion : before.version = after.version) (hnonzero : before.version ≠ 0) :
    (compare before before).changes = [] ∧
    (∀ fingerprint, InClass (compare before after) .new fingerprint ↔
      fingerprint ∉ fingerprints before ∧ fingerprint ∈ fingerprints after) ∧
    (∀ fingerprint, InClass (compare before after) .new fingerprint ↔
      InClass (compare after before) .resolved fingerprint) ∧
    (SameKinds before after → ((compare before after).changes.map FindingChange.swap).Perm
        (compare after before).changes) ∧
    ((compare before after).changes.map changeFingerprint).Nodup ∧
    (∀ fingerprint, fingerprint ∈ fingerprints before ∨ fingerprint ∈ fingerprints after →
      ∃! cls, Classified before after (compare before after) fingerprint cls) := by
  have hversion' := hversion.symm
  have hnonzero' : after.version ≠ 0 := hversion ▸ hnonzero
  refine ⟨compare_self before hnonzero, ?_, ?_, ?_, ?_, ?_⟩
  · intro fingerprint
    have hbefore : recordAt before fingerprint = none ↔ fingerprint ∉ fingerprints before := by
      rw [← isSome_recordAt, not_isSome_iff_eq_none]
    rw [inClass_new_iff hversion hnonzero, hbefore, isSome_recordAt]
  · intro fingerprint
    rw [inClass_new_iff hversion hnonzero, inClass_resolved_iff hversion' hnonzero']
  · intro hkinds
    rw [compare_of_versions hversion hnonzero, compare_of_versions hversion' hnonzero']
    exact (((sortBy_perm _ _).map _).trans (allChanges_swap hkinds)).trans
      (sortBy_perm _ _).symm
  · rw [compare_of_versions hversion hnonzero, ((sortBy_perm _ _).map changeFingerprint).nodup_iff]
    exact nodup_changeFingerprints before after
  · intro fingerprint h
    exact existsUnique_classified hversion hnonzero h

def sampleRecord (fingerprint kind metric : String) (value : ℚ) : FindingRecord ℚ :=
  ⟨fingerprint, "", kind, "warning", "", ⟨⟨["a.rs"]⟩, 1, 1, none, none⟩, [], [(metric, value)]⟩

/-- The classification of a worsened function and a new risk. -/
theorem compare_classifies_worsened :
    let before : FindingCatalog ℚ := ⟨1, [sampleRecord "f" "complexity" "cyclomatic" 3]⟩
    let after : FindingCatalog ℚ := ⟨1, [sampleRecord "f" "complexity" "cyclomatic" 5,
      sampleRecord "r" "risk" "score" (4 / 5)]⟩
    InClass (compare before after) .worsened "f" ∧ InClass (compare before after) .new "r" ∧
    ((compare before after).changes.map FindingChange.swap).Perm
      (compare after before).changes := by
  intro before after
  have h := compare_classifies before after rfl (by decide)
  refine ⟨?_, (h.2.1 "r").mpr (by decide), h.2.2.2.1 ?_⟩
  · unfold InClass
    decide +kernel
  · unfold SameKinds
    decide

/-- Without the condition on the kinds the mirror breaks: filed under one fingerprint, a marker
that becomes a function has worsened, and a function that becomes a marker is unchanged. -/
theorem not_compare_mirrors :
    ¬ ∀ before after : FindingCatalog ℚ, before.version = after.version → before.version ≠ 0 →
      (fingerprints before).Nodup → (fingerprints after).Nodup →
      ∀ fingerprint, InClass (compare before after) .worsened fingerprint ↔
        InClass (compare after before) .improved fingerprint := by
  intro h
  have hmirror := h ⟨1, [sampleRecord "f" "marker" "line" 1]⟩
    ⟨1, [sampleRecord "f" "complexity" "cyclomatic" 1]⟩ rfl (by decide) (by decide) (by decide) "f"
  unfold InClass at hmirror
  revert hmirror
  decide +kernel

end

end Reposcout.Findings
