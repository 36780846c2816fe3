import Reposcout.Dup.Groups
import Reposcout.Framework.Matching

/-!
# What finalization keeps

Every step of `finalize` only drops groups or instances, and three of them admit greedily what
nothing kept before excludes: overlap pruning leaves the instances of a group pairwise apart,
repeated groups are dropped, and containment suppression drops a group that is contained in one
kept before.  So what is finalized is not changed when it is finalized again.
-/

namespace Reposcout.Dup

open List KeyedList Greedy Forall₂

/-! ## Overlap pruning -/

lemma instancesOverlap_comm (a b : CloneInstance) :
    instancesOverlap a b = instancesOverlap b a := by
  by_cases h : a.path = b.path
  · simp only [instancesOverlap, h, ne_eq, not_true_eq_false, if_false]
    by_cases hb : a.endByte > a.startByte ∧ b.endByte > b.startByte
    · rw [if_pos hb, if_pos hb.symm, Bool.and_comm]
    · rw [if_neg hb, if_neg (fun hc => hb hc.symm), Bool.and_comm]
  · simp [instancesOverlap, h, Ne.symm h]

variable {a b : CloneInstance}

lemma bytes_apart (h : instancesOverlap a b = false) (hpath : a.path = b.path)
    (ha : a.startByte < a.endByte) (hb : b.startByte < b.endByte) :
    a.endByte ≤ b.startByte ∨ b.endByte ≤ a.startByte := by
  rw [instancesOverlap, if_neg (by simpa using hpath), if_pos ⟨ha, hb⟩] at h
  simp only [Bool.and_eq_false_iff, decide_eq_false_iff_not, not_lt] at h
  omega

lemma keepDisjoint_eq (instances : List CloneInstance) :
    keepDisjoint instances = (split (clear instancesOverlap) instances).kept := by
  induction instances using reverseRecOn with
  | nil => rfl
  | append_singleton l i ih =>
    rw [split_append_singleton, Greedy.pass, ← ih, keepDisjoint, foldl_append]
    change (if (keepDisjoint l).any _ then _ else _) = _
    unfold clear
    cases (keepDisjoint l).any (instancesOverlap · i) <;> rfl

variable {S : Type} {g g' : CloneGroup S}

/-- A pruned group keeps its data except for the line count, at least two of its instances,
and no two that overlap. -/
lemma pruneGroup_spec (h : pruneGroup g = some g') :
    g'.tokens = g.tokens ∧ g'.format = g.format ∧ g'.similarity = g.similarity ∧
      2 ≤ g'.instances.length ∧ (∀ i ∈ g'.instances, i ∈ g.instances) ∧
      g'.instances.Pairwise (fun a b => instancesOverlap a b = false) := by
  have hsub : (keepDisjoint (sortBy pruneOrder g.instances)).Sublist _ :=
    keepDisjoint_eq _ ▸ kept_sublist _
  have hpair : (keepDisjoint (sortBy pruneOrder g.instances)).Pairwise
      fun a b => instancesOverlap a b = false := keepDisjoint_eq _ ▸ pairwise_kept _
  simp only [pruneGroup] at h
  split at h
  · simp at h
  · next hlen =>
    cases h
    have hsymm : ∀ {a b : CloneInstance}, instancesOverlap a b = false →
        instancesOverlap b a = false := fun hab => (instancesOverlap_comm _ _).trans hab
    refine ⟨rfl, rfl, rfl, ?_, ?_, ?_⟩
    · simpa using Nat.not_lt.mp hlen
    · intro i hi
      exact mem_sortBy.mp (hsub.subset (mem_sortBy.mp hi))
    · exact ((sortBy_perm reportOrder _).pairwise_iff hsymm).mpr hpair

/-! ## Filters -/

def sameSignature (a b : CloneGroup S) : Bool := decide (groupSignature a = groupSignature b)

lemma dedupGroups_eq (groups : List (CloneGroup S)) :
    dedupGroups groups = (split (clear sameSignature) groups).kept := by
  let step := fun (acc : List (List GroupRegion) × List (CloneGroup S)) (group : CloneGroup S) =>
    if groupSignature group ∈ acc.1 then acc
    else (groupSignature group :: acc.1, acc.2 ++ [group])
  have hrun : (groups.foldl step ([], [])).2 =
        (split (clear sameSignature) groups).kept ∧
      ∀ signature, signature ∈ (groups.foldl step ([], [])).1 ↔
        ∃ g ∈ (split (clear sameSignature) groups).kept,
          groupSignature g = signature := by
    induction groups using reverseRecOn with
    | nil => simp [split]
    | append_singleton l group ih =>
      obtain ⟨hkept, hseen⟩ := ih
      have hfits : clear sameSignature (split (clear sameSignature) l).kept
          group = true ↔ ¬groupSignature group ∈ (l.foldl step ([], [])).1 := by
        rw [clear_eq_true, hseen]
        simp [sameSignature]
      rw [split_append_singleton, Greedy.pass, foldl_append, foldl_cons, foldl_nil]
      simp only [step]
      by_cases h : groupSignature group ∈ (l.foldl step ([], [])).1
      · rw [if_pos h, if_neg (mt hfits.mp (not_not.mpr h))]
        exact ⟨hkept, hseen⟩
      · rw [if_neg h, if_pos (hfits.mpr h), hkept]
        refine ⟨rfl, fun signature => ?_⟩
        rw [mem_cons, hseen]
        simp only [mem_append, mem_singleton, or_and_right, exists_or, exists_eq_left]
        rw [or_comm, eq_comm]
  exact hrun.1

variable {groups : List (CloneGroup S)}

lemma mem_of_mem_dedupGroups (h : g ∈ dedupGroups groups) : g ∈ groups := by
  rw [dedupGroups_eq] at h
  exact (kept_sublist groups).subset h

lemma mem_of_mem_filterShort {minLines : Nat} (h : g ∈ filterShort groups minLines) :
    g ∈ groups := by
  rw [filterShort] at h
  split at h
  · exact h
  · exact (mem_filter.mp h).1

/-! ## Containment suppression -/

/-- The instances of a group lie one by one in distinct instances of a group with at least as many
tokens. -/
structure Contained (larger smaller : CloneGroup S) : Prop where
  tokens_le : smaller.tokens ≤ larger.tokens
  assigned : ∃ used : List CloneInstance, used.Subperm larger.instances ∧
    List.Forall₂ (fun big small => instanceContains big small = true) used smaller.instances

lemma path_eq_of_contains {big small : CloneInstance} (h : instanceContains big small = true) :
    big.path = small.path := by
  by_contra hne
  rw [instanceContains, if_pos hne] at h
  exact Bool.false_ne_true h

/-- What the greedy matching uses is an assignment. -/
lemma exists_used_of_matchContained {smalls unused : List CloneInstance}
    (h : matchContained unused smalls = true) : ∃ used : List CloneInstance, used.Subperm unused ∧
      List.Forall₂ (fun big small => instanceContains big small = true) used smalls := by
  induction smalls generalizing unused with
  | nil => exact ⟨[], nil_subperm, nil⟩
  | cons small rest ih =>
    rw [matchContained] at h
    split_ifs at h with hany
    obtain ⟨big, hbig, hcontains⟩ := any_eq_true.mp hany
    obtain ⟨first, l₁, l₂, -, hfirst, hunused, herase⟩ :=
      exists_of_eraseP (p := fun big => instanceContains big small) hbig hcontains
    obtain ⟨used, hsub, hall⟩ := ih h
    refine ⟨first :: used, ?_, cons hfirst hall⟩
    rw [hunused]
    rw [herase] at hsub
    exact ((subperm_cons first).mpr hsub).trans perm_middle.symm.subperm

/-- The greedy matching finds an assignment, if no instance lies in two of the larger ones. -/
lemma matchContained_of_used {smalls unused used : List CloneInstance}
    (hsub : used.Subperm unused)
    (hall : List.Forall₂ (fun big small => instanceContains big small = true) used smalls)
    (hone : unused.Pairwise fun a b => ∀ small ∈ smalls,
      ¬(instanceContains a small = true ∧ instanceContains b small = true)) :
    matchContained unused smalls = true := by
  induction hall generalizing unused with
  | nil => rfl
  | @cons big small used rest hcontains _ ih =>
    have hbig : big ∈ unused := hsub.subset mem_cons_self
    rw [matchContained, if_pos (any_eq_true.mpr ⟨big, hbig, hcontains⟩)]
    obtain ⟨first, l₁, l₂, hbefore, hfirst, hunused, herase⟩ :=
      exists_of_eraseP (p := fun big => instanceContains big small) hbig hcontains
    rw [herase]
    rw [hunused] at hsub hone hbig
    obtain ⟨hone₁, hone₂, hacross⟩ := pairwise_append.mp hone
    obtain ⟨hlast, hone₃⟩ := pairwise_cons.mp hone₂
    have hsame : big = first := by
      rcases mem_append.mp hbig with hmem | hmem
      · exact absurd hcontains (hbefore big hmem)
      · rcases mem_cons.mp hmem with heq | hmem
        · exact heq
        · exact absurd ⟨hfirst, hcontains⟩ (hlast big hmem small mem_cons_self)
    subst hsame
    refine ih ((subperm_cons big).mp (hsub.trans perm_middle.subperm)) ?_
    refine pairwise_append.mpr ⟨hone₁.imp ?_, hone₃.imp ?_, fun a ha b hb => ?_⟩
    · exact fun h small hsmall => h small (mem_cons_of_mem _ hsmall)
    · exact fun h small hsmall => h small (mem_cons_of_mem _ hsmall)
    · exact fun small hsmall =>
        hacross a ha b (mem_cons_of_mem _ hb) small (mem_cons_of_mem _ hsmall)

/-- Every instance of the group has bytes. -/
def Solid (g : CloneGroup S) : Prop := ∀ i ∈ g.instances, i.startByte < i.endByte

/-- The bytes of one instance are bytes of the other. -/
def Within (big small : CloneInstance) : Prop :=
  big.path = small.path ∧ big.startByte ≤ small.startByte ∧ small.endByte ≤ big.endByte

lemma within_of_contains {big small : CloneInstance} (h : instanceContains big small = true)
    (hbig : big.startByte < big.endByte) (hsmall : small.startByte < small.endByte) :
    Within big small := by
  have hpath := path_eq_of_contains h
  rw [instanceContains, if_neg (not_not.mpr hpath), if_pos ⟨hbig, hsmall⟩, Bool.and_eq_true,
    decide_eq_true_eq, decide_eq_true_eq] at h
  exact ⟨hpath, h.1, h.2⟩

/-- An instance with bytes lies in at most one of two instances that do not overlap. -/
lemma not_contained_twice {small : CloneInstance} (h : instancesOverlap a b = false)
    (ha : a.startByte < a.endByte) (hb : b.startByte < b.endByte)
    (hsmall : small.startByte < small.endByte) :
    ¬(instanceContains a small = true ∧ instanceContains b small = true) := by
  rintro ⟨hina, hinb⟩
  obtain ⟨hpath, hstart, hend⟩ := within_of_contains hina ha hsmall
  obtain ⟨hpath', hstart', hend'⟩ := within_of_contains hinb hb hsmall
  have hapart := bytes_apart h (hpath.trans hpath'.symm) ha hb
  omega

variable {larger smaller : CloneGroup S}

lemma contained_of_groupContains (h : groupContains larger smaller = true) :
    Contained larger smaller ∧ larger.instances.length = smaller.instances.length := by
  rw [groupContains] at h
  split_ifs at h with hcounts
  rw [not_or, not_lt, not_not] at hcounts
  exact ⟨⟨hcounts.1, exists_used_of_matchContained h⟩, hcounts.2⟩

/-- **The greedy matching is complete** for instances with bytes that do not overlap. -/
lemma groupContains_of_contained (h : Contained larger smaller)
    (hlength : larger.instances.length = smaller.instances.length) (hlarger : Solid larger)
    (hapart : larger.instances.Pairwise fun a b => instancesOverlap a b = false)
    (hsmaller : Solid smaller) : groupContains larger smaller = true := by
  obtain ⟨used, hsub, hall⟩ := h.assigned
  rw [groupContains, if_neg (not_or.mpr ⟨not_lt.mpr h.tokens_le, not_not.mpr hlength⟩)]
  refine matchContained_of_used hsub hall (hapart.imp_of_mem fun ha hb hab small hsmall => ?_)
  exact not_contained_twice hab (hlarger _ ha) (hlarger _ hb) (hsmaller small hsmall)

lemma groupCopySet_eq_of_contains (h : groupContains larger smaller = true) :
    groupCopySet larger = groupCopySet smaller := by
  obtain ⟨⟨-, used, hsub, hall⟩, hlength⟩ := contained_of_groupContains h
  have hperm : used.Perm larger.instances :=
    hsub.perm_of_length_le (by rw [hall.length_eq, hlength])
  have hpaths : used.map (·.path) = smaller.instances.map (·.path) := by
    have hmapped := forall₂_map_left_iff.mpr (forall₂_map_right_iff.mpr
      (hall.imp fun _ _ => path_eq_of_contains))
    rwa [forall₂_eq_eq_eq] at hmapped
  unfold groupCopySet
  rw [← hpaths]
  refine sortBy_eq_of_perm (fun a _ b _ hab => ?_) (hperm.symm.map _)
  exact compare_eq_iff_eq.mp hab

/-- The candidate index lists the kept groups of every copy set. -/
def Indexed (acc : Suppression S) : Prop :=
  ∀ copySet index, index ∈ (get? copySet acc.byCopySet).getD [] ↔
    ∃ g, acc.kept[index]? = some g ∧ groupCopySet g = copySet

lemma suppressStep_eq {acc : Suppression S} (h : Indexed acc) (group : CloneGroup S) :
    (suppressStep acc group).kept =
        (if acc.kept.any (groupContains · group) then acc.kept else acc.kept ++ [group]) ∧
      Indexed (suppressStep acc group) := by
  have hstep : suppressStep acc group =
      if acc.kept.any (groupContains · group) then acc
      else ⟨acc.kept ++ [group], KeyedList.alter (groupCopySet group)
        (fun o => o.getD [] ++ [acc.kept.length]) acc.byCopySet⟩ := by
    refine if_congr ?_ rfl rfl
    rw [any_eq_true, any_eq_true]
    constructor
    · rintro ⟨index, hindex, hcontains⟩
      obtain ⟨larger, hlarger, -⟩ := (h _ index).mp hindex
      rw [hlarger] at hcontains
      exact ⟨larger, mem_of_getElem? hlarger, hcontains⟩
    · rintro ⟨larger, hlarger, hcontains⟩
      obtain ⟨index, hindex⟩ := mem_iff_getElem?.mp hlarger
      refine ⟨index, (h _ index).mpr ⟨larger, hindex, groupCopySet_eq_of_contains hcontains⟩, ?_⟩
      rw [hindex]
      exact hcontains
  by_cases hany : acc.kept.any (groupContains · group) = true
  · rw [hstep, if_pos hany, if_pos hany]
    exact ⟨rfl, h⟩
  · rw [hstep, if_neg hany, if_neg hany]
    refine ⟨rfl, fun copySet index => ?_⟩
    have hget : ∀ g, (acc.kept ++ [group])[index]? = some g ↔
        acc.kept[index]? = some g ∨ index = acc.kept.length ∧ group = g := by
      intro g
      rw [getElem?_append]
      split_ifs with hlt
      · exact ⟨.inl, fun hg => hg.resolve_right fun heq => absurd heq.1 (by omega)⟩
      · rw [getElem?_eq_none (not_lt.mp hlt), getElem?_singleton]
        simp
        omega
    simp only [hget, or_and_right, exists_or]
    rw [← h copySet index, get?_alter]
    split_ifs with hcopy
    · subst hcopy
      simp
    · simp [Ne.symm hcopy]

lemma suppressContained_eq (groups : List (CloneGroup S)) :
    suppressContained groups = (split (clear groupContains) groups).kept := by
  have hrun : (groups.foldl suppressStep ⟨[], []⟩).kept =
      (split (clear groupContains) groups).kept ∧
      Indexed (groups.foldl suppressStep ⟨[], []⟩) := by
    induction groups using reverseRecOn with
    | nil => exact ⟨rfl, by simp [Indexed]⟩
    | append_singleton l group ih =>
      obtain ⟨hkept, hindexed⟩ := ih
      obtain ⟨hstep, hnext⟩ := suppressStep_eq hindexed group
      rw [foldl_append, foldl_cons, foldl_nil, hstep, hkept,
        split_append_singleton, Greedy.pass, clear]
      refine ⟨?_, hnext⟩
      cases (split (clear groupContains) l).kept.any (groupContains · group) <;> rfl
  exact hrun.1

lemma mem_of_mem_suppressContained (h : g ∈ suppressContained groups) : g ∈ groups := by
  rw [suppressContained_eq] at h
  exact (kept_sublist groups).subset h

/-- A suppressed group leaves behind a kept group over the same paths. -/
lemma exists_suppressContained (h : g ∈ groups) :
    ∃ g' ∈ suppressContained groups, groupCopySet g' = groupCopySet g := by
  rw [suppressContained_eq]
  rcases mem_kept_or_excluded h with hkept | ⟨larger, hlarger, hcontains⟩
  · exact ⟨g, hkept, rfl⟩
  · exact ⟨larger, hlarger, groupCopySet_eq_of_contains hcontains⟩

lemma exists_instance_of_copySet (h : groupCopySet g' = groupCopySet g) {i : CloneInstance}
    (hi : i ∈ g.instances) : ∃ j ∈ g'.instances, j.path = i.path := by
  have hmem : i.path ∈ groupCopySet g' := by
    rw [h]
    exact mem_sortBy.mpr (mem_map_of_mem hi)
  exact mem_map.mp (mem_sortBy.mp hmem)

lemma exists_of_mem_finalize {minLines : Nat} (h : g ∈ finalize groups minLines) :
    ∃ original ∈ groups, pruneGroup original = some g := by
  exact mem_filterMap.mp
    (mem_of_mem_dedupGroups (mem_of_mem_filterShort (mem_of_mem_suppressContained h)))

/-! ## Finalizing again -/

instance : Std.TransCmp reportOrder :=
  inferInstanceAs (Std.TransCmp (compareLex (compareOn CloneInstance.path)
    (compareLex (compareOn CloneInstance.startByte) (compareOn CloneInstance.startLine))))

instance : Std.Symm fun a b : CloneInstance => instancesOverlap a b = false :=
  ⟨fun _ _ h => (instancesOverlap_comm _ _).trans h⟩

lemma pruneGroup_again (hsolid : Solid g) (h : pruneGroup g = some g') :
    pruneGroup g' = some g' := by
  obtain ⟨-, -, -, hlength, hmem, hapart⟩ := pruneGroup_spec h
  have hsame : ∀ a ∈ g'.instances, ∀ b ∈ g'.instances, reportOrder a b = .eq → a = b := by
    intro a ha b hb hab
    by_contra hne
    obtain ⟨hpath, hrest⟩ := Ordering.then_eq_eq.mp hab
    obtain ⟨hstart, -⟩ := Ordering.then_eq_eq.mp hrest
    have hbytes := bytes_apart (hapart.forall ha hb hne) (compare_eq_iff_eq.mp hpath)
      (hsolid a (hmem a ha)) (hsolid b (hmem b hb))
    have hwidth := hsolid a (hmem a ha)
    have hwidth' := hsolid b (hmem b hb)
    rw [compare_eq_iff_eq] at hstart
    omega
  have hkept : keepDisjoint (sortBy pruneOrder g'.instances) =
      sortBy pruneOrder g'.instances := by
    rw [keepDisjoint_eq]
    exact kept_eq_self (((sortBy_perm _ _).pairwise_iff
      (fun h => (instancesOverlap_comm _ _).trans h)).mpr hapart)
  have hsorted : sortBy reportOrder (sortBy pruneOrder g'.instances) =
      g'.instances ∧ g'.lines = maxSpan g'.instances := by
    unfold pruneGroup at h
    dsimp only at h
    split_ifs at h
    cases h
    refine ⟨?_, rfl⟩
    refine sortBy_eq_of_perm (fun a ha b hb => ?_)
      ((sortBy_perm _ _).trans (sortBy_perm _ _))
    exact hsame a (mem_sortBy.mpr ha) b (mem_sortBy.mpr hb)
  unfold pruneGroup
  dsimp only
  rw [hkept, if_neg (by rw [length_sortBy]; omega), hsorted.1, ← hsorted.2]

/-- What is finalized is a part of the pruned groups in which no signature is repeated, no group
is short and none contains a later one. -/
lemma finalize_again (hsolid : ∀ g ∈ groups, Solid g) (minLines : Nat) :
    finalize (finalize groups minLines) minLines = finalize groups minLines := by
  have hsub : (finalize groups minLines).Sublist
      (filterShort (dedupGroups (pruneOverlaps groups)) minLines) := by
    rw [finalize, suppressContained_eq]
    exact kept_sublist _
  have hpruned : pruneOverlaps (finalize groups minLines) = finalize groups minLines := by
    conv_rhs => rw [← filterMap_some (l := finalize groups minLines)]
    refine filterMap_congr fun g hg => ?_
    obtain ⟨original, horiginal, hprune⟩ := exists_of_mem_finalize hg
    exact pruneGroup_again (hsolid original horiginal) hprune
  have hdedup : dedupGroups (finalize groups minLines) = finalize groups minLines := by
    rw [dedupGroups_eq]
    refine kept_eq_self (Pairwise.sublist (hsub.trans ?_)
      (pairwise_kept (pruneOverlaps groups)))
    rw [← dedupGroups_eq, filterShort]
    split_ifs
    · exact Sublist.refl _
    · exact filter_sublist
  have hshort : filterShort (finalize groups minLines) minLines = finalize groups minLines := by
    rw [filterShort]
    split_ifs with hall
    · rfl
    · refine filter_eq_self.mpr fun g hg => ?_
      have hmem := hsub.subset hg
      rw [filterShort, if_neg hall] at hmem
      exact (mem_filter.mp hmem).2
  have hcontained : suppressContained (finalize groups minLines) = finalize groups minLines := by
    rw [suppressContained_eq, finalize, suppressContained_eq]
    exact kept_eq_self (pairwise_kept _)
  rw [finalize, hpruned, hdedup, hshort, hcontained]

/-! ## The account of the suppression -/

structure SuppressionAccount (groups : List (CloneGroup S)) : Prop where
  kept : (suppressContained groups).Sublist groups
  front : ∀ before after, groups = before ++ after →
    suppressContained before <+: suppressContained groups
  turn : ∀ before g after, groups = before ++ g :: after →
    suppressContained (before ++ [g]) = suppressContained before ++ [g] ∨
      suppressContained (before ++ [g]) = suppressContained before ∧
        ∃ larger ∈ suppressContained before, Contained larger g ∧
          larger.instances.length = g.instances.length
  apart : (suppressContained groups).Pairwise fun larger g =>
    larger.instances.length = g.instances.length → Solid larger → Solid g →
      larger.instances.Pairwise (fun a b => instancesOverlap a b = false) → ¬Contained larger g
  again : suppressContained (suppressContained groups) = suppressContained groups

lemma suppressionAccount (groups : List (CloneGroup S)) : SuppressionAccount groups where
  kept := by
    rw [suppressContained_eq]
    exact kept_sublist groups
  front := by
    rintro before after rfl
    rw [suppressContained_eq, suppressContained_eq]
    exact (split_append_after before after).1
  turn := by
    rintro before g after rfl
    rw [suppressContained_eq, suppressContained_eq, split_append_singleton, Greedy.pass]
    split_ifs with hfits
    · exact .inl rfl
    · rw [clear, Bool.not_eq_true', Bool.not_eq_false] at hfits
      obtain ⟨larger, hlarger, hcontains⟩ := any_eq_true.mp hfits
      exact .inr ⟨rfl, larger, hlarger, contained_of_groupContains hcontains⟩
  apart := by
    rw [suppressContained_eq]
    refine (pairwise_kept groups).imp fun {larger g} hnot hlength hlarger hg hapart h => ?_
    rw [groupContains_of_contained h hlength hlarger hapart hg] at hnot
    exact Bool.false_ne_true hnot.symm
  again := by
    rw [suppressContained_eq, suppressContained_eq]
    exact kept_eq_self (pairwise_kept groups)

/-- **Containment suppression** drops a group for a kept one of as many instances which contains
it, and misses none in what is finalized; what is finalized stays when it is finalized again. -/
theorem containment_suppression (groups : List (CloneGroup S)) (minLines : Nat) :
    SuppressionAccount groups ∧ ((∀ g ∈ groups, Solid g) →
        (finalize groups minLines).Pairwise (fun larger g =>
          larger.instances.length = g.instances.length → ¬Contained larger g) ∧
        finalize (finalize groups minLines) minLines = finalize groups minLines) := by
  refine ⟨suppressionAccount groups, fun hsolid => ⟨?_, finalize_again hsolid minLines⟩⟩
  have hpruned : ∀ g ∈ finalize groups minLines,
      Solid g ∧ g.instances.Pairwise fun a b => instancesOverlap a b = false := by
    intro g hg
    obtain ⟨original, horiginal, hprune⟩ := exists_of_mem_finalize hg
    obtain ⟨-, -, -, -, hmem, hapart⟩ := pruneGroup_spec hprune
    exact ⟨fun i hi => hsolid original horiginal i (hmem i hi), hapart⟩
  refine (suppressionAccount _).apart.imp_of_mem fun {larger g} hlarger hg h hlength => ?_
  exact h hlength (hpruned larger hlarger).1 (hpruned g hg).1 (hpruned larger hlarger).2

/-! ## Nothing is lost -/

def region (i : CloneInstance) : GroupRegion :=
  (i.path, i.startByte, i.endByte, i.startLine, i.endLine)

/-- The first group of the same places stands for a repeated one. -/
lemma exists_dedupGroups (h : g ∈ groups) : ∃ first ∈ dedupGroups groups,
    groupSignature first = groupSignature g ∧
      (first.instances.map region).Perm (g.instances.map region) := by
  rw [dedupGroups_eq]
  rcases mem_kept_or_excluded h with hkept | ⟨first, hfirst, hsame⟩
  · exact ⟨g, hkept, rfl, .refl _⟩
  · have hsignature : groupSignature first = groupSignature g := of_decide_eq_true hsame
    exact ⟨first, hfirst, hsignature, (sortBy_perm regionOrder _).symm.trans
      ((Perm.of_eq hsignature).trans (sortBy_perm regionOrder _))⟩

def placedAt (name : String) (line startByte endByte : Nat) : CloneInstance :=
  ⟨⟨[name]⟩, line, line, 1, 2, startByte, endByte, 1, 1⟩

def groupAt (tokens : Nat) (instances : List CloneInstance) : CloneGroup Unit :=
  ⟨1, tokens, (), "Rust", "", instances⟩

/-- A group inside of another one. -/
def nestedGroups : List (CloneGroup Unit) :=
  [groupAt 9 [placedAt "a.rs" 1 0 9, placedAt "b.rs" 1 0 9],
    groupAt 3 [placedAt "a.rs" 1 2 5, placedAt "b.rs" 1 2 5]]

/-- The inner group is dropped. -/
theorem containment_suppression_nestedGroups : (finalize nestedGroups 1).length = 1 ∧
    finalize (finalize nestedGroups 1) 1 = finalize nestedGroups 1 :=
  ⟨by decide +kernel, ((containment_suppression nestedGroups 1).2
    (by unfold Solid; decide +kernel)).2⟩

/-- A group inside of a group with one more copy. -/
def fewerCopies : List (CloneGroup Unit) :=
  [groupAt 9 [placedAt "a.rs" 1 0 9, placedAt "b.rs" 1 0 9, placedAt "c.rs" 1 0 9],
    groupAt 3 [placedAt "a.rs" 1 2 5, placedAt "b.rs" 1 2 5]]

/-- A group inside of a group whose instances overlap: the first instance takes the place that only
the second one can be put to. -/
def overlappingCopies : List (CloneGroup Unit) :=
  [groupAt 9 [placedAt "a.rs" 1 0 9, placedAt "a.rs" 1 4 13],
    groupAt 3 [placedAt "a.rs" 1 5 8, placedAt "a.rs" 1 1 4]]

/-- The same without bytes in one of the larger instances, which is compared by its lines. -/
def emptyCopies : List (CloneGroup Unit) :=
  [groupAt 9 [placedAt "a.rs" 1 0 9, placedAt "a.rs" 2 9 9],
    groupAt 3 [placedAt "a.rs" 2 5 8, placedAt "a.rs" 1 1 4]]

lemma contained_pair {big : List CloneInstance} {tokens tokens' : Nat} {x y : CloneInstance}
    (htokens : tokens' ≤ tokens) (hsub : [a, b].Subperm big) (hx : instanceContains a x = true)
    (hy : instanceContains b y = true) : Contained (groupAt tokens big) (groupAt tokens' [x, y]) :=
  ⟨htokens, [a, b], hsub, cons hx (cons hy nil)⟩

/-- A kept group may lie in another kept one, if it has fewer instances, if the instances of the
larger one overlap, or if one of them is empty. -/
theorem not_suppressContained_apart :
    ¬(suppressContained fewerCopies).Pairwise (fun larger g => ¬Contained larger g) ∧
      ¬(suppressContained overlappingCopies).Pairwise (fun larger g => ¬Contained larger g) ∧
      ¬(suppressContained emptyCopies).Pairwise (fun larger g => ¬Contained larger g) := by
  have hkept : ∀ groups ∈ [fewerCopies, overlappingCopies, emptyCopies],
      suppressContained groups = groups := by
    decide +kernel
  refine ⟨?_, ?_, ?_⟩
  · rw [hkept fewerCopies (by simp)]
    intro hpair
    have hsub := sublist_append_left [placedAt "a.rs" 1 0 9, placedAt "b.rs" 1 0 9]
      [placedAt "c.rs" 1 0 9]
    exact pairwise_pair.mp hpair (contained_pair (by decide) hsub.subperm (by decide +kernel)
      (by decide +kernel))
  · rw [hkept overlappingCopies (by simp)]
    intro hpair
    have hswap := Perm.swap (placedAt "a.rs" 1 0 9) (placedAt "a.rs" 1 4 13) []
    exact pairwise_pair.mp hpair (contained_pair (by decide) hswap.subperm (by decide +kernel)
      (by decide +kernel))
  · rw [hkept emptyCopies (by simp)]
    intro hpair
    have hswap := Perm.swap (placedAt "a.rs" 1 0 9) (placedAt "a.rs" 2 9 9) []
    exact pairwise_pair.mp hpair (contained_pair (by decide) hswap.subperm (by decide +kernel)
      (by decide +kernel))

end Reposcout.Dup
