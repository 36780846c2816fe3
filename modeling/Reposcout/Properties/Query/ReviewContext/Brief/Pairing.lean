import Reposcout.Query.ReviewContext.Brief.Moves

/-!
# The pairing of moved lines

The lines of one key are paired across hunks, the pairs whose indentation shifts differently are
dropped, and the declarations that moved as a whole keep their pairs and link their free lines.
Each of the three passes keeps a matching between removed and added lines of equal keys.
-/

namespace Reposcout.Query.ReviewContext.Brief

open Matching List Option

/-! ## Entries -/

/-- An entry is the entry of the changed line it names. -/
def IsEntry (input : MatchInput) (entry : Entry) : Prop :=
  ∃ candidate, input.hunks[entry.hunk]? = some candidate ∧ candidate.skip = false ∧
    lineEntry input entry.hunk candidate entry.line = some entry

variable {input : MatchInput} {entry : Entry}

lemma lineEntry_eq_some {index : ℕ} {candidate : Candidate}
    {lineIndex : ℕ}
    (h : lineEntry input index candidate lineIndex = some entry) :
    entry.hunk = index ∧ entry.line = lineIndex ∧
      ∃ line, candidate.hunk.lines[lineIndex]? = some line ∧ line.tag ≠ ' ' ∧
        entryOf input index candidate lineIndex line = entry := by
  unfold lineEntry at h
  split at h
  · next line hline =>
    split at h
    · cases h
    · next htag =>
      have hentry := some.inj h
      exact ⟨by rw [← hentry]; rfl, by rw [← hentry]; rfl, line, hline, htag, hentry⟩
  · cases h

lemma mem_hunkEntries {index : ℕ} {candidate : Candidate} :
    entry ∈ hunkEntries input index candidate ↔
      (∃ lineIndex, lineEntry input index candidate lineIndex = some entry) ∧
        entry.line ∉ unchangedLines input index candidate := by
  simp only [hunkEntries, mem_filter, mem_filterMap, mem_range, Bool.not_eq_true',
    contains_eq_mem, decide_eq_false_iff_not]
  constructor
  · rintro ⟨⟨lineIndex, _, h⟩, hline⟩
    exact ⟨⟨lineIndex, h⟩, hline⟩
  · rintro ⟨⟨lineIndex, h⟩, hline⟩
    obtain ⟨_, _, line, hline', _⟩ := lineEntry_eq_some h
    exact ⟨⟨lineIndex, (List.getElem?_eq_some_iff.mp hline').1, h⟩, hline⟩

lemma mem_collect :
    entry ∈ collect input ↔ ∃ candidate, input.hunks[entry.hunk]? = some candidate ∧
      candidate.skip = false ∧ lineEntry input entry.hunk candidate entry.line = some entry ∧
      entry.line ∉ unchangedLines input entry.hunk candidate := by
  simp only [collect, mem_flatMap, Prod.exists, mem_zipIdx_iff_getElem?]
  constructor
  · rintro ⟨candidate, index, hcandidate, hentry⟩
    split at hentry
    · simp at hentry
    · next hskip =>
      obtain ⟨⟨lineIndex, hline⟩, hchanged⟩ := mem_hunkEntries.mp hentry
      obtain ⟨rfl, rfl, _⟩ := lineEntry_eq_some hline
      exact ⟨candidate, hcandidate, by simpa using hskip, hline, hchanged⟩
  · rintro ⟨candidate, hcandidate, hskip, hline, hchanged⟩
    refine ⟨candidate, entry.hunk, hcandidate, ?_⟩
    rw [if_neg (by simp [hskip])]
    exact mem_hunkEntries.mpr ⟨⟨entry.line, hline⟩, hchanged⟩

lemma isEntry_of_mem_collect (h : entry ∈ collect input) :
    IsEntry input entry := by
  obtain ⟨candidate, hcandidate, hskip, hline, _⟩ := mem_collect.mp h
  exact ⟨candidate, hcandidate, hskip, hline⟩

lemma nodup_hunkEntries (input : MatchInput) (index : ℕ) (candidate : Candidate) :
    (hunkEntries input index candidate).Nodup := by
  refine Nodup.filter _ (Nodup.filterMap ?_ nodup_range)
  intro i j entry hi hj
  obtain ⟨_, hline, _⟩ := lineEntry_eq_some (mem_def.mp hi)
  obtain ⟨_, hline', _⟩ := lineEntry_eq_some (mem_def.mp hj)
  rw [← hline, ← hline']

/-- A line has one entry. -/
lemma nodup_collect (input : MatchInput) : (collect input).Nodup := by
  unfold collect
  rw [nodup_flatMap]
  constructor
  · rintro ⟨candidate, index⟩ _
    dsimp only
    split
    · exact nodup_nil
    · exact nodup_hunkEntries input index candidate
  · -- The entries of different hunks name different hunks.
    have hindex : (input.hunks.zipIdx.map Prod.snd).Nodup := by
      rw [zipIdx_map_snd]
      exact nodup_range'
    refine Pairwise.imp ?_ (pairwise_map.mp hindex)
    rintro ⟨candidate, index⟩ ⟨candidate', index'⟩ hne entry hentry hentry'
    dsimp only at hentry hentry'
    split at hentry
    · simp at hentry
    · split at hentry'
      · simp at hentry'
      · obtain ⟨⟨_, hline⟩, _⟩ := mem_hunkEntries.mp hentry
        obtain ⟨⟨_, hline'⟩, _⟩ := mem_hunkEntries.mp hentry'
        exact hne ((lineEntry_eq_some hline).1.symm.trans (lineEntry_eq_some hline').1)

variable {i : ℕ} {entries : List Entry}

lemma entryAt_of_getElem? (h : entries[i]? = some entry) :
    entryAt entries i = entry := by
  simp [entryAt, h]

lemma getElem?_entryAt (h : i < entries.length) :
    entries[i]? = some (entryAt entries i) := by
  simp [entryAt, h]

/-! ## Pairs of one key -/

/-- Two indices of entries of one key on different sides. -/
def SameKey (entries : List Entry) (i j : ℕ) : Prop :=
  i < entries.length ∧ j < entries.length ∧ (entryAt entries i).key = (entryAt entries j).key ∧
    (entryAt entries i).removed ≠ (entryAt entries j).removed

lemma SameKey.symm {j : ℕ} (h : SameKey entries i j) :
    SameKey entries j i :=
  ⟨h.2.1, h.1, h.2.2.1.symm, h.2.2.2.symm⟩

lemma SameKey.ne {j : ℕ} (h : SameKey entries i j) : i ≠ j := by
  rintro rfl
  exact h.2.2.2 rfl

structure KeyMatching (entries : List Entry) (partner : Partner ℕ) : Prop where
  matching : IsMatching partner
  within : Within (SameKey entries) partner

lemma keyMatching_empty (entries : List Entry) : KeyMatching entries empty :=
  ⟨isMatching_empty, within_empty _⟩

/-- A turn of `pair` does nothing or links the removed entry with an available one. -/
lemma pairTurn_cases (entries : List Entry) (state : List ℕ × Partner ℕ) (left : ℕ) :
    pairTurn entries state left = state ∨
    ∃ right ∈ state.1,
      pairTurn entries state left = (state.1.erase right, link state.2 left right) := by
  unfold pairTurn
  dsimp only
  split
  · exact .inl rfl
  · split
    · exact .inl rfl
    · next right hright =>
      exact .inr ⟨right, mem_of_find?_eq_some hright, rfl⟩

/-- **The pairing of one key** keeps a matching of entries of one key, and touches only the lines
of that key. -/
lemma keyMatching_pair {removed : List ℕ} (hremoved : removed.Nodup)
    {added : List ℕ} (hadded : added.Nodup) {partner : Partner ℕ}
    (hpartner : KeyMatching entries partner)
    (hfree : ∀ i, i ∈ removed ∨ i ∈ added → partnerOf partner i = none)
    (hsame : ∀ i ∈ removed, ∀ j ∈ added, SameKey entries i j) :
    KeyMatching entries (pair entries removed added partner) ∧ ∀ i, i ∉ removed → i ∉ added →
        partnerOf (pair entries removed added partner) i = partnerOf partner i := by
  unfold pair
  induction removed generalizing added partner with
  | nil => exact ⟨hpartner, fun i _ _ => rfl⟩
  | cons left rest ih =>
    rw [nodup_cons] at hremoved
    rw [foldl_cons]
    rcases pairTurn_cases entries (added, partner) left with hstep | ⟨right, hright, hstep⟩
    · rw [hstep]
      obtain ⟨hkey, hother⟩ := ih hremoved.2 hadded hpartner
        (fun i hi => hfree i (hi.imp (mem_cons_of_mem left) id))
        fun i hi => hsame i (mem_cons_of_mem left hi)
      exact ⟨hkey, fun i hi hi' => hother i (fun h => hi (mem_cons_of_mem left h)) hi'⟩
    · rw [hstep]
      have hpair : SameKey entries left right := hsame left mem_cons_self right hright
      have hlinked : KeyMatching entries (link partner left right) :=
        ⟨isMatching_link hpartner.matching hpair.ne
            (hfree left (.inl mem_cons_self)) (hfree right (.inr hright)),
          within_link hpartner.within hpair.ne hpair hpair.symm⟩
      -- What is left is neither of the two linked lines, so it is still free.
      have hkeep : ∀ i, i ≠ left → i ≠ right →
          partnerOf (link partner left right) i = partnerOf partner i := by
        intro i hl hr
        refine Option.ext fun d => ?_
        rw [link_eq_some hpair.ne]
        simp [hl, hr]
      have hfree' : ∀ i, i ∈ rest ∨ i ∈ added.erase right →
          partnerOf (link partner left right) i = none := by
        rintro i (hi | hi)
        · have hne : i ≠ right := (hsame i (mem_cons_of_mem left hi) right hright).ne
          rw [hkeep i (fun e => hremoved.1 (e ▸ hi)) hne]
          exact hfree i (.inl (mem_cons_of_mem left hi))
        · obtain ⟨hne, hmem⟩ := (hadded.mem_erase_iff).mp hi
          have hne' : i ≠ left := (hsame left mem_cons_self i hmem).ne.symm
          rw [hkeep i hne' hne]
          exact hfree i (.inr hmem)
      obtain ⟨hkey, hother⟩ := ih hremoved.2 (hadded.erase right) hlinked hfree'
        fun i hi j hj => hsame i (mem_cons_of_mem left hi) j (mem_of_mem_erase hj)
      refine ⟨hkey, fun i hi hi' => ?_⟩
      rw [hother i (fun h => hi (mem_cons_of_mem left h))
        (fun h => hi' (mem_of_mem_erase h))]
      exact hkeep i (fun e => hi (e ▸ mem_cons_self)) fun e => hi' (e ▸ hright)

lemma mem_eligibleGroup {key : String} {removed : Bool}
    (h : i ∈ eligibleGroup entries key removed) :
    i < entries.length ∧ (entryAt entries i).key = key ∧ (entryAt entries i).removed = removed := by
  simp only [eligibleGroup, indices, mem_filter, mem_range, Bool.and_eq_true,
    decide_eq_true_eq] at h
  exact ⟨h.1, h.2.1.2, h.2.2⟩

lemma nodup_eligibleGroup (entries : List Entry) (key : String) (removed : Bool) :
    (eligibleGroup entries key removed).Nodup :=
  nodup_range.filter _

lemma keyMatching_pairKeys (entries : List Entry) {keys : List String} (hkeys : keys.Nodup) :
    let result := keys.foldl (fun partner key =>
      pair entries (eligibleGroup entries key true) (eligibleGroup entries key false) partner) empty
    KeyMatching entries result ∧
      ∀ i, (entryAt entries i).key ∉ keys → partnerOf result i = none := by
  induction keys using List.reverseRecOn with
  | nil => exact ⟨keyMatching_empty entries, fun i _ => rfl⟩
  | append_singleton keys key ih =>
    rw [nodup_append] at hkeys
    obtain ⟨hkeys, _, hnew⟩ := hkeys
    obtain ⟨hmatching, hfree⟩ := ih hkeys
    have hkey : key ∉ keys := fun h => hnew key h key mem_cons_self rfl
    simp only [foldl_append, foldl_cons, foldl_nil]
    have hgroup : ∀ i, i ∈ eligibleGroup entries key true ∨ i ∈ eligibleGroup entries key false →
        (entryAt entries i).key = key := fun i hi =>
      hi.elim (fun h => (mem_eligibleGroup h).2.1) fun h => (mem_eligibleGroup h).2.1
    obtain ⟨hnext, hother⟩ := keyMatching_pair (nodup_eligibleGroup entries key true)
      (nodup_eligibleGroup entries key false) hmatching
      (fun i hi => hfree i (by rw [hgroup i hi]; exact hkey))
      fun i hi j hj => by
        obtain ⟨hi, hik, hir⟩ := mem_eligibleGroup hi
        obtain ⟨hj, hjk, hjr⟩ := mem_eligibleGroup hj
        exact ⟨hi, hj, hik.trans hjk.symm, by simp [hir, hjr]⟩
    refine ⟨hnext, fun i hi => ?_⟩
    have hne : (entryAt entries i).key ≠ key := fun e => hi (by simp [e])
    rw [hother i (fun h => hne (hgroup i (.inl h))) fun h => hne (hgroup i (.inr h))]
    exact hfree i fun h => hi (mem_append_left _ h)

lemma keyMatching_pairAll (entries : List Entry) : KeyMatching entries (pairAll entries) := by
  have hkeys : (eligibleKeys entries).Nodup :=
    ((KeyedList.sortBy_perm compare _).nodup_iff).mpr (nodup_dedup _)
  exact (keyMatching_pairKeys entries hkeys).1

lemma keyMatching_consistentShifts {partner : Partner ℕ}
    (h : KeyMatching entries partner) : KeyMatching entries (consistentShifts entries partner) := by
  refine List.foldlRecOn (motive := KeyMatching entries) _ _ h fun current hcurrent i _ => ?_
  split
  · next other hother =>
    split
    · exact hcurrent
    · have hpartner : partnerOf current i = some other := by
        unfold partnerOfRemoved at hother
        split at hother
        · exact hother
        · cases hother
      exact ⟨isMatching_unlink hcurrent.matching hpartner, within_unlink hcurrent.within i other⟩
  · exact hcurrent

/-- **Before the declarations**, the partners are a matching of removed with added lines of equal
keys. -/
lemma keyMatching_pairedByKey (input : MatchInput) :
    KeyMatching (collect input) (pairedByKey input) :=
  keyMatching_consistentShifts (keyMatching_pairAll (collect input))

end Reposcout.Query.ReviewContext.Brief
