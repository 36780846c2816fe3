import Reposcout.Metrics.Markers

/-!
# The order of the markers

The occurrences of a marker do not depend on the markers before it, as long as none is listed
twice.  The second listing of a marker reports its occurrences again, with higher numbers.
-/

namespace Reposcout.Metrics

open List KeyedList

open Findings (MarkerOccurrence)

variable (hash : String → String) (content : List Char) (ranges : List (ℕ × ℕ))

/-! ## One marker -/

/-- What is recorded for a marker depends on its own numbers only. -/
lemma foldl_recordPosition_congr (marker : String) (positions : List ℕ)
    {ordinals ordinals' : Ordinals} (h : ∀ contextHash, get? (marker, contextHash) ordinals' =
        get? (marker, contextHash) ordinals) (first first' : List MarkerOccurrence) :
    ∃ found, (positions.foldl (recordPosition hash content marker) (first, ordinals)).1 =
        first ++ found ∧
      (positions.foldl (recordPosition hash content marker) (first', ordinals')).1 =
        first' ++ found := by
  induction positions generalizing first first' ordinals ordinals' with
  | nil => exact ⟨[], by simp⟩
  | cons position rest ih =>
    have hnext : ∀ contextHash, get? (marker, contextHash)
          (recordPosition hash content marker (first', ordinals') position).2 =
        get? (marker, contextHash)
          (recordPosition hash content marker (first, ordinals) position).2 := by
      intro contextHash
      simp only [recordPosition, get?_alter, h]
    obtain ⟨found, hfirst, hsecond⟩ := ih hnext
      (recordPosition hash content marker (first, ordinals) position).1
      (recordPosition hash content marker (first', ordinals') position).1
    refine ⟨_, hfirst.trans (append_assoc ..), hsecond.trans ?_⟩
    simp [recordPosition, h]

variable {marker : String}

/-- The numbers of another marker stay. -/
lemma get?_foldl_recordPosition {other : String} (hne : other ≠ marker) (positions : List ℕ)
    (state : List MarkerOccurrence × Ordinals) (contextHash : String) :
    get? (other, contextHash)
        (positions.foldl (recordPosition hash content marker) state).2 =
      get? (other, contextHash) state.2 := by
  induction positions generalizing state with
  | nil => rfl
  | cons position rest ih =>
    rw [foldl_cons, ih, recordPosition]
    exact get?_alter_of_ne (fun heq => hne (Prod.mk.inj heq).1) _ _

def ownOccurrences (marker : String) : List MarkerOccurrence :=
  (scanMarker hash content ranges {} marker).occurrences

variable {occurrence : MarkerOccurrence}

lemma marker_of_mem_foldl (positions : List ℕ) (state : List MarkerOccurrence × Ordinals)
    (h : occurrence ∈ (positions.foldl (recordPosition hash content marker) state).1) :
    occurrence ∈ state.1 ∨ occurrence.marker = marker := by
  induction positions generalizing state with
  | nil => exact .inl h
  | cons position rest ih =>
    rcases ih _ h with hmem | hmarker
    · rcases mem_append.mp hmem with hold | hnew
      · exact .inl hold
      · rw [mem_singleton.mp hnew]
        exact .inr rfl
    · exact .inr hmarker

lemma marker_of_mem_ownOccurrences (h : occurrence ∈ ownOccurrences hash content ranges marker) :
    occurrence.marker = marker := by
  unfold ownOccurrences scanMarker at h
  split_ifs at h with hempty
  · cases h
  · exact (marker_of_mem_foldl hash content _ _ h).resolve_left not_mem_nil

def ownCount (marker : String) : Option (String × ℕ) :=
  if marker = "" ∨ markerPositions content ranges marker = [] then none
  else some (marker, (markerPositions content ranges marker).length)

/-! ## All markers -/

def scanState (markers : List String) : ScanState :=
  markers.foldl (scanMarker hash content ranges) {}

lemma scanState_append_singleton (markers : List String) (marker : String) :
    scanState hash content ranges (markers ++ [marker]) =
      scanMarker hash content ranges (scanState hash content ranges markers) marker :=
  foldl_append

variable {markers : List String}

/-- A marker that was not looked for yet has no numbers. -/
lemma get?_ordinals (h : marker ∉ markers) (contextHash : String) :
    get? (marker, contextHash) (scanState hash content ranges markers).ordinals =
      none := by
  induction markers using List.reverseRecOn with
  | nil => rfl
  | append_singleton markers last ih =>
    rw [mem_append, mem_singleton, not_or] at h
    rw [scanState_append_singleton, scanMarker]
    split_ifs
    · exact ih h.1
    · rw [get?_foldl_recordPosition hash content h.2]
      exact ih h.1

/-- **Without repetitions every marker is looked for on its own.** -/
lemma occurrences_scanState (h : markers.Nodup) :
    (scanState hash content ranges markers).occurrences =
      markers.flatMap (ownOccurrences hash content ranges) := by
  induction markers using List.reverseRecOn with
  | nil => rfl
  | append_singleton markers last ih =>
    obtain ⟨hnodup, _, hdisjoint⟩ := nodup_append.mp h
    have hlast : last ∉ markers := fun hmem =>
      hdisjoint last hmem last (mem_singleton_self _) rfl
    rw [scanState_append_singleton, flatMap_append, flatMap_singleton, ← ih hnodup]
    unfold ownOccurrences scanMarker
    split_ifs with hempty
    · simp
    · have hnew : ∀ contextHash, get? (last, contextHash)
          (scanState hash content ranges markers).ordinals =
          get? (last, contextHash) ([] : Ordinals) :=
        get?_ordinals hash content ranges hlast
      obtain ⟨found, hfirst, hsecond⟩ := foldl_recordPosition_congr hash content last
        (markerPositions content ranges last) hnew []
        (scanState hash content ranges markers).occurrences
      dsimp only
      rw [hsecond, hfirst, nil_append]

lemma counts_scanState (h : markers.Nodup) :
    (scanState hash content ranges markers).counts =
      markers.filterMap (ownCount content ranges) := by
  induction markers using List.reverseRecOn with
  | nil => rfl
  | append_singleton markers last ih =>
    obtain ⟨hnodup, _, hdisjoint⟩ := nodup_append.mp h
    have hlast : last ∉ markers := fun hmem =>
      hdisjoint last hmem last (mem_singleton_self _) rfl
    have hnew : get? last (markers.filterMap (ownCount content ranges)) = none := by
      rw [get?_eq_none_iff]
      intro hkey
      obtain ⟨entry, hentry, hfst⟩ := List.mem_map.mp hkey
      obtain ⟨marker, hmarker, hcount⟩ := mem_filterMap.mp hentry
      rw [ownCount] at hcount
      split_ifs at hcount
      cases hcount
      exact hlast (hfst ▸ hmarker)
    rw [scanState_append_singleton, filterMap_append, scanMarker]
    by_cases hempty : last = ""
    · simp [hempty, ih hnodup, ownCount]
    · by_cases hpositions : markerPositions content ranges last = []
      · simp [hempty, hpositions, ih hnodup, ownCount]
      · simp only [hempty, hpositions, if_false, ih hnodup, alter_of_get?_eq_none hnew]
        simp [ownCount, hempty, hpositions]

lemma nodup_keys_counts (h : markers.Nodup) :
    (KeyedList.keys (markers.filterMap (ownCount content ranges))).Nodup := by
  have hkeys : (KeyedList.keys (markers.filterMap (ownCount content ranges))).Sublist markers := by
    induction markers with
    | nil => exact Sublist.slnil
    | cons marker rest ih =>
      have hrest := ih (nodup_cons.mp h).2
      rw [filterMap_cons]
      unfold ownCount
      split_ifs
      · exact hrest.cons _
      · exact hrest.cons_cons _
  exact h.sublist hkeys

/-- **The order of the markers does not matter.** -/
lemma scanRanges_of_perm {markers' : List String} (h : markers.Nodup)
    (hperm : markers'.Perm markers) :
    scanRanges hash content markers' ranges = scanRanges hash content markers ranges := by
  have h' : markers'.Nodup := hperm.nodup_iff.mpr h
  have hcounts : sortBy (compareOn Prod.fst)
      (scanState hash content ranges markers').counts =
      sortBy (compareOn Prod.fst) (scanState hash content ranges markers).counts := by
    rw [counts_scanState hash content ranges h, counts_scanState hash content ranges h']
    refine sortBy_eq_of_perm (fun a ha b hb heq => ?_) (hperm.filterMap _)
    exact inj_on_of_nodup_map (nodup_keys_counts content ranges h) ha hb
      (compare_eq_iff_eq.mp heq)
  have hoccurrences : sortBy (compareOn occurrenceKey)
      (scanState hash content ranges markers').occurrences =
      sortBy (compareOn occurrenceKey)
        (scanState hash content ranges markers).occurrences := by
    rw [occurrences_scanState hash content ranges h, occurrences_scanState hash content ranges h']
    apply sortBy_eq_of_filter_eq
    intro key
    -- the key of an occurrence names its marker, and one marker has all of them
    rw [filter_flatMap, filter_flatMap]
    refine flatMap_eq_of_perm (h.imp fun {a b} hne => ?_) hperm
    rw [or_iff_not_imp_left]
    intro hfirst
    obtain ⟨occurrence, hoccurrence⟩ := exists_mem_of_ne_nil _ hfirst
    obtain ⟨hmem, hkey⟩ := mem_filter.mp hoccurrence
    rw [filter_eq_nil_iff]
    intro other hother hsame
    have heq : occurrenceKey occurrence = occurrenceKey other :=
      (of_decide_eq_true hkey).trans (of_decide_eq_true hsame).symm
    have hmarker : occurrence.marker = other.marker :=
      congrArg (fun key : ℕ ×ₗ ℕ ×ₗ String => (ofLex (ofLex key).2).2) heq
    rw [marker_of_mem_ownOccurrences hash content ranges hmem,
      marker_of_mem_ownOccurrences hash content ranges hother] at hmarker
    exact hne hmarker
  exact MarkerScan.mk.injEq .. |>.mpr ⟨hcounts, hoccurrences⟩

/-- An empty marker is never looked for. -/
lemma scanRanges_filter (markers : List String) :
    scanRanges hash content (markers.filter (· ≠ "")) ranges =
      scanRanges hash content markers ranges := by
  have hstate : ∀ state, (markers.filter (· ≠ "")).foldl (scanMarker hash content ranges) state =
      markers.foldl (scanMarker hash content ranges) state := by
    induction markers with
    | nil => exact fun _ => rfl
    | cons marker rest ih =>
      intro state
      by_cases hempty : marker = ""
      · rw [filter_cons_of_neg (by simp [hempty]), ih, foldl_cons, scanMarker, if_pos hempty]
      · rw [filter_cons_of_pos (by simp [hempty]), foldl_cons, foldl_cons, ih]
  unfold scanRanges
  rw [hstate]

end Reposcout.Metrics
