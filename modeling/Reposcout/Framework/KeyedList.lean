import Mathlib.Data.List.Sort
import Mathlib.Algebra.BigOperators.Ring.Finset

/-!
# Finite maps as keyed lists, and stable sorting by a comparator

A finite map is kept as the list of its entries in the order in which the keys first
appeared.  `alter` is the entry operation (insert or update in place), `get?` the lookup.
The order of the list carries no meaning of its own: a client that models a map with an
unspecified iteration order permutes it, one that models an ordered map sorts it.

`sortBy` is the stable sort by a three-way comparator.

A set is kept as a list, too: what is added goes to the end, unless it is there already.
-/

namespace KeyedList

open List Option

variable {κ β : Type} [DecidableEq κ]

/-- The value stored under a key. -/
def get? (k : κ) : List (κ × β) → Option β
  | [] => none
  | (k', v) :: rest => if k' = k then some v else get? k rest

/-- Insert or update the entry of one key, leaving every other entry in place. -/
def alter (k : κ) (f : Option β → β) : List (κ × β) → List (κ × β)
  | [] => [(k, f none)]
  | (k', v) :: rest => if k' = k then (k', f (some v)) :: rest else (k', v) :: alter k f rest

/-- The keys of a map, in first-insertion order. -/
def keys (m : List (κ × β)) : List κ := m.map Prod.fst

@[simp] lemma get?_nil (k : κ) : get? k ([] : List (κ × β)) = none := rfl

omit [DecidableEq κ] in
@[simp] lemma keys_nil : keys ([] : List (κ × β)) = [] := rfl

omit [DecidableEq κ] in
@[simp] lemma keys_cons (p : κ × β) (m : List (κ × β)) : keys (p :: m) = p.1 :: keys m := rfl

@[simp] lemma get?_alter_self (k : κ) (f : Option β → β) (m : List (κ × β)) :
    get? k (alter k f m) = some (f (get? k m)) := by
  induction m with
  | nil => simp [alter, get?]
  | cons p m ih =>
    obtain ⟨k', v⟩ := p
    by_cases h : k' = k <;> simp [alter, get?, h, ih]

variable {k k' : κ}

lemma get?_alter_of_ne (h : k' ≠ k) (f : Option β → β) (m : List (κ × β)) :
    get? k' (alter k f m) = get? k' m := by
  induction m with
  | nil => simp [alter, get?, h.symm]
  | cons p m ih =>
    obtain ⟨k₀, v⟩ := p
    by_cases h₀ : k₀ = k
    · subst h₀
      simp [alter, get?, h.symm]
    · simp only [alter, if_neg h₀, get?, ih]

lemma get?_alter (k k' : κ) (f : Option β → β) (m : List (κ × β)) :
    get? k' (alter k f m) = if k' = k then some (f (get? k m)) else get? k' m := by
  split
  · next h => rw [h, get?_alter_self]
  · next h => exact get?_alter_of_ne h f m

variable {v : β} {m : List (κ × β)}

lemma mem_of_get? (h : get? k m = some v) : (k, v) ∈ m := by
  induction m with
  | nil => simp at h
  | cons p m ih =>
    obtain ⟨k', v'⟩ := p
    by_cases hk : k' = k
    · simp_all [get?]
    · simp only [get?, if_neg hk] at h
      exact mem_cons_of_mem _ (ih h)

lemma get?_of_mem (hm : (keys m).Nodup) (h : (k, v) ∈ m) : get? k m = some v := by
  induction m with
  | nil => simp at h
  | cons p m ih =>
    obtain ⟨k', v'⟩ := p
    rw [keys_cons, nodup_cons] at hm
    rcases mem_cons.mp h with heq | hmem
    · simp_all [get?]
    · have hk : k ∈ keys m := mem_map.mpr ⟨(k, v), hmem, rfl⟩
      have hne : k' ≠ k := fun e => hm.1 (e ▸ hk)
      simpa [get?, hne] using ih hm.2 hmem

lemma get?_eq_some_iff (hm : (keys m).Nodup) : get? k m = some v ↔ (k, v) ∈ m :=
  ⟨mem_of_get?, get?_of_mem hm⟩

lemma get?_eq_none_iff : get? k m = none ↔ k ∉ keys m := by
  induction m with
  | nil => simp
  | cons p m ih =>
    obtain ⟨k', v⟩ := p
    by_cases h : k' = k
    · simp [get?, h]
    · simp [get?, h, ih, Ne.symm h]

/-- The order of the entries does not matter for a lookup. -/
lemma get?_of_perm {m' : List (κ × β)} (hm : (keys m).Nodup) (hperm : m'.Perm m) :
    get? k m' = get? k m := by
  have hm' : (keys m').Nodup := (hperm.map Prod.fst).nodup_iff.mpr hm
  refine ext fun v => ?_
  rw [get?_eq_some_iff hm, get?_eq_some_iff hm', hperm.mem_iff]

omit [DecidableEq κ] in
/-- Results that remember their keys have their keys among those of the map, in order. -/
lemma keys_filterMap_sublist {γ : Type} {f : κ × β → Option γ} {key : γ → κ}
    {m : List (κ × β)} (hkey : ∀ p ∈ m, ∀ c, f p = some c → key c = p.1) :
    ((m.filterMap f).map key).Sublist (keys m) := by
  induction m with
  | nil => exact List.Sublist.slnil
  | cons p m ih =>
    have hrest := ih fun q hq => hkey q (mem_cons_of_mem p hq)
    rw [filterMap_cons, keys_cons]
    cases hf : f p with
    | none => exact hrest.cons _
    | some c =>
      rw [map_cons, hkey p mem_cons_self c hf]
      exact hrest.cons_cons _

variable {f : Option β → β}

lemma mem_keys_alter : k' ∈ keys (alter k f m) ↔ k' = k ∨ k' ∈ keys m := by
  induction m with
  | nil => simp [alter, keys]
  | cons p m ih =>
    obtain ⟨k₀, v⟩ := p
    by_cases h : k₀ = k
    · subst h
      simp only [alter, if_true, keys_cons, mem_cons]
      tauto
    · simp only [alter, if_neg h, keys_cons, mem_cons, ih]
      tauto

/-- A new key is filed at the end. -/
lemma alter_of_get?_eq_none (h : get? k m = none) (f : Option β → β) :
    alter k f m = m ++ [(k, f none)] := by
  induction m with
  | nil => rfl
  | cons p m ih =>
    obtain ⟨k', v⟩ := p
    by_cases hk : k' = k
    · simp [get?, hk] at h
    · rw [get?, if_neg hk] at h
      rw [alter, if_neg hk, ih h, cons_append]

/-- Updating an entry keeps the keys pairwise distinct. -/
lemma nodup_keys_alter (h : (keys m).Nodup) : (keys (alter k f m)).Nodup := by
  induction m with
  | nil => simp [alter, keys]
  | cons p m ih =>
    obtain ⟨k', v⟩ := p
    rw [keys_cons, nodup_cons] at h
    by_cases hk : k' = k
    · subst hk
      rw [alter, if_pos rfl, keys_cons, nodup_cons]
      exact h
    · have hnot : k' ∉ keys (alter k f m) := by
        rw [mem_keys_alter]
        exact fun hor => hor.elim hk h.1
      rw [alter, if_neg hk, keys_cons, nodup_cons]
      exact ⟨hnot, ih h.2⟩

lemma mem_keys_filter_ne :
    k' ∈ keys (m.filter fun entry => entry.1 ≠ k) ↔ k' ∈ keys m ∧ k' ≠ k := by
  constructor
  · intro h
    obtain ⟨entry, hentry, rfl⟩ := mem_map.mp h
    obtain ⟨hmem, hne⟩ := mem_filter.mp hentry
    exact ⟨mem_map_of_mem hmem, of_decide_eq_true hne⟩
  · rintro ⟨h, hne⟩
    obtain ⟨entry, hentry, rfl⟩ := mem_map.mp h
    exact mem_map_of_mem (mem_filter.mpr ⟨hentry, decide_eq_true hne⟩)

lemma get?_filter_ne (k k' : κ) (m : List (κ × β)) :
    get? k' (m.filter fun entry => entry.1 ≠ k) = if k' = k then none else get? k' m := by
  induction m with
  | nil => simp
  | cons p m ih =>
    obtain ⟨k₀, v⟩ := p
    by_cases h₀ : k₀ = k
    · subst h₀
      rw [filter_cons_of_neg (by simp), ih, get?]
      by_cases h : k' = k₀
      · simp [h]
      · simp [h, Ne.symm h]
    · rw [filter_cons_of_pos (by simpa using h₀), get?, get?, ih]
      by_cases h : k' = k
      · subst h
        simp [h₀]
      · simp [h]

omit [DecidableEq κ] in
lemma nodup_keys_filter {m : List (κ × β)} (p : κ × β → Bool) (h : (keys m).Nodup) :
    (keys (m.filter p)).Nodup :=
  h.sublist (filter_sublist.map Prod.fst)

/-- A property of all entries is kept by an update whose new value has it. -/
lemma forall_mem_alter {P : κ → β → Prop} (hm : ∀ p ∈ m, P p.1 p.2) (hnone : P k (f none))
    (hsome : ∀ v, P k v → P k (f (some v))) : ∀ p ∈ alter k f m, P p.1 p.2 := by
  induction m with
  | nil => simpa [alter] using hnone
  | cons q m ih =>
    obtain ⟨k', v⟩ := q
    have hq : P k' v := hm (k', v) mem_cons_self
    have hrest : ∀ p ∈ m, P p.1 p.2 := fun p hp => hm p (mem_cons_of_mem _ hp)
    intro p hp
    by_cases hk : k' = k
    · subst hk
      simp only [alter, if_true, mem_cons] at hp
      rcases hp with rfl | hp
      · exact hsome v hq
      · exact hrest p hp
    · simp only [alter, if_neg hk, mem_cons] at hp
      rcases hp with rfl | hp
      · exact hq
      · exact ih hrest p hp

/-! ## Sums over the values -/

/-- An update changes a sum by what it changes of the value. -/
lemma sum_map_alter {g : Option β → β} (f : β → ℕ) (m : List (κ × β)) :
    ((alter k g m).map fun p => f p.2).sum + ((get? k m).map f).getD 0 =
      (m.map fun p => f p.2).sum + f (g (get? k m)) := by
  induction m with
  | nil => simp [alter, get?]
  | cons p m ih =>
    obtain ⟨k', v⟩ := p
    by_cases hk : k' = k
    · subst hk
      simp only [alter, get?, if_true, map_cons, sum_cons, map_some,
        getD_some]
      omega
    · simp only [alter, get?, if_neg hk, map_cons, sum_cons]
      omega

lemma sum_map_eq_sum_get? (hm : (keys m).Nodup) {ks : List κ} (hks : ks.Nodup)
    (hsub : ∀ k ∈ keys m, k ∈ ks) (f : β → ℕ) :
    (m.map fun p => f p.2).sum = (ks.map fun k => ((get? k m).map f).getD 0).sum := by
  have hvalues : (m.map fun p => f p.2) = (keys m).map fun k => ((get? k m).map f).getD 0 := by
    rw [keys, List.map_map]
    refine List.map_congr_left fun p hp => ?_
    rw [Function.comp_apply, get?_of_mem hm hp, map_some, getD_some]
  rw [hvalues, ← List.sum_toFinset _ hm, ← List.sum_toFinset _ hks]
  refine Finset.sum_subset ?_ ?_
  · intro k hk
    rw [List.mem_toFinset] at hk ⊢
    exact hsub k hk
  · intro k _ hk
    rw [List.mem_toFinset] at hk
    rw [get?_eq_none_iff.mpr hk, map_none, getD_none]

/-! ## Indexing by a key -/

section

variable {γ : Type}

/-- Collect values into a map by a key: a later value replaces an earlier one. -/
def indexBy (key : γ → κ) (l : List γ) : List (κ × γ) :=
  l.foldl (fun m v => alter (key v) (fun _ => v) m) []

lemma indexBy_append_singleton (key : γ → κ) (l : List γ) (v : γ) :
    indexBy key (l ++ [v]) = alter (key v) (fun _ => v) (indexBy key l) :=
  foldl_append

lemma nodup_keys_indexBy (key : γ → κ) (l : List γ) : (keys (indexBy key l)).Nodup :=
  foldlRecOn (motive := fun m : List (κ × γ) => (keys m).Nodup) l _ (by simp)
    (fun _ h _ _ => nodup_keys_alter h)

/-- The last value with a key is filed under it. -/
lemma get?_indexBy (key : γ → κ) (l : List γ) (k : κ) :
    get? k (indexBy key l) = (l.filter (fun v => key v = k)).getLast? := by
  induction l using reverseRecOn with
  | nil => rfl
  | append_singleton l v ih =>
    rw [indexBy_append_singleton, get?_alter, filter_append]
    by_cases h : key v = k
    · rw [if_pos h.symm, filter_singleton, decide_eq_true h, cond_true, getLast?_concat]
    · rw [if_neg (Ne.symm h), filter_singleton, decide_eq_false h, cond_false,
        append_nil, ih]

variable {l : List γ} {key : γ → κ}

lemma mem_of_get?_indexBy {k : κ} {v : γ} (h : get? k (indexBy key l) = some v) :
    key v = k ∧ v ∈ l := by
  rw [get?_indexBy] at h
  have hmem := mem_filter.mp (mem_of_getLast? h)
  exact ⟨of_decide_eq_true hmem.2, hmem.1⟩

lemma isSome_get?_indexBy {k : κ} :
    (get? k (indexBy key l)).isSome ↔ k ∈ l.map key := by
  rw [get?_indexBy, List.getLast?_isSome, List.mem_map]
  constructor
  · intro h
    obtain ⟨v, hv⟩ := List.exists_mem_of_ne_nil _ h
    obtain ⟨hmem, hkey⟩ := List.mem_filter.mp hv
    exact ⟨v, hmem, of_decide_eq_true hkey⟩
  · rintro ⟨v, hmem, hkey⟩
    exact List.ne_nil_of_mem (List.mem_filter.mpr ⟨hmem, decide_eq_true hkey⟩)

/-- With distinct keys every value is filed. -/
lemma get?_indexBy_of_mem (hl : (l.map key).Nodup) {v : γ} (h : v ∈ l) :
    get? (key v) (indexBy key l) = some v := by
  obtain ⟨w, hw⟩ := isSome_iff_exists.mp
    (isSome_get?_indexBy.mpr (mem_map_of_mem (f := key) h))
  obtain ⟨hkey, hmem⟩ := mem_of_get?_indexBy hw
  rw [hw, inj_on_of_nodup_map hl hmem h hkey]

lemma get?_indexBy_of_perm {m : List (κ × γ)} (hm : (keys m).Nodup)
    (hkey : ∀ entry ∈ m, key entry.2 = entry.1) (hl : l.Perm (m.map Prod.snd)) (k : κ) :
    get? k (indexBy key l) = get? k m := by
  have hkeys : (m.map Prod.snd).map key = keys m := by
    rw [List.map_map]
    exact List.map_congr_left hkey
  have hperm := (hl.map key).trans (List.Perm.of_eq hkeys)
  cases hfound : get? k m with
  | none =>
    rw [get?_eq_none_iff] at hfound
    rw [← not_isSome_iff_eq_none, isSome_get?_indexBy, hperm.mem_iff]
    exact hfound
  | some v =>
    have hmem := mem_of_get? hfound
    obtain rfl : key v = k := hkey _ hmem
    exact get?_indexBy_of_mem (hperm.nodup_iff.mpr hm) (hl.mem_iff.mpr (List.mem_map_of_mem hmem))

end

/-! ## Counting by keys -/

/-- Distinct keys count each element with one of them once. -/
lemma sum_countP_eq {γ : Type} {keys : List κ} (hkeys : keys.Nodup) (key : γ → κ) (l : List γ) :
    (keys.map fun k => l.countP fun x => key x = k).sum = l.countP fun x => key x ∈ keys := by
  induction l with
  | nil => simp
  | cons x rest ih =>
    have hsplit : (keys.map fun k => (x :: rest).countP fun x => key x = k).sum =
        (keys.map fun k => rest.countP fun x => key x = k).sum + keys.count (key x) := by
      clear ih hkeys
      induction keys with
      | nil => rfl
      | cons k keys ih =>
        rw [map_cons, sum_cons, map_cons, sum_cons, ih, countP_cons,
          count_cons]
        by_cases hk : key x = k
        · rw [if_pos (decide_eq_true hk), if_pos (beq_iff_eq.mpr hk.symm)]
          omega
        · rw [if_neg (by rwa [decide_eq_true_eq]), if_neg (by rwa [beq_iff_eq, eq_comm])]
          omega
    rw [hsplit, ih, hkeys.count, countP_cons]
    simp

/-! ## Grouping by a key -/

section

variable {γ δ : Type}

/-- Collect under each key the values of all elements with that key, in their order. -/
def groupBy (key : γ → κ) (values : γ → List δ) (l : List γ) : List (κ × List δ) :=
  l.foldl (fun m v => alter (key v) (fun old => old.getD [] ++ values v) m) []

variable (key : γ → κ) (values : γ → List δ)

lemma groupBy_append_singleton (l : List γ) (v : γ) :
    groupBy key values (l ++ [v]) =
      alter (key v) (fun old => old.getD [] ++ values v) (groupBy key values l) :=
  foldl_append

lemma nodup_keys_groupBy (l : List γ) :
    (keys (groupBy key values l)).Nodup := by
  induction l using reverseRecOn with
  | nil => exact nodup_nil
  | append_singleton l v ih =>
    rw [groupBy_append_singleton]
    exact nodup_keys_alter ih

lemma get?_groupBy (l : List γ) (k : κ) :
    get? k (groupBy key values l) =
      if k ∈ l.map key then some ((l.filter fun v => key v = k).flatMap values) else none := by
  induction l using reverseRecOn with
  | nil => rfl
  | append_singleton l v ih =>
    rw [groupBy_append_singleton, get?_alter, filter_append, flatMap_append,
      map_append]
    by_cases h : k = key v
    · subst h
      rw [if_pos rfl, if_pos (by simp), ih, filter_singleton, decide_eq_true rfl, cond_true]
      by_cases hmem : key v ∈ l.map key
      · simp [hmem]
      · have hnone : l.filter (fun w => key w = key v) = [] := by
          rw [filter_eq_nil_iff]
          intro w hw hkey
          exact hmem (mem_map.mpr ⟨w, hw, of_decide_eq_true hkey⟩)
        simp [hmem, hnone]
    · have hv : ¬ key v = k := fun heq => h heq.symm
      rw [if_neg h, ih, filter_singleton, decide_eq_false hv, cond_false, flatMap_nil,
        append_nil]
      simp [h]

lemma get?_groupBy_self (l : List γ) (k : κ) :
    get? k (groupBy key (fun v => [v]) l) =
      if l.filter (fun v => key v = k) = [] then none else some (l.filter fun v => key v = k) := by
  have hmem : k ∈ l.map key ↔ l.filter (fun v => key v = k) ≠ [] := by
    simp [List.mem_map]
  rw [get?_groupBy]
  by_cases h : l.filter (fun v => key v = k) = []
  · rw [if_neg (mt hmem.mp (not_not.mpr h)), if_pos h]
  · rw [if_pos (hmem.mpr h), if_neg h, List.flatMap_singleton']

lemma get?_groupBy_eq_some {key : γ → κ} {values : γ → List δ} {l : List γ}
    (hl : (l.map key).Nodup) {k : κ} {found : List δ} :
    get? k (groupBy key values l) = some found ↔ ∃ v ∈ l, key v = k ∧ values v = found := by
  have hfilter : ∀ v ∈ l, l.filter (fun w => key w = key v) = [v] := by
    intro v hv
    have hcount : ((l.filter fun w => key w = key v).map key).Nodup := hl.sublist
      (filter_sublist.map key)
    rw [← perm_singleton, perm_ext_iff_of_nodup hcount.of_map (nodup_singleton v)]
    intro w
    rw [mem_filter, decide_eq_true_eq, mem_singleton]
    exact ⟨fun h => inj_on_of_nodup_map hl h.1 hv h.2, fun h => by rw [h]; exact ⟨hv, rfl⟩⟩
  rw [get?_groupBy]
  constructor
  · intro h
    split_ifs at h with hmem
    obtain ⟨v, hv, rfl⟩ := mem_map.mp hmem
    rw [hfilter v hv, flatMap_singleton, some.injEq] at h
    exact ⟨v, hv, rfl, h⟩
  · rintro ⟨v, hv, rfl, rfl⟩
    rw [if_pos (mem_map_of_mem hv), hfilter v hv, flatMap_singleton]

/-- With distinct keys the order of the elements does not matter. -/
lemma get?_groupBy_of_perm {key : γ → κ} {values : γ → List δ} {l l' : List γ}
    (hl : (l.map key).Nodup) (hperm : l'.Perm l) (k : κ) :
    get? k (groupBy key values l') = get? k (groupBy key values l) := by
  have hl' : (l'.map key).Nodup := (hperm.map key).nodup_iff.mpr hl
  apply ext
  intro found
  rw [get?_groupBy_eq_some hl, get?_groupBy_eq_some hl']
  exact exists_congr fun v => and_congr_left fun _ => hperm.mem_iff

end

/-- Changing every value changes the value of a key. -/
lemma get?_map {γ : Type} (f : β → γ) (k : κ) (m : List (κ × β)) :
    get? k (m.map fun entry => (entry.1, f entry.2)) = (get? k m).map f := by
  induction m with
  | nil => rfl
  | cons entry rest ih =>
    show (if entry.1 = k then some (f entry.2) else get? k (rest.map _)) =
      (if entry.1 = k then some entry.2 else get? k rest).map f
    by_cases h : entry.1 = k
    · rw [if_pos h, if_pos h]
      rfl
    · rw [if_neg h, if_neg h, ih]

/-! ## Stable sorting -/

variable {α : Type}

/-- Stable sort by a comparator: an element moves in front of another only when the
comparator puts it strictly before. -/
def sortBy (cmp : α → α → Ordering) (l : List α) : List α :=
  l.insertionSort (fun a b => cmp a b ≠ .gt)

lemma sortBy_perm (cmp : α → α → Ordering) (l : List α) : (sortBy cmp l).Perm l :=
  perm_insertionSort _ l

variable {l : List α} {x : α} {cmp : α → α → Ordering}

@[simp] lemma mem_sortBy : x ∈ sortBy cmp l ↔ x ∈ l :=
  (sortBy_perm cmp l).mem_iff

@[simp] lemma length_sortBy (cmp : α → α → Ordering) (l : List α) :
    (sortBy cmp l).length = l.length :=
  (sortBy_perm cmp l).length_eq

lemma pairwise_sortBy (cmp : α → α → Ordering) [Std.TransCmp cmp] (l : List α) :
    (sortBy cmp l).Pairwise (fun a b => cmp a b ≠ .gt) := by
  have htotal : Std.Total (fun a b : α => cmp a b ≠ .gt) := by
    refine ⟨fun a b => ?_⟩
    by_cases h : cmp a b = .gt
    · exact .inr (Std.OrientedCmp.not_gt_of_gt h)
    · exact .inl h
  have htrans : IsTrans α (fun a b : α => cmp a b ≠ .gt) :=
    ⟨fun _ _ _ => Std.TransCmp.le_trans⟩
  exact pairwise_insertionSort _ l

/-- A comparator that looks at a preorder first sorts by it, whatever else it does. -/
lemma pairwise_sortBy_of {R : α → α → Prop} (htrans : IsTrans α R)
    (hle : ∀ a b, cmp a b ≠ .gt → R a b) (hgt : ∀ a b, cmp a b = .gt → R b a) (l : List α) :
    (sortBy cmp l).Pairwise R := by
  have hinsert : ∀ (a : α) (l : List α), l.Pairwise R →
      (l.orderedInsert (fun a b => cmp a b ≠ .gt) a).Pairwise R := by
    intro a l
    induction l with
    | nil => exact fun _ => pairwise_singleton R a
    | cons b rest ih =>
      intro hl
      rw [pairwise_cons] at hl
      rw [orderedInsert_cons]
      by_cases hab : cmp a b = .gt
      · rw [if_neg (not_not.mpr hab), pairwise_cons]
        refine ⟨fun c hc => ?_, ih hl.2⟩
        rcases mem_cons.mp ((perm_orderedInsert _ a rest).mem_iff.mp hc) with rfl | hc
        · exact hgt c b hab
        · exact hl.1 c hc
      · rw [if_pos hab, pairwise_cons, pairwise_cons]
        refine ⟨fun c hc => ?_, hl⟩
        rcases mem_cons.mp hc with rfl | hc
        · exact hle a c hab
        · exact htrans.trans a b c (hle a b hab) (hl.1 c hc)
  induction l with
  | nil => exact List.Pairwise.nil
  | cons a rest ih => exact hinsert a _ ih

variable {l' : List α}

/-- Elements that never compare equal are sorted in one way only. -/
lemma sortBy_eq_of_perm [Std.TransCmp cmp]
    (hl : ∀ a ∈ l, ∀ b ∈ l, cmp a b = .eq → a = b) (hperm : l'.Perm l) :
    sortBy cmp l' = sortBy cmp l := by
  refine List.Perm.eq_of_pairwise ?_ (pairwise_sortBy cmp l') (pairwise_sortBy cmp l)
    ((sortBy_perm cmp l').trans (hperm.trans (sortBy_perm cmp l).symm))
  intro a b ha hb hab hba
  rw [mem_sortBy] at ha hb
  refine hl a (hperm.mem_iff.mp ha) b hb ?_
  cases hcmp : cmp a b with
  | eq => rfl
  | gt => exact absurd hcmp hab
  | lt => exact absurd (Std.OrientedCmp.gt_of_lt hcmp) hba

variable {p : α → Bool} (hp : ∀ a b, p a = true → p b = true → cmp a b ≠ .gt)

include hp

/-- The sort is stable: elements that compare equal keep their order. -/
lemma filter_sortBy (l : List α) : (sortBy cmp l).filter p = l.filter p := by
  have hpairwise : (l.filter p).Pairwise (fun a b => cmp a b ≠ .gt) := by
    refine List.Pairwise.imp_of_mem (fun {a b} ha hb _ => ?_) (List.pairwise_of_forall fun _ _ => trivial)
    exact hp a b (List.mem_filter.mp ha).2 (List.mem_filter.mp hb).2
  have hsublist : (l.filter p).Sublist (sortBy cmp l) :=
    List.sublist_insertionSort hpairwise List.filter_sublist
  have hfilter : (l.filter p).Sublist ((sortBy cmp l).filter p) := by
    have h := hsublist.filter p
    rwa [List.filter_filter, List.filter_congr fun a _ => Bool.and_self (p a)] at h
  exact (hfilter.eq_of_length ((sortBy_perm cmp l).filter p).length_eq.symm).symm

lemma find?_sortBy (l : List α) : (sortBy cmp l).find? p = l.find? p := by
  rw [← head?_filter, ← head?_filter, filter_sortBy hp]

omit hp

variable (hl : ∀ a ∈ l, ∀ b ∈ l, cmp a b = .eq → a = b)

include hl

/-- The first element with a property in a sorted list is the least one, if elements that compare
equal are equal. -/
lemma find?_sortBy_eq_some_iff [Std.TransCmp cmp] : (sortBy cmp l).find? p = some x ↔
      x ∈ l ∧ p x = true ∧ ∀ y ∈ l, p y = true → cmp y x ≠ .lt := by
  have hfirst : ∀ {x}, (sortBy cmp l).find? p = some x →
      x ∈ l ∧ p x = true ∧ ∀ y ∈ l, p y = true → cmp y x ≠ .lt := by
    intro x h
    obtain ⟨hx, front, back, hsplit, hfront⟩ := find?_eq_some_iff_append.mp h
    have hpairwise := pairwise_sortBy cmp l
    rw [hsplit] at hpairwise
    refine ⟨mem_sortBy.mp (mem_of_find?_eq_some h), hx, fun y hy hpy hlt => ?_⟩
    have hmem : y ∈ front ++ x :: back := hsplit ▸ mem_sortBy.mpr hy
    rcases mem_append.mp hmem with hbefore | hafter
    · exact absurd hpy (by simpa using hfront y hbefore)
    · rcases mem_cons.mp hafter with rfl | hback
      · exact absurd (hlt.symm.trans Std.ReflCmp.compare_self) (by decide)
      · have hle := (pairwise_cons.mp (pairwise_append.mp hpairwise).2.1).1 y hback
        exact hle (Std.OrientedCmp.gt_of_lt hlt)
  refine ⟨hfirst, fun ⟨hx, hpx, hleast⟩ => ?_⟩
  have hsome : ((sortBy cmp l).find? p).isSome := by
    rw [find?_isSome]
    exact ⟨x, mem_sortBy.mpr hx, hpx⟩
  obtain ⟨found, hfound⟩ := isSome_iff_exists.mp hsome
  obtain ⟨hmem, hp, hother⟩ := hfirst hfound
  have heq : cmp found x = .eq := by
    cases hcmp : cmp found x with
    | eq => rfl
    | lt => exact absurd hcmp (hleast found hmem hp)
    | gt => exact absurd (Std.OrientedCmp.lt_of_gt hcmp) (hother x hx hpx)
  rw [hfound, hl found hmem x hx heq]

lemma forall_find?_sortBy_iff [Std.TransCmp cmp] {Good : α → Prop} :
    (∀ x, (sortBy cmp l).find? p = some x → Good x) ↔
      ∀ x ∈ l, p x = true → ¬ Good x → ∃ y ∈ l, p y = true ∧ cmp y x = .lt := by
  constructor
  · intro h x hx hpx hbad
    by_contra hnone
    push Not at hnone
    exact hbad (h x ((find?_sortBy_eq_some_iff hl).mpr ⟨hx, hpx, hnone⟩))
  · intro h x hfound
    obtain ⟨hx, hpx, hleast⟩ := (find?_sortBy_eq_some_iff hl).mp hfound
    by_contra hbad
    obtain ⟨y, hy, hpy, hlt⟩ := h x hx hpx hbad
    exact hleast y hy hpy hlt

omit hl

lemma eq_of_filter_eq {ι : Type} [LinearOrder ι] (key : α → ι)
    (hl : l.Pairwise fun a b => key a ≤ key b) (hl' : l'.Pairwise fun a b => key a ≤ key b)
    (h : ∀ k, l.filter (fun a => key a = k) = l'.filter fun a => key a = k) : l = l' := by
  have hmem : ∀ a, a ∈ l ↔ a ∈ l' := by
    intro a
    have hfilter : a ∈ l.filter (fun b => key b = key a) ↔ a ∈ l'.filter fun b => key b = key a := by
      rw [h]
    simpa using hfilter
  induction l generalizing l' with
  | nil =>
    cases l' with
    | nil => rfl
    | cons b rest' => exact absurd ((hmem b).mpr (mem_cons_self ..)) (not_mem_nil)
  | cons a rest ih =>
    cases l' with
    | nil => exact absurd ((hmem a).mp (mem_cons_self ..)) (not_mem_nil)
    | cons b rest' =>
      obtain ⟨ha, hrest⟩ := pairwise_cons.mp hl
      obtain ⟨hb, hrest'⟩ := pairwise_cons.mp hl'
      have hab : key a ≤ key b := by
        rcases mem_cons.mp ((hmem b).mpr (mem_cons_self ..)) with rfl | hin
        · exact le_rfl
        · exact ha b hin
      have hba : key b ≤ key a := by
        rcases mem_cons.mp ((hmem a).mp (mem_cons_self ..)) with rfl | hin
        · exact le_rfl
        · exact hb a hin
      have hkey : key a = key b := le_antisymm hab hba
      -- both heads are the first elements with their key
      have hheads := h (key a)
      rw [filter_cons_of_pos (by simp), filter_cons_of_pos (by simp [hkey])] at hheads
      obtain rfl := (cons.inj hheads).1
      have htails : ∀ k, rest.filter (fun c => key c = k) = rest'.filter fun c => key c = k := by
        intro k
        have hk := h k
        by_cases hak : key a = k
        · rw [filter_cons_of_pos (by simp [hak]), filter_cons_of_pos (by simp [hak])] at hk
          exact (cons.inj hk).2
        · rwa [filter_cons_of_neg (by simp [hak]), filter_cons_of_neg (by simp [hak])]
            at hk
      rw [ih hrest hrest' htails fun c => ?_]
      have hfilter : c ∈ rest.filter (fun d => key d = key c) ↔
          c ∈ rest'.filter fun d => key d = key c := by
        rw [htails]
      simpa using hfilter

lemma sortBy_eq_of_filter_eq {ι : Type} [LinearOrder ι] {key : α → ι}
    (h : ∀ k, l.filter (fun a => key a = k) = l'.filter fun a => key a = k) :
    sortBy (compareOn key) l = sortBy (compareOn key) l' := by
  have hsorted : ∀ l : List α, (sortBy (compareOn key) l).Pairwise fun a b => key a ≤ key b := by
    intro l
    refine (pairwise_sortBy (compareOn key) l).imp fun {a b} hle => ?_
    exact compare_le_iff_le.mp hle
  have hstable : ∀ (l : List α) (k : ι), (sortBy (compareOn key) l).filter (fun a => key a = k) =
      l.filter fun a => key a = k := by
    intro l k
    apply filter_sortBy
    intro a b ha hb
    have hab : key a = key b := (of_decide_eq_true ha).trans (of_decide_eq_true hb).symm
    rw [compareOn, hab, compare_eq_iff_eq.mpr rfl]
    simp
  refine eq_of_filter_eq key (hsorted l) (hsorted l') fun k => ?_
  rw [hstable, hstable, h]

/-- If at most one of some lists has elements, the order of the lists does not matter. -/
lemma flatMap_eq_of_perm {γ : Type} {f : γ → List α} {blocks blocks' : List γ}
    (hexclusive : blocks.Pairwise fun a b => f a = [] ∨ f b = []) (hperm : blocks'.Perm blocks) :
    blocks'.flatMap f = blocks.flatMap f := by
  induction hperm.symm with
  | nil => rfl
  | cons a hrest ih => rw [flatMap_cons, flatMap_cons, ih hexclusive.of_cons hrest.symm]
  | swap a b rest =>
    rcases (pairwise_cons.mp hexclusive).1 a (mem_cons_self ..) with h | h <;> simp [h]
  | trans hfirst hsecond ihfirst ihsecond =>
    have hmiddle := hfirst.pairwise hexclusive fun {a b} => Or.symm
    rw [ihsecond hmiddle hsecond.symm, ihfirst hexclusive hfirst.symm]

/-- Erasing repetitions keeps the elements. -/
lemma mem_eraseReps_loop [DecidableEq α] (first : α) (rest acc : List α) :
    x ∈ eraseRepsBy.loop (· == ·) first rest acc ↔ x = first ∨ x ∈ rest ∨ x ∈ acc := by
  induction rest generalizing first acc with
  | nil => simp [eraseRepsBy.loop, or_comm]
  | cons second rest ih =>
    unfold eraseRepsBy.loop
    cases hsame : (first == second) with
    | true =>
      rw [ih, mem_cons, beq_iff_eq.mp hsame]
      tauto
    | false =>
      rw [ih, mem_cons, mem_cons]
      tauto

@[simp] lemma mem_eraseReps [DecidableEq α] : x ∈ l.eraseReps ↔ x ∈ l := by
  cases l with
  | nil => rfl
  | cons first rest =>
    show x ∈ eraseRepsBy.loop (· == ·) first rest [] ↔ _
    rw [mem_eraseReps_loop, mem_cons]
    simp

/-- One element is left of repetitions of it. -/
lemma eraseReps_eq_singleton_iff [DecidableEq α] :
    l.eraseReps = [x] ↔ l ≠ [] ∧ ∀ a ∈ l, a = x := by
  constructor
  · intro h
    refine ⟨?_, fun a ha => ?_⟩
    · rintro rfl
      cases h
    · rw [← mem_eraseReps, h] at ha
      exact mem_singleton.mp ha
  · rintro ⟨hne, hall⟩
    have hloop : ∀ rest acc : List α, (∀ a ∈ rest, a = x) →
        eraseRepsBy.loop (· == ·) x rest acc = (x :: acc).reverse := by
      intro rest
      induction rest with
      | nil => exact fun acc _ => rfl
      | cons second rest ih =>
        intro acc hrest
        obtain rfl := hrest second (mem_cons_self ..)
        unfold eraseRepsBy.loop
        rw [beq_self_eq_true]
        exact ih acc fun a ha => hrest a (mem_cons_of_mem _ ha)
    cases l with
    | nil => exact absurd rfl hne
    | cons first rest =>
      obtain rfl := hall first (mem_cons_self ..)
      exact hloop rest [] fun a ha => hall a (mem_cons_of_mem _ ha)

/-- Nothing is erased where nothing repeats. -/
lemma eraseReps_eq_self [DecidableEq α] (h : l.Nodup) : l.eraseReps = l := by
  have hloop : ∀ (rest acc : List α) (first : α), (first :: rest).Nodup →
      eraseRepsBy.loop (· == ·) first rest acc = acc.reverse ++ first :: rest := by
    intro rest
    induction rest with
    | nil =>
      intro acc first _
      simp [eraseRepsBy.loop]
    | cons second rest ih =>
      intro acc first hnodup
      obtain ⟨hfirst, hrest⟩ := nodup_cons.mp hnodup
      have hne : (first == second) = false :=
        beq_eq_false_iff_ne.mpr fun heq => hfirst (heq ▸ mem_cons_self ..)
      unfold eraseRepsBy.loop
      rw [hne]
      rw [ih _ _ hrest]
      simp
  cases l with
  | nil => rfl
  | cons first rest => exact hloop rest [] first h

/-! ## Iteration order of an unordered map -/

/-- The order in which an unordered map yields its entries: unspecified, but each entry is
yielded exactly once. -/
structure IterationOrder (α : Type) where
  arrange : List α → List α
  perm : ∀ l, (arrange l).Perm l

def IterationOrder.insertion (α : Type) : IterationOrder α := ⟨id, fun l => List.Perm.refl l⟩

@[simp] lemma IterationOrder.mem_arrange (o : IterationOrder α) : x ∈ o.arrange l ↔ x ∈ l :=
  (o.perm l).mem_iff

end KeyedList

/-! ## Sets in the order of insertion -/

namespace InsertionSet

open List

variable {α : Type} [DecidableEq α]

def add (s : List α) (x : α) : List α := if x ∈ s then s else s ++ [x]

/-- The set of the elements of a list. -/
def ofList (l : List α) : List α := l.foldl add []

variable {s : List α}

@[simp] lemma mem_add {x y : α} : y ∈ add s x ↔ y ∈ s ∨ y = x := by
  rw [add]
  split_ifs with h
  · constructor
    · exact .inl
    · rintro (hy | rfl)
      · exact hy
      · exact h
  · rw [mem_append, mem_singleton]

lemma nodup_add (hs : s.Nodup) (x : α) : (add s x).Nodup := by
  rw [add]
  split_ifs with h
  · exact hs
  · refine nodup_append.mpr ⟨hs, nodup_singleton x, fun y hy z hz heq => h ?_⟩
    rw [← mem_singleton.mp hz, ← heq]
    exact hy

variable {l : List α}

lemma mem_foldl_add {y : α} : y ∈ l.foldl add s ↔ y ∈ s ∨ y ∈ l := by
  induction l generalizing s with
  | nil => rw [foldl_nil, or_iff_left not_mem_nil]
  | cons x rest ih => rw [foldl_cons, ih, mem_add, mem_cons, or_assoc]

lemma nodup_foldl_add (hs : s.Nodup) (l : List α) : (l.foldl add s).Nodup := by
  induction l generalizing s with
  | nil => exact hs
  | cons x rest ih => exact ih (nodup_add hs x)

@[simp] lemma mem_ofList {x : α} : x ∈ ofList l ↔ x ∈ l := by
  rw [ofList, mem_foldl_add, or_iff_right not_mem_nil]

lemma nodup_ofList (l : List α) : (ofList l).Nodup := nodup_foldl_add nodup_nil l

/-- Lists with the same elements give the same set, up to the order. -/
lemma ofList_perm {l' : List α} (h : ∀ x, x ∈ l' ↔ x ∈ l) : (ofList l').Perm (ofList l) := by
  rw [perm_ext_iff_of_nodup (nodup_ofList l') (nodup_ofList l)]
  intro x
  rw [mem_ofList, mem_ofList, h]

lemma foldl_add_eq_append (hl : l.Nodup) (hdisjoint : ∀ x ∈ l, x ∉ s) :
    l.foldl add s = s ++ l := by
  induction l generalizing s with
  | nil => rw [foldl_nil, append_nil]
  | cons x rest ih =>
    obtain ⟨hx, hrest⟩ := nodup_cons.mp hl
    rw [foldl_cons, add, if_neg (hdisjoint x mem_cons_self), ih hrest,
      append_assoc, singleton_append]
    intro y hy hmem
    rcases mem_append.mp hmem with hmem | hmem
    · exact hdisjoint y (mem_cons_of_mem x hy) hmem
    · exact hx (mem_singleton.mp hmem ▸ hy)

lemma ofList_eq_self (hl : l.Nodup) : ofList l = l := by
  rw [ofList, foldl_add_eq_append hl fun _ _ => not_mem_nil, nil_append]

end InsertionSet
