import Reposcout.Dup.Corpus

/-!
# The shared group map of the exact detector

The map is written by `recordRegion` alone, pool after pool.  `recordings` lists the writes
in order, `detectPools_groups` says that the map is their fold, and the two lemmas after it
say what the map then holds: nothing but what was recorded (`mem_groups_spec`), and a path
of each side of every recording (`held_of_mem_recordings`).
-/

/-!
## The regions an exact scan records

Every region `scanPool` records is a pair of equal token ranges of two files of the pool, at
least `minTokens` long, and apart from each other when the two files are one.  Nothing is
assumed of the window hash: a bucket may mix windows of different content, because
`windowsEqual` verifies the seed and `extend` compares every further token.
-/

namespace Reposcout.Dup.Exact

open List KeyedList

lemma exactKey_eq_iff {s t : Token} : exactKey s = exactKey t ↔ s.exactEq t = true := by
  simp [exactKey, Token.exactEq_iff]

/-- `len` tokens from `i` of one list and from `j` of another exist and agree in kind and
text. -/
structure EqualRange (aTokens : List Token) (i : Nat) (bTokens : List Token) (j len : Nat) :
    Prop where
  left_le : i + len ≤ aTokens.length
  right_le : j + len ≤ bTokens.length
  keys_eq : ((aTokens.drop i).take len).map exactKey = ((bTokens.drop j).take len).map exactKey

lemma EqualRange.append {aTokens bTokens : List Token} {i j m n : Nat}
    (h : EqualRange aTokens i bTokens j m) (h' : EqualRange aTokens (i + m) bTokens (j + m) n) :
    EqualRange aTokens i bTokens j (m + n) where
  left_le := by have := h'.left_le; omega
  right_le := by have := h'.right_le; omega
  keys_eq := by
    rw [take_add, take_add, map_append, map_append, drop_drop, drop_drop, h.keys_eq, h'.keys_eq]

/-! ## Extension -/

/-- Growing a match adds equal tokens only, and in one file stops at the distance. -/
lemma extend_spec (sameFile : Bool) (distance : Nat) (xs ys : List Token) (len : Nat) :
    ∃ k, extend sameFile distance xs ys len = len + k ∧ k ≤ xs.length ∧ k ≤ ys.length ∧
      (xs.take k).map exactKey = (ys.take k).map exactKey ∧
      (sameFile = true → len ≤ distance → len + k ≤ distance) := by
  fun_induction extend sameFile distance xs ys len with
  | case1 x xs y ys len hstop => exact ⟨0, by simp⟩
  | case2 x xs y ys len hgo hne => exact ⟨0, by simp⟩
  | case3 x xs y ys len hgo heq ih =>
    obtain ⟨k, hk, hx, hy, hkeys, hdist⟩ := ih
    refine ⟨k + 1, by omega, by simpa using hx, by simpa using hy, ?_, ?_⟩
    · simp [hkeys, exactKey_eq_iff.mpr (by simpa using heq)]
    · intro hsame hle
      have := hdist hsame (by simp_all)
      omega
  | case4 xs ys len => exact ⟨0, by simp⟩

/-- The last `k` tokens before position `i`, read backwards, are the range ending there. -/
lemma reverse_take_reverse_take {tokens : List Token} {i k : Nat} (hi : i ≤ tokens.length)
    (hk : k ≤ i) :
    (((tokens.take i).reverse.take k).reverse) = (tokens.drop (i - k)).take k := by
  rw [reverse_take, reverse_reverse, length_reverse, length_take, min_eq_left hi, drop_take]
  congr 1
  omega

variable {prepared : List PreparedFile} {a b : Occurrence}

lemma windowsEqual_spec {len : Nat} (h : windowsEqual prepared a b len = true) :
    EqualRange (tokensOf prepared a.file) a.start (tokensOf prepared b.file) b.start len := by
  simp only [windowsEqual, slice?] at h
  split at h
  · next left right hleft hright =>
    split_ifs at hleft hright with ha hb
    refine ⟨ha, hb, ?_⟩
    cases hleft
    cases hright
    refine ext_getElem (by simp; omega) ?_
    intro n h₁ h₂
    simp only [length_map, length_take, length_drop] at h₁ h₂
    have hpair := all_eq_true.mp h
      ((((tokensOf prepared a.file).drop a.start).take len).get ⟨n, by simp; omega⟩,
        (((tokensOf prepared b.file).drop b.start).take len).get ⟨n, by simp; omega⟩)
      (by
        rw [mem_iff_getElem]
        exact ⟨n, by simp; omega, by simp⟩)
    simpa [exactKey_eq_iff] using hpair
  · simp at h

lemma maximalMatch_spec {seedLen : Nat} {aStart bStart len : Nat}
    (hseed : windowsEqual prepared a b seedLen = true)
    (h : maximalMatch prepared a b seedLen = some (aStart, bStart, len)) :
    EqualRange (tokensOf prepared a.file) aStart (tokensOf prepared b.file) bStart len ∧
      seedLen ≤ len ∧ (a.file = b.file → len ≤ absDiff aStart bStart) := by
  have hrange := windowsEqual_spec hseed
  simp only [maximalMatch] at h
  split at h
  · next aSource bSource ha hb =>
    have hat : tokensOf prepared a.file = aSource.tokens := by simp [tokensOf, ha]
    have hbt : tokensOf prepared b.file = bSource.tokens := by simp [tokensOf, hb]
    rw [hat, hbt] at hrange ⊢
    split_ifs at h with hreject
    obtain ⟨k, hk, hka, hkb, hkeys, hdistL⟩ := extend_spec (a.file = b.file)
      (absDiff a.start b.start) (aSource.tokens.take a.start).reverse
      (bSource.tokens.take b.start).reverse seedLen
    rw [hk, Nat.add_sub_cancel_left] at h
    obtain ⟨m, hm, hma, hmb, hkeysR, hdistR⟩ := extend_spec (a.file = b.file)
      (absDiff a.start b.start) (aSource.tokens.drop (a.start - k + (seedLen + k)))
      (bSource.tokens.drop (b.start - k + (seedLen + k))) (seedLen + k)
    rw [hm] at h
    obtain ⟨rfl, rfl, rfl⟩ : a.start - k = aStart ∧ b.start - k = bStart ∧
        seedLen + k + m = len := by simpa using h
    have hla := hrange.left_le
    have hlb := hrange.right_le
    simp only [length_reverse, length_take] at hka hkb
    have hleft : EqualRange aSource.tokens (a.start - k) bSource.tokens (b.start - k) k := by
      refine ⟨by omega, by omega, ?_⟩
      rw [← reverse_take_reverse_take (i := a.start) (by omega) (by omega),
        ← reverse_take_reverse_take (i := b.start) (by omega) (by omega),
        map_reverse, map_reverse, hkeys]
    have hmid : EqualRange aSource.tokens (a.start - k) bSource.tokens (b.start - k)
        (k + seedLen) := by
      refine hleft.append ?_
      rwa [Nat.sub_add_cancel (by omega), Nat.sub_add_cancel (by omega)]
    simp only [length_drop] at hma hmb
    have hright : EqualRange aSource.tokens (a.start - k + (k + seedLen)) bSource.tokens
        (b.start - k + (k + seedLen)) m := by
      rw [Nat.add_comm k seedLen]
      exact ⟨by omega, by omega, hkeysR⟩
    refine ⟨?_, by omega, ?_⟩
    · have := hmid.append hright
      rwa [Nat.add_comm k seedLen] at this
    · intro hsame
      have hnot : ¬(absDiff a.start b.start = 0 ∨ seedLen > absDiff a.start b.start) :=
        fun hc => hreject ⟨by simpa using hsame, hc⟩
      have h₁ := hdistL (by simpa using hsame) (by omega)
      have h₂ := hdistR (by simpa using hsame) h₁
      simp only [absDiff] at h₂ ⊢
      omega
  · simp at h

/-! ## Seeds -/

variable {files : List Nat} {minTokens : Nat} {xxh3_64 : List UInt8 → UInt64}

lemma file_mem_of_windowIndex {bucket : UInt64 × List Occurrence}
    (h : bucket ∈ windowIndex xxh3_64 prepared files minTokens) :
    ∀ o ∈ bucket.2, o.file ∈ files := by
  have hall : ∀ bucket ∈ windowIndex xxh3_64 prepared files minTokens,
      ∀ o ∈ bucket.2, o.file ∈ files := by
    refine foldlRecOn (motive := fun index : List (UInt64 × List Occurrence) =>
      ∀ bucket ∈ index, ∀ o ∈ bucket.2, o.file ∈ files) _ _ (by simp) ?_
    intro index hindex ho hho
    obtain ⟨file, hfile, hmem⟩ := mem_flatMap.mp hho
    have hofile : ho.2.file ∈ files := by
      simp only [fileWindows] at hmem
      split_ifs at hmem
      · simp at hmem
      · obtain ⟨hs, _, rfl⟩ := mem_map.mp hmem
        exact hfile
    refine forall_mem_alter (P := fun _ (os : List Occurrence) => ∀ o ∈ os, o.file ∈ files)
      hindex ?_ ?_
    · intro o ho'
      obtain rfl : o = ho.2 := by simpa using ho'
      exact hofile
    · intro os hos o ho'
      simp only [Option.getD_some, mem_append, mem_singleton] at ho'
      rcases ho' with ho' | rfl
      · exact hos o ho'
      · exact hofile
  exact hall bucket h

/-! ## Recorded regions -/

/-- What is known of a recorded region. -/
structure RegionOk (prepared : List PreparedFile) (files : List Nat) (minTokens : Nat)
    (r : Region) : Prop where
  aFile_mem : r.aFile ∈ files
  bFile_mem : r.bFile ∈ files
  equal : EqualRange (tokensOf prepared r.aFile) r.aStart (tokensOf prepared r.bFile) r.bStart r.len
  minTokens_le : minTokens ≤ r.len
  apart : r.aFile = r.bFile → r.len ≤ absDiff r.aStart r.bStart

lemma scanSeed_regionOk {sampled : Bool} {st : ScanState} {r : Region} (ha : a.file ∈ files)
    (hb : b.file ∈ files) (h : (scanSeed prepared minTokens sampled st a b).2 = some r) :
    RegionOk prepared files minTokens r := by
  simp only [scanSeed] at h
  split at h
  · simp at h
  · next hpass =>
    split at h
    · simp at h
    · next aStart bStart len hmatch =>
      split at h
      · simp at h
      · have hwin : windowsEqual prepared a b minTokens = true := by
          simp only [seedRejected, Bool.or_eq_true, not_or, Bool.not_eq_true,
            Bool.not_eq_false'] at hpass
          exact hpass.2
        obtain ⟨hequal, hlen, hapart⟩ := maximalMatch_spec hwin hmatch
        cases h
        exact ⟨ha, hb, hequal, hlen, hapart⟩

lemma scanSeeds_regionOk {sampled : Bool} (seeds : List (Occurrence × Occurrence)) :
    ∀ st, (∀ p ∈ seeds, p.1.file ∈ files ∧ p.2.file ∈ files) →
      ∀ r ∈ (scanSeeds prepared minTokens sampled seeds st).2,
        RegionOk prepared files minTokens r := by
  induction seeds with
  | nil => intro st _ r hr; simp [scanSeeds] at hr
  | cons seed rest ih =>
    obtain ⟨a, b⟩ := seed
    intro st hfiles r hr
    obtain ⟨ha, hb⟩ := hfiles (a, b) mem_cons_self
    simp only [scanSeeds] at hr
    split at hr
    · simp at hr
    · rcases mem_append.mp hr with hr | hr
      · exact scanSeed_regionOk ha hb (by simpa using hr)
      · exact ih _ (fun p hp => hfiles p (mem_cons_of_mem _ hp)) r hr

lemma scanPool_regionOk {r : Region} (h : r ∈ (scanPool xxh3_64 prepared files minTokens).1) :
    RegionOk prepared files minTokens r := by
  simp only [scanPool] at h
  split at h
  · simp at h
  · refine scanSeeds_regionOk _ _ ?_ r h
    intro p hp
    obtain ⟨bucket, hbucket, hseed⟩ := mem_flatMap.mp hp
    have hmem : bucket ∈ windowIndex xxh3_64 prepared files minTokens :=
      (mem_filter.mp (mem_sortBy.mp hbucket)).1
    obtain ⟨ha, hb⟩ := mem_of_mem_bucketSeeds hseed
    exact ⟨file_mem_of_windowIndex hmem _ ha, file_mem_of_windowIndex hmem _ hb⟩

open KeyedList

variable {xxh3_64 : List UInt8 → UInt64}

/-- The key under which an instance is stored in its group. -/
def instanceKey (i : CloneInstance) : InstanceKey := (i.path, i.startByte, i.endByte)

/-- The regions recorded in the shared map, each with the pool that records it. -/
def recordings (xxh3_64 : List UInt8 → UInt64) (prepared : List PreparedFile)
    (minTokens : Nat) : List (String × Region) :=
  (poolsOf prepared).flatMap fun pool =>
    (scanPool xxh3_64 prepared pool.2 minTokens).1.map (fun r => (pool.1, r))

lemma detectPools_groups (inputs : List DupInput) (prepared : List PreparedFile)
    (minTokens : Nat) :
    (detectPools xxh3_64 inputs prepared minTokens).1 =
      (recordings xxh3_64 prepared minTokens).foldl
        (fun groups pr => recordRegion inputs prepared pr.1 groups pr.2) [] := by
  have hpools : (detectPools xxh3_64 inputs prepared minTokens).1 =
      (poolsOf prepared).foldl (fun groups pool =>
        (detectPool xxh3_64 inputs prepared pool.1 pool.2 minTokens groups).1) [] :=
    (foldl_hom Prod.fst fun _ _ => rfl).symm
  rw [hpools, recordings, foldl_flatMap]
  simp only [foldl_map]
  rfl

variable {prepared : List PreparedFile} {minTokens : Nat} {pr : String × Region}

lemma recording_spec (h : pr ∈ recordings xxh3_64 prepared minTokens) :
    ∃ files, (pr.1, files) ∈ poolsOf prepared ∧
      pr.2 ∈ (scanPool xxh3_64 prepared files minTokens).1 ∧
      RegionOk prepared files minTokens pr.2 := by
  obtain ⟨pool, hpool, hr⟩ := mem_flatMap.mp h
  obtain ⟨r, hscan, rfl⟩ := mem_map.mp hr
  exact ⟨pool.2, hpool, hscan, scanPool_regionOk hscan⟩

lemma poolOf_recording (c : Corpus) (h : pr ∈ recordings xxh3_64 c.prepared minTokens) :
    c.poolOf pr.2.aFile = some pr.1 ∧ c.poolOf pr.2.bFile = some pr.1 := by
  obtain ⟨files, hpool, _, hok⟩ := recording_spec h
  exact ⟨(poolsOf_ok c.prepared).mem_pool _ hpool _ hok.aFile_mem,
    (poolsOf_ok c.prepared).mem_pool _ hpool _ hok.bFile_mem⟩

variable {r : Region}

lemma contentKey_recording {files : List Nat} (h : RegionOk prepared files minTokens r) :
    contentKey prepared r = (((tokensOf prepared r.bFile).drop r.bStart).take r.len).map exactKey ∧
      (contentKey prepared r).length = r.len := by
  refine ⟨h.equal.keys_eq, ?_⟩
  have := h.equal.left_le
  simp only [contentKey, length_map, length_take, length_drop]
  omega

/-! ## Entries -/

/-- A property of every instance a group holds, each under its own key. -/
def AllInstances (P : CloneInstance → Prop) (group : GroupAcc) : Prop :=
  ∀ entry ∈ group.instances, entry.1 = instanceKey entry.2 ∧ P entry.2

def pathsOf (group : GroupAcc) : List PathBuf := (KeyedList.keys group.instances).map Prod.fst

variable {group : GroupAcc} {inputs : List DupInput}
variable {file start len : Nat} {P : CloneInstance → Prop}

lemma allInstances_addInstance (hgroup : AllInstances P group)
    (hnew : ∀ i, cloneInstance inputs prepared file start len = some i → P i) :
    AllInstances P (addInstance inputs prepared file start len group) := by
  rw [addInstance]
  split
  · next i hi =>
    exact forall_mem_alter (P := fun key j => key = instanceKey j ∧ P j) hgroup
      ⟨rfl, hnew i hi⟩ (fun _ _ => ⟨rfl, hnew i hi⟩)
  · exact hgroup

variable {pool : String}

lemma allInstances_enterRegion (hgroup : AllInstances P group)
    (ha : ∀ i, cloneInstance inputs prepared r.aFile r.aStart r.len = some i → P i)
    (hb : ∀ i, cloneInstance inputs prepared r.bFile r.bStart r.len = some i → P i) :
    AllInstances P (enterRegion inputs prepared pool r group) := by
  refine allInstances_addInstance (allInstances_addInstance ?_ ha) hb
  split
  · exact hgroup
  · exact hgroup

@[simp] lemma format_addInstance (inputs : List DupInput) (prepared : List PreparedFile)
    (file start len : Nat) (group : GroupAcc) :
    (addInstance inputs prepared file start len group).format = group.format := by
  rw [addInstance]
  split <;> rfl

/-- The format is set by the first pool whose name is not empty. -/
lemma format_enterRegion (inputs : List DupInput) (prepared : List PreparedFile)
    (pool : String) (r : Region) (group : GroupAcc) :
    (enterRegion inputs prepared pool r group).format =
      if group.format = "" then pool else group.format := by
  simp only [enterRegion, format_addInstance]
  split <;> rfl

variable {path : PathBuf}

lemma subset_pathsOf_addInstance (h : path ∈ pathsOf group) :
    path ∈ pathsOf (addInstance inputs prepared file start len group) := by
  rw [addInstance]
  split
  · next i _ =>
    obtain ⟨key, hkey, rfl⟩ := mem_map.mp h
    exact mem_map_of_mem (mem_keys_alter.mpr (.inr hkey))
  · exact h

variable {i : CloneInstance}

lemma path_mem_addInstance (h : cloneInstance inputs prepared file start len = some i) :
    i.path ∈ pathsOf (addInstance inputs prepared file start len group) := by
  simp only [addInstance, h]
  exact mem_map.mpr ⟨instanceKey i, mem_keys_alter.mpr (.inl rfl), rfl⟩

lemma subset_pathsOf_enterRegion
    (h : path ∈ pathsOf group) : path ∈ pathsOf (enterRegion inputs prepared pool r group) := by
  refine subset_pathsOf_addInstance (subset_pathsOf_addInstance ?_)
  split
  · exact h
  · exact h

/-! ## The whole map -/

/-- What an entry of the map was made of: its format is a pool that recorded the content,
and each instance reports one side of a recording of the content. -/
structure EntryFrom (c : Corpus) (rs : List (String × Region)) (content : List ExactKey)
    (group : GroupAcc) : Prop where
  format : ∃ pr ∈ rs, contentKey c.prepared pr.2 = content ∧ group.format = pr.1
  instances : AllInstances (fun i => ∃ pr ∈ rs, contentKey c.prepared pr.2 = content ∧
    (cloneInstance c.inputs c.prepared pr.2.aFile pr.2.aStart pr.2.len = some i ∨
      cloneInstance c.inputs c.prepared pr.2.bFile pr.2.bStart pr.2.len = some i)) group

variable {rs : List (String × Region)}

lemma entryFrom_enterRegion {c : Corpus} (hpr : pr ∈ rs)
    (hformat : group.format ≠ "" →
      ∃ pr' ∈ rs, contentKey c.prepared pr'.2 = contentKey c.prepared pr.2 ∧ group.format = pr'.1)
    (hinstances : AllInstances (fun i => ∃ pr' ∈ rs,
      contentKey c.prepared pr'.2 = contentKey c.prepared pr.2 ∧
      (cloneInstance c.inputs c.prepared pr'.2.aFile pr'.2.aStart pr'.2.len = some i ∨
        cloneInstance c.inputs c.prepared pr'.2.bFile pr'.2.bStart pr'.2.len = some i)) group) :
    EntryFrom c rs (contentKey c.prepared pr.2)
      (enterRegion c.inputs c.prepared pr.1 pr.2 group) where
  format := by
    rw [format_enterRegion]
    split
    · exact ⟨pr, hpr, rfl, rfl⟩
    · next hne => exact hformat hne
  instances := allInstances_enterRegion hinstances
    (fun _ hi => ⟨pr, hpr, rfl, .inl hi⟩) (fun _ hi => ⟨pr, hpr, rfl, .inr hi⟩)

/-- The map holds nothing but what was recorded. -/
lemma mem_groups_spec (c : Corpus) (rs : List (String × Region)) :
    ∀ entry ∈ rs.foldl (fun groups pr => recordRegion c.inputs c.prepared pr.1 groups pr.2) [],
      EntryFrom c rs entry.1 entry.2 := by
  refine foldlRecOn (motive := fun groups : Groups =>
    ∀ entry ∈ groups, EntryFrom c rs entry.1 entry.2) _ _ (by simp) ?_
  intro groups hgroups pr hpr
  refine forall_mem_alter (P := EntryFrom c rs) hgroups ?_ ?_
  · exact entryFrom_enterRegion hpr (by simp) (by simp [AllInstances])
  · intro group hgroup
    exact entryFrom_enterRegion hpr (fun _ => hgroup.format) hgroup.instances

/-- The map has, under a content, an instance in a file of the given path. -/
def Held (groups : Groups) (content : List ExactKey) (path : PathBuf) : Prop :=
  ∃ group, get? content groups = some group ∧ path ∈ pathsOf group

variable {groups : Groups} {content : List ExactKey}

lemma held_recordRegion_of_held (h : Held groups content path) :
    Held (recordRegion inputs prepared pool groups r) content path := by
  obtain ⟨group, hget, hpath⟩ := h
  simp only [Held, recordRegion, get?_alter]
  split
  · next heq =>
    subst heq
    exact ⟨_, rfl, by rw [hget]; exact subset_pathsOf_enterRegion hpath⟩
  · exact ⟨group, hget, hpath⟩

lemma held_recordRegion (h : cloneInstance inputs prepared r.aFile r.aStart r.len = some i) :
    Held (recordRegion inputs prepared pool groups r) (contentKey prepared r) i.path :=
  ⟨_, get?_alter_self _ _ _, subset_pathsOf_addInstance (path_mem_addInstance h)⟩

/-- Every recording leaves the path of its first side under its content. -/
lemma held_of_mem_recordings {c : Corpus} (hpr : pr ∈ rs)
    (hi : cloneInstance c.inputs c.prepared pr.2.aFile pr.2.aStart pr.2.len = some i) :
    Held (rs.foldl (fun groups pr => recordRegion c.inputs c.prepared pr.1 groups pr.2) [])
      (contentKey c.prepared pr.2) i.path := by
  have hkeep : ∀ (rest : List (String × Region)) (groups : Groups),
      Held groups (contentKey c.prepared pr.2) i.path →
      Held (rest.foldl (fun groups pr => recordRegion c.inputs c.prepared pr.1 groups pr.2)
        groups) (contentKey c.prepared pr.2) i.path := by
    intro rest groups h
    exact foldlRecOn (motive := fun groups =>
      Held groups (contentKey c.prepared pr.2) i.path) _ _ h
      (fun _ h' _ _ => held_recordRegion_of_held h')
  obtain ⟨before, after, rfl⟩ := append_of_mem hpr
  rw [foldl_append, foldl_cons]
  exact hkeep after _ (held_recordRegion hi)

/-! ## Reported groups -/

variable {S : Type} [One S]

lemma mem_sortedInstances : i ∈ sortedInstances group ↔ ∃ key, (key, i) ∈ group.instances := by
  simp [sortedInstances]

lemma toGroup_eq_some {entry : List ExactKey × GroupAcc} {g : CloneGroup S}
    (h : toGroup entry = some g) :
    g.tokens = entry.1.length ∧ g.format = entry.2.format ∧
      g.instances = sortedInstances entry.2 := by
  simp only [toGroup] at h
  split at h
  · simp at h
  · cases h
    exact ⟨rfl, rfl, rfl⟩

lemma exists_entry_of_mem_intoSortedGroups
    {order : IterationOrder (List ExactKey × GroupAcc)} {g : CloneGroup S}
    (h : g ∈ intoSortedGroups order groups) :
    ∃ entry ∈ groups, g.tokens = entry.1.length ∧ g.format = entry.2.format ∧
      g.instances = sortedInstances entry.2 := by
  obtain ⟨entry, hentry, hg⟩ := mem_filterMap.mp (mem_sortBy.mp h)
  exact ⟨entry, (order.mem_arrange).mp hentry, toGroup_eq_some hg⟩

lemma exists_group_of_entry (order : IterationOrder (List ExactKey × GroupAcc))
    (h : (content, group) ∈ groups) (hcontent : content ≠ []) (hlen : 2 ≤ group.instances.length) :
    ∃ g : CloneGroup S, g ∈ intoSortedGroups order groups ∧
      g.instances = sortedInstances group := by
  cases hg : (toGroup (content, group) : Option (CloneGroup S)) with
  | none =>
    rw [toGroup, if_neg (by simp only [not_or, not_lt]; exact ⟨hcontent, hlen⟩)] at hg
    simp at hg
  | some g =>
    exact ⟨g, mem_sortBy.mpr
      (mem_filterMap.mpr ⟨_, (order.mem_arrange).mpr h, hg⟩), (toGroup_eq_some hg).2.2⟩

end Reposcout.Dup.Exact
