import Mathlib.Algebra.Order.Field.Rat
import Reposcout.Properties.Dup.ExactGroups
import Reposcout.Properties.Dup.Finalize

/-!
# Soundness of exact clones

A finalized exact group is what it claims to be: at least two instances, apart from each
other inside one file, each covering the group's number of consecutive tokens of its file,
and all of them the same kinds and texts.

The map carries the equality of the contents (`EntryFrom`), the finalization the
disjointness (`pruneGroup_spec`); the token layout of the files is needed only to see that
an instance is not empty in bytes, which is when overlap is decided by bytes.
-/

/-!
## Pool isolation of exact clones

Candidate pools are scanned one by one, but all of them write into one map keyed by the
token content alone.  Two pools that repeat the same content therefore end up in one group,
whose format is the name of whichever pool came first.

`pools_isolated_iff` is the exact extent of the defect: the groups stay inside their pools
if and only if no two pools, each scanned on its own, repeat the same content.  Containment
suppression cannot hide a mixed group, because it drops a group only in favour of one over
the same files.
-/

namespace Reposcout.Dup.Exact

open List Option KeyedList

variable {S : Type}

/-- All instances lie in files of one and the same pool, and the format is its name. -/
def InOnePool (c : Corpus) (g : CloneGroup S) : Prop :=
  ∃ pool, g.format = pool ∧
    ∀ i ∈ g.instances, ∃ file, c.pathOf file = some i.path ∧ c.poolOf file = some pool

/-- The contents a pool repeats when it is scanned on its own. -/
def repeatedContents (xxh3_64 : List UInt8 → UInt64) (prepared : List PreparedFile)
    (files : List Nat) (minTokens : Nat) : List (List ExactKey) :=
  (scanPool xxh3_64 prepared files minTokens).1.map (contentKey prepared)

/-- No two pools repeat the same content. -/
def ContentsDisjoint (xxh3_64 : List UInt8 → UInt64) (prepared : List PreparedFile)
    (minTokens : Nat) : Prop :=
  ∀ p ∈ poolsOf prepared, ∀ q ∈ poolsOf prepared, p.1 ≠ q.1 →
    List.Disjoint (repeatedContents xxh3_64 prepared p.2 minTokens)
      (repeatedContents xxh3_64 prepared q.2 minTokens)

variable {xxh3_64 : List UInt8 → UInt64} {minTokens : Nat}

lemma pool_eq_of_contentsDisjoint {prepared : List PreparedFile}
    (h : ContentsDisjoint xxh3_64 prepared minTokens) {pr pr' : String × Region}
    (hpr : pr ∈ recordings xxh3_64 prepared minTokens)
    (hpr' : pr' ∈ recordings xxh3_64 prepared minTokens)
    (heq : contentKey prepared pr.2 = contentKey prepared pr'.2) : pr.1 = pr'.1 := by
  obtain ⟨files, hpool, hscan, _⟩ := recording_spec hpr
  obtain ⟨files', hpool', hscan', _⟩ := recording_spec hpr'
  by_contra hne
  have hmem : contentKey prepared pr.2 ∈ repeatedContents xxh3_64 prepared files minTokens :=
    mem_map_of_mem hscan
  have hmem' : contentKey prepared pr.2 ∈ repeatedContents xxh3_64 prepared files' minTokens :=
    heq ▸ mem_map_of_mem hscan'
  exact h _ hpool _ hpool' hne hmem hmem'

variable {c : Corpus} {group : GroupAcc} {g : CloneGroup S}

lemma inOnePool_of_contentsDisjoint (h : ContentsDisjoint xxh3_64 c.prepared minTokens)
    {content : List ExactKey}
    (hentry : EntryFrom c (recordings xxh3_64 c.prepared minTokens) content group)
    (hformat : g.format = group.format) (hinst : g.instances = sortedInstances group) :
    InOnePool c g := by
  obtain ⟨pr, hpr, hkey, hfmt⟩ := hentry.format
  refine ⟨pr.1, hformat.trans hfmt, ?_⟩
  intro i hi
  rw [hinst] at hi
  obtain ⟨key, hmem⟩ := mem_sortedInstances.mp hi
  obtain ⟨_, pr', hpr', hkey', hside⟩ := hentry.instances _ hmem
  have hpool : pr'.1 = pr.1 :=
    pool_eq_of_contentsDisjoint h hpr' hpr (hkey'.trans hkey.symm)
  obtain ⟨ha, hb⟩ := poolOf_recording c hpr'
  rcases hside with hside | hside
  · exact ⟨_, c.pathOf_of_cloneInstance hside, hpool ▸ ha⟩
  · exact ⟨_, c.pathOf_of_cloneInstance hside, hpool ▸ hb⟩

/-- A content that two pools repeat has an entry with an instance in a file of each. -/
lemma exists_mixed_entry (hmin : 1 ≤ minTokens) {pr pr' : String × Region}
    (hpr : pr ∈ recordings xxh3_64 c.prepared minTokens)
    (hpr' : pr' ∈ recordings xxh3_64 c.prepared minTokens)
    (heq : contentKey c.prepared pr.2 = contentKey c.prepared pr'.2) :
    ∃ entry ∈ (recordings xxh3_64 c.prepared minTokens).foldl
        (fun groups pr => recordRegion c.inputs c.prepared pr.1 groups pr.2) [],
      entry.1 ≠ [] ∧ ∃ path ∈ pathsOf entry.2, ∃ path' ∈ pathsOf entry.2,
        c.pathOf pr.2.aFile = some path ∧ c.pathOf pr'.2.aFile = some path' := by
  obtain ⟨_, _, _, hok⟩ := recording_spec hpr
  obtain ⟨_, _, _, hok'⟩ := recording_spec hpr'
  obtain ⟨i, hi⟩ := c.exists_cloneInstance (by have := hok.minTokens_le; omega) hok.equal.left_le
  obtain ⟨j, hj⟩ := c.exists_cloneInstance (by have := hok'.minTokens_le; omega) hok'.equal.left_le
  obtain ⟨group, hget, hpath⟩ := held_of_mem_recordings hpr hi
  obtain ⟨group', hget', hpath'⟩ := held_of_mem_recordings hpr' hj
  rw [← heq, hget] at hget'
  obtain rfl := some.inj hget'
  refine ⟨_, mem_of_get? hget, ?_, i.path, hpath, j.path, hpath',
    c.pathOf_of_cloneInstance hi, c.pathOf_of_cloneInstance hj⟩
  intro hnil
  have hlen := (contentKey_recording hok).2
  have hle := hok.minTokens_le
  simp only at hnil
  rw [hnil, length_nil] at hlen
  omega

lemma two_le_length_of_paths {path path' : PathBuf} (h : path ∈ pathsOf group)
    (h' : path' ∈ pathsOf group) (hne : path ≠ path') : 2 ≤ group.instances.length := by
  simp only [pathsOf, KeyedList.keys, List.map_map] at h h'
  rcases hl : group.instances with _ | ⟨entry, _ | ⟨other, rest⟩⟩
  · simp [hl] at h
  · simp only [hl, map_cons, map_nil, mem_singleton] at h h'
    exact absurd (h.trans h'.symm) hne
  · simp

lemma exists_instance_of_pathsOf {P : CloneInstance → Prop} (hall : AllInstances P group)
    {path : PathBuf} (h : path ∈ pathsOf group) : ∃ i ∈ sortedInstances group, i.path = path := by
  simp only [pathsOf, KeyedList.keys, List.map_map, List.mem_map, Function.comp_apply] at h
  obtain ⟨entry, hentry, rfl⟩ := h
  refine ⟨entry.2, mem_sortedInstances.mpr ⟨entry.1, hentry⟩, ?_⟩
  rw [(hall entry hentry).1, instanceKey]

/-- A group over the files of two pools is in no single pool, and neither is any group kept
in its place. -/
lemma not_inOnePool_of_paths {i j : CloneInstance} (hi : i ∈ g.instances) (hj : j ∈ g.instances)
    {file file' : Nat} {pool pool' : String} (hfile : c.pathOf file = some i.path)
    (hfile' : c.pathOf file' = some j.path) (hpool : c.poolOf file = some pool)
    (hpool' : c.poolOf file' = some pool') (hne : pool ≠ pool') : ¬ InOnePool c g := by
  rintro ⟨pool₀, _, hall⟩
  obtain ⟨f, hf, hfp⟩ := hall i hi
  obtain ⟨f', hf', hfp'⟩ := hall j hj
  obtain rfl := c.pathOf_injective hf hfile
  obtain rfl := c.pathOf_injective hf' hfile'
  exact hne (some.inj (hpool.symm.trans (hfp.trans (hfp'.symm.trans hpool'))))

/-- The groups reported for a corpus are what containment suppression keeps of its map. -/
lemma detectPreparedBounded_groups [One S] (xxh3_64 : List UInt8 → UInt64)
    (order : IterationOrder (List ExactKey × GroupAcc)) (c : Corpus)
    (hmin : 1 ≤ minTokens) :
    (detectPreparedBounded (S := S) xxh3_64 order c.inputs c.prepared minTokens).groups =
      suppressContained (intoSortedGroups order
        ((recordings xxh3_64 c.prepared minTokens).foldl
          (fun groups pr => recordRegion c.inputs c.prepared pr.1 groups pr.2) [])) := by
  rw [← detectPools_groups, detectPreparedBounded]
  split
  · next h =>
    have hnil : c.prepared = [] := h.resolve_left (by omega)
    have harr : order.arrange [] = [] := (order.perm []).eq_nil
    rw [hnil]
    simp [detectPools, poolsOf, sortBy, intoSortedGroups, harr, suppressContained]
  · rfl

/-- Pools that repeat different contents are reported apart. -/
lemma inOnePool_of_mem_groups [One S]
    {order : IterationOrder (List ExactKey × GroupAcc)} (hmin : 1 ≤ minTokens)
    (hdisj : ContentsDisjoint xxh3_64 c.prepared minTokens)
    (hg : g ∈ (detectPreparedBounded xxh3_64 order c.inputs c.prepared minTokens).groups) :
    InOnePool c g := by
  rw [detectPreparedBounded_groups _ _ _ hmin] at hg
  obtain ⟨entry, hentry, _, hformat, hinst⟩ :=
    exists_entry_of_mem_intoSortedGroups (mem_of_mem_suppressContained hg)
  exact inOnePool_of_contentsDisjoint hdisj (mem_groups_spec c _ entry hentry) hformat hinst

lemma exists_group_not_inOnePool [One S]
    (order : IterationOrder (List ExactKey × GroupAcc)) (hmin : 1 ≤ minTokens)
    {p q : String × List Nat} (hp : p ∈ poolsOf c.prepared) (hq : q ∈ poolsOf c.prepared)
    (hne : p.1 ≠ q.1) {content : List ExactKey}
    (hcp : content ∈ repeatedContents xxh3_64 c.prepared p.2 minTokens)
    (hcq : content ∈ repeatedContents xxh3_64 c.prepared q.2 minTokens) :
    ∃ g ∈ (detectPreparedBounded (S := S) xxh3_64 order c.inputs c.prepared minTokens).groups,
      ¬ InOnePool c g := by
  rw [detectPreparedBounded_groups _ _ _ hmin]
  obtain ⟨r, hr, rfl⟩ := mem_map.mp hcp
  obtain ⟨r', hr', hkey⟩ := mem_map.mp hcq
  have hpr : (p.1, r) ∈ recordings xxh3_64 c.prepared minTokens :=
    mem_flatMap.mpr ⟨p, hp, mem_map_of_mem hr⟩
  have hpr' : (q.1, r') ∈ recordings xxh3_64 c.prepared minTokens :=
    mem_flatMap.mpr ⟨q, hq, mem_map_of_mem hr'⟩
  obtain ⟨entry, hentry, hnonempty, path, hpath, path', hpath', hfile, hfile'⟩ :=
    exists_mixed_entry hmin hpr hpr' hkey.symm
  have hpool := (poolOf_recording c hpr).1
  have hpool' := (poolOf_recording c hpr').1
  have hpathne : path ≠ path' := by
    rintro rfl
    rw [c.pathOf_injective hfile hfile'] at hpool
    exact hne (some.inj (hpool.symm.trans hpool'))
  -- The mixed entry is reported, and whatever is kept in its place is mixed too.
  obtain ⟨g, hg, hinst⟩ := exists_group_of_entry (S := S) order hentry hnonempty
    (two_le_length_of_paths hpath hpath' hpathne)
  obtain ⟨g', hg', hcopy⟩ := exists_suppressContained hg
  have hallI := (mem_groups_spec c _ _ hentry).instances
  obtain ⟨i, hi, rfl⟩ := exists_instance_of_pathsOf hallI hpath
  obtain ⟨j, hj, rfl⟩ := exists_instance_of_pathsOf hallI hpath'
  rw [← hinst] at hi hj
  obtain ⟨i', hi', hip⟩ := exists_instance_of_copySet hcopy hi
  obtain ⟨j', hj', hjp⟩ := exists_instance_of_copySet hcopy hj
  rw [← hip] at hfile
  rw [← hjp] at hfile'
  exact ⟨g', hg', not_inOnePool_of_paths hi' hj' hfile hfile' hpool hpool' hne⟩

/-- **Extent of pool isolation.**  The reported groups stay inside their pools exactly when
no two pools, each scanned on its own, repeat the same content. -/
theorem pools_isolated_iff [One S] (xxh3_64 : List UInt8 → UInt64)
    (order : KeyedList.IterationOrder (List ExactKey × GroupAcc)) (c : Corpus)
    (minTokens : Nat) (hmin : 1 ≤ minTokens) :
    (∀ g ∈ (detectPreparedBounded (S := S) xxh3_64 order c.inputs c.prepared minTokens).groups,
        InOnePool c g) ↔
      ContentsDisjoint xxh3_64 c.prepared minTokens := by
  constructor
  · intro hall p hp q hq hne content hcp hcq
    obtain ⟨g, hg, hnot⟩ := exists_group_not_inOnePool (S := S) order hmin hp hq hne hcp hcq
    exact hnot (hall g hg)
  · intro hdisj g hg
    exact inOnePool_of_mem_groups hmin hdisj hg

/-- Two Rust files and two JavaScript files, all four with the statement `a=b;`. -/
def sharedStatement : Corpus :=
  Corpus.prepare characterFrontend .exact
    [⟨⟨["a.rs"]⟩, "a=b;"⟩, ⟨⟨["b.rs"]⟩, "a=b;"⟩, ⟨⟨["c.js"]⟩, "a=b;"⟩, ⟨⟨["d.js"]⟩, "a=b;"⟩]
    (by decide)

/-- A Rust and a JavaScript pool that repeat different statements. -/
def separateStatements : Corpus :=
  Corpus.prepare characterFrontend .exact
    [⟨⟨["a.rs"]⟩, "a=b;"⟩, ⟨⟨["b.rs"]⟩, "a=b;"⟩, ⟨⟨["c.js"]⟩, "c=d;"⟩, ⟨⟨["d.js"]⟩, "c=d;"⟩]
    (by decide)

theorem pools_isolated_iff_separateStatements : (1 : Nat) ≤ 4 ∧
      ((∀ g ∈ (detectPreparedBounded (S := ℚ) (fun _ => 0) (.insertion _)
          separateStatements.inputs separateStatements.prepared 4).groups,
          InOnePool separateStatements g) ↔
        ContentsDisjoint (fun _ => 0) separateStatements.prepared 4) :=
  ⟨by decide, pools_isolated_iff (fun _ => 0) (.insertion _) separateStatements 4 (by decide)⟩

/-- One group spans both pools of `sharedStatement`. -/
theorem not_pools_isolated : ¬ ∀ (xxh3_64 : List UInt8 → UInt64)
        (order : KeyedList.IterationOrder (List ExactKey × GroupAcc)) (c : Corpus)
        (minTokens : Nat), 1 ≤ minTokens →
        ∀ g ∈ (detectPreparedBounded (S := ℚ) xxh3_64 order c.inputs c.prepared
          minTokens).groups, InOnePool c g := by
  intro h
  have hrust : ("Rust", [0, 1]) ∈ poolsOf sharedStatement.prepared := by decide +kernel
  have hjs : ("JavaScript", [2, 3]) ∈ poolsOf sharedStatement.prepared := by decide +kernel
  have hcontent : [⟨.identifier, "a"⟩, ⟨.operator, "="⟩, ⟨.identifier, "b"⟩, ⟨.punctuation, ";"⟩] ∈
        repeatedContents (fun _ => 0) sharedStatement.prepared [0, 1] 4 ∧
      [⟨.identifier, "a"⟩, ⟨.operator, "="⟩, ⟨.identifier, "b"⟩, ⟨.punctuation, ";"⟩] ∈
        repeatedContents (fun _ => 0) sharedStatement.prepared [2, 3] 4 := by
    decide +kernel
  obtain ⟨g, hg, hnot⟩ := exists_group_not_inOnePool (S := ℚ) (.insertion _) (by decide) hrust hjs
    (by decide) hcontent.1 hcontent.2
  exact hnot (h _ _ _ _ (by decide) g hg)

variable {S : Type}

/-- Tokens with non-empty byte ranges in increasing order without overlap. -/
structure WellSpaced (tokens : List Token) : Prop where
  nonempty : ∀ t ∈ tokens, t.startByte < t.endByte
  increasing : tokens.Pairwise (fun s t => s.endByte ≤ t.startByte)

/-- The instance covers exactly the consecutive tokens of its file that have the given
content, from the first byte of the first to the last byte of the last. -/
def CoversContent (c : Corpus) (i : CloneInstance) (content : List ExactKey) : Prop :=
  ∃ file start first last, c.pathOf file = some i.path ∧
    i.startToken = start + 1 ∧ i.endToken = start + content.length ∧
    (((tokensOf c.prepared file).drop start).take content.length).map exactKey = content ∧
    (tokensOf c.prepared file)[start]? = some first ∧
    (tokensOf c.prepared file)[start + content.length - 1]? = some last ∧
    i.startByte = first.startByte ∧ i.endByte = last.endByte

variable {c : Corpus} {content : List ExactKey}

lemma coversContent_of_cloneInstance {i : CloneInstance} {file start len : Nat}
    (hi : cloneInstance c.inputs c.prepared file start len = some i)
    (hcontent : content = (((tokensOf c.prepared file).drop start).take len).map exactKey)
    (hlen : content.length = len) : CoversContent c i content := by
  have hpath := c.pathOf_of_cloneInstance hi
  obtain ⟨source, first, last, input, hsource, hfirst, hlast, _, rfl⟩ :=
    cloneInstance_eq_some.mp hi
  have htokens : tokensOf c.prepared file = source.tokens := by simp [tokensOf, hsource]
  refine ⟨file, start, first, last, hpath, rfl, by rw [hlen], by rw [hlen, ← hcontent], ?_, ?_,
    rfl, rfl⟩
  · rw [htokens, hfirst]
  · rw [htokens, hlen, hlast]

lemma CoversContent.bytes_lt {i : CloneInstance}
    (h : CoversContent c i content) (hne : content ≠ [])
    (hspaced : ∀ source ∈ c.prepared, WellSpaced source.tokens) : i.startByte < i.endByte := by
  obtain ⟨file, start, first, last, _, _, _, _, hfirst, hlast, hs, he⟩ := h
  have hlen : 0 < content.length := length_pos_iff.mpr hne
  have hwell : WellSpaced (tokensOf c.prepared file) := by
    cases hsource : c.prepared[file]? with
    | none => exact ⟨by simp [tokensOf, hsource], by simp [tokensOf, hsource]⟩
    | some source =>
      simpa [tokensOf, hsource] using hspaced source (mem_of_getElem? hsource)
  obtain ⟨hlt, rfl⟩ := List.getElem?_eq_some_iff.mp hfirst
  obtain ⟨hlt', rfl⟩ := List.getElem?_eq_some_iff.mp hlast
  rw [hs, he]
  by_cases hone : content.length = 1
  · have hidx : start + content.length - 1 = start := by omega
    simp only [hidx]
    exact hwell.nonempty _ (getElem_mem hlt)
  · have hbetween := pairwise_iff_getElem.mp hwell.increasing start
      (start + content.length - 1) hlt hlt' (by omega)
    have hfirst' := hwell.nonempty _ (getElem_mem hlt)
    have hlast' := hwell.nonempty _ (getElem_mem hlt')
    omega

lemma coversContent_of_entry {xxh3_64 : List UInt8 → UInt64} {minTokens : Nat} {group : GroupAcc}
    (h : EntryFrom c (recordings xxh3_64 c.prepared minTokens) content group) :
    minTokens ≤ content.length ∧ ∀ i ∈ sortedInstances group, CoversContent c i content := by
  constructor
  · obtain ⟨pr, hpr, rfl, _⟩ := h.format
    obtain ⟨_, _, _, hok⟩ := recording_spec hpr
    rw [(contentKey_recording hok).2]
    exact hok.minTokens_le
  · intro i hi
    obtain ⟨key, hmem⟩ := mem_sortedInstances.mp hi
    obtain ⟨_, pr, hpr, rfl, hside⟩ := h.instances _ hmem
    obtain ⟨_, _, _, hok⟩ := recording_spec hpr
    obtain ⟨hkeys, hlen⟩ := contentKey_recording hok
    rcases hside with hside | hside
    · exact coversContent_of_cloneInstance hside rfl hlen
    · exact coversContent_of_cloneInstance hside hkeys hlen

/-- **Soundness of exact groups.** -/
theorem exact_sound [One S] (xxh3_64 : List UInt8 → UInt64)
    (order : KeyedList.IterationOrder (List ExactKey × GroupAcc)) (c : Corpus)
    (minTokens minLines : Nat) (hmin : 1 ≤ minTokens)
    (hspaced : ∀ source ∈ c.prepared, WellSpaced source.tokens) :
    ∀ g ∈ finalize (detectPreparedBounded (S := S) xxh3_64 order c.inputs c.prepared
        minTokens).groups minLines,
      2 ≤ g.instances.length ∧
      g.instances.Pairwise (fun a b => a.path = b.path →
        a.endByte ≤ b.startByte ∨ b.endByte ≤ a.startByte) ∧
      minTokens ≤ g.tokens ∧
      ∃ content : List ExactKey, content.length = g.tokens ∧
        ∀ i ∈ g.instances, CoversContent c i content := by
  intro g hg
  obtain ⟨original, horiginal, hprune⟩ := exists_of_mem_finalize hg
  rw [detectPreparedBounded_groups _ _ _ hmin] at horiginal
  obtain ⟨entry, hentry, htokens, _, hinst⟩ :=
    exists_entry_of_mem_intoSortedGroups (mem_of_mem_suppressContained horiginal)
  obtain ⟨hlen, hcovers⟩ := coversContent_of_entry (mem_groups_spec c _ entry hentry)
  obtain ⟨hptokens, _, _, htwo, hsub, hpair⟩ := pruneGroup_spec hprune
  have hcovers' : ∀ i ∈ g.instances, CoversContent c i entry.1 := fun i hi =>
    hcovers i (hinst ▸ hsub i hi)
  have hne : entry.1 ≠ [] := ne_nil_of_length_pos (by omega)
  refine ⟨htwo, ?_, by omega, entry.1, by omega, hcovers'⟩
  refine hpair.imp_of_mem ?_
  intro a b ha hb hover hpath
  exact bytes_apart hover hpath ((hcovers' a ha).bytes_lt hne hspaced)
    ((hcovers' b hb).bytes_lt hne hspaced)

theorem exact_sound_sharedStatement :
    (1 : Nat) ≤ 4 ∧ (∀ source ∈ sharedStatement.prepared, WellSpaced source.tokens) ∧
      ∀ g ∈ finalize (detectPreparedBounded (S := ℚ) (fun _ => 0) (.insertion _)
          sharedStatement.inputs sharedStatement.prepared 4).groups 1,
        2 ≤ g.instances.length ∧
        g.instances.Pairwise (fun a b => a.path = b.path →
          a.endByte ≤ b.startByte ∨ b.endByte ≤ a.startByte) ∧
        4 ≤ g.tokens ∧
        ∃ content : List ExactKey, content.length = g.tokens ∧
          ∀ i ∈ g.instances, CoversContent sharedStatement i content := by
  have hspaced : ∀ source ∈ sharedStatement.prepared, WellSpaced source.tokens := by
    have hdecided : ∀ source ∈ sharedStatement.prepared,
        (∀ t ∈ source.tokens, t.startByte < t.endByte) ∧
          source.tokens.Pairwise (fun s t => s.endByte ≤ t.startByte) := by
      decide +kernel
    exact fun source h => ⟨(hdecided source h).1, (hdecided source h).2⟩
  exact ⟨by decide, hspaced,
    exact_sound (fun _ => 0) (.insertion _) sharedStatement 4 1 (by decide) hspaced⟩

end Reposcout.Dup.Exact
