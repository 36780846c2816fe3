import Mathlib.Data.List.Zip
import Reposcout.Properties.Dup.AlphaHashes
import Reposcout.Properties.Dup.CandidatePlan

/-!
# A rename keeps the bucket

Two windows whose tokens are accepted pair by pair, from an empty mapping, agree in the shapes of
their tokens and in the distances between their identifiers.  So they are indexed under one
fingerprint, and are candidates for each other.
-/

namespace Reposcout.Dup.Fuzzy

open List Option KeyedList

/-! ## Accepted windows -/

section

variable (S : Type) [Score S]

def acceptPairs (pairs : List (Token × Token)) (mapping : Bijection) : Option Bijection :=
  pairs.foldlM (fun m pair => (acceptPair (S := S) pair.1 pair.2 m).map Prod.snd) mapping

lemma holds_of_acceptPairs {pairs done : List (Token × Token)} {m m' : Bijection}
    (hm : m.Holds done) (h : acceptPairs S pairs m = some m') :
    m'.Holds (pairs.reverse ++ done) := by
  induction pairs generalizing done m with
  | nil =>
    obtain rfl : m = m' := some.inj h
    exact hm
  | cons pair rest ih =>
    rw [acceptPairs, foldlM_cons, bind_eq_bind, bind_eq_some_iff] at h
    obtain ⟨mapping, hpair, hrest⟩ := h
    obtain ⟨⟨credit, extended⟩, haccept, rfl⟩ := map_eq_some_iff.mp hpair
    rw [reverse_cons, append_assoc, singleton_append]
    exact ih (holds_of_acceptPair hm haccept) hrest

lemma renamedPairs_of_acceptPairs {pairs : List (Token × Token)} {m' : Bijection}
    (h : acceptPairs S pairs Bijection.empty = some m') : RenamedPairs pairs := by
  have hholds := holds_of_acceptPairs S (Bijection.holds_nil Bijection.empty) h
  rw [append_nil] at hholds
  exact (hholds.of_perm (reverse_perm pairs).symm).renamedPairs

end

/-! ## Shapes -/

lemma shapeHash_eq_of_shapeEq (xxh3_64 : List UInt8 → UInt64) {t other : Token}
    (h : t.shapeEq other = true) : t.shapeHash xxh3_64 = other.shapeHash xxh3_64 := by
  unfold Token.shapeEq at h
  split at h
  · next ht hother => rw [Token.shapeHash, Token.shapeHash, ht, hother]
  · next a b ht hother =>
    rw [Token.shapeHash, Token.shapeHash, ht, hother, of_decide_eq_true h]
  · obtain ⟨hkind, htext⟩ := Token.exactEq_iff.mp h
    rw [Token.shapeHash, Token.shapeHash, hkind, htext]

structure RenamedWindows (left right : List Token) (i j width : ℕ) : Prop where
  left_le : i + width ≤ left.length
  right_le : j + width ≤ right.length
  renamed : RenamedPairs ((RollingHash.window left width i).zip (RollingHash.window right width j))

variable {k : ℕ}

open RollingHash

lemma getElem?_window (tokens : List Token) (start : ℕ) {width : ℕ} (hk : k < width) :
    (window tokens width start)[k]? = tokens[start + k]? := by
  rw [window, getElem?_take_of_lt hk, getElem?_drop]

variable {left right : List Token} {i j width : ℕ}

section

variable (h : RenamedWindows left right i j width)

include h

/-- The tokens at one place of the two windows. -/
lemma RenamedWindows.pair_mem (hk : k < width) :
    ∃ x y, left[i + k]? = some x ∧ right[j + k]? = some y ∧
      (x, y) ∈ (window left width i).zip (window right width j) := by
  have hl := h.left_le
  have hr := h.right_le
  have hx := getElem?_eq_getElem (show i + k < left.length by omega)
  have hy := getElem?_eq_getElem (show j + k < right.length by omega)
  refine ⟨_, _, hx, hy, mem_iff_getElem?.mpr ⟨k, getElem?_zip_eq_some.mpr ⟨?_, ?_⟩⟩⟩
  · rw [getElem?_window _ _ hk]
    exact hx
  · rw [getElem?_window _ _ hk]
    exact hy

lemma RenamedWindows.symm :
    RenamedWindows right left j i width where
  left_le := h.right_le
  right_le := h.left_le
  renamed := by
    have hswap := h.renamed.swap
    rw [← zip_swap]
    exact hswap

/-! ## Distances -/

/-- The same identifier at two places of one window stands at them in the other. -/
lemma RenamedWindows.same_name {p q : ℕ}
    (hp : p < width) (hq : q < width) {name : String} (hnameP : NameAt left (i + p) name)
    (hnameQ : NameAt left (i + q) name) :
    ∃ other, NameAt right (j + p) other ∧ NameAt right (j + q) other := by
  obtain ⟨x, y, hx, hy, hxy⟩ := h.pair_mem hp
  obtain ⟨x', y', hx', hy', hxy'⟩ := h.pair_mem hq
  obtain ⟨t, ht, htkind, httext⟩ := hnameP
  obtain ⟨t', ht', htkind', httext'⟩ := hnameQ
  cases ht.symm.trans hx
  cases ht'.symm.trans hx'
  have hsame := (h.renamed.bijective _ hxy _ hxy' htkind htkind').mp (httext.trans httext'.symm)
  refine ⟨y.text, ⟨y, hy, ?_, rfl⟩, ⟨y', hy', ?_, hsame.symm⟩⟩
  · exact (kind_eq_of_shapeEq (h.renamed.shape _ hxy)).symm.trans htkind
  · exact (kind_eq_of_shapeEq (h.renamed.shape _ hxy')).symm.trans htkind'

/-- Previous occurrences inside the windows correspond. -/
lemma RenamedWindows.prior {p q : ℕ} (hq : q < width)
    (hprior : Prior left (i + p) (i + q)) : Prior right (j + p) (j + q) := by
  obtain ⟨hlt, name, hnameP, hnameQ, hnone⟩ := hprior
  obtain ⟨other, hotherP, hotherQ⟩ := h.same_name (p := p) (by omega) hq hnameP hnameQ
  refine ⟨by omega, other, hotherP, hotherQ, fun m hlow hhigh hm => ?_⟩
  obtain ⟨k, rfl⟩ : ∃ k, m = j + k := ⟨m - j, by omega⟩
  obtain ⟨back, hbackK, hbackQ⟩ := h.symm.same_name (p := k) (by omega) hq hm hotherQ
  obtain rfl := hbackQ.eq hnameQ
  exact hnone (i + k) (by omega) (by omega) hbackK

end

lemma RenamedWindows.component_eq (xxh3_64 : List UInt8 → UInt64)
    (h : RenamedWindows left right i j width) (hk : k < width) :
    component xxh3_64 left (i + k) i = component xxh3_64 right (j + k) j := by
  obtain ⟨x, y, hx, hy, hxy⟩ := h.pair_mem hk
  have hshape := h.renamed.shape _ hxy
  have hkinds : x.kind = y.kind := kind_eq_of_shapeEq hshape
  by_cases hkind : x.kind = .identifier
  · by_cases hprior : ∃ p, Prior left (i + p) (i + k)
    · obtain ⟨p, hp⟩ := hprior
      rw [component_eq_of_prior xxh3_64 hp (Nat.le_add_right i p),
        component_eq_of_prior xxh3_64 (h.prior hk hp) (Nat.le_add_right j p),
        Nat.add_sub_add_left, Nat.add_sub_add_left]
    · have hnone : ∀ p, ¬Prior right (j + p) (j + k) := fun p hp =>
        hprior ⟨p, h.symm.prior hk hp⟩
      rw [component_eq_zero xxh3_64 ⟨y, hy, hkinds ▸ hkind, rfl⟩ fun m hm => ?_,
        component_eq_zero xxh3_64 ⟨x, hx, hkind, rfl⟩ fun m hm => ?_]
      · by_contra hle
        obtain ⟨p, rfl⟩ := Nat.exists_eq_add_of_le (not_lt.mp hle)
        exact hprior ⟨p, hm⟩
      · by_contra hle
        obtain ⟨p, rfl⟩ := Nat.exists_eq_add_of_le (not_lt.mp hle)
        exact hnone p hm
  · rw [component_eq_shapeHash xxh3_64 hx hkind, component_eq_shapeHash xxh3_64 hy (hkinds ▸ hkind)]
    exact shapeHash_eq_of_shapeEq xxh3_64 hshape

/-! ## Fingerprints -/

/-- The fingerprints under which the windows of a file are indexed. -/
def fingerprints (xxh3_64 : List UInt8 → UInt64) (tokens : List Token) (width : ℕ) :
    List Fingerprint :=
  (rolledHashes (tokens.map (Token.shapeHash xxh3_64)) width).zip
    (alphaWindowHashes xxh3_64 tokens width)

lemma fingerprints_zero (xxh3_64 : List UInt8 → UInt64) (tokens : List Token) :
    fingerprints xxh3_64 tokens 0 = [] := by
  rw [fingerprints, alphaWindowHashes, if_pos (.inl rfl), zip_nil_right]

lemma getElem?_fingerprints (xxh3_64 : List UInt8 → UInt64) {tokens : List Token}
    {width start : ℕ} (hpos : 0 < width) (h : start + width ≤ tokens.length) :
    (fingerprints xxh3_64 tokens width)[start]? =
      some (windowHash ((window tokens width start).map (Token.shapeHash xxh3_64)),
        alphaHash xxh3_64 tokens width start) := by
  have hrange : (List.range (tokens.length - width + 1))[start]? = some start :=
    getElem?_range (by omega)
  rw [fingerprints, getElem?_zip_eq_some]
  refine ⟨?_, ?_⟩
  · rw [rolledHashes_eq hpos (by rw [length_map]; omega), length_map, getElem?_map,
      hrange, map_some, window, ← map_drop, ← map_take]
    rfl
  · rw [alphaWindowHashes_eq xxh3_64 tokens hpos (by omega), getElem?_map, hrange]
    rfl

lemma RenamedWindows.fingerprint_eq (xxh3_64 : List UInt8 → UInt64)
    (h : RenamedWindows left right i j width) :
    (fingerprints xxh3_64 left width)[i]? = (fingerprints xxh3_64 right width)[j]? := by
  rcases Nat.eq_zero_or_pos width with rfl | hpos
  · rw [fingerprints_zero, fingerprints_zero, getElem?_nil, getElem?_nil]
  · rw [getElem?_fingerprints xxh3_64 hpos h.left_le, getElem?_fingerprints xxh3_64 hpos h.right_le]
    have hshapes : (window left width i).map (Token.shapeHash xxh3_64) =
        (window right width j).map (Token.shapeHash xxh3_64) := by
      refine ext_getElem? fun k => ?_
      rw [getElem?_map, getElem?_map]
      by_cases hk : k < width
      · obtain ⟨x, y, hx, hy, hxy⟩ := h.pair_mem hk
        rw [getElem?_window _ _ hk, getElem?_window _ _ hk, hx, hy, map_some,
          map_some, shapeHash_eq_of_shapeEq xxh3_64 (h.renamed.shape _ hxy)]
      · rw [getElem?_eq_none (by rw [window, length_take]; omega),
          getElem?_eq_none (by rw [window, length_take]; omega)]
    have halpha : alphaHash xxh3_64 left width i = alphaHash xxh3_64 right width j := by
      have hcomponents : components xxh3_64 left width i = components xxh3_64 right width j := by
        rw [components, components, range'_eq_map_range, range'_eq_map_range,
          List.map_map, List.map_map]
        refine map_congr_left fun k hk => ?_
        exact h.component_eq xxh3_64 (mem_range.mp hk)
      rw [alphaHash, alphaHash, hcomponents]
    rw [hshapes, halpha]

/-! ## Buckets -/

def fileEntries (xxh3_64 : List UInt8 → UInt64) (prepared : List PreparedFile) (minTokens file : ℕ) :
    List (Fingerprint × Occurrence) :=
  if (tokensOf prepared file).length < minTokens then []
  else (fingerprints xxh3_64 (tokensOf prepared file) minTokens).zipIdx.map fun entry =>
    (entry.1, ⟨file, entry.2⟩)

variable {xxh3_64 : List UInt8 → UInt64} {prepared : List PreparedFile} {minTokens : ℕ}

lemma mem_fileEntries {file : ℕ} {entry : Fingerprint × Occurrence} :
    entry ∈ fileEntries xxh3_64 prepared minTokens file ↔
      minTokens ≤ (tokensOf prepared file).length ∧ entry.2.file = file ∧
        (fingerprints xxh3_64 (tokensOf prepared file) minTokens)[entry.2.start]? =
          some entry.1 := by
  unfold fileEntries
  split_ifs with hshort
  · exact ⟨fun h => (not_mem_nil h).elim, fun h => absurd h.1 (by omega)⟩
  · rw [List.mem_map]
    constructor
    · rintro ⟨⟨fingerprint, start⟩, hentry, rfl⟩
      exact ⟨by omega, rfl, mem_zipIdx_iff_getElem?.mp hentry⟩
    · rintro ⟨-, rfl, hget⟩
      exact ⟨(entry.1, entry.2.start), mem_zipIdx_iff_getElem?.mpr hget, rfl⟩

lemma poolIndex_eq (xxh3_64 : List UInt8 → UInt64) (prepared : List PreparedFile)
    (minTokens : ℕ) (files : List ℕ) :
    poolIndex prepared minTokens xxh3_64 files =
      groupBy Prod.fst (fun entry => [entry.2])
        (files.flatMap (fileEntries xxh3_64 prepared minTokens)) := by
  rw [poolIndex, groupBy, foldl_flatMap]
  congr 1
  funext index file
  unfold indexFileFast fileEntries
  dsimp only
  split_ifs
  · rfl
  · rw [foldl_map]
    rfl

/-- **A bucket** holds the windows of the pool with its fingerprint. -/
lemma mem_bucket {files : List ℕ} {bucket : Fingerprint × List Occurrence}
    (hbucket : bucket ∈ poolIndex prepared minTokens xxh3_64 files) {o : Occurrence} :
    o ∈ bucket.2 ↔ o.file ∈ files ∧
      (bucket.1, o) ∈ fileEntries xxh3_64 prepared minTokens o.file := by
  rw [poolIndex_eq] at hbucket
  have hget := (get?_eq_some_iff (nodup_keys_groupBy _ _ _)).mpr hbucket
  rw [get?_groupBy] at hget
  split_ifs at hget
  rw [← some.inj hget, mem_flatMap]
  constructor
  · rintro ⟨entry, hentry, ho⟩
    obtain rfl := mem_singleton.mp ho
    obtain ⟨hmem, hkey⟩ := mem_filter.mp hentry
    obtain ⟨file, hfile, hin⟩ := mem_flatMap.mp hmem
    obtain rfl := (mem_fileEntries.mp hin).2.1
    rw [← of_decide_eq_true hkey]
    exact ⟨hfile, hin⟩
  · rintro ⟨hfile, hin⟩
    exact ⟨(bucket.1, o), mem_filter.mpr
      ⟨mem_flatMap.mpr ⟨o.file, hfile, hin⟩, decide_eq_true rfl⟩, mem_singleton_self o⟩

lemma exists_bucket_of_mem {files : List ℕ} {o : Occurrence} {fingerprint : Fingerprint}
    (hfile : o.file ∈ files)
    (hin : (fingerprint, o) ∈ fileEntries xxh3_64 prepared minTokens o.file) :
    ∃ occurrences, (fingerprint, occurrences) ∈ poolIndex prepared minTokens xxh3_64 files := by
  rw [poolIndex_eq]
  have hmem : fingerprint ∈ (files.flatMap (fileEntries xxh3_64 prepared minTokens)).map Prod.fst :=
    List.mem_map.mpr ⟨_, mem_flatMap.mpr ⟨o.file, hfile, hin⟩, rfl⟩
  have hget := get?_groupBy Prod.fst (fun entry : Fingerprint × Occurrence => [entry.2])
    (files.flatMap (fileEntries xxh3_64 prepared minTokens)) fingerprint
  rw [if_pos hmem] at hget
  exact ⟨_, mem_of_get? hget⟩

def windowPairs (prepared : List PreparedFile) (minTokens : ℕ) (a b : Occurrence) :
    List (Token × Token) :=
  (RollingHash.window (tokensOf prepared a.file) minTokens a.start).zip
    (RollingHash.window (tokensOf prepared b.file) minTokens b.start)

/-- **The candidate index is invariant under renaming.**  Two windows whose pairs are accepted from
an empty mapping have one fingerprint, so that a bucket which holds the one holds the other, and
there is such a bucket. -/
theorem accepted_windows_share_bucket (S : Type) [Score S] (xxh3_64 : List UInt8 → UInt64)
    (prepared : List PreparedFile) (minTokens : ℕ) (files : List ℕ) (a b : Occurrence)
    (ha : a.start + minTokens ≤ (tokensOf prepared a.file).length)
    (hb : b.start + minTokens ≤ (tokensOf prepared b.file).length)
    (haccept : (acceptPairs S (windowPairs prepared minTokens a b) Bijection.empty).isSome) :
    (fingerprints xxh3_64 (tokensOf prepared a.file) minTokens)[a.start]? =
        (fingerprints xxh3_64 (tokensOf prepared b.file) minTokens)[b.start]? ∧
      (a.file ∈ files → b.file ∈ files →
        (∀ bucket ∈ poolIndex prepared minTokens xxh3_64 files, a ∈ bucket.2 ↔ b ∈ bucket.2) ∧
          (0 < minTokens → ∃ bucket ∈ poolIndex prepared minTokens xxh3_64 files,
            a ∈ bucket.2 ∧ b ∈ bucket.2)) := by
  obtain ⟨m', hm'⟩ := isSome_iff_exists.mp haccept
  have hrenamed : RenamedWindows (tokensOf prepared a.file) (tokensOf prepared b.file) a.start
      b.start minTokens := ⟨ha, hb, renamedPairs_of_acceptPairs S hm'⟩
  have hsame := hrenamed.fingerprint_eq xxh3_64
  refine ⟨hsame, fun hfileA hfileB => ?_⟩
  have hshare : ∀ bucket ∈ poolIndex prepared minTokens xxh3_64 files,
      a ∈ bucket.2 ↔ b ∈ bucket.2 := by
    intro bucket hbucket
    rw [mem_bucket hbucket, mem_bucket hbucket, mem_fileEntries, mem_fileEntries]
    rw [hsame]
    constructor
    · rintro ⟨-, -, -, hget⟩
      exact ⟨hfileB, by omega, rfl, hget⟩
    · rintro ⟨-, -, -, hget⟩
      exact ⟨hfileA, by omega, rfl, hget⟩
  refine ⟨hshare, fun hpos => ?_⟩
  have hentry : (_, a) ∈ fileEntries xxh3_64 prepared minTokens a.file := mem_fileEntries.mpr
    ⟨(Nat.le_add_left minTokens a.start).trans ha, rfl, getElem?_fingerprints xxh3_64 hpos ha⟩
  obtain ⟨occurrences, hbucket⟩ := exists_bucket_of_mem hfileA hentry
  have hmem := (mem_bucket hbucket).mpr ⟨hfileA, hentry⟩
  exact ⟨_, hbucket, hmem, (hshare _ hbucket).mp hmem⟩

/-- The two renamed statements are found under one fingerprint. -/
theorem accepted_windows_share_bucket_renamedStatements :
    let prepared := prepare characterFrontend .exact renamedStatements
    ∃ bucket ∈ poolIndex prepared 4 (fun _ => 0) [0, 1], ⟨0, 0⟩ ∈ bucket.2 ∧ ⟨1, 0⟩ ∈ bucket.2 := by
  intro prepared
  have h := accepted_windows_share_bucket ℚ (fun _ => 0) prepared 4 [0, 1] ⟨0, 0⟩ ⟨1, 0⟩
    (by decide +kernel) (by decide +kernel) (by decide +kernel)
  exact (h.2 (by decide) (by decide)).2 (by decide)

end Reposcout.Dup.Fuzzy
