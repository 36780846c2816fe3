import Reposcout.Properties.Dup.ExactGroups
import Reposcout.Properties.Dup.MergedIntervals
import Reposcout.Properties.Dup.Seeds

/-!
# The exact scan finds every common window of two files

The regions that a pool records cannot be extended.  On a diagonal of two files such regions never
touch, so the covered intervals of the diagonal are the recorded regions themselves, and a seed
that is skipped as covered lies in one of them.  Every pair of equal windows is in a bucket
together with the leftmost pair of its run, which is a seed and left-maximal; it is recorded or
covered.
-/

namespace Reposcout.Dup

open List Option KeyedList MergedIntervals

namespace Exact

open CommonRuns (Common Maximal)

variable {prepared : List PreparedFile} {minTokens : ℕ}

/-! ## Regions as common runs -/

/-- The kinds and texts of the tokens of a file. -/
def keysOf (prepared : List PreparedFile) (file : ℕ) : List ExactKey :=
  (tokensOf prepared file).map exactKey

variable {i : ℕ} {aTokens bTokens : List Token}

lemma equalRange_iff {j len : ℕ} : EqualRange aTokens i bTokens j len ↔
      Common (aTokens.map exactKey) i (bTokens.map exactKey) j len := by
  constructor
  · intro h
    refine ⟨by simpa using h.left_le, by simpa using h.right_le, fun k hk => ?_⟩
    have hget := congrArg (fun keys : List ExactKey => keys[k]?) h.keys_eq
    simp only [map_take, map_drop, getElem?_take_of_lt hk, getElem?_drop] at hget
    exact hget
  · intro h
    refine ⟨by simpa using h.left_le, by simpa using h.right_le, ext_getElem? fun k => ?_⟩
    rw [map_take, map_drop, map_take, map_drop]
    by_cases hk : k < len
    · rw [getElem?_take_of_lt hk, getElem?_take_of_lt hk, getElem?_drop, getElem?_drop]
      exact h.agree k hk
    · rw [getElem?_eq_none (by simp only [length_take]; omega),
        getElem?_eq_none (by simp only [length_take]; omega)]

/-- Two positions hold equal tokens, or one of them is behind the end. -/
lemma exactEqAt_eq_false {j : ℕ}
    (h : i < aTokens.length ∧ j < bTokens.length →
      (aTokens.map exactKey)[i]? ≠ (bTokens.map exactKey)[j]?) :
    exactEqAt aTokens i bTokens j = false := by
  unfold exactEqAt
  split
  · next x y hx hy =>
    obtain ⟨hi, -⟩ := List.getElem?_eq_some_iff.mp hx
    obtain ⟨hj, -⟩ := List.getElem?_eq_some_iff.mp hy
    have hne := h ⟨hi, hj⟩
    rw [getElem?_map, getElem?_map, hx, hy] at hne
    by_contra heq
    exact hne (congrArg some (exactKey_eq_iff.mpr (Bool.eq_true_of_not_eq_false heq)))
  · rfl

lemma extend_stops (sameFile : Bool) (distance : ℕ) (xs ys : List Token) (len : ℕ) {x y : Token}
    (hx : xs[extend sameFile distance xs ys len - len]? = some x)
    (hy : ys[extend sameFile distance xs ys len - len]? = some y) :
    (sameFile = true ∧ distance < extend sameFile distance xs ys len + 1) ∨
      exactKey x ≠ exactKey y := by
  fun_induction extend sameFile distance xs ys len with
  | case1 x' xs y' ys len hstop => exact .inl hstop
  | case2 x' xs y' ys len hgo hne =>
    rw [Nat.sub_self] at hx hy
    obtain rfl : x' = x := some.inj hx
    obtain rfl : y' = y := some.inj hy
    exact .inr fun heq => absurd (exactKey_eq_iff.mp heq) (by simpa using hne)
  | case3 x' xs y' ys len hgo heq ih =>
    obtain ⟨k, hk, -⟩ := extend_spec sameFile distance xs ys (len + 1)
    rw [hk] at hx hy ih ⊢
    rw [Nat.add_sub_cancel_left] at ih
    rw [show len + 1 + k - len = k + 1 by omega, getElem?_cons_succ] at hx hy
    exact ih hx hy
  | case4 xs ys len hshort =>
    cases xs with
    | nil => cases hx
    | cons x' xs =>
      cases ys with
      | nil => cases hy
      | cons y' ys => exact absurd rfl (hshort x' xs y' ys rfl)

variable {a b : Occurrence} {aStart bStart : ℕ}

/-- What a maximal match is made of: the seed, what is added in front and what is added behind. -/
lemma maximalMatch_parts {seedLen len : ℕ}
    (h : maximalMatch prepared a b seedLen = some (aStart, bStart, len)) :
    ∃ left, left ≤ a.start ∧ left ≤ b.start ∧ aStart = a.start - left ∧ bStart = b.start - left ∧
      seedLen + left ≤ len ∧
      extend (a.file = b.file) (absDiff a.start b.start)
        ((tokensOf prepared a.file).take a.start).reverse
        ((tokensOf prepared b.file).take b.start).reverse seedLen = seedLen + left ∧
      extend (a.file = b.file) (absDiff a.start b.start)
        ((tokensOf prepared a.file).drop (aStart + (seedLen + left)))
        ((tokensOf prepared b.file).drop (bStart + (seedLen + left))) (seedLen + left) = len := by
  simp only [maximalMatch] at h
  split at h
  · next aSource bSource ha hb =>
    have hat : tokensOf prepared a.file = aSource.tokens := by simp [tokensOf, ha]
    have hbt : tokensOf prepared b.file = bSource.tokens := by simp [tokensOf, hb]
    rw [hat, hbt]
    split_ifs at h with hreject
    obtain ⟨left, hleft, hla, hlb, -⟩ := extend_spec (a.file = b.file)
      (absDiff a.start b.start) (aSource.tokens.take a.start).reverse
      (bSource.tokens.take b.start).reverse seedLen
    rw [hleft, Nat.add_sub_cancel_left] at h
    obtain ⟨right, hright, -⟩ := extend_spec (a.file = b.file)
      (absDiff a.start b.start) (aSource.tokens.drop (a.start - left + (seedLen + left)))
      (bSource.tokens.drop (b.start - left + (seedLen + left))) (seedLen + left)
    obtain ⟨rfl, rfl, hlen⟩ : a.start - left = aStart ∧ b.start - left = bStart ∧ _ = len := by
      simpa using h
    rw [length_reverse, length_take] at hla hlb
    refine ⟨left, by omega, by omega, rfl, rfl, ?_, hleft, hlen⟩
    omega
  · cases h

/-- The last tokens before a position, nearest first. -/
lemma getElem?_reverse_take {tokens : List Token} {k : ℕ} (hi : i ≤ tokens.length) (hk : k < i) :
    (tokens.take i).reverse[k]? = tokens[i - k - 1]? := by
  have hlength : (tokens.take i).length = i := by
    rw [length_take]
    exact Nat.min_eq_left hi
  rw [getElem?_reverse (by omega), hlength, getElem?_take_of_lt (by omega)]
  congr 1
  omega

/-- **A maximal match cannot be extended.** Where the next tokens on a side are equal, its two sides
lie in one file and would overlap. -/
lemma maximalMatch_stops {seedLen len : ℕ} (hseed : windowsEqual prepared a b seedLen = true)
    (h : maximalMatch prepared a b seedLen = some (aStart, bStart, len)) :
    (0 < aStart → 0 < bStart →
      (keysOf prepared a.file)[aStart - 1]? = (keysOf prepared b.file)[bStart - 1]? →
      a.file = b.file ∧ absDiff aStart bStart < len + 1) ∧
    (aStart + len < (keysOf prepared a.file).length →
      bStart + len < (keysOf prepared b.file).length →
      (keysOf prepared a.file)[aStart + len]? = (keysOf prepared b.file)[bStart + len]? →
      a.file = b.file ∧ absDiff aStart bStart < len + 1) := by
  have hrange := windowsEqual_spec hseed
  have hla := hrange.left_le
  have hlb := hrange.right_le
  obtain ⟨left, hleftA, hleftB, rfl, rfl, hle, hleft, hright⟩ := maximalMatch_parts h
  have hdistance : absDiff (a.start - left) (b.start - left) = absDiff a.start b.start := by
    unfold absDiff
    omega
  rw [hdistance]
  constructor
  · intro hposA hposB heq
    have hinA : a.start - left - 1 < (tokensOf prepared a.file).length := by omega
    have hinB : b.start - left - 1 < (tokensOf prepared b.file).length := by omega
    have hstop := extend_stops (a.file = b.file) (absDiff a.start b.start)
      ((tokensOf prepared a.file).take a.start).reverse
      ((tokensOf prepared b.file).take b.start).reverse seedLen
      (x := (tokensOf prepared a.file)[a.start - left - 1])
      (y := (tokensOf prepared b.file)[b.start - left - 1])
    rw [hleft, Nat.add_sub_cancel_left, getElem?_reverse_take (by omega) (by omega),
      getElem?_reverse_take (by omega) (by omega)] at hstop
    rcases hstop (getElem?_eq_getElem _) (getElem?_eq_getElem _) with ⟨hsame, hfar⟩ | hne
    · exact ⟨of_decide_eq_true hsame, by omega⟩
    · simp only [keysOf, getElem?_map, getElem?_eq_getElem hinA, getElem?_eq_getElem hinB,
        map_some] at heq
      exact absurd (some.inj heq) hne
  · intro hendA hendB heq
    simp only [keysOf, length_map] at hendA hendB
    have hstop := extend_stops (a.file = b.file) (absDiff a.start b.start)
      ((tokensOf prepared a.file).drop (a.start - left + (seedLen + left)))
      ((tokensOf prepared b.file).drop (b.start - left + (seedLen + left))) (seedLen + left)
      (x := (tokensOf prepared a.file)[a.start - left + len])
      (y := (tokensOf prepared b.file)[b.start - left + len])
    rw [hright, getElem?_drop, getElem?_drop,
      show a.start - left + (seedLen + left) + (len - (seedLen + left)) = a.start - left + len by
        omega,
      show b.start - left + (seedLen + left) + (len - (seedLen + left)) = b.start - left + len by
        omega] at hstop
    rcases hstop (getElem?_eq_getElem _) (getElem?_eq_getElem _) with ⟨hsame, hfar⟩ | hne
    · exact ⟨of_decide_eq_true hsame, hfar⟩
    · simp only [keysOf, getElem?_map, getElem?_eq_getElem hendA,
        getElem?_eq_getElem hendB, map_some] at heq
      exact absurd (some.inj heq) hne

/-! ## One seed -/

/-- A common run of two files that cannot be extended, and whose region was seen. -/
structure Seen (prepared : List PreparedFile) (seen : List Region) (r : Region) : Prop where
  mem : canonicalRegionKey r ∈ seen
  maximal : Maximal (keysOf prepared r.aFile) r.aStart (keysOf prepared r.bFile) r.bStart r.len

variable {r : Region} {seen later : List Region}

lemma Seen.mono (h : Seen prepared seen r) (hsub : ∀ key ∈ seen, key ∈ later) :
    Seen prepared later r := ⟨hsub _ h.mem, h.maximal⟩

/-- The covered intervals of a diagonal of two files are regions that were seen. -/
def DiagonalOk (prepared : List PreparedFile) (seen : List Region) (diagonal : Diagonal)
    (ranges : MergedIntervals) : Prop :=
  diagonal.1 ≠ diagonal.2.1 → ∀ r ∈ ranges.byStart, ∃ bStart len : ℕ,
    r.2 = r.1 + len ∧ (r.1 : ℤ) - bStart = diagonal.2.2 ∧
      Seen prepared seen ⟨diagonal.1, r.1, diagonal.2.1, bStart, len⟩

def CoverOk (prepared : List PreparedFile) (st : ScanState) : Prop :=
  ∀ entry ∈ st.covered, DiagonalOk prepared st.seenRegions entry.1 entry.2

variable {ranges : MergedIntervals}

lemma DiagonalOk.mono {diagonal : Diagonal} (h : DiagonalOk prepared seen diagonal ranges)
    (hsub : ∀ key ∈ seen, key ∈ later) : DiagonalOk prepared later diagonal ranges := by
  intro hfiles r hr
  obtain ⟨bStart, len, hstop, hdiagonal, hseen⟩ := h hfiles r hr
  exact ⟨bStart, len, hstop, hdiagonal, hseen.mono hsub⟩

/-- The covered intervals of a diagonal stay apart: a new one is one of them or touches none. -/
lemma DiagonalOk.insert {seen : List Region} {aFile bFile : ℕ} {offset : ℤ}
    (h : DiagonalOk prepared seen (aFile, bFile, offset) ranges) {aStart bStart len : ℕ}
    (hdiagonal : (aStart : ℤ) - bStart = offset)
    (hseen : aFile ≠ bFile → Seen prepared seen ⟨aFile, aStart, bFile, bStart, len⟩) :
    DiagonalOk prepared seen (aFile, bFile, offset) (ranges.insert aStart (aStart + len)) := by
  intro hfiles
  have hold := h hfiles
  have hnew := hseen hfiles
  dsimp only at hold
  have hok : ∀ r ∈ ranges.byStart, r.1 ≤ r.2 := by
    intro r hr
    obtain ⟨-, n, hstop, -⟩ := hold r hr
    omega
  have hapart : ∀ r ∈ ranges.byStart, r.1 ≤ aStart + len → aStart ≤ r.2 →
      r = (aStart, aStart + len) := by
    intro r hr hbefore hafter
    obtain ⟨t, n, hstop, hoffset, hother⟩ := hold r hr
    have hsame : aStart + t = bStart + r.1 := by omega
    obtain ⟨hstart, -, hlen⟩ := hnew.maximal.eq_of_touch hother.maximal hsame
      (by dsimp only; omega) (by dsimp only; omega)
    dsimp only at hstart hlen
    exact Prod.ext hstart.symm (by rw [hstop, ← hstart, ← hlen])
  intro r hr
  rcases mem_insert_of_apart (Nat.le_add_right aStart len) hok hapart r hr with
    hr | rfl
  · exact hold r hr
  · exact ⟨bStart, len, rfl, hdiagonal, hnew⟩

/-- What a seed changes: nothing, or it enters a maximal match. -/
inductive SeedStep (prepared : List PreparedFile) (minTokens : ℕ) (sampled : Bool) (st : ScanState)
    (a b : Occurrence) (next : ScanState) (recorded : Option Region) : Prop
  | passed : seedRejected prepared minTokens sampled { st with examined := st.examined + 1 } a b =
        true ∨ maximalMatch prepared a b minTokens = none →
      next.covered = st.covered → next.seenRegions = st.seenRegions → recorded = none →
      SeedStep prepared minTokens sampled st a b next recorded
  | entered (aStart bStart len : ℕ) : windowsEqual prepared a b minTokens = true →
      maximalMatch prepared a b minTokens = some (aStart, bStart, len) →
      next.covered = KeyedList.alter (diagonalOf a b)
        (fun o => (o.getD MergedIntervals.empty).insert aStart (aStart + len)) st.covered →
      canonicalRegionKey ⟨a.file, aStart, b.file, bStart, len⟩ ∈ next.seenRegions →
      (∀ key, key ∈ next.seenRegions ↔
        key ∈ st.seenRegions ∨ recorded.map canonicalRegionKey = some key) →
      SeedStep prepared minTokens sampled st a b next recorded

lemma scanSeed_step (prepared : List PreparedFile) (minTokens : ℕ) (sampled : Bool)
    (st : ScanState) (a b : Occurrence) :
    SeedStep prepared minTokens sampled st a b (scanSeed prepared minTokens sampled st a b).1
      (scanSeed prepared minTokens sampled st a b).2 := by
  unfold scanSeed
  by_cases hreject :
      seedRejected prepared minTokens sampled { st with examined := st.examined + 1 } a b = true
  · rw [if_pos hreject]
    exact .passed (.inl hreject) rfl rfl rfl
  · rw [if_neg hreject]
    have hequal : windowsEqual prepared a b minTokens = true := by
      simp only [seedRejected, Bool.or_eq_true, not_or, Bool.not_eq_true,
        Bool.not_eq_false'] at hreject
      exact hreject.2
    cases hmatch : maximalMatch prepared a b minTokens with
    | none => exact .passed (.inr hmatch) rfl rfl rfl
    | some found =>
      obtain ⟨aStart, bStart, len⟩ := found
      dsimp only
      by_cases hseen : canonicalRegionKey ⟨a.file, aStart, b.file, bStart, len⟩ ∈ st.seenRegions
      · rw [if_pos hseen]
        exact .entered aStart bStart len hequal hmatch rfl hseen fun key => by simp
      · rw [if_neg hseen]
        refine .entered aStart bStart len hequal hmatch rfl mem_cons_self fun key => ?_
        rw [mem_cons, map_some, some.injEq, or_comm]
        exact or_congr_right eq_comm

variable {sampled : Bool} {st next : ScanState} {recorded : Option Region}

lemma SeedStep.mono (h : SeedStep prepared minTokens sampled st a b next recorded) :
    ∀ key ∈ st.seenRegions, key ∈ next.seenRegions := by
  intro key hkey
  cases h with
  | passed _ _ hseen _ => exact hseen ▸ hkey
  | entered _ _ _ _ _ _ _ hiff => exact (hiff key).mpr (.inl hkey)

lemma SeedStep.mem_seen
    (h : SeedStep prepared minTokens sampled st a b next recorded) {key : Region}
    (hkey : key ∈ next.seenRegions) :
    key ∈ st.seenRegions ∨ recorded.map canonicalRegionKey = some key := by
  cases h with
  | passed _ _ hseen _ => exact .inl (hseen ▸ hkey)
  | entered _ _ _ _ _ _ _ hiff => exact (hiff key).mp hkey

/-- The match of a seed of two files is a common run that cannot be extended. -/
lemma maximal_of_maximalMatch {len : ℕ} (hfiles : a.file ≠ b.file)
    (hseed : windowsEqual prepared a b minTokens = true)
    (h : maximalMatch prepared a b minTokens = some (aStart, bStart, len)) :
    Maximal (keysOf prepared a.file) aStart (keysOf prepared b.file) bStart len := by
  obtain ⟨hleft, hright⟩ := maximalMatch_stops hseed h
  refine ⟨equalRange_iff.mp (maximalMatch_spec hseed h).1, ?_, ?_⟩
  · exact fun ha hb heq => hfiles (hleft ha hb heq).1
  · exact fun ha hb heq => hfiles (hright ha hb heq).1

/-- **A seed keeps the covered intervals regions that were seen.** -/
lemma CoverOk.step {sampled : Bool} {st : ScanState} {a b : Occurrence}
    {recorded : Option Region} (h : CoverOk prepared st)
    (hstep : SeedStep prepared minTokens sampled st a b next recorded) :
    CoverOk prepared next := by
  have hmono := hstep.mono
  cases hstep with
  | passed _ hcovered hseen _ =>
    intro entry hentry
    rw [hcovered] at hentry
    rw [hseen]
    exact h entry hentry
  | entered aStart bStart len hequal hmatch hcovered hmem _ =>
    rw [CoverOk, hcovered]
    obtain ⟨left, hleftA, hleftB, rfl, rfl, -⟩ := maximalMatch_parts hmatch
    have hdiagonal : ((a.start - left : ℕ) : ℤ) - (b.start - left : ℕ) =
        (a.start : ℤ) - b.start := by omega
    have hnew : a.file ≠ b.file → Seen prepared next.seenRegions
        ⟨a.file, a.start - left, b.file, b.start - left, len⟩ := fun hfiles =>
      ⟨hmem, maximal_of_maximalMatch hfiles hequal hmatch⟩
    have hempty : DiagonalOk prepared next.seenRegions (diagonalOf a b) empty :=
      nofun
    refine forall_mem_alter (P := DiagonalOk prepared next.seenRegions)
      (fun entry hentry => (h entry hentry).mono hmono) ?_ ?_
    · exact hempty.insert hdiagonal hnew
    · exact fun ranges hranges => hranges.insert hdiagonal hnew

/-! ## The seed loop -/

/-- A seen region that holds the windows of a seed. -/
def Found (prepared : List PreparedFile) (minTokens : ℕ) (seen : List Region)
    (a b : Occurrence) : Prop :=
  ∃ aStart bStart len, Seen prepared seen ⟨a.file, aStart, b.file, bStart, len⟩ ∧
    aStart + b.start = bStart + a.start ∧ aStart ≤ a.start ∧ a.start + minTokens ≤ aStart + len

/-- The windows of a seed are equal, and the tokens before them are not. -/
structure Leftmost (prepared : List PreparedFile) (minTokens : ℕ) (a b : Occurrence) : Prop where
  files_ne : a.file ≠ b.file
  common : Common (keysOf prepared a.file) a.start (keysOf prepared b.file) b.start minTokens
  left_stop : 0 < a.start → 0 < b.start →
    (keysOf prepared a.file)[a.start - 1]? ≠ (keysOf prepared b.file)[b.start - 1]?

lemma windowsEqual_of_common
    (h : Common (keysOf prepared a.file) a.start (keysOf prepared b.file) b.start minTokens) :
    windowsEqual prepared a b minTokens = true := by
  have hrange := equalRange_iff.mpr h
  rw [windowsEqual, slice?, slice?, if_pos hrange.left_le, if_pos hrange.right_le]
  rw [List.all_eq_true]
  intro p hp
  obtain ⟨k, hk⟩ := mem_iff_getElem?.mp hp
  obtain ⟨hx, hy⟩ := getElem?_zip_eq_some.mp hk
  have hget := congrArg (fun keys : List ExactKey => keys[k]?) hrange.keys_eq
  simp only [getElem?_map, hx, hy, map_some] at hget
  exact exactKey_eq_iff.mp (some.inj hget)

lemma isLeftMaximal_of_leftmost (h : Leftmost prepared minTokens a b) :
    isLeftMaximal prepared a b minTokens = true := by
  unfold isLeftMaximal
  by_cases hzero : a.start = 0 ∨ b.start = 0
  · rw [if_pos hzero]
  · rw [if_neg hzero, if_neg fun hsame => h.files_ne hsame.1]
    rw [not_or] at hzero
    have hne := h.left_stop (Nat.pos_of_ne_zero hzero.1) (Nat.pos_of_ne_zero hzero.2)
    rw [exactEqAt_eq_false fun _ => hne]
    rfl

lemma maximalMatch_isSome (hpos : 0 < minTokens) (h : Leftmost prepared minTokens a b) :
    maximalMatch prepared a b minTokens ≠ none := by
  have hsome : ∀ o : Occurrence, o.start + minTokens ≤ (keysOf prepared o.file).length →
      ∃ source, prepared[o.file]? = some source := by
    intro o hlength
    cases hsource : prepared[o.file]? with
    | some source => exact ⟨source, rfl⟩
    | none =>
      rw [keysOf, tokensOf, hsource, map_nil, length_nil] at hlength
      omega
  obtain ⟨aSource, ha⟩ := hsome a h.common.left_le
  obtain ⟨bSource, hb⟩ := hsome b h.common.right_le
  rw [maximalMatch, ha, hb]
  dsimp only
  rw [if_neg fun hsame => h.files_ne (of_decide_eq_true hsame.1)]
  exact some_ne_none _

lemma found_of_covered (hcover : CoverOk prepared st) (hfiles : a.file ≠ b.file)
    (h : isCovered st a b minTokens = true) : Found prepared minTokens st.seenRegions a b := by
  unfold isCovered at h
  split at h
  · next ranges hget =>
    obtain ⟨r, hr, hle, hstop⟩ := exists_of_covers h
    obtain ⟨bStart, len, hlen, hdiagonal, hseen⟩ :=
      hcover _ (mem_of_get? hget) hfiles r hr
    dsimp only [diagonalOf] at hdiagonal
    exact ⟨r.1, bStart, len, hseen, by omega, hle, by omega⟩
  · cases h

/-- **A leftmost seed is found.** It is skipped only if it is covered, and then a region that was
seen holds it. -/
lemma Leftmost.found (h : Leftmost prepared minTokens a b) (hpos : 0 < minTokens)
    (hcover : CoverOk prepared st)
    (hstep : SeedStep prepared minTokens sampled st a b next recorded) :
    Found prepared minTokens next.seenRegions a b := by
  have hmono := hstep.mono
  cases hstep with
  | passed hreason _ _ _ =>
    rcases hreason with hreject | hnone
    · have hoverlap : sameFileSeedOverlaps a b minTokens = false := by
        rw [sameFileSeedOverlaps, decide_eq_false h.files_ne, Bool.false_and]
      rw [seedRejected, hoverlap, isLeftMaximal_of_leftmost h, windowsEqual_of_common h.common,
        Bool.not_true, Bool.and_false, Bool.false_or, Bool.or_false, Bool.or_false] at hreject
      obtain ⟨aStart, bStart, len, hseen, hrest⟩ := found_of_covered hcover h.files_ne hreject
      exact ⟨aStart, bStart, len, hseen.mono hmono, hrest⟩
    · exact absurd hnone (maximalMatch_isSome hpos h)
  | entered aStart bStart len hequal hmatch _ hmem _ =>
    have hmaximal := maximal_of_maximalMatch h.files_ne hequal hmatch
    obtain ⟨left, hleftA, hleftB, rfl, rfl, hle, -⟩ := maximalMatch_parts hmatch
    exact ⟨a.start - left, b.start - left, len, ⟨hmem, hmaximal⟩, by omega, by omega, by omega⟩

/-- **The seed loop finds every leftmost seed**, if it is not ended by a limit, and the regions it
has seen are those it records. -/
lemma scanSeeds_found (hpos : 0 < minTokens) (sampled : Bool)
    (seeds : List (Occurrence × Occurrence)) :
    ∀ st : ScanState, CoverOk prepared st →
      (scanSeeds prepared minTokens sampled seeds st).1.diagnostics.pairLimitReached = false →
      (scanSeeds prepared minTokens sampled seeds st).1.diagnostics.matchLimitReached = false →
      (∀ key ∈ st.seenRegions,
        key ∈ (scanSeeds prepared minTokens sampled seeds st).1.seenRegions) ∧
      (∀ key ∈ (scanSeeds prepared minTokens sampled seeds st).1.seenRegions,
        key ∈ st.seenRegions ∨ ∃ r ∈ (scanSeeds prepared minTokens sampled seeds st).2,
          canonicalRegionKey r = key) ∧
      ∀ seed ∈ seeds, Leftmost prepared minTokens seed.1 seed.2 →
        Found prepared minTokens (scanSeeds prepared minTokens sampled seeds st).1.seenRegions
          seed.1 seed.2 := by
  induction seeds with
  | nil =>
    intro st _ _ _
    exact ⟨fun key hkey => hkey, fun key hkey => .inl hkey,
      nofun⟩
  | cons seed rest ih =>
    obtain ⟨a, b⟩ := seed
    intro st hcover hpairs hmatches
    rw [scanSeeds] at hpairs hmatches ⊢
    by_cases hlimit : st.examined ≥ maxSeedPairsPerPool ∨ st.seenRegions.length ≥ maxMatchesPerPool
    · rw [if_pos hlimit] at hpairs hmatches
      simp only [Bool.or_eq_false_iff, decide_eq_false_iff_not] at hpairs hmatches
      exact absurd hlimit (not_or.mpr ⟨hpairs.2, hmatches.2⟩)
    · rw [if_neg hlimit] at hpairs hmatches ⊢
      have hstep := scanSeed_step prepared minTokens sampled st a b
      rcases hseed : scanSeed prepared minTokens sampled st a b with ⟨next, recorded⟩
      rw [hseed] at hpairs hmatches hstep
      obtain ⟨hmono, hseen, hfound⟩ := ih next (hcover.step hstep) hpairs hmatches
      refine ⟨fun key hkey => hmono key (hstep.mono key hkey), ?_, ?_⟩
      · intro key hkey
        rcases hseen key hkey with hkey | ⟨r, hr, hkey⟩
        · rcases hstep.mem_seen hkey with hkey | hkey
          · exact .inl hkey
          · obtain ⟨r, hr, hkey⟩ := map_eq_some_iff.mp hkey
            exact .inr ⟨r, mem_append_left _ (mem_toList.mpr hr), hkey⟩
        · exact .inr ⟨r, mem_append_right _ hr, hkey⟩
      · intro seed hmem hleftmost
        rcases mem_cons.mp hmem with rfl | hmem
        · obtain ⟨aStart, bStart, len, hnew, hrest⟩ := hleftmost.found hpos hcover hstep
          exact ⟨aStart, bStart, len, hnew.mono hmono, hrest⟩
        · exact hfound seed hmem hleftmost

/-! ## The windows of a pool -/

lemma windowIndex_eq (xxh3_64 : List UInt8 → UInt64) (prepared : List PreparedFile)
    (files : List ℕ) (minTokens : ℕ) :
    windowIndex xxh3_64 prepared files minTokens =
      groupBy Prod.fst (fun ho => [ho.2])
        (files.flatMap (fileWindows xxh3_64 prepared minTokens)) := rfl

variable {xxh3_64 : List UInt8 → UInt64} {files : List ℕ}

def hashAt (xxh3_64 : List UInt8 → UInt64) (prepared : List PreparedFile) (minTokens : ℕ)
    (o : Occurrence) : UInt64 :=
  windowHash (RollingHash.window ((tokensOf prepared o.file).map (Token.exactHash xxh3_64))
    minTokens o.start)

/-- **The windows of a file** are its starts in order, each under the hash of its slice. -/
lemma fileWindows_eq (hpos : 0 < minTokens) (file : ℕ) :
    fileWindows xxh3_64 prepared minTokens file =
      (List.range ((tokensOf prepared file).length + 1 - minTokens)).map fun start =>
        (hashAt xxh3_64 prepared minTokens ⟨file, start⟩, ⟨file, start⟩) := by
  unfold fileWindows
  by_cases hshort : (tokensOf prepared file).length < minTokens
  · rw [if_pos hshort, Nat.sub_eq_zero_of_le hshort]
    rfl
  · rw [if_neg hshort, rolledHashes_eq hpos (by rw [length_map]; omega), length_map,
      ← Nat.sub_add_comm (by omega), zipIdx_map, List.map_map, zipIdx_eq_zip_range',
      length_range, range_eq_range', zip_eq_zipWith, zipWith_self, List.map_map]
    rfl

lemma mem_fileWindows (hpos : 0 < minTokens) {o : Occurrence}
    (hlength : o.start + minTokens ≤ (tokensOf prepared o.file).length) :
    (hashAt xxh3_64 prepared minTokens o, o) ∈ fileWindows xxh3_64 prepared minTokens o.file := by
  rw [fileWindows_eq hpos]
  exact mem_map.mpr ⟨o.start, mem_range.mpr (by omega), rfl⟩

lemma exists_bucket (xxh3_64 : List UInt8 → UInt64) (hpos : 0 < minTokens) (ha : a.file ∈ files)
    (halength : a.start + minTokens ≤ (tokensOf prepared a.file).length) :
    ∃ bucket ∈ windowIndex xxh3_64 prepared files minTokens, ∀ o : Occurrence, o.file ∈ files →
      o.start + minTokens ≤ (tokensOf prepared o.file).length →
      hashAt xxh3_64 prepared minTokens o = hashAt xxh3_64 prepared minTokens a →
      o ∈ bucket.2 := by
  have hmem : ∀ o : Occurrence, o.file ∈ files →
      o.start + minTokens ≤ (tokensOf prepared o.file).length →
      (hashAt xxh3_64 prepared minTokens o, o) ∈
        files.flatMap (fileWindows xxh3_64 prepared minTokens) := fun o hfile hlength =>
    mem_flatMap.mpr ⟨o.file, hfile, mem_fileWindows hpos hlength⟩
  have hget := get?_groupBy Prod.fst (fun ho : UInt64 × Occurrence => [ho.2])
    (files.flatMap (fileWindows xxh3_64 prepared minTokens)) (hashAt xxh3_64 prepared minTokens a)
  rw [if_pos (mem_map.mpr ⟨_, hmem a ha halength, rfl⟩)] at hget
  refine ⟨_, windowIndex_eq xxh3_64 prepared files minTokens ▸ mem_of_get? hget, ?_⟩
  intro o hfile hlength hhash
  refine mem_flatMap.mpr ⟨_, mem_filter.mpr ⟨hmem o hfile hlength, ?_⟩, mem_singleton.mpr rfl⟩
  exact decide_eq_true hhash

/-- Equal windows have equal hashes. -/
lemma hashAt_eq_of_common
    (h : Common (keysOf prepared a.file) a.start (keysOf prepared b.file) b.start minTokens) :
    hashAt xxh3_64 prepared minTokens a = hashAt xxh3_64 prepared minTokens b := by
  have hkeys := (equalRange_iff.mpr h).keys_eq
  have hexact : ∀ tokens : List Token, tokens.map (Token.exactHash xxh3_64) =
      (tokens.map exactKey).map fun key => tokenHash xxh3_64 key.kind key.text := by
    intro tokens
    rw [List.map_map]
    rfl
  unfold hashAt RollingHash.window
  rw [← map_drop, ← map_take, ← map_drop, ← map_take, hexact, hexact, hkeys]

variable {bucket : UInt64 × List Occurrence}

lemma mem_seedBuckets
    (h : bucket ∈ windowIndex xxh3_64 prepared files minTokens) (ha : a ∈ bucket.2)
    (hb : b ∈ bucket.2) (hne : a ≠ b) :
    bucket ∈ seedBuckets (windowIndex xxh3_64 prepared files minTokens) := by
  refine mem_sortBy.mpr (mem_filter.mpr ⟨h, decide_eq_true ?_⟩)
  by_contra hshort
  obtain ⟨i, hi, rfl⟩ := mem_iff_getElem.mp ha
  obtain ⟨j, hj, rfl⟩ := mem_iff_getElem.mp hb
  obtain rfl : i = j := by omega
  exact hne rfl

/-! ## The regions of a pool -/

structure HoldsWindows (r : Region) (minTokens : ℕ) (a b : Occurrence) : Prop where
  aFile : r.aFile = a.file
  bFile : r.bFile = b.file
  diagonal : r.aStart + b.start = r.bStart + a.start
  start_le : r.aStart ≤ a.start
  le_stop : a.start + minTokens ≤ r.aStart + r.len

/-- The region cannot be extended: where the tokens next to it on a side are equal, its two sides
lie in one file and would overlap. -/
structure Unextendable (prepared : List PreparedFile) (r : Region) : Prop where
  left : 0 < r.aStart → 0 < r.bStart →
    (keysOf prepared r.aFile)[r.aStart - 1]? = (keysOf prepared r.bFile)[r.bStart - 1]? →
    r.aFile = r.bFile ∧ absDiff r.aStart r.bStart < r.len + 1
  right : r.aStart + r.len < (keysOf prepared r.aFile).length →
    r.bStart + r.len < (keysOf prepared r.bFile).length →
    (keysOf prepared r.aFile)[r.aStart + r.len]? = (keysOf prepared r.bFile)[r.bStart + r.len]? →
    r.aFile = r.bFile ∧ absDiff r.aStart r.bStart < r.len + 1

lemma scanSeed_unextendable (h : (scanSeed prepared minTokens sampled st a b).2 = some r) :
    Unextendable prepared r := by
  unfold scanSeed at h
  by_cases hreject :
      seedRejected prepared minTokens sampled { st with examined := st.examined + 1 } a b = true
  · rw [if_pos hreject] at h
    cases h
  · rw [if_neg hreject] at h
    have hequal : windowsEqual prepared a b minTokens = true := by
      simp only [seedRejected, Bool.or_eq_true, not_or, Bool.not_eq_true,
        Bool.not_eq_false'] at hreject
      exact hreject.2
    cases hmatch : maximalMatch prepared a b minTokens with
    | none =>
      rw [hmatch] at h
      cases h
    | some found =>
      rw [hmatch] at h
      dsimp only at h
      split_ifs at h
      cases h
      obtain ⟨hleft, hright⟩ := maximalMatch_stops hequal hmatch
      exact ⟨hleft, hright⟩

lemma scanSeeds_unextendable (sampled : Bool) (seeds : List (Occurrence × Occurrence)) :
    ∀ st : ScanState, ∀ r ∈ (scanSeeds prepared minTokens sampled seeds st).2,
      Unextendable prepared r := by
  induction seeds with
  | nil => exact nofun
  | cons seed rest ih =>
    intro st r hr
    rw [scanSeeds] at hr
    split_ifs at hr
    · cases hr
    · rcases mem_append.mp hr with hr | hr
      · exact scanSeed_unextendable (mem_toList.mp hr)
      · exact ih _ r hr

lemma scanPool_unextendable (h : r ∈ (scanPool xxh3_64 prepared files minTokens).1) :
    Unextendable prepared r := by
  unfold scanPool at h
  split_ifs at h
  · cases h
  · exact scanSeeds_unextendable _ _ _ r h

/-- Two regions with one key are the same up to their sides. -/
lemma eq_or_swap_of_canonical {s : Region} (h : canonicalRegionKey r = canonicalRegionKey s) :
    r = s ∨ r = ⟨s.bFile, s.bStart, s.aFile, s.aStart, s.len⟩ := by
  obtain ⟨aFile, aStart, bFile, bStart, len⟩ := r
  obtain ⟨aFile', aStart', bFile', bStart', len'⟩ := s
  unfold canonicalRegionKey at h
  split_ifs at h
  · exact .inl h
  · exact .inr h
  · simp only [Region.mk.injEq] at h ⊢
    exact .inr ⟨h.2.2.1, h.2.2.2.1, h.1, h.2.1, h.2.2.2.2⟩
  · simp only [Region.mk.injEq] at h ⊢
    exact .inl ⟨h.2.2.1, h.2.2.2.1, h.1, h.2.1, h.2.2.2.2⟩

/-- No bucket of the pool is sampled. -/
def SmallBuckets (xxh3_64 : List UInt8 → UInt64) (prepared : List PreparedFile) (files : List ℕ)
    (minTokens : ℕ) : Prop :=
  ∀ bucket ∈ windowIndex xxh3_64 prepared files minTokens, bucket.2.length ≤ 65

lemma Leftmost.symm (h : Leftmost prepared minTokens a b) : Leftmost prepared minTokens b a :=
  ⟨h.files_ne.symm, h.common.symm, fun hb ha heq => h.left_stop ha hb heq.symm⟩

lemma canonicalRegionKey_swap (hfiles : r.aFile ≠ r.bFile) :
    canonicalRegionKey ⟨r.bFile, r.bStart, r.aFile, r.aStart, r.len⟩ = canonicalRegionKey r := by
  unfold canonicalRegionKey
  dsimp only
  split_ifs <;> first | rfl | omega

/-- What the loop over the seeds of a pool leaves behind. -/
lemma exists_region_of_seed (hpos : 0 < minTokens)
    (hpairs : (scanPool xxh3_64 prepared files minTokens).2.pairLimitReached = false)
    (hmatches : (scanPool xxh3_64 prepared files minTokens).2.matchLimitReached = false)
    (hbucket : bucket ∈ seedBuckets (windowIndex xxh3_64 prepared files minTokens))
    (hseed : (a, b) ∈ bucketSeeds bucket.2) (ha : a.file ∈ files)
    (h : Leftmost prepared minTokens a b) :
    ∃ s t len, Maximal (keysOf prepared a.file) s (keysOf prepared b.file) t len ∧
      s + b.start = t + a.start ∧ s ≤ a.start ∧ a.start + minTokens ≤ s + len ∧
      ∃ r ∈ (scanPool xxh3_64 prepared files minTokens).1,
        canonicalRegionKey r = canonicalRegionKey ⟨a.file, s, b.file, t, len⟩ := by
  have hlong : files.any (fun file => (tokensOf prepared file).length ≥ minTokens) = true := by
    refine any_eq_true.mpr ⟨a.file, ha, decide_eq_true ?_⟩
    have hle := h.common.left_le
    rw [keysOf, length_map] at hle
    omega
  unfold scanPool at hpairs hmatches ⊢
  rw [hlong, Bool.not_true, if_neg Bool.false_ne_true] at hpairs hmatches ⊢
  have hstart : CoverOk prepared ({} : ScanState) := fun entry hentry =>
    nomatch hentry
  obtain ⟨-, hseen, hfound⟩ := scanSeeds_found hpos _ _ {} hstart hpairs hmatches
  obtain ⟨s, t, len, hregion, hdiagonal, hle, hstop⟩ :=
    hfound (a, b) (mem_flatMap.mpr ⟨bucket, hbucket, hseed⟩) h
  refine ⟨s, t, len, hregion.maximal, hdiagonal, hle, hstop, ?_⟩
  rcases hseen _ hregion.mem with hnone | hrecorded
  · cases hnone
  · exact hrecorded

lemma exists_region_of_leftmost (hpos : 0 < minTokens)
    (hsmall : SmallBuckets xxh3_64 prepared files minTokens)
    (hpairs : (scanPool xxh3_64 prepared files minTokens).2.pairLimitReached = false)
    (hmatches : (scanPool xxh3_64 prepared files minTokens).2.matchLimitReached = false)
    (ha : a.file ∈ files) (hb : b.file ∈ files) (h : Leftmost prepared minTokens a b) :
    ∃ s t len, Maximal (keysOf prepared a.file) s (keysOf prepared b.file) t len ∧
      s + b.start = t + a.start ∧ s ≤ a.start ∧ a.start + minTokens ≤ s + len ∧
      ∃ r ∈ (scanPool xxh3_64 prepared files minTokens).1,
        canonicalRegionKey r = canonicalRegionKey ⟨a.file, s, b.file, t, len⟩ := by
  have hla := h.common.left_le
  have hlb := h.common.right_le
  rw [keysOf, length_map] at hla hlb
  obtain ⟨bucket, hbucket, hshared⟩ :=
    exists_bucket xxh3_64 hpos ha hla
  have hamem := hshared a ha hla rfl
  have hbmem := hshared b hb hlb (hashAt_eq_of_common h.common).symm
  have hne : a ≠ b := fun heq => h.files_ne (congrArg Occurrence.file heq)
  have hseeds := mem_seedBuckets hbucket hamem hbmem hne
  rcases mem_bucketSeeds_or (hsmall bucket hbucket) hamem hbmem hne with hseed | hseed
  · exact exists_region_of_seed hpos hpairs hmatches hseeds hseed ha h
  · obtain ⟨t, s, len, hmaximal, hdiagonal, hle, hstop, r, hr, hkey⟩ :=
      exists_region_of_seed hpos hpairs hmatches hseeds hseed hb h.symm
    refine ⟨s, t, len, hmaximal.symm, hdiagonal.symm, by omega, by omega, r, hr, ?_⟩
    rw [hkey]
    exact canonicalRegionKey_swap (r := ⟨a.file, s, b.file, t, len⟩) h.files_ne

/-- **The exact scan is complete between files.**  In a pool of which no bucket has more than 65
windows, scanned to its end, every pair of equal windows of two different files lies in a recorded
region on its diagonal, with either file first; and no recorded region can be extended. -/
theorem scanPool_complete (hpos : 0 < minTokens)
    (hsmall : SmallBuckets xxh3_64 prepared files minTokens)
    (hpairs : (scanPool xxh3_64 prepared files minTokens).2.pairLimitReached = false)
    (hmatches : (scanPool xxh3_64 prepared files minTokens).2.matchLimitReached = false) :
    (∀ a b : Occurrence, a.file ∈ files → b.file ∈ files → a.file ≠ b.file →
      EqualRange (tokensOf prepared a.file) a.start (tokensOf prepared b.file) b.start minTokens →
      ∃ r ∈ (scanPool xxh3_64 prepared files minTokens).1,
        HoldsWindows r minTokens a b ∨ HoldsWindows r minTokens b a) ∧
      ∀ r ∈ (scanPool xxh3_64 prepared files minTokens).1, Unextendable prepared r := by
  refine ⟨fun a b ha hb hfiles hequal => ?_, fun r hr => scanPool_unextendable hr⟩
  have hrun : Common (keysOf prepared a.file) a.start (keysOf prepared b.file) b.start minTokens :=
    equalRange_iff.mp hequal
  -- The leftmost pair of the run is found; the region that holds it goes on to the windows.
  obtain ⟨back, hbackA, hbackB, hcommon, hleft⟩ := hrun.exists_leftmost
  have hleftmost : Leftmost prepared minTokens ⟨a.file, a.start - back⟩
      ⟨b.file, b.start - back⟩ := ⟨hfiles, hcommon.sub 0 (by omega), hleft⟩
  obtain ⟨s, t, len, hmaximal, hdiagonal, hle, hinside, r, hr, hkey⟩ :=
    exists_region_of_leftmost hpos hsmall hpairs hmatches (a := ⟨a.file, a.start - back⟩)
      (b := ⟨b.file, b.start - back⟩) ha hb hleftmost
  dsimp only at hmaximal hdiagonal hle hinside hkey
  have hstop := hmaximal.stop_le hcommon hdiagonal (by omega)
  refine ⟨r, hr, ?_⟩
  rcases eq_or_swap_of_canonical hkey with rfl | rfl
  · exact .inl ⟨rfl, rfl, by dsimp only; omega, by dsimp only; omega, by dsimp only; omega⟩
  · exact .inr ⟨rfl, rfl, by dsimp only; omega, by dsimp only; omega, by dsimp only; omega⟩

/-- Two files with the same statement. -/
def equalStatements : List PreparedFile :=
  prepare characterFrontend .exact [⟨⟨["a.rs"]⟩, "a=b;"⟩, ⟨⟨["b.rs"]⟩, "a=b;"⟩]

theorem scanPool_complete_equalStatements :
    ∃ r ∈ (scanPool (fun bytes => bytes.length.toUInt64) equalStatements [0, 1] 3).1,
      HoldsWindows r 3 ⟨0, 1⟩ ⟨1, 1⟩ ∨ HoldsWindows r 3 ⟨1, 1⟩ ⟨0, 1⟩ :=
  (scanPool_complete (by decide)
      (show SmallBuckets (fun bytes => bytes.length.toUInt64) equalStatements [0, 1] 3 by
        unfold SmallBuckets
        decide +kernel)
      (by decide +kernel) (by decide +kernel)).1 ⟨0, 1⟩ ⟨1, 1⟩ (by decide) (by decide) (by decide)
    ⟨by decide +kernel, by decide +kernel, by decide +kernel⟩

/-! ## The index of the windows -/

/-- **Rolling finds the hashes of all windows**, and the index has under every hash the starts of
the windows with that hash, file by file and each file from left to right. -/
theorem windowIndex_lists_starts (xxh3_64 : List UInt8 → UInt64) (prepared : List PreparedFile)
    (files : List ℕ) (hpos : 0 < minTokens) :
    (∀ hashes : List UInt64, minTokens ≤ hashes.length → rolledHashes hashes minTokens =
      (List.range (hashes.length - minTokens + 1)).map fun start =>
        windowHash ((hashes.drop start).take minTokens)) ∧
    (keys (windowIndex xxh3_64 prepared files minTokens)).Nodup ∧
    ∀ hash, (get? hash (windowIndex xxh3_64 prepared files minTokens)).getD [] =
      files.flatMap fun file =>
        ((List.range ((tokensOf prepared file).length + 1 - minTokens)).filter fun start =>
          windowHash ((((tokensOf prepared file).map (Token.exactHash xxh3_64)).drop start).take
            minTokens) = hash).map (Occurrence.mk file) := by
  refine ⟨fun hashes h => rolledHashes_eq hpos h, ?_, fun hash => ?_⟩
  · rw [windowIndex_eq]
    exact nodup_keys_groupBy _ _ _
  · have hbucket : ∀ l : List (UInt64 × Occurrence),
        (get? hash (groupBy Prod.fst (fun ho => [ho.2]) l)).getD [] =
          (l.filter fun ho => ho.1 = hash).map Prod.snd := by
      intro l
      rw [get?_groupBy]
      split_ifs with hmem
      · simp [map_eq_flatMap]
      · have hnone : l.filter (fun ho => ho.1 = hash) = [] := by
          apply filter_eq_nil_iff.mpr
          intro ho hho heq
          exact hmem (List.mem_map.mpr ⟨ho, hho, of_decide_eq_true heq⟩)
        rw [hnone]
        rfl
    rw [windowIndex_eq, hbucket, filter_flatMap, map_flatMap]
    apply flatMap_congr
    intro file _
    rw [fileWindows_eq hpos, List.filter_map, List.map_map]
    rfl

theorem windowIndex_lists_starts_equalStatements :
    (get? (hashAt (fun bytes => (bytes.map UInt8.toUInt64).sum) equalStatements 3 ⟨0, 1⟩)
      (windowIndex (fun bytes => (bytes.map UInt8.toUInt64).sum) equalStatements [0, 1] 3)).getD [] =
        [⟨0, 1⟩, ⟨1, 1⟩] :=
  ((windowIndex_lists_starts _ equalStatements [0, 1] (by decide)).2.2 _).trans (by decide +kernel)

end Exact

end Reposcout.Dup
