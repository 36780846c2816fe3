import Reposcout.Properties.Dup.FuzzyAgreement
import Reposcout.Properties.Dup.FuzzyGrowth
import Reposcout.Properties.Dup.Seeds

/-!
# Alpha hashes

The alpha hash of a window is the hash of its components: of an identifier the distance to its
previous occurrence inside the window, of another token its shape.  When the window moves on, the
components stay what they are, but for the next occurrence of the identifier that leaves: it becomes
the first one.  That is the correction the rolled hash makes.
-/

namespace Reposcout.Dup.Fuzzy

open List Option KeyedList IdentifierLinks RollingHash

/-! ## Occurrences of identifiers -/

/-- The identifier at a position. -/
def NameAt (tokens : List Token) (i : ℕ) (name : String) : Prop :=
  ∃ token, tokens[i]? = some token ∧ token.kind = .identifier ∧ token.text = name

variable {i : ℕ}

lemma NameAt.eq {tokens : List Token} {name name' : String} (h : NameAt tokens i name)
    (h' : NameAt tokens i name') : name = name' := by
  obtain ⟨token, htoken, -, rfl⟩ := h
  obtain ⟨token', htoken', -, rfl⟩ := h'
  exact congrArg Token.text (some.inj (htoken.symm.trans htoken'))

/-- One occurrence of an identifier is the last one before another. -/
def Prior (tokens : List Token) (j i : ℕ) : Prop :=
  j < i ∧ ∃ name, NameAt tokens j name ∧ NameAt tokens i name ∧
    ∀ m, j < m → m < i → ¬NameAt tokens m name

lemma Prior.lt_length {tokens : List Token} {j : ℕ} (h : Prior tokens j i) :
    i < tokens.length := by
  obtain ⟨-, -, -, ⟨token, htoken, -⟩, -⟩ := h
  exact (List.getElem?_eq_some_iff.mp htoken).1

lemma Prior.left_unique {tokens : List Token} {j j' : ℕ} (h : Prior tokens j i)
    (h' : Prior tokens j' i) : j = j' := by
  obtain ⟨hlt, name, hj, hi, hnone⟩ := h
  obtain ⟨hlt', name', hj', hi', hnone'⟩ := h'
  obtain rfl := hi.eq hi'
  rcases Nat.lt_trichotomy j j' with hless | heq | hmore
  · exact absurd hj' (hnone j' hless hlt')
  · exact heq
  · exact absurd hj (hnone' j hmore hlt)

lemma Prior.right_unique {tokens : List Token} {j i' : ℕ} (h : Prior tokens j i)
    (h' : Prior tokens j i') : i = i' := by
  obtain ⟨hlt, name, hj, hi, hnone⟩ := h
  obtain ⟨hlt', name', hj', hi', hnone'⟩ := h'
  obtain rfl := hj.eq hj'
  rcases Nat.lt_trichotomy i i' with hless | heq | hmore
  · exact absurd hi (hnone' i hlt hless)
  · exact heq
  · exact absurd hi' (hnone i' hlt' hmore)

/-! ## The links -/

structure Linked (tokens : List Token) (k : ℕ) (links : IdentifierLinks) : Prop where
  previous_length : links.previous.length = tokens.length
  next_length : links.next.length = tokens.length
  previous : ∀ i j, (links.previous[i]?).join = some j ↔ i < k ∧ Prior tokens j i
  next : ∀ j i, (links.next[j]?).join = some i ↔ i < k ∧ Prior tokens j i
  last : ∀ name j, get? name links.lastIdentifier = some j →
    j < k ∧ NameAt tokens j name ∧ ∀ m, j < m → m < k → ¬NameAt tokens m name
  absent : ∀ name, get? name links.lastIdentifier = none → ∀ j < k, ¬NameAt tokens j name

lemma linked_empty (tokens : List Token) :
    Linked tokens 0 (empty tokens.length) := by
  have hjoin : ∀ i : ℕ, ((replicate tokens.length (none : Option ℕ))[i]?).join = none := by
    intro i
    rw [getElem?_replicate]
    split_ifs
    · rfl
    · rfl
  refine ⟨length_replicate, length_replicate, ?_, ?_, ?_, ?_⟩
  · intro i j
    rw [empty, hjoin]
    exact iff_of_false (fun h => nomatch h) fun h => absurd h.1 (Nat.not_lt_zero i)
  · intro j i
    rw [empty, hjoin]
    exact iff_of_false (fun h => nomatch h) fun h => absurd h.1 (Nat.not_lt_zero i)
  · exact fun name j h => nomatch h
  · exact fun name _ j hj => absurd hj (Nat.not_lt_zero j)

/-- The entry of a list after a change. -/
lemma join_getElem?_set {l : List (Option ℕ)} {i' : ℕ} {v : Option ℕ} (h : i < l.length) :
    ((l.set i v)[i']?).join = if i = i' then v else (l[i']?).join := by
  rw [getElem?_set]
  split_ifs with heq
  · rfl
  · rfl

/-- What has no identifier in front of it changes nothing about those before it. -/
lemma prior_succ_iff {tokens : List Token} {k : ℕ} (hnone : ∀ j, ¬Prior tokens j k) (i j : ℕ) :
    i < k + 1 ∧ Prior tokens j i ↔ i < k ∧ Prior tokens j i := by
  refine ⟨fun hi => ⟨?_, hi.2⟩, fun hi => ⟨by omega, hi.2⟩⟩
  rcases Nat.lt_succ_iff_lt_or_eq.mp hi.1 with hless | rfl
  · exact hless
  · exact absurd hi.2 (hnone j)

/-- **One more token is linked.** -/
lemma Linked.step {tokens : List Token} {k : ℕ} {links : IdentifierLinks}
    (h : Linked tokens k links) {token : Token} (htoken : tokens[k]? = some token) :
    Linked tokens (k + 1) (linkIdentifier links (token, k)) := by
  obtain ⟨hk, -⟩ := List.getElem?_eq_some_iff.mp htoken
  unfold linkIdentifier
  dsimp only
  by_cases hkind : token.kind = .identifier
  · rw [if_neg (not_not.mpr hkind)]
    have hname : NameAt tokens k token.text := ⟨token, htoken, hkind, rfl⟩
    have hlast : ∀ name j, get? name
        (KeyedList.alter token.text (fun _ => k) links.lastIdentifier) = some j →
        j < k + 1 ∧ NameAt tokens j name ∧ ∀ m, j < m → m < k + 1 → ¬NameAt tokens m name := by
      intro name j hget
      rw [get?_alter] at hget
      split_ifs at hget with heq
      · cases hget
        rw [heq]
        exact ⟨Nat.lt_succ_self k, hname, fun m hlow hhigh => by omega⟩
      · obtain ⟨hlt, hat, hnone⟩ := h.last name j hget
        refine ⟨by omega, hat, fun m hlow hhigh hm => ?_⟩
        rcases Nat.lt_succ_iff_lt_or_eq.mp hhigh with hless | rfl
        · exact hnone m hlow hless hm
        · exact heq (hm.eq hname)
    have habsent : ∀ name, get? name
        (KeyedList.alter token.text (fun _ => k) links.lastIdentifier) = none →
        ∀ j < k + 1, ¬NameAt tokens j name := by
      intro name hget j hj hm
      rw [get?_alter] at hget
      split_ifs at hget with heq
      rcases Nat.lt_succ_iff_lt_or_eq.mp hj with hless | rfl
      · exact h.absent name hget j hless hm
      · exact heq (hm.eq hname)
    split
    · next prior hprior =>
      obtain ⟨hlt, hat, hnone⟩ := h.last token.text prior hprior
      have hpriorTo : Prior tokens prior k := ⟨hlt, token.text, hat, hname, hnone⟩
      refine ⟨?_, ?_, ?_, ?_, hlast, habsent⟩
      · rw [length_set]
        exact h.previous_length
      · rw [length_set]
        exact h.next_length
      · intro i j
        rw [join_getElem?_set (by rw [h.previous_length]; exact hk)]
        split_ifs with heq
        · subst heq
          rw [some.injEq]
          constructor
          · rintro rfl
            exact ⟨Nat.lt_succ_self _, hpriorTo⟩
          · exact fun hj => hpriorTo.left_unique hj.2
        · rw [h.previous]
          exact and_congr_left fun _ => by omega
      · intro j i
        rw [join_getElem?_set (by rw [h.next_length]; omega)]
        split_ifs with heq
        · subst heq
          rw [some.injEq]
          constructor
          · rintro rfl
            exact ⟨Nat.lt_succ_self _, hpriorTo⟩
          · exact fun hi => hpriorTo.right_unique hi.2
        · rw [h.next]
          refine ⟨fun hi => ⟨by omega, hi.2⟩, fun hi => ⟨?_, hi.2⟩⟩
          rcases Nat.lt_succ_iff_lt_or_eq.mp hi.1 with hless | rfl
          · exact hless
          · exact absurd (hpriorTo.left_unique hi.2) heq
    · next hprior =>
      have hnoPrior : ∀ j, ¬Prior tokens j k := by
        rintro j ⟨hlt, name, hj, hi, -⟩
        obtain rfl := hi.eq hname
        exact h.absent _ hprior j hlt hj
      have hsucc := prior_succ_iff hnoPrior
      exact ⟨h.previous_length, h.next_length, fun i j => (h.previous i j).trans (hsucc i j).symm,
        fun j i => (h.next j i).trans (hsucc i j).symm, hlast, habsent⟩
  · rw [if_pos hkind]
    have hnoName : ∀ name, ¬NameAt tokens k name := by
      rintro name ⟨token', htoken', hkind', -⟩
      cases htoken.symm.trans htoken'
      exact hkind hkind'
    have hsucc := prior_succ_iff fun j hprior => by
      obtain ⟨-, name, -, hat, -⟩ := hprior
      exact hnoName name hat
    refine ⟨h.previous_length, h.next_length, fun i j => (h.previous i j).trans (hsucc i j).symm,
      fun j i => (h.next j i).trans (hsucc i j).symm, ?_, ?_⟩
    · intro name j hget
      obtain ⟨hlt, hat, hnone⟩ := h.last name j hget
      refine ⟨by omega, hat, fun m hlow hhigh hm => ?_⟩
      rcases Nat.lt_succ_iff_lt_or_eq.mp hhigh with hless | rfl
      · exact hnone m hlow hless hm
      · exact hnoName name hm
    · intro name hget j hj hm
      rcases Nat.lt_succ_iff_lt_or_eq.mp hj with hless | rfl
      · exact h.absent name hget j hless hm
      · exact hnoName name hm

def linksOf (tokens : List Token) : IdentifierLinks :=
  tokens.zipIdx.foldl linkIdentifier (IdentifierLinks.empty tokens.length)

lemma foldl_linkIdentifier {tokens : List Token} (rest : List Token) :
    ∀ (done : List Token) (links : IdentifierLinks), tokens = done ++ rest →
      Linked tokens done.length links →
      Linked tokens tokens.length ((rest.zipIdx done.length).foldl linkIdentifier links) := by
  induction rest with
  | nil =>
    intro done links htokens h
    rw [append_nil] at htokens
    rw [htokens] at h ⊢
    exact h
  | cons token rest ih =>
    intro done links htokens h
    have htoken : tokens[done.length]? = some token := by
      rw [htokens, getElem?_append_right (Nat.le_refl _), Nat.sub_self]
      rfl
    have hnext := ih (done ++ [token]) _ (htokens.trans (append_cons done token rest))
      (by rw [length_append]; exact h.step htoken)
    rw [length_append] at hnext
    exact hnext

lemma linked_linksOf (tokens : List Token) : Linked tokens tokens.length (linksOf tokens) :=
  foldl_linkIdentifier tokens [] _ rfl (linked_empty tokens)

/-! ## Components -/

section

variable (xxh3_64 : List UInt8 → UInt64) (tokens : List Token)

/-- The component of a token in the window from `start`. -/
def component (i start : ℕ) : UInt64 := alphaComponent xxh3_64 tokens (linksOf tokens) i start

lemma alphaComponent_linksOf (i start : ℕ) :
    alphaComponent xxh3_64 tokens (linksOf tokens) i start = component xxh3_64 tokens i start := rfl

variable {tokens} {start : ℕ}

lemma component_eq_of_prior {j : ℕ} (h : Prior tokens j i) (hle : start ≤ j) :
    component xxh3_64 tokens i start = UInt64.ofNat (i - j) := by
  obtain ⟨-, name, -, ⟨token, htoken, -, -⟩, -⟩ := id h
  obtain ⟨hi, -⟩ := List.getElem?_eq_some_iff.mp htoken
  rw [component, alphaComponent, htoken]
  rw [((linked_linksOf tokens).previous i j).mpr ⟨hi, h⟩]
  dsimp only
  rw [if_pos hle]

/-- The first occurrence of an identifier in the window has no distance. -/
lemma component_eq_zero {name : String} (hname : NameAt tokens i name)
    (h : ∀ j, Prior tokens j i → j < start) : component xxh3_64 tokens i start = 0 := by
  obtain ⟨token, htoken, hkind, -⟩ := hname
  rw [component, alphaComponent, htoken]
  dsimp only
  rw [if_pos hkind]
  split
  · next prior hprior =>
    have hlt := h prior (((linked_linksOf tokens).previous i prior).mp hprior).2
    rw [if_neg (not_le.mpr hlt)]
  · rfl

lemma component_eq_shapeHash {token : Token} (htoken : tokens[i]? = some token)
    (hkind : token.kind ≠ .identifier) :
    component xxh3_64 tokens i start = token.shapeHash xxh3_64 := by
  rw [component, alphaComponent, htoken]
  dsimp only
  rw [if_neg hkind]
  split
  · next prior hprior =>
    obtain ⟨-, -, name, -, ⟨token', htoken', hkind', -⟩, -⟩ :=
      ((linked_linksOf tokens).previous i prior).mp hprior
    cases htoken.symm.trans htoken'
    exact absurd hkind' hkind
  · rfl

/-- A component stays what it is when the window moves on, but for the next occurrence of the
identifier that leaves. -/
lemma component_succ (h : ¬Prior tokens start i) :
    component xxh3_64 tokens i (start + 1) = component xxh3_64 tokens i start := by
  unfold component alphaComponent
  split
  · rfl
  · next token htoken =>
    dsimp only
    split
    · next prior hprior =>
      have hne : prior ≠ start := by
        rintro rfl
        exact h (((linked_linksOf tokens).previous i prior).mp hprior).2
      by_cases hle : start + 1 ≤ prior
      · rw [if_pos hle, if_pos (show prior ≥ start by omega)]
      · rw [if_neg hle, if_neg (show ¬prior ≥ start by omega)]
    · rfl

/-- The next occurrence of the identifier that leaves becomes the first one. -/
lemma component_succ_of_prior (h : Prior tokens start i) :
    component xxh3_64 tokens i (start + 1) = 0 := by
  obtain ⟨-, name, -, hname, -⟩ := id h
  refine component_eq_zero xxh3_64 hname fun j hj => ?_
  rw [h.left_unique hj]
  exact Nat.lt_succ_self j

/-! ## The rolled hash -/

open scoped UInt64.CommRing

variable (tokens)

def components (width start : ℕ) : List UInt64 :=
  (List.range' start width).map fun i => component xxh3_64 tokens i start

def alphaHash (width start : ℕ) : UInt64 :=
  (components xxh3_64 tokens width start).foldl (fun hash value => hash * alphaBase + value) 0

lemma alphaHash_eq (width start : ℕ) : alphaHash xxh3_64 tokens width start =
    hash alphaBase (components xxh3_64 tokens width start) := rfl

lemma foldl_pushPower (count : ℕ) : (range' 1 count).foldl pushPower [1] =
      (range (count + 1)).map fun exponent => alphaBase ^ exponent := by
  induction count with
  | zero => rfl
  | succ count ih =>
    rw [range'_1_concat, foldl_append, ih, foldl_cons, foldl_nil, pushPower,
      Nat.add_sub_cancel_left, getElem?_map, getElem?_range (Nat.lt_succ_self count),
      map_some, getD_some, ← pow_succ]
    conv_rhs => rw [range_succ, map_append, map_singleton]

lemma getD_powers {count exponent : ℕ} (h : exponent ≤ count) :
    (((range' 1 count).foldl pushPower [1])[exponent]?).getD 0 = alphaBase ^ exponent := by
  rw [foldl_pushPower, getElem?_map, getElem?_range (by omega), map_some, getD_some]

lemma foldl_hashInitial (width : ℕ) :
    (range width).foldl (hashInitial xxh3_64 tokens (linksOf tokens)) 0 =
      alphaHash xxh3_64 tokens width 0 := by
  rw [alphaHash, components, foldl_map, ← range_eq_range']
  rfl

variable {width : ℕ}

/-- The window's components before and after it moves on, apart from what leaves and enters. -/
lemma components_succ (h : ∀ i ∈ range' (start + 1) width, ¬Prior tokens start i) :
    (range' (start + 1) width).map (fun i => component xxh3_64 tokens i start) =
      (range' (start + 1) width).map fun i => component xxh3_64 tokens i (start + 1) :=
  map_congr_left fun i hi => (component_succ xxh3_64 (h i hi)).symm

/-- **The rolled hash is the hash of the next window.** -/
lemma rollAlpha_eq (width start : ℕ) :
    rollAlpha xxh3_64 tokens (linksOf tokens) ((range' 1 width).foldl pushPower [1]) (width + 1)
        (alphaHash xxh3_64 tokens (width + 1) start) (start + 1) =
      alphaHash xxh3_64 tokens (width + 1) (start + 1) := by
  have hlast : alphaHash xxh3_64 tokens (width + 1) (start + 1) =
      hash alphaBase ((range' (start + 1) width).map
        (fun i => component xxh3_64 tokens i (start + 1)) ++
        [component xxh3_64 tokens (start + 1 + width) (start + 1)]) := by
    rw [alphaHash_eq, components, range'_1_concat, map_append, map_singleton]
  have hrolled : (alphaHash xxh3_64 tokens (width + 1) start -
        component xxh3_64 tokens start start * alphaBase ^ width) * alphaBase +
        component xxh3_64 tokens (start + 1 + width) (start + 1) =
      hash alphaBase ((range' (start + 1) width).map
        (fun i => component xxh3_64 tokens i start) ++
        [component xxh3_64 tokens (start + 1 + width) (start + 1)]) := by
    have hroll := roll_hash alphaBase (component xxh3_64 tokens start start)
      (component xxh3_64 tokens (start + 1 + width) (start + 1))
      ((range' (start + 1) width).map fun i => component xxh3_64 tokens i start)
    rw [length_map, length_range'] at hroll
    rw [← hroll, alphaHash_eq, components, range'_succ, map_cons]
    rfl
  have hincoming : start + 1 + (width + 1) - 1 = start + 1 + width := by omega
  have hpower : (((range' 1 width).foldl pushPower [1])[width]?).getD 0 = alphaBase ^ width :=
    getD_powers (Nat.le_refl width)
  unfold rollAlpha
  rw [Nat.add_sub_cancel, Nat.add_sub_cancel, hincoming, hpower]
  simp only [alphaComponent_linksOf]
  rw [hrolled, hlast]
  -- The components are the same but for the next occurrence of the identifier that leaves.
  cases hnext : ((linksOf tokens).next[start]?).join with
  | none =>
    rw [components_succ xxh3_64 tokens fun i hi hprior => ?_]
    have hlinked := ((linked_linksOf tokens).next start i).mpr ⟨hprior.lt_length, hprior⟩
    rw [hnext] at hlinked
    cases hlinked
  | some nextOccurrence =>
    have hprior := (((linked_linksOf tokens).next start nextOccurrence).mp hnext).2
    dsimp only
    by_cases hinside : nextOccurrence < start + 1 + width
    · rw [if_pos hinside]
      have hafter := hprior.1
      obtain ⟨before, rfl⟩ : ∃ before, nextOccurrence = start + 1 + before :=
        ⟨nextOccurrence - (start + 1), by omega⟩
      obtain ⟨behind, rfl⟩ : ∃ behind, width = before + (behind + 1) :=
        ⟨width - before - 1, by omega⟩
      have hsplit : range' (start + 1) (before + (behind + 1)) =
          range' (start + 1) before ++
            (start + 1 + before) :: range' (start + 1 + before + 1) behind := by
        rw [← range'_append_1, range'_succ]
      have hother : ∀ i, i ≠ start + 1 + before →
          component xxh3_64 tokens i (start + 1) = component xxh3_64 tokens i start := fun i hi =>
        component_succ xxh3_64 fun h => hi (hprior.right_unique h).symm
      have hfront : (range' (start + 1) before).map
            (fun i => component xxh3_64 tokens i (start + 1)) =
          (range' (start + 1) before).map fun i => component xxh3_64 tokens i start := by
        refine map_congr_left fun i hi => hother i ?_
        have hbounds := mem_range'_1.mp hi
        omega
      have hback : (range' (start + 1 + before + 1) behind).map
            (fun i => component xxh3_64 tokens i (start + 1)) =
          (range' (start + 1 + before + 1) behind).map
            fun i => component xxh3_64 tokens i start := by
        refine map_congr_left fun i hi => hother i ?_
        have hbounds := mem_range'_1.mp hi
        omega
      rw [hsplit, map_append, map_append, map_cons, map_cons, hfront, hback,
        component_succ_of_prior xxh3_64 hprior, ← component_eq_of_prior xxh3_64 hprior
        (Nat.le_refl start), append_assoc, append_assoc, cons_append,
        cons_append]
      have hsub := hash_sub alphaBase
        ((range' (start + 1) before).map fun i => component xxh3_64 tokens i start)
        ((range' (start + 1 + before + 1) behind).map
          (fun i => component xxh3_64 tokens i start) ++
          [component xxh3_64 tokens (start + 1 + (before + (behind + 1))) (start + 1)])
        (component xxh3_64 tokens (start + 1 + before) start)
      rw [← hsub, length_append, length_map, length_range', length_singleton,
        show start + 1 + (before + (behind + 1)) - (start + 1 + before) = behind + 1 by omega]
      congr 2
      exact getD_powers (by omega)
    · rw [if_neg hinside, components_succ xxh3_64 tokens fun i hi hother => ?_]
      have hbounds := mem_range'_1.mp hi
      have heq := hprior.right_unique hother
      omega

lemma foldl_pushAlpha (width count : ℕ) :
    (range' 1 count).foldl (pushAlpha xxh3_64 tokens (linksOf tokens)
        ((range' 1 width).foldl pushPower [1]) (width + 1))
        ([alphaHash xxh3_64 tokens (width + 1) 0], alphaHash xxh3_64 tokens (width + 1) 0) =
      ((range (count + 1)).map (alphaHash xxh3_64 tokens (width + 1)),
        alphaHash xxh3_64 tokens (width + 1) count) := by
  induction count with
  | zero => rfl
  | succ count ih =>
    rw [range'_1_concat, foldl_append, ih, foldl_cons, foldl_nil, pushAlpha,
      Nat.add_comm 1 count, rollAlpha_eq, range_succ (n := count + 1), map_append,
      map_singleton]

/-- **The rolled alpha hashes** are the alpha hashes of the windows. -/
lemma alphaWindowHashes_eq (hpos : 0 < width) (h : width ≤ tokens.length) :
    alphaWindowHashes xxh3_64 tokens width =
      (range (tokens.length - width + 1)).map (alphaHash xxh3_64 tokens width) := by
  obtain ⟨n, rfl⟩ : ∃ n, width = n + 1 := ⟨width - 1, by omega⟩
  have hinitial := foldl_hashInitial xxh3_64 tokens (n + 1)
  unfold alphaWindowHashes
  rw [if_neg (by omega)]
  change ((range' 1 (tokens.length - (n + 1))).foldl (pushAlpha xxh3_64 tokens (linksOf tokens)
    ((range' 1 n).foldl pushPower [1]) (n + 1))
    ([(range (n + 1)).foldl (hashInitial xxh3_64 tokens (linksOf tokens)) 0],
      (range (n + 1)).foldl (hashInitial xxh3_64 tokens (linksOf tokens)) 0)).1 = _
  rw [hinitial, foldl_pushAlpha]

/-! ## The reference -/

/-- The loop body of `alpha_window_hashes_reference`: the hash so far, and the last occurrence of
every identifier of the window. -/
def referenceStep (s : UInt64 × List (String × ℕ)) (index : ℕ) : UInt64 × List (String × ℕ) :=
  match tokens[index]? with
  | none => s
  | some token =>
    if token.kind = .identifier then
      let value := match get? token.text s.2 with
        | some prior => UInt64.ofNat (index - prior)
        | none => 0
      (s.1 * alphaBase + value, KeyedList.alter token.text (fun _ => index) s.2)
    else (s.1 * alphaBase + token.shapeHash xxh3_64, s.2)

/-- `alpha_window_hashes_reference`: every window is hashed from scratch. -/
def alphaWindowHashesReference (window : ℕ) : List UInt64 :=
  if window = 0 ∨ tokens.length < window then []
  else
    (List.range (tokens.length - window + 1)).map fun start =>
      ((List.range' start window).foldl (referenceStep xxh3_64 tokens) (0, [])).1

/-- What the loop knows of the identifiers of the window. -/
structure LastIn (start stop : ℕ) (previous : List (String × ℕ)) : Prop where
  last : ∀ name j, get? name previous = some j →
    start ≤ j ∧ j < stop ∧ NameAt tokens j name ∧ ∀ m, j < m → m < stop → ¬NameAt tokens m name
  absent : ∀ name, get? name previous = none → ∀ j, start ≤ j → j < stop → ¬NameAt tokens j name

variable {tokens} {previous : List (String × ℕ)} {stop : ℕ}

lemma LastIn.skip (h : LastIn tokens start stop previous)
    (hnone : ∀ name, ¬NameAt tokens stop name) : LastIn tokens start (stop + 1) previous := by
  constructor
  · intro name j hget
    obtain ⟨hle, hlt, hat, hafter⟩ := h.last name j hget
    refine ⟨hle, by omega, hat, fun m hlow hhigh hm => ?_⟩
    rcases Nat.lt_succ_iff_lt_or_eq.mp hhigh with hless | rfl
    · exact hafter m hlow hless hm
    · exact hnone name hm
  · intro name hget j hle hj hm
    rcases Nat.lt_succ_iff_lt_or_eq.mp hj with hless | rfl
    · exact h.absent name hget j hle hless hm
    · exact hnone name hm

lemma LastIn.insert (h : LastIn tokens start stop previous) (hle : start ≤ stop) {name : String}
    (hname : NameAt tokens stop name) :
    LastIn tokens start (stop + 1) (alter name (fun _ => stop) previous) := by
  constructor
  · intro other j hget
    rw [get?_alter] at hget
    split_ifs at hget with heq
    · cases hget
      rw [heq]
      exact ⟨hle, Nat.lt_succ_self stop, hname, fun m hlow hhigh => by omega⟩
    · obtain ⟨hfrom, hlt, hat, hafter⟩ := h.last other j hget
      refine ⟨hfrom, by omega, hat, fun m hlow hhigh hm => ?_⟩
      rcases Nat.lt_succ_iff_lt_or_eq.mp hhigh with hless | rfl
      · exact hafter m hlow hless hm
      · exact heq (hm.eq hname)
  · intro other hget j hfrom hj hm
    rw [get?_alter] at hget
    split_ifs at hget with heq
    rcases Nat.lt_succ_iff_lt_or_eq.mp hj with hless | rfl
    · exact h.absent other hget j hfrom hless hm
    · exact heq (hm.eq hname)

lemma referenceStep_eq (h : LastIn tokens start stop previous) (hle : start ≤ stop)
    (hstop : stop < tokens.length) (hash : UInt64) :
    (referenceStep xxh3_64 tokens (hash, previous) stop).1 =
        hash * alphaBase + component xxh3_64 tokens stop start ∧
      LastIn tokens start (stop + 1) (referenceStep xxh3_64 tokens (hash, previous) stop).2 := by
  have htoken := getElem?_eq_getElem hstop
  generalize tokens[stop] = token at htoken
  unfold referenceStep
  rw [htoken]
  dsimp only
  by_cases hkind : token.kind = .identifier
  · rw [if_pos hkind]
    have hname : NameAt tokens stop token.text := ⟨token, htoken, hkind, rfl⟩
    refine ⟨?_, h.insert hle hname⟩
    cases hget : get? token.text previous with
    | some prior =>
      obtain ⟨hfrom, hlt, hat, hafter⟩ := h.last _ _ hget
      rw [component_eq_of_prior xxh3_64 ⟨hlt, token.text, hat, hname, hafter⟩ hfrom]
    | none =>
      have hzero : component xxh3_64 tokens stop start = 0 := by
        refine component_eq_zero xxh3_64 hname fun j hj => ?_
        obtain ⟨hlt, name, hat, hat', -⟩ := hj
        obtain rfl := hat'.eq hname
        by_contra hfrom
        exact h.absent _ hget j (not_lt.mp hfrom) hlt hat
      rw [hzero]
  · rw [if_neg hkind]
    refine ⟨by rw [component_eq_shapeHash xxh3_64 htoken hkind], h.skip ?_⟩
    rintro name ⟨token', htoken', hkind', -⟩
    cases htoken.symm.trans htoken'
    exact hkind hkind'

lemma foldl_referenceStep (h : start + width ≤ tokens.length) :
    ((range' start width).foldl (referenceStep xxh3_64 tokens) (0, [])).1 =
        alphaHash xxh3_64 tokens width start ∧
      LastIn tokens start (start + width)
        ((range' start width).foldl (referenceStep xxh3_64 tokens) (0, [])).2 := by
  induction width with
  | zero =>
    exact ⟨rfl, (fun _ _ hget => nomatch hget), fun _ _ j hle hlt => absurd hle (not_le.mpr hlt)⟩
  | succ width ih =>
    obtain ⟨hhash, hlast⟩ := ih (by omega)
    rw [range'_1_concat, foldl_append, foldl_cons, foldl_nil]
    generalize (range' start width).foldl (referenceStep xxh3_64 tokens) (0, []) = s at *
    obtain ⟨hash, previous⟩ := s
    obtain ⟨hnext, hlast'⟩ := referenceStep_eq xxh3_64 hlast (Nat.le_add_right start width)
      (by omega) hash
    refine ⟨?_, hlast'⟩
    dsimp only at hhash
    rw [hnext, hhash, alphaHash, alphaHash, components, components, range'_1_concat,
      map_append, map_singleton, foldl_append]
    rfl

end

/-- **The rolled hashes are those of the reference**, for every list of tokens and every length of a
window, longer ones included; with progress too. -/
theorem alphaWindowHashes_eq_reference (xxh3_64 : List UInt8 → UInt64) (tokens : List Token)
    (window : ℕ) :
    alphaWindowHashes xxh3_64 tokens window = alphaWindowHashesReference xxh3_64 tokens window ∧
      ∀ (σ : Type) (progress : String → ℕ → ℕ → σ → σ) (w : σ),
        (alphaWindowHashesWithProgress xxh3_64 tokens window progress w).1 =
          alphaWindowHashesReference xxh3_64 tokens window := by
  have heq : alphaWindowHashes xxh3_64 tokens window =
      alphaWindowHashesReference xxh3_64 tokens window := by
    unfold alphaWindowHashesReference
    by_cases hnone : window = 0 ∨ tokens.length < window
    · rw [if_pos hnone, alphaWindowHashes, if_pos hnone]
    · rw [if_neg hnone, alphaWindowHashes_eq xxh3_64 tokens (by omega) (by omega)]
      refine map_congr_left fun start hstart => ?_
      have hlt := mem_range.mp hstart
      exact (foldl_referenceStep xxh3_64 (by omega)).1.symm
  refine ⟨heq, fun σ progress w => ?_⟩
  rw [alphaWindowHashesWithProgress_fst]
  exact heq

/-- A token of a hash that numbers the identifiers of the window, in the order of their first
occurrences. -/
def numberStep (xxh3_64 : List UInt8 → UInt64) (first : UInt64) (s : UInt64 × List String)
    (token : Token) : UInt64 × List String :=
  if token.kind = .identifier then
    let names := if token.text ∈ s.2 then s.2 else s.2 ++ [token.text]
    (s.1 * alphaBase + (first + UInt64.ofNat (names.idxOf token.text)), names)
  else (s.1 * alphaBase + token.shapeHash xxh3_64, s.2)

def numberedWindowHashes (xxh3_64 : List UInt8 → UInt64) (first : UInt64) (tokens : List Token)
    (window : ℕ) : List UInt64 :=
  if window = 0 ∨ tokens.length < window then []
  else
    (List.range (tokens.length - window + 1)).map fun start =>
      ((RollingHash.window tokens window start).foldl (numberStep xxh3_64 first) (0, [])).1

def repeatedIdentifier : List Token :=
  [⟨.identifier, "x", 1, 1, 1, 2, 0, 1⟩, ⟨.identifier, "x", 1, 1, 3, 4, 2, 3⟩]

/-- No numbering gives the alpha hashes, whatever its first number. -/
theorem not_numbered_repeatedIdentifier :
    ¬∃ first : UInt64, ∀ (xxh3_64 : List UInt8 → UInt64) (tokens : List Token) (window : ℕ),
      0 < window → alphaWindowHashes xxh3_64 tokens window =
          numberedWindowHashes xxh3_64 first tokens window := by
  rintro ⟨first, h⟩
  have hwindow := h (fun _ => 0) repeatedIdentifier 2 Nat.two_pos
  have hrolled : alphaWindowHashes (fun _ => 0) repeatedIdentifier 2 = [1] := by decide +kernel
  have hnumbered : numberedWindowHashes (fun _ => 0) first repeatedIdentifier 2 =
      [(0 * alphaBase + (first + 0)) * alphaBase + (first + 0)] := rfl
  rw [hrolled, hnumbered, cons.injEq] at hwindow
  -- The base is odd, so the hash of a number that is met twice is even.
  have hparity := congrArg UInt64.toNat hwindow.1
  have hbase : alphaBase.toNat = 5871781006564002453 := by decide
  simp only [UInt64.toNat_add, UInt64.toNat_mul, hbase, UInt64.toNat_zero, UInt64.toNat_one]
    at hparity
  omega

end Reposcout.Dup.Fuzzy
