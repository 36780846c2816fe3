import Mathlib.Algebra.Order.Field.Rat
import Reposcout.Dup.Fuzzy.Candidates

/-!
# The growth of a seed to a maximal qualified match

`GrowthOk` is the invariant of the growth loops: the current region lies in both files, its
pairs are held by the mapping, its score is the sum of their credits, and the best extent so
far is a qualified match in its own right.  The seed establishes it, one accepted pair on
either side keeps it, and so do the two loops.
-/

/-!
## What verification establishes about a candidate

Two token ranges are a renamed pair when they agree position by position in shape and the
identifiers of one side are renamed to those of the other by a bijection.  The mapping that
`acceptPair` extends holds every identifier pair accepted so far in both directions, and an
entry never changes once it is made, so whatever the direction in which the region is grown,
the accepted pairs stay renamed consistently as a whole.
-/

namespace Reposcout.Dup.Fuzzy

open List Option KeyedList

/-! ## Renamed pairs -/

/-- The credit of a pair: full for equal text, and less for a renamed identifier or a changed
literal. -/
def pairCredit (p : Token × Token) : ℚ :=
  if p.1.text = p.2.text then 1
  else
    match p.1.kind with
    | .identifier => 4 / 5
    | .literal _ => 7 / 10
    | _ => 0

/-- The pairs agree in shape, and their identifiers correspond one to one. -/
structure RenamedPairs (pairs : List (Token × Token)) : Prop where
  shape : ∀ p ∈ pairs, p.1.shapeEq p.2 = true
  bijective : ∀ p ∈ pairs, ∀ q ∈ pairs, p.1.kind = .identifier → q.1.kind = .identifier →
    (p.1.text = q.1.text ↔ p.2.text = q.2.text)

lemma Token.shapeEq_comm (t other : Token) : t.shapeEq other = other.shapeEq t := by
  unfold Token.shapeEq
  cases t.kind <;> cases other.kind <;>
    first
    | rfl
    | exact Token.exactEq_comm t other
    | exact decide_eq_decide.mpr eq_comm

lemma kind_eq_of_shapeEq {t other : Token} (h : t.shapeEq other = true) :
    t.kind = other.kind := by
  unfold Token.shapeEq at h
  split at h
  · next h₁ h₂ => rw [h₁, h₂]
  · next a b h₁ h₂ => rw [h₁, h₂, of_decide_eq_true h]
  · exact (Token.exactEq_iff.mp h).1

variable {pairs : List (Token × Token)}

lemma RenamedPairs.swap (h : RenamedPairs pairs) :
    RenamedPairs (pairs.map Prod.swap) where
  shape := by
    intro p hp
    obtain ⟨q, hq, rfl⟩ := List.mem_map.mp hp
    rw [Prod.fst_swap, Prod.snd_swap, Token.shapeEq_comm]
    exact h.shape q hq
  bijective := by
    intro p hp q hq hpk hqk
    obtain ⟨p, hmemp, rfl⟩ := List.mem_map.mp hp
    obtain ⟨q, hmemq, rfl⟩ := List.mem_map.mp hq
    have hp' : p.1.kind = .identifier := (kind_eq_of_shapeEq (h.shape p hmemp)).trans hpk
    have hq' : q.1.kind = .identifier := (kind_eq_of_shapeEq (h.shape q hmemq)).trans hqk
    exact (h.bijective p hmemp q hmemq hp' hq').symm

lemma pairCredit_swap {p : Token × Token} (h : p.1.shapeEq p.2 = true) :
    pairCredit p.swap = pairCredit p := by
  unfold pairCredit
  rw [Prod.fst_swap, Prod.snd_swap, kind_eq_of_shapeEq h]
  simp only [@eq_comm _ p.2.text]

/-! ## The mapping holds the accepted pairs -/

/-- The mapping pairs two names in both directions. -/
structure Bijection.Maps (m : Bijection) (left right : String) : Prop where
  forward : get? left m.forward = some right
  reverse : get? right m.reverse = some left

variable {m m' : Bijection}

/-- Accepting a pair of names reserves it and keeps every earlier pair. -/
lemma Bijection.acceptIdentifier_spec {left right : String}
    (h : m.acceptIdentifier left right = some m') :
    m'.Maps left right ∧ ∀ l r, m.Maps l r → m'.Maps l r := by
  unfold Bijection.acceptIdentifier at h
  split_ifs at h with hconflict
  simp only [Bool.or_eq_true, not_or, Bool.not_eq_true, Option.any_eq_false,
    decide_eq_false_iff_not, ne_eq, not_not] at hconflict
  obtain ⟨hforward, hreverse⟩ := hconflict
  have hleft : (get? left m.forward).getD right = right := by
    cases hget : get? left m.forward with
    | none => rfl
    | some existing => exact hforward existing hget
  have hright : (get? right m.reverse).getD left = left := by
    cases hget : get? right m.reverse with
    | none => rfl
    | some existing => exact hreverse existing hget
  cases h
  refine ⟨⟨?_, ?_⟩, ?_⟩
  · rw [get?_alter_self, hleft]
  · rw [get?_alter_self, hright]
  · intro l r hmaps
    refine ⟨?_, ?_⟩
    · rw [get?_alter]
      split_ifs with hl
      · have hr : r = right := hforward r (hl ▸ hmaps.forward)
        rw [hleft, hr]
      · exact hmaps.forward
    · rw [get?_alter]
      split_ifs with hr
      · have hl : l = left := hreverse l (hr ▸ hmaps.reverse)
        rw [hright, hl]
      · exact hmaps.reverse

structure Bijection.Holds (m : Bijection) (pairs : List (Token × Token)) : Prop where
  shape : ∀ p ∈ pairs, p.1.shapeEq p.2 = true
  maps : ∀ p ∈ pairs, p.1.kind = .identifier → m.Maps p.1.text p.2.text

lemma Bijection.holds_nil (m : Bijection) : m.Holds [] :=
  ⟨by simp, by simp⟩

lemma Bijection.Holds.of_perm {pairs pairs' : List (Token × Token)} (h : m.Holds pairs)
    (hperm : pairs'.Perm pairs) : m.Holds pairs' :=
  ⟨fun p hp => h.shape p (hperm.mem_iff.mp hp), fun p hp => h.maps p (hperm.mem_iff.mp hp)⟩

lemma Bijection.Holds.renamedPairs (h : m.Holds pairs) :
    RenamedPairs pairs where
  shape := h.shape
  bijective := by
    intro p hp q hq hpk hqk
    have hmp := h.maps p hp hpk
    have hmq := h.maps q hq hqk
    constructor
    · intro heq
      exact some.inj (hmp.forward.symm.trans (heq ▸ hmq.forward))
    · intro heq
      exact some.inj (hmp.reverse.symm.trans (heq ▸ hmq.reverse))

variable {left right : Token}

lemma shapeEq_of_acceptPair {S : Type} [Score S] {credit : S}
    (h : acceptPair left right m = some (credit, m')) : left.shapeEq right = true := by
  by_contra hnot
  simp [acceptPair, hnot] at h

/-- **One accepted pair** joins the pairs the mapping holds, whatever the credit. -/
lemma holds_of_acceptPair {S : Type} [Score S] {credit : S} (hm : m.Holds pairs)
    (h : acceptPair left right m = some (credit, m')) : m'.Holds ((left, right) :: pairs) := by
  have hshape := shapeEq_of_acceptPair h
  have hkind := kind_eq_of_shapeEq hshape
  unfold acceptPair at h
  rw [hshape, Bool.not_true, if_neg Bool.false_ne_true] at h
  split at h
  · next hleft hright =>
    split at h
    · simp at h
    · next extended hextended =>
      obtain ⟨-, rfl⟩ : _ ∧ extended = m' := by simpa using h
      obtain ⟨hnew, hkeep⟩ := Bijection.acceptIdentifier_spec hextended
      refine ⟨?_, ?_⟩
      · exact forall_mem_cons.mpr ⟨hshape, hm.shape⟩
      · exact forall_mem_cons.mpr
          ⟨fun _ => hnew, fun p hp hpk => hkeep _ _ (hm.maps p hp hpk)⟩
  · next hleft hright =>
    obtain ⟨-, rfl⟩ : _ ∧ m = m' := by simpa using h
    refine ⟨?_, ?_⟩
    · exact forall_mem_cons.mpr ⟨hshape, hm.shape⟩
    · exact forall_mem_cons.mpr ⟨fun hk => by simp [hleft] at hk, hm.maps⟩
  · next hnotIdentifier _ =>
    split_ifs at h with hexact
    obtain ⟨-, rfl⟩ : _ ∧ m = m' := by simpa using h
    refine ⟨?_, ?_⟩
    · exact forall_mem_cons.mpr ⟨hshape, hm.shape⟩
    · refine forall_mem_cons.mpr ⟨fun hk => ?_, hm.maps⟩
      exact absurd (hkind.symm.trans hk) (hnotIdentifier hk)

variable {credit : ℚ}

lemma credit_of_acceptPair (h : acceptPair left right m = some (credit, m')) :
    credit = pairCredit (left, right) := by
  have hshape := shapeEq_of_acceptPair h
  unfold acceptPair at h
  rw [hshape, Bool.not_true, if_neg Bool.false_ne_true] at h
  split at h
  · next hleft hright =>
    split at h
    · simp at h
    · next extended hextended =>
      obtain ⟨rfl, -⟩ : _ = credit ∧ extended = m' := by simpa using h
      unfold pairCredit
      rw [hleft]
      rfl
  · next hleft hright =>
    obtain ⟨rfl, -⟩ : _ = credit ∧ m = m' := by simpa using h
    unfold pairCredit
    rw [hleft]
    rfl
  · split_ifs at h with hexact
    obtain ⟨rfl, -⟩ : _ = credit ∧ m = m' := by simpa using h
    unfold pairCredit
    rw [if_pos (Token.exactEq_iff.mp hexact).2]
    rfl

lemma acceptPair_spec (hm : m.Holds pairs) (h : acceptPair left right m = some (credit, m')) :
    m'.Holds ((left, right) :: pairs) ∧ credit = pairCredit (left, right) :=
  ⟨holds_of_acceptPair hm h, credit_of_acceptPair h⟩

/-- The pairs of a region, position by position. -/
def pairsAt (left right : List Token) (aStart bStart len : Nat) : List (Token × Token) :=
  ((left.drop aStart).take len).zip ((right.drop bStart).take len)

def totalCredit (pairs : List (Token × Token)) : ℚ := (pairs.map pairCredit).sum

variable {pairs : List (Token × Token)}

lemma totalCredit_of_perm {pairs' : List (Token × Token)} (h : pairs'.Perm pairs) :
    totalCredit pairs' = totalCredit pairs :=
  (h.map pairCredit).sum_eq

variable {left right : List Token} {aStart bStart : Nat}

lemma pairsAt_succ_left {len : Nat} (ha : aStart < left.length) (hb : bStart < right.length) :
    pairsAt left right aStart bStart (len + 1) =
      (left[aStart], right[bStart]) :: pairsAt left right (aStart + 1) (bStart + 1) len := by
  unfold pairsAt
  rw [drop_eq_getElem_cons ha, drop_eq_getElem_cons hb, take_succ_cons,
    take_succ_cons, zip_cons_cons]

lemma pairsAt_succ_right {len : Nat} (ha : aStart + len < left.length)
    (hb : bStart + len < right.length) :
    pairsAt left right aStart bStart (len + 1) = pairsAt left right aStart bStart len ++
        [(left[aStart + len], right[bStart + len])] := by
  unfold pairsAt
  have ha' : len < (left.drop aStart).length := by rw [length_drop]; omega
  have hb' : len < (right.drop bStart).length := by rw [length_drop]; omega
  rw [take_succ_eq_append_getElem ha', take_succ_eq_append_getElem hb',
    zip_append (by simp; omega), zip_cons_cons, zip_nil_left, getElem_drop,
    getElem_drop]

/-! ## Qualified matches -/

/-- What a reported match satisfies: both ranges lie in their files, the pairs are renamed
consistently, and the similarity is their average credit, at the threshold or above. -/
structure MatchOk (left right : List Token) (threshold : ℚ) (seedLen aStart bStart len : Nat)
    (similarity : ℚ) : Prop where
  left_le : aStart + len ≤ left.length
  right_le : bStart + len ≤ right.length
  seed_le : seedLen ≤ len
  renamed : RenamedPairs (pairsAt left right aStart bStart len)
  similarity_eq : similarity = totalCredit (pairsAt left right aStart bStart len) / len
  threshold_le : threshold ≤ similarity

/-- In one file the two sides of a region are at the distance of its seed and do not reach
into each other. -/
def Apart (sameFile : Bool) (distance aStart bStart len : Nat) : Prop :=
  absDiff aStart bStart = distance ∧ (sameFile = true → len ≤ distance)

structure GrowthOk (left right : List Token) (threshold : ℚ) (seedLen : Nat) (sameFile : Bool)
    (distance : Nat) (g : Growth ℚ) : Prop where
  left_le : g.aStart + g.len ≤ left.length
  right_le : g.bStart + g.len ≤ right.length
  seed_le : seedLen ≤ g.len
  holds : g.mapping.Holds (pairsAt left right g.aStart g.bStart g.len)
  score : g.score = totalCredit (pairsAt left right g.aStart g.bStart g.len)
  apart : Apart sameFile distance g.aStart g.bStart g.len
  best : MatchOk left right threshold seedLen g.best.aStart g.best.bStart g.best.len
    g.best.similarity
  best_apart : Apart sameFile distance g.best.aStart g.best.bStart g.best.len

variable {threshold : ℚ} {seedLen distance : Nat} {sameFile : Bool}

/-- A region whose pairs are held and scored is a match once its similarity qualifies. -/
lemma matchOk_of_scored {m : Bijection} {score : ℚ} {len : Nat}
    (ha : aStart + len ≤ left.length) (hb : bStart + len ≤ right.length) (hlen : seedLen ≤ len)
    (hholds : m.Holds (pairsAt left right aStart bStart len))
    (hscore : score = totalCredit (pairsAt left right aStart bStart len))
    (hqualified : threshold ≤ score / len) :
    MatchOk left right threshold seedLen aStart bStart len (score / len) :=
  ⟨ha, hb, hlen, hholds.renamedPairs, by rw [hscore], hqualified⟩

variable {g : Growth ℚ}

/-- **One accepted pair keeps the invariant**, on whichever side it is added. -/
lemma GrowthOk.accept (h : GrowthOk left right threshold seedLen sameFile distance g) {back : Nat}
    {x y : Token} {mapping : Bijection}
    (haccept : acceptPair x y g.mapping = some (credit, mapping))
    (ha : g.aStart - back + (g.len + 1) ≤ left.length)
    (hb : g.bStart - back + (g.len + 1) ≤ right.length) (hback : back ≤ g.aStart ∧ back ≤ g.bStart)
    (hroom : sameFile = true → g.len + 1 ≤ distance)
    (hpairs : (pairsAt left right (g.aStart - back) (g.bStart - back) (g.len + 1)).Perm
      ((x, y) :: pairsAt left right g.aStart g.bStart g.len)) :
    GrowthOk left right threshold seedLen sameFile distance
      (g.accept threshold back credit mapping) := by
  obtain ⟨hholds, hcredit⟩ := acceptPair_spec h.holds haccept
  have hholds' := hholds.of_perm hpairs
  have hscore : g.score + credit =
      totalCredit (pairsAt left right (g.aStart - back) (g.bStart - back) (g.len + 1)) := by
    rw [totalCredit_of_perm hpairs, h.score, hcredit]
    unfold totalCredit
    rw [map_cons, sum_cons, add_comm]
  have hapart : Apart sameFile distance (g.aStart - back) (g.bStart - back) (g.len + 1) := by
    refine ⟨?_, hroom⟩
    have := h.apart.1
    unfold absDiff at this ⊢
    omega
  have hseed : seedLen ≤ g.len + 1 := Nat.le_succ_of_le h.seed_le
  unfold Growth.accept
  dsimp only
  by_cases hqualified :
      Score.atLeast (Score.perToken (Score.add g.score credit) (g.len + 1)) threshold = true
  · rw [if_pos hqualified]
    exact ⟨ha, hb, hseed, hholds', hscore, hapart,
      matchOk_of_scored ha hb hseed hholds' hscore (of_decide_eq_true hqualified), hapart⟩
  · rw [if_neg hqualified]
    exact ⟨ha, hb, hseed, hholds', hscore, hapart, h.best, h.best_apart⟩

/-! ## The loops -/

/-- The neighbouring pairs in front of a region, nearest first. -/
def pairsBefore (left right : List Token) (aStart bStart : Nat) : List (Token × Token) :=
  (left.take aStart).reverse.zip (right.take bStart).reverse

def pairsAfter (left right : List Token) (aStop bStop : Nat) : List (Token × Token) :=
  (left.drop aStop).zip (right.drop bStop)

lemma pairsBefore_succ (ha : aStart < left.length) (hb : bStart < right.length) :
    pairsBefore left right (aStart + 1) (bStart + 1) =
      (left[aStart], right[bStart]) :: pairsBefore left right aStart bStart := by
  unfold pairsBefore
  rw [take_succ_eq_append_getElem ha, take_succ_eq_append_getElem hb,
    reverse_append, reverse_append]
  rfl

variable {v : VerificationObserver Unit}

lemma grow_left_ok (h : GrowthOk left right threshold seedLen sameFile distance g)
    (hpairs : pairs = pairsBefore left right g.aStart g.bStart) (w : Unit) :
    GrowthOk left right threshold seedLen sameFile distance
      (grow v sameFile distance threshold 1 pairs g w).1 := by
  induction pairs generalizing g w with
  | nil => exact h
  | cons pair rest ih =>
    unfold grow
    split_ifs with hfull
    · exact h
    split
    · exact h
    · next credit mapping haccept =>
      -- The pairs in front of the region are not exhausted, so neither side starts at zero.
      cases hstartA : g.aStart with
      | zero => simp [hstartA, pairsBefore] at hpairs
      | succ aStart =>
        cases hstartB : g.bStart with
        | zero => simp [hstartB, pairsBefore] at hpairs
        | succ bStart =>
          have hleft := h.left_le
          have hright := h.right_le
          rw [hstartA, hstartB, pairsBefore_succ (by omega) (by omega)] at hpairs
          obtain ⟨hpair, hrest⟩ := cons.inj hpairs
          refine ih (h.accept haccept (by omega) (by omega) (by omega) ?_ ?_) ?_ _
          · intro hsame
            by_contra hlt
            exact hfull ⟨hsame, by omega⟩
          · rw [hstartA, hstartB, Nat.add_sub_cancel, Nat.add_sub_cancel,
              pairsAt_succ_left (by omega) (by omega), ← hpair]
          · unfold Growth.accept
            rw [hstartA, hstartB, Nat.add_sub_cancel, Nat.add_sub_cancel, hrest]

lemma grow_right_ok (h : GrowthOk left right threshold seedLen sameFile distance g)
    (hpairs : pairs = pairsAfter left right (g.aStart + g.len) (g.bStart + g.len)) (w : Unit) :
    GrowthOk left right threshold seedLen sameFile distance
      (grow v sameFile distance threshold 0 pairs g w).1 := by
  induction pairs generalizing g w with
  | nil => exact h
  | cons pair rest ih =>
    unfold grow
    split_ifs with hfull
    · exact h
    split
    · exact h
    · next credit mapping haccept =>
      -- There is a next token on both sides.
      have hlt : g.aStart + g.len < left.length ∧ g.bStart + g.len < right.length := by
        have hlen := congrArg List.length hpairs
        simp only [pairsAfter, length_cons, length_zip, length_drop] at hlen
        omega
      rw [pairsAfter, drop_eq_getElem_cons hlt.1, drop_eq_getElem_cons hlt.2,
        zip_cons_cons] at hpairs
      obtain ⟨hpair, hrest⟩ := cons.inj hpairs
      refine ih (h.accept haccept (by omega) (by omega) (by omega) ?_ ?_) ?_ _
      · intro hsame
        by_contra hlt
        exact hfull ⟨hsame, by omega⟩
      · rw [Nat.sub_zero, Nat.sub_zero, pairsAt_succ_right hlt.1 hlt.2, ← hpair]
        exact perm_append_comm
      · exact hrest

lemma scoreSeed_ok {done : List (Token × Token)} {score score' : ℚ} {m m' : Bijection}
    {w w' : Unit} (hm : m.Holds done) (hscore : score = totalCredit done)
    (h : scoreSeed v pairs score m w = (some (score', m'), w')) :
    m'.Holds (pairs.reverse ++ done) ∧ score' = totalCredit (pairs.reverse ++ done) := by
  induction pairs generalizing done score m w with
  | nil =>
    obtain ⟨⟨rfl, rfl⟩, _⟩ : (score = score' ∧ m = m') ∧ w = w' := by simpa [scoreSeed] using h
    exact ⟨hm, hscore⟩
  | cons pair rest ih =>
    obtain ⟨x, y⟩ := pair
    unfold scoreSeed at h
    split at h
    · simp at h
    · next credit mapping haccept =>
      obtain ⟨hholds, hcredit⟩ := acceptPair_spec hm haccept
      have hnext : Score.add score credit = totalCredit ((x, y) :: done) := by
        rw [hscore, hcredit]
        exact add_comm _ _
      rw [reverse_cons, append_assoc, singleton_append]
      exact ih hholds hnext h

/-- **Every qualified match is a match**: a consistently renamed pair of ranges around the
seed, at the threshold, whose sides stay apart in one file. -/
lemma maximalQualifiedMatch_ok {prepared : List PreparedFile} {a b : Occurrence}
    {m : QualifiedMatch ℚ}
    (ha : a.start + seedLen ≤ (tokensOf prepared a.file).length)
    (hb : b.start + seedLen ≤ (tokensOf prepared b.file).length)
    (h : (maximalQualifiedMatch noVerification prepared a b seedLen threshold ()).1 = some m) :
    MatchOk (tokensOf prepared a.file) (tokensOf prepared b.file) threshold seedLen m.aStart
        m.bStart m.len m.similarity ∧
      (a.file = b.file → m.len ≤ absDiff m.aStart m.bStart) := by
  unfold maximalQualifiedMatch at h
  split at h
  · next aSource bSource hasource hbsource =>
    have hat : tokensOf prepared a.file = aSource.tokens := by simp [tokensOf, hasource]
    have hbt : tokensOf prepared b.file = bSource.tokens := by simp [tokensOf, hbsource]
    rw [hat] at ha ⊢
    rw [hbt] at hb ⊢
    dsimp only at h
    split_ifs at h with hoverlap
    split at h
    · simp at h
    · next score mapping w hseed =>
      split_ifs at h with hbelow
      obtain ⟨hholds, hscore⟩ := scoreSeed_ok Bijection.empty.holds_nil rfl hseed
      have hperm := reverse_perm (pairsAt aSource.tokens bSource.tokens a.start b.start seedLen)
      rw [append_nil] at hholds hscore
      have hholds := hholds.of_perm hperm.symm
      have hscore := hscore.trans (totalCredit_of_perm hperm)
      have hqualified : threshold ≤ score / seedLen :=
        not_lt.mp fun hlt => hbelow (decide_eq_true hlt)
      have hmatch := matchOk_of_scored ha hb le_rfl hholds hscore hqualified
      have hapart : Apart (decide (a.file = b.file)) (absDiff a.start b.start) a.start b.start
          seedLen := by
        refine ⟨rfl, fun hsame => ?_⟩
        by_contra hlt
        exact hoverlap ⟨hsame, .inr (by omega)⟩
      -- The seed satisfies the invariant, and both loops keep it.
      have hstart : GrowthOk aSource.tokens bSource.tokens threshold seedLen
          (decide (a.file = b.file)) (absDiff a.start b.start)
          ⟨a.start, b.start, seedLen, score, mapping,
            ⟨a.start, b.start, seedLen, Score.perToken score seedLen⟩⟩ :=
        ⟨ha, hb, le_rfl, hholds, hscore, hapart, hmatch, hapart⟩
      have hgrown := grow_right_ok (v := noVerification)
        (grow_left_ok (v := noVerification) hstart rfl ()) rfl ()
      cases h
      refine ⟨hgrown.best, fun hsame => ?_⟩
      exact (hgrown.best_apart.2 (decide_eq_true hsame)).trans hgrown.best_apart.1.ge
  · simp at h

end Reposcout.Dup.Fuzzy
