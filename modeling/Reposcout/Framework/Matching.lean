import Reposcout.Framework.KeyedList

/-!
# Partial matchings

A partial matching gives some elements a partner, and a partner's partner is the element itself.
Linking two free elements and unlinking two partners keep a matching one.  A batch of links, each
made only when both of its elements are still free, makes exactly the links that are admitted
greedily: first come, first served.
-/

/-!
## Greedy admission

Elements arrive one after the other, and each is kept if it fits what has been kept before it
and rejected otherwise.  What is kept satisfies every property that fitting elements preserve,
nothing is lost, and every rejected element did not fit at its turn.
-/

namespace Greedy

open List

variable {α : Type}

/-- What has been kept and what has been rejected, in the order of arrival. -/
structure Split (α : Type) where
  kept : List α
  rejected : List α

/-- One turn. -/
def pass (fits : List α → α → Bool) (s : Split α) (x : α) : Split α :=
  if fits s.kept x then ⟨s.kept ++ [x], s.rejected⟩ else ⟨s.kept, s.rejected ++ [x]⟩

/-- All turns. -/
def split (fits : List α → α → Bool) (l : List α) : Split α :=
  l.foldl (pass fits) ⟨[], []⟩

variable {fits : List α → α → Bool} (before after : List α)

lemma split_append : split fits (before ++ after) = after.foldl (pass fits) (split fits before) :=
  foldl_append

lemma split_append_singleton (l : List α) (x : α) :
    split fits (l ++ [x]) = pass fits (split fits l) x :=
  split_append l [x]

/-- **The invariant rule**: what holds of nothing and is preserved by keeping an element that
fits holds of what is kept. -/
lemma kept_invariant {P : List α → Prop} (hnil : P [])
    (hkeep : ∀ kept x, P kept → fits kept x = true → P (kept ++ [x])) (l : List α) :
    P (split fits l).kept := by
  induction l using reverseRecOn with
  | nil => exact hnil
  | append_singleton l x ih =>
    rw [split_append_singleton]
    unfold pass
    by_cases hfits : fits (split fits l).kept x = true
    · rw [if_pos hfits]
      exact hkeep _ x ih hfits
    · rw [if_neg hfits]
      exact ih

/-- Nothing is lost. -/
lemma split_perm (l : List α) : ((split fits l).kept ++ (split fits l).rejected).Perm l := by
  induction l using reverseRecOn with
  | nil => exact Perm.refl []
  | append_singleton l x ih =>
    rw [split_append_singleton]
    unfold pass
    split_ifs
    · rw [append_assoc]
      exact (perm_append_comm.append_left _).trans
        (by rw [← append_assoc]; exact ih.append_right [x])
    · rw [← append_assoc]
      exact ih.append_right [x]

lemma split_append_after : (split fits before).kept <+: (split fits (before ++ after)).kept ∧
    (split fits before).rejected <+: (split fits (before ++ after)).rejected := by
  induction after using reverseRecOn with
  | nil =>
    rw [append_nil]
    exact ⟨prefix_rfl, prefix_rfl⟩
  | append_singleton after x ih =>
    rw [← append_assoc, split_append_singleton]
    unfold pass
    split_ifs
    · exact ⟨ih.1.trans (prefix_append _ _), ih.2⟩
    · exact ⟨ih.1, ih.2.trans (prefix_append _ _)⟩

variable {l : List α} {x : α}

lemma exists_turn {j : ℕ} (hx : (split fits l).rejected[j]? = some x) :
    ∃ before after, l = before ++ x :: after ∧ (split fits before).rejected.length = j ∧
      fits (split fits before).kept x = false := by
  induction l using List.reverseRecOn with
  | nil => simp [split] at hx
  | append_singleton l y ih =>
    by_cases hj : j < (split fits l).rejected.length
    · have hold : (split fits l).rejected[j]? = some x := by
        obtain ⟨rest, hrest⟩ := (split_append_after l [y]).2
        rw [← hrest, getElem?_append_left hj] at hx
        exact hx
      obtain ⟨before, after, hl, hlength, hfits⟩ := ih hold
      exact ⟨before, after ++ [y], by rw [hl]; simp, hlength, hfits⟩
    · -- The last turn rejected its element.
      rw [split_append_singleton] at hx
      unfold pass at hx
      by_cases hfits : fits (split fits l).kept y = true
      · rw [if_pos hfits] at hx
        exact absurd (List.getElem?_eq_some_iff.mp hx).1 hj
      · rw [if_neg hfits, getElem?_append_right (Nat.le_of_not_lt hj)] at hx
        obtain ⟨hlast, hxy⟩ := List.getElem?_eq_some_iff.mp hx
        rw [length_singleton] at hlast
        refine ⟨l, [], ?_, by omega, ?_⟩
        · rw [← hxy]
          simp
        · rw [← hxy]
          simpa using hfits

/-- **Every rejected element did not fit at its turn.**  Before its turn the elements kept were
the first `k` kept ones, and the elements rejected were those rejected before it. -/
lemma rejected_turn {j : ℕ} (hx : (split fits l).rejected[j]? = some x) :
    ∃ k before after, l = before ++ x :: after ∧
      before.Perm ((split fits l).kept.take k ++ (split fits l).rejected.take j) ∧
      fits ((split fits l).kept.take k) x = false := by
  obtain ⟨before, after, hl, hlength, hfits⟩ := exists_turn hx
  obtain ⟨hkept, hrejected⟩ := @split_append_after α fits before (x :: after)
  rw [← hl, prefix_iff_eq_take] at hkept hrejected
  refine ⟨(split fits before).kept.length, before, after, hl, ?_, ?_⟩
  · rw [← hlength, ← hkept, ← hrejected]
    exact (split_perm before).symm
  · rw [← hkept]
    exact hfits

/-- What is kept stands in the order of arrival. -/
lemma kept_sublist (l : List α) : (split fits l).kept.Sublist l := by
  induction l using reverseRecOn with
  | nil => exact Sublist.refl []
  | append_singleton l x ih =>
    rw [split_append_singleton]
    unfold pass
    split_ifs
    · exact ih.append (Sublist.refl [x])
    · exact ih.trans (sublist_append_left l [x])

/-- An element fits if nothing that was kept excludes it. -/
def clear (excludes : α → α → Bool) (kept : List α) (x : α) : Bool := !kept.any (excludes · x)

variable {excludes : α → α → Bool}

lemma clear_eq_true {kept : List α} :
    clear excludes kept x = true ↔ ∀ y ∈ kept, excludes y x = false := by
  rw [clear, Bool.not_eq_true', any_eq_false]
  simp

lemma pairwise_kept (l : List α) :
    (split (clear excludes) l).kept.Pairwise fun a b => excludes a b = false := by
  refine kept_invariant Pairwise.nil (fun kept x hkept hfits => ?_) l
  refine pairwise_append.mpr ⟨hkept, pairwise_singleton _ _, fun a ha b hb => ?_⟩
  rw [mem_singleton.mp hb]
  exact clear_eq_true.mp hfits a ha

lemma kept_eq_self (h : l.Pairwise fun a b => excludes a b = false) :
    (split (clear excludes) l).kept = l := by
  induction l using reverseRecOn with
  | nil => rfl
  | append_singleton l x ih =>
    obtain ⟨hl, -, hlast⟩ := pairwise_append.mp h
    rw [split_append_singleton, pass, ih hl,
      if_pos (clear_eq_true.mpr fun y hy => hlast y hy x (mem_singleton_self x))]

lemma mem_kept_or_excluded (hx : x ∈ l) :
    x ∈ (split (clear excludes) l).kept ∨
      ∃ y ∈ (split (clear excludes) l).kept, excludes y x = true := by
  induction l using reverseRecOn with
  | nil => cases hx
  | append_singleton l z ih =>
    rw [split_append_singleton, pass]
    rcases mem_append.mp hx with hx | hx
    · split_ifs
      · rcases ih hx with hkept | ⟨y, hy, hexcludes⟩
        · exact .inl (mem_append_left _ hkept)
        · exact .inr ⟨y, mem_append_left _ hy, hexcludes⟩
      · exact ih hx
    · obtain rfl := mem_singleton.mp hx
      split_ifs with hfits
      · exact .inl (mem_append_right _ (mem_singleton_self x))
      · rw [clear, Bool.not_eq_true', Bool.not_eq_false] at hfits
        exact .inr (any_eq_true.mp hfits)

end Greedy

namespace Matching

open List Option KeyedList

variable {α : Type} [DecidableEq α]

/-- The matched elements with their partners. -/
abbrev Partner (α : Type) := List (α × α)

def partnerOf (p : Partner α) (a : α) : Option α := get? a p

/-- Nothing is matched. -/
def empty : Partner α := []

@[simp] lemma partnerOf_empty (a : α) : partnerOf (empty : Partner α) a = none := rfl

def link (p : Partner α) (a b : α) : Partner α :=
  KeyedList.alter b (fun _ => a) (KeyedList.alter a (fun _ => b) p)

def unlink (p : Partner α) (a b : α) : Partner α :=
  (p.filter fun entry => entry.1 ≠ a).filter fun entry => entry.1 ≠ b

/-- A partner's partner is the element itself. -/
def IsMatching (p : Partner α) : Prop := ∀ a b, partnerOf p a = some b → partnerOf p b = some a

def Within (R : α → α → Prop) (p : Partner α) : Prop := ∀ a b, partnerOf p a = some b → R a b

lemma isMatching_empty : IsMatching (empty : Partner α) := fun _ _ h => by
  simp at h

lemma within_empty (R : α → α → Prop) : Within R (empty : Partner α) := fun _ _ h => by
  simp at h

/-! ## One link -/

variable {p : Partner α} {a b : α}

lemma link_eq_some {c d : α} (hab : a ≠ b) :
    partnerOf (link p a b) c = some d ↔
      (c = a ∧ d = b) ∨ (c = b ∧ d = a) ∨ (c ≠ a ∧ c ≠ b ∧ partnerOf p c = some d) := by
  unfold link partnerOf
  rw [get?_alter, get?_alter]
  by_cases hcb : c = b
  · subst hcb
    simp [Ne.symm hab, eq_comm]
  · by_cases hca : c = a
    · subst hca
      simp [hab, eq_comm]
    · simp [hca, hcb]

lemma isMatching_link (hp : IsMatching p) (hab : a ≠ b) (ha : partnerOf p a = none)
    (hb : partnerOf p b = none) : IsMatching (link p a b) := by
  intro c d h
  rw [link_eq_some hab] at h ⊢
  rcases h with ⟨rfl, rfl⟩ | ⟨rfl, rfl⟩ | ⟨hca, hcb, h⟩
  · exact .inr (.inl ⟨rfl, rfl⟩)
  · exact .inl ⟨rfl, rfl⟩
  · -- A partner of another element is not one of the two, which are free.
    have hd : partnerOf p d = some c := hp c d h
    have hda : d ≠ a := fun e => by simp [e, ha] at hd
    have hdb : d ≠ b := fun e => by simp [e, hb] at hd
    exact .inr (.inr ⟨hda, hdb, hd⟩)

variable {R : α → α → Prop}

lemma within_link (hp : Within R p) (hab : a ≠ b) (h : R a b) (h' : R b a) :
    Within R (link p a b) := by
  intro c d hcd
  rcases (link_eq_some hab).mp hcd with ⟨rfl, rfl⟩ | ⟨rfl, rfl⟩ | ⟨_, _, hcd⟩
  · exact h
  · exact h'
  · exact hp c d hcd

lemma unlink_eq_some {c d : α} :
    partnerOf (unlink p a b) c = some d ↔ c ≠ a ∧ c ≠ b ∧ partnerOf p c = some d := by
  unfold unlink partnerOf
  rw [get?_filter_ne, get?_filter_ne]
  by_cases hcb : c = b
  · simp [hcb]
  · by_cases hca : c = a
    · simp [hca]
    · simp [hca, hcb]

lemma isMatching_unlink (hp : IsMatching p) (hab : partnerOf p a = some b) :
    IsMatching (unlink p a b) := by
  intro c d h
  rw [unlink_eq_some] at h ⊢
  obtain ⟨hca, hcb, h⟩ := h
  have hd : partnerOf p d = some c := hp c d h
  refine ⟨fun e => ?_, fun e => ?_, hd⟩
  · -- The partner of the first element is the second one.
    rw [e, hab] at hd
    exact hcb (some.inj hd).symm
  · rw [e, hp a b hab] at hd
    exact hca (some.inj hd).symm

lemma within_unlink (hp : Within R p) (a b : α) : Within R (unlink p a b) :=
  fun c d h => hp c d (unlink_eq_some.mp h).2.2

/-! ## Keeping a part -/

def restrict (kept : α → Bool) (p : Partner α) : Partner α := p.filter fun entry => kept entry.1

lemma restrict_eq_some {kept : α → Bool} :
    partnerOf (restrict kept p) a = some b ↔ kept a = true ∧ partnerOf p a = some b := by
  unfold restrict partnerOf
  induction p with
  | nil => simp
  | cons entry rest ih =>
    rw [filter_cons, get?]
    split
    · next hc =>
      rw [get?]
      split
      · next hca => simp [← hca, hc]
      · exact ih
    · next hc =>
      rw [ih]
      split
      · next hca => simp [← hca, hc]
      · rfl

/-! ## A batch of links -/

def linkFree (p : Partner α) (pair : α × α) : Partner α :=
  if (partnerOf p pair.1).isNone && (partnerOf p pair.2).isNone then link p pair.1 pair.2 else p

def linkAll (p : Partner α) (pairs : List (α × α)) : Partner α := pairs.foldl linkFree p

/-- A pair fits when it has no element in common with the pairs admitted before it. -/
def disjoint (admitted : List (α × α)) (pair : α × α) : Bool :=
  admitted.all fun other =>
    pair.1 ≠ other.1 && pair.1 ≠ other.2 && pair.2 ≠ other.1 && pair.2 ≠ other.2

/-- The pairs that are admitted: first come, first served. -/
def admitted (pairs : List (α × α)) : List (α × α) := (Greedy.split disjoint pairs).kept

variable {pairs : List (α × α)} {pair : α × α}

lemma mem_of_mem_admitted (h : pair ∈ admitted pairs) :
    pair ∈ pairs := by
  have hperm : (admitted pairs ++ (Greedy.split disjoint pairs).rejected).Perm pairs :=
    Greedy.split_perm pairs
  exact hperm.mem_iff.mp (mem_append_left _ h)

lemma admitted_append_singleton (pairs : List (α × α)) (pair : α × α) :
    admitted (pairs ++ [pair]) =
      if disjoint (admitted pairs) pair then admitted pairs ++ [pair] else admitted pairs := by
  unfold admitted
  rw [Greedy.split_append_singleton, Greedy.pass]
  split <;> rfl

lemma disjoint_eq_true :
    disjoint pairs pair = true ↔ ∀ other ∈ pairs,
      pair.1 ≠ other.1 ∧ pair.1 ≠ other.2 ∧ pair.2 ≠ other.1 ∧ pair.2 ≠ other.2 := by
  simp [disjoint, and_assoc]

/-- The partners of `q` are those of `p` and the two elements of each pair. -/
def Extends (p : Partner α) (pairs : List (α × α)) (q : Partner α) : Prop :=
  ∀ a b, partnerOf q a = some b ↔ partnerOf p a = some b ∨ (a, b) ∈ pairs ∨ (b, a) ∈ pairs

/-- An element that was free still is when no pair has it. -/
lemma Extends.eq_none_iff {q : Partner α} (h : Extends p pairs q) {x : α}
    (hx : partnerOf p x = none) :
    partnerOf q x = none ↔ ∀ other ∈ pairs, x ≠ other.1 ∧ x ≠ other.2 := by
  rw [eq_none_iff_forall_ne_some]
  constructor
  · intro hnone other hother
    refine ⟨fun e => hnone other.2 ?_, fun e => hnone other.1 ?_⟩
    · exact (h x other.2).mpr (.inr (.inl (e ▸ hother)))
    · exact (h x other.1).mpr (.inr (.inr (e ▸ hother)))
  · intro hall y hy
    rcases (h x y).mp hy with hold | hmem | hmem
    · simp [hx] at hold
    · exact (hall _ hmem).1 rfl
    · exact (hall _ hmem).2 rfl

/-- Linking two free elements adds their pair. -/
lemma Extends.link {p q : Partner α} (h : Extends p pairs q)
    (hne : pair.1 ≠ pair.2) (h1 : partnerOf q pair.1 = none)
    (h2 : partnerOf q pair.2 = none) :
    Extends p (pairs ++ [pair]) (link q pair.1 pair.2) := by
  intro a b
  rw [link_eq_some hne]
  simp only [mem_append, mem_singleton]
  have hold : partnerOf q a = some b → a ≠ pair.1 ∧ a ≠ pair.2 := fun hab =>
    ⟨fun e => by simp [← e, hab] at h1, fun e => by simp [← e, hab] at h2⟩
  constructor
  · rintro (⟨rfl, rfl⟩ | ⟨rfl, rfl⟩ | ⟨_, _, hab⟩)
    · exact .inr (.inl (.inr rfl))
    · exact .inr (.inr (.inr rfl))
    · rcases (h a b).mp hab with hab | hab | hab
      · exact .inl hab
      · exact .inr (.inl (.inl hab))
      · exact .inr (.inr (.inl hab))
  · have hkeep : partnerOf q a = some b → (a = pair.1 ∧ b = pair.2) ∨ (a = pair.2 ∧ b = pair.1) ∨
        (a ≠ pair.1 ∧ a ≠ pair.2 ∧ partnerOf q a = some b) := fun hab =>
      Or.inr (.inr ⟨(hold hab).1, (hold hab).2, hab⟩)
    rintro (hab | (hab | hab) | (hab | hab))
    · exact hkeep ((h a b).mpr (.inl hab))
    · exact hkeep ((h a b).mpr (.inr (.inl hab)))
    · exact .inl ⟨congrArg Prod.fst hab, congrArg Prod.snd hab⟩
    · exact hkeep ((h a b).mpr (.inr (.inr hab)))
    · exact .inr (.inl ⟨congrArg Prod.snd hab, congrArg Prod.fst hab⟩)

/-- **A batch links what is admitted.**  When every element of the batch is free before it, the
partners after it are those before it and the two elements of each admitted pair. -/
lemma extends_linkAll (hfree : ∀ pair ∈ pairs, pair.1 ≠ pair.2 ∧
      partnerOf p pair.1 = none ∧ partnerOf p pair.2 = none) :
    Extends p (admitted pairs) (linkAll p pairs) := by
  induction pairs using reverseRecOn with
  | nil => simp [Extends, linkAll, admitted, Greedy.split]
  | append_singleton pairs pair ih =>
    have hbefore := ih fun q hq => hfree q (mem_append_left _ hq)
    obtain ⟨hne, h1, h2⟩ := hfree pair (mem_append_right _ mem_cons_self)
    have hfree1 := hbefore.eq_none_iff h1
    have hfree2 := hbefore.eq_none_iff h2
    have hstep : linkAll p (pairs ++ [pair]) = linkFree (linkAll p pairs) pair := by
      simp [linkAll]
    rw [hstep, admitted_append_singleton, linkFree]
    by_cases hfits : disjoint (admitted pairs) pair = true
    · have hall := disjoint_eq_true.mp hfits
      have hnone1 := hfree1.mpr fun o ho => ⟨(hall o ho).1, (hall o ho).2.1⟩
      have hnone2 := hfree2.mpr fun o ho => ⟨(hall o ho).2.2.1, (hall o ho).2.2.2⟩
      rw [if_pos hfits, if_pos (by rw [hnone1, hnone2]; rfl)]
      exact hbefore.link hne hnone1 hnone2
    · have htaken : ¬((partnerOf (linkAll p pairs) pair.1).isNone &&
            (partnerOf (linkAll p pairs) pair.2).isNone) = true := by
        rw [Bool.and_eq_true, isNone_iff_eq_none, isNone_iff_eq_none]
        rintro ⟨hnone1, hnone2⟩
        have hall1 := hfree1.mp hnone1
        have hall2 := hfree2.mp hnone2
        exact hfits (disjoint_eq_true.mpr fun o ho =>
          ⟨(hall1 o ho).1, (hall1 o ho).2, (hall2 o ho).1, (hall2 o ho).2⟩)
      rw [if_neg hfits, if_neg htaken]
      exact hbefore

end Matching
