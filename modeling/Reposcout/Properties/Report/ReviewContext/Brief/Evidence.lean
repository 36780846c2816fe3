import Reposcout.Properties.Review.Neighborhood
import Reposcout.Report.ReviewContext.Brief.Evidence

/-!
# Evidence and the order of the changes

A relation is used by the first change that it touches, also where that change does not list it.
What the other changes list then depends on their order, unless each fact is also in a relation
that no other change touches.
-/

namespace Reposcout.Report.ReviewContext

open List KeyedList PathBuf

/-! ## Facts -/

/-- A fact that evidence has on one side: a reference without its line, a type relation or an
importer. -/
inductive Fact where
  | reference (key : List Char) (side : String)
  | typeRelation (key : List Char) (side : String)
  | importer (source : String) (side : String)

def Evidence.Has (listed : Evidence) : Fact → Prop
  | .reference key side => ∃ entry ∈ listed.references, entry.key = key ∧ side ∈ entry.sides
  | .typeRelation key side => ∃ sides, get? key listed.types = some sides ∧ side ∈ sides
  | .importer source side =>
    ∃ sides, get? source listed.importers = some sides ∧ side ∈ sides

/-- The fact that a relation is for a change with a path, if the change lists it. -/
def fact (report : ReviewContextReport) (path : PathBuf) (relation : ReviewContextRelation) :
    Option Fact :=
  match relation.symbol, relation.typeRelation with
  | some symbol, _ =>
    if PathBuf.ofString symbol.target.path ≠ path ∨ PathBuf.ofString symbol.source.path = path ∨
        siteInChangedLines report relation.side symbol.source.path symbol.site.startLine then none
    else some (.reference (referenceKey relation symbol) relation.side)
  | none, some edge => some (.typeRelation (typeKey edge) relation.side)
  | none, none =>
    if PathBuf.ofString relation.edge.target = path then
      some (.importer relation.edge.source relation.side)
    else none

open Evidence

lemma not_has_empty (f : Fact) : ¬empty.Has f := by
  cases f with
  | reference key side =>
    rintro ⟨entry, hentry, -⟩
    exact not_mem_nil hentry
  | typeRelation key side =>
    rintro ⟨sides, hsides, -⟩
    exact Option.some_ne_none sides hsides.symm
  | importer source side =>
    rintro ⟨sides, hsides, -⟩
    exact Option.some_ne_none sides hsides.symm

lemma exists_mem_addReference {key key' : List Char} {side side' : String}
    {text : List Char × List Char} {source : String} {references : List Reference} :
    (∃ entry ∈ addReference key side text source references,
        entry.key = key' ∧ side' ∈ entry.sides) ↔
      (∃ entry ∈ references, entry.key = key' ∧ side' ∈ entry.sides) ∨
        key = key' ∧ side = side' := by
  induction references with
  | nil =>
    simp only [addReference, mem_singleton, exists_eq_left, not_mem_nil,
      false_and, exists_false, false_or]
    exact and_congr_right fun _ => eq_comm
  | cons entry rest ih =>
    by_cases hkey : entry.key = key
    · simp only [addReference, hkey, if_true, mem_cons, exists_eq_or_imp,
        Review.mem_insertOrdered]
      constructor
      · rintro (⟨rfl, rfl | hside⟩ | hrest)
        · exact .inr ⟨rfl, rfl⟩
        · exact .inl (.inl ⟨rfl, hside⟩)
        · exact .inl (.inr hrest)
      · rintro ((⟨rfl, hside⟩ | hrest) | ⟨rfl, rfl⟩)
        · exact .inl ⟨rfl, .inr hside⟩
        · exact .inr hrest
        · exact .inl ⟨rfl, .inl rfl⟩
    · simp only [addReference, hkey, if_false, mem_cons, exists_eq_or_imp, ih]
      exact or_assoc.symm

/-- A side is entered under its key, and those before it stay. -/
lemma exists_get?_alter {κ : Type} [DecidableEq κ] {key key' : κ} {side side' : String}
    {entries : List (κ × List String)} :
    (∃ sides, get? key' (KeyedList.alter key
        (fun sides => Review.insertOrdered side (sides.getD [])) entries) = some sides ∧
        side' ∈ sides) ↔
      (∃ sides, get? key' entries = some sides ∧ side' ∈ sides) ∨
        key = key' ∧ side = side' := by
  by_cases hkey : key' = key
  · subst hkey
    rw [get?_alter_self]
    simp only [Option.some.injEq, exists_eq_left', Review.mem_insertOrdered, true_and]
    rw [or_comm, eq_comm]
    apply or_congr_left
    cases get? key' entries with
    | none =>
      simp
    | some sides => simp
  · rw [get?_alter_of_ne hkey]
    constructor
    · exact .inl
    · rintro (h | ⟨rfl, -⟩)
      · exact h
      · exact absurd rfl hkey

variable {change : ReviewContextChange} {listed : Evidence} {relation : ReviewContextRelation}
  {f : Fact}

variable {report : ReviewContextReport} {path : PathBuf}

lemma has_addRelation :
    (listed.addRelation report change path relation).Has f ↔
      listed.Has f ∨ fact report path relation = some f := by
  unfold addRelation fact
  cases hsymbol : relation.symbol with
  | some symbol =>
    by_cases hskip : ofString symbol.target.path ≠ path ∨
        ofString symbol.source.path = path ∨
        siteInChangedLines report relation.side symbol.source.path symbol.site.startLine
    · simp [hskip]
    · simp only [hskip, if_false, Option.some.injEq]
      cases f with
      | reference key side =>
        rw [Fact.reference.injEq]
        exact exists_mem_addReference
      | typeRelation key side =>
        simp only [reduceCtorEq, or_false]
        rfl
      | importer source side =>
        simp only [reduceCtorEq, or_false]
        rfl
  | none =>
    cases htype : relation.typeRelation with
    | some edge =>
      simp only [Option.some.injEq]
      cases f with
      | reference key side =>
        simp only [reduceCtorEq, or_false]
        rfl
      | typeRelation key side =>
        rw [Fact.typeRelation.injEq]
        exact exists_get?_alter
      | importer source side =>
        simp only [reduceCtorEq, or_false]
        rfl
    | none =>
      by_cases htarget : ofString relation.edge.target = path
      · simp only [htarget, if_true, Option.some.injEq]
        cases f with
        | reference key side =>
          simp only [reduceCtorEq, or_false]
          rfl
        | typeRelation key side =>
          simp only [reduceCtorEq, or_false]
          rfl
        | importer source side =>
          rw [Fact.importer.injEq]
          exact exists_get?_alter
      · simp [htarget]

/-! ## Used relations -/

def touches (change : ReviewContextChange) (relation : ReviewContextRelation) : Bool :=
  (sideOf change relation.side).any fun side => endsAt relation side.path.path

def changeFact (report : ReviewContextReport) (change : ReviewContextChange)
    (relation : ReviewContextRelation) : Option Fact :=
  (sideOf change relation.side).bind fun side =>
    if endsAt relation side.path.path then fact report side.path.path relation else none

lemma touches_of_changeFact
    (h : changeFact report change relation = some f) : touches change relation = true := by
  obtain ⟨side, hside, hfact⟩ := Option.bind_eq_some_iff.mp h
  rw [touches, hside, Option.any_some]
  by_contra hends
  rw [if_neg hends] at hfact
  exact Option.some_ne_none f hfact.symm

def Fact.side : Fact → String
  | .reference _ side => side
  | .typeRelation _ side => side
  | .importer _ side => side

lemma side_of_fact (h : fact report path relation = some f) : f.side = relation.side := by
  unfold fact at h
  cases hsymbol : relation.symbol with
  | some symbol =>
    simp only [hsymbol, Option.ite_none_left_eq_some, Option.some.injEq] at h
    rw [← h.2]
    rfl
  | none =>
    cases htype : relation.typeRelation with
    | some edge =>
      simp only [hsymbol, htype, Option.some.injEq] at h
      rw [← h]
      rfl
    | none =>
      simp only [hsymbol, htype, Option.ite_none_right_eq_some, Option.some.injEq] at h
      rw [← h.2]
      rfl

lemma side_eq_of_changeFact {relation' : ReviewContextRelation}
    (h : changeFact report change relation = some f)
    (h' : changeFact report change relation' = some f) : relation.side = relation'.side := by
  obtain ⟨side, -, hfact⟩ := Option.bind_eq_some_iff.mp h
  obtain ⟨side', -, hfact'⟩ := Option.bind_eq_some_iff.mp h'
  rw [Option.ite_none_right_eq_some] at hfact hfact'
  rw [← side_of_fact hfact.2, ← side_of_fact hfact'.2]

lemma evidence_snd (report : ReviewContextReport) (change : ReviewContextChange)
    (marked : List (ReviewContextRelation × Bool)) (listed : Evidence) :
    (evidence report change marked listed).2 =
      marked.map fun mark => (mark.1, mark.2 || touches change mark.1) := by
  induction marked generalizing listed with
  | nil => rfl
  | cons mark rest ih =>
    obtain ⟨relation, used⟩ := mark
    unfold evidence
    rw [map_cons]
    cases hside : sideOf change relation.side with
    | none =>
      simp only [Option.map_none, ih, touches, hside, Option.any_none, Bool.or_false]
    | some side =>
      simp only [Option.map_some, touches, hside, Option.any_some]
      by_cases hskip : (used || !endsAt relation side.path.path) = true
      · rw [if_pos hskip]
        simp only [ih]
        congr 2
        revert hskip
        cases used <;> cases endsAt relation side.path.path <;> decide
      · rw [if_neg hskip]
        simp only [ih]
        congr 2
        revert hskip
        cases used <;> cases endsAt relation side.path.path <;> decide

lemma has_evidence_fst {marked : List (ReviewContextRelation × Bool)} :
    (evidence report change marked listed).1.Has f ↔ listed.Has f ∨
        ∃ mark ∈ marked, mark.2 = false ∧ changeFact report change mark.1 = some f := by
  induction marked generalizing listed with
  | nil => simp [evidence]
  | cons mark rest ih =>
    obtain ⟨relation, used⟩ := mark
    unfold evidence
    simp only [mem_cons, exists_eq_or_imp]
    cases hside : sideOf change relation.side with
    | none =>
      simp only [Option.map_none, ih, changeFact, hside, Option.bind_none, reduceCtorEq, and_false,
        false_or]
    | some side =>
      simp only [Option.map_some]
      by_cases hskip : (used || !endsAt relation side.path.path) = true
      · rw [if_pos hskip, ih]
        have hnone : ¬(used = false ∧ changeFact report change relation = some f) := by
          rintro ⟨rfl, hfact⟩
          have htouch := touches_of_changeFact hfact
          rw [touches, hside, Option.any_some] at htouch
          rw [htouch] at hskip
          exact Bool.false_ne_true hskip
        rw [or_iff_right hnone]
      · rw [if_neg hskip, ih, has_addRelation, or_assoc]
        have hopen : used = false ∧ endsAt relation side.path.path = true := by
          revert hskip
          cases used <;> cases endsAt relation side.path.path <;> decide
        simp only [changeFact, hside, Option.bind_some, hopen.2, if_true, hopen.1, true_and]

/-- The mark of relations that the changes before have touched. -/
def markedBy (used : ReviewContextRelation → Bool) (relations : List ReviewContextRelation) :
    List (ReviewContextRelation × Bool) :=
  relations.map fun relation => (relation, used relation)

variable {i : ℕ} {changes : List ReviewContextChange}

lemma getElem?_evidences
    {used : ReviewContextRelation → Bool} (h : changes[i]? = some change) :
    (evidences report changes (markedBy used report.relations))[i]? =
      some (evidence report change (markedBy
        (fun relation => used relation || (changes.take i).any fun other => touches other relation)
        report.relations) .empty).1 := by
  induction changes generalizing used i with
  | nil => exact absurd h.symm (Option.some_ne_none change)
  | cons first rest ih =>
    unfold evidences
    cases i with
    | zero =>
      obtain rfl : first = change := Option.some.inj h
      simp
    | succ i =>
      have hmarks : (evidence report first (markedBy used report.relations) .empty).2 =
          markedBy (fun relation => used relation || touches first relation) report.relations := by
        rw [evidence_snd, markedBy, map_map]
        rfl
      simp only [hmarks, getElem?_cons_succ, ih h, take_succ_cons, any_cons, Bool.or_assoc]

/-! ## The order of the changes -/

def reordered (report : ReviewContextReport) (changes : List ReviewContextChange) :
    ReviewContextReport :=
  { report with changes := changes }

/-- The evidence of the change at a place of the list has a fact. -/
def Attributes (report : ReviewContextReport) (i : ℕ) (f : Fact) : Prop :=
  ∃ listed, (allEvidence report)[i]? = some listed ∧ listed.Has f

/-- A change has the same facts in every order of the changes. -/
def OrderFree (report : ReviewContextReport) : Prop :=
  ∀ changes, changes.Perm report.changes → ∀ (i k : ℕ) change, report.changes[i]? = some change →
    changes[k]? = some change → ∀ f, Attributes (reordered report changes) k f ↔
      Attributes report i f

/-- A change has the same evidence in every order of the changes, with its texts. -/
def SameEvidence (report : ReviewContextReport) : Prop :=
  ∀ changes, changes.Perm report.changes → ∀ (i k : ℕ) change, report.changes[i]? = some change →
    changes[k]? = some change →
      (allEvidence (reordered report changes))[k]? = (allEvidence report)[i]?

/-- A relation from another file to a path.  A reference comes from outside the changed lines. -/
def Incoming (report : ReviewContextReport) (path : PathBuf) (relation : ReviewContextRelation) :
    Prop :=
  PathBuf.ofString relation.edge.target = path ∧ PathBuf.ofString relation.edge.source ≠ path ∧
    ∀ symbol, relation.symbol = some symbol →
      PathBuf.ofString symbol.target.path = path ∧ PathBuf.ofString symbol.source.path ≠ path ∧
        siteInChangedLines report relation.side symbol.source.path symbol.site.startLine = false

/-- Every relation to a change from another file is in its evidence. -/
def Complete (report : ReviewContextReport) : Prop :=
  ∀ (i : ℕ) change, report.changes[i]? = some change → ∀ relation ∈ report.relations, ∀ side,
    sideOf change relation.side = some side → Incoming report side.path.path relation →
      ∃ f, fact report side.path.path relation = some f ∧ Attributes report i f

/-- Every fact of a change is in a relation that starts or ends at no other change. -/
def Separated (report : ReviewContextReport) : Prop :=
  ∀ (i : ℕ) change, report.changes[i]? = some change → ∀ relation ∈ report.relations, ∀ f,
    changeFact report change relation = some f →
      ∃ own ∈ report.relations, changeFact report change own = some f ∧
        ∀ other ∈ report.changes.eraseIdx i, touches other own = false

/-- The relations with one fact are between the same files, as the keys of references and type
relations have it. -/
def Keyed (report : ReviewContextReport) : Prop :=
  ∀ change ∈ report.changes, ∀ relation ∈ report.relations, ∀ relation' ∈ report.relations, ∀ f,
    changeFact report change relation = some f → changeFact report change relation' = some f →
      relation.edge.source = relation'.edge.source ∧ relation.edge.target = relation'.edge.target

lemma attributes_iff (h : report.changes[i]? = some change) (f : Fact) :
    Attributes report i f ↔ ∃ relation ∈ report.relations,
      (∀ other ∈ report.changes.take i, touches other relation = false) ∧
        changeFact report change relation = some f := by
  have hlisted : (allEvidence report)[i]? = some (evidence report change (markedBy
      (fun relation => false || (report.changes.take i).any fun other => touches other relation)
      report.relations) .empty).1 := getElem?_evidences h
  simp only [Attributes, hlisted, Option.some.injEq, exists_eq_left', has_evidence_fst,
    not_has_empty, false_or, markedBy, mem_map, Bool.false_or]
  constructor
  · rintro ⟨mark, ⟨relation, hrelation, rfl⟩, hunused, hfact⟩
    rw [any_eq_false] at hunused
    exact ⟨relation, hrelation, fun other hother => Bool.eq_false_iff.mpr (hunused other hother),
      hfact⟩
  · rintro ⟨relation, hrelation, hunused, hfact⟩
    refine ⟨_, ⟨relation, hrelation, rfl⟩, ?_, hfact⟩
    rw [any_eq_false]
    intro other hother
    exact Bool.eq_false_iff.mp (hunused other hother)

lemma siteInChangedLines_reordered (hperm : changes.Perm report.changes) :
    siteInChangedLines (reordered report changes) = siteInChangedLines report := by
  funext side path line
  exact hperm.any_eq

lemma changeFact_reordered (hperm : changes.Perm report.changes) :
    changeFact (reordered report changes) = changeFact report := by
  unfold changeFact fact
  rw [siteInChangedLines_reordered hperm]

variable {α : Type} {l : List α} {x : α}

/-- An element can be put first. -/
lemma cons_eraseIdx_perm (h : l[i]? = some x) : (x :: l.eraseIdx i).Perm l := by
  obtain ⟨hlt, rfl⟩ := List.getElem?_eq_some_iff.mp h
  exact getElem_cons_eraseIdx_perm hlt

/-- The other changes are the same in every order. -/
lemma perm_eraseIdx {l' : List α} (hperm : l'.Perm l) {k : ℕ} (hi : l[i]? = some x)
    (hk : l'[k]? = some x) : (l'.eraseIdx k).Perm (l.eraseIdx i) :=
  ((cons_eraseIdx_perm hk).trans (hperm.trans (cons_eraseIdx_perm hi).symm)).cons_inv

/-- The changes before a place are other changes. -/
lemma mem_eraseIdx_of_mem_take (h : x ∈ l.take i) : x ∈ l.eraseIdx i := by
  rw [eraseIdx_eq_take_drop_succ]
  exact mem_append_left _ h

lemma attributes_iff_of_separated (h : Separated report)
    (hperm : changes.Perm report.changes) {k : ℕ}
    (hi : report.changes[i]? = some change) (hk : changes[k]? = some change) (f : Fact) :
    Attributes (reordered report changes) k f ↔
      ∃ relation ∈ report.relations, changeFact report change relation = some f := by
  have hplace : (reordered report changes).changes[k]? = some change := hk
  rw [attributes_iff hplace, changeFact_reordered hperm]
  constructor
  · rintro ⟨relation, hrelation, -, hfact⟩
    exact ⟨relation, hrelation, hfact⟩
  · rintro ⟨relation, hrelation, hfact⟩
    obtain ⟨own, hown, hownFact, hothers⟩ := h i change hi relation hrelation f hfact
    refine ⟨own, hown, fun other hother => hothers other ?_, hownFact⟩
    exact (perm_eraseIdx hperm hi hk).mem_iff.mp (mem_eraseIdx_of_mem_take hother)

/-- Facts are separated if a change has the same ones first and last. -/
lemma separated_of_orderFree (h : OrderFree report) :
    Separated report := by
  intro i change hi relation hrelation f hfact
  have hfirst : (change :: report.changes.eraseIdx i).Perm report.changes := cons_eraseIdx_perm hi
  have hlast : (report.changes.eraseIdx i ++ [change]).Perm report.changes :=
    (perm_append_singleton _ _).trans hfirst
  have hplace : (reordered report (report.changes.eraseIdx i ++ [change])).changes[
      (report.changes.eraseIdx i).length]? = some change := by
    change (report.changes.eraseIdx i ++ [change])[(report.changes.eraseIdx i).length]? = _
    rw [getElem?_append_right (Nat.le_refl _), Nat.sub_self]
    rfl
  have hattributed : Attributes (reordered report (change :: report.changes.eraseIdx i)) 0 f := by
    have hplace : (reordered report (change :: report.changes.eraseIdx i)).changes[0]? =
        some change := rfl
    rw [attributes_iff hplace, changeFact_reordered hfirst]
    refine ⟨relation, hrelation, fun other hother => ?_, hfact⟩
    cases hother
  rw [h _ hfirst i 0 change hi rfl f, ← h _ hlast i _ change hi hplace f, attributes_iff hplace,
    changeFact_reordered hlast] at hattributed
  obtain ⟨own, hown, hothers, hownFact⟩ := hattributed
  refine ⟨own, hown, hownFact, fun other hother => hothers other ?_⟩
  change other ∈ (report.changes.eraseIdx i ++ [change]).take (report.changes.eraseIdx i).length
  rw [take_left]
  exact hother

lemma exists_fact_of_incoming
    (h : Incoming report path relation) : ∃ f, fact report path relation = some f := by
  obtain ⟨htarget, -, hsymbol⟩ := h
  unfold fact
  cases hrelation : relation.symbol with
  | some symbol =>
    obtain ⟨hpath, hsource, hsite⟩ := hsymbol symbol hrelation
    have hlisted : ¬(ofString symbol.target.path ≠ path ∨
        ofString symbol.source.path = path ∨
        siteInChangedLines report relation.side symbol.source.path symbol.site.startLine) := by
      rintro (hne | hsame | hchanged)
      · exact hne hpath
      · exact hsource hsame
      · exact Bool.false_ne_true (hsite.symm.trans hchanged)
    exact ⟨_, if_neg hlisted⟩
  | none =>
    cases relation.typeRelation with
    | some edge => exact ⟨_, rfl⟩
    | none => exact ⟨_, if_pos htarget⟩

lemma complete_of_separated (h : Separated report) :
    Complete report := by
  intro i change hi relation hrelation side hside hincoming
  obtain ⟨f, hfact⟩ := exists_fact_of_incoming hincoming
  refine ⟨f, hfact, (attributes_iff_of_separated h (.refl _) hi hi f).mpr ⟨relation, hrelation, ?_⟩⟩
  have hends : endsAt relation side.path.path = true := by
    rw [endsAt, Bool.or_eq_true, decide_eq_true_eq]
    exact .inl hincoming.1
  rw [changeFact, hside, Option.bind_some, if_pos hends]
  exact hfact

/-! ## The texts -/

lemma addRelation_of_fact_eq_none (h : fact report path relation = none) :
    listed.addRelation report change path relation = listed := by
  unfold fact at h
  unfold addRelation
  cases hsymbol : relation.symbol with
  | some symbol =>
    rw [hsymbol] at h
    by_cases hskip : ofString symbol.target.path ≠ path ∨
        ofString symbol.source.path = path ∨
        siteInChangedLines report relation.side symbol.source.path symbol.site.startLine
    · exact if_pos hskip
    · simp only [if_neg hskip, reduceCtorEq] at h
  | none =>
    rw [hsymbol] at h
    cases htype : relation.typeRelation with
    | some edge =>
      rw [htype] at h
      cases h
    | none =>
      rw [htype] at h
      by_cases htarget : ofString relation.edge.target = path
      · simp only [if_pos htarget, reduceCtorEq] at h
      · exact if_neg htarget

lemma addRelation_reordered (hperm : changes.Perm report.changes) :
    addRelation (reordered report changes) = addRelation report := by
  unfold addRelation
  rw [siteInChangedLines_reordered hperm]
  rfl

lemma evidence_fst_congr
    (hperm : changes.Perm report.changes) {used used' : ReviewContextRelation → Bool}
    {relations : List ReviewContextRelation}
    (h : ∀ relation ∈ relations, ∀ f, changeFact report change relation = some f →
      used' relation = used relation) (listed : Evidence) :
    (evidence (reordered report changes) change (markedBy used' relations) listed).1 =
      (evidence report change (markedBy used relations) listed).1 := by
  induction relations generalizing listed with
  | nil => rfl
  | cons relation rest ih =>
    have hrest := ih fun relation hrelation => h relation (mem_cons_of_mem _ hrelation)
    simp only [markedBy, map_cons, evidence] at hrest ⊢
    cases hside : sideOf change relation.side with
    | none => exact hrest listed
    | some side =>
      simp only [Option.map_some, addRelation_reordered hperm]
      by_cases hends : endsAt relation side.path.path = true
      · have hchange : changeFact report change relation = fact report side.path.path relation := by
          rw [changeFact, hside, Option.bind_some, if_pos hends]
        cases hfact : fact report side.path.path relation with
        | none =>
          rw [addRelation_of_fact_eq_none hfact]
          split <;> split <;> exact hrest listed
        | some f =>
          rw [h relation mem_cons_self f (hchange.trans hfact)]
          split
          · exact hrest listed
          · exact hrest _
      · rw [Bool.not_eq_true] at hends
        simp only [hends, Bool.not_false, Bool.or_true, if_true]
        exact hrest listed

lemma touches_eq_false_of_separated (h : Separated report)
    (hkeyed : Keyed report) (hi : report.changes[i]? = some change)
    (hrelation : relation ∈ report.relations) (hfact : changeFact report change relation = some f)
    {other : ReviewContextChange} (hother : other ∈ report.changes.eraseIdx i) :
    touches other relation = false := by
  obtain ⟨own, hown, hownFact, hothers⟩ := h i change hi relation hrelation f hfact
  obtain ⟨hsource, htarget⟩ := hkeyed change (mem_of_getElem? hi) relation hrelation own hown f
    hfact hownFact
  have hside : relation.side = own.side := side_eq_of_changeFact hfact hownFact
  rw [← hothers other hother]
  unfold touches endsAt
  rw [hside, hsource, htarget]

lemma sameEvidence_of_separated (h : Separated report)
    (hkeyed : Keyed report) : SameEvidence report := by
  intro changes hperm i k change hi hk
  have hplace : (allEvidence report)[i]? = _ := getElem?_evidences hi
  have hplace' : (allEvidence (reordered report changes))[k]? = _ := getElem?_evidences hk
  rw [hplace, hplace', Option.some.injEq]
  apply evidence_fst_congr hperm
  intro relation hrelation f hfact
  have hunused := fun other (hother : other ∈ report.changes.eraseIdx i) =>
    touches_eq_false_of_separated h hkeyed hi hrelation hfact hother
  have hbefore : ((report.changes.take i).any fun other => touches other relation) = false := by
    rw [any_eq_false]
    intro other hother
    exact Bool.eq_false_iff.mp (hunused other (mem_eraseIdx_of_mem_take hother))
  have hbefore' : (((reordered report changes).changes.take k).any fun other =>
      touches other relation) = false := by
    rw [any_eq_false]
    intro other hother
    exact Bool.eq_false_iff.mp (hunused other
      ((perm_eraseIdx hperm hi hk).mem_iff.mp (mem_eraseIdx_of_mem_take hother)))
  rw [hbefore, hbefore']

lemma orderFree_of_sameEvidence (h : SameEvidence report) :
    OrderFree report := by
  intro changes hperm i k change hi hk f
  rw [Attributes, Attributes, h changes hperm i k change hi hk]

/-! ## The condition -/

/-- The facts of the changes do not depend on the order of the changes, and every relation to a
change is listed, exactly if each fact is also in a relation that no other change touches.  Where
the keys tell the files of a relation, the same holds of the evidence with its texts. -/
theorem evidence_order_iff (report : ReviewContextReport) :
    (OrderFree report ∧ Complete report ↔ Separated report) ∧
      (Keyed report → (SameEvidence report ∧ Complete report ↔ Separated report)) := by
  refine ⟨⟨fun h => separated_of_orderFree h.1, fun h => ⟨?_, complete_of_separated h⟩⟩,
    fun hkeyed => ⟨fun h => separated_of_orderFree (orderFree_of_sameEvidence h.1),
      fun h => ⟨sameEvidence_of_separated h hkeyed, complete_of_separated h⟩⟩⟩
  intro changes hperm i k change hi hk f
  rw [attributes_iff_of_separated h hperm hi hk]
  exact (attributes_iff_of_separated h (.refl _) hi hi f).symm

/-- Two changed files, of which the first one calls the second from an unchanged line: the call is
used by the first and listed by none. -/
theorem evidence_order_caller_first :
    ¬∀ report : ReviewContextReport, OrderFree report ∧ Complete report := by
  intro h
  let commit : ObjectId := ⟨"0123456789012345678901234567890123456789", by decide +kernel,
    by decide +kernel⟩
  let caller : TreePath := ⟨⟨["a.rs"]⟩, by unfold PathBuf.Separated; decide +kernel,
    by decide +kernel⟩
  let callee : TreePath := ⟨⟨["b.rs"]⟩, by unfold PathBuf.Separated; decide +kernel,
    by decide +kernel⟩
  let span : SourceSpan := ⟨90, 95, 9, 9⟩
  let call : ResolvedCallReference := ⟨⟨"a.rs", "", "run", "function", span⟩,
    ⟨"b.rs", "", "load", "function", span⟩, span, .call, .importedBinding, "import"⟩
  let relation : ReviewContextRelation := ⟨"head", "symbol-reference", ⟨"a.rs", "b.rs", "import"⟩,
    some .changedDefinition, some call, none⟩
  let report : ReviewContextReport := ⟨⟨commit, commit⟩,
    [⟨none, some ⟨caller, [⟨1, 2⟩]⟩⟩, ⟨none, some ⟨callee, [⟨1, 2⟩]⟩⟩], [relation], []⟩
  have hincoming : Incoming report callee.path relation := by
    refine ⟨by decide +kernel, by decide +kernel, ?_⟩
    rintro symbol ⟨⟩
    exact ⟨by decide +kernel, by decide +kernel, by decide +kernel⟩
  obtain ⟨f, -, hattributed⟩ := (h report).2 1 _ rfl relation mem_cons_self _ rfl hincoming
  rw [attributes_iff rfl] at hattributed
  obtain ⟨used, hused, hunused, -⟩ := hattributed
  obtain rfl := mem_singleton.mp hused
  have htouch : touches ⟨none, some ⟨caller, [⟨1, 2⟩]⟩⟩ relation = true := by decide +kernel
  exact Bool.false_ne_true ((hunused _ mem_cons_self).symm.trans htouch)

end Reposcout.Report.ReviewContext
