import Reposcout.Query.Consumers

/-!
# When a line names one declaration

Of the declarations around a line the shortest one is taken, not the innermost one.  A line with two
declarations side by side is refused only if they are of the same length.
-/

namespace Reposcout.Query

open List KeyedList

variable {definitions : List DefinitionFact} {around : List CallDeclaration}

/-- A declaration contains another one. -/
def Holds (outer inner : CallDeclaration) : Prop :=
  outer.symbol.declarationSpan.Contains inner.symbol.declarationSpan

instance (outer inner : CallDeclaration) : Decidable (Holds outer inner) :=
  inferInstanceAs (Decidable (SourceSpan.Contains _ _))

/-- A declaration around the line that contains no other one. -/
def Innermost (around : List CallDeclaration) (declaration : CallDeclaration) : Prop :=
  declaration ∈ around ∧ ∀ other ∈ around, Holds declaration other → other = declaration

/-- One of two declarations always contains the other. -/
def Related (around : List CallDeclaration) : Prop :=
  ∀ a ∈ around, ∀ b ∈ around, Holds a b ∨ Holds b a

instance : Decidable (Related around) :=
  inferInstanceAs (Decidable (∀ a ∈ around, ∀ b ∈ around, _))

/-- No declaration around the line is recorded with a smaller length. -/
def LeastLength (definitions : List DefinitionFact) (around : List CallDeclaration)
    (declaration : CallDeclaration) : Prop :=
  ∀ other ∈ around,
    (seedLength definitions declaration).getD 0 ≤ (seedLength definitions other).getD 0

instance (declaration : CallDeclaration) : Decidable (LeastLength definitions around declaration) :=
  inferInstanceAs (Decidable (∀ other ∈ around, _ ≤ _))

lemma isSome_seedLength {line : ℕ} {declaration : CallDeclaration}
    (h : aroundLine definitions line declaration = true) :
    (seedLength definitions declaration).isSome := by
  obtain ⟨definition, hmem, hline⟩ := any_eq_true.mp h
  simp only [Bool.and_eq_true, decide_eq_true_eq] at hline
  rw [seedLength, Option.isSome_map, isSome_get?_indexBy, ← hline.1.1]
  exact mem_map_of_mem hmem

/-- What is kept are the declarations with the least length. -/
lemma retainInnermostSeedCandidates_eq
    (h : ∀ declaration ∈ around, (seedLength definitions declaration).isSome) :
    retainInnermostSeedCandidates around definitions =
      around.filter (LeastLength definitions around ·) := by
  have hsome : ∀ declaration ∈ around, seedLength definitions declaration =
      some ((seedLength definitions declaration).getD 0) := by
    intro declaration hmem
    obtain ⟨length, hlength⟩ := Option.isSome_iff_exists.mp (h declaration hmem)
    rw [hlength, Option.getD_some]
  have hlengths : around.filterMap (seedLength definitions) =
      around.map fun declaration => (seedLength definitions declaration).getD 0 := by
    rw [← filterMap_eq_map]
    exact filterMap_congr hsome
  apply filter_congr
  intro declaration hmem
  rw [hlengths, decide_eq_decide, hsome declaration hmem, eq_comm, min?_eq_some_iff]
  constructor
  · rintro ⟨-, hle⟩ other hother
    exact hle _ (mem_map_of_mem hother)
  · intro hle
    refine ⟨mem_map_of_mem hmem, fun length hlength => ?_⟩
    obtain ⟨other, hother, rfl⟩ := mem_map.mp hlength
    exact hle other hother

/-- A line is answered by its only innermost declaration, and refused as ambiguous if two
declarations lie side by side. -/
def LineSeedSafe (path : String) (facts : CallReferenceFacts) (definitions : List DefinitionFact)
    (target : SourceQueryTarget) (line : ℕ) : Prop :=
  let around := facts.declarations.filter (aroundLine definitions line)
  ((∃ seed, resolveSeed ⟨path, facts, definitions⟩ target = .ok seed) →
      ∃! declaration, Innermost around declaration) ∧
    (¬ Related around → ∃ found,
      resolveSeed ⟨path, facts, definitions⟩ target = .error (ambiguousSeed path found))

/-- **A line seed is safe** exactly if the declarations around the line lie one inside the other
around an innermost one, whenever only one of them has the least length. -/
theorem lineSeedSafe_iff {path : String} {facts : CallReferenceFacts}
    {definitions : List DefinitionFact} {target : SourceQueryTarget} {line : ℕ}
    (hline : target.selector = .line line)
    (hhash : ∀ hash, target.expectedHash = some hash →
      eqIgnoreAsciiCase facts.sourceHash hash = true) :
    LineSeedSafe path facts definitions target line ↔
      let around := facts.declarations.filter (aroundLine definitions line)
      around.countP (LeastLength definitions around ·) = 1 →
        Related around ∧ ∃! declaration, Innermost around declaration := by
  have hread : (target.expectedHash.any fun hash => !eqIgnoreAsciiCase facts.sourceHash hash) =
      false := by
    cases hexpected : target.expectedHash with
    | none => rfl
    | some hash => simp [hhash hash hexpected]
  have hkept : seedCandidates facts.declarations definitions target.selector =
      (facts.declarations.filter (aroundLine definitions line)).filter
        (LeastLength definitions (facts.declarations.filter (aroundLine definitions line)) ·) := by
    rw [hline, seedCandidates]
    exact retainInnermostSeedCandidates_eq fun declaration hmem =>
      isSome_seedLength (mem_filter.mp hmem).2
  simp only [LineSeedSafe, resolveSeed, hread, hkept, countP_eq_length_filter,
    Bool.false_eq_true, if_false]
  generalize facts.declarations.filter (aroundLine definitions line) = around
  rcases around.filter (LeastLength definitions around ·) with _ | ⟨first, _ | ⟨second, rest⟩⟩
  · simp
  · by_cases hrelated : Related around
    · simp [hrelated]
    · simp [hrelated]
  · simp

/-! ## Two functions on one line -/

namespace SideBySide

def short : CallDeclaration where
  symbol := ⟨"a.rs", "", "a", "function", ⟨0, 9, 1, 1⟩⟩
  exportNames := []
  scopeSpan := ⟨0, 20, 1, 1⟩
  overloaded := false

def long : CallDeclaration :=
  { short with symbol := ⟨"a.rs", "", "long", "function", ⟨10, 22, 1, 1⟩⟩ }

def definition (declaration : CallDeclaration) : DefinitionFact :=
  ⟨⟨declaration.symbol.name, "function", "", 1, false, []⟩, declaration.symbol.declarationSpan,
    none⟩

def facts : CallReferenceFacts where
  status := .available
  language := "rust"
  sourcePath := "a.rs"
  sourceHash := ""
  declarations := [short, long]
  imports := []
  relations := []
  moduleSpan := none
  coverage := ⟨0⟩

def target : SourceQueryTarget := ⟨⟨["a.rs"]⟩, .line 1, none, .worktree⟩

end SideBySide

open SideBySide

theorem lineSeedSafe_iff_sideBySide :
    ¬ LineSeedSafe "a.rs" facts [definition short, definition long] target 1 := by
  rw [lineSeedSafe_iff rfl (by simp [target])]
  intro h
  exact absurd (h (by decide)).1 (by decide)

theorem not_lineSeedSafe :
    ¬ ∀ (path : String) (facts : CallReferenceFacts) (definitions : List DefinitionFact)
      (target : SourceQueryTarget) (line : ℕ), target.selector = .line line →
      target.expectedHash = none → LineSeedSafe path facts definitions target line := by
  intro h
  obtain ⟨found, herror⟩ := (h "a.rs" facts [definition short, definition long] target 1 rfl rfl).2
    (by decide)
  have hok : resolveSeed ⟨"a.rs", facts, [definition short, definition long]⟩ target =
      .ok short.symbol := rfl
  rw [hok] at herror
  cases herror

end Reposcout.Query
