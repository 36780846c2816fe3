import Mathlib.Order.Lex
import Mathlib.Data.String.Basic

/-!
# Repository-relative paths

A `PathBuf` is the list of its normal components: the standard library compares, orders and
hashes paths component by component, so `a//b` and `a/./b` are the path `a/b`.
-/

namespace Reposcout

open List

/-- `text.replace('\\', "/")`. -/
def normalizeSeparators (s : String) : String :=
  String.ofList (s.toList.map (fun c => if c = '\\' then '/' else c))

/-- A repository-relative path. -/
structure PathBuf where
  components : List String
  deriving DecidableEq, Inhabited

namespace PathBuf

instance : LinearOrder PathBuf :=
  LinearOrder.lift' PathBuf.components (fun a b h => by cases a; cases b; simp_all)

/-- `PathBuf::from` on a relative path. -/
def ofString (s : String) : PathBuf :=
  ⟨((s.toList.splitOn '/').map String.ofList).filter (fun c => c ≠ "" && c ≠ ".")⟩

def toStringLossy (p : PathBuf) : String := "/".intercalate p.components

/-- `path.to_string_lossy().replace('\\', "/")`, the key under which reports and the graph
name a file. -/
def key (p : PathBuf) : String := normalizeSeparators p.toStringLossy

def parent (p : PathBuf) : Option PathBuf :=
  if p.components = [] then none else some ⟨p.components.dropLast⟩

lemma toList_toStringLossy (p : PathBuf) :
    p.toStringLossy.toList = ['/'].intercalate (p.components.map String.toList) := by
  unfold toStringLossy
  rw [String.toList_intercalate]
  rfl

variable {p : PathBuf}

lemma notMem_toStringLossy {c : Char} (hne : c ≠ '/')
    (h : ∀ name ∈ p.components, c ∉ name.toList) : c ∉ p.toStringLossy.toList := by
  rw [toList_toStringLossy]
  intro hmem
  have hnone : ∀ l ∈ p.components.map String.toList, c ∉ l := by
    intro l hl
    obtain ⟨name, hname, rfl⟩ := List.mem_map.mp hl
    exact h name hname
  generalize p.components.map String.toList = parts at hmem hnone
  induction parts with
  | nil => simp at hmem
  | cons part rest ih =>
    have hrest : ∀ l ∈ rest, c ∉ l := fun l hl => hnone l (mem_cons_of_mem part hl)
    cases rest with
    | nil => exact hnone part mem_cons_self (by simpa using hmem)
    | cons next others =>
      simp only [intercalate_cons_cons, mem_append, mem_singleton] at hmem
      rcases hmem with (hmem | hmem) | hmem
      · exact hnone part mem_cons_self hmem
      · exact hne hmem
      · exact ih hmem hrest

/-- No component is empty or has a separator, as in every path. -/
def Separated (p : PathBuf) : Prop := ∀ c ∈ p.components, c ≠ "" ∧ '/' ∉ c.toList

lemma Separated.splitOn_toStringLossy (h : p.Separated) (hne : p.components ≠ []) :
    p.toStringLossy.toList.splitOn '/' = p.components.map String.toList := by
  rw [toList_toStringLossy]
  apply splitOn_intercalate '/'
  · intro l hl
    obtain ⟨c, hc, rfl⟩ := List.mem_map.mp hl
    exact (h c hc).2
  · simpa using hne

/-- The text of a path names it. -/
lemma Separated.eq_of_toStringLossy {q : PathBuf} (hp : p.Separated) (hq : q.Separated)
    (h : p.toStringLossy = q.toStringLossy) : p = q := by
  have hempty : ∀ r : PathBuf, r.Separated → r.toStringLossy = "" → r.components = [] := by
    intro r hr htext
    by_contra hne
    have hsplit := hr.splitOn_toStringLossy hne
    rw [htext] at hsplit
    have hmem : ([] : List Char) ∈ r.components.map String.toList := by
      rw [← hsplit]
      simp
    obtain ⟨c, hc, hnil⟩ := List.mem_map.mp hmem
    exact (hr c hc).1 (String.toList_eq_nil_iff.mp hnil)
  have hcomponents : p.components = q.components := by
    by_cases hpe : p.components = []
    · have htext : p.toStringLossy = "" := by
        unfold toStringLossy
        rw [hpe]
        rfl
      rw [hpe, hempty q hq (h ▸ htext)]
    · by_cases hqe : q.components = []
      · have htext : q.toStringLossy = "" := by
          unfold toStringLossy
          rw [hqe]
          rfl
        exact absurd (hempty p hp (h.trans htext)) hpe
      · have hsplit := hp.splitOn_toStringLossy hpe
        rw [h, hq.splitOn_toStringLossy hqe] at hsplit
        exact (map_injective_iff.mpr (fun _ _ h => String.toList_injective h) hsplit).symm
  exact congrArg PathBuf.mk hcomponents

end PathBuf

end Reposcout
