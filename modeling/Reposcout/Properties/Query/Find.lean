import Mathlib.Data.List.Infix
import Reposcout.Query.Find

/-!
# The hits of a search are a prefix of its ranking

However long the report gets by a hit or by the counters, the loop stops at a report that fits.
-/

namespace Reposcout.Query

open List

variable {Header Hit : Type}

structure Admits (limited : List Hit) (total : ℕ) (report : FindQueryReport Header Hit) : Prop where
  front : report.hits <+: limited
  returned : report.returnedMatches = report.hits.length
  budget : report.budgetOmitted = limited.length - report.hits.length
  limit : report.limitOmitted = total - limited.length
  total : report.totalMatches = total

namespace FindRenderer

variable {renderer : FindRenderer Header Hit} {options : FindQueryOptions} {limited : List Hit}
  {total : ℕ} {report final : FindQueryReport Header Hit}

lemma admits_withHit {hit : Hit} (h : Admits limited total report)
    (hfront : report.hits ++ [hit] <+: limited) :
    Admits limited total (withHit report limited.length hit) :=
  ⟨hfront, rfl, rfl, h.limit, h.total⟩

lemma withoutRoot_cases (report : FindQueryReport Header Hit) : withoutRoot report = report ∨
    withoutRoot report = { report with root := none, rootOmitted := true } := by
  unfold withoutRoot
  split_ifs
  · exact .inr rfl
  · exact .inl rfl

lemma admits_withoutRoot (h : Admits limited total report) :
    Admits limited total (withoutRoot report) := by
  rcases withoutRoot_cases report with hsame | hsame <;> rw [hsame]
  · exact h
  · exact ⟨h.front, h.returned, h.budget, h.limit, h.total⟩

/-- The loop keeps a report that fits. -/
lemma admitHits_ok {hits : List Hit} (hrest : report.hits ++ hits = limited)
    (hadmits : Admits limited total report) (hfits : renderer.fits options report = .ok true)
    (h : renderer.admitHits options limited.length hits report = .ok final) :
    Admits limited total final ∧ renderer.fits options final = .ok true := by
  induction hits generalizing report with
  | nil =>
    cases h
    exact ⟨hadmits, hfits⟩
  | cons hit hits ih =>
    have hnext : report.hits ++ [hit] ++ hits = limited := by
      rw [append_assoc, singleton_append, hrest]
    have hcandidate := admits_withHit hadmits ⟨hits, hnext⟩
    have hwithout : (withoutRoot (withHit report limited.length hit)).hits =
        report.hits ++ [hit] := by
      rcases withoutRoot_cases (withHit report limited.length hit) with hsame | hsame <;>
      · rw [hsame]
        rfl
    simp only [admitHits] at h
    split at h
    · cases h
    · next hfitting => exact ih hnext hcandidate hfitting h
    · split at h
      · cases h
      · next hfitting =>
        exact ih (by rw [hwithout, hnext]) (admits_withoutRoot hcandidate) hfitting h
      · cases h
        exact ⟨hadmits, hfits⟩

lemma admitMatches_ok (hempty : report.hits = []) (hadmits : Admits limited total report)
    (h : renderer.admitMatches options report limited = .ok final) :
    Admits limited total final ∧ renderer.fits options final = .ok true := by
  unfold admitMatches at h
  cases hfirst : renderer.fits options report with
  | error message =>
    rw [hfirst] at h
    cases h
  | ok fitting =>
    rw [hfirst] at h
    simp only [Except.bind] at h
    split at h
    · cases h
    · next hfits =>
      refine admitHits_ok ?_ ?_ hfits h
      · split_ifs <;> simp [hempty]
      · split_ifs
        · exact hadmits
        · exact ⟨hadmits.front, hadmits.returned, hadmits.budget, hadmits.limit, hadmits.total⟩
    · cases h

lemma fits_of_render {rendered : String} (h : renderer.render report = .ok rendered) :
    renderer.fits options report = .ok (decide (rendered.utf8ByteSize ≤ options.byteBudget ∧
      renderer.count rendered ≤ options.tokenBudget)) := by
  rw [fits, h, Except.map, Bool.decide_and]

/-- Nothing but the renderer stops the loop. -/
lemma exists_admitHits (hrender : ∀ report, ∃ rendered, renderer.render report = .ok rendered)
    (limitedMatches : ℕ) (hits : List Hit) (report : FindQueryReport Header Hit) :
    ∃ final, renderer.admitHits options limitedMatches hits report = .ok final := by
  induction hits generalizing report with
  | nil => exact ⟨report, rfl⟩
  | cons hit hits ih =>
    simp only [admitHits]
    obtain ⟨_, hcandidate⟩ := hrender (withHit report limitedMatches hit)
    obtain ⟨_, hwithout⟩ := hrender (withoutRoot (withHit report limitedMatches hit))
    rw [fits_of_render hcandidate, fits_of_render hwithout]
    split
    · next herror => cases herror
    · exact ih _
    · split
      · next herror => cases herror
      · exact ih _
      · exact ⟨report, rfl⟩

/-- **The report of a search** fits its budgets as it is rendered, its hits are a prefix of the
ranking, and every match is returned or counted as omitted.  There is a report whenever the one
without root and hits fits. -/
theorem find_accounts (renderer : FindRenderer Header Hit) (options : FindQueryOptions)
    (header : Header) (root : Option PathBuf) (ranking : List Hit) :
    (∀ report rendered, renderer.find options header root ranking = .ok (report, rendered) →
      renderer.render report = .ok rendered ∧ rendered.utf8ByteSize ≤ options.byteBudget ∧
        renderer.count rendered ≤ options.tokenBudget ∧ report.hits <+: ranking ∧
        report.hits.length ≤ options.limit ∧ report.returnedMatches = report.hits.length ∧
        report.totalMatches = ranking.length ∧
        report.returnedMatches + report.budgetOmitted + report.limitOmitted =
          report.totalMatches) ∧
    ((∀ report, ∃ rendered, renderer.render report = .ok rendered) →
      renderer.fits options (initialReport options header none ranking) = .ok true →
        ∃ output, renderer.find options header root ranking = .ok output) := by
  have hinitial : Admits (ranking.take options.limit) ranking.length
      (initialReport options header root ranking) := ⟨List.nil_prefix, rfl, rfl, rfl, rfl⟩
  constructor
  · intro report rendered h
    simp only [find] at h
    split at h
    · cases h
    · next admitted hadmitted =>
      obtain ⟨hadmits, -⟩ := admitMatches_ok rfl hinitial hadmitted
      split at h
      · cases h
      · next text hrender =>
        split_ifs at h with hbudget
        cases h
        have hlength := hadmits.front.length_le
        have hlimited : (ranking.take options.limit).length = min options.limit ranking.length :=
          length_take
        refine ⟨hrender, hbudget.1, hbudget.2, hadmits.front.trans (List.take_prefix _ _), by omega,
          hadmits.returned, hadmits.total, ?_⟩
        rw [hadmits.returned, hadmits.budget, hadmits.limit, hadmits.total]
        omega
  · intro hrender henvelope
    have hadmitted : ∃ final, renderer.admitMatches options
        (initialReport options header root ranking) (ranking.take options.limit) = .ok final := by
      unfold admitMatches
      cases hfirst : renderer.fits options (initialReport options header root ranking) with
      | error message =>
        obtain ⟨_, hrendered⟩ := hrender (initialReport options header root ranking)
        rw [fits_of_render hrendered] at hfirst
        cases hfirst
      | ok fitting =>
        have hnext : renderer.fits options (if fitting then initialReport options header root ranking
            else initialReport options header none ranking) = .ok true := by
          split_ifs with hfits
          · rw [hfirst, hfits]
          · exact henvelope
        simp only [Except.bind]
        split
        · next herror => cases herror.symm.trans hnext
        · exact exists_admitHits hrender _ _ _
        · next hfalse => cases hfalse.symm.trans hnext
    obtain ⟨final, hfinal⟩ := hadmitted
    obtain ⟨-, hfits⟩ := admitMatches_ok rfl hinitial hfinal
    obtain ⟨rendered, hlast⟩ := hrender final
    rw [fits_of_render hlast, Except.ok.injEq, decide_eq_true_eq] at hfits
    refine ⟨(final, rendered), ?_⟩
    simp only [find, hfinal, hlast, if_pos hfits]

/-- Two matches, of which only one fits into the budget of bytes. -/
theorem find_accounts_oneFits :
    let renderer : FindRenderer Unit Unit :=
      ⟨fun report => .ok (String.ofList (List.replicate (2 * report.hits.length) 'x')), fun _ => 0⟩
    ∃ output, renderer.find ⟨9, 0, 3⟩ () none [(), ()] = .ok output :=
  (find_accounts _ ⟨9, 0, 3⟩ () none [(), ()]).2 (fun _ => ⟨_, rfl⟩) (by decide +kernel)

end FindRenderer

end Reposcout.Query
