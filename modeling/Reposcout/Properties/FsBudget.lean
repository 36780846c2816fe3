import Mathlib.Order.MinMax
import Reposcout.FsBudget

/-!
# The bound of a read budget

A read below a root reads at most what remains.  A read of a path compares the metadata with what
remains, and the bytes only with the limit of a single file: a file that grows in between can
return more than the budget.
-/

namespace Reposcout

open List Option

variable {bytes : List UInt8} {text : String}

lemma utf8ByteSize_fromUtf8 (h : fromUtf8 bytes = some text) :
    text.utf8ByteSize = bytes.length := by
  unfold fromUtf8 String.fromUTF8? at h
  split at h
  · cases h
    exact size_toByteArray
  · cases h

/-- What an outcome returns of `bytes`. -/
lemma returned_decodeContent (h : (decodeContent bytes).returned = some text) :
    text.utf8ByteSize = bytes.length := by
  unfold decodeContent at h
  cases hdecode : fromUtf8 bytes with
  | none =>
    rw [hdecode] at h
    cases h
  | some decoded =>
    rw [hdecode] at h
    cases h
    exact utf8ByteSize_fromUtf8 hdecode

/-- A read returns nothing and keeps the budget, or charges the bytes it reads to a budget with a
file and returns at most these. They are within the budget if `within` holds. -/
inductive Charged (within : Prop) (budget : ReadBudget) : ReadBudget × ReadOutcome → Prop where
  | refused (outcome : ReadOutcome) (hnone : outcome.returned = none) :
      Charged within budget (budget, outcome)
  | read (bytes : List UInt8) (outcome : ReadOutcome) (hfiles : 0 < budget.remainingFiles)
      (hreturned : ∀ text, outcome.returned = some text →
        text.utf8ByteSize = bytes.length ∧ (within → bytes.length ≤ budget.remainingTotalBytes)) :
      Charged within budget (budget.consume bytes.length, outcome)

section

variable {budget : ReadBudget} {metadataBytes maxFileBytes : ℕ}

lemma returned_readRegularFileBytes {opened : OpenResult} {outcome : ReadOutcome}
    (h : readRegularFileBytes opened metadataBytes maxFileBytes = .error outcome) :
    outcome.returned = none := by
  unfold readRegularFileBytes at h
  split at h
  · cases h
    rfl
  · cases h
    rfl
  · split at h
    · cases h
      rfl
    · split at h
      · cases h
        rfl
      · split_ifs at h
        cases h
        rfl

lemma returned_openUnderRoot {components : List (PathComponent × OpenResult)}
    {outcome : ReadOutcome} (h : openUnderRoot components = .error outcome) :
    outcome.returned = none := by
  induction components with
  | nil =>
    cases h
    rfl
  | cons first rest ih =>
    obtain ⟨component, answer⟩ := first
    cases component with
    | other =>
      cases h
      rfl
    | normal name =>
      cases answer with
      | handle file =>
        unfold openUnderRoot at h
        split_ifs at h
        exact ih h
      | loop =>
        cases h
        rfl
      | notDirectory =>
        cases h
        rfl
      | failed =>
        cases h
        rfl

/-- When the file is read, it fits what remains if it fits the limit of a single file. -/
def TextRead.StaysWithin (read : TextRead) (budget : ReadBudget) : Prop :=
  ∀ file, read.opened = .handle file → ∀ bytes ∈ file.readToEnd (satAdd budget.maxFileBytes 1),
    bytes.length ≤ budget.maxFileBytes → bytes.length ≤ budget.remainingTotalBytes

lemma readRegularFileBytes_ok {opened : OpenResult}
    (h : readRegularFileBytes opened metadataBytes maxFileBytes = .ok bytes) :
    bytes.length ≤ maxFileBytes ∧ ∃ file, opened = .handle file ∧
      bytes ∈ file.readToEnd (satAdd maxFileBytes 1) := by
  unfold readRegularFileBytes at h
  split at h
  · cases h
  · cases h
  · rename_i file hopened
    have hhandle : opened = .handle file := by
      unfold openNofollow at hopened
      split at hopened
      · split_ifs at hopened
        rw [Except.ok.inj hopened]
      all_goals cases hopened
    split at h
    · cases h
    · split at h
      · cases h
      · rename_i read hread
        split_ifs at h with hlength
        cases h
        exact ⟨not_lt.mp hlength, file, hhandle, hread⟩

open Charged

lemma charged_readText (read : TextRead) :
    Charged (read.StaysWithin budget) budget (readText budget read) := by
  unfold readText
  split_ifs with hdeadline hempty
  · exact refused _ rfl
  · exact refused _ rfl
  · cases hmetadata : read.metadata with
    | none => exact refused _ rfl
    | some metadata =>
      dsimp only
      split_ifs with hregular hoversized hexceeded
      · exact refused _ rfl
      · exact refused _ rfl
      · exact refused _ rfl
      · cases hread : readRegularFileBytes read.opened metadata.len budget.maxFileBytes with
        | error outcome => exact refused _ (returned_readRegularFileBytes hread)
        | ok bytes =>
          obtain ⟨hlength, file, hopened, hbytes⟩ := readRegularFileBytes_ok hread
          refine Charged.read bytes _ (by omega) fun text htext => ?_
          exact ⟨returned_decodeContent htext, fun h => h file hopened bytes hbytes hlength⟩

lemma returned_readFromRoot {cap : ℕ} {late : Bool}
    (h : ReadOutcome.returned (if bytes.length > cap then
      if cap < budget.maxFileBytes then .budgetExceeded else .oversized bytes.length
    else if late then .deadlineExceeded else decodeContent bytes) = some text) :
    text.utf8ByteSize = bytes.length ∧ bytes.length ≤ cap := by
  split_ifs at h with hlong
  · cases h
  · cases h
  · cases h
  · exact ⟨returned_decodeContent h, not_lt.mp hlong⟩

lemma charged_readFromRoot (read : RootRead) :
    Charged True budget (readFromRoot budget read) := by
  unfold readFromRoot
  split
  · exact refused _ rfl
  · split
    · exact refused _ rfl
    · split
      · exact refused _ rfl
      · rename_i hempty
        cases hopened : openUnderRoot read.components with
        | error outcome => exact refused _ (returned_openUnderRoot hopened)
        | ok file =>
          dsimp only
          cases hmetadata : file.metadata with
          | none => exact refused _ rfl
          | some metadata =>
            dsimp only
            split
            · exact refused _ rfl
            · split
              · exact refused _ rfl
              · split
                · exact refused _ rfl
                · cases hread : file.readToEnd
                      (satAdd (min budget.maxFileBytes budget.remainingTotalBytes) 1) with
                  | none => exact refused _ rfl
                  | some bytes =>
                    refine Charged.read bytes _ (by omega) fun text htext => ?_
                    obtain ⟨hsize, hle⟩ := returned_readFromRoot htext
                    exact ⟨hsize, fun _ => hle.trans (min_le_right _ _)⟩

end

/-! ## Runs -/

def ReadOperation.StaysWithin (operation : ReadOperation) (budget : ReadBudget) : Prop :=
  ∀ read, operation = .text read → read.StaysWithin budget

/-- The reads of paths in a run stay within the budget that is left for them. -/
def StaysWithin (budget : ReadBudget) : List ReadOperation → Prop
  | [] => True
  | operation :: rest =>
    operation.StaysWithin budget ∧ StaysWithin (budget.step operation).1 rest

lemma charged_step (budget : ReadBudget) (operation : ReadOperation) :
    Charged (operation.StaysWithin budget) budget (budget.step operation) := by
  have himp : ∀ {p q : Prop} {next : ReadBudget × ReadOutcome}, (q → p) →
      Charged p budget next → Charged q budget next := by
    intro p q next hqp h
    cases h with
    | refused outcome hnone => exact Charged.refused outcome hnone
    | read bytes outcome hfiles hreturned =>
      exact Charged.read bytes outcome hfiles fun text htext =>
        ⟨(hreturned text htext).1, fun hq => (hreturned text htext).2 (hqp hq)⟩
  cases operation with
  | text read => exact himp (fun h => h read rfl) (charged_readText read)
  | root read =>
    cases read with
    | none => exact Charged.refused _ rfl
    | some read => exact himp (fun _ => trivial) (charged_readFromRoot read)

lemma returnedBytes_cons (outcome : ReadOutcome) (outcomes : List ReadOutcome) :
    returnedBytes (outcome :: outcomes) =
      (outcome.returned.map String.utf8ByteSize).getD 0 + returnedBytes outcomes := by
  unfold returnedBytes
  cases h : outcome.returned with
  | none => rw [filterMap_cons_none h, map_none, getD_none, Nat.zero_add]
  | some text =>
    rw [filterMap_cons_some h, map_cons, sum_cons, map_some, getD_some]

lemma returnedFiles_cons (outcome : ReadOutcome) (outcomes : List ReadOutcome) :
    returnedFiles (outcome :: outcomes) =
      (if outcome.returned.isSome then 1 else 0) + returnedFiles outcomes := by
  unfold returnedFiles
  cases h : outcome.returned with
  | none =>
    rw [filterMap_cons_none h]
    simp
  | some text =>
    rw [filterMap_cons_some h, length_cons]
    simp [Nat.add_comm]

lemma Charged.step {within : Prop} {budget : ReadBudget} {next : ReadBudget × ReadOutcome}
    (h : Charged within budget next) :
    (if next.2.returned.isSome then 1 else 0) + next.1.remainingFiles ≤ budget.remainingFiles ∧
      (within → (next.2.returned.map String.utf8ByteSize).getD 0 + next.1.remainingTotalBytes ≤
        budget.remainingTotalBytes) := by
  cases h with
  | refused outcome hnone =>
    rw [hnone]
    simp
  | read bytes outcome hfiles hreturned =>
    unfold ReadBudget.consume
    cases houtcome : outcome.returned with
    | none => simp
    | some text =>
      obtain ⟨hsize, hle⟩ := hreturned text houtcome
      simp only [map_some, getD_some, isSome_some, if_true]
      refine ⟨by omega, fun hwithin => ?_⟩
      have hbytes := hle hwithin
      omega

/-- **No run of reads returns more files than its budget has.** -/
lemma returnedFiles_run (budget : ReadBudget) (operations : List ReadOperation) :
    returnedFiles (budget.run operations).2 ≤ budget.remainingFiles := by
  induction operations generalizing budget with
  | nil => exact Nat.zero_le _
  | cons operation operations ih =>
    have hfirst := (charged_step budget operation).step.1
    have hrest := ih (budget.step operation).1
    show returnedFiles (_ :: _) ≤ _
    rw [returnedFiles_cons]
    omega

/-- A file of five bytes, and the answers to reading it when it has become longer. -/
def grownRead (length : ℕ) : TextRead where
  deadlinePassed := false
  metadata := some ⟨true, false, 5⟩
  opened := .handle ⟨some ⟨true, false, length⟩, some ⟨true, false, length⟩,
    some (List.replicate length 97)⟩

end Reposcout
