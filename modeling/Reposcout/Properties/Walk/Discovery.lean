import Reposcout.Walk.Discovery

/-!
# When discovery is quiet

Discovery counts what a limit or the deadline keeps out.  `quiet_discover_iff` says in terms of the
walk when every such counter stays at zero.  The errors of the walker and the files whose metadata
cannot be read have a counter of their own.
-/

namespace Reposcout

open List Deadline

namespace Deadline

/-- So many questions to the clock come in time. -/
def Covers (deadline : Deadline) (questions : ℕ) : Prop :=
  ∀ n, deadline.remaining = some n → questions ≤ n

def after (deadline : Deadline) (questions : ℕ) : Deadline :=
  ⟨deadline.remaining.map fun n => n - questions⟩

variable {deadline : Deadline} {n m : ℕ}

@[simp] lemma covers_zero : deadline.Covers 0 := fun _ _ => Nat.zero_le _

@[simp] lemma after_zero : deadline.after 0 = deadline := by
  rcases deadline with ⟨_ | k⟩ <;> simp [after]

lemma passed_eq_true : deadline.passed = true ↔ deadline.remaining = some 0 := by
  simp [passed]

lemma passed_eq_false : deadline.passed = false ↔ deadline.Covers 1 := by
  rcases deadline with ⟨_ | k⟩
  · simp [passed, Covers]
  · simp [passed, Covers, Nat.one_le_iff_ne_zero]

lemma next_eq_after : deadline.next = deadline.after 1 := rfl

@[simp] lemma after_after : (deadline.after n).after m = deadline.after (n + m) := by
  rcases deadline with ⟨_ | k⟩ <;> simp [after, Nat.sub_add_eq]

/-- The first questions come in time, and the later ones after them. -/
lemma covers_add : deadline.Covers (n + m) ↔ deadline.Covers n ∧ (deadline.after n).Covers m := by
  rcases deadline with ⟨_ | k⟩
  · simp [Covers, after]
  · simp only [Covers, after, Option.map_some, Option.some.injEq, forall_eq']
    omega

lemma passed_next (h : deadline.passed = true) : deadline.next.passed = true := by
  rw [passed_eq_true] at h ⊢
  simp [next, h]

end Deadline

namespace Walk

/-! ## The counters of discovery -/

/-- No limit and no deadline has kept a file out. -/
structure DiscoveryStats.Quiet (stats : DiscoveryStats) : Prop where
  oversizedFiles : stats.oversizedFiles = 0
  oversizedBytes : stats.oversizedBytes = 0
  filesOmittedByLimit : stats.filesOmittedByLimit = 0
  filesOmittedCountIncomplete : stats.filesOmittedCountIncomplete = false
  scanTruncated : stats.scanTruncated = false
  durationLimitReached : stats.durationLimitReached = false

namespace DiscoveryStats

variable {stats : DiscoveryStats}

lemma quiet_default : ({} : DiscoveryStats).Quiet := ⟨rfl, rfl, rfl, rfl, rfl, rfl⟩

/-- Whatever sets the truncation flag is not quiet. -/
lemma not_quiet_of_truncated (h : stats.scanTruncated = true) : ¬ stats.Quiet :=
  fun hquiet => Bool.noConfusion (h.symm.trans hquiet.scanTruncated)

/-- The other counters may change. -/
lemma quiet_congr (observed accepted errors : ℕ) :
    { stats with
      observedFiles := observed, acceptedBytes := accepted, walkerErrors := errors }.Quiet ↔
      stats.Quiet :=
  ⟨fun ⟨h₁, h₂, h₃, h₄, h₅, h₆⟩ => ⟨h₁, h₂, h₃, h₄, h₅, h₆⟩,
    fun ⟨h₁, h₂, h₃, h₄, h₅, h₆⟩ => ⟨h₁, h₂, h₃, h₄, h₅, h₆⟩⟩

@[simp] lemma quiet_walkerError : stats.walkerError.Quiet ↔ stats.Quiet := quiet_congr ..

@[simp] lemma quiet_observe : stats.observe.Quiet ↔ stats.Quiet := quiet_congr ..

variable {bytes : ℕ}

@[simp] lemma quiet_accept : (stats.accept bytes).Quiet ↔ stats.Quiet :=
  quiet_congr ..

@[simp] lemma not_quiet_oversized : ¬ (stats.oversized bytes).Quiet :=
  not_quiet_of_truncated rfl

@[simp] lemma not_quiet_omitted : ¬ (stats.omitted bytes).Quiet :=
  not_quiet_of_truncated rfl

@[simp] lemma not_quiet_tooManyFiles : ¬ stats.tooManyFiles.Quiet :=
  not_quiet_of_truncated rfl

@[simp] lemma not_quiet_outOfTime : ¬ stats.outOfTime.Quiet :=
  not_quiet_of_truncated rfl

@[simp] lemma observedFiles_observe : stats.observe.observedFiles = stats.observedFiles + 1 := rfl

@[simp] lemma acceptedBytes_observe : stats.observe.acceptedBytes = stats.acceptedBytes := rfl

end DiscoveryStats

/-- Statistics after so many more files of so many bytes in all, with nothing kept out. -/
structure DiscoveryStats.Advances (stats next : DiscoveryStats) (files bytes : ℕ) : Prop where
  quiet : next.Quiet ↔ stats.Quiet
  observedFiles : next.observedFiles = stats.observedFiles + files
  acceptedBytes : next.acceptedBytes = stats.acceptedBytes + bytes

/-! ## The files of a walk -/

def WalkItem.file? (discovery : Discovery) : WalkItem → Option WalkFile
  | .entry _ (some file) => if file.absolutePath ∈ discovery.exclusions then none else some file
  | .entry _ none | .error => none

def walkedFiles (discovery : Discovery) (items : List WalkItem) : List WalkFile :=
  items.filterMap (WalkItem.file? discovery)

def recognizedFiles (discovery : Discovery) (items : List WalkItem) : List WalkFile :=
  (walkedFiles discovery items).filter fun file => discovery.detect file.reportPath

def countedBytes (discovery : Discovery) (file : WalkFile) : ℕ :=
  if discovery.detect file.reportPath then file.regular.getD 0 else 0

/-- Whether discovery passes a file on when no limit interferes. -/
def passesOn (discovery : Discovery) (file : WalkFile) : Bool :=
  !discovery.detect file.reportPath || file.regular.isSome

def passedFiles (discovery : Discovery) (items : List WalkItem) : List WalkFile :=
  (walkedFiles discovery items).filter (passesOn discovery)

/-- How often the clock is asked about an item. -/
def WalkItem.questions (item : WalkItem) : ℕ := if item.filtered then 2 else 1

/-- How often the clock is asked during a walk. -/
def questions (items : List WalkItem) : ℕ := (items.map WalkItem.questions).sum

/-- A walk after `observed` files and `accepted` bytes that no limit cuts short. -/
structure FilesWithinLimits (discovery : Discovery) (items : List WalkItem)
    (observed accepted : ℕ) : Prop where
  fileCount : observed + (walkedFiles discovery items).length ≤ discovery.limits.maxFiles
  fileBytes : ∀ file ∈ walkedFiles discovery items,
    countedBytes discovery file ≤ discovery.limits.maxFileBytes
  totalBytes : accepted + ((walkedFiles discovery items).map (countedBytes discovery)).sum ≤
    discovery.limits.maxTotalBytes

section

variable {discovery : Discovery} {item : WalkItem} {rest : List WalkItem}
  {files : List WalkFile} {stats : DiscoveryStats} {deadline : Deadline}

lemma walkedFiles_cons (item : WalkItem) (rest : List WalkItem) :
    walkedFiles discovery (item :: rest) =
      walkedFiles discovery [item] ++ walkedFiles discovery rest := by
  simp [walkedFiles, ← filterMap_append]

lemma passedFiles_cons (item : WalkItem) (rest : List WalkItem) :
    passedFiles discovery (item :: rest) =
      passedFiles discovery [item] ++ passedFiles discovery rest := by
  simp [passedFiles, walkedFiles_cons item rest]

lemma walkedFiles_of_none (h : item.file? discovery = none) :
    walkedFiles discovery [item] = [] := by
  simp [walkedFiles, h]

variable {file : WalkFile}

lemma walkedFiles_of_some (h : item.file? discovery = some file) :
    walkedFiles discovery [item] = [file] := by
  simp [walkedFiles, h]

lemma questions_cons : questions (item :: rest) = item.questions + questions rest := by
  simp [questions]

lemma filesWithinLimits_cons {observed accepted : ℕ} :
    FilesWithinLimits discovery (item :: rest) observed accepted ↔
      FilesWithinLimits discovery [item] observed accepted ∧
        FilesWithinLimits discovery rest (observed + (walkedFiles discovery [item]).length)
          (accepted + ((walkedFiles discovery [item]).map (countedBytes discovery)).sum) := by
  constructor
  · rintro ⟨hcount, hfile, htotal⟩
    rw [walkedFiles_cons] at hcount hfile htotal
    simp only [length_append, map_append, sum_append] at hcount htotal
    exact ⟨⟨by omega, fun file h => hfile file (mem_append_left _ h), by omega⟩,
      by omega, fun file h => hfile file (mem_append_right _ h), by omega⟩
  · rintro ⟨⟨_, hfile, _⟩, hcount, hfiles, htotal⟩
    refine ⟨?_, ?_, ?_⟩
    · rw [walkedFiles_cons, length_append]
      omega
    · intro file h
      rw [walkedFiles_cons] at h
      exact (mem_append.mp h).elim (hfile file) (hfiles file)
    · rw [walkedFiles_cons, map_append, sum_append]
      omega

/-! ## One item -/

/-- What `collect_files` does with an item that is in time. -/
def stepItem (discovery : Discovery) (item : WalkItem) (files : List WalkFile)
    (stats : DiscoveryStats) : WalkControl × List WalkFile × DiscoveryStats :=
  match item with
  | .error => (.continue, files, stats.walkerError)
  | .entry _ none => (.continue, files, stats)
  | .entry _ (some file) => processFile discovery file files stats

/-- What an item within the limits leads to. -/
def Stepped (discovery : Discovery) (item : WalkItem) (files : List WalkFile)
    (stats : DiscoveryStats) (next : WalkControl × List WalkFile × DiscoveryStats) : Prop :=
  next.1 = .continue ∧ next.2.1 = files ++ passedFiles discovery [item] ∧
    stats.Advances next.2.2 (walkedFiles discovery [item]).length
      ((walkedFiles discovery [item]).map (countedBytes discovery)).sum

lemma advances_observe : stats.Advances stats.observe 1 0 :=
  ⟨DiscoveryStats.quiet_observe, rfl, rfl⟩

lemma advances_walkerError : stats.Advances stats.observe.walkerError 1 0 :=
  ⟨by simp, rfl, rfl⟩

lemma advances_accept {bytes : ℕ} : stats.Advances (stats.observe.accept bytes) 1 bytes :=
  ⟨by simp, rfl, rfl⟩

lemma advances_zero {next : DiscoveryStats} (hquiet : next.Quiet ↔ stats.Quiet)
    (hobserved : next.observedFiles = stats.observedFiles)
    (haccepted : next.acceptedBytes = stats.acceptedBytes) : stats.Advances next 0 0 :=
  ⟨hquiet, hobserved, haccepted⟩

/-- A file is passed on within the limits, and counted otherwise. -/
lemma processFile_cases (files : List WalkFile)
    (hexcluded : file.absolutePath ∉ discovery.exclusions)
    (haccepted : stats.acceptedBytes ≤ discovery.limits.maxTotalBytes) :
    let next := processFile discovery file files stats
    (stats.observedFiles + 1 ≤ discovery.limits.maxFiles ∧
        countedBytes discovery file ≤ discovery.limits.maxFileBytes ∧
        stats.acceptedBytes + countedBytes discovery file ≤ discovery.limits.maxTotalBytes ∧
        next.1 = .continue ∧ next.2.1 = files ++ [file].filter (passesOn discovery) ∧
        stats.Advances next.2.2 1 (countedBytes discovery file)) ∨
      (¬ (stats.observedFiles + 1 ≤ discovery.limits.maxFiles ∧
          countedBytes discovery file ≤ discovery.limits.maxFileBytes ∧
          stats.acceptedBytes + countedBytes discovery file ≤ discovery.limits.maxTotalBytes) ∧
        ¬ next.2.2.Quiet) := by
  intro next
  by_cases hcount : stats.observedFiles + 1 ≤ discovery.limits.maxFiles
  swap
  · have hnext : next = (.stop, files, stats.observe.tooManyFiles) := by
      simp [next, processFile, hexcluded, Nat.lt_of_not_le hcount]
    exact .inr ⟨fun h => hcount h.1, by simp [hnext]⟩
  have hnot : ¬ stats.observe.observedFiles > discovery.limits.maxFiles := Nat.not_lt.mpr hcount
  cases hdetect : discovery.detect file.reportPath with
  | false =>
    have hnext : next = (.continue, files ++ [file], stats.observe) := by
      simp only [next, processFile, if_neg hexcluded, if_neg hnot, hdetect]
      rfl
    refine .inl ⟨hcount, ?_⟩
    simp [countedBytes, hdetect, hnext, haccepted, passesOn, advances_observe]
  | true =>
    cases hregular : file.regular with
    | none =>
      have hnext : next = (.continue, files, stats.observe.walkerError) := by
        simp only [next, processFile, if_neg hexcluded, if_neg hnot, hdetect,
          acceptRecognizedFile, hregular]
        rfl
      refine .inl ⟨hcount, ?_⟩
      simp [countedBytes, hdetect, hregular, hnext, haccepted, passesOn, advances_walkerError]
    | some bytes =>
      have hbytes : countedBytes discovery file = bytes := by simp [countedBytes, hdetect, hregular]
      rw [hbytes]
      by_cases hsize : bytes ≤ discovery.limits.maxFileBytes
      swap
      · have hnext : next = (.continue, files, stats.observe.oversized bytes) := by
          simp only [next, processFile, if_neg hexcluded, if_neg hnot, hdetect,
            acceptRecognizedFile, hregular, if_pos (Nat.lt_of_not_le hsize)]
          rfl
        exact .inr ⟨fun h => hsize h.2.1, by simp [hnext]⟩
      by_cases htotal : stats.acceptedBytes + bytes ≤ discovery.limits.maxTotalBytes
      swap
      · have hnext : next = (.continue, files, stats.observe.omitted bytes) := by
          have hmore : stats.observe.acceptedBytes + bytes > discovery.limits.maxTotalBytes :=
            Nat.lt_of_not_le htotal
          simp only [next, processFile, if_neg hexcluded, if_neg hnot, hdetect,
            acceptRecognizedFile, hregular, if_neg (Nat.not_lt.mpr hsize), if_pos hmore]
          rfl
        exact .inr ⟨fun h => htotal h.2.2, by simp [hnext]⟩
      have hnext : next = (.continue, files ++ [file], stats.observe.accept bytes) := by
        have hmore : ¬ stats.observe.acceptedBytes + bytes > discovery.limits.maxTotalBytes :=
          Nat.not_lt.mpr htotal
        simp only [next, processFile, if_neg hexcluded, if_neg hnot, hdetect,
          acceptRecognizedFile, hregular, if_neg (Nat.not_lt.mpr hsize), if_neg hmore]
        rfl
      refine .inl ⟨hcount, hsize, htotal, ?_⟩
      simp [hnext, passesOn, hregular, advances_accept]

lemma stepItem_cases (discovery : Discovery) (item : WalkItem) (files : List WalkFile)
    (stats : DiscoveryStats) (hobserved : stats.observedFiles ≤ discovery.limits.maxFiles)
    (haccepted : stats.acceptedBytes ≤ discovery.limits.maxTotalBytes) :
    (FilesWithinLimits discovery [item] stats.observedFiles stats.acceptedBytes ∧
        Stepped discovery item files stats (stepItem discovery item files stats)) ∨
      (¬ FilesWithinLimits discovery [item] stats.observedFiles stats.acceptedBytes ∧
        ¬ (stepItem discovery item files stats).2.2.Quiet) := by
  cases hfile : item.file? discovery with
  | none =>
    have hwalked := walkedFiles_of_none hfile
    refine .inl ⟨⟨by simpa [hwalked], by simp [hwalked], by simpa [hwalked]⟩, ?_⟩
    rw [Stepped, passedFiles, hwalked]
    match item, hfile with
    | .error, _ => exact ⟨rfl, by simp [stepItem], advances_zero (by simp [stepItem]) rfl rfl⟩
    | .entry _ none, _ => exact ⟨rfl, by simp [stepItem], advances_zero Iff.rfl rfl rfl⟩
    | .entry depth (some file), hfile =>
      have hexcluded : file.absolutePath ∈ discovery.exclusions := by
        simpa [WalkItem.file?] using hfile
      have hnext : stepItem discovery (.entry depth (some file)) files stats =
          (.continue, files, stats) := by
        simp [stepItem, processFile, hexcluded]
      rw [hnext]
      exact ⟨rfl, by simp, advances_zero Iff.rfl rfl rfl⟩
  | some file =>
    have hwalked := walkedFiles_of_some hfile
    match item, hfile with
    | .entry depth (some file'), hfile =>
      have hexcluded : file'.absolutePath ∉ discovery.exclusions := by
        intro h
        simp [WalkItem.file?, h] at hfile
      obtain rfl : file' = file := by simpa [WalkItem.file?, hexcluded] using hfile
      have hfits : FilesWithinLimits discovery [.entry depth (some file')] stats.observedFiles
          stats.acceptedBytes ↔ stats.observedFiles + 1 ≤ discovery.limits.maxFiles ∧
            countedBytes discovery file' ≤ discovery.limits.maxFileBytes ∧
            stats.acceptedBytes + countedBytes discovery file' ≤
              discovery.limits.maxTotalBytes := by
        constructor
        · rintro ⟨hcount, hbytes, htotal⟩
          simp only [hwalked, length_singleton, map_cons, map_nil, sum_singleton] at hcount htotal
          exact ⟨hcount, hbytes file' (by simp [hwalked]), htotal⟩
        · rintro ⟨hcount, hbytes, htotal⟩
          exact ⟨by simpa [hwalked], by simpa [hwalked], by simpa [hwalked]⟩
      rw [hfits, Stepped, passedFiles, hwalked]
      rcases processFile_cases files hexcluded haccepted with
        ⟨hcount, hbytes, htotal, hcontinue, hnext, hadvances⟩ | ⟨hnot, hnext⟩
      · refine .inl ⟨⟨hcount, hbytes, htotal⟩, hcontinue, hnext, ?_⟩
        simpa [stepItem] using hadvances
      · exact .inr ⟨hnot, hnext⟩

lemma quiet_of_acceptRecognizedFile
    (h : (acceptRecognizedFile discovery.limits file stats).2.Quiet) : stats.Quiet := by
  unfold acceptRecognizedFile at h
  split at h
  · simpa using h
  · split at h
    · simp at h
    · split at h
      · simp at h
      · simpa using h

/-- Counters stay. -/
lemma quiet_of_stepItem (h : (stepItem discovery item files stats).2.2.Quiet) : stats.Quiet := by
  match item with
  | .error => simpa [stepItem] using h
  | .entry _ none => simpa [stepItem] using h
  | .entry _ (some file) =>
    simp only [stepItem, processFile] at h
    split at h
    · exact h
    · split at h
      · simp at h
      · split at h
        · have haccept : (acceptRecognizedFile discovery.limits file stats.observe).2.Quiet := by
            split at h <;> rename_i heq <;> simpa [heq] using h
          simpa using quiet_of_acceptRecognizedFile haccept
        · simpa using h

/-! ## The whole walk -/

open Deadline

/-- One turn of `collect_files` that is in time. -/
lemma collectFiles_cons (h : deadline.Covers item.questions) :
    collectFiles discovery (item :: rest) ⟨files, stats, deadline⟩ =
      let next := stepItem discovery item files stats
      let later : Collected := ⟨next.2.1, next.2.2, deadline.after item.questions⟩
      if next.1 = .stop then later else collectFiles discovery rest later := by
  have hfilter : (item.filtered && deadline.passed) = false := by
    cases hfiltered : item.filtered with
    | false => rfl
    | true =>
      rw [WalkItem.questions, if_pos hfiltered] at h
      have hfirst : deadline.Covers 1 := ((covers_add (n := 1) (m := 1)).mp h).1
      simpa using passed_eq_false.mpr hfirst
  have hloop : (item.afterFilter deadline).passed = false ∧
      (item.afterFilter deadline).next = deadline.after item.questions := by
    cases hfiltered : item.filtered with
    | false =>
      rw [WalkItem.questions, if_neg (by simp [hfiltered])] at h ⊢
      rw [WalkItem.afterFilter, if_neg (by simp [hfiltered])]
      exact ⟨passed_eq_false.mpr h, rfl⟩
    | true =>
      rw [WalkItem.questions, if_pos hfiltered] at h ⊢
      rw [WalkItem.afterFilter, if_pos hfiltered]
      refine ⟨passed_eq_false.mpr ((covers_add (n := 1) (m := 1)).mp h).2, ?_⟩
      rw [next_eq_after, next_eq_after, after_after]
  simp only [collectFiles, hfilter, hloop.1, hloop.2]
  match item with
  | .error => rfl
  | .entry _ none => rfl
  | .entry _ (some file) =>
    simp only [Bool.false_eq_true, if_false, stepItem]
    split
    · next heq => simp [heq]
    · next heq => simp [heq]

/-- A turn that is too late drops the item or ends the walk. -/
lemma collectFiles_cons_late (discovery : Discovery) (rest : List WalkItem)
    (files : List WalkFile) (stats : DiscoveryStats) (h : ¬ deadline.Covers item.questions) :
    (deadline.passed = true ∧ collectFiles discovery (item :: rest) ⟨files, stats, deadline⟩ =
          collectFiles discovery rest ⟨files, stats, deadline.next⟩) ∨
      (collectFiles discovery (item :: rest) ⟨files, stats, deadline⟩).stats =
        stats.outOfTime := by
  by_cases hfilter : (item.filtered && deadline.passed) = true
  · refine .inl ⟨(Bool.and_eq_true_iff.mp hfilter).2, ?_⟩
    simp [collectFiles, hfilter]
  · have hloop : (item.afterFilter deadline).passed = true := by
      by_contra hloop
      rw [Bool.not_eq_true] at hloop hfilter
      refine h ?_
      cases hfiltered : item.filtered with
      | false =>
        rw [WalkItem.afterFilter, if_neg (by simp [hfiltered])] at hloop
        rw [WalkItem.questions, if_neg (by simp [hfiltered])]
        exact passed_eq_false.mp hloop
      | true =>
        rw [WalkItem.afterFilter, if_pos hfiltered] at hloop
        rw [WalkItem.questions, if_pos hfiltered]
        have hpassed : deadline.passed = false := by simpa [hfiltered] using hfilter
        exact (covers_add (n := 1) (m := 1)).mpr
          ⟨passed_eq_false.mp hpassed, passed_eq_false.mp hloop⟩
    refine .inr ?_
    simp only [collectFiles, hfilter, hloop]
    rfl

end

variable {discovery : Discovery} (items : List WalkItem) (collected : Collected)

lemma passed_collectFiles (h : collected.deadline.passed = true) :
    (collectFiles discovery items collected).deadline.passed = true := by
  induction items generalizing collected with
  | nil => exact h
  | cons item rest ih =>
    cases hfiltered : item.filtered with
    | true =>
      rw [collectFiles]
      simp only [hfiltered, Bool.true_and]
      rw [if_pos h]
      exact ih _ (passed_next h)
    | false =>
      rw [collectFiles]
      simp only [hfiltered, Bool.false_and, WalkItem.afterFilter, Bool.false_eq_true, if_false]
      rw [if_pos h]
      exact passed_next h

lemma quiet_of_collectFiles
    (h : (collectFiles discovery items collected).stats.Quiet) : collected.stats.Quiet := by
  induction items generalizing collected with
  | nil => exact h
  | cons item rest ih =>
    obtain ⟨files, stats, deadline⟩ := collected
    by_cases hcovers : deadline.Covers item.questions
    · rw [collectFiles_cons hcovers] at h
      dsimp only at h
      split at h
      · exact quiet_of_stepItem h
      · exact quiet_of_stepItem (ih _ h)
    · rcases collectFiles_cons_late discovery rest files stats hcovers with ⟨_, heq⟩ | heq
      · rw [heq] at h
        exact ih ⟨files, stats, deadline.next⟩ h
      · rw [heq] at h
        exact absurd h DiscoveryStats.not_quiet_outOfTime

/-- **A walk in time and within the limits** passes on its files and counts nothing. -/
lemma collectFiles_of_within (htime : collected.deadline.Covers (questions items))
    (hlimits : FilesWithinLimits discovery items collected.stats.observedFiles
      collected.stats.acceptedBytes) :
    let result := collectFiles discovery items collected
    result.files = collected.files ++ passedFiles discovery items ∧
      result.deadline = collected.deadline.after (questions items) ∧
      (result.stats.Quiet ↔ collected.stats.Quiet) := by
  induction items generalizing collected with
  | nil => simp [collectFiles, passedFiles, walkedFiles, questions]
  | cons item rest ih =>
    obtain ⟨files, stats, deadline⟩ := collected
    dsimp only at htime hlimits ⊢
    rw [questions_cons, covers_add] at htime
    obtain ⟨hitem, hrest⟩ := filesWithinLimits_cons.mp hlimits
    have hstepped : Stepped discovery item files stats (stepItem discovery item files stats) := by
      have hobserved : stats.observedFiles ≤ discovery.limits.maxFiles := by
        have hcount := hitem.fileCount
        omega
      have haccepted : stats.acceptedBytes ≤ discovery.limits.maxTotalBytes := by
        have htotal := hitem.totalBytes
        omega
      rcases stepItem_cases discovery item files stats hobserved haccepted with
        ⟨_, hstepped⟩ | ⟨hnot, _⟩
      · exact hstepped
      · exact absurd hitem hnot
    obtain ⟨hcontinue, hfiles, hadvances⟩ := hstepped
    rw [collectFiles_cons htime.1]
    simp only [hcontinue, hfiles, reduceCtorEq, if_false]
    rw [← hadvances.observedFiles, ← hadvances.acceptedBytes] at hrest
    obtain ⟨hfiles', hdeadline, hquiet⟩ := ih ⟨files ++ passedFiles discovery [item],
      (stepItem discovery item files stats).2.2, deadline.after item.questions⟩ htime.2 hrest
    refine ⟨?_, ?_, hquiet.trans hadvances.quiet⟩
    · rw [hfiles', passedFiles_cons item rest, append_assoc]
    · rw [hdeadline, after_after, questions_cons]

lemma within_of_quiet (hobserved : collected.stats.observedFiles ≤ discovery.limits.maxFiles)
    (haccepted : collected.stats.acceptedBytes ≤ discovery.limits.maxTotalBytes)
    (hquiet : (collectFiles discovery items collected).stats.Quiet)
    (htime : (collectFiles discovery items collected).deadline.passed = false) :
    collected.deadline.Covers (questions items + 1) ∧
      FilesWithinLimits discovery items collected.stats.observedFiles
        collected.stats.acceptedBytes := by
  induction items generalizing collected with
  | nil =>
    exact ⟨passed_eq_false.mp htime, by simpa [walkedFiles], by simp [walkedFiles],
      by simpa [walkedFiles]⟩
  | cons item rest ih =>
    obtain ⟨files, stats, deadline⟩ := collected
    by_cases hcovers : deadline.Covers item.questions
    swap
    · rcases collectFiles_cons_late discovery rest files stats hcovers with ⟨hpassed, heq⟩ | heq
      · rw [heq, passed_collectFiles rest _ (passed_next hpassed)] at htime
        cases htime
      · rw [heq] at hquiet
        exact absurd hquiet DiscoveryStats.not_quiet_outOfTime
    rw [collectFiles_cons hcovers] at hquiet htime
    dsimp only at hquiet htime
    rcases stepItem_cases discovery item files stats hobserved haccepted with
      ⟨hitem, hcontinue, _, hadvances⟩ | ⟨_, hnot⟩
    · rw [if_neg (by simp [hcontinue])] at hquiet htime
      have hobserved' : (stepItem discovery item files stats).2.2.observedFiles ≤
          discovery.limits.maxFiles := by
        rw [hadvances.observedFiles]
        exact hitem.fileCount
      have haccepted' : (stepItem discovery item files stats).2.2.acceptedBytes ≤
          discovery.limits.maxTotalBytes := by
        rw [hadvances.acceptedBytes]
        exact hitem.totalBytes
      obtain ⟨hlater, hrest⟩ := ih _ hobserved' haccepted' hquiet htime
      rw [hadvances.observedFiles, hadvances.acceptedBytes] at hrest
      refine ⟨?_, filesWithinLimits_cons.mpr ⟨hitem, hrest⟩⟩
      rw [questions_cons, Nat.add_assoc]
      exact covers_add.mpr ⟨hcovers, hlater⟩
    · split at hquiet
      · exact absurd hquiet hnot
      · exact absurd (quiet_of_collectFiles rest _ hquiet) hnot

/-! ## Discovery -/

lemma quiet_finishStats (rejected : ℕ) (collected : Collected) :
    (finishStats rejected collected).Quiet ↔
      collected.stats.Quiet ∧ rejected = 0 ∧ collected.deadline.passed = false := by
  unfold finishStats
  cases hpassed : collected.deadline.passed with
  | true => simp
  | false =>
    constructor
    · rintro ⟨h₁, h₂, h₃, h₄, h₅, h₆⟩
      obtain ⟨htruncated, hrejected⟩ := Bool.or_eq_false_iff.mp h₅
      exact ⟨⟨h₁, h₂, h₃, h₄, htruncated, h₆⟩, by simpa using hrejected, rfl⟩
    · rintro ⟨⟨h₁, h₂, h₃, h₄, h₅, h₆⟩, rfl, -⟩
      exact ⟨h₁, h₂, h₃, h₄, by simp [h₅], h₆⟩

/-- A walk of which no limit, no deadline and no rejected ignore file keeps a part out. -/
structure DiscoveryWithinLimits (discovery : Discovery) (traversal : Traversal)
    (deadline : Deadline) : Prop where
  inTime : deadline.Covers (questions traversal.items + 1)
  files : FilesWithinLimits discovery traversal.items 0 0
  rejected : traversal.rejected = 0

/-- **The counters of discovery** other than those of the walker stay at zero exactly when nothing
is kept out. -/
lemma quiet_discover_iff (traversal : Traversal) (deadline : Deadline) :
    (finishStats traversal.rejected
        (collectFiles discovery traversal.items { deadline })).Quiet ↔
      DiscoveryWithinLimits discovery traversal deadline := by
  rw [quiet_finishStats]
  constructor
  · rintro ⟨hquiet, hrejected, htime⟩
    obtain ⟨hcovers, hlimits⟩ := within_of_quiet traversal.items { deadline }
      (Nat.zero_le _) (Nat.zero_le _) hquiet htime
    exact ⟨hcovers, hlimits, hrejected⟩
  · rintro ⟨hcovers, hlimits, hrejected⟩
    obtain ⟨hbefore, hafter⟩ := covers_add.mp hcovers
    obtain ⟨_, hdeadline, hquiet⟩ := collectFiles_of_within traversal.items { deadline }
      hbefore hlimits
    refine ⟨hquiet.mpr DiscoveryStats.quiet_default, hrejected, ?_⟩
    rw [hdeadline]
    exact passed_eq_false.mpr hafter

lemma discover_of_within {traversal : Traversal} {deadline : Deadline}
    (h : DiscoveryWithinLimits discovery traversal deadline) :
    (discover discovery traversal deadline).1.files.Perm
        (passedFiles discovery traversal.items) ∧
      (discover discovery traversal deadline).2 =
        deadline.after (questions traversal.items + 1) := by
  obtain ⟨hfiles, hdeadline, _⟩ := collectFiles_of_within traversal.items { deadline }
    (covers_add.mp h.inTime).1 h.files
  refine ⟨?_, ?_⟩
  · have hsorted := KeyedList.sortBy_perm fileOrder
      (collectFiles discovery traversal.items { deadline }).files
    simpa [discover, hfiles] using hsorted
  · simp only [discover, hdeadline, next_eq_after, after_after]

/-! ## Exclusions -/

/-- What discovery keeps is not excluded. -/
def Kept (discovery : Discovery) (files : List WalkFile) : Prop :=
  ∀ file ∈ files, file.absolutePath ∉ discovery.exclusions

lemma Kept.processFile {files : List WalkFile} (h : Kept discovery files) (file : WalkFile)
    (stats : DiscoveryStats) : Kept discovery (processFile discovery file files stats).2.1 := by
  have hconcat (hexcluded : file.absolutePath ∉ discovery.exclusions) :
      Kept discovery (files ++ [file]) := by
    intro other hother
    rcases mem_append.mp hother with hother | hother
    · exact h other hother
    · rwa [mem_singleton.mp hother]
  simp only [Walk.processFile]
  split_ifs with hexcluded
  · exact h
  · exact h
  · split
    · exact hconcat hexcluded
    · exact h
  · exact hconcat hexcluded

lemma Kept.collectFiles (h : Kept discovery collected.files) :
    Kept discovery (collectFiles discovery items collected).files := by
  fun_induction Walk.collectFiles discovery items collected with
  | case1 | case3 => exact h
  | case2 | case4 | case5 => exact ‹_ → _› h
  | case6 rest files stats deadline depth file files' stats' hnext =>
    have hkept := h.processFile file stats
    rwa [hnext] at hkept
  | case7 rest files stats deadline depth file files' stats' hnext hfilter later hpassed ih =>
    have hkept := h.processFile file stats
    rw [hnext] at hkept
    exact ih hkept

lemma notMem_exclusions_of_discover {traversal : Traversal} {deadline : Deadline} {file : WalkFile}
    (h : file ∈ (discover discovery traversal deadline).1.files) :
    file.absolutePath ∉ discovery.exclusions :=
  Kept.collectFiles traversal.items { deadline } (fun _ hfile => nomatch hfile) file
    (KeyedList.mem_sortBy.mp h)

end Walk

end Reposcout
