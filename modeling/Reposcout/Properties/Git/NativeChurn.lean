import Reposcout.Git.NativeChurn

/-!
# Reading a whole stream

A process that runs to its end prints every change of every commit it is given.  When the parser
ends such a stream and nothing was left out, its events have all these changes: each loop marks
the result partial before it leaves something out, and no step takes the mark back.
-/

namespace Reposcout.Git

open List

/-! ## The stream of a process that ends -/

/-- A change that Git lists without rename detection: a letter and a path. -/
structure NativeChange where
  status : UInt8
  kind : DeltaKind
  path : List UInt8
  known : deltaKind [status] = .ok kind
  noNul : 0 ∉ path

def NativeChange.bytes (change : NativeChange) : List UInt8 :=
  change.status :: 0 :: (change.path ++ [0])

def NativeChange.delta (pathFromGit : List UInt8 → PathBuf) (change : NativeChange) : CachedDelta :=
  nativeDelta change.kind (pathFromGit change.path)

/-- The changes between two trees, as Git lists them. -/
abbrev TreeChanges := TreeId → TreeId → List NativeChange

def commitBytes (changes : TreeChanges) (commit : NativeCommit) : List UInt8 :=
  commit.header ++ (changes commit.oldTree commit.newTree).flatMap NativeChange.bytes

def streamBytes (changes : TreeChanges) (commits : List NativeCommit) : List UInt8 :=
  commits.flatMap (commitBytes changes)

def nativeEvent (pathFromGit : List UInt8 → PathBuf) (changes : TreeChanges)
    (commit : NativeCommit) : CommitEvent where
  oid := commit.oid
  author := commit.author
  seconds := commit.seconds
  deltas := (changes commit.oldTree commit.newTree).map (NativeChange.delta pathFromGit)
  renamesResolved := false

lemma NativeChange.isAsciiUppercase_status (change : NativeChange) :
    isAsciiUppercase change.status = true := by
  have hknown := change.known
  unfold deltaKind at hknown
  split at hknown
  all_goals first
    | cases hknown
    | (rename_i hstatus
       simp only [head?_cons, Option.some.injEq] at hstatus
       rw [hstatus]
       rfl)

section

variable {pathFromGit : List UInt8 → PathBuf} {source : StreamSource} {limits : ChurnLimits}
  {state next : StreamState}

/-! ## Fields -/

/-- A delimited field is read whole if it fits, and otherwise as far as the budget goes. -/
lemma readUntilBudget_append {failing : Bool} {delimiter : UInt8} {field : List UInt8}
    (hfield : delimiter ∉ field) (budget : ℕ) (rest : List UInt8) :
    readUntilBudget failing delimiter budget (field ++ delimiter :: rest) =
      if field.length < budget then .ok (field ++ [delimiter], rest)
      else .ok (field.take budget, (field ++ delimiter :: rest).drop budget) := by
  induction field generalizing budget with
  | nil =>
    cases budget with
    | zero => rfl
    | succ budget => simp [readUntilBudget]
  | cons byte field ih =>
    rw [mem_cons, not_or] at hfield
    cases budget with
    | zero => rfl
    | succ budget =>
      rw [cons_append, readUntilBudget, if_neg (Ne.symm hfield.1), ih hfield.2]
      by_cases hlength : field.length < budget
      · simp [hlength]
      · simp [hlength]

variable {rest : List UInt8}

/-- **A field that is read without a mark is whole.** -/
lemma readNulField_append {field out : List UInt8} (hrest : state.rest = field ++ 0 :: rest)
    (hfield : 0 ∉ field) (h : readNulField source limits state = .ok (next, out))
    (hunmarked : next.stats.isPartial = false) :
    out = field ∧ next = state.advance rest (field.length + 1) := by
  unfold readNulField at h
  rw [hrest, readUntilBudget_append hfield] at h
  by_cases hlength : field.length < limits.maxOutputBytes - state.stats.outputBytes
  · rw [if_pos hlength] at h
    simp only [length_append, length_singleton, getLast?_concat, dropLast_concat] at h
    cases h
    exact ⟨rfl, rfl⟩
  · -- The budget ends inside the field, which is a limit on the output.
    exfalso
    rw [if_neg hlength] at h
    have hlast : (field.take (limits.maxOutputBytes - state.stats.outputBytes)).getLast? ≠
        some 0 := fun hlast =>
      hfield (mem_of_mem_take (mem_of_getLast? hlast))
    have htake : (field.take (limits.maxOutputBytes - state.stats.outputBytes)).length =
        limits.maxOutputBytes - state.stats.outputBytes := by
      rw [length_take]
      omega
    dsimp only at h
    rw [if_pos (.inr hlast), if_pos] at h
    · cases h
      cases hunmarked
    · show state.stats.outputBytes + _ ≥ limits.maxOutputBytes
      omega

lemma readNulField_marked {out : List UInt8}
    (h : readNulField source limits state = .ok (next, out))
    (hstate : state.stats.isPartial = true) : next.stats.isPartial = true := by
  unfold readNulField at h
  split at h
  · cases h
  · dsimp only at h
    split_ifs at h
    · cases h
      rfl
    · cases h
      exact hstate

/-! ## Deltas -/

/-- Passing over deltas keeps the mark. -/
lemma drainCommitDeltas_marked {drained : Bool}
    (h : drainCommitDeltas source limits state = .ok (next, drained))
    (hstate : state.stats.isPartial = true) : next.stats.isPartial = true := by
  induction hlength : state.rest.length using Nat.strong_induction_on generalizing state with
  | _ length ih =>
    rw [drainCommitDeltas] at h
    split at h
    · cases h
      rfl
    · rename_i hlimit
      split at h
      · cases h
      · cases h
        exact hstate
      · rename_i hfollows
        split at h
        · cases h
        · rename_i afterStatus _ hstatus
          split at h
          · cases h
          · rename_i afterPath _ hpath
            have hstatusRest := (readNulField_rest hstatus).2 (by omega)
              (deltaFollows_ne_nil hfollows)
            have hpathRest := (readNulField_rest hpath).1
            split_ifs at h
            · cases h
              rfl
            · refine ih _ ?_ h rfl rfl
              show afterPath.rest.length < length
              omega

/-- Passing over deltas leaves a mark if there are any. -/
lemma drainCommitDeltas_eq {drained : Bool}
    (h : drainCommitDeltas source limits state = .ok (next, drained))
    (hunmarked : next.stats.isPartial = false) :
    next = state ∧ drained = true ∧ deltaFollows source state = .ok false := by
  rw [drainCommitDeltas] at h
  split at h
  · cases h
    cases hunmarked
  · split at h
    · cases h
    · rename_i hfollows
      cases h
      exact ⟨rfl, rfl, hfollows⟩
    · exfalso
      split at h
      · cases h
      · split at h
        · cases h
        · split_ifs at h
          · cases h
            cases hunmarked
          · rw [drainCommitDeltas_marked h rfl] at hunmarked
            cases hunmarked

lemma readDelta_marked {read : DeltaRead}
    (h : readDelta pathFromGit source limits state = .ok (next, read))
    (hstate : state.stats.isPartial = true) : next.stats.isPartial = true ∧ read = .done := by
  unfold readDelta at h
  split at h
  · cases h
  · cases h
    exact ⟨hstate, rfl⟩
  · split at h
    · cases h
    · rename_i afterStatus status hstatus
      have hmark := readNulField_marked hstatus hstate
      rw [if_pos hmark] at h
      cases h
      exact ⟨hmark, rfl⟩

lemma readDelta_bytes {read : DeltaRead} {change : NativeChange}
    (hrest : state.rest = change.bytes ++ rest)
    (h : readDelta pathFromGit source limits state = .ok (next, read))
    (hunmarked : next.stats.isPartial = false) :
    read = .delta (change.delta pathFromGit) ∧ next.rest = rest := by
  have hfollows : deltaFollows source state = .ok true := by
    unfold deltaFollows
    rw [hrest]
    show Except.ok (isAsciiUppercase change.status) = _
    rw [change.isAsciiUppercase_status]
  have hstatusNul : (0 : UInt8) ∉ [change.status] := by
    intro hmem
    have huppercase := change.isAsciiUppercase_status
    rw [← mem_singleton.mp hmem] at huppercase
    revert huppercase
    decide
  unfold readDelta at h
  rw [hfollows] at h
  dsimp only at h
  split at h
  · cases h
  · rename_i afterStatus status hstatus
    by_cases hmark : afterStatus.stats.isPartial = true
    · rw [if_pos hmark] at h
      cases h
      rw [hmark] at hunmarked
      cases hunmarked
    · rw [if_neg hmark] at h
      have hbytes : state.rest = [change.status] ++ 0 :: (change.path ++ 0 :: rest) := by
        rw [hrest]
        simp [NativeChange.bytes]
      obtain ⟨rfl, rfl⟩ := readNulField_append hbytes hstatusNul hstatus (by simpa using hmark)
      split at h
      · cases h
      · rename_i afterPath path hpath
        split_ifs at h with hpathMark hlong
        · cases h
          rw [hpathMark] at hunmarked
          cases hunmarked
        · cases h
          cases hunmarked
        · obtain ⟨rfl, rfl⟩ := readNulField_append rfl change.noNul hpath (by simpa using hpathMark)
          rw [change.known] at h
          cases h
          exact ⟨rfl, rfl⟩

variable {deltas out : List CachedDelta}

lemma readDeltas_marked (h : readDeltas pathFromGit source limits state deltas = .ok (next, out))
    (hstate : state.stats.isPartial = true) : next.stats.isPartial = true := by
  rw [readDeltas] at h
  split at h
  · cases h
    rfl
  · split at h
    · cases h
      rfl
    · split at h
      · split at h
        · cases h
        · rename_i hdrain
          cases h
          exact drainCommitDeltas_marked hdrain hstate
        · cases h
          rfl
      · split at h
        · cases h
        · rename_i hread
          cases h
          exact (readDelta_marked hread hstate).1
        · rename_i hread
          cases (readDelta_marked hread hstate).2
        · rename_i hread
          cases (readDelta_marked hread hstate).2

/-- **Deltas that are read without a mark are all the changes of the commit.** -/
lemma readDeltas_bytes {changes : List NativeChange}
    (hrest : state.rest = changes.flatMap NativeChange.bytes ++ rest)
    (hend : ∀ byte ∈ rest.head?, isAsciiUppercase byte = false)
    (h : readDeltas pathFromGit source limits state deltas = .ok (next, out))
    (hunmarked : next.stats.isPartial = false) :
    out = deltas ++ changes.map (NativeChange.delta pathFromGit) ∧ next.rest = rest := by
  induction changes generalizing state deltas with
  | nil =>
    have hdone : deltaFollows source state.tick ≠ .ok true := by
      intro hfollows
      unfold deltaFollows at hfollows
      rw [show state.tick.rest = rest from hrest] at hfollows
      cases hbytes : rest with
      | nil =>
        rw [hbytes] at hfollows
        split_ifs at hfollows
        cases hfollows
      | cons byte bytes =>
        rw [hbytes] at hfollows
        have hbyte := hend byte (by rw [hbytes]; rfl)
        rw [Except.ok.inj hfollows] at hbyte
        cases hbyte
    rw [readDeltas] at h
    split at h
    · cases h
      cases hunmarked
    · split at h
      · cases h
        cases hunmarked
      · split at h
        · split at h
          · cases h
          · rename_i hdrain
            cases h
            obtain ⟨rfl, _⟩ := drainCommitDeltas_eq hdrain hunmarked
            exact ⟨(append_nil _).symm, hrest⟩
          · cases h
            cases hunmarked
        · have hread : ∀ read, readDelta pathFromGit source limits state.tick = .ok read →
              read = (state.tick, .done) := by
            intro read hread
            unfold readDelta at hread
            split at hread
            · cases hread
            · exact (Except.ok.inj hread).symm
            · rename_i hfollows
              exact absurd hfollows hdone
          split at h
          · cases h
          · rename_i hdelta
            cases hread _ hdelta
            cases h
            exact ⟨(append_nil _).symm, hrest⟩
          · rename_i hdelta
            cases (Prod.mk.inj (hread _ hdelta)).2
          · rename_i hdelta
            cases (Prod.mk.inj (hread _ hdelta)).2
  | cons change changes ih =>
    have hbytes : state.tick.rest =
        change.bytes ++ (changes.flatMap NativeChange.bytes ++ rest) := by
      rw [← append_assoc, ← flatMap_cons]
      exact hrest
    have hfollows : deltaFollows source state.tick = .ok true := by
      unfold deltaFollows
      rw [hbytes]
      show Except.ok (isAsciiUppercase change.status) = _
      rw [change.isAsciiUppercase_status]
    rw [readDeltas] at h
    split at h
    · cases h
      cases hunmarked
    · split at h
      · cases h
        cases hunmarked
      · split at h
        · -- A limit on the deltas: the change that follows is passed over.
          split at h
          · cases h
          · rename_i hdrain
            cases h
            rw [(drainCommitDeltas_eq hdrain hunmarked).2.2] at hfollows
            cases hfollows
          · cases h
            cases hunmarked
        · split at h
          · cases h
          · rename_i hread
            cases h
            cases (readDelta_bytes hbytes hread hunmarked).1
          · rename_i afterDelta hread
            cases hmark : afterDelta.stats.isPartial with
            | false => cases (readDelta_bytes hbytes hread hmark).1
            | true =>
              rw [readDeltas_marked h hmark] at hunmarked
              cases hunmarked
          · rename_i afterDelta delta hread
            cases hmark : afterDelta.stats.isPartial with
            | false =>
              obtain ⟨hdelta, hafter⟩ := readDelta_bytes hbytes hread hmark
              obtain rfl := DeltaRead.delta.inj hdelta
              obtain ⟨hout, hnext⟩ := ih hafter h
              refine ⟨?_, hnext⟩
              rw [hout, map_cons, append_assoc]
              rfl
            | true =>
              rw [readDeltas_marked h hmark] at hunmarked
              cases hunmarked

/-! ## Events -/

/-- A commit's header is a line, and it does not look like a delta. -/
lemma NativeCommit.header_eq (commit : NativeCommit) : ∃ line : List UInt8,
    commit.header = line ++ [10] ∧ 10 ∉ line ∧ ∀ byte ∈ line, isAsciiUppercase byte = false := by
  refine ⟨commit.oldTree.text ++ 32 :: commit.newTree.text, ?_, ?_⟩
  · simp [NativeCommit.header]
  · have hbyte : ∀ byte ∈ commit.oldTree.text ++ 32 :: commit.newTree.text,
        byte ≠ 10 ∧ isAsciiUppercase byte = false := by
      have hhex : ∀ byte : UInt8, (48 ≤ byte ∧ byte ≤ 57) ∨ (97 ≤ byte ∧ byte ≤ 102) →
          byte ≠ 10 ∧ isAsciiUppercase byte = false := by
        intro byte hbyte
        have hcases : (48 ≤ byte.toNat ∧ byte.toNat ≤ 57) ∨
            (97 ≤ byte.toNat ∧ byte.toNat ≤ 102) := hbyte
        refine ⟨?_, ?_⟩
        · rintro rfl
          revert hcases
          decide
        · unfold isAsciiUppercase
          rw [Bool.and_eq_false_iff, decide_eq_false_iff_not, decide_eq_false_iff_not,
            UInt8.le_iff_toNat_le, UInt8.le_iff_toNat_le]
          rw [show (65 : UInt8).toNat = 65 from rfl, show (90 : UInt8).toNat = 90 from rfl]
          omega
      intro byte hbyte
      rcases mem_append.mp hbyte with hold | hnew
      · exact hhex byte (commit.oldTree.hexadecimal byte hold)
      · rcases mem_cons.mp hnew with rfl | hnew
        · exact ⟨by decide, by decide⟩
        · exact hhex byte (commit.newTree.hexadecimal byte hnew)
    exact ⟨fun hmem => (hbyte 10 hmem).1 rfl, fun byte hmem => (hbyte byte hmem).2⟩

variable {changes : TreeChanges}

lemma streamBytes_head (commits : List NativeCommit) :
    ∀ byte ∈ (streamBytes changes commits).head?, isAsciiUppercase byte = false := by
  intro byte hbyte
  cases commits with
  | nil => cases hbyte
  | cons commit commits =>
    obtain ⟨line, hheader, _, hline⟩ := commit.header_eq
    unfold streamBytes commitBytes at hbyte
    rw [flatMap_cons, hheader] at hbyte
    cases line with
    | nil =>
      obtain rfl : 10 = byte := by simpa using hbyte
      decide
    | cons first line =>
      obtain rfl : first = byte := by simpa using hbyte
      exact hline first mem_cons_self

variable {commits : List NativeCommit}

/-- **An event that is read without a mark has all changes of its commit.** -/
lemma readEvent_bytes {commit : NativeCommit} {event : Option CommitEvent}
    (hrest : state.rest = streamBytes changes (commit :: commits))
    (h : readEvent pathFromGit source limits commit state = .ok (next, event))
    (hunmarked : next.stats.isPartial = false) :
    event = some (nativeEvent pathFromGit changes commit) ∧
      next.rest = streamBytes changes commits := by
  obtain ⟨line, hheader, hline, _⟩ := commit.header_eq
  have hbytes : state.rest = line ++ 10 ::
      ((changes commit.oldTree commit.newTree).flatMap NativeChange.bytes ++
        streamBytes changes commits) := by
    rw [hrest]
    simp [streamBytes, commitBytes, hheader]
  unfold readEvent at h
  rw [hbytes, readUntilBudget_append hline] at h
  by_cases hlength : line.length < limits.maxOutputBytes - state.stats.outputBytes
  · rw [if_pos hlength] at h
    dsimp only at h
    rw [if_neg (by simp [hheader])] at h
    split at h
    · cases h
    · rename_i afterDeltas deltas hdeltas
      cases h
      obtain ⟨rfl, hafter⟩ := readDeltas_bytes rfl (streamBytes_head commits) hdeltas hunmarked
      exact ⟨rfl, hafter⟩
  · -- The budget ends inside the header.
    exfalso
    rw [if_neg hlength] at h
    dsimp only at h
    have hshort : line.take (limits.maxOutputBytes - state.stats.outputBytes) ≠ commit.header := by
      intro hsame
      have hlengths := congrArg List.length hsame
      rw [hheader, length_take, length_append, length_singleton] at hlengths
      omega
    split_ifs at h
    cases h
    cases hunmarked

variable {events : List CommitEvent}

/-- **A stream that is read without a mark gives the events of all its commits.** -/
lemma parseCommits_bytes (hrest : state.rest = streamBytes changes commits)
    (h : parseCommits pathFromGit source limits commits state = .ok (next, events))
    (hunmarked : next.stats.isPartial = false) :
    events = commits.map (nativeEvent pathFromGit changes) := by
  induction commits generalizing state events with
  | nil =>
    cases h
    rfl
  | cons commit commits ih =>
    have hticked : state.tick.rest = streamBytes changes (commit :: commits) := hrest
    unfold parseCommits stopBeforeCommit at h
    split_ifs at h
    · cases h
      cases hunmarked
    · dsimp only at h
      split at h
      · cases h
      · rename_i hevent
        cases h
        cases (readEvent_bytes hticked hevent hunmarked).1
      · rename_i afterEvent event hevent
        split_ifs at h with hmark
        · cases h
          rw [hmark] at hunmarked
          cases hunmarked
        · obtain ⟨hsome, hafter⟩ := readEvent_bytes hticked hevent (by simpa using hmark)
          cases hsome
          split at h
          · cases h
          · rename_i afterCommits others hothers
            cases h
            rw [ih hafter hothers]
            rfl

end

/-! ## The process -/

/-- A process that ends with success, in time, has printed all changes of its commits. -/
def GitProcess.Prints (changes : TreeChanges) (commits : List NativeCommit)
    (process : GitProcess) : Prop :=
  process.timedOut = false → process.exitSuccess = some true →
    process.output = streamBytes changes commits

variable {stats : NativeStreamStats}

lemma GitProcess.finish_ok {process : GitProcess} {finished : NativeStreamStats}
    {out : List (String × CommitEvent)} (h : process.finish events stats = .ok (out, finished))
    (hunmarked : finished.isPartial = false) :
    out = KeyedList.indexBy CommitEvent.oid events ∧ stats.isPartial = false ∧
      process.timedOut = false ∧ process.exitSuccess = some true := by
  unfold finish at h
  dsimp only at h
  split at h
  · cases h
  · rename_i success hexit
    split at h
    · cases h
    · split_ifs at h with hfailed
      cases h
      obtain ⟨hstats, htimedOut⟩ := Bool.or_eq_false_iff.mp hunmarked
      have hsuccess : success = true := by
        rw [hstats, htimedOut] at hfailed
        simpa using hfailed
      exact ⟨rfl, hstats, htimedOut, by rw [hexit, hsuccess]⟩

lemma parseStream_bytes {pathFromGit : List UInt8 → PathBuf} {source : StreamSource}
    {limits : ChurnLimits} {changes : TreeChanges} {commits : List NativeCommit}
    (h : parseStream pathFromGit source limits (streamBytes changes commits) commits =
      .ok (events, stats))
    (hunmarked : stats.isPartial = false) :
    events = commits.map (nativeEvent pathFromGit changes) := by
  unfold parseStream at h
  split at h
  · cases h
  · rename_i final parsed hparse
    have hmark : final.stats = stats ∧ parsed = events := by
      by_cases hfinal : final.stats.isPartial = true
      · rw [if_pos hfinal] at h
        cases h
        exact ⟨rfl, rfl⟩
      · rw [if_neg hfinal] at h
        split at h
        · split_ifs at h
          cases h
          exact ⟨rfl, rfl⟩
        · cases h
    obtain ⟨rfl, rfl⟩ := hmark
    exact parseCommits_bytes rfl hparse hunmarked

/-- **Events that are collected without a mark are those of all the commits.** -/
lemma collectEvents_complete {pathFromGit : List UInt8 → PathBuf} {changes : TreeChanges}
    {start : List NativeCommit → Option GitProcess} {limits : ChurnLimits}
    {commits : List NativeCommit} {events : List (String × CommitEvent)}
    (hprints : ∀ process ∈ start commits, process.Prints changes commits)
    (h : collectEvents pathFromGit start limits commits = .ok (events, stats))
    (hunmarked : stats.isPartial = false) :
    events = KeyedList.indexBy CommitEvent.oid (commits.map (nativeEvent pathFromGit changes)) := by
  unfold collectEvents at h
  split at h
  · rename_i hempty
    cases h
    rw [List.isEmpty_iff.mp hempty]
    rfl
  · split at h
    · cases h
    · rename_i process hstart
      split at h
      · rename_i parsed parsedStats hparse
        obtain ⟨rfl, hstats, htimedOut, hexit⟩ := GitProcess.finish_ok h hunmarked
        rw [hprints process hstart htimedOut hexit] at hparse
        rw [parseStream_bytes hparse hstats]
      · rename_i message hparse
        split_ifs at h with htimedOut
        rw [(GitProcess.finish_ok h hunmarked).2.2.1] at htimedOut
        cases htimedOut

end Reposcout.Git
