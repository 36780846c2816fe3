import Reposcout.Properties.FsBudget
import Reposcout.Properties.Walk.Discovery
import Reposcout.Review.Snapshot

/-!
# When a source snapshot is quiet

A snapshot is quiet if none of its counters says that something was left out.  For each loader the
limits under which it stays quiet are stated on the repository, and what is then among the sources.
-/

namespace Reposcout.Review

open Walk List Option Deadline

/-- No counter says that something was left out. -/
structure SourceSnapshot.Quiet (snapshot : SourceSnapshot) : Prop where
  unreadableFiles : snapshot.unreadableFiles = 0
  oversizedFiles : snapshot.oversizedFiles = 0
  oversizedBytes : snapshot.oversizedBytes = 0
  filesOmittedByLimit : snapshot.filesOmittedByLimit = 0
  filesOmittedCountIncomplete : snapshot.filesOmittedCountIncomplete = false
  scanTruncated : snapshot.scanTruncated = false
  durationLimitReached : snapshot.durationLimitReached = false

namespace SourceSnapshot

variable {snapshot : SourceSnapshot} {path : PathBuf} {content : String} {n : ℕ}

lemma quiet_default : ({} : SourceSnapshot).Quiet := ⟨rfl, rfl, rfl, rfl, rfl, rfl, rfl⟩

/-- Whatever sets the truncation flag is not quiet. -/
lemma not_quiet_of_truncated (h : snapshot.scanTruncated = true) : ¬ snapshot.Quiet :=
  fun hquiet => Bool.noConfusion (h.symm.trans hquiet.scanTruncated)

@[simp] lemma quiet_insert : (snapshot.insert path content).Quiet ↔ snapshot.Quiet :=
  ⟨fun ⟨h₁, h₂, h₃, h₄, h₅, h₆, h₇⟩ => ⟨h₁, h₂, h₃, h₄, h₅, h₆, h₇⟩,
    fun ⟨h₁, h₂, h₃, h₄, h₅, h₆, h₇⟩ => ⟨h₁, h₂, h₃, h₄, h₅, h₆, h₇⟩⟩

@[simp] lemma not_quiet_unreadable : ¬ snapshot.unreadable.Quiet :=
  fun h => Nat.succ_ne_zero _ h.unreadableFiles

@[simp] lemma not_quiet_oversized : ¬ (snapshot.oversized n).Quiet :=
  not_quiet_of_truncated rfl

@[simp] lemma not_quiet_omitted : ¬ (snapshot.omitted n).Quiet :=
  not_quiet_of_truncated rfl

@[simp] lemma not_quiet_outOfTime : ¬ (snapshot.outOfTime n).Quiet :=
  not_quiet_of_truncated rfl

@[simp] lemma not_quiet_abandoned : ¬ snapshot.abandoned.Quiet :=
  not_quiet_of_truncated rfl

@[simp] lemma not_quiet_tooManyFiles : ¬ snapshot.tooManyFiles.Quiet :=
  not_quiet_of_truncated rfl

def Has (snapshot : SourceSnapshot) (path : PathBuf) : Prop :=
  path ∈ KeyedList.keys snapshot.sources

lemma has_insert {other : PathBuf} :
    (snapshot.insert path content).Has other ↔ other = path ∨ snapshot.Has other := by
  simp only [Has, insert, KeyedList.mem_keys_alter]

end SourceSnapshot

/-! ## The working tree -/

section

variable {discovery : Discovery}

def AllRead (discovery : Discovery) (files : List WalkFile) : Prop :=
  ∀ file ∈ files, discovery.detect file.reportPath = true →
    ∃ content, readTextBoundedUnderRoot file discovery.limits.maxFileBytes = .content content

/-- **Reading the discovered files** stays quiet exactly when all are read in time. -/
lemma quiet_readFiles_iff (files : List WalkFile) (snapshot : SourceSnapshot)
    (deadline : Deadline) :
    (readFiles discovery files snapshot deadline).1.Quiet ↔
      snapshot.Quiet ∧ deadline.Covers files.length ∧ AllRead discovery files := by
  induction files generalizing snapshot deadline with
  | nil => simp [readFiles, AllRead]
  | cons file rest ih =>
    have hall : AllRead discovery (file :: rest) ↔
        (discovery.detect file.reportPath = true → ∃ content,
          readTextBoundedUnderRoot file discovery.limits.maxFileBytes = .content content) ∧
        AllRead discovery rest := forall_mem_cons
    rw [hall, length_cons, Nat.add_comm, covers_add, ← passed_eq_false,
      ← next_eq_after]
    cases hpassed : deadline.passed with
    | true => simp [readFiles, hpassed]
    | false =>
      cases hdetect : discovery.detect file.reportPath with
      | false => simp [readFiles, hpassed, hdetect, ih]
      | true =>
        cases hread : readTextBoundedUnderRoot file discovery.limits.maxFileBytes with
        | content text => simp [readFiles, hpassed, hdetect, hread, ih]
        | oversized bytes => simp [readFiles, hpassed, hdetect, hread, ih]
        | unreadable => simp [readFiles, hpassed, hdetect, hread, ih]

lemma deadline_readFiles (files : List WalkFile) (snapshot : SourceSnapshot)
    (deadline : Deadline) (h : deadline.Covers files.length) :
    (readFiles discovery files snapshot deadline).2 = deadline.after files.length := by
  induction files generalizing snapshot deadline with
  | nil => simp [readFiles]
  | cons file rest ih =>
    rw [length_cons, Nat.add_comm, covers_add, ← passed_eq_false,
      ← next_eq_after] at h
    have hrest : ∀ next, (readFiles discovery rest next deadline.next).2 =
        deadline.after (file :: rest).length := by
      intro next
      rw [ih next deadline.next h.2, next_eq_after, after_after,
        length_cons, Nat.add_comm]
    rw [readFiles, if_neg (by simp [h.1])]
    split
    · exact hrest _
    · split <;> exact hrest _

/-- A working tree of which no limit keeps a part out of the snapshot. -/
structure WorktreeWithinLimits (discovery : Discovery) (traversal : Traversal)
    (deadline : Deadline) : Prop where
  discovered : DiscoveryWithinLimits discovery traversal deadline
  inTime : (deadline.after (questions traversal.items + 1)).Covers
    (passedFiles discovery traversal.items).length
  read : AllRead discovery (passedFiles discovery traversal.items)

lemma quiet_fromDiscovered (traversal : Traversal) (deadline : Deadline) :
    (fromDiscovered (discover discovery traversal deadline).1).Quiet ↔
      DiscoveryWithinLimits discovery traversal deadline := by
  rw [← quiet_discover_iff]
  exact ⟨fun ⟨_, h₂, h₃, h₄, h₅, h₆, h₇⟩ => ⟨h₂, h₃, h₄, h₅, h₆, h₇⟩,
    fun ⟨h₂, h₃, h₄, h₅, h₆, h₇⟩ => ⟨rfl, h₂, h₃, h₄, h₅, h₆, h₇⟩⟩

lemma allRead_perm {files files' : List WalkFile} (h : files.Perm files') :
    AllRead discovery files ↔ AllRead discovery files' := by
  simp only [AllRead, h.mem_iff]

/-- **The snapshot of a working tree** is quiet exactly within the limits. -/
lemma quiet_worktree_iff (discovery : Discovery) (traversal : Traversal) (deadline : Deadline) :
    (worktree discovery traversal deadline).1.Quiet ↔
      WorktreeWithinLimits discovery traversal deadline := by
  simp only [worktree]
  rw [quiet_readFiles_iff, quiet_fromDiscovered]
  constructor
  · rintro ⟨hdiscovered, htime, hread⟩
    obtain ⟨hperm, hdeadline⟩ := discover_of_within hdiscovered
    rw [hdeadline, hperm.length_eq] at htime
    exact ⟨hdiscovered, htime, (allRead_perm hperm).mp hread⟩
  · rintro ⟨hdiscovered, htime, hread⟩
    obtain ⟨hperm, hdeadline⟩ := discover_of_within hdiscovered
    refine ⟨hdiscovered, ?_, (allRead_perm hperm).mpr hread⟩
    rwa [hdeadline, hperm.length_eq]

/-- The walker reports no error and every recognized file has readable metadata. -/
structure NoWalkErrors (discovery : Discovery) (traversal : Traversal) : Prop where
  noError : WalkItem.error ∉ traversal.items
  regular : ∀ file ∈ recognizedFiles discovery traversal.items, file.regular.isSome

end

/-! ## Objects of the repository -/

section

def Blob.text (blob : Blob) : Option String := blob.bytes.bind fromUtf8

def allowedBlobs (filter : SnapshotFilter) (entries : List (Option PathBuf × Blob)) :
    List (PathBuf × Blob) :=
  entries.filterMap fun entry =>
    (entry.1.filter fun path => filter.allows path).map fun path => (path, entry.2)

/-- Entries that no limit keeps out of a snapshot which has accepted so many bytes before. -/
structure BlobsWithinLimits (limits : Limits) (filter : SnapshotFilter)
    (entries : List (Option PathBuf × Blob)) (accepted : ℕ) : Prop where
  named : ∀ entry ∈ entries, entry.1.isSome
  text : ∀ entry ∈ allowedBlobs filter entries, entry.2.text.isSome
  blobBytes : ∀ entry ∈ allowedBlobs filter entries, entry.2.size ≤ limits.maxGitBlobBytes
  totalBytes : accepted + ((allowedBlobs filter entries).map fun entry => entry.2.size).sum ≤
    limits.maxTotalBytes

variable {limits : Limits} {filter : SnapshotFilter} {state : LoadState}

lemma allowedBlobs_cons (entry : Option PathBuf × Blob) (rest : List (Option PathBuf × Blob)) :
    allowedBlobs filter (entry :: rest) = allowedBlobs filter [entry] ++
      allowedBlobs filter rest := by
  simp [allowedBlobs, ← filterMap_append]

variable {rest : List (Option PathBuf × Blob)}

lemma blobsWithinLimits_cons {entry : Option PathBuf × Blob} {accepted : ℕ} :
    BlobsWithinLimits limits filter (entry :: rest) accepted ↔
      BlobsWithinLimits limits filter [entry] accepted ∧ BlobsWithinLimits limits filter rest
          (accepted + ((allowedBlobs filter [entry]).map fun entry => entry.2.size).sum) := by
  constructor
  · rintro ⟨hnamed, htext, hblob, htotal⟩
    rw [allowedBlobs_cons] at htext hblob htotal
    rw [map_append, sum_append] at htotal
    refine ⟨⟨fun e h => hnamed e ?_, fun e h => htext e (mem_append_left _ h),
      fun e h => hblob e (mem_append_left _ h), by omega⟩,
      fun e h => hnamed e (mem_cons_of_mem _ h),
      fun e h => htext e (mem_append_right _ h),
      fun e h => hblob e (mem_append_right _ h), by omega⟩
    rw [mem_singleton.mp h]
    exact mem_cons_self
  · rintro ⟨⟨hnamed, htext, hblob, _⟩, hnamed', htext', hblob', htotal'⟩
    refine ⟨?_, ?_, ?_, ?_⟩
    · intro e h
      rcases mem_cons.mp h with rfl | h
      · exact hnamed e mem_cons_self
      · exact hnamed' e h
    · intro e h
      rw [allowedBlobs_cons] at h
      exact (mem_append.mp h).elim (htext e) (htext' e)
    · intro e h
      rw [allowedBlobs_cons] at h
      exact (mem_append.mp h).elim (hblob e) (hblob' e)
    · rw [allowedBlobs_cons, map_append, sum_append]
      omega

variable {blob : Blob} {content : String}

lemma utf8ByteSize_text (h : blob.text = some content) :
    content.utf8ByteSize = blob.size := by
  obtain ⟨bytes, hbytes, hutf8⟩ := bind_eq_some_iff.mp h
  rw [utf8ByteSize_fromUtf8 hutf8, blob.length_bytes bytes hbytes]

lemma loadBlobText_of_text {maxBytes : ℕ} (htext : blob.text = some content)
    (hsize : blob.size ≤ maxBytes) : loadBlobText blob maxBytes = .ok (some content) := by
  obtain ⟨bytes, hbytes, hutf8⟩ := bind_eq_some_iff.mp htext
  have hhint : (blob.sizeHint.any fun size => size > maxBytes) = false := by
    rw [Blob.sizeHint]
    split <;> simp [hsize]
  have hlength : ¬ bytes.length > maxBytes := by
    rw [blob.length_bytes bytes hbytes]
    exact Nat.not_lt.mpr hsize
  simp [loadBlobText, hhint, hbytes, hlength, hutf8]

lemma loadBlobText_eq_some {maxBytes : ℕ} (h : loadBlobText blob maxBytes = .ok (some content)) :
    blob.text = some content ∧ blob.size ≤ maxBytes := by
  unfold loadBlobText at h
  split at h
  · cases h
  · cases hbytes : blob.bytes with
    | none =>
      rw [hbytes] at h
      cases h
    | some bytes =>
      rw [hbytes] at h
      dsimp only at h
      split at h
      · cases h
      · next hlength =>
        split at h
        · next content' hutf8 =>
          obtain rfl : content' = content := by simpa using h
          refine ⟨by simp [Blob.text, hbytes, hutf8], ?_⟩
          rw [← blob.length_bytes bytes hbytes]
          exact Nat.le_of_not_lt hlength
        · cases h

/-- A blob that a snapshot can take after so many accepted bytes. -/
structure Blob.Fits (limits : Limits) (blob : Blob) (accepted : ℕ) : Prop where
  text : blob.text.isSome
  blobBytes : blob.size ≤ limits.maxGitBlobBytes
  totalBytes : accepted + blob.size ≤ limits.maxTotalBytes

/-- What is left out is counted. -/
structure Counted (state next : LoadState) : Prop where
  not_quiet : ¬ next.snapshot.Quiet
  observedFiles : next.observedFiles = state.observedFiles
  acceptedBytes : next.acceptedBytes = state.acceptedBytes

lemma counted_record {f : SourceSnapshot → SourceSnapshot} (h : ∀ s, ¬ (f s).Quiet) :
    Counted state (state.record f) :=
  ⟨h _, rfl, rfl⟩

open SourceSnapshot

lemma acceptText_cases (limits : Limits) (path : PathBuf) (blob : Blob) (state : LoadState) :
    (∃ content, blob.text = some content ∧ blob.Fits limits state.acceptedBytes ∧
        acceptText limits path blob state = state.accept path content) ∨
      (¬ blob.Fits limits state.acceptedBytes ∧
        Counted state (acceptText limits path blob state)) := by
  by_cases hfits : blob.Fits limits state.acceptedBytes
  · obtain ⟨content, htext⟩ := isSome_iff_exists.mp hfits.text
    have hmore : ¬ state.acceptedBytes + content.utf8ByteSize > limits.maxTotalBytes := by
      rw [utf8ByteSize_text htext]
      exact Nat.not_lt.mpr hfits.totalBytes
    refine .inl ⟨content, htext, hfits, ?_⟩
    simp only [acceptText, loadBlobText_of_text htext hfits.blobBytes, if_neg hmore]
  · refine .inr ⟨hfits, ?_⟩
    unfold acceptText
    split
    · next content hload =>
      obtain ⟨htext, hsize⟩ := loadBlobText_eq_some hload
      have hmore : state.acceptedBytes + content.utf8ByteSize > limits.maxTotalBytes := by
        rw [utf8ByteSize_text htext]
        by_contra hmore
        exact hfits ⟨by simp [htext], hsize, Nat.le_of_not_lt hmore⟩
      rw [if_pos hmore]
      exact counted_record fun s => not_quiet_omitted
    · exact counted_record fun s => not_quiet_oversized
    · exact counted_record fun s => not_quiet_unreadable

/-- The size hint decides as the text would. -/
lemma loadEntry_cases (limits : Limits) (path : PathBuf) (blob : Blob) (state : LoadState) :
    (∃ content, blob.text = some content ∧ blob.Fits limits state.acceptedBytes ∧
        loadEntry limits path blob state = state.accept path content) ∨
      (¬ blob.Fits limits state.acceptedBytes ∧
        Counted state (loadEntry limits path blob state)) := by
  unfold loadEntry
  split
  · exact acceptText_cases limits path blob state
  · next size hhint =>
    obtain rfl : blob.size = size := by
      unfold Blob.sizeHint at hhint
      split at hhint
      · exact some.inj hhint
      · cases hhint
    split
    · next hlarge =>
      exact .inr ⟨fun hfits => Nat.not_lt.mpr hfits.blobBytes hlarge,
        counted_record fun s => not_quiet_oversized⟩
    · split
      · next hmore =>
        exact .inr ⟨fun hfits => Nat.not_lt.mpr hfits.totalBytes hmore,
          counted_record fun s => not_quiet_omitted⟩
      · exact acceptText_cases limits path blob state

/-- A snapshot after the allowed ones among some entries, with nothing left out. -/
structure Loaded (filter : SnapshotFilter) (entries : List (Option PathBuf × Blob))
    (state next : LoadState) : Prop where
  quiet : next.snapshot.Quiet ↔ state.snapshot.Quiet
  observedFiles : next.observedFiles = state.observedFiles
  acceptedBytes : next.acceptedBytes =
    state.acceptedBytes + ((allowedBlobs filter entries).map fun entry => entry.2.size).sum
  has : ∀ path, next.snapshot.Has path ↔
    state.snapshot.Has path ∨ ∃ entry ∈ allowedBlobs filter entries, entry.1 = path

open LoadState

lemma visitEntry_cases (limits : Limits) (filter : SnapshotFilter) (path : Option PathBuf)
    (blob : Blob) (state : LoadState) (haccepted : state.acceptedBytes ≤ limits.maxTotalBytes) :
    (BlobsWithinLimits limits filter [(path, blob)] state.acceptedBytes ∧
        Loaded filter [(path, blob)] state (visitEntry limits filter path blob state)) ∨
      (¬ BlobsWithinLimits limits filter [(path, blob)] state.acceptedBytes ∧
        Counted state (visitEntry limits filter path blob state)) := by
  cases path with
  | none =>
    refine .inr ⟨fun h => ?_, counted_record fun s => not_quiet_unreadable⟩
    simpa using h.named (none, blob) (mem_singleton_self _)
  | some path =>
    cases hallows : filter.allows path with
    | false =>
      have hallowed : allowedBlobs filter [(some path, blob)] = [] := by
        simp [allowedBlobs, hallows]
      have hnext : visitEntry limits filter (some path) blob state = state := by
        simp [visitEntry, hallows]
      refine .inl ⟨⟨by simp, by simp [hallowed], by simp [hallowed], by simpa [hallowed]⟩, ?_⟩
      rw [hnext]
      exact ⟨Iff.rfl, rfl, by simp [hallowed], by simp [hallowed]⟩
    | true =>
      have hallowed : allowedBlobs filter [(some path, blob)] = [(path, blob)] := by
        simp [allowedBlobs, hallows]
      have hnext : visitEntry limits filter (some path) blob state =
          loadEntry limits path blob state := by
        simp [visitEntry, hallows]
      have hfits : BlobsWithinLimits limits filter [(some path, blob)] state.acceptedBytes ↔
          blob.Fits limits state.acceptedBytes := by
        constructor
        · rintro ⟨_, htext, hblob, htotal⟩
          rw [hallowed] at htext hblob htotal
          exact ⟨htext (path, blob) (mem_singleton_self _),
            hblob (path, blob) (mem_singleton_self _), by simpa using htotal⟩
        · rintro ⟨htext, hblob, htotal⟩
          exact ⟨by simp, by simpa [hallowed], by simpa [hallowed], by simpa [hallowed]⟩
      rw [hfits, hnext]
      rcases loadEntry_cases limits path blob state with
        ⟨content, htext, hfits', hload⟩ | h
      · refine .inl ⟨hfits', ?_⟩
        rw [hload]
        refine ⟨quiet_insert, rfl, ?_, fun other => ?_⟩
        · simp [accept, record, hallowed, utf8ByteSize_text htext]
        · simp only [accept, record, has_insert, hallowed,
            mem_singleton, exists_eq_left]
          rw [or_comm, eq_comm]
      · exact .inr h

/-- Entries of which no limit keeps a part out of a snapshot that has observed so many files and
accepted so many bytes before. -/
structure ObjectsWithinLimits (limits : Limits) (filter : SnapshotFilter)
    (entries : List (Option PathBuf × Blob)) (observed accepted : ℕ) : Prop where
  fileCount : observed + entries.length ≤ limits.maxFiles
  blobs : BlobsWithinLimits limits filter entries accepted

lemma objectsWithinLimits_nil {observed accepted : ℕ} :
    ObjectsWithinLimits limits filter [] observed accepted ↔
      observed ≤ limits.maxFiles ∧ accepted ≤ limits.maxTotalBytes := by
  constructor
  · rintro ⟨hcount, hblobs⟩
    exact ⟨by simpa using hcount, by simpa [allowedBlobs] using hblobs.totalBytes⟩
  · rintro ⟨hcount, htotal⟩
    exact ⟨by simpa, by simp, by simp [allowedBlobs], by simp [allowedBlobs],
      by simpa [allowedBlobs]⟩

variable {path : Option PathBuf}

/-- Nothing that was loaded goes beyond the aggregate limit. -/
lemma Loaded.acceptedBytes_le {next : LoadState} (h : Loaded filter [(path, blob)] state next)
    (hlimits : BlobsWithinLimits limits filter [(path, blob)] state.acceptedBytes) :
    next.acceptedBytes ≤ limits.maxTotalBytes := by
  rw [h.acceptedBytes]
  exact hlimits.totalBytes

lemma objectsWithinLimits_cons (rest : List (Option PathBuf × Blob))
    {next : LoadState} (observed : ℕ) (h : Loaded filter [(path, blob)] state next)
    (hlimits : BlobsWithinLimits limits filter [(path, blob)] state.acceptedBytes) :
    ObjectsWithinLimits limits filter ((path, blob) :: rest) observed state.acceptedBytes ↔
      ObjectsWithinLimits limits filter rest (observed + 1) next.acceptedBytes := by
  rw [h.acceptedBytes]
  constructor
  · rintro ⟨hcount, hblobs⟩
    rw [length_cons] at hcount
    exact ⟨by omega, (blobsWithinLimits_cons.mp hblobs).2⟩
  · rintro ⟨hcount, hblobs⟩
    refine ⟨?_, blobsWithinLimits_cons.mpr ⟨hlimits, hblobs⟩⟩
    rw [length_cons]
    omega

lemma quiet_visit {InTime : Prop} {RestQuiet : LoadState → Prop}
    (hcount : ¬ state.observe.observedFiles > limits.maxFiles)
    (haccepted : state.acceptedBytes ≤ limits.maxTotalBytes)
    (ih : ∀ next : LoadState, next.observedFiles ≤ limits.maxFiles →
      next.acceptedBytes ≤ limits.maxTotalBytes →
      (RestQuiet next ↔ next.snapshot.Quiet ∧ InTime ∧
        ObjectsWithinLimits limits filter rest next.observedFiles next.acceptedBytes)) :
    RestQuiet (visitEntry limits filter path blob state.observe) ↔ state.snapshot.Quiet ∧ InTime ∧
        ObjectsWithinLimits limits filter ((path, blob) :: rest) state.observedFiles
          state.acceptedBytes := by
  rcases visitEntry_cases limits filter path blob state.observe haccepted with
    ⟨hlimits, hloaded⟩ | ⟨hnot, hcounted⟩
  · have hobserved : (visitEntry limits filter path blob state.observe).observedFiles ≤
        limits.maxFiles := by
      rw [hloaded.observedFiles]
      exact Nat.le_of_not_lt hcount
    have hcons := objectsWithinLimits_cons rest state.observedFiles hloaded hlimits
    rw [ih _ hobserved (hloaded.acceptedBytes_le hlimits), hloaded.quiet, hloaded.observedFiles]
    simp only [observe] at hcons ⊢
    rw [hcons]
  · have hobserved : (visitEntry limits filter path blob state.observe).observedFiles ≤
        limits.maxFiles := by
      rw [hcounted.observedFiles]
      exact Nat.le_of_not_lt hcount
    have haccepted' : (visitEntry limits filter path blob state.observe).acceptedBytes ≤
        limits.maxTotalBytes := by
      rw [hcounted.acceptedBytes]
      exact haccepted
    rw [ih _ hobserved haccepted']
    refine iff_of_false (fun h => hcounted.not_quiet h.1) ?_
    rintro ⟨_, _, hlimits⟩
    exact hnot (blobsWithinLimits_cons.mp hlimits.blobs).1

lemma has_visit
    (hlimits : ObjectsWithinLimits limits filter ((path, blob) :: rest) state.observedFiles
      state.acceptedBytes) :
    ¬ state.observe.observedFiles > limits.maxFiles ∧ ObjectsWithinLimits limits filter rest
        (visitEntry limits filter path blob state.observe).observedFiles
        (visitEntry limits filter path blob state.observe).acceptedBytes ∧
      ∀ other, (visitEntry limits filter path blob state.observe).snapshot.Has other ↔
        state.snapshot.Has other ∨
          ∃ entry ∈ allowedBlobs filter [(path, blob)], entry.1 = other := by
  have hfirst := (blobsWithinLimits_cons.mp hlimits.blobs).1
  have haccepted : state.acceptedBytes ≤ limits.maxTotalBytes := by
    have htotal := hfirst.totalBytes
    omega
  refine ⟨?_, ?_⟩
  · have hfiles := hlimits.fileCount
    simp only [observe, length_cons] at hfiles ⊢
    omega
  · rcases visitEntry_cases limits filter path blob state.observe haccepted with
      ⟨_, hloaded⟩ | ⟨hnot, _⟩
    · have hcons := objectsWithinLimits_cons rest state.observedFiles hloaded hfirst
      refine ⟨?_, hloaded.has⟩
      rw [hloaded.observedFiles]
      exact hcons.mp hlimits
    · exact absurd hfirst hnot

/-! ### The index -/

def IndexEntry.object (entry : IndexEntry) : Option PathBuf × Blob := (entry.path, entry.blob)

open Deadline

/-- **The walk of the index** stays quiet exactly in time and within the limits. -/
lemma quiet_walkIndex_iff (entries : List IndexEntry) (state : LoadState) (deadline : Deadline)
    (hobserved : state.observedFiles ≤ limits.maxFiles)
    (haccepted : state.acceptedBytes ≤ limits.maxTotalBytes) :
    (walkIndex limits filter entries state deadline).1.snapshot.Quiet ↔
      state.snapshot.Quiet ∧ deadline.Covers entries.length ∧
        ObjectsWithinLimits limits filter (entries.map IndexEntry.object) state.observedFiles
          state.acceptedBytes := by
  induction entries generalizing state deadline with
  | nil => simp [walkIndex, objectsWithinLimits_nil, hobserved, haccepted]
  | cons entry rest ih =>
    rw [length_cons, Nat.add_comm, covers_add, ← passed_eq_false,
      ← next_eq_after, walkIndex]
    by_cases hpassed : deadline.passed = true
    · rw [if_pos hpassed]
      simp [record, hpassed]
    rw [if_neg hpassed]
    by_cases hcount : state.observe.observedFiles > limits.maxFiles
    · simp only [if_pos hcount, record, not_quiet_omitted, false_iff]
      rintro ⟨_, _, hlimits, _⟩
      simp only [observe, map_cons, length_cons] at hcount hlimits
      omega
    simp only [if_neg hcount, hpassed, true_and]
    exact quiet_visit hcount haccepted fun next hfiles hbytes =>
      ih next deadline.next hfiles hbytes

lemma deadline_walkIndex (entries : List IndexEntry) (state : LoadState) (deadline : Deadline)
    (htime : deadline.Covers entries.length)
    (hlimits : ObjectsWithinLimits limits filter (entries.map IndexEntry.object)
      state.observedFiles state.acceptedBytes) :
    (walkIndex limits filter entries state deadline).2 = deadline.after entries.length := by
  induction entries generalizing state deadline with
  | nil => simp [walkIndex]
  | cons entry rest ih =>
    rw [length_cons, Nat.add_comm, covers_add, ← passed_eq_false,
      ← next_eq_after] at htime
    obtain ⟨hcount, hrest, _⟩ := has_visit hlimits
    rw [walkIndex, if_neg (by simp [htime.1])]
    simp only [if_neg hcount]
    rw [ih _ _ htime.2 hrest, next_eq_after, after_after, length_cons,
      Nat.add_comm]

/-! ### Committed trees -/

def treeObjects (entries : List TreeEntry) : List (Option PathBuf × Blob) :=
  (entries.filter TreeEntry.isBlob).map fun entry => (entry.path, entry.blob)

/-- **The walk of a tree** stays quiet exactly in time and within the limits. -/
lemma quiet_walkTree_iff (entries : List TreeEntry) (state : LoadState) (deadline : Deadline)
    (hobserved : state.observedFiles ≤ limits.maxFiles)
    (haccepted : state.acceptedBytes ≤ limits.maxTotalBytes) :
    (walkTree limits filter entries state deadline).1.1.snapshot.Quiet ↔
      state.snapshot.Quiet ∧ deadline.Covers entries.length ∧
        ObjectsWithinLimits limits filter (treeObjects entries) state.observedFiles
          state.acceptedBytes := by
  induction entries generalizing state deadline with
  | nil => simp [walkTree, treeObjects, objectsWithinLimits_nil, hobserved, haccepted]
  | cons entry rest ih =>
    rw [length_cons, Nat.add_comm, covers_add, ← passed_eq_false,
      ← next_eq_after, walkTree]
    by_cases hpassed : deadline.passed = true
    · rw [if_pos hpassed]
      simp [record, hpassed]
    rw [if_neg hpassed]
    cases hblob : entry.isBlob with
    | false =>
      have hrest : treeObjects (entry :: rest) = treeObjects rest := by
        simp [treeObjects, hblob]
      simp [ih state deadline.next hobserved haccepted, hpassed, hrest]
    | true =>
      have hrest : treeObjects (entry :: rest) = (entry.path, entry.blob) :: treeObjects rest := by
        simp [treeObjects, hblob]
      rw [if_neg (by simp)]
      by_cases hcount : state.observe.observedFiles > limits.maxFiles
      · simp only [if_pos hcount, record, not_quiet_tooManyFiles,
          false_iff]
        rintro ⟨_, _, hlimits, _⟩
        simp only [observe, hrest, length_cons] at hcount hlimits
        omega
      simp only [if_neg hcount, hpassed, true_and, hrest]
      exact quiet_visit hcount haccepted fun next hfiles hbytes =>
        ih next deadline.next hfiles hbytes

end

/-! ## The snapshots of a review -/

lemma quiet_recordErrors (filter : SnapshotFilter) (snapshot : SourceSnapshot) :
    (filter.recordErrors snapshot).Quiet ↔ snapshot.Quiet ∧ filter.rejected = 0 := by
  constructor
  · rintro ⟨h₁, h₂, h₃, h₄, h₅, h₆, h₇⟩
    obtain ⟨hunreadable, hrejected⟩ := Nat.add_eq_zero_iff.mp h₁
    exact ⟨⟨hunreadable, h₂, h₃, h₄, h₅, (Bool.or_eq_false_iff.mp h₆).1, h₇⟩, hrejected⟩
  · rintro ⟨⟨h₁, h₂, h₃, h₄, h₅, h₆, h₇⟩, hrejected⟩
    exact ⟨by simp [SnapshotFilter.recordErrors, h₁, hrejected], h₂, h₃, h₄, h₅,
      by simp [SnapshotFilter.recordErrors, h₆, hrejected], h₇⟩

/-- An index of which no limit keeps a part out of the snapshot. -/
structure IndexWithinLimits (limits : Limits) (source : IndexSource) (deadline : Deadline) :
    Prop where
  inTime : deadline.Covers source.entries.length
  objects : ObjectsWithinLimits limits source.filter (source.entries.map IndexEntry.object) 0 0
  rejected : source.filter.rejected = 0

/-- **The snapshot of an index** is quiet exactly within the limits. -/
lemma quiet_fromIndex_iff (limits : Limits) (source : IndexSource) (deadline : Deadline) :
    (fromIndex limits source deadline).1.Quiet ↔ IndexWithinLimits limits source deadline := by
  simp only [fromIndex]
  rw [quiet_recordErrors, quiet_walkIndex_iff _ _ _ (Nat.zero_le _) (Nat.zero_le _)]
  constructor
  · rintro ⟨⟨_, htime, hobjects⟩, hrejected⟩
    exact ⟨htime, hobjects, hrejected⟩
  · rintro ⟨htime, hobjects, hrejected⟩
    exact ⟨⟨SourceSnapshot.quiet_default, htime, hobjects⟩, hrejected⟩

/-- A tree of which no limit keeps a part out of the snapshot. -/
structure TreeWithinLimits (limits : Limits) (source : TreeSource) (deadline : Deadline) :
    Prop where
  inTime : deadline.Covers source.entries.length
  objects : ObjectsWithinLimits limits source.filter (treeObjects source.entries) 0 0
  rejected : source.filter.rejected = 0

/-- **The snapshot of a tree** is quiet exactly within the limits. -/
lemma quiet_fromTree_iff {limits : Limits} {source : TreeSource} {deadline : Deadline}
    {result : SourceSnapshot × Deadline} (h : fromTree limits source deadline = some result) :
    result.1.Quiet ↔ TreeWithinLimits limits source deadline := by
  simp only [fromTree] at h
  split at h
  · cases h
  · cases h
    rw [quiet_recordErrors, quiet_walkTree_iff _ _ _ (Nat.zero_le _) (Nat.zero_le _)]
    constructor
    · rintro ⟨⟨_, htime, hobjects⟩, hrejected⟩
      exact ⟨htime, hobjects, hrejected⟩
    · rintro ⟨htime, hobjects, hrejected⟩
      exact ⟨⟨SourceSnapshot.quiet_default, htime, hobjects⟩, hrejected⟩

end Reposcout.Review
