import Reposcout.Framework.ShellWords
import Reposcout.Properties.Review.Neighborhood
import Reposcout.Report.ReviewContext.Brief.Evidence

/-!
# Printed commands

A shell reads a printed word as the word it was made from, whatever characters it has, and a
printed fetch command as the words of a `git diff` on the paths of the changes.
-/

namespace Reposcout.Report.ReviewContext

open ShellWords List Option

/-! ## Texts without control characters -/

variable {c : Char}

lemma terminalChar_eq (h : isControl c = false) : terminalChar c = [c] := by
  have hne : ∀ d : Char, isControl d = true → c ≠ d := by
    rintro d hd rfl
    rw [h] at hd
    exact Bool.noConfusion hd
  rw [terminalChar, if_neg (hne _ (by decide)), if_neg (hne _ (by decide)),
    if_neg (hne _ (by decide)), if_neg (hne _ (by decide)), if_neg (hne _ (by decide)),
    if_neg (by rw [h]; exact Bool.false_ne_true)]

variable {text : List Char}

lemma terminalText_eq (h : ∀ c ∈ text, isControl c = false) :
    terminalText text = text := by
  induction text with
  | nil => rfl
  | cons c rest ih =>
    rw [terminalText, flatMap_cons, terminalChar_eq (h c mem_cons_self), singleton_append]
    exact congrArg (c :: ·) (ih fun d hd => h d (mem_cons_of_mem c hd))

lemma isControl_of_all (h : (text.all fun c => !isControl c) = true) :
    ∀ c ∈ text, isControl c = false := by
  intro c hc
  have hcontrol := all_eq_true.mp h c hc
  rwa [Bool.not_eq_true'] at hcontrol

lemma isControl_hexChar : ∀ digit < 16, isControl (Encoding.hexChar digit) = false := by decide

lemma isControl_hexDigits (width n : ℕ) :
    ∀ c ∈ Encoding.hexDigits width n, isControl c = false := by
  induction width generalizing n with
  | zero => exact nofun
  | succ width ih =>
    intro c hc
    rcases mem_append.mp hc with hc | hc
    · exact ih (n / 16) c hc
    · rw [mem_singleton.mp hc]
      exact isControl_hexChar _ (Nat.mod_lt n (by decide))

lemma isControl_ansiChar (c : Char) : ∀ d ∈ ansiChar c, isControl d = false := by
  intro d hd
  unfold ansiChar at hd
  split_ifs at hd with h1 h2 h3 h4 h5
  · exact isControl_of_all (by decide) d hd
  · exact isControl_of_all (by decide) d hd
  · exact isControl_of_all (by decide) d hd
  · rcases h4 with rfl | rfl
    · exact isControl_of_all (by decide) d hd
    · exact isControl_of_all (by decide) d hd
  · rcases mem_append.mp hd with hd | hd
    · exact isControl_of_all (by decide) d hd
    · exact isControl_hexDigits 8 c.toNat d hd
  · rw [mem_singleton.mp hd]
    exact Bool.eq_false_iff.mpr h5

lemma isControl_replaceQuotes {word : List Char} (h : ∀ c ∈ word, isControl c = false) :
    ∀ c ∈ replaceQuotes word, isControl c = false := by
  intro c hc
  obtain ⟨d, hd, hc⟩ := mem_flatMap.mp hc
  split_ifs at hc
  · exact isControl_of_all (by decide) c hc
  · rw [mem_singleton.mp hc]
    exact h d hd

/-- What `shell` makes of a word, by the characters of the word. -/
lemma shell_cases (word : List Char) :
    shell word = ['$', '\''] ++ word.flatMap ansiChar ++ ['\''] ∨
      (∀ c ∈ word, isControl c = false) ∧
        (shell word = word ∧ word ≠ [] ∧ (∀ c ∈ word, isWordChar c = true) ∨
          shell word = ['\''] ++ replaceQuotes word ++ ['\'']) := by
  rw [shell]
  by_cases hcontrol : word.any isControl = true
  · rw [if_pos hcontrol]
    exact .inl rfl
  · have hfree : ∀ c ∈ word, isControl c = false := by
      intro c hc
      rw [Bool.eq_false_iff]
      exact fun htrue => hcontrol (List.any_eq_true.mpr ⟨c, hc, htrue⟩)
    refine .inr ⟨hfree, ?_⟩
    split_ifs with hbare
    · rw [Bool.and_eq_true, List.all_eq_true] at hbare
      exact .inl ⟨terminalText_eq hfree, by simpa using hbare.1, hbare.2⟩
    · refine .inr (terminalText_eq ?_)
      intro c hc
      rcases mem_append.mp hc with hc | hc
      · rcases mem_append.mp hc with hc | hc
        · rw [mem_singleton.mp hc]
          decide
        · exact isControl_replaceQuotes hfree c hc
      · rw [mem_singleton.mp hc]
        decide

lemma isControl_shell (word : List Char) : ∀ c ∈ shell word, isControl c = false := by
  intro c hc
  rcases shell_cases word with h | ⟨hfree, ⟨h, -⟩ | h⟩
  · rw [h] at hc
    simp only [mem_append, mem_cons, not_mem_nil, or_false, mem_flatMap] at hc
    rcases hc with ((rfl | rfl) | ⟨d, -, hc⟩) | rfl
    · decide
    · decide
    · exact isControl_ansiChar d c hc
    · decide
  · rw [h] at hc
    exact hfree c hc
  · rw [h] at hc
    simp only [mem_append, mem_singleton] at hc
    rcases hc with (rfl | hc) | rfl
    · decide
    · exact isControl_replaceQuotes hfree c hc
    · decide

/-! ## Words read back -/

/-- The characters that a shell does not take literally outside of quotes. -/
def isShellSpecial (c : Char) : Bool :=
  "\n|&;()<>\"\x60*?[\x7b!#~$".toList.contains c

lemma hexValue_hexChar : ∀ digit < 16, hexValue (Encoding.hexChar digit) = some digit := by
  decide

variable (stops : Char → Bool) (words : List (List Piece)) (word : List Piece)

lemma step_unicode {left digit : ℕ} (value : ℕ) (hdigit : digit < 16) (hleft : left ≠ 1) :
    step stops ⟨words, word, .unicode left value⟩ (Encoding.hexChar digit) =
      some ⟨words, word, .unicode (left - 1) (16 * value + digit)⟩ := by
  rw [step]
  rw [hexValue_hexChar digit hdigit]
  dsimp only
  rw [if_pos hleft]
  rfl

/-- All digits of an escape but the last. -/
lemma run_hexDigits (width left value n : ℕ) (hleft : 0 < left) (hn : n < 16 ^ width) :
    run stops ⟨words, word, .unicode (width + left) value⟩ (Encoding.hexDigits width n) =
      some ⟨words, word, .unicode left (16 ^ width * value + n)⟩ := by
  induction width generalizing left n with
  | zero =>
    have hzero : n = 0 := by
      omega
    rw [hzero, Nat.zero_add, Nat.pow_zero, Nat.one_mul, Nat.add_zero]
    rfl
  | succ width ih =>
    have hhigh : n / 16 < 16 ^ width := by
      rw [Nat.div_lt_iff_lt_mul (by decide), ← Nat.pow_succ]
      exact hn
    have hdigits := ih (1 + left) (n / 16) (by omega) hhigh
    have hdigit := step_unicode stops words word (16 ^ width * value + n / 16)
      (Nat.mod_lt n (by decide : 16 > 0)) (show 1 + left ≠ 1 by omega)
    rw [Encoding.hexDigits, run_append, Nat.add_assoc, hdigits, bind_some, run,
      foldlM_cons, hdigit, Nat.add_sub_cancel_left]
    have hvalue : 16 * (16 ^ width * value + n / 16) + n % 16 = 16 ^ (width + 1) * value + n := by
      rw [Nat.mul_add, Nat.add_assoc, Nat.div_add_mod, Nat.pow_succ, ← Nat.mul_assoc,
        Nat.mul_comm 16 (16 ^ width)]
    rw [hvalue]
    rfl

lemma toNat_lt_of_isControl (h : isControl c = true) : c.toNat < 160 := by
  simp only [isControl, Bool.or_eq_true, Bool.and_eq_true, decide_eq_true_eq] at h
  omega

/-- A character in `$'…'` is read back.  The character zero has no escape. -/
lemma run_ansiChar (hzero : c ≠ Char.ofNat 0) :
    run stops ⟨words, word, .ansi⟩ (ansiChar c) = some ⟨words, word ++ [(c, true)], .ansi⟩ := by
  unfold ansiChar
  split_ifs with h1 h2 h3 h4 h5
  · subst h1
    rfl
  · subst h2
    rfl
  · subst h3
    rfl
  · rcases h4 with rfl | rfl
    · rfl
    · rfl
  · have hlt := toNat_lt_of_isControl h5
    have hpos : c.toNat ≠ 0 := fun h => hzero (by rw [← Char.ofNat_toNat c, h])
    have hdigits := run_hexDigits stops words word 7 1 0 (c.toNat / 16) (by decide) (by omega)
    have hvalue : 16 * (16 ^ 7 * 0 + c.toNat / 16) + c.toNat % 16 = c.toNat := by omega
    have hlast : step stops ⟨words, word, .unicode 1 (16 ^ 7 * 0 + c.toNat / 16)⟩
        (Encoding.hexChar (c.toNat % 16)) = some ⟨words, word ++ [(c, true)], .ansi⟩ := by
      rw [step]
      rw [hexValue_hexChar _ (Nat.mod_lt _ (by decide))]
      dsimp only
      rw [if_neg (by decide), hvalue, if_pos ⟨hpos, c.valid⟩, Char.ofNat_toNat]
      rfl
    have hstart : run stops ⟨words, word, .ansi⟩ ['\\', 'U'] =
        some ⟨words, word, .unicode (7 + 1) 0⟩ := rfl
    rw [run_append, hstart, bind_some, Encoding.hexDigits, run_append, hdigits,
      bind_some, run, foldlM_cons, hlast]
    rfl
  · have hquote : c ≠ '\'' := fun h => h4 (.inr h)
    have hbackslash : c ≠ '\\' := fun h => h4 (.inl h)
    rw [run, foldlM_cons, step]
    dsimp only
    rw [ansiStep, if_neg hquote, if_neg hbackslash]
    rfl

lemma run_ansi (hzero : Char.ofNat 0 ∉ text) (words : List (List Piece)) (word : List Piece) :
    run stops ⟨words, word, .ansi⟩ (text.flatMap ansiChar) =
      some ⟨words, word ++ marked true text, .ansi⟩ := by
  induction text generalizing word with
  | nil => simp [run, marked]
  | cons c rest ih =>
    rw [mem_cons, not_or] at hzero
    rw [flatMap_cons, run_append, run_ansiChar stops words word (Ne.symm hzero.1),
      bind_some, ih hzero.2, append_assoc]
    rfl

/-- A quote is read back from its four characters. -/
lemma run_replaceQuotes (text : List Char) (words : List (List Piece)) (word : List Piece) :
    run stops ⟨words, word, .single⟩ (replaceQuotes text) =
      some ⟨words, word ++ marked true text, .single⟩ := by
  induction text generalizing word with
  | nil => simp [run, marked, replaceQuotes]
  | cons c rest ih =>
    have hrest := ih (word ++ [(c, true)])
    have hchar : run stops ⟨words, word, .single⟩
        (if c = '\'' then ['\'', '\\', '\'', '\''] else [c]) =
        some ⟨words, word ++ [(c, true)], .single⟩ := by
      split_ifs with hquote
      · subst hquote
        rfl
      · rw [run, foldlM_cons, step]
        dsimp only
        rw [if_neg hquote]
        rfl
    rw [replaceQuotes, flatMap_cons, run_append, hchar, bind_some]
    refine hrest.trans ?_
    rw [append_assoc]
    rfl

/-- **A quoted word is read back**, as one word with all its characters quoted. -/
lemma reads_shell {word : List Char} (hzero : Char.ofNat 0 ∉ word)
    (hquoted : ∃ c ∈ word, isWordChar c = false) :
    Reads stops (shell word) (marked true word) := by
  intro words
  rcases shell_cases word with h | ⟨-, ⟨-, -, hbare⟩ | h⟩
  · have hstart : run stops ⟨words, [], .blank⟩ ['$', '\''] = some ⟨words, [], .ansi⟩ := by
      simp [run, step, bareStep, ShellWords.isBlank, State.enter]
    rw [h, run_append, run_append, hstart, bind_some, run_ansi stops hzero, bind_some]
    rfl
  · obtain ⟨c, hc, hnot⟩ := hquoted
    rw [hbare c hc] at hnot
    exact Bool.noConfusion hnot
  · have hstart : run stops ⟨words, [], .blank⟩ ['\''] = some ⟨words, [], .single⟩ := by
      simp [run, step, bareStep, ShellWords.isBlank, State.enter]
    rw [h, run_append, run_append, hstart, bind_some, run_replaceQuotes, bind_some]
    rfl

/-! ## Fetch commands -/

lemma zero_notMem_pathspecWord (path : TreePath) : Char.ofNat 0 ∉ pathspecWord path := by
  intro hmem
  rcases mem_append.mp hmem with hmem | hmem
  · exact nomatch hmem
  · exact PathBuf.notMem_toStringLossy (by decide) path.zero_notMem hmem

lemma toNat_of_lower (h : c.isDigit = true ∨ c.isLower = true ∨ c = '-') :
    48 ≤ c.toNat ∧ c.toNat ≤ 57 ∨ 97 ≤ c.toNat ∧ c.toNat ≤ 122 ∨ c.toNat = 45 := by
  rcases h with h | h | rfl
  · simp only [Char.isDigit, Bool.and_eq_true, decide_eq_true_eq, ge_iff_le,
      UInt32.le_iff_toNat_le] at h
    exact .inl h
  · unfold Char.isLower at h
    simp only [Bool.and_eq_true, decide_eq_true_eq, ge_iff_le, UInt32.le_iff_toNat_le] at h
    exact .inr (.inl h)
  · exact .inr (.inr rfl)

/-- Digits, small letters and hyphens stand for themselves. -/
lemma plain_of_lower (h : c.isDigit = true ∨ c.isLower = true ∨ c = '-') :
    Plain isShellSpecial c := by
  have hnat := toNat_of_lower h
  have hne : ∀ d : Char, ¬(48 ≤ d.toNat ∧ d.toNat ≤ 57 ∨ 97 ≤ d.toNat ∧ d.toNat ≤ 122 ∨
      d.toNat = 45) → c ≠ d := by
    rintro d hd rfl
    exact hd hnat
  refine ⟨hne _ (by decide), hne _ (by decide), hne _ (by decide), ?_, ?_⟩
  · simp [ShellWords.isBlank, hne ' ' (by decide), hne '\t' (by decide)]
  · rw [isShellSpecial, contains_eq_mem, decide_eq_false_iff_not]
    intro hmem
    have hout : ("\n|&;()<>\"\x60*?[\x7b!#~$".toList.all fun d => d.toNat < 48 && d.toNat ≠ 45 ||
        57 < d.toNat && d.toNat < 97 || 122 < d.toNat) = true := by decide
    have hc := all_eq_true.mp hout c hmem
    simp only [Bool.or_eq_true, Bool.and_eq_true, decide_eq_true_eq] at hc
    omega

lemma lower_of_short {commit : ObjectId} (h : c ∈ short commit) :
    c.isDigit = true ∨ c.isLower = true ∨ c = '-' := by
  have hdigit := all_eq_true.mp commit.digits c (mem_of_mem_take h)
  rw [Bool.or_eq_true, Bool.and_eq_true, decide_eq_true_eq, decide_eq_true_eq] at hdigit
  rcases hdigit with hdigit | ⟨hle, hle'⟩
  · exact .inl hdigit
  · refine .inr (.inl ?_)
    have hz : c ≤ 'z' := hle'.trans (by decide)
    unfold Char.isLower
    simp only [Bool.and_eq_true, decide_eq_true_eq]
    exact ⟨hle, hz⟩

lemma reads_short (commit : ObjectId) :
    Reads isShellSpecial (short commit) (marked false (short commit)) := by
  refine Reads.of_plain (fun c hc => plain_of_lower (lower_of_short hc)) ?_
  intro hnil
  have hlength := congrArg length hnil
  rw [short, length_take, commit.length_eq] at hlength
  cases hlength

/-- The words of paths tell them apart. -/
lemma pathspecWord_injective : Function.Injective pathspecWord := by
  intro path path' h
  have htext := String.toList_injective (append_cancel_left h)
  have hpath := path.separated.eq_of_toStringLossy path'.separated htext
  cases path
  cases path'
  simp only [TreePath.mk.injEq]
  exact hpath

lemma reads_pathspec (path : TreePath) :
    Reads isShellSpecial (pathspec path) (marked true (pathspecWord path)) := by
  refine reads_shell isShellSpecial (zero_notMem_pathspecWord path) ⟨'(', ?_, by decide⟩
  exact mem_append_left _ (by decide)

def commandWords (report : ReviewContextReport) : List (List Char) :=
  ["git".toList, "diff".toList, "--no-indent-heuristic".toList,
    short report.comparison.baseCommit, short report.comparison.headCommit, "--".toList]

variable (report : ReviewContextReport)

lemma reads_commandWords :
    Forall₂ (Reads isShellSpecial) (commandWords report)
      ((commandWords report).map (marked false)) := by
  have hfixed : ∀ text : List Char, (text.all fun c => c.isLower || c = '-') = true → text ≠ [] →
      Reads isShellSpecial text (marked false text) := by
    intro text htext hne
    refine Reads.of_plain (fun c hc => ?_) hne
    have hchar := all_eq_true.mp htext c hc
    rw [Bool.or_eq_true, decide_eq_true_eq] at hchar
    exact plain_of_lower (.inr hchar)
  refine .cons (hfixed _ (by decide) (by decide)) (.cons (hfixed _ (by decide) (by decide))
    (.cons (hfixed _ (by decide) (by decide)) (.cons (reads_short _) (.cons (reads_short _)
    (.cons (hfixed _ (by decide) (by decide)) .nil)))))

lemma isControl_of_plain (h : c.isDigit = true ∨ c.isLower = true ∨ c = '-') :
    isControl c = false := by
  rw [Bool.eq_false_iff]
  intro hcontrol
  simp only [isControl, Bool.or_eq_true, Bool.and_eq_true, decide_eq_true_eq] at hcontrol
  have hnat := toNat_of_lower h
  omega

lemma isControl_commandWords :
    ∀ word ∈ commandWords report, ∀ c ∈ word, isControl c = false := by
  have hshort : ∀ commit : ObjectId, ∀ c ∈ short commit, isControl c = false :=
    fun commit c hc => isControl_of_plain (lower_of_short hc)
  intro word hword
  simp only [commandWords, mem_cons, not_mem_nil, or_false] at hword
  rcases hword with rfl | rfl | rfl | rfl | rfl | rfl
  · exact isControl_of_all (by decide)
  · exact isControl_of_all (by decide)
  · exact isControl_of_all (by decide)
  · exact hshort _
  · exact hshort _
  · exact isControl_of_all (by decide)

lemma isControl_intercalate {texts : List (List Char)}
    (h : ∀ text ∈ texts, ∀ c ∈ text, isControl c = false) :
    ∀ c ∈ [' '].intercalate texts, isControl c = false := by
  induction texts with
  | nil => exact nofun
  | cons text rest ih =>
    have hrest := ih fun other hother => h other (mem_cons_of_mem text hother)
    cases rest with
    | nil =>
      rw [intercalate_singleton]
      exact h text mem_cons_self
    | cons next others =>
      intro c hc
      rw [intercalate_cons_cons, mem_append, mem_append] at hc
      rcases hc with (hc | hc) | hc
      · exact h text mem_cons_self c hc
      · rw [mem_singleton.mp hc]
        decide
      · exact hrest c hc

variable (changes : List (Fin report.changes.length))

lemma fetchCommand_eq :
    fetchCommand report changes = ((commandWords report).flatMap fun text => text ++ [' ']) ++
      [' '].intercalate ((changedPaths report changes).map pathspec) := by
  have hfront : "git diff --no-indent-heuristic ".toList = "git".toList ++ [' '] ++
      ("diff".toList ++ [' '] ++ ("--no-indent-heuristic".toList ++ [' '])) := by decide +kernel
  have hend : " -- ".toList = [' '] ++ ("--".toList ++ [' ']) := by decide +kernel
  unfold fetchCommand diffCommand commandWords
  simp

/-- The paths of a fetch command are those of its changes, each once. -/
lemma changedPaths_spec :
    (changedPaths report changes).Nodup ∧ ∀ path, path ∈ changedPaths report changes ↔
      ∃ index ∈ changes, path ∈ sidePaths (report.changes.get index) := by
  have hinsert : ∀ paths set : List TreePath, set.Nodup →
      (paths.foldl (fun set path => Review.insertOrdered path set) set).Nodup ∧
        ∀ path, path ∈ paths.foldl (fun set path => Review.insertOrdered path set) set ↔
          path ∈ paths ∨ path ∈ set := by
    intro paths
    induction paths with
    | nil => exact fun set hset => ⟨hset, fun path => by simp⟩
    | cons first rest ih =>
      intro set hset
      obtain ⟨hnodup, hmem⟩ := ih (Review.insertOrdered first set) (Review.nodup_insertOrdered hset)
      refine ⟨hnodup, fun path => ?_⟩
      rw [foldl_cons, hmem, Review.mem_insertOrdered, mem_cons]
      tauto
  obtain ⟨hnodup, hmem⟩ := hinsert
    (changes.flatMap fun index => sidePaths (report.changes.get index)) [] nodup_nil
  refine ⟨hnodup, fun path => ?_⟩
  rw [changedPaths, hmem, mem_flatMap]
  simp

/-- **A fetch command is read as it is meant**: as `git diff` between the two commits with one word
for each path of the changes, and it prints no control character. -/
theorem fetchCommand_faithful (report : ReviewContextReport)
    (changes : List (Fin report.changes.length)) :
    (pieces isShellSpecial (fetchCommand report changes)).map (List.map (List.map Prod.fst)) =
        some (commandWords report ++ (changedPaths report changes).map pathspecWord) ∧
      ((changedPaths report changes).map pathspecWord).Nodup ∧
      (∀ path, path ∈ changedPaths report changes ↔
        ∃ index ∈ changes, path ∈ sidePaths (report.changes.get index)) ∧
      ∀ c ∈ fetchCommand report changes, isControl c = false := by
  obtain ⟨hnodup, hmem⟩ := changedPaths_spec report changes
  have hpaths : List.Forall₂ (Reads isShellSpecial)
      ((changedPaths report changes).map pathspec)
      ((changedPaths report changes).map fun path => marked true (pathspecWord path)) := by
    rw [forall₂_map_left_iff, forall₂_map_right_iff, forall₂_same]
    exact fun path _ => reads_pathspec path
  refine ⟨?_, hnodup.map pathspecWord_injective, hmem, ?_⟩
  · rw [fetchCommand_eq, pieces_join (reads_commandWords report) hpaths]
    simp [Function.comp_def]
  · intro c hc
    rw [fetchCommand_eq] at hc
    rcases mem_append.mp hc with hc | hc
    · obtain ⟨word, hword, hc⟩ := mem_flatMap.mp hc
      rcases mem_append.mp hc with hc | hc
      · exact isControl_commandWords report word hword c hc
      · rw [mem_singleton.mp hc]
        decide
    · refine isControl_intercalate ?_ c hc
      intro text htext
      obtain ⟨path, -, rfl⟩ := List.mem_map.mp htext
      exact isControl_shell (pathspecWord path)

end Reposcout.Report.ReviewContext
