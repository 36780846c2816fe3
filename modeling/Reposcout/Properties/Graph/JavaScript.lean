import Reposcout.Graph.JavaScript

/-!
# Which key of a pattern map is consulted

A map is sorted and its first matching key decides.  The most specific key is the exact one, or else
the pattern with the longest text before its star.  Package maps are sorted by the whole length of
a pattern, `paths` tables by name alone, so that neither order is that of specificity.
-/

namespace Reposcout.Graph.Js

open List Option KeyedList

/-! ## Keys -/

def Matches (request key : String) : Bool := (matchPathPattern key request).isSome

def Exact (request key : String) : Prop := hasStar key = false ∧ key = request

/-- A key is the most specific one among some keys that match a request. -/
def MostSpecific (keys : List String) (request key : String) : Prop :=
  Exact request key ∨ (∀ other ∈ keys, ¬ Exact request other) ∧
      ∀ other ∈ keys, Matches request other →
        (patternStart other).length ≤ (patternStart key).length

variable {request key : String}

lemma matches_iff_of_not_hasStar (h : hasStar key = false) :
    Matches request key = true ↔ key = request := by
  unfold Matches matchPathPattern
  rw [if_neg (by simp [h])]
  by_cases hkey : key = request <;> simp [hkey]

/-! ## The consulted key -/

/-- What a mapping of a package says about a request that it matches. -/
def consultPackage (package : PackageConfig) (requested : String) (nodes : List String)
    (resolver : String) (mapping : PackageMapping) : ImportResolution :=
  packageTarget package.directory ((matchPathPattern mapping.pattern requested).getD none) nodes
    resolver mapping.targets

/-- **A package map consults its first matching key only.** -/
lemma resolvePackageMappings_eq (package : PackageConfig) (mappings : List PackageMapping)
    (requested : String) (nodes : List String) (resolver : String) :
    resolvePackageMappings package mappings requested nodes resolver =
      (mappings.find? fun mapping => Matches requested mapping.pattern).map
        (consultPackage package requested nodes resolver) := by
  induction mappings with
  | nil => rfl
  | cons mapping rest ih =>
    unfold resolvePackageMappings
    cases hmatch : matchPathPattern mapping.pattern requested with
    | none =>
      rw [find?_cons_of_neg (by simp [Matches, hmatch])]
      exact ih
    | some capture =>
      rw [find?_cons_of_pos (by simp [Matches, hmatch]), map_some]
      simp [consultPackage, hmatch]

/-- What a mapping of a `paths` table says about a specifier that it matches. -/
def consultPath (specifier : String) (nodes : List String) (mapping : PathMapping) :
    ImportResolution :=
  tsTarget mapping.base mapping.targets ((matchPathPattern mapping.pattern specifier).getD none)
    nodes

/-- **A `paths` table consults its first matching key only.** -/
lemma resolveTsPaths_eq (paths : List PathMapping) (specifier : String) (nodes : List String) :
    resolveTsPaths paths specifier nodes =
      (paths.find? fun mapping => Matches specifier mapping.pattern).map
        (consultPath specifier nodes) := by
  induction paths with
  | nil => rfl
  | cons mapping rest ih =>
    unfold resolveTsPaths
    cases hmatch : matchPathPattern mapping.pattern specifier with
    | none =>
      rw [find?_cons_of_neg (by simp [Matches, hmatch])]
      exact ih
    | some capture =>
      rw [find?_cons_of_pos (by simp [Matches, hmatch]), map_some]
      simp [consultPath, hmatch]

/-! ## The orders -/

instance : Std.TransCmp pathOrder :=
  inferInstanceAs (Std.TransCmp (compareOn PathMapping.pattern))

instance : Std.TransCmp packageOrder :=
  haveI : Std.TransCmp fun left right : PackageMapping =>
      compare right.pattern.utf8ByteSize left.pattern.utf8ByteSize :=
    @Std.TransCmp.opposite _ (compareOn fun mapping : PackageMapping =>
      mapping.pattern.utf8ByteSize) _
  inferInstanceAs (Std.TransCmp (compareLex
    (compareOn fun mapping : PackageMapping => hasStar mapping.pattern)
    (compareLex (fun left right : PackageMapping =>
      compare right.pattern.utf8ByteSize left.pattern.utf8ByteSize)
      (compareOn PackageMapping.pattern))))

variable {left right : PackageMapping}

lemma packageOrder_eq_lt_iff : packageOrder left right = .lt ↔
      (hasStar left.pattern = false ∧ hasStar right.pattern = true) ∨
      (hasStar left.pattern = hasStar right.pattern ∧
        (right.pattern.utf8ByteSize < left.pattern.utf8ByteSize ∨
          (right.pattern.utf8ByteSize = left.pattern.utf8ByteSize ∧
            left.pattern < right.pattern))) := by
  unfold packageOrder
  rw [Ordering.then_eq_lt, Ordering.then_eq_lt, compare_lt_iff_lt, compare_lt_iff_lt,
    compare_lt_iff_lt, compare_eq_iff_eq, compare_eq_iff_eq, Bool.lt_iff]

lemma pattern_eq_of_packageOrder (h : packageOrder left right = .eq) :
    left.pattern = right.pattern := by
  unfold packageOrder at h
  rw [Ordering.then_eq_eq, Ordering.then_eq_eq] at h
  exact compare_eq_iff_eq.mp h.2.2

/-! ## Specificity -/

def packageKeys (mappings : List PackageMapping) : List String :=
  mappings.map PackageMapping.pattern

def pathKeys (paths : List PathMapping) : List String := paths.map PathMapping.pattern

def consultedPackage (mappings : List PackageMapping) (requested : String) :
    Option PackageMapping :=
  (sortedPackageMappings mappings).find? fun mapping => Matches requested mapping.pattern

/-- The key that a `paths` table consults. -/
def consultedPath (paths : List PathMapping) (specifier : String) : Option PathMapping :=
  (sortedPaths paths).find? fun mapping => Matches specifier mapping.pattern

/-- There is an exact key, or every matching pattern with less text before its star than another
one is shorter than some matching pattern, or as long and later in the alphabet. -/
def LongestIsMostSpecific (keys : List String) (request : String) : Prop :=
  (∃ key ∈ keys, Exact request key) ∨ ∀ key ∈ keys, Matches request key →
      (∃ other ∈ keys, Matches request other ∧
        (patternStart key).length < (patternStart other).length) →
      ∃ other ∈ keys, Matches request other ∧ (key.utf8ByteSize < other.utf8ByteSize ∨
          (key.utf8ByteSize = other.utf8ByteSize ∧ other < key))

/-- Every matching key but the exact one, or with less text before its star than another one, is
later in the alphabet than some matching key. -/
def FirstIsMostSpecific (keys : List String) (request : String) : Prop :=
  ∀ key ∈ keys, Matches request key → ¬ Exact request key → (∃ other ∈ keys, Matches request other ∧
      (Exact request other ∨ (patternStart key).length < (patternStart other).length)) →
    ∃ other ∈ keys, Matches request other ∧ other < key

lemma not_mostSpecific_iff {keys : List String} :
    ¬ MostSpecific keys request key ↔ ¬ Exact request key ∧ ∃ other ∈ keys, Matches request other ∧
        (Exact request other ∨ (patternStart key).length < (patternStart other).length) := by
  unfold MostSpecific
  constructor
  · intro h
    push Not at h
    obtain ⟨hexact, hother⟩ := h
    refine ⟨hexact, ?_⟩
    by_cases hany : ∃ other ∈ keys, Exact request other
    · obtain ⟨other, hmem, hrequest⟩ := hany
      exact ⟨other, hmem, (matches_iff_of_not_hasStar hrequest.1).mpr hrequest.2, .inl hrequest⟩
    · push Not at hany
      obtain ⟨other, hmem, hmatch, hlonger⟩ := hother hany
      exact ⟨other, hmem, hmatch, .inr hlonger⟩
  · rintro ⟨hexact, other, hmem, hmatch, hother⟩ (h | ⟨hnone, hall⟩)
    · exact hexact h
    · rcases hother with hother | hlonger
      · exact hnone other hmem hother
      · exact absurd (hall other hmem hmatch) (by omega)

lemma hasStar_of_matches (h : Matches request key = true) (hexact : ¬ Exact request key) :
    hasStar key = true := by
  by_contra hstar
  rw [Bool.not_eq_true] at hstar
  exact hexact ⟨hstar, (matches_iff_of_not_hasStar hstar).mp h⟩

lemma eq_of_pathOrder {paths : List PathMapping} (hkeys : (pathKeys paths).Nodup) :
    ∀ a ∈ paths, ∀ b ∈ paths, pathOrder a b = .eq → a = b :=
  fun _ ha _ hb h => inj_on_of_nodup_map hkeys ha hb (compare_eq_iff_eq.mp h)

/-- A `paths` table consults the most specific key. -/
lemma mostSpecific_path_iff {paths : List PathMapping} (hkeys : (pathKeys paths).Nodup)
    (specifier : String) :
    (∀ mapping, consultedPath paths specifier = some mapping →
      MostSpecific (pathKeys paths) specifier mapping.pattern) ↔
      FirstIsMostSpecific (pathKeys paths) specifier := by
  have hsorted : (∀ mapping, consultedPath paths specifier = some mapping →
      MostSpecific (pathKeys paths) specifier mapping.pattern) ↔
      ∀ mapping ∈ paths, Matches specifier mapping.pattern = true →
        ¬ MostSpecific (pathKeys paths) specifier mapping.pattern →
        ∃ other ∈ paths, Matches specifier other.pattern = true ∧
          pathOrder other mapping = .lt :=
    forall_find?_sortBy_iff (eq_of_pathOrder hkeys)
  rw [hsorted]
  constructor
  · intro h key hkey hmatch hexact hother
    obtain ⟨mapping, hmapping, rfl⟩ := mem_map.mp hkey
    obtain ⟨other, hmem, hmatches, hlt⟩ :=
      h mapping hmapping hmatch (not_mostSpecific_iff.mpr ⟨hexact, hother⟩)
    exact ⟨other.pattern, mem_map_of_mem hmem, hmatches, compare_lt_iff_lt.mp hlt⟩
  · intro h mapping hmapping hmatch hbad
    obtain ⟨hexact, hother⟩ := not_mostSpecific_iff.mp hbad
    obtain ⟨key, hkey, hmatches, hlt⟩ :=
      h mapping.pattern (mem_map_of_mem hmapping) hmatch hexact hother
    obtain ⟨other, hmem, rfl⟩ := mem_map.mp hkey
    exact ⟨other, hmem, hmatches, compare_lt_iff_lt.mpr hlt⟩

lemma packageKeys_distinctTargets (mappings : List PackageMapping) :
    packageKeys (mappings.map distinctTargets) = packageKeys mappings := by
  unfold packageKeys
  rw [List.map_map]
  rfl

variable {mappings : List PackageMapping}

lemma eq_of_packageOrder (hkeys : (packageKeys mappings).Nodup) :
    ∀ a ∈ mappings.map distinctTargets, ∀ b ∈ mappings.map distinctTargets,
      packageOrder a b = .eq → a = b := by
  intro a ha b hb h
  have hdistinct : ((mappings.map distinctTargets).map PackageMapping.pattern).Nodup := by
    have hsame := packageKeys_distinctTargets mappings
    unfold packageKeys at hsame hkeys
    rw [hsame]
    exact hkeys
  exact inj_on_of_nodup_map hdistinct ha hb (pattern_eq_of_packageOrder h)

lemma mostSpecific_package_iff (hkeys : (packageKeys mappings).Nodup) (requested : String) :
    (∀ mapping, consultedPackage mappings requested = some mapping →
      MostSpecific (packageKeys mappings) requested mapping.pattern) ↔
      LongestIsMostSpecific (packageKeys mappings) requested := by
  have hsorted : (∀ mapping, consultedPackage mappings requested = some mapping →
      MostSpecific (packageKeys mappings) requested mapping.pattern) ↔
      ∀ mapping ∈ mappings.map distinctTargets, Matches requested mapping.pattern = true →
        ¬ MostSpecific (packageKeys mappings) requested mapping.pattern →
        ∃ other ∈ mappings.map distinctTargets, Matches requested other.pattern = true ∧
          packageOrder other mapping = .lt :=
    forall_find?_sortBy_iff (eq_of_packageOrder hkeys)
  have hmem : ∀ key, key ∈ packageKeys mappings ↔
      ∃ mapping ∈ mappings.map distinctTargets, mapping.pattern = key := by
    intro key
    rw [← packageKeys_distinctTargets mappings]
    exact mem_map
  rw [hsorted]
  constructor
  · intro h
    by_cases hany : ∃ key ∈ packageKeys mappings, Exact requested key
    · exact .inl hany
    · right
      intro key hkey hmatch ⟨longer, hlonger, hmatches, hlt⟩
      obtain ⟨mapping, hmapping, rfl⟩ := (hmem key).mp hkey
      have hexact : ∀ key ∈ packageKeys mappings, ¬ Exact requested key := by
        intro key hkey hrequest
        exact hany ⟨key, hkey, hrequest⟩
      obtain ⟨other, hother, hmatch', hbefore⟩ := h mapping hmapping hmatch
        (not_mostSpecific_iff.mpr ⟨hexact _ hkey, longer, hlonger, hmatches, .inr hlt⟩)
      have hkey' := (hmem _).mpr ⟨other, hother, rfl⟩
      refine ⟨other.pattern, hkey', hmatch', ?_⟩
      rcases packageOrder_eq_lt_iff.mp hbefore with ⟨hstar, -⟩ | ⟨-, hsize | ⟨hsize, hname⟩⟩
      · rw [hasStar_of_matches hmatch' (hexact _ hkey')] at hstar
        cases hstar
      · exact .inl hsize
      · exact .inr ⟨hsize, hname⟩
  · intro h mapping hmapping hmatch hbad
    obtain ⟨hexact, better, hbetter, hmatches, hbest⟩ := not_mostSpecific_iff.mp hbad
    have hstar := hasStar_of_matches hmatch hexact
    by_cases hany : ∃ key ∈ packageKeys mappings, Exact requested key
    · obtain ⟨key, hkey, hrequest⟩ := hany
      obtain ⟨other, hother, rfl⟩ := (hmem key).mp hkey
      exact ⟨other, hother, (matches_iff_of_not_hasStar hrequest.1).mpr hrequest.2,
        packageOrder_eq_lt_iff.mpr (.inl ⟨hrequest.1, hstar⟩)⟩
    · have hlonger : (patternStart mapping.pattern).length < (patternStart better).length :=
        hbest.resolve_left fun hrequest => hany ⟨better, hbetter, hrequest⟩
      obtain ⟨key, hkey, hmatch', hbefore⟩ := h.resolve_left hany mapping.pattern
        ((hmem _).mpr ⟨mapping, hmapping, rfl⟩) hmatch ⟨better, hbetter, hmatches, hlonger⟩
      have hstar' := hasStar_of_matches hmatch' fun hrequest => hany ⟨key, hkey, hrequest⟩
      obtain ⟨other, hother, rfl⟩ := (hmem key).mp hkey
      refine ⟨other, hother, hmatch', packageOrder_eq_lt_iff.mpr (.inr ⟨?_, hbefore⟩)⟩
      rw [hstar', hstar]

/-! ## The order of the keys in a file -/

lemma sortedPackageMappings_of_perm {permuted : List PackageMapping}
    (hkeys : (packageKeys mappings).Nodup) (hperm : permuted.Perm mappings) :
    sortedPackageMappings permuted = sortedPackageMappings mappings :=
  sortBy_eq_of_perm (eq_of_packageOrder hkeys) (hperm.map distinctTargets)

lemma sortedPaths_of_perm {paths permuted : List PathMapping} (hkeys : (pathKeys paths).Nodup)
    (hperm : permuted.Perm paths) : sortedPaths permuted = sortedPaths paths :=
  sortBy_eq_of_perm (eq_of_pathOrder hkeys) hperm

/-- The keys of an object are distinct. -/
lemma nodup_keys_entries (members : List (String × Json)) :
    (keys (Json.entries members)).Nodup := by
  have hfold : (keys (members.foldl (fun map entry =>
      alter entry.1 (fun _ => entry.2) map) [])).Nodup :=
    foldlRecOn (motive := fun map : List (String × Json) => (keys map).Nodup)
      members _ (by simp) fun _ h _ _ => nodup_keys_alter h
  exact ((sortBy_perm _ _).map Prod.fst).nodup_iff.mpr hfold

/-- The keys of a `paths` table in a file are distinct. -/
lemma nodup_pathMappings (base : String) (members : List (String × Json)) :
    (pathKeys (pathMappings base (Json.entries members))).Nodup := by
  have hsublist : (pathKeys (pathMappings base (Json.entries members))).Sublist
      (keys (Json.entries members)) := by
    refine keys_filterMap_sublist fun entry _ mapping hmapping => ?_
    obtain ⟨targets, -, hsome⟩ := bind_eq_some_iff.mp hmapping
    dsimp only at hsome
    split_ifs at hsome
    rw [← some.inj hsome]
  exact hsublist.nodup (nodup_keys_entries members)

/-- **Which keys the pattern maps consult**: one key each, whatever the order of the keys in the
file, and the most specific one exactly under the conditions on the lengths and the names of the
matching keys. -/
theorem pattern_maps_iff (package : PackageConfig) (mappings : List PackageMapping)
    (paths : List PathMapping) (hpackage : (packageKeys mappings).Nodup)
    (hpaths : (pathKeys paths).Nodup) (request : String) (nodes : List String)
    (resolver : String) :
    (resolvePackageMappings package (sortedPackageMappings mappings) request nodes resolver =
      (consultedPackage mappings request).map (consultPackage package request nodes resolver)) ∧
    (resolveTsPaths (sortedPaths paths) request nodes =
      (consultedPath paths request).map (consultPath request nodes)) ∧
    (∀ permuted, permuted.Perm mappings →
      sortedPackageMappings permuted = sortedPackageMappings mappings) ∧
    (∀ permuted, permuted.Perm paths → sortedPaths permuted = sortedPaths paths) ∧
    ((∀ mapping, consultedPackage mappings request = some mapping →
      MostSpecific (packageKeys mappings) request mapping.pattern) ↔
      LongestIsMostSpecific (packageKeys mappings) request) ∧
    ((∀ mapping, consultedPath paths request = some mapping →
      MostSpecific (pathKeys paths) request mapping.pattern) ↔
      FirstIsMostSpecific (pathKeys paths) request) :=
  ⟨resolvePackageMappings_eq package _ request nodes resolver, resolveTsPaths_eq _ request nodes,
    fun _ hperm => sortedPackageMappings_of_perm hpackage hperm,
    fun _ hperm => sortedPaths_of_perm hpaths hperm,
    mostSpecific_package_iff hpackage request, mostSpecific_path_iff hpaths request⟩

namespace Overlapping

def package : PackageConfig where
  directory := "packages/core"
  name := some "@acme/core"
  hasExports := true
  hasImports := false
  exports := []
  imports := []
  entrypoints := []

/-- A key that is blocked in front of a broader one. -/
def blocked : List PackageMapping := [⟨"./*", ["./src/*.js"]⟩, ⟨"./private", []⟩]

/-- The first key has more text before its star, the second one is longer. -/
def exports : List PackageMapping :=
  [⟨"./features/*", ["./src/features/*"]⟩, ⟨"./*/internal/view.js", ["./src/*/view.js"]⟩]

/-- A catch-all stands before the names below it. -/
def paths : List PathMapping := [⟨"@/*", ["src/*"], ""⟩, ⟨"@/lib/*", ["lib/*"], ""⟩]

end Overlapping

/-- The exact key is consulted. -/
theorem pattern_maps_iff_blocked :
    consultedPackage Overlapping.blocked "./private" = some ⟨"./private", []⟩ ∧
      MostSpecific (packageKeys Overlapping.blocked) "./private" "./private" :=
  have hconsulted : consultedPackage Overlapping.blocked "./private" =
      some ⟨"./private", []⟩ := by decide +kernel
  ⟨hconsulted, (pattern_maps_iff Overlapping.package Overlapping.blocked Overlapping.paths
    (by decide) (by decide) "./private" [] "package-exports").2.2.2.2.1.mpr
    (.inl ⟨"./private", by decide, by decide, rfl⟩) ⟨"./private", []⟩ hconsulted⟩

/-- Neither kind of map consults the key with the longest text before its star. -/
theorem not_mostSpecific_overlapping :
    (¬ ∀ mapping, consultedPackage Overlapping.exports "./features/internal/view.js" =
        some mapping → MostSpecific (packageKeys Overlapping.exports)
          "./features/internal/view.js" mapping.pattern) ∧
      ¬ ∀ mapping, consultedPath Overlapping.paths "@/lib/time" = some mapping →
        MostSpecific (pathKeys Overlapping.paths) "@/lib/time" mapping.pattern := by
  constructor
  · intro h
    rcases h ⟨"./*/internal/view.js", ["./src/*/view.js"]⟩ (by decide +kernel) with hexact | hall
    · cases hexact.1
    · exact absurd (hall.2 "./features/*" (by decide) (by decide +kernel)) (by decide +kernel)
  · intro h
    rcases h ⟨"@/*", ["src/*"], ""⟩ (by decide +kernel) with hexact | hall
    · cases hexact.1
    · exact absurd (hall.2 "@/lib/*" (by decide) (by decide +kernel)) (by decide +kernel)

end Reposcout.Graph.Js
