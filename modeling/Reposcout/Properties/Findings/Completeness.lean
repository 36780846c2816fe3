import Reposcout.Dup.Corpus
import Reposcout.Findings.Build
import Reposcout.Properties.Findings.Compare

/-!
# When a catalog keeps every finding

A comparison files one record for each fingerprint, so a catalog shows all of its findings
only if they have distinct fingerprints.  For path findings that is a matter of their
identities.  For duplicate groups it is not: the fuzzy detector reports one group for each
pair of copies, so three renamed copies of one fragment are three groups with the same content
fingerprint, and all but one of them are lost.

`catalogComplete_iff` says exactly when nothing is lost.
-/

namespace Reposcout.Findings

open Dup List Option KeyedList

variable (xxh3_128 : List UInt8 → BitVec 128)

/-! ## Fingerprints of path findings -/

/-- The parts of every path fingerprint of a catalog's inputs. -/
def functionParts (files : List FileReport) (cfg : Config) : List (List String) :=
  files.flatMap fun file => (overLimit cfg file).map fun function =>
    pathParts "complexity" file.path.toStringLossy (functionKey function)

def markerParts (files : List FileReport) : List (List String) :=
  files.flatMap fun file => file.markerOccurrences.map fun marker =>
    pathParts "marker" file.path.toStringLossy (markerIdentity marker)

def riskParts (risks : List RiskEntry) : List (List String) :=
  (highRisks risks).map fun risk => pathParts "risk" risk.path "file"

def partsFingerprint (kind : String) (parts : List String) : String :=
  kind ++ ":v1" ++ ":" ++ fingerprint xxh3_128 parts

def pathFingerprints (files : List FileReport) (risks : List RiskEntry) (cfg : Config) :
    List String :=
  (functionParts files cfg).map (partsFingerprint xxh3_128 "complexity")
    ++ (markerParts files).map (partsFingerprint xxh3_128 "marker")
    ++ (riskParts risks).map (partsFingerprint xxh3_128 "risk")

def groupFingerprints (duplication : Duplication) : List String :=
  (duplication.exact.filter (fun group => group.instances ≠ [])).map
      (groupFingerprint xxh3_128 "exact")
    ++ (duplication.near.filter (fun group => group.instances ≠ [])).map
      (groupFingerprint xxh3_128 "type2")

/-- The hash separates the keys of some path findings, which are short enough for their lengths
to fit in a `usize`. -/
structure CollisionFree (keys : List (List String)) : Prop where
  fits : ∀ parts ∈ keys, ∀ part ∈ parts, (utf8Bytes part).length < 256 ^ 8
  separates : ∀ parts ∈ keys, ∀ others ∈ keys,
    xxh3_128 (fingerprintBytes parts) = xxh3_128 (fingerprintBytes others) →
      fingerprintBytes parts = fingerprintBytes others

lemma hex128_injective {x y : BitVec 128} (h : hex128 x = hex128 y) : x = y := by
  have hdigits := String.ofList_injective h
  exact BitVec.eq_of_toNat_eq (Encoding.hexDigits_injective
    (by have := x.isLt; omega) (by have := y.isLt; omega) hdigits)

lemma utf8Bytes_injective : Function.Injective utf8Bytes := by
  intro s t h
  have hdata : s.toUTF8.data = t.toUTF8.data := Array.toList_inj.mp h
  exact String.toByteArray_inj.mp (ByteArray.ext hdata)

variable {parts others : List String} {keys : List (List String)}

lemma fingerprint_injective (hfree : CollisionFree xxh3_128 keys) (hparts : parts ∈ keys)
    (hothers : others ∈ keys) (h : fingerprint xxh3_128 parts = fingerprint xxh3_128 others) :
    parts = others := by
  have hbytes := hfree.separates parts hparts others hothers (hex128_injective h)
  have hfits : ∀ ps ∈ keys, ∀ bytes ∈ ps.map utf8Bytes, bytes.length < 256 ^ 8 := by
    intro ps hps bytes hmem
    obtain ⟨part, hpart, rfl⟩ := mem_map.mp hmem
    exact hfree.fits ps hps part hpart
  have hmap := Encoding.prefixedParts_injective (by decide) (hfits parts hparts)
    (hfits others hothers) hbytes
  exact map_injective_iff.mpr utf8Bytes_injective hmap

/-- Path fingerprints of different kinds differ in their first letter. -/
lemma partsFingerprint_ne {kind other : String} (c d : Char) (hkind : kind.toList.head? = some c)
    (hother : other.toList.head? = some d) (hne : c ≠ d) :
    partsFingerprint xxh3_128 kind parts ≠ partsFingerprint xxh3_128 other others := by
  intro h
  have hhead := congrArg (fun s => s.toList.head?) h
  simp only [partsFingerprint, String.toList_append, head?_append, hkind, hother,
    some_or, some.injEq] at hhead
  exact hne hhead

/-! ## The records of a catalog -/

lemma fingerprints_groups (kind : String) (groups : List (CloneGroup ℚ)) :
    (groups.filterMap (duplicateRecord xxh3_128 kind)).map FindingRecord.fingerprint =
      (groups.filter (fun group => group.instances ≠ [])).map
        (groupFingerprint xxh3_128 kind) := by
  induction groups with
  | nil => rfl
  | cons group rest ih =>
    cases hinstances : group.instances with
    | nil => simp [duplicateRecord, hinstances, ih]
    | cons primary others => simp [duplicateRecord, hinstances, ih]

variable (files : List FileReport)

lemma fingerprints_files (cfg : Config) :
    ((files.flatMap (fileRecords xxh3_128 cfg)).map FindingRecord.fingerprint).Perm
      ((functionParts files cfg).map (partsFingerprint xxh3_128 "complexity")
        ++ (markerParts files).map (partsFingerprint xxh3_128 "marker")) := by
  unfold functionParts markerParts
  rw [map_flatMap, map_flatMap, map_flatMap]
  refine Perm.trans (Perm.of_eq ?_) (flatMap_append_perm files _ _).symm
  refine flatMap_congr fun file _ => ?_
  unfold fileRecords
  rw [map_append, List.map_map, List.map_map, List.map_map, List.map_map]
  rfl

lemma fingerprints_build (duplication : Duplication) (risks : List RiskEntry) (cfg : Config) :
    (fingerprints (build xxh3_128 files duplication risks cfg)).Perm
      (pathFingerprints xxh3_128 files risks cfg ++ groupFingerprints xxh3_128 duplication) := by
  have hsorted : (fingerprints (build xxh3_128 files duplication risks cfg)).Perm
      ((records xxh3_128 files duplication risks cfg).map FindingRecord.fingerprint) :=
    (sortBy_perm _ _).map _
  refine hsorted.trans ?_
  have hrisks : ((highRisks risks).map (riskRecord xxh3_128)).map FindingRecord.fingerprint =
      (riskParts risks).map (partsFingerprint xxh3_128 "risk") := by
    unfold riskParts
    rw [List.map_map, List.map_map]
    rfl
  unfold records pathFingerprints groupFingerprints
  rw [map_append, map_append, map_append, fingerprints_groups, fingerprints_groups, hrisks]
  -- Both sides hold the same four blocks.
  have hblocks : ∀ paths exact near risks : List String,
      (paths ++ exact ++ near ++ risks).Perm (paths ++ risks ++ (exact ++ near)) := by
    intro paths exact near risks
    rw [perm_iff_count]
    intro fingerprint
    simp only [count_append]
    omega
  exact (hblocks _ _ _ _).trans
    (((fingerprints_files xxh3_128 files cfg).append_right _).append_right _)

inductive AddsGroup (before after : Duplication) : String → CloneGroup ℚ → Prop where
  | exact {group : CloneGroup ℚ} (hexact : after.exact.Perm (group :: before.exact))
      (hnear : after.near.Perm before.near) : AddsGroup before after "exact" group
  | near {group : CloneGroup ℚ} (hexact : after.exact.Perm before.exact)
      (hnear : after.near.Perm (group :: before.near)) : AddsGroup before after "type2" group

variable {group : CloneGroup ℚ}

lemma records_of_addsGroup {before after : Duplication} {kind : String}
    (h : AddsGroup before after kind group) (files : List FileReport) (risks : List RiskEntry)
    (cfg : Config) : (records xxh3_128 files after risks cfg).Perm
      ((duplicateRecord xxh3_128 kind group).toList ++
        records xxh3_128 files before risks cfg) := by
  have hmove : ∀ new paths exact near risks : List (FindingRecord ℚ),
      (paths ++ (new ++ exact) ++ near ++ risks).Perm
        (new ++ (paths ++ exact ++ near ++ risks)) ∧
      (paths ++ exact ++ (new ++ near) ++ risks).Perm
        (new ++ (paths ++ exact ++ near ++ risks)) := by
    intro new paths exact near risks
    refine ⟨?_, ?_⟩ <;> rw [perm_iff_count] <;> intro record <;>
      simp only [count_append] <;> omega
  have hcons : ∀ kind (groups : List (CloneGroup ℚ)),
      (group :: groups).filterMap (duplicateRecord xxh3_128 kind) =
        (duplicateRecord xxh3_128 kind group).toList ++
          groups.filterMap (duplicateRecord xxh3_128 kind) := by
    intro kind groups
    rw [filterMap_cons]
    cases duplicateRecord xxh3_128 kind group <;> rfl
  cases h with
  | exact hexact hnear =>
    have hexact' := hexact.filterMap (duplicateRecord xxh3_128 "exact")
    rw [hcons] at hexact'
    exact ((((hexact'.append_left _).append (hnear.filterMap _)).append_right _)).trans
      (hmove _ _ _ _ _).1
  | near hexact hnear =>
    have hnear' := hnear.filterMap (duplicateRecord xxh3_128 "type2")
    rw [hcons] at hnear'
    exact (((((hexact.filterMap _).append_left _).append hnear').append_right _)).trans
      (hmove _ _ _ _ _).2

/-! ## Completeness -/

/-- What a complete catalog comparison needs: distinct fingerprints before and after, and the
added group among the new or worsened findings. -/
structure CatalogComplete (files : List FileReport) (before after : Duplication)
    (risks : List RiskEntry) (cfg : Config) (kind : String) (group : CloneGroup ℚ) : Prop where
  before_nodup : (fingerprints (build xxh3_128 files before risks cfg)).Nodup
  after_nodup : (fingerprints (build xxh3_128 files after risks cfg)).Nodup
  reported : ∃ record, duplicateRecord xxh3_128 kind group = some record ∧
    ∃ change ∈ (compare (build xxh3_128 files before risks cfg)
      (build xxh3_128 files after risks cfg)).changes,
      (change.state = .new ∨ change.state = .worsened) ∧ change.after = some record

/-- The inputs of a catalog can be told apart: no two over-limit functions of one path have one
key, no two markers of one path have one identity, no path has two high-risk entries, no two
duplicate groups carry one fingerprint, and no group carries that of a path finding. -/
structure Distinguishable (files : List FileReport) (duplication : Duplication)
    (risks : List RiskEntry) (cfg : Config) : Prop where
  functions_nodup : (functionParts files cfg).Nodup
  markers_nodup : (markerParts files).Nodup
  risks_nodup : (riskParts risks).Nodup
  groups_nodup : (groupFingerprints xxh3_128 duplication).Nodup
  separate : ∀ fingerprint ∈ groupFingerprints xxh3_128 duplication,
    fingerprint ∉ pathFingerprints xxh3_128 files risks cfg

def pathKeys (files : List FileReport) (risks : List RiskEntry) (cfg : Config) :
    List (List String) :=
  functionParts files cfg ++ markerParts files ++ riskParts risks

variable {xxh3_128}

lemma nodup_map_partsFingerprint {all : List (List String)} (hfree : CollisionFree xxh3_128 all)
    (hsub : ∀ parts ∈ keys, parts ∈ all) (kind : String) (h : keys.Nodup) :
    (keys.map (partsFingerprint xxh3_128 kind)).Nodup := by
  refine h.map_on ?_
  intro parts hparts others hothers hsame
  exact fingerprint_injective xxh3_128 hfree (hsub parts hparts) (hsub others hothers)
    (String.append_right_inj _ |>.mp hsame)

/-- **Distinct fingerprints are distinguishable inputs**, for a hash that separates the keys of
the path findings. -/
lemma nodup_fingerprints_iff {files : List FileReport} {duplication : Duplication}
    {risks : List RiskEntry} {cfg : Config}
    (hfree : CollisionFree xxh3_128 (pathKeys files risks cfg)) :
    (fingerprints (build xxh3_128 files duplication risks cfg)).Nodup ↔
      Distinguishable xxh3_128 files duplication risks cfg := by
  rw [(fingerprints_build xxh3_128 files duplication risks cfg).nodup_iff, nodup_append']
  constructor
  · rintro ⟨hpaths, hgroups, hdisjoint⟩
    have hpaths' := hpaths
    unfold pathFingerprints at hpaths'
    rw [nodup_append', nodup_append'] at hpaths'
    exact ⟨hpaths'.1.1.of_map _, hpaths'.1.2.1.of_map _, hpaths'.2.1.of_map _, hgroups,
      fun fingerprint hgroup hpath => hdisjoint hpath hgroup⟩
  · rintro ⟨hfunctions, hmarkers, hrisks, hgroups, hseparate⟩
    refine ⟨?_, hgroups, fun fingerprint hpath hgroup => hseparate fingerprint hgroup hpath⟩
    unfold pathFingerprints
    rw [nodup_append', nodup_append']
    refine ⟨⟨?_, ?_, ?_⟩, ?_, ?_⟩
    · exact nodup_map_partsFingerprint hfree (by simp [pathKeys]; tauto) _ hfunctions
    · exact nodup_map_partsFingerprint hfree (by simp [pathKeys]; tauto) _ hmarkers
    · intro fingerprint hfunction hmarker
      obtain ⟨parts, _, rfl⟩ := mem_map.mp hfunction
      obtain ⟨others, _, hsame⟩ := mem_map.mp hmarker
      exact partsFingerprint_ne xxh3_128 'm' 'c' (by decide) (by decide) (by decide) hsame
    · exact nodup_map_partsFingerprint hfree (by simp [pathKeys]; tauto) _ hrisks
    · intro fingerprint hother hrisk
      obtain ⟨parts, _, rfl⟩ := mem_map.mp hrisk
      rcases mem_append.mp hother with hother | hother
      · obtain ⟨others, _, hsame⟩ := mem_map.mp hother
        exact partsFingerprint_ne xxh3_128 'c' 'r' (by decide) (by decide) (by decide) hsame
      · obtain ⟨others, _, hsame⟩ := mem_map.mp hother
        exact partsFingerprint_ne xxh3_128 'm' 'r' (by decide) (by decide) (by decide) hsame

variable {record : FindingRecord ℚ}

lemma reported_of_new (before after : FindingCatalog ℚ) (hversion : before.version = after.version)
    (hnonzero : before.version ≠ 0) (hafter : (fingerprints after).Nodup)
    (hmem : record ∈ after.findings) (hnew : record.fingerprint ∉ fingerprints before) :
    ⟨.new, none, some record⟩ ∈ (compare before after).changes := by
  rw [compare_of_versions hversion hnonzero, mem_sortBy, mem_allChanges_iff]
  refine ⟨record.fingerprint, ?_⟩
  have hbefore : recordAt before record.fingerprint = none := by
    rw [← not_isSome_iff_eq_none, isSome_recordAt]
    exact hnew
  have hcurrent : recordAt after record.fingerprint = some record := by
    rw [recordAt_eq]
    exact get?_indexBy_of_mem hafter hmem
  unfold changeAt
  rw [hbefore, hcurrent]

/-- **When the catalog keeps every finding.**  For a hash that separates the keys of the path
findings, adding a duplicate group leaves distinct fingerprints before and after and is
reported as new or worsened if and only if the group has an instance and the inputs with the
group can be told apart. -/
theorem catalogComplete_iff {files : List FileReport} {before after : Duplication}
    {risks : List RiskEntry} {cfg : Config} {kind : String} {group : CloneGroup ℚ}
    (hadds : AddsGroup before after kind group)
    (hfree : CollisionFree xxh3_128 (pathKeys files risks cfg)) :
    CatalogComplete xxh3_128 files before after risks cfg kind group ↔
      group.instances ≠ [] ∧ Distinguishable xxh3_128 files after risks cfg := by
  constructor
  · rintro ⟨_, hafter, record, hrecord, _⟩
    refine ⟨?_, (nodup_fingerprints_iff hfree).mp hafter⟩
    intro hnone
    simp [duplicateRecord, hnone] at hrecord
  · rintro ⟨hinstances, hdistinguishable⟩
    have hafter := (nodup_fingerprints_iff hfree).mpr hdistinguishable
    obtain ⟨record, hrecord⟩ : ∃ record, duplicateRecord xxh3_128 kind group = some record := by
      unfold duplicateRecord
      cases hcases : group.instances with
      | nil => exact absurd hcases hinstances
      | cons primary others => exact ⟨_, rfl⟩
    -- The later catalog holds the earlier records and the record of the group.
    have hrecords := records_of_addsGroup xxh3_128 hadds files risks cfg
    rw [hrecord, toList_some, singleton_append] at hrecords
    have hcatalog : (build xxh3_128 files after risks cfg).findings.Perm
        (record :: (build xxh3_128 files before risks cfg).findings) :=
      (sortBy_perm _ _).trans
        (hrecords.trans ((sortBy_perm _ _).symm.cons record))
    have hfingerprints := (hcatalog.map FindingRecord.fingerprint).nodup_iff.mp hafter
    rw [map_cons, nodup_cons] at hfingerprints
    obtain ⟨hnew, hbefore⟩ := hfingerprints
    have hreported := reported_of_new (build xxh3_128 files before risks cfg)
      (build xxh3_128 files after risks cfg) rfl Nat.one_ne_zero hafter (hcatalog.mem_iff.mpr mem_cons_self) hnew
    exact ⟨hbefore, hafter, record, hrecord, _, hreported, .inl rfl, rfl⟩

/-- The completeness of a catalog that gains its first group. -/
theorem catalogComplete_iff_firstGroup :
    let location : CloneInstance := ⟨⟨["a.rs"]⟩, 1, 1, 1, 5, 0, 4, 1, 4⟩
    let group : CloneGroup ℚ := ⟨1, 4, 1, "Rust", "dup:v1:0", [location, location]⟩
    CatalogComplete (fun _ => 0) [] ⟨[], []⟩ ⟨[group], []⟩ [] ⟨10⟩ "exact" group := by
  intro location group
  have hadds : AddsGroup ⟨[], []⟩ ⟨[group], []⟩ "exact" group := .exact (.refl _) (.refl _)
  refine (catalogComplete_iff hadds ⟨?_, ?_⟩).mpr ⟨by decide, ?_⟩
  · exact nofun
  · exact nofun
  · exact ⟨by decide, by decide, by decide, by decide, fun _ _ => not_mem_nil⟩

/-! ## Families of renamed copies -/

lemma compareSeverity_of_metrics {a b : FindingRecord ℚ}
    (hmetrics : a.metrics = b.metrics) : compareSeverity a b = .eq := by
  have hmetric : ∀ name, metric a name = metric b name := by
    intro name
    unfold metric
    rw [hmetrics]
  rw [← compareSeverity_self b]
  unfold compareSeverity compareMetricTuple
  simp only [hmetric, compareMetricTuple]

lemma changeAt_of_metrics {before after : FindingCatalog ℚ} {fingerprint : String}
    {previous current : FindingRecord ℚ} (hbefore : recordAt before fingerprint = some previous)
    (hafter : recordAt after fingerprint = some current)
    (hmetrics : previous.metrics = current.metrics) : changeAt before after fingerprint = none := by
  unfold changeAt
  rw [hbefore, hafter]
  dsimp only
  rw [compareSeverity_of_metrics hmetrics]

lemma mem_build_near {near : List (CloneGroup ℚ)} {cfg : Config} :
    record ∈ (build xxh3_128 [] ⟨[], near⟩ [] cfg).findings ↔
      ∃ group ∈ near, duplicateRecord xxh3_128 "type2" group = some record := by
  unfold build
  simp [records, highRisks]

/-- Three copies of one statement under other names. -/
def renamedCopies : List DupInput :=
  [⟨⟨["a.rs"]⟩, "a=b;"⟩, ⟨⟨["b.rs"]⟩, "x=y;"⟩, ⟨⟨["c.rs"]⟩, "p=q;"⟩]

/-- The near-duplicate groups of the copies: one for each pair. -/
def renamedPairs (xxh3_128 : List UInt8 → BitVec 128) : List (CloneGroup ℚ) :=
  (analyzePrepared (fun _ => 0) xxh3_128 (.insertion _) (.insertion _) renamedCopies
    (prepare characterFrontend .exact renamedCopies) 4 1 (4 / 5) .strict).2

lemma duplicateRecord_assignGroupFingerprint {xxh3_64 : List UInt8 → UInt64}
    {prepared : List PreparedFile} {inputs : List DupInput} {mode : DuplicationMode}
    {tokens : List Token} (kind : String)
    (htokens : familyTokens prepared inputs group = some tokens)
    (hinstances : group.instances ≠ []) : ∃ record, duplicateRecord xxh3_128 kind
        (assignGroupFingerprint xxh3_64 xxh3_128 kind prepared inputs mode group) = some record ∧
      record.fingerprint = "dup:v1:" ++ hex128
        (xxh3_128 (familyBytes xxh3_64 kind group.format mode tokens)) ∧
      record.metrics = [("copies", (group.instances.length : ℚ)),
        ("removable_lines", (satMul group.lines (group.instances.length - 1) : ℚ)),
        ("tokens", (group.tokens : ℚ)), ("similarity", group.similarity)] := by
  unfold assignGroupFingerprint duplicateRecord
  rw [htokens]
  cases hcases : group.instances with
  | nil => exact absurd hcases hinstances
  | cons primary others =>
    refine ⟨_, rfl, ?_, rfl⟩
    rfl

/-- All pairs of renamed copies are filed under one fingerprint with the same metrics, whatever
the hash. -/
lemma duplicateRecord_renamedPairs (xxh3_128 : List UInt8 → BitVec 128) :
    (renamedPairs xxh3_128).length = 3 ∧
    ∃ fingerprint metrics, ∀ group ∈ renamedPairs xxh3_128, ∃ record,
      duplicateRecord xxh3_128 "type2" group = some record ∧
      record.fingerprint = fingerprint ∧ record.metrics = metrics := by
  unfold renamedPairs analyzePrepared
  dsimp only
  generalize hgroups : filterShort _ _ = groups
  let prepared := prepare characterFrontend .exact renamedCopies
  let bytes := familyBytes (fun _ => 0) "type2" "Rust" .strict (tokensOf prepared 0)
  have hlength : groups.length = 3 := by
    rw [← hgroups]
    decide +kernel
  have hfacts : ∀ group ∈ groups, group.instances.length = 2 ∧ group.lines = 1 ∧
      group.tokens = 4 ∧ group.similarity = 9 / 10 ∧
      (familyTokens prepared renamedCopies group).map
        (familyBytes (fun _ => 0) "type2" group.format .strict) = some bytes := by
    rw [← hgroups]
    decide +kernel
  refine ⟨by rw [length_map, hlength], "dup:v1:" ++ hex128 (xxh3_128 bytes),
    [("copies", 2), ("removable_lines", 1), ("tokens", 4), ("similarity", 9 / 10)], ?_⟩
  intro assigned hassigned
  obtain ⟨group, hmem, rfl⟩ := mem_map.mp hassigned
  obtain ⟨hcopies, hlines, htokens, hsimilarity, hbytes⟩ := hfacts group hmem
  obtain ⟨tokens, hfamily, hbytes⟩ := map_eq_some_iff.mp hbytes
  have hinstances : group.instances ≠ [] := by
    intro h
    rw [h] at hcopies
    cases hcopies
  obtain ⟨record, hrecord, hfingerprint, hmetrics⟩ :=
    duplicateRecord_assignGroupFingerprint "type2" hfamily hinstances
  refine ⟨record, hrecord, ?_, ?_⟩
  · rw [hfingerprint, hbytes]
  · rw [hmetrics, hcopies, hlines, htokens, hsimilarity]
    rfl

/-- A catalog loses the pairs of a family of renamed copies, whatever the hash: the pairs share
one fingerprint, so adding one more of them reports nothing. -/
theorem not_catalogComplete :
    ¬ ∃ xxh3_128 : List UInt8 → BitVec 128, ∀ files before after risks cfg kind group,
      AddsGroup before after kind group →
        CatalogComplete xxh3_128 files before after risks cfg kind group := by
  rintro ⟨xxh3_128, h⟩
  obtain ⟨hlength, fingerprint, metrics, hpairs⟩ := duplicateRecord_renamedPairs xxh3_128
  obtain ⟨added, second, third, hgroups⟩ := length_eq_three.mp hlength
  rw [hgroups] at hpairs
  let before : Duplication := ⟨[], [second, third]⟩
  let after : Duplication := ⟨[], [added, second, third]⟩
  have hadds : AddsGroup before after "type2" added := .near (.refl _) (.refl _)
  obtain ⟨_, _, record, hrecord, change, hchange, _, hcurrent⟩ :=
    h [] before after [] ⟨10⟩ "type2" added hadds
  set earlier := build xxh3_128 [] before [] ⟨10⟩
  set later := build xxh3_128 [] after [] ⟨10⟩
  -- All records of both catalogs agree in fingerprint and metrics.
  have hlater : ∀ record ∈ later.findings,
      record.fingerprint = fingerprint ∧ record.metrics = metrics := by
    intro record hmem
    obtain ⟨group, hgroup, hsome⟩ := mem_build_near.mp hmem
    obtain ⟨other, hother, hfingerprint, hmetrics⟩ := hpairs group hgroup
    rw [some.inj (hsome.symm.trans hother)]
    exact ⟨hfingerprint, hmetrics⟩
  have hearlier : ∀ record ∈ earlier.findings, record ∈ later.findings := by
    intro record hmem
    obtain ⟨group, hgroup, hsome⟩ := mem_build_near.mp hmem
    exact mem_build_near.mpr ⟨group, mem_cons_of_mem _ hgroup, hsome⟩
  have hsecond : fingerprint ∈ fingerprints earlier := by
    obtain ⟨other, hother, hfingerprint, _⟩ := hpairs second (by simp)
    exact List.mem_map.mpr ⟨other, mem_build_near.mpr ⟨second, by simp, hother⟩, hfingerprint⟩
  obtain ⟨previous, hprevious⟩ := isSome_iff_exists.mp (isSome_recordAt.mpr hsecond)
  obtain ⟨_, hprevious_mem⟩ := mem_of_recordAt hprevious
  -- The reported change is about the shared fingerprint, which has not changed.
  have hversions : earlier.version = later.version := rfl
  have hnonzero : earlier.version ≠ 0 := Nat.one_ne_zero
  rw [compare_of_versions hversions hnonzero, mem_sortBy, mem_allChanges_iff] at hchange
  obtain ⟨key, hchange⟩ := hchange
  have hadded : record ∈ later.findings :=
    mem_build_near.mpr ⟨added, mem_cons_self, hrecord⟩
  have hkey : key = fingerprint := by
    rw [← changeFingerprint_of_changeAt hchange, ← (hlater record hadded).1]
    simp [changeFingerprint, changeFinding, hcurrent]
  have hthere : fingerprint ∈ fingerprints later :=
    List.mem_map.mpr ⟨record, hadded, (hlater record hadded).1⟩
  obtain ⟨current, hlatest⟩ := isSome_iff_exists.mp (isSome_recordAt.mpr hthere)
  have hmetrics : previous.metrics = current.metrics :=
    (hlater previous (hearlier previous hprevious_mem)).2.trans
      (hlater current (mem_of_recordAt hlatest).2).2.symm
  rw [hkey, changeAt_of_metrics hprevious hlatest hmetrics] at hchange
  exact some_ne_none change hchange.symm

end Reposcout.Findings
