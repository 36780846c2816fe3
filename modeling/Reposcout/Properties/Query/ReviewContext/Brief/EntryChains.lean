import Reposcout.Properties.Review.Neighborhood
import Reposcout.Query.ReviewContext.Brief.EntryChains

/-!
# Entry chains and shared predecessors

The context has one predecessor for every file, whichever changed file it leads to.  Chains that
are read off it are shortest for every changed file exactly if one of the nearest entries of each
leads to it, and no nearer one leads to it along edges that there are not.
-/

namespace Reposcout.Query.ReviewContext.Brief

open BreadthFirst Graph Review List Option KeyedList ReviewContextFile

/-! ## Chains -/

/-- A chain along the edges: every file imports the next one. -/
def FollowsEdges (edges : List GraphEdge) (chain : List PathBuf) : Prop :=
  chain.IsChain fun importer imported => Review.PathStep edges imported importer

variable {seed : PathBuf}

/-- A chain is as long as a walk against it. -/
lemma FollowsEdges.reachIn {edges : List GraphEdge} {chain : List PathBuf} {start : PathBuf}
    (h : FollowsEdges edges chain) (hstart : chain.head? = some start)
    (hseed : chain.getLast? = some seed) :
    ReachIn (PathStep edges) (· = seed) (chain.length - 1) start := by
  induction chain generalizing start with
  | nil => exact absurd hstart.symm (some_ne_none start)
  | cons first rest ih =>
    obtain rfl : first = start := some.inj hstart
    cases rest with
    | nil =>
      obtain rfl : first = seed := some.inj hseed
      exact .refl rfl
    | cons second rest =>
      obtain ⟨hstep, hrest⟩ := isChain_cons_cons.mp h
      have hbelow := ih hrest rfl (by rw [← hseed, getLast?_cons_cons])
      exact hbelow.tail hstep

/-- The stored predecessors of a file, down to a changed one. -/
inductive Leads (head : List (PathBuf × ReviewContextFile)) : PathBuf → List PathBuf → Prop
  | stop {path : PathBuf} {file : ReviewContextFile} :
    get? path head = some file → file.distance = 0 → Leads head path [path]
  | step {path via : PathBuf} {file next : ReviewContextFile} {rest : List PathBuf} :
    get? path head = some file → file.distance ≠ 0 → file.via = some via →
    get? via head = some next → next.distance < file.distance → Leads head via rest →
    Leads head path (path :: rest)

section

variable {head : List (PathBuf × ReviewContextFile)} {path : PathBuf} {chain : List PathBuf}
variable (h : Leads head path chain)

include h

lemma Leads.head?_eq : chain.head? = some path := by
  cases h with
  | stop => rfl
  | step => rfl

variable {file : ReviewContextFile}

lemma Leads.length_le (hfile : get? path head = some file) : chain.length ≤ file.distance + 1 := by
  induction h generalizing file with
  | stop => exact Nat.le_add_left _ _
  | step hown _ _ hnext hlt _ ih =>
    cases hown.symm.trans hfile
    have hle := ih hnext
    rw [length_cons]
    omega

lemma Leads.last (hseed : chain.getLast? = some seed) :
    ∃ file, get? seed head = some file ∧ file.distance = 0 := by
  induction h with
  | stop hfile hzero =>
    rw [← some.inj hseed]
    exact ⟨_, hfile, hzero⟩
  | step _ _ _ _ _ hrest ih =>
    apply ih
    cases hrest with
    | stop => exact hseed
    | step => exact hseed

lemma Leads.unique {other : List PathBuf} (hother : Leads head path other) : chain = other := by
  induction h generalizing other with
  | stop hfile hzero =>
    cases hother with
    | stop => rfl
    | step hfile' hne =>
      rw [some.inj (hfile'.symm.trans hfile)] at hne
      exact absurd hzero hne
  | step hfile hne hvia _ _ _ ih =>
    cases hother with
    | stop hfile' hzero =>
      rw [some.inj (hfile'.symm.trans hfile)] at hzero
      exact absurd hzero hne
    | step hfile' _ hvia' _ _ hrest' =>
      rw [some.inj (hfile'.symm.trans hfile)] at hvia'
      rw [some.inj (hvia'.symm.trans hvia)] at hrest'
      rw [ih hrest']

omit h

lemma leads_iff_of_zero (hfile : get? path head = some file)
    (hzero : file.distance = 0) : Leads head path chain ↔ chain = [path] := by
  constructor
  · intro h
    exact h.unique (.stop hfile hzero)
  · rintro rfl
    exact .stop hfile hzero

/-- Any other file leads where its predecessor does, if this one is nearer. -/
lemma leads_iff_of_ne_zero (hfile : get? path head = some file) (hne : file.distance ≠ 0) :
    Leads head path chain ↔ ∃ via next rest, file.via = some via ∧
      get? via head = some next ∧ next.distance < file.distance ∧
      Leads head via rest ∧ chain = path :: rest := by
  constructor
  · intro h
    cases h with
    | stop hfile' hzero =>
      rw [some.inj (hfile'.symm.trans hfile)] at hzero
      exact absurd hzero hne
    | step hfile' _ hvia hnext hlt hrest =>
      cases hfile'.symm.trans hfile
      exact ⟨_, _, _, hvia, hnext, hlt, hrest, rfl⟩
  · rintro ⟨via, next, rest, hvia, hnext, hlt, hrest, rfl⟩
    exact .step hfile hne hvia hnext hlt hrest

variable (hkeys : ∀ path file, get? path head = some file → file.path = path)

include hkeys

/-- **Following the predecessors** ends at distance zero exactly if they lead there. -/
lemma follow_spec (hfile : get? path head = some file) {bound : ℕ}
    (hbound : file.distance ≤ bound) :
    Leads head path chain ↔ (follow head bound file).1.distance = 0 ∧
      chain = path :: (follow head bound file).2 := by
  induction bound generalizing path file chain with
  | zero =>
    have hzero : file.distance = 0 := Nat.le_zero.mp hbound
    rw [leads_iff_of_zero hfile hzero, follow, and_iff_right hzero]
  | succ bound ih =>
    rw [follow]
    by_cases hzero : file.distance = 0
    · rw [leads_iff_of_zero hfile hzero, if_pos hzero, and_iff_right hzero]
    · rw [leads_iff_of_ne_zero hfile hzero, if_neg hzero]
      cases hvia : file.via.bind fun via => get? via head with
      | none =>
        refine iff_of_false ?_ fun h => hzero h.1
        rintro ⟨via, next, -, hown, hnext, -⟩
        rw [hown, bind_some, hnext] at hvia
        exact absurd hvia (some_ne_none next)
      | some next =>
        obtain ⟨via, hown, hnext⟩ := bind_eq_some_iff.mp hvia
        dsimp only
        split_ifs with hle
        · refine iff_of_false ?_ fun h => hzero h.1
          rintro ⟨via', next', -, hown', hnext', hlt, -⟩
          cases hown.symm.trans hown'
          cases hnext.symm.trans hnext'
          omega
        · have hrest : ∀ chain, Leads head via chain ↔ (follow head bound next).1.distance = 0 ∧
              chain = via :: (follow head bound next).2 := fun chain => ih hnext (by omega)
          rw [hkeys via next hnext]
          constructor
          · rintro ⟨via', next', rest, hown', hnext', -, hleads, rfl⟩
            cases hown.symm.trans hown'
            obtain ⟨hend, rfl⟩ := (hrest rest).mp hleads
            exact ⟨hend, rfl⟩
          · rintro ⟨hend, rfl⟩
            exact ⟨via, next, _, hown, hnext, by omega, (hrest _).mpr ⟨hend, rfl⟩, rfl⟩

lemma chainOf_eq_some_iff (hfile : get? path head = some file) :
    chainOf head file = some (seed, chain) ↔ Leads head path (chain ++ [seed]) := by
  rw [follow_spec hkeys hfile (Nat.le_refl _), chainOf, hkeys path file hfile]
  have hne : path :: (follow head file.distance file).2 ≠ [] := cons_ne_nil _ _
  split_ifs with hend
  · rw [and_iff_right hend, some.injEq, Prod.mk.injEq]
    constructor
    · rintro ⟨hseed, rfl⟩
      rw [← hseed, getLastD_eq_getLast?, getLast?_eq_some_getLast hne, getD_some]
      exact dropLast_append_getLast hne
    · intro hchain
      rw [← hchain]
      exact ⟨by simp, by simp⟩
  · exact iff_of_false id fun h => hend h.1

end

/-! ## What is read off -/

section

variable {relations : List ReviewContextRelation} {context : List ReviewContextFile} {file :
      ReviewContextFile}

lemma headFiles_path {path : PathBuf} (h : get? path (headFiles context) = some file) :
    file.path = path :=
  (mem_of_get?_indexBy h).1

def StartsChain (relations : List ReviewContextRelation) (context : List ReviewContextFile)
    (path : PathBuf) : Prop :=
  ∃ file, get? path (headFiles context) = some file ∧ isEntry relations context file

/-- The files that chains are read off, in the order of their paths. -/
def candidateFiles (relations : List ReviewContextRelation) (context : List ReviewContextFile) :
    List ReviewContextFile :=
  (sortBy (compareOn ReviewContextFile.path)
    ((headFiles context).map Prod.snd)).filter (isEntry relations context)

lemma mem_candidateFiles : file ∈ candidateFiles relations context ↔
      get? file.path (headFiles context) = some file ∧
        isEntry relations context file := by
  rw [candidateFiles, mem_filter, mem_sortBy, List.mem_map]
  refine and_congr_left' ⟨?_, fun h => ⟨_, mem_of_get? h, rfl⟩⟩
  rintro ⟨entry, hentry, rfl⟩
  have hget := get?_of_mem (nodup_keys_indexBy _ _) hentry
  rw [headFiles_path hget]
  exact hget

lemma pairwise_candidateFiles (relations : List ReviewContextRelation)
    (context : List ReviewContextFile) :
    (candidateFiles relations context).Pairwise fun a b => compare a.path b.path ≠ .gt := by
  exact (pairwise_sortBy (compareOn path) _).filter _

/-- The chains in front of their seeds. -/
def nearestChains (relations : List ReviewContextRelation) (context : List ReviewContextFile) :
    List (PathBuf × List PathBuf) :=
  (candidateFiles relations context).foldl
    (keepSmallest List.length (chainOf (headFiles context))) []

lemma nodup_keys_nearestChains : (keys (nearestChains relations context)).Nodup :=
  foldlRecOn (motive := fun m : List (PathBuf × List PathBuf) => (keys m).Nodup) _ _
    nodup_nil fun _ h file _ => nodup_keys_keepSmallest h file

/-- **A seed has the first of the shortest chains** of the candidates that lead to it. -/
lemma nearestChains_some {chain : List PathBuf}
    (h : get? seed (nearestChains relations context) = some chain) :
    ∃ path, StartsChain relations context path ∧ Leads (headFiles context) path (chain ++ [seed]) ∧
      ∀ other chain', StartsChain relations context other →
        Leads (headFiles context) other (chain' ++ [seed]) →
        chain.length < chain'.length ∨
          (chain.length = chain'.length ∧ compare path other ≠ .gt) := by
  obtain ⟨front, file, back, hsplit, hpick, hfront, hback⟩ :=
    (get?_foldl_keepSmallest _ _ _ seed).1 chain h
  have hfile := mem_candidateFiles.mp (hsplit ▸ mem_append_right front mem_cons_self)
  have hkeys : ∀ path file, get? path (headFiles context) = some file →
      file.path = path := fun _ _ => headFiles_path
  refine ⟨file.path, ⟨file, hfile⟩, (chainOf_eq_some_iff hkeys hfile.1).mp hpick, ?_⟩
  rintro other chain' ⟨file', hget', hentry'⟩ hleads
  have hpick' := (chainOf_eq_some_iff hkeys hget').mpr hleads
  obtain rfl := headFiles_path hget'
  have hmem : file' ∈ candidateFiles relations context := mem_candidateFiles.mpr ⟨hget', hentry'⟩
  rw [hsplit, mem_append, mem_cons] at hmem
  rcases hmem with hmem | rfl | hmem
  · exact .inl (hfront file' hmem chain' hpick')
  · right
    rw [Prod.mk.inj (some.inj (hpick.symm.trans hpick')) |>.2]
    exact ⟨rfl, by simp⟩
  · rcases (hback file' hmem chain' hpick').lt_or_eq with hlt | heq
    · exact .inl hlt
    · have hsorted := (pairwise_append.mp
        (hsplit ▸ pairwise_candidateFiles relations context)).2.1
      exact .inr ⟨heq, (pairwise_cons.mp hsorted).1 file' hmem⟩

lemma nearestChains_none (h : get? seed (nearestChains relations context) = none) {path : PathBuf}
    (hpath : StartsChain relations context path) (chain : List PathBuf) :
    ¬Leads (headFiles context) path (chain ++ [seed]) := by
  obtain ⟨file, hget, hentry⟩ := hpath
  intro hleads
  have hkeys : ∀ path file, get? path (headFiles context) = some file →
      file.path = path := fun _ _ => headFiles_path
  have hpick := (chainOf_eq_some_iff hkeys hget).mpr hleads
  obtain rfl := headFiles_path hget
  exact (get?_foldl_keepSmallest _ _ _ seed).2 h file
    (mem_candidateFiles.mpr ⟨hget, hentry⟩) chain hpick

lemma filter_key {m : List (PathBuf × List PathBuf)} (h : (keys m).Nodup)
    (seed : PathBuf) :
    m.filter (fun entry => entry.1 = seed) =
      ((get? seed m).map fun chain => (seed, chain)).toList := by
  induction m with
  | nil => rfl
  | cons entry rest ih =>
    obtain ⟨hnew, hrest⟩ := nodup_cons.mp h
    by_cases hkey : entry.1 = seed
    · subst hkey
      have hnone : get? entry.1 rest = none := get?_eq_none_iff.mpr hnew
      rw [filter_cons_of_pos (by simp), ih hrest, hnone, get?, if_pos rfl]
      rfl
    · rw [filter_cons_of_neg (by simpa using hkey), ih hrest, get?, if_neg hkey]

lemma filter_entryChains (relations : List ReviewContextRelation)
    (context : List ReviewContextFile) (seed : PathBuf) :
    (entryChains relations context).filter (fun chain => chain.getLast? = some seed) =
      ((get? seed (nearestChains relations context)).map fun chain =>
        chain ++ [seed]).toList := by
  have hperm := sortBy_perm (compareOn Prod.fst) (nearestChains relations context)
  have hlast : ((fun chain : List PathBuf => decide (chain.getLast? = some seed)) ∘
      fun entry : PathBuf × List PathBuf => entry.2 ++ [entry.1]) =
        fun entry => decide (entry.1 = seed) := by
    funext entry
    simp
  have hfilter := (hperm.filter fun entry => entry.1 = seed)
  rw [filter_key nodup_keys_nearestChains] at hfilter
  change (List.map _ (sortBy _ (nearestChains relations context))).filter _ = _
  rw [List.filter_map, hlast]
  cases hget : get? seed (nearestChains relations context) with
  | none =>
    rw [hget] at hfilter
    rw [hfilter.eq_nil]
    rfl
  | some chain =>
    rw [hget] at hfilter
    rw [perm_singleton.mp hfilter]
    rfl

end

/-! ## Shortest chains -/

def IsNeighborhood (seeds : List PathBuf) (edges : List GraphEdge)
    (context : List ReviewContextFile) : Prop :=
  ∀ path, ((get? path (headFiles context)).map fun file =>
      (file.roles, file.distance, file.via)) =
    (get? path (neighborhood seeds edges)).map fun candidate =>
      (candidate.roles, candidate.distance, candidate.via)

/-- A dependent of a changed file at a distance of its own, neither a test nor imported by another
file than tests. -/
structure ChainEntry (edges : List GraphEdge) (relations : List ReviewContextRelation)
    (context : List ReviewContextFile) (seed : PathBuf) (distance : ℕ) (path : PathBuf) :
    Prop where
  shortest : Shortest (Review.PathStep edges) (· = seed) distance path
  two_le : 2 ≤ distance
  le_max : distance ≤ maxChainDistance
  notTest : isTestPath context path = false
  notImported : path ∉ importedPaths relations context

/-- A chain along the edges from an entry down to a changed file. -/
structure IsEntryChain (edges : List GraphEdge) (relations : List ReviewContextRelation)
    (context : List ReviewContextFile) (seed : PathBuf) (chain : List PathBuf) : Prop where
  follows : FollowsEdges edges chain
  last : chain.getLast? = some seed
  first : ∃ path distance, chain.head? = some path ∧
    ChainEntry edges relations context seed distance path

structure ChainsComplete (seeds : List PathBuf) (edges : List GraphEdge)
    (relations : List ReviewContextRelation) (context : List ReviewContextFile)
    (chains : List (List PathBuf)) : Prop where
  one : ∀ seed ∈ seeds, (∃ distance path, ChainEntry edges relations context seed distance path) →
    ∃ chain, chains.filter (fun chain => chain.getLast? = some seed) = [chain] ∧
      IsEntryChain edges relations context seed chain ∧
      ∀ other, IsEntryChain edges relations context seed other → chain.length ≤ other.length
  none : ∀ seed, (seed ∈ seeds →
      ¬∃ distance path, ChainEntry edges relations context seed distance path) →
    chains.filter (fun chain => chain.getLast? = some seed) = []

/-- The predecessors of the context are enough: of the nearest entries of a changed file one leads
to it along edges, and so does one in front of every candidate that does not. -/
structure PredecessorsSuffice (seeds : List PathBuf) (edges : List GraphEdge)
    (relations : List ReviewContextRelation) (context : List ReviewContextFile) : Prop where
  nearest : ∀ seed ∈ seeds,
    (∃ distance path, ChainEntry edges relations context seed distance path) →
    ∃ distance path, ChainEntry edges relations context seed distance path ∧
      (∀ distance' path', ChainEntry edges relations context seed distance' path' →
        distance ≤ distance') ∧
      ∃ chain, Leads (headFiles context) path chain ∧ chain.getLast? = some seed ∧
        FollowsEdges edges chain
  detours : ∀ path chain seed, StartsChain relations context path →
    Leads (headFiles context) path chain → chain.getLast? = some seed →
    ¬FollowsEdges edges chain → ∃ path' chain', StartsChain relations context path' ∧
      Leads (headFiles context) path' chain' ∧ chain'.getLast? = some seed ∧
      FollowsEdges edges chain' ∧ (chain'.length < chain.length ∨
        (chain'.length = chain.length ∧ compare path' path = .lt))

section

variable {seeds : List PathBuf} {edges : List GraphEdge} {relations : List ReviewContextRelation}
  {context : List ReviewContextFile}

lemma IsNeighborhood.distances (h : IsNeighborhood seeds edges context) (hnodup : seeds.Nodup) :
    (∀ path d, Shortest (PathStep edges) (· ∈ seeds) d path →
      ∃ file, get? path (headFiles context) = some file ∧ file.distance ≤ d) ∧
    (∀ path file, get? path (headFiles context) = some file → file.distance = 0 → path ∈ seeds) ∧
    ∀ path file d, get? path (headFiles context) = some file →
      Shortest (PathStep edges) (· ∈ seeds) d path → 1 < d →
        "transitive-dependent" ∈ file.roles := by
  obtain ⟨hknown, hzero⟩ := neighborhood_distances edges hnodup
  have hview : ∀ path file, get? path (headFiles context) = some file →
      ∃ candidate, get? path (neighborhood seeds edges) = some candidate ∧
        candidate.roles = file.roles ∧ candidate.distance = file.distance := by
    intro path file hfile
    have hsame := (h path).symm
    rw [hfile, map_some, map_eq_some_iff] at hsame
    obtain ⟨candidate, hcandidate, hsame⟩ := hsame
    exact ⟨candidate, hcandidate, (Prod.mk.inj hsame).1, (Prod.mk.inj (Prod.mk.inj hsame).2).1⟩
  refine ⟨?_, ?_, ?_⟩
  · intro path d hd
    obtain ⟨candidate, hcandidate, hle⟩ := hknown path d hd
    have hsame := h path
    rw [hcandidate, map_some, map_eq_some_iff] at hsame
    obtain ⟨file, hfile, hsame⟩ := hsame
    refine ⟨file, hfile, ?_⟩
    rw [(Prod.mk.inj (Prod.mk.inj hsame).2).1]
    exact hle
  · intro path file hfile hdistance
    obtain ⟨candidate, hcandidate, -, hsame⟩ := hview path file hfile
    exact hzero path candidate hcandidate (hsame.trans hdistance)
  · intro path file d hfile hd hlt
    obtain ⟨candidate, hcandidate, hroles, -⟩ := hview path file hfile
    obtain ⟨found, hfound, hrole⟩ := (hasRole_neighborhood_iff hnodup path).2.mpr ⟨d, hlt, hd⟩
    cases hcandidate.symm.trans hfound
    rw [← hroles]
    exact hrole

variable {path : PathBuf}

/-- Walks have a shortest one among them. -/
lemma exists_shortest {start : PathBuf → Prop} {n : ℕ}
    (h : ReachIn (PathStep edges) start n path) :
    ∃ d, Shortest (PathStep edges) start d path ∧ d ≤ n := by
  classical
  have hex : ∃ m, ReachIn (PathStep edges) start m path := ⟨n, h⟩
  exact ⟨Nat.find hex, ⟨Nat.find_spec hex, fun m hm => Nat.find_min' hex hm⟩, Nat.find_min' hex h⟩

lemma reachIn_mono {start start' : PathBuf → Prop} (hstart : ∀ v, start v → start' v) {n : ℕ}
    (h : ReachIn (PathStep edges) start n path) :
    ReachIn (PathStep edges) start' n path := by
  induction h with
  | refl h => exact .refl (hstart _ h)
  | tail _ hstep ih => exact ih.tail hstep

variable {chain : List PathBuf}

/-- Predecessors along edges are as many as the distance, from their own seed as from all. -/
lemma IsNeighborhood.chain_length (h : IsNeighborhood seeds edges context) (hnodup : seeds.Nodup)
    (hleads : Leads (headFiles context) path chain) (hseed : chain.getLast? = some seed)
    (hfollows : FollowsEdges edges chain) :
    seed ∈ seeds ∧ ∃ file, get? path (headFiles context) = some file ∧
      chain.length = file.distance + 1 ∧
      Shortest (PathStep edges) (· = seed) file.distance path ∧
      Shortest (PathStep edges) (· ∈ seeds) file.distance path := by
  obtain ⟨hknown, hzero, -⟩ := h.distances hnodup
  obtain ⟨last, hlast, hdistance⟩ := hleads.last hseed
  have hmem := hzero seed last hlast hdistance
  have hreach := hfollows.reachIn hleads.head?_eq hseed
  have hall : ∀ m, ReachIn (PathStep edges) (· = seed) m path →
      ReachIn (PathStep edges) (· ∈ seeds) m path := fun m hm =>
    reachIn_mono (fun v hv => hv ▸ hmem) hm
  obtain ⟨d, hd, hdle⟩ := exists_shortest (hall _ hreach)
  obtain ⟨file, hfile, hle⟩ := hknown path d hd
  have hlength := hleads.length_le hfile
  have hpos : 0 < chain.length := by
    cases hleads with
    | stop => exact Nat.one_pos
    | step => exact Nat.succ_pos _
  obtain rfl : d = file.distance := by omega
  have hsame : chain.length - 1 = file.distance := by omega
  rw [hsame] at hreach
  exact ⟨hmem, file, hfile, by omega, ⟨hreach, fun m hm => hd.2 m (hall m hm)⟩, hd⟩

variable {file : ReviewContextFile}

lemma isEntry_iff : isEntry relations context file = true ↔ 2 ≤ file.distance ∧
      file.distance ≤ maxChainDistance ∧ file.testEvidence = [] ∧
      file.path ∉ importedPaths relations context ∧
      ∃ role ∈ file.roles, "dependent".toList.isSuffixOf role.toList := by
  simp only [isEntry, Bool.not_eq_true', Bool.or_eq_false_iff, decide_eq_false_iff_not, Nat.not_lt,
    Bool.not_eq_false', List.isEmpty_iff, contains_eq_mem, List.any_eq_true, and_assoc]

lemma isTestPath_eq_false_iff (hfile : get? path (headFiles context) = some file) :
    isTestPath context path = false ↔ file.testEvidence = [] := by
  rw [isTestPath, hfile]
  simp

lemma IsNeighborhood.entry (h : IsNeighborhood seeds edges context) (hnodup : seeds.Nodup)
    (hpath : StartsChain relations context path) (hleads : Leads (headFiles context) path chain)
    (hseed : chain.getLast? = some seed) (hfollows : FollowsEdges edges chain) :
    seed ∈ seeds ∧ ∃ distance, chain.length = distance + 1 ∧
      ChainEntry edges relations context seed distance path := by
  obtain ⟨hmem, file, hfile, hlength, hshortest, -⟩ :=
    h.chain_length hnodup hleads hseed hfollows
  obtain ⟨file', hfile', hentry⟩ := hpath
  cases hfile.symm.trans hfile'
  obtain ⟨htwo, hmax, htest, himported, -⟩ := isEntry_iff.mp hentry
  rw [headFiles_path hfile] at himported
  exact ⟨hmem, file.distance, hlength, hshortest, htwo, hmax,
    (isTestPath_eq_false_iff hfile).mpr htest, himported⟩

lemma IsNeighborhood.candidate (h : IsNeighborhood seeds edges context) (hnodup : seeds.Nodup)
    {distance : ℕ} (hentry : ChainEntry edges relations context seed distance path)
    (hleads : Leads (headFiles context) path chain) (hseed : chain.getLast? = some seed)
    (hfollows : FollowsEdges edges chain) :
    StartsChain relations context path ∧ chain.length = distance + 1 := by
  obtain ⟨-, file, hfile, hlength, hshortest, hall⟩ := h.chain_length hnodup hleads hseed hfollows
  obtain rfl := hentry.shortest.unique hshortest
  have hrole := (h.distances hnodup).2.2 path file file.distance hfile hall
    (Nat.lt_of_lt_of_le Nat.one_lt_two hentry.two_le)
  refine ⟨⟨file, hfile, isEntry_iff.mpr ⟨hentry.two_le, hentry.le_max, ?_, ?_, ?_⟩⟩, hlength⟩
  · exact (isTestPath_eq_false_iff hfile).mp hentry.notTest
  · rw [headFiles_path hfile]
    exact hentry.notImported
  · exact ⟨_, hrole, by decide⟩

lemma IsEntryChain.exists_le (h : IsEntryChain edges relations context seed chain) :
    ∃ path distance, ChainEntry edges relations context seed distance path ∧
      distance + 1 ≤ chain.length := by
  obtain ⟨path, distance, hpath, hentry⟩ := h.first
  have hle := hentry.shortest.2 _ (h.follows.reachIn hpath h.last)
  have htwo := hentry.two_le
  exact ⟨path, distance, hentry, by omega⟩

/-- A shortest walk, read backwards, is an entry chain. -/
lemma exists_isEntryChain {distance : ℕ}
    (h : ChainEntry edges relations context seed distance path) :
    ∃ chain, IsEntryChain edges relations context seed chain ∧ chain.length = distance + 1 := by
  have hwalk : ∀ n v, ReachIn (PathStep edges) (· = seed) n v → ∃ chain,
      FollowsEdges edges chain ∧ chain.head? = some v ∧ chain.getLast? = some seed ∧
      chain.length = n + 1 := by
    intro n v hreach
    induction hreach with
    | refl hv =>
      subst hv
      exact ⟨[_], isChain_singleton _, rfl, rfl, rfl⟩
    | @tail n v w _ hstep ih =>
      obtain ⟨chain, hfollows, hhead, hlast, hlength⟩ := ih
      obtain ⟨rest, rfl⟩ := head?_eq_some_iff.mp hhead
      refine ⟨w :: v :: rest, isChain_cons_cons.mpr ⟨hstep, hfollows⟩, rfl, ?_, ?_⟩
      · rw [getLast?_cons_cons, hlast]
      · rw [length_cons, hlength]
  obtain ⟨chain, hfollows, hhead, hlast, hlength⟩ := hwalk distance path h.shortest.1
  exact ⟨chain, ⟨hfollows, hlast, path, distance, hhead, h⟩, hlength⟩

lemma nearestChains_first {front : List PathBuf}
    (h : get? seed (nearestChains relations context) = some front) :
    ∃ path, StartsChain relations context path ∧ Leads (headFiles context) path (front ++ [seed]) ∧
      ∀ other chain, StartsChain relations context other → Leads (headFiles context) other chain →
        chain.getLast? = some seed → (front ++ [seed]).length < chain.length ∨
          ((front ++ [seed]).length = chain.length ∧ compare path other ≠ .gt) := by
  obtain ⟨path, hpath, hleads, hfirst⟩ := nearestChains_some h
  refine ⟨path, hpath, hleads, fun other chain hother hchain hseed => ?_⟩
  obtain ⟨rest, rfl⟩ := getLast?_eq_some_iff.mp hseed
  rw [length_append, length_append]
  rcases hfirst other rest hother hchain with hlt | ⟨heq, hle⟩
  · exact .inl (Nat.add_lt_add_right hlt 1)
  · exact .inr ⟨by rw [heq], hle⟩

/-- With enough predecessors every chain that is read off runs along edges. -/
lemma PredecessorsSuffice.follows (h : PredecessorsSuffice seeds edges relations context)
    {front : List PathBuf}
    (hget : get? seed (nearestChains relations context) = some front) :
    FollowsEdges edges (front ++ [seed]) := by
  obtain ⟨path, hpath, hleads, hfirst⟩ := nearestChains_first hget
  by_contra hdetour
  obtain ⟨path', chain', hpath', hleads', hseed', -, hbetter⟩ :=
    h.detours path _ seed hpath hleads (by simp) hdetour
  have hbehind := hfirst path' chain' hpath' hleads' hseed'
  rcases hbetter with hlt | ⟨heq, hlt⟩
  · omega
  · rcases hbehind with hlt' | ⟨-, hle⟩
    · omega
    · exact hle (Std.OrientedCmp.gt_of_lt hlt)

/-- **The chains of a brief** are complete exactly if the predecessors of the context are
enough. -/
theorem entryChains_complete_iff (hnodup : seeds.Nodup) (h : IsNeighborhood seeds edges context) :
    ChainsComplete seeds edges relations context (entryChains relations context) ↔
      PredecessorsSuffice seeds edges relations context := by
  constructor
  · intro hcomplete
    have hchain : ∀ {seed front}, get? seed (nearestChains relations context) = some front →
        IsEntryChain edges relations context seed (front ++ [seed]) ∧
          ∀ other, IsEntryChain edges relations context seed other →
            (front ++ [seed]).length ≤ other.length := by
      intro seed front hget
      have hfilter := filter_entryChains relations context seed
      rw [hget, map_some, toList_some] at hfilter
      by_cases hex : seed ∈ seeds ∧
          ∃ distance path, ChainEntry edges relations context seed distance path
      · obtain ⟨chain, hone, hchain⟩ := hcomplete.one seed hex.1 hex.2
        obtain rfl := singleton_inj.mp (hfilter.symm.trans hone)
        exact hchain
      · have hnone := hcomplete.none seed fun hmem hentry => hex ⟨hmem, hentry⟩
        exact absurd (hfilter.symm.trans hnone) (cons_ne_nil _ _)
    constructor
    · intro seed hmem hex
      obtain ⟨chain, hone, -⟩ := hcomplete.one seed hmem hex
      rw [filter_entryChains] at hone
      cases hget : get? seed (nearestChains relations context) with
      | none =>
        rw [hget] at hone
        cases hone.symm
      | some front =>
        obtain ⟨hentries, hshortest⟩ := hchain hget
        obtain ⟨path, hpath, hleads, -⟩ := nearestChains_first hget
        obtain ⟨-, distance, hlength, hentry⟩ :=
          h.entry hnodup hpath hleads hentries.last hentries.follows
        refine ⟨distance, path, hentry, ?_, _, hleads, hentries.last, hentries.follows⟩
        intro distance' path' hentry'
        obtain ⟨other, hother, hlength'⟩ := exists_isEntryChain hentry'
        have hle := hshortest other hother
        omega
    · intro path chain seed hpath hleads hseed hdetour
      cases hget : get? seed (nearestChains relations context) with
      | none =>
        obtain ⟨rest, rfl⟩ := getLast?_eq_some_iff.mp hseed
        exact absurd hleads (nearestChains_none hget hpath rest)
      | some front =>
        obtain ⟨hentries, -⟩ := hchain hget
        obtain ⟨first, hfirst, hown, hbefore⟩ := nearestChains_first hget
        refine ⟨first, _, hfirst, hown, hentries.last, hentries.follows, ?_⟩
        rcases hbefore path chain hpath hleads hseed with hlt | ⟨heq, hle⟩
        · exact .inl hlt
        · right
          refine ⟨heq, ?_⟩
          cases hcompare : compare first path with
          | lt => rfl
          | gt => exact absurd hcompare hle
          | eq =>
            obtain rfl := compare_eq_iff_eq.mp hcompare
            rw [← hown.unique hleads] at hdetour
            exact absurd hentries.follows hdetour
  · intro hsuffice
    have hchain : ∀ {seed front}, get? seed (nearestChains relations context) = some front →
        seed ∈ seeds ∧ IsEntryChain edges relations context seed (front ++ [seed]) := by
      intro seed front hget
      obtain ⟨path, hpath, hleads, -⟩ := nearestChains_first hget
      have hfollows := hsuffice.follows hget
      have hseed : (front ++ [seed]).getLast? = some seed := by simp
      obtain ⟨hmem, distance, -, hentry⟩ := h.entry hnodup hpath hleads hseed hfollows
      exact ⟨hmem, hfollows, hseed, path, distance, hleads.head?_eq, hentry⟩
    constructor
    · intro seed hmem hex
      obtain ⟨distance, path, hentry, hnearest, chain, hleads, hseed, hfollows⟩ :=
        hsuffice.nearest seed hmem hex
      obtain ⟨hpath, hlength⟩ := h.candidate hnodup hentry hleads hseed hfollows
      cases hget : get? seed (nearestChains relations context) with
      | none =>
        obtain ⟨rest, rfl⟩ := getLast?_eq_some_iff.mp hseed
        exact absurd hleads (nearestChains_none hget hpath rest)
      | some front =>
        refine ⟨front ++ [seed], ?_, (hchain hget).2, fun other hother => ?_⟩
        · rw [filter_entryChains, hget]
          rfl
        · obtain ⟨_, _, _, hbefore⟩ := nearestChains_first hget
          have hbefore := hbefore path chain hpath hleads hseed
          obtain ⟨path', distance', hentry', hle⟩ := hother.exists_le
          have hle' := hnearest distance' path' hentry'
          omega
    · intro seed hnone
      rw [filter_entryChains]
      cases hget : get? seed (nearestChains relations context) with
      | none => rfl
      | some front =>
        obtain ⟨hmem, hentries⟩ := hchain hget
        obtain ⟨path, distance, -, hentry⟩ := hentries.first
        exact absurd ⟨distance, path, hentry⟩ (hnone hmem)

end

/-! ## Two contexts -/

/-- The context of the head as `describe` makes it from the neighborhood, with what makes a file a
test. -/
def describe (tests : PathBuf → List String) (seeds : List PathBuf) (edges : List GraphEdge) :
    List ReviewContextFile :=
  (neighborhood seeds edges).map fun entry =>
    ⟨"head", entry.1, entry.2.roles, entry.2.distance, entry.2.via, tests entry.1⟩

lemma isNeighborhood_describe (tests : PathBuf → List String) {seeds : List PathBuf}
    (hnodup : seeds.Nodup) (edges : List GraphEdge) :
    IsNeighborhood seeds edges (describe tests seeds edges) := by
  have hkept : KeptByEntering fun s => (keys s.candidates).Nodup :=
    fun _ _ _ _ hs _ _ => nodup_keys_alter hs
  have hstart : (keys (seedNeighborhood seeds edges).candidates).Nodup := by
    refine List.foldlRecOn (motive := fun s : NeighborhoodState =>
      (keys s.candidates).Nodup) seeds _ ?_ fun _ hs _ _ => nodup_keys_alter hs
    refine List.foldlRecOn (motive := fun candidates : List (PathBuf × Review.Candidate) =>
      (keys candidates).Nodup) edges _ nodup_nil fun _ hs _ _ => ?_
    split_ifs
    · exact nodup_keys_alter hs
    · exact hs
  have hkeys : (keys (neighborhood seeds edges)).Nodup :=
    (neighborhoodSearch_keeps hkept edges hnodup hstart).2.1
  have hpaths : ((describe tests seeds edges).map ReviewContextFile.path).Nodup := by
    rw [describe, List.map_map]
    exact hkeys
  have hhead : (describe tests seeds edges).filter (fun file => file.side = "head") =
      describe tests seeds edges := by
    rw [filter_eq_self]
    intro file hfile
    obtain ⟨entry, -, rfl⟩ := List.mem_map.mp hfile
    rfl
  intro path
  rw [headFiles, hhead]
  cases hget : get? path (neighborhood seeds edges) with
  | none =>
    have hnone : ¬(get? path
        (indexBy ReviewContextFile.path (describe tests seeds edges))).isSome := by
      rw [isSome_get?_indexBy, describe, List.map_map]
      exact get?_eq_none_iff.mp hget
    rw [not_isSome_iff_eq_none.mp hnone]
    rfl
  | some candidate =>
    have hmem := List.mem_map_of_mem (f := fun entry : PathBuf × Review.Candidate =>
      (⟨"head", entry.1, entry.2.roles, entry.2.distance, entry.2.via, tests entry.1⟩ :
        ReviewContextFile)) (mem_of_get? hget)
    have hfound := get?_indexBy_of_mem hpaths hmem
    rw [hfound]
    rfl

def importRelations (edges : List GraphEdge) : List ReviewContextRelation :=
  edges.map fun edge => ⟨"head", "import", edge, none, none, none⟩

/-- A file, a module that imports it, and a program that imports the module. -/
theorem entryChains_complete_iff_single :
    let edges : List GraphEdge :=
      [⟨"module.rs", "a.rs", "exact"⟩, ⟨"main.rs", "module.rs", "exact"⟩]
    let context := describe (fun _ => []) [.ofString "a.rs"] edges
    let chains := entryChains (importRelations edges) context
    chains = [[.ofString "main.rs", .ofString "module.rs", .ofString "a.rs"]] ∧
      (ChainsComplete [.ofString "a.rs"] edges (importRelations edges) context chains ↔
        PredecessorsSuffice [.ofString "a.rs"] edges (importRelations edges) context) :=
  ⟨by decide +kernel, entryChains_complete_iff (nodup_singleton _)
    (isNeighborhood_describe _ (nodup_singleton _) _)⟩

/-- **Shared dependents**: of two changed files that one module imports, only the first has a
chain to the program that imports the module. -/
theorem entryChains_shared :
    ¬ ∀ (seeds : List PathBuf) (edges : List GraphEdge) (relations : List ReviewContextRelation)
      (context : List ReviewContextFile), seeds.Nodup → IsNeighborhood seeds edges context →
        ChainsComplete seeds edges relations context (entryChains relations context) := by
  intro h
  let edges : List GraphEdge := [⟨"module.rs", "a.rs", "exact"⟩, ⟨"module.rs", "b.rs", "exact"⟩,
    ⟨"main.rs", "module.rs", "exact"⟩]
  let seeds : List PathBuf := [.ofString "a.rs", .ofString "b.rs"]
  have hnodup : seeds.Nodup := by decide +kernel
  let context := describe (fun _ => []) seeds edges
  have hcomplete := h seeds edges (importRelations edges) context hnodup
    (isNeighborhood_describe _ hnodup edges)
  have hmodule : Review.PathStep edges (.ofString "b.rs") (.ofString "module.rs") :=
    ⟨_, mem_cons_of_mem _ mem_cons_self, rfl, rfl⟩
  have hmain : Review.PathStep edges (.ofString "module.rs") (.ofString "main.rs") :=
    ⟨_, mem_cons_of_mem _ (mem_cons_of_mem _ mem_cons_self), rfl, rfl⟩
  have hdirect : ¬Review.PathStep edges (.ofString "b.rs") (.ofString "main.rs") := by
    unfold Review.PathStep
    decide +kernel
  have hstart : ReachIn (Review.PathStep edges) (· = .ofString "b.rs") 0 (.ofString "b.rs") :=
    .refl rfl
  have hentry : ChainEntry edges (importRelations edges) context (.ofString "b.rs") 2
      (.ofString "main.rs") := by
    constructor
    · refine ⟨(hstart.tail hmodule).tail hmain, fun n hn => ?_⟩
      cases hn with
      | refl hsame => exact absurd hsame (by decide +kernel)
      | tail hbefore hstep =>
        cases hbefore with
        | refl hsame =>
          subst hsame
          exact absurd hstep hdirect
        | tail _ _ => omega
    · exact Nat.le_refl 2
    · decide
    · decide +kernel
    · decide +kernel
  obtain ⟨chain, hone, -⟩ := hcomplete.one (.ofString "b.rs") (by decide +kernel) ⟨2, _, hentry⟩
  have hnone : (entryChains (importRelations edges) context).filter
      (fun chain => chain.getLast? = some (.ofString "b.rs")) = [] := by decide +kernel
  exact absurd (hone.symm.trans hnone) (cons_ne_nil _ _)

end Reposcout.Query.ReviewContext.Brief
