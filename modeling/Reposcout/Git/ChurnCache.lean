import Reposcout.Framework.KeyedList
import Reposcout.Model.Churn

/-!
# The churn cache

Two files hold the commit events of a history and the most recent views, each a complete result
with the identity it was computed for.  Views are loaded when the cache is opened, events when
they are needed, and each file is written again only if its part of the cache is dirty.

Reading and writing JSON is a parameter, with the law that what was written reads back.
-/

namespace Reposcout.Git

open KeyedList

def cacheVersion : String := "3"

def maxViews : ℕ := 8

/-! ## Paths as hexadecimal text -/

def hexDigit (nibble : ℕ) : Char :=
  if nibble < 10 then Char.ofNat ('0'.toNat + nibble) else Char.ofNat ('a'.toNat + (nibble - 10))

def encodeBytes (bytes : List UInt8) : List Char :=
  bytes.flatMap fun byte => [hexDigit (byte.toNat / 16), hexDigit (byte.toNat % 16)]

def decodeNibble (c : Char) : Except String ℕ :=
  if '0' ≤ c ∧ c ≤ '9' then .ok (c.toNat - '0'.toNat)
  else if 'a' ≤ c ∧ c ≤ 'f' then .ok (c.toNat - 'a'.toNat + 10)
  else if 'A' ≤ c ∧ c ≤ 'F' then .ok (c.toNat - 'A'.toNat + 10)
  else .error "cached path contains non-hex data"

def decodeBytes : List Char → Except String (List UInt8)
  | [] => .ok []
  | [_] => .error "cached path has an odd hex length"
  | first :: second :: rest => do
    let high ← decodeNibble first
    let low ← decodeNibble second
    let bytes ← decodeBytes rest
    return UInt8.ofNat (high * 16 + low) :: bytes

lemma decodeNibble_hexDigit : ∀ nibble < 16, decodeNibble (hexDigit nibble) = .ok nibble := by
  decide

/-- An encoded path reads back. -/
lemma decodeBytes_encodeBytes (bytes : List UInt8) : decodeBytes (encodeBytes bytes) = .ok bytes := by
  induction bytes with
  | nil => rfl
  | cons byte bytes ih =>
    have hlt : byte.toNat < 256 := byte.toNat_lt
    have hhigh := decodeNibble_hexDigit (byte.toNat / 16) (by omega)
    have hlow := decodeNibble_hexDigit (byte.toNat % 16) (by omega)
    have hbyte : UInt8.ofNat (byte.toNat / 16 * 16 + byte.toNat % 16) = byte := by
      rw [Nat.div_add_mod' byte.toNat 16]
      exact UInt8.ofNat_toNat
    show decodeBytes (hexDigit (byte.toNat / 16) :: hexDigit (byte.toNat % 16) :: encodeBytes bytes) = _
    rw [decodeBytes, hhigh, hlow, ih]
    show Except.ok (UInt8.ofNat (byte.toNat / 16 * 16 + byte.toNat % 16) :: bytes) = _
    rw [hbyte]

def encodePath (path : PathBuf) : String :=
  String.ofList (encodeBytes path.toStringLossy.toUTF8.toList)

/-! ## Views and events -/

structure ViewIdentity where
  head : String
  historyState : String
  maxCommits : ℕ
  wantedPaths : List String
  maxDeltasPerCommit : ℕ
  maxTotalDeltas : ℕ
  maxOutputBytes : ℕ
  maxPathBytes : ℕ
  maxCacheBytes : ℕ
  deriving DecidableEq

def ViewIdentity.new (head historyState : String) (limits : ChurnLimits) (wanted : List PathBuf) :
    ViewIdentity where
  head := head
  historyState := historyState
  maxCommits := limits.maxCommits
  wantedPaths := (sortBy compare (wanted.map encodePath)).dedup
  maxDeltasPerCommit := limits.maxDeltasPerCommit
  maxTotalDeltas := limits.maxTotalDeltas
  maxOutputBytes := limits.maxOutputBytes
  maxPathBytes := limits.maxPathBytes
  maxCacheBytes := limits.maxCacheBytes

structure ViewResult where
  path : PathBuf
  churn : Churn
  deriving DecidableEq

structure ViewEntry where
  identity : ViewIdentity
  results : List ViewResult
  deriving DecidableEq

structure EventsData where
  version : String
  historyState : String
  events : List CommitEvent

structure ViewsData where
  version : String
  views : List ViewEntry

/-! ## The files -/

structure JsonCodec (α : Type) where
  Text : Type
  encode : α → Text
  decode : Text → Option α
  length : Text → ℕ
  decode_encode : ∀ data, decode (encode data) = some data

structure CacheCodec where
  events : JsonCodec EventsData
  views : JsonCodec ViewsData

/-- The two files of a cache. A file that cannot be read is absent. -/
structure CacheDisk (codec : CacheCodec) where
  events : Option codec.events.Text
  views : Option codec.views.Text

def loadJson {α : Type} (codec : JsonCodec α) (file : Option codec.Text) (maxBytes : ℕ) :
    Option α :=
  match file with
  | none => none
  | some text => if codec.length text ≤ maxBytes then codec.decode text else none

/-- The text that replaces a file. `written` is the outcome of the write. -/
def saveJson {α : Type} (codec : JsonCodec α) (data : α) (maxBytes : ℕ) (written : Bool) :
    Option codec.Text :=
  let encoded := codec.encode data
  if codec.length encoded > maxBytes then none
  else if written then some encoded
  else none

lemma loadJson_saveJson {α : Type} {codec : JsonCodec α} {data : α} {maxBytes : ℕ}
    {written : Bool} {text : codec.Text} (h : saveJson codec data maxBytes written = some text) :
    loadJson codec (some text) maxBytes = some data := by
  unfold saveJson at h
  dsimp only at h
  split_ifs at h with hlength
  cases h
  unfold loadJson
  dsimp only
  rw [if_pos (not_lt.mp hlength), codec.decode_encode]

/-! ## The cache -/

/-- `ChurnCache`. The events are a map by commit, absent until they are loaded. -/
structure ChurnCache where
  enabled : Bool
  events : Option (List (String × CommitEvent))
  historyState : String
  eventsDirty : Bool
  views : List ViewEntry
  viewsDirty : Bool
  maxCacheBytes : ℕ
  deriving DecidableEq

namespace ChurnCache

/-- The views of a file, none if it cannot be used. -/
def storedViews (codec : CacheCodec) (disk : CacheDisk codec) (maxBytes : ℕ) : List ViewEntry :=
  (((loadJson codec.views disk.views maxBytes).filter fun data =>
    data.version = cacheVersion).map (·.views)).getD []

/-- The events of a file by commit, none if it cannot be used for the history. -/
def storedEvents (codec : CacheCodec) (disk : CacheDisk codec) (maxBytes : ℕ)
    (historyState : String) : List (String × CommitEvent) :=
  (((loadJson codec.events disk.events maxBytes).filter fun data =>
    data.version = cacheVersion && data.historyState = historyState).map fun data =>
      indexBy CommitEvent.oid data.events).getD []

def defaultMaxCacheFileBytes : ℕ := 256 * 1024 * 1024

def disabled : ChurnCache where
  enabled := false
  events := none
  historyState := ""
  eventsDirty := false
  views := []
  viewsDirty := false
  maxCacheBytes := defaultMaxCacheFileBytes

/-- `ChurnCache::at`. -/
def openAt (codec : CacheCodec) (disk : CacheDisk codec) (enabled : Bool) (maxCacheBytes : ℕ) :
    ChurnCache :=
  if enabled then
    { enabled := true
      events := none
      historyState := ""
      eventsDirty := false
      views := storedViews codec disk maxCacheBytes
      viewsDirty := false
      maxCacheBytes := maxCacheBytes }
  else disabled

def viewResults (entry : ViewEntry) : List (PathBuf × Churn) :=
  (indexBy ViewResult.path entry.results).map fun item => (item.1, item.2.churn)

/-- `get_view`: a view that is found moves to the front. -/
def getView (cache : ChurnCache) (identity : ViewIdentity) :
    ChurnCache × Option (List (PathBuf × Churn)) :=
  if cache.enabled then
    match cache.views.findIdx? fun entry => entry.identity = identity with
    | none => (cache, none)
    | some index =>
      match cache.views[index]? with
      | none => (cache, none)
      | some entry =>
        ({ cache with
            views := entry :: cache.views.eraseIdx index
            viewsDirty := index ≠ 0 }, some (viewResults entry))
  else (cache, none)

/-- The entry of a view. `order` is the iteration order of the map of results. -/
def viewEntry (order : KeyedList.IterationOrder (PathBuf × Churn)) (identity : ViewIdentity)
    (churn : List (PathBuf × Churn)) : ViewEntry where
  identity := identity
  results := sortBy (fun left right => compare left.path right.path)
    ((order.arrange churn).map fun item => ⟨item.1, item.2⟩)

def putView (order : KeyedList.IterationOrder (PathBuf × Churn)) (cache : ChurnCache)
    (identity : ViewIdentity) (churn : List (PathBuf × Churn)) : ChurnCache :=
  if cache.enabled then
    { cache with
      views := (viewEntry order identity churn ::
        cache.views.filter fun entry => entry.identity ≠ identity).take maxViews
      viewsDirty := true }
  else cache

def loadEvents (codec : CacheCodec) (disk : CacheDisk codec) (cache : ChurnCache)
    (historyState : String) : ChurnCache :=
  if ¬ cache.enabled ∨ cache.events.isSome then cache
  else
    { cache with
      historyState := historyState
      events := some (storedEvents codec disk cache.maxCacheBytes historyState) }

def event (cache : ChurnCache) (oid : String) : Option CommitEvent :=
  cache.events.bind (get? oid)

def putEvent (cache : ChurnCache) (event : CommitEvent) : ChurnCache :=
  if cache.enabled then
    { cache with
      events := some (KeyedList.alter event.oid (fun _ => event) (cache.events.getD []))
      eventsDirty := true }
  else cache

/-- What is written for the events. `order` is the iteration order of the map. -/
def eventsData (order : KeyedList.IterationOrder CommitEvent) (cache : ChurnCache) :
    EventsData where
  version := cacheVersion
  historyState := cache.historyState
  events := sortBy (fun left right => compare left.oid right.oid)
    (order.arrange ((cache.events.getD []).map Prod.snd))

def viewsData (cache : ChurnCache) : ViewsData where
  version := cacheVersion
  views := cache.views

section

variable {codec : CacheCodec}

def saveEvents (order : KeyedList.IterationOrder CommitEvent) (written : Bool)
    (cache : ChurnCache) (disk : CacheDisk codec) : ChurnCache × CacheDisk codec :=
  if cache.eventsDirty then
    match saveJson codec.events (cache.eventsData order) cache.maxCacheBytes written with
    | some text => ({ cache with eventsDirty := false }, { disk with events := some text })
    | none => (cache, disk)
  else (cache, disk)

def saveViews (written : Bool) (cache : ChurnCache) (disk : CacheDisk codec) :
    ChurnCache × CacheDisk codec :=
  if cache.viewsDirty then
    match saveJson codec.views cache.viewsData cache.maxCacheBytes written with
    | some text => ({ cache with viewsDirty := false }, { disk with views := some text })
    | none => (cache, disk)
  else (cache, disk)

def save (order : KeyedList.IterationOrder CommitEvent) (eventsWritten viewsWritten : Bool)
    (cache : ChurnCache) (disk : CacheDisk codec) : ChurnCache × CacheDisk codec :=
  if cache.enabled then
    let saved := saveEvents order eventsWritten cache disk
    saveViews viewsWritten saved.1 saved.2
  else (cache, disk)

end

end ChurnCache

/-! ## Sessions -/

structure CacheOrders where
  events : KeyedList.IterationOrder CommitEvent
  results : KeyedList.IterationOrder (PathBuf × Churn)

/-- An operation on a cache. A save comes with the outcomes of its writes. -/
inductive CacheOperation where
  | getView (identity : ViewIdentity)
  | putView (identity : ViewIdentity) (churn : List (PathBuf × Churn))
  | getEvent (oid : String)
  | putEvent (event : CommitEvent)
  | save (eventsWritten viewsWritten : Bool)

/-- A cache and the files it is saved to. -/
structure CacheSession (codec : CacheCodec) where
  cache : ChurnCache
  disk : CacheDisk codec

namespace CacheSession

variable {codec : CacheCodec}

def load (disk : CacheDisk codec) (maxCacheBytes : ℕ) (historyState : String) :
    CacheSession codec where
  cache := (ChurnCache.openAt codec disk true maxCacheBytes).loadEvents codec disk historyState
  disk := disk

def step (orders : CacheOrders) (session : CacheSession codec) : CacheOperation → CacheSession codec
  | .getView identity => { session with cache := (session.cache.getView identity).1 }
  | .putView identity churn =>
    { session with cache := session.cache.putView orders.results identity churn }
  | .getEvent _ => session
  | .putEvent event => { session with cache := session.cache.putEvent event }
  | .save eventsWritten viewsWritten =>
    let saved := session.cache.save orders.events eventsWritten viewsWritten session.disk
    ⟨saved.1, saved.2⟩

def run (orders : CacheOrders) (session : CacheSession codec)
    (operations : List CacheOperation) : CacheSession codec :=
  operations.foldl (step orders) session

end CacheSession

end Reposcout.Git
