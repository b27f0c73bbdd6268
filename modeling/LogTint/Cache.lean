import LogTint.Highlight.Highlights
import LogTint.Text.Duration

/-!
# A bounded cache of highlights

Highlights are kept under a key computed from the text and the options.  Two
texts may share a key, so an entry also holds what it was computed from, and
answers for that only.  Entries expire; when the cache is full the expired
entries make room first and then the oldest one.
-/

namespace LogTint

/-- Highlights with what they were computed from and when. -/
structure CacheEntry where
  key : UInt64
  text : Text
  config : HighlightConfig
  highlights : Highlights
  insertedAt : Nat
deriving DecidableEq

/-- A cache of highlights, its entries in the order of their keys' arrival. -/
structure Cache where
  keyOf : Text → HighlightConfig → UInt64
  capacity : Nat
  /-- Milliseconds for which an entry answers. -/
  lifetime : Nat
  entries : List CacheEntry

namespace Cache

/-- The capacity of a cache that is given none. -/
def standardCapacity : Nat := 100

/-- The lifetime of entries in a cache that is given none. -/
def standardLifetime : Nat := 60000

/-- An empty cache.  It has room for one entry at least. -/
def empty (keyOf : Text → HighlightConfig → UInt64) (capacity lifetime : Nat) :
    Cache :=
  ⟨keyOf, max capacity 1, lifetime, []⟩

def length (cache : Cache) : Nat := cache.entries.length

/-- Whether an entry still answers. -/
def isFresh (cache : Cache) (now : Nat) (entry : CacheEntry) : Bool :=
  decide (now - entry.insertedAt ≤ cache.lifetime)

def find? (cache : Cache) (key : UInt64) : Option CacheEntry :=
  cache.entries.find? (·.key = key)

def erase (cache : Cache) (key : UInt64) : Cache :=
  { cache with entries := cache.entries.filter (·.key ≠ key) }

/-- The highlights kept for a text.  An expired entry is dropped when it is
asked for; an entry of another text is left alone. -/
def get (cache : Cache) (now : Nat) (text : Text) (config : HighlightConfig) :
    Option Highlights × Cache :=
  let key := cache.keyOf text config
  match cache.find? key with
  | none => (none, cache)
  | some entry =>
      if entry.text = text ∧ entry.config = config then
        if cache.isFresh now entry then (some entry.highlights, cache)
        else (none, cache.erase key)
      else (none, cache)

/-- Drops the expired entries and tells how many there were. -/
def purge (cache : Cache) (now : Nat) : Nat × Cache :=
  let kept := cache.entries.filter (cache.isFresh now)
  (cache.entries.length - kept.length, { cache with entries := kept })

/-- One of the entries inserted earliest.  Among entries of one time the order of
the list decides, which is one choice of several: a table that keeps its entries in
no order may name any of them. -/
def oldest? : List CacheEntry → Option CacheEntry
  | [] => none
  | entry :: later =>
      match oldest? later with
      | none => some entry
      | some other =>
          if entry.insertedAt ≤ other.insertedAt then some entry else some other

/-- Drops one of the entries inserted earliest. -/
def evict (cache : Cache) : Cache :=
  match oldest? cache.entries with
  | none => cache
  | some entry => cache.erase entry.key

/-- Makes room for an entry under a key that is not in the cache. -/
def makeRoom (cache : Cache) (now : Nat) : Cache :=
  if cache.length < cache.capacity then cache
  else
    let purged := (cache.purge now).2
    if purged.length < purged.capacity then purged else purged.evict

/-- Keeps an entry in place of the one under the same key, if there is one. -/
def put (cache : Cache) (entry : CacheEntry) : Cache :=
  if (cache.find? entry.key).isSome then
    { cache with
      entries := cache.entries.map fun other =>
        if other.key = entry.key then entry else other }
  else { cache with entries := cache.entries ++ [entry] }

def insert (cache : Cache) (now : Nat) (text : Text) (config : HighlightConfig)
    (highlights : Highlights) : Cache :=
  let key := cache.keyOf text config
  let roomy := if (cache.find? key).isSome then cache else cache.makeRoom now
  roomy.put ⟨key, text, config, highlights, now⟩

/-- The highlights of a text, computed and kept unless they are there already;
the flag tells whether they were. -/
def getOrCompute (cache : Cache) (now : Nat) (text : Text)
    (config : HighlightConfig) : (Highlights × Bool) × Cache :=
  match cache.get now text config with
  | (some highlights, after) => ((highlights, true), after)
  | (none, after) =>
      let highlights := Highlights.compute text config
      ((highlights, false), after.insert now text config highlights)

def clear (cache : Cache) : Cache := { cache with entries := [] }

def render (cache : Cache) : String :=
  "SpanCache \x7b len: " ++ toString cache.length ++ ", capacity: " ++
    toString cache.capacity ++ ", ttl: " ++ Duration.render cache.lifetime ++
    " \x7d"

/-- A key that mixes the options and every character of the text in turn. -/
def contentKey (text : Text) (config : HighlightConfig) : UInt64 :=
  let mix (key value : UInt64) : UInt64 := (key ^^^ value) * 0x100000001b3
  let options := (if config.literals then 2 else 0) + (if config.folds then 1 else 0)
  text.foldl (fun key char => mix key char.toNat.toUInt64)
    (mix 0xcbf29ce484222325 options)

end Cache

end LogTint
