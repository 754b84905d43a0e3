import FlatLiquid.Digest.Sha256
import FlatLiquid.Schema.Parsing

/-!
Contract: schemas that have been read already.

Owns:
- a cache of schemas under the digest of their template, of bounded size;
- the requests to it: a schema, whether it is there, and forgetting everything.

The entry that was requested longest ago goes first. A template without a schema that can be read
has an entry too.
-/

namespace FlatLiquid

/-- A schema in the cache, with the number of the request that read it. -/
structure CachedSchema where
  reading : Nat
  schema : Schema

/-- Entries in the order of the last request for them, the latest first. -/
structure SchemaCache where
  capacity : Nat
  entries : List (String × Option CachedSchema)
  /-- The number of schemas read so far. -/
  readings : Nat

namespace SchemaCache

/-- The capacity of a cache, unless it is given. -/
def defaultCapacity : Nat := 128

/-- A cache without entries. There is room for at least one. -/
def ofCapacity (capacity : Nat) : SchemaCache :=
  ⟨max capacity 1, [], 0⟩

def size (cache : SchemaCache) : Nat :=
  cache.entries.length

/-- There is an entry for a template. Asking does not count as a request. -/
def contains (cache : SchemaCache) (template : String) : Bool :=
  cache.entries.any fun entry => entry.1 == Sha256.hexDigest template

def clear (cache : SchemaCache) : SchemaCache :=
  { cache with entries := [] }

/-- The cache with an entry in front, and without the one that has to go. -/
def put (cache : SchemaCache) (key : String) (schema? : Option CachedSchema) : SchemaCache :=
  let others := cache.entries.filter fun entry => entry.1 != key
  { cache with entries := (key, schema?) :: others.take (cache.capacity - 1) }

/-- The schema of a template. It is read only if there is no entry for it. -/
def request (cache : SchemaCache) (template : String) : Option CachedSchema × SchemaCache :=
  let key := Sha256.hexDigest template
  match cache.entries.lookup key with
  | some schema? => (schema?, cache.put key schema?)
  | none =>
    let schema? := (Schema.ofTemplate? template.toList).map (⟨cache.readings, ·⟩)
    (schema?, { cache.put key schema? with readings := cache.readings + 1 })

end SchemaCache

end FlatLiquid
