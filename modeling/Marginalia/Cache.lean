import Marginalia.Number.Binary64

/-
Bounded memory of recent results.  Entries are kept from the least to the most
recently used; one that grows too old is dropped when it is asked for.
-/
namespace Marginalia

structure CacheEntry (κ υ : Type) where
  key : κ
  value : υ
  stored : Binary64

/-- A use of a cache. -/
inductive CacheStep (κ υ : Type) where
  | set (key : κ) (v : υ)
  | get (key : κ)
  | contains (key : κ)
  | delete (key : κ)
  | clear
deriving DecidableEq, Repr

/-- What a cache answers to a step. -/
inductive CacheAnswer (υ : Type) where
  | stored
  /-- Nothing was stored: the bound lies below zero. -/
  | noRoom
  | value (v : Option υ)
  | held (b : Bool)
  | erased (b : Bool)
  | cleared
deriving DecidableEq, Repr

structure Cache (κ υ : Type) where
  /-- The most entries that are kept. -/
  maxSize : Int
  /-- The age, in seconds, beyond which an entry is dropped. -/
  maxAge : Option Binary64 := none
  /-- The least recently used entry comes first. -/
  entries : List (CacheEntry κ υ) := []
  hits : Nat := 0
  misses : Nat := 0

namespace Cache

variable {κ υ : Type} [BEq κ]

def keys (c : Cache κ υ) : List κ := c.entries.map (·.key)

def size (c : Cache κ υ) : Nat := c.entries.length

def without (key : κ) (es : List (CacheEntry κ υ)) : List (CacheEntry κ υ) :=
  es.filter fun e => !(e.key == key)

def find? (c : Cache κ υ) (key : κ) : Option (CacheEntry κ υ) := c.entries.find? (·.key == key)

def isExpired (c : Cache κ υ) (now : Binary64) (e : CacheEntry κ υ) : Bool :=
  match c.maxAge with
  | none => false
  | some age => (now.sub e.stored).compare? age = some .gt

/-- Look a key up.  A hit becomes the most recently used entry but does not get
younger; an expired entry is a miss and is dropped. -/
def lookup (c : Cache κ υ) (now : Binary64) (key : κ) : Option υ × Cache κ υ :=
  match c.find? key with
  | none => (none, { c with misses := c.misses + 1 })
  | some e =>
    if c.isExpired now e then
      (none, { c with entries := without key c.entries, misses := c.misses + 1 })
    else
      (some e.value, { c with entries := without key c.entries ++ [e], hits := c.hits + 1 })

/-- Store a value as the most recently used one, and drop the least recently
used entries beyond the bound. -/
def store (c : Cache κ υ) (now : Binary64) (key : κ) (v : υ) : Cache κ υ :=
  let es := without key c.entries ++ [⟨key, v, now⟩]
  { c with entries := es.drop (es.length - c.maxSize.toNat) }

/-- A cache whose bound lies below zero never gets down to it. -/
def hasBound (c : Cache κ υ) : Bool := 0 ≤ c.maxSize

/-- Drop the entry under a key, and say whether there was one. -/
def erase (c : Cache κ υ) (key : κ) : Bool × Cache κ υ :=
  ((c.find? key).isSome, { c with entries := without key c.entries })

/-- Drop every entry and start counting afresh. -/
def clear (c : Cache κ υ) : Cache κ υ := { c with entries := [], hits := 0, misses := 0 }

/-- Whether a key holds a value that counts as one.  This is a look-up like any other. -/
def contains (isNothing : υ → Bool) (c : Cache κ υ) (now : Binary64) (key : κ) :
    Bool × Cache κ υ :=
  let (v, c) := c.lookup now key
  (v.any fun v => !isNothing v, c)

/-- Make a step at the time that the clock shows. -/
def perform (isNothing : υ → Bool) (c : Cache κ υ) (now : Binary64) :
    CacheStep κ υ → CacheAnswer υ × Cache κ υ
  | .set key v => (if c.hasBound then .stored else .noRoom, c.store now key v)
  | .get key =>
    let (v, c) := c.lookup now key
    (.value v, c)
  | .contains key =>
    let (b, c) := c.contains isNothing now key
    (.held b, c)
  | .delete key =>
    let (b, c) := c.erase key
    (.erased b, c)
  | .clear => (.cleared, c.clear)

end Cache
end Marginalia
