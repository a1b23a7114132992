import Resampler.Store.Basic
import Resampler.Token
import Resampler.Trace

/-!
# What interpreters remember

Draws are answered in a state that all interpreters share. Each instance has
cells of its own in it, under its number: a thread the key it holds, a
standard interpreter the keys it has used up, a recorder its trace. Caches and
stores may belong to several instances. The state also knows which distributions
have been asked so far, which tokens have been cancelled, which instances are
installed in an open scope, and the files behind the stores.

Numbers are given out in order, so a number that has just been given out names
nothing yet.
-/

namespace Resampler

/-- **Values by the identity of a distribution and a key.** -/
abbrev Cache := OrderedMap (String × RandomKey) Json

/-- **The state that interpreters share.** -/
structure Shared where
  /-- The next number to give out. -/
  next : Nat
  /-- The key that a thread splits next. -/
  held : OrderedMap Nat RandomKey
  /-- The keys that a standard interpreter has used up. -/
  used : OrderedMap Nat (List RandomKey)
  /-- The caches. -/
  caches : OrderedMap Nat Cache
  /-- The traces of recorders. -/
  traces : OrderedMap Nat Trace
  /-- What spies have seen: names and keys, the first first. -/
  sightings : OrderedMap Nat (List (String × Option RandomKey))
  /-- The sites whose distributions have been asked, with the keys they were
  asked under, the latest first. -/
  asked : List (Site × RandomKey)
  /-- The stores. -/
  stores : OrderedMap Nat Store
  /-- The files behind the stores. -/
  files : FileTree
  /-- The tokens that have been cancelled. -/
  cancelled : List Nat
  /-- The instances that are installed in an open scope. -/
  installed : List Nat

namespace Shared

/-- Nothing remembered yet, and no files below the root. -/
def start (root : String) : Shared :=
  { next := 0, held := .empty, used := .empty, caches := .empty
    traces := .empty, sightings := .empty, asked := [], stores := .empty
    files := .ofRoot root, cancelled := [], installed := [] }

/-- Give out a number. -/
def fresh (s : Shared) : Nat × Shared := (s.next, { s with next := s.next + 1 })

/-! ## The cells of an instance -/

/-- The key that a thread holds. -/
def heldKey (s : Shared) (id : Nat) : RandomKey := (s.held.get? id).getD .root

/-- Let a thread hold a key. -/
def hold (s : Shared) (id : Nat) (k : RandomKey) : Shared :=
  { s with held := s.held.insert id k }

/-- The keys that an instance has used up. -/
def usedKeys (s : Shared) (id : Nat) : List RandomKey := (s.used.get? id).getD []

/-- Remember that an instance has used up a key. -/
def useUp (s : Shared) (id : Nat) (k : RandomKey) : Shared :=
  { s with used := s.used.insert id (k :: s.usedKeys id) }

/-- Note that the distribution of a site is asked under a key. -/
def noteAsked (s : Shared) (site : Site) (k : RandomKey) : Shared :=
  { s with asked := (site, k) :: s.asked }

/-- A cache. -/
def cache (s : Shared) (id : Nat) : Cache := (s.caches.get? id).getD .empty

/-- Put a value into a cache, unless its entry is filled. -/
def remember (s : Shared) (id : Nat) (entry : String × RandomKey) (v : Json) :
    Shared :=
  { s with caches := s.caches.insert id ((s.cache id).insertIfAbsent entry v) }

/-- The trace of a recorder. -/
def trace (s : Shared) (id : Nat) : Trace := (s.traces.get? id).getD .empty

/-- Replace the trace of a recorder. -/
def setTrace (s : Shared) (id : Nat) (t : Trace) : Shared :=
  { s with traces := s.traces.insert id t }

/-- What a spy has seen. -/
def seen (s : Shared) (id : Nat) : List (String × Option RandomKey) :=
  (s.sightings.get? id).getD []

/-- Let a spy see a draw. -/
def sight (s : Shared) (id : Nat) (name : String) (key : Option RandomKey) :
    Shared :=
  { s with sightings := s.sightings.insert id (s.seen id ++ [(name, key)]) }

/-- Forget the cells of an instance that is gone. -/
def forget (s : Shared) (id : Nat) : Shared :=
  { s with held := s.held.erase id, traces := s.traces.erase id }

/-! ## Stores -/

/-- A store. -/
def store (s : Shared) (id : Nat) : Store :=
  (s.stores.get? id).getD (.memory .empty)

/-- Replace a store. -/
def setStore (s : Shared) (id : Nat) (st : Store) : Shared :=
  { s with stores := s.stores.insert id st }

/-- Keep a text in a store under a number, unless there is one already. -/
def keep (s : Shared) (id : Nat) (key : Nat) (text : String) :
    Except Error Shared :=
  ((s.store id).insertIfAbsent s.files key text).map fun (st, files) =>
    { s.setStore id st with files := files }

/-! ## Tokens and scopes -/

/-- Whether a token is cancelled. -/
def isCancelled (s : Shared) (t : Token) : Bool := t.isCancelled s.cancelled

/-- Cancel a token. -/
def cancel (s : Shared) (t : Token) : Shared :=
  { s with cancelled := t.id :: s.cancelled }

/-- A new token without ancestors. -/
def newToken (s : Shared) : Token × Shared := (.ofId s.next, s.fresh.2)

/-- A new token below another. -/
def newChild (s : Shared) (t : Token) : Token × Shared :=
  (t.child s.next, s.fresh.2)

/-- Note that an instance is installed in a scope. -/
def install (s : Shared) (id : Nat) : Shared :=
  { s with installed := id :: s.installed }

/-- Note that the scope of an instance has closed. -/
def release (s : Shared) (id : Nat) : Shared :=
  { s with installed := s.installed.erase id }

@[simp] theorem heldKey_hold (s : Shared) (id j : Nat) (k : RandomKey) :
    (s.hold id k).heldKey j = if id = j then k else s.heldKey j := by
  by_cases h : id = j <;> simp [heldKey, hold, h]

@[simp] theorem trace_setTrace (s : Shared) (id j : Nat) (t : Trace) :
    (s.setTrace id t).trace j = if id = j then t else s.trace j := by
  by_cases h : id = j <;> simp [trace, setTrace, h]

end Shared

end Resampler
