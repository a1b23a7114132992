import Resampler.Trace

/-!
# Chains of interpreters

Every draw travels down a chain of interpreters. An interpreter answers it, or
hands it on to the rest of the chain, possibly with another key. An
interpreter is an *instance*: two of the same kind are different, and one
instance is linked into a chain at most once, which its number decides. What
an instance remembers between draws is kept under that number elsewhere.

A branching interpreter is one that sends the draws it matches down a chain of
its own, so chains are trees; what is linked into a chain are the instances on
its own line, not those of its branches.
-/

namespace Resampler

/-- **The kind of an interpreter**, with what is fixed about it. -/
inductive Handler where
  /-- Asks the distribution. It may insist that no key is used up twice. -/
  | standard (detectReuse : Bool)
  /-- Threads a running key through the draws that come without one, or
  through all if it is forced on them. -/
  | thread (force : Bool)
  /-- Answers from a cache, which it fills. -/
  | memo (cache : Nat)
  /-- Answers from a store, which it fills. -/
  | persistent (store : Nat)
  /-- Records the draws that are answered. -/
  | recorder
  /-- Answers named sites with fixed values. -/
  | condition (data : OrderedMap String Json)
  /-- Answers every draw with a recorded value. -/
  | replay (values : OrderedMap String Json)
  /-- Puts another distribution in the place of the one asked for. -/
  | substitute (distribution : Distribution)
  /-- Remembers what reaches it. -/
  | spy
  /-- Answers everything with one value. -/
  | constant (value : Json)
  /-- Replaces the key. -/
  | rekey (key : Option RandomKey)

/-- **A chain of interpreters**, the outermost first. -/
inductive Chain where
  /-- No interpreter is left. -/
  | empty
  /-- An instance on top of the rest. -/
  | link (id : Nat) (handler : Handler) (rest : Chain)
  /-- A branching instance on top of the rest. -/
  | branch (id : Nat) (selects : String → Distribution → Bool)
    (alternate rest : Chain)

/-- **An instance of an interpreter** that can be linked into chains. -/
inductive Layer where
  /-- An instance of some kind. -/
  | plain (id : Nat) (handler : Handler)
  /-- A branching instance. -/
  | branch (id : Nat) (selects : String → Distribution → Bool)
    (alternate : Chain)

namespace Layer

/-- The number of the instance. -/
def id : Layer → Nat
  | .plain id _ => id
  | .branch id _ _ => id

end Layer

namespace Chain

instance : Inhabited Chain := ⟨.empty⟩

/-- The numbers of the linked instances, the outermost first. -/
def ids : Chain → List Nat
  | .empty => []
  | .link id _ rest => id :: rest.ids
  | .branch id _ _ rest => id :: rest.ids

/-- How many instances are linked. -/
def length (c : Chain) : Nat := c.ids.length

/-- Whether nothing is linked. -/
def isEmpty (c : Chain) : Bool := c.ids.isEmpty

/-- Whether an instance is linked. -/
def contains (c : Chain) (id : Nat) : Bool := decide (id ∈ c.ids)

/-- The chain with an instance on top. -/
def push (c : Chain) : Layer → Chain
  | .plain id handler => .link id handler c
  | .branch id selects alternate => .branch id selects alternate c

/-- **Put an instance on top of a chain**, unless it is linked already. -/
def stack? (c : Chain) (layer : Layer) : Option Chain :=
  if c.contains layer.id then none else some (c.push layer)

/-- A short description of a chain. -/
def summary (c : Chain) : String :=
  "Chain \x7b len: " ++ toString c.length ++ " \x7d"

@[simp] theorem ids_push (c : Chain) (layer : Layer) :
    (c.push layer).ids = layer.id :: c.ids := by
  cases layer <;> rfl

end Chain

/-! ## What a branch can select -/

/-- Select the draws of one site. -/
def selectSite (name : String) : String → Distribution → Bool :=
  fun site _ => decide (site = name)

/-- Select the draws from distributions that describe themselves with a
type. -/
def selectType (type : String) : String → Distribution → Bool :=
  fun _ d => decide ((d.describe.member? "type").bind Json.string? = some type)

/-- Select the draws of the sites whose names start with a text. -/
def selectStart (start : String) : String → Distribution → Bool :=
  fun site _ => start.toList.isPrefixOf site.toList

end Resampler
