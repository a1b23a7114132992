import Resampler.Chain.Basic
import Resampler.Distribution.Catalogue
import Resampler.Shared

/-!
# How a chain answers a draw

An interpreter is given a site, the key that came with it, and the rest of the
chain as the function that it may hand the site on to. An observation brings
its value along and is never sampled, cached or counted: the interpreters that
do such things pass it on, and at the end of the chain it answers itself. A
draw at the end of the chain has nobody to answer it.
-/

namespace Resampler

/-- **The answer to a site.** -/
abbrev Reply := Outcome Error Json

/-- **Something that answers sites**, in the state that interpreters share. -/
abbrev Answerer := Site → Option RandomKey → Shared → Reply × Shared

namespace Site

/-- What the distribution of the site answers a key, its failure told as the
failure of the site. -/
def ask (site : Site) (k : RandomKey) : Reply :=
  (site.sample k).mapFailure (.distribution site.name)

/-- The answer when nobody is left to answer. -/
def unanswered (site : Site) : Reply :=
  match site.observed with
  | some v => .value v
  | none => .failure (.noDelegate site.name)

/-- What a trace keeps of the site and its answer. -/
def node (site : Site) (key : Option RandomKey) (v : Json) : TraceNode :=
  ⟨site.distribution, key, v, site.observed.isSome⟩

end Site

namespace Handler

/-- **Ask the distribution.** An instance that detects reuse refuses a key it
has used up. -/
def drawStandard (id : Nat) (detectReuse : Bool) : Answerer :=
  fun site key s =>
    match site.observed, key with
    | some v, _ => (.value v, s)
    | none, none => (.failure (.missingKey site.name), s)
    | none, some k =>
      if detectReuse then
        if k ∈ s.usedKeys id then (.failure (.keyReused site.name), s)
        else (site.ask k, (s.useUp id k).noteAsked site k)
      else (site.ask k, s.noteAsked site k)

/-- **Thread a running key.** A draw without a key, and any draw if keys are
forced, gets the deeper half of the key that is held. -/
def drawThread (id : Nat) (force : Bool) (next : Answerer) : Answerer :=
  fun site key s =>
    if site.observed.isSome || (key.isSome && !force) then next site key s
    else
      let k := s.heldKey id
      next site (some k.deeper) (s.hold id k.incremented)

/-- **Answer from a cache.** What the rest of the chain answers a draw is kept
under the identity of its distribution and its key. -/
def drawMemo (cache : Nat) (next : Answerer) : Answerer :=
  fun site key s =>
    match site.observed, key with
    | some _, _ => next site key s
    | none, none => (.failure (.missingKey site.name), s)
    | none, some k =>
      let entry := (site.distribution.identity, k)
      match (s.cache cache).get? entry with
      | some v => (.value v, s)
      | none =>
        match next site (some k) s with
        | (.value v, s) => (.value v, s.remember cache entry v)
        | unanswered => unanswered

/-- **Answer from a store.** What the rest of the chain answers is kept as
text, under the number of the distribution and the key. -/
def drawPersistent (store : Nat) (next : Answerer) : Answerer :=
  fun site key s =>
    match site.observed, key with
    | some _, _ => next site key s
    | none, none => (.failure (.missingKey site.name), s)
    | none, some k =>
      let number := site.distribution.cacheKey k
      match (s.store store).get? number with
      | .error e => (.failure e, s)
      | .ok (some text) =>
        match Json.ofText? text with
        | some v => (.value v, s)
        | none => (.failure .serialization, s)
      | .ok none =>
        match next site (some k) s with
        | (.value v, s) =>
          match s.keep store number v.text with
          | .ok s => (.value v, s)
          | .error e => (.failure e, s)
        | unanswered => unanswered

/-- **Record what is answered.** A site that is in the trace is refused. -/
def drawRecorder (id : Nat) (next : Answerer) : Answerer :=
  fun site key s =>
    if (s.trace id).contains site.name then
      (.failure (.duplicateSite site.name), s)
    else
      match next site key s with
      | (.value v, s) =>
        if (s.trace id).contains site.name then
          (.failure (.duplicateSite site.name), s)
        else
          (.value v,
            s.setTrace id ((s.trace id).insert site.name (site.node key v)))
      | unanswered => unanswered

/-- **Answer named sites with fixed values.** Observations pass. -/
def drawCondition (data : OrderedMap String Json) (next : Answerer) :
    Answerer :=
  fun site key s =>
    match site.observed, data.get? site.name with
    | none, some v => (.value v, s)
    | _, _ => next site key s

/-- **Answer every draw with a recorded value.** -/
def drawReplay (values : OrderedMap String Json) : Answerer :=
  fun site _ s =>
    match site.observed, values.get? site.name with
    | some v, _ => (.value v, s)
    | none, some v => (.value v, s)
    | none, none => (.failure (.unknownSite site.name), s)

/-- **Answer a draw**, given who answers what is handed on. -/
def draw (id : Nat) (h : Handler) (next : Answerer) : Answerer :=
  match h with
  | .standard detectReuse => drawStandard id detectReuse
  | .thread force => drawThread id force next
  | .memo cache => drawMemo cache next
  | .persistent store => drawPersistent store next
  | .recorder => drawRecorder id next
  | .condition data => drawCondition data next
  | .replay values => drawReplay values
  | .substitute d => fun site key s => next { site with distribution := d } key s
  | .spy => fun site key s => next site key (s.sight id site.name key)
  | .constant v => fun _ _ s => (.value v, s)
  | .rekey key => fun site _ s => next site key s

/-- A thread lets observations and keyed draws pass. -/
theorem drawThread_of_keyed {id : Nat} {next : Answerer} {site : Site}
    {key : Option RandomKey} (h : site.observed.isSome = true ∨ key.isSome = true)
    (s : Shared) : drawThread id false next site key s = next site key s := by
  unfold drawThread
  rcases h with h | h
  · rw [h]
    rfl
  · rw [h]
    exact if_pos (Bool.or_true _)

/-- A thread gives a draw without a key the deeper half of the one it holds. -/
theorem drawThread_of_unkeyed {id : Nat} {next : Answerer} {site : Site}
    (h : site.observed = none) (s : Shared) :
    drawThread id false next site none s
      = next site (some (s.heldKey id).deeper)
        (s.hold id (s.heldKey id).incremented) := by
  unfold drawThread
  rw [h]
  rfl

end Handler

namespace Chain

/-- **Answer a draw.** A branching instance sends what it selects down its own
chain, past the rest of this one. -/
def draw : Chain → Answerer
  | .empty => fun site _ s => (site.unanswered, s)
  | .link id handler rest => handler.draw id rest.draw
  | .branch _ selects alternate rest => fun site key s =>
    if selects site.name site.distribution then alternate.draw site key s
    else rest.draw site key s

theorem draw_link (id : Nat) (handler : Handler) (rest : Chain) :
    (link id handler rest).draw = handler.draw id rest.draw := rfl

theorem draw_branch_of_selects {id : Nat}
    {selects : String → Distribution → Bool} {alternate rest : Chain}
    {site : Site} (h : selects site.name site.distribution = true)
    (key : Option RandomKey) (s : Shared) :
    (branch id selects alternate rest).draw site key s
      = alternate.draw site key s := by
  simp [draw, h]

theorem draw_branch_of_not_selects {id : Nat}
    {selects : String → Distribution → Bool} {alternate rest : Chain}
    {site : Site} (h : selects site.name site.distribution = false)
    (key : Option RandomKey) (s : Shared) :
    (branch id selects alternate rest).draw site key s
      = rest.draw site key s := by
  simp [draw, h]

end Chain

end Resampler
