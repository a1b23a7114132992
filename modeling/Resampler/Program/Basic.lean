import Resampler.Context

/-!
# Programs

A program is seen only through what it asks of its contexts. It draws, it runs
a part of itself in a scope, it cancels a token, and in the end it finishes
with an outcome and leaves its locals behind. What it does next may depend on
every answer it got, in any way; that is the function that each request
carries.

A scope is open while the part inside it runs, and closed however that part
ends. A program whose inner part panics is told so, and passes the panic on if
it does not contain it.
-/

namespace Resampler

/-- **How a program, or a part of it, has ended**, with the locals it left. -/
abbrev Ending (σ : Type) := Outcome Error Unit × σ

/-- **A program** with locals of type `σ`. -/
inductive Program (σ : Type) where
  /-- End. -/
  | finish (outcome : Outcome Error Unit) (locals : σ)
  /-- Ask a context for a value. -/
  | draw (context : Context) (site : Site) (next : Reply → Program σ)
  /-- Run a part with an instance installed on top of a context; it is refused
  if the instance is in use. -/
  | scope (context : Context) (layer : Layer) (body : Context → Program σ)
    (next : Except Error (Outcome Error Unit × σ) → Program σ)
  /-- Cancel a token. -/
  | cancel (token : Token) (next : Program σ)

namespace Program

variable {σ : Type}

/-- **Run a program**: its ending, and the state it leaves. -/
def run : Program σ → Shared → Ending σ × Shared
  | .finish outcome locals, s => ((outcome, locals), s)
  | .draw context site next, s =>
    let (reply, s) := context.draw site s
    (next reply).run s
  | .scope context layer body next, s =>
    if context.admits s layer then
      let (ending, s) := (body (context.inside layer)).run (s.install layer.id)
      (next (.ok ending)).run (s.release layer.id)
    else (next (.error .reentrant)).run s
  | .cancel token next, s => next.run (s.cancel token)

@[simp] theorem run_finish (outcome : Outcome Error Unit) (locals : σ)
    (s : Shared) : (finish outcome locals).run s = ((outcome, locals), s) := rfl

@[simp] theorem run_draw (context : Context) (site : Site)
    (next : Reply → Program σ) (s : Shared) :
    (draw context site next).run s
      = (next (context.draw site s).1).run (context.draw site s).2 := rfl

theorem run_scope_of_admits {context : Context} {layer : Layer} {s : Shared}
    (h : context.admits s layer = true) (body : Context → Program σ)
    (next : Except Error (Outcome Error Unit × σ) → Program σ) :
    (scope context layer body next).run s
      = (next (.ok ((body (context.inside layer)).run (s.install layer.id)).1)).run
        (((body (context.inside layer)).run (s.install layer.id)).2.release
          layer.id) := by
  rw [run, if_pos h]

theorem run_scope_of_not_admits {context : Context} {layer : Layer} {s : Shared}
    (h : ¬ context.admits s layer = true) (body : Context → Program σ)
    (next : Except Error (Outcome Error Unit × σ) → Program σ) :
    (scope context layer body next).run s = (next (.error .reentrant)).run s := by
  rw [run, if_neg h]

@[simp] theorem run_cancel (token : Token) (next : Program σ) (s : Shared) :
    (cancel token next).run s = next.run (s.cancel token) := rfl

end Program

/-- **Which execution of a model this is**: how many came before it, and the
token of the sampler that runs it, if one does. -/
structure Execution where
  /-- How many executions came before. -/
  index : Nat
  /-- The token of the sampler. -/
  sampler : Option Token

/-- **A model**: the program of each of its executions in a given context. -/
abbrev Model (σ : Type) := Execution → Context → Program σ

end Resampler
