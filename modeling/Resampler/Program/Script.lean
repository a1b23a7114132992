import Resampler.Program.Basic

/-!
# Scripts

A script is a program written down as a list of statements. It has variables
with JSON values, which all its blocks share, and keeps a log of what it drew.
The names of sites and the parameters of distributions are expressions over
the variables; a variable without a value counts as `null`.

A statement that fails ends the block it stands in, and so on outwards, until a
statement attempts the block and logs the failure. A panic ends the script.
-/

namespace Resampler

namespace Script

/-- **The values of variables.** -/
abbrev Variables := String → Json

/-- A piece of a template. -/
inductive Piece where
  | literal (text : String)
  | variable (name : String)

/-- **A text with variables in it.** -/
abbrev Template := List Piece

/-- The text that a value shows as: a string as itself, any other value as its
JSON text. -/
def shown : Json → String
  | .string s => s
  | v => v.text

/-- The text of a template. -/
def Template.text (t : Template) (vars : Variables) : String :=
  t.foldl (fun text piece =>
    match piece with
    | .literal s => text ++ s
    | .variable x => text ++ shown (vars x)) ""

/-- **A value, given or held by a variable.** -/
inductive ValueTerm where
  | literal (value : Json)
  | variable (name : String)

/-- The value of a term. -/
def ValueTerm.value (vars : Variables) : ValueTerm → Json
  | .literal v => v
  | .variable x => vars x

/-- **A floating-point number, given or held by a variable.** -/
inductive RealTerm where
  | literal (value : Float)
  | variable (name : String)

/-- The number of a term; zero for a variable that holds none. -/
def RealTerm.value (vars : Variables) : RealTerm → Float
  | .literal x => x
  | .variable x =>
    match vars x with
    | .number n => n.toFloat
    | _ => Float.ofBits 0

/-- **How often to repeat: a number, given or held by a variable.** -/
inductive CountTerm where
  | literal (value : Nat)
  | variable (name : String)

/-- The number of a term; zero for a variable that holds none. -/
def CountTerm.value (vars : Variables) : CountTerm → Nat
  | .literal n => n
  | .variable x => (vars x).nat?.getD 0

/-- **A distribution with variable parameters.** -/
inductive DistributionTerm where
  | uniformHash (seed : Template)
  | normal (mean std : RealTerm)
  | categorical (choices : List ValueTerm)
  | fallible (message : Template)
  | constant (value describe : ValueTerm)
  | panicking (message : Template)
  | panickingWith (text : Bool)

/-- The distribution of a term. -/
def DistributionTerm.distribution (vars : Variables) :
    DistributionTerm → Distribution
  | .uniformHash seed => .uniformHash (seed.text vars)
  | .normal mean std => .normal (mean.value vars) (std.value vars)
  | .categorical choices => .categorical (choices.map (·.value vars))
  | .fallible message => .fallible (message.text vars)
  | .constant value describe => .constant (value.value vars) (describe.value vars)
  | .panicking message => .panicking (message.text vars)
  | .panickingWith text => .panickingWith text

/-- **A line of the log.** -/
inductive LogEntry where
  /-- A draw or observation, and what it came to. -/
  | asked (site : String) (answer : Except Error Json)
  /-- A failure that was attempted. -/
  | caught (error : Error)
  /-- A scope that was entered, and the length of the chain inside. -/
  | entered (length : Nat)

/-- **The variables and the log of a script.** -/
structure Locals where
  /-- The variables that have a value. -/
  bindings : OrderedMap String Json
  /-- The log, the first line first. -/
  log : List LogEntry

namespace Locals

/-- No variable has a value, and nothing is logged. -/
def empty : Locals := ⟨.empty, []⟩

/-- The values of the variables. -/
def vars (l : Locals) : Variables := fun x => (l.bindings.get? x).getD .null

/-- Give a variable a value. -/
def bind (l : Locals) (x : String) (v : Json) : Locals :=
  { l with bindings := l.bindings.insert x v }

/-- Give a variable a value, if one is named. -/
def bind? (l : Locals) (x : Option String) (v : Json) : Locals :=
  match x with
  | some x => l.bind x v
  | none => l

/-- Add a line to the log. -/
def note (l : Locals) (entry : LogEntry) : Locals :=
  { l with log := l.log ++ [entry] }

end Locals

end Script

/-- **A statement of a script.** -/
inductive Statement where
  /-- Draw a site and bind a variable to its value. -/
  | draw (site : Script.Template) (distribution : Script.DistributionTerm)
    (target : Option String)
  /-- Observe a value at a site, and bind a variable to the answer. -/
  | observe (site : Script.Template) (distribution : Script.DistributionTerm)
    (value : Script.ValueTerm) (target : Option String)
  /-- Bind a variable. -/
  | assign (target : String) (value : Script.ValueTerm)
  /-- Compare a variable with a value and go on with one of two blocks. -/
  | branch (tested : String) (value : Json) (same other : List Statement)
  /-- Repeat a block, with a variable that counts from zero. -/
  | loop (count : Script.CountTerm) (counter : Option String)
    (body : List Statement)
  /-- Run a block in one execution of the script only. -/
  | onExecution (index : Nat) (body : List Statement)
  /-- Run a block and go on if it fails. -/
  | attempt (body : List Statement)
  /-- Run a block with an instance installed. -/
  | scope (layer : Layer) (body : List Statement)
  /-- Run a block in another context. -/
  | within (context : Context) (body : List Statement)
  /-- Cancel a token, or the token of the sampler that runs the script. -/
  | cancel (token : Option Token)
  /-- Fail. -/
  | fail (error : Error)
  /-- Panic. -/
  | panic (message : String)

namespace Script

/-- **What follows a statement or block**, by how it ended. -/
abbrev Rest := Outcome Error Unit → Locals → Program Locals

/-- What follows an answer to a site: it is logged, a value is bound, and a
failure ends the statement. A panic is not logged. -/
def answered (site : String) (target : Option String) (l : Locals) (rest : Rest) :
    Reply → Program Locals
  | .value v =>
    rest (.value ()) ((l.note (.asked site (.ok v))).bind? target v)
  | .failure e => rest (.failure e) (l.note (.asked site (.error e)))
  | .panic p => rest (.panic p) l

/-- Repeat a part that is told how often it ran before, until it fails. -/
def repeated (body : Nat → Locals → Rest → Program Locals) :
    Nat → Nat → Locals → Rest → Program Locals
  | 0, _, l, rest => rest (.value ()) l
  | n + 1, i, l, rest =>
    body i l fun outcome l =>
      match outcome with
      | .value () => repeated body n (i + 1) l rest
      | outcome => rest outcome l

mutual

/-- **The program of a statement**, with what follows it. -/
def statement (x : Execution) :
    Statement → Context → Locals → Rest → Program Locals
  | .draw site d target, c, l, rest =>
    let name := site.text l.vars
    Program.draw c (.drawn name (d.distribution l.vars))
      (answered name target l rest)
  | .observe site d v target, c, l, rest =>
    let name := site.text l.vars
    Program.draw c (.seen name (d.distribution l.vars) (v.value l.vars))
      (answered name target l rest)
  | .assign target v, _, l, rest =>
    rest (.value ()) (l.bind target (v.value l.vars))
  | .branch y v same other, c, l, rest =>
    if (l.vars y).same v then block x same c l rest
    else block x other c l rest
  | .loop count counter body, c, l, rest =>
    repeated (fun i l rest => block x body c (l.bind? counter (.ofNat i)) rest)
      (count.value l.vars) 0 l rest
  | .onExecution index body, c, l, rest =>
    if x.index = index then block x body c l rest else rest (.value ()) l
  | .attempt body, c, l, rest =>
    block x body c l fun outcome l =>
      match outcome with
      | .failure e => rest (.value ()) (l.note (.caught e))
      | outcome => rest outcome l
  | .scope layer body, c, l, rest =>
    .scope c layer
      (fun inner =>
        block x body inner (l.note (.entered inner.chain.length)) .finish)
      fun
        | .ok (outcome, l) => rest outcome l
        | .error e => rest (.failure e) l
  | .within other body, _, l, rest => block x body other l rest
  | .cancel (some token), _, l, rest => .cancel token (rest (.value ()) l)
  | .cancel none, _, l, rest =>
    match x.sampler with
    | some token => .cancel token (rest (.value ()) l)
    | none => rest (.value ()) l
  | .fail e, _, l, rest => rest (.failure e) l
  | .panic message, _, l, rest => rest (.panic (some message)) l

/-- **The program of a block**, with what follows it. -/
def block (x : Execution) :
    List Statement → Context → Locals → Rest → Program Locals
  | [], _, l, rest => rest (.value ()) l
  | s :: ss, c, l, rest =>
    statement x s c l fun outcome l =>
      match outcome with
      | .value () => block x ss c l rest
      | outcome => rest outcome l

end

/-- **The model that a script stands for.** -/
def model (script : List Statement) : Model Locals :=
  fun x c => block x script c .empty .finish

end Script

end Resampler
