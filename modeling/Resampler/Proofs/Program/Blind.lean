import Resampler.Proofs.Chain.Regime
import Resampler.Proofs.Program.Inquiry

/-!
# Programs that do not look into what they are handed

A program is handed a context and could look at the chain in it. One that does not, and
only draws through it, opens scopes on it and cancels its token, is the same program in
every context: what two of its executions ask for differs only in the contexts that they
were handed. `Program.Alike` says this of two programs, given which contexts correspond.

`Model.IsBlind` is parametricity in the contexts: the executions are alike whatever it is
that corresponds, as long as what the program has of its own corresponds to itself, and
what it is handed to what it is handed. Programs that only ask are blind, and have nothing
of their own.
-/

namespace Resampler

variable {σ : Type}

/-- **Two programs that are alike** up to the contexts and tokens that they use; the
instances that they install are the same. -/
inductive Program.Alike (C : Context → Context → Prop) (T : Token → Token → Prop)
    (L : Layer → Prop) : Program σ → Program σ → Prop where
  | finish (outcome : Outcome Error Unit) (locals : σ) :
    Alike C T L (.finish outcome locals) (.finish outcome locals)
  | draw {c c' : Context} {site : Site} {next next' : Reply → Program σ} (context : C c c')
    (go : ∀ reply, Alike C T L (next reply) (next' reply)) :
    Alike C T L (.draw c site next) (.draw c' site next')
  | scope {c c' : Context} {layer : Layer} {body body' : Context → Program σ}
    {next next' : Except Error (Outcome Error Unit × σ) → Program σ} (context : C c c')
    (own : L layer) (inner : Alike C T L (body (c.inside layer)) (body' (c'.inside layer)))
    (go : ∀ ending, Alike C T L (next ending) (next' ending)) :
    Alike C T L (.scope c layer body next) (.scope c' layer body' next')
  | cancel {τ τ' : Token} {next next' : Program σ} (token : T τ τ')
    (go : Alike C T L next next') : Alike C T L (.cancel τ next) (.cancel τ' next')

/-- **What a program has of its own**: the numbers of its instances, their kinds, and the
numbers of its tokens. -/
structure Belongings where
  /-- The numbers of its instances. -/
  numbers : Nat → Prop
  /-- The kinds of its instances. -/
  kinds : Handler → Prop
  /-- The numbers of its tokens. -/
  tokens : Nat → Prop

namespace Belongings

variable (B : Belongings)

/-- A chain of its own. -/
def HasChain : Chain → Prop
  | .empty => True
  | .link id h rest => B.numbers id ∧ B.kinds h ∧ HasChain rest
  | .branch id _ alternate rest => B.numbers id ∧ HasChain alternate ∧ HasChain rest

/-- An instance of its own. -/
def HasLayer : Layer → Prop
  | .plain id h => B.numbers id ∧ B.kinds h
  | .branch id _ alternate => B.numbers id ∧ B.HasChain alternate

/-- A token of its own. -/
def HasToken (τ : Token) : Prop := ∀ id ∈ τ.lineage, B.tokens id

/-- A context of its own. -/
def HasContext (c : Context) : Prop := B.HasChain c.chain ∧ B.HasToken c.token

/-- **A correspondence that a program cannot get out of**: its own contexts and tokens
correspond to themselves, and the contexts inside its scopes to each other. -/
structure Relates (C : Context → Context → Prop) (T : Token → Token → Prop) : Prop where
  contexts : ∀ {c}, B.HasContext c → C c c
  tokens : ∀ {τ}, B.HasToken τ → T τ τ
  token : ∀ {c c'}, C c c' → T c.token c'.token
  inside : ∀ {c c' layer}, C c c' → B.HasLayer layer → C (c.inside layer) (c'.inside layer)

/-- Nothing. -/
def none : Belongings := ⟨fun _ => False, fun _ => False, fun _ => False⟩

end Belongings

/-- **A model whose executions do not look into what they are handed.** The one that comes
after `i` others and the one that comes after `j` others are alike, in whatever contexts. -/
def Model.IsBlind (B : Belongings) (m : Model σ) (i j : Nat) : Prop :=
  ∀ (C : Context → Context → Prop) (T : Token → Token → Prop), B.Relates C T →
    ∀ {τ τ' c c'}, T τ τ' → C c c' →
      (m ⟨i, some τ⟩ c).Alike C T B.HasLayer (m ⟨j, some τ'⟩ c')

/-- What holds of all contexts that correspond to others holds of those that a program
draws through. -/
theorem Program.Alike.within {C : Context → Context → Prop} {T : Token → Token → Prop}
    {L : Layer → Prop} {A : Context → Prop} (hC : ∀ {c c'}, C c c' → A c) {p p' : Program σ}
    (h : p.Alike C T L p') : p.Within fun c _ => A c := by
  induction h with
  | finish outcome locals => trivial
  | draw context go ih => exact ⟨hC context, ih⟩
  | scope context own inner go ihb ihn => exact ⟨ihb, ihn⟩
  | cancel token go ih => exact ih

/-- A chain of its own is laid over anything. -/
theorem Belongings.HasChain.laidOver {B : Belongings} {permitted : Nat → Handler → Prop}
    (hp : ∀ {n k}, B.numbers n → B.kinds k → permitted n k) (base : Chain) {c : Chain}
    (hc : B.HasChain c) : base.LaidOver permitted c := by
  induction c with
  | empty => exact .empty
  | link id h rest ih => exact .link (hp hc.1 hc.2.1) (ih hc.2.2)
  | branch id selects alternate rest iha ihr => exact .branch (iha hc.2.1) (ihr hc.2.2)

/-- **A program that does not look into what it is handed** draws through nothing but
layers of its own over it. -/
theorem Model.IsBlind.within {B : Belongings} {m : Model σ} {i j : Nat} (h : m.IsBlind B i j)
    {permitted : Nat → Handler → Prop} (hp : ∀ {n k}, B.numbers n → B.kinds k → permitted n k)
    {base : Chain} (τ : Token) {c : Context} (hc : base.LaidOver permitted c.chain) :
    (m ⟨i, some τ⟩ c).Within fun c' _ => base.LaidOver permitted c'.chain := by
  have hrelates : B.Relates (fun c _ => base.LaidOver permitted c.chain) fun _ _ => True :=
    { contexts := fun hc => hc.1.laidOver hp base
      tokens := fun _ => trivial
      token := fun _ => trivial
      inside := fun {c _ layer} hc hl => by
        cases layer with
        | plain id handler => exact .link (hp hl.1 hl.2) hc
        | branch id selects alternate => exact .branch (hl.2.laidOver hp base) hc }
  have halike : (m ⟨i, some τ⟩ c).Alike (fun c _ => base.LaidOver permitted c.chain)
      (fun _ _ => True) B.HasLayer (m ⟨j, some τ⟩ c) := h _ _ hrelates trivial hc
  exact Program.Alike.within (A := fun c => base.LaidOver permitted c.chain) id halike

/-- A program that only asks is alike through corresponding contexts. -/
theorem Inquiry.alike_through (q : Inquiry σ) {C : Context → Context → Prop}
    {T : Token → Token → Prop} {L : Layer → Prop} {c c' : Context} (h : C c c') :
    (q.through c).Alike C T L (q.through c') := by
  induction q with
  | finish outcome locals => exact .finish outcome locals
  | ask site next ih => exact .draw h ih

/-- **Programs that only ask are blind.** -/
theorem Inquiry.isBlind_through (q : Inquiry σ) (B : Belongings) (i j : Nat) :
    Model.IsBlind B (fun _ c => q.through c) i j :=
  fun _ _ _ _ _ _ _ _ hc => q.alike_through hc

end Resampler
