import Resampler.Program.Basic
import Resampler.Proofs.Chain.Regime

/-!
# Scopes and what they install

Every scope puts its instance on one list, which all contexts share, and takes it off
again; a call of a scope is refused if its instance is on the list. Whether the list is kept
rightly is a question about whole executions. Calls nest and follow one another, through
contexts that need not have anything to do with one another; the part inside a scope may
end in three ways; and a refused call holds an instance that is not its own to release.

`Program.calls` goes through an execution and says of each call which scopes it is made in,
as the nest of the calls has it, without a look at the list. `Program.scopes_bracket` is
the theorem: at every call the list holds what the scopes around it have installed, and
what was there before the execution, so a call is refused just if its instance is linked
or in one of them. What a call leaves on the list is what it found there.
-/

namespace Resampler

/-! ## The calls of an execution -/

/-- **A call of a scope**, in the state that it finds. -/
structure ScopeCall (σ : Type) where
  /-- The context that the scope is opened on. -/
  context : Context
  /-- The instance that it installs. -/
  layer : Layer
  /-- The part to be run inside. -/
  body : Context → Program σ
  /-- The instances of the scopes that the call is made in, the innermost first. -/
  opened : List Nat
  /-- The state that the call finds. -/
  state : Shared

namespace ScopeCall

variable {σ : Type}

/-- **What a call comes to**: what the caller is told, and the state it goes on in. -/
def answer (call : ScopeCall σ) : Except Error (Ending σ) × Shared :=
  if call.context.admits call.state call.layer then
    let (ending, s) :=
      (call.body (call.context.inside call.layer)).run (call.state.install call.layer.id)
    (.ok ending, s.release call.layer.id)
  else (.error .reentrant, call.state)

theorem answer_of_admits {call : ScopeCall σ}
    (h : call.context.admits call.state call.layer = true) :
    call.answer
      = (.ok ((call.body (call.context.inside call.layer)).run
          (call.state.install call.layer.id)).1,
        ((call.body (call.context.inside call.layer)).run
          (call.state.install call.layer.id)).2.release call.layer.id) :=
  if_pos h

theorem answer_of_not_admits (call : ScopeCall σ)
    (h : ¬ call.context.admits call.state call.layer = true) :
    call.answer = (.error .reentrant, call.state) :=
  if_neg h

end ScopeCall

namespace Context

theorem admits_iff {c : Context} {s : Shared} {layer : Layer} :
    c.admits s layer = true ↔ layer.id ∉ c.chain.ids ∧ layer.id ∉ s.installed := by
  simp [admits, Chain.contains]

/-- Whether an instance may be installed depends on what is installed and on nothing else
that is remembered. -/
theorem admits_congr {s s' : Shared} (h : s'.installed = s.installed) (c : Context)
    (layer : Layer) : c.admits s' layer = c.admits s layer := by
  rw [admits, admits, h]

end Context

namespace Program

variable {σ : Type}

/-- **The calls of scopes that an execution makes**, in order, those inside a scope after
the call that opened it. Which scopes are open around a call is read off the nest. -/
def calls (opened : List Nat) : Program σ → Shared → List (ScopeCall σ)
  | .finish _ _, _ => []
  | .draw context site next, s =>
    (next (context.draw site s).1).calls opened (context.draw site s).2
  | .scope context layer body next, s =>
    let call : ScopeCall σ := ⟨context, layer, body, opened, s⟩
    let inner := match call.answer.1 with
      | .ok _ => (body (context.inside layer)).calls (layer.id :: opened) (s.install layer.id)
      | .error _ => []
    call :: inner ++ (next call.answer.1).calls opened call.answer.2
  | .cancel token next, s => next.calls opened (s.cancel token)

/-- **After a call the execution goes on with what the call came to.** -/
theorem run_scope (context : Context) (layer : Layer) (body : Context → Program σ)
    (next : Except Error (Ending σ) → Program σ) (opened : List Nat) (s : Shared) :
    (scope context layer body next).run s
      = (next (ScopeCall.answer ⟨context, layer, body, opened, s⟩).1).run
        (ScopeCall.answer ⟨context, layer, body, opened, s⟩).2 := by
  by_cases ha : context.admits s layer = true
  · rw [run_scope_of_admits ha, ScopeCall.answer_of_admits ha]
  · rw [run_scope_of_not_admits ha, ScopeCall.answer_of_not_admits _ ha]

/-- **What an execution leaves installed is what it found installed**, however it ends. -/
theorem installed_run (p : Program σ) (s : Shared) : (p.run s).2.installed = s.installed := by
  induction p generalizing s with
  | finish outcome locals => rfl
  | draw context site next ih =>
    rw [run_draw, ih]
    exact (context.sameNumbers_draw site s).installed
  | scope context layer body next ihb ihn =>
    by_cases ha : context.admits s layer = true
    · rw [run_scope_of_admits ha, ihn]
      -- The scope installs on top of the list, and what it releases is still on top.
      show (((body (context.inside layer)).run (s.install layer.id)).2.installed).erase layer.id
        = s.installed
      rw [ihb, Shared.install, List.erase_cons_head]
    · rw [run_scope_of_not_admits ha, ihn]
  | cancel token next ih =>
    rw [run_cancel, ih]
    rfl

end Program

namespace ScopeCall

variable {σ : Type}

/-- What a call leaves installed is what it found installed. -/
theorem installed_answer (call : ScopeCall σ) :
    call.answer.2.installed = call.state.installed := by
  by_cases ha : call.context.admits call.state call.layer = true
  · rw [answer_of_admits ha]
    show (Shared.installed (Program.run _ _).2).erase call.layer.id = call.state.installed
    rw [Program.installed_run, Shared.install, List.erase_cons_head]
  · rw [call.answer_of_not_admits ha]

/-- A call is refused just if its instance is linked or installed. -/
theorem refused_iff (call : ScopeCall σ) :
    call.answer.1 = .error .reentrant
      ↔ call.layer.id ∈ call.context.chain.ids ∨ call.layer.id ∈ call.state.installed := by
  by_cases ha : call.context.admits call.state call.layer = true
  · rw [answer_of_admits ha]
    have hfree := Context.admits_iff.mp ha
    exact ⟨nofun, fun hin => absurd hin (not_or.mpr hfree)⟩
  · rw [call.answer_of_not_admits ha]
    refine ⟨fun _ => ?_, fun _ => rfl⟩
    rw [Context.admits_iff, Classical.not_and_iff_not_or_not, Classical.not_not,
      Classical.not_not] at ha
    exact ha

/-- **How a call brackets its instance**, with what was installed outside of the execution. -/
structure Brackets (call : ScopeCall σ) (outside : List Nat) : Prop where
  /-- Installed are the instances of the open scopes, and those from outside. -/
  installed : call.state.installed = call.opened ++ outside
  /-- No instance is in two open scopes. -/
  once : call.opened.Nodup ∧ ∀ id ∈ call.opened, id ∉ outside
  /-- The call is refused just if its instance is linked or in an open scope. -/
  refused : call.answer.1 = .error .reentrant
    ↔ call.layer.id ∈ call.context.chain.ids ∨ call.layer.id ∈ call.opened
      ∨ call.layer.id ∈ outside
  /-- A refused call would have come to the same with any other part inside, and leaves the
  state as it is. -/
  unrun : ∀ e, call.answer.1 = .error e → e = .reentrant
    ∧ ∀ body : Context → Program σ,
      answer { call with body := body } = (.error .reentrant, call.state)
  /-- The part inside one that is not refused runs with the instance on top of the chain and
  under the same token, and the caller is told how it ended. -/
  runs : ∀ ending, call.answer.1 = .ok ending → ∃ (inner : Context) (final : Shared),
    inner.chain = call.context.chain.push call.layer
      ∧ inner.chain.ids = call.layer.id :: call.context.chain.ids
      ∧ inner.token = call.context.token
      ∧ (call.body inner).run (call.state.install call.layer.id) = (ending, final)
      ∧ call.answer.2 = final.release call.layer.id
  /-- Whatever the call came to, what it leaves installed is what it found installed. -/
  restores : call.answer.2.installed = call.state.installed
  /-- So an instance may be installed afterwards just if it might have been before. -/
  again : ∀ (c : Context) (layer : Layer),
    c.admits call.answer.2 layer = c.admits call.state layer

/-- **One call**: that the list is right when it is made is all that is needed. -/
theorem Brackets.of_installed {call : ScopeCall σ} {outside : List Nat}
    (hinstalled : call.state.installed = call.opened ++ outside)
    (honce : call.opened.Nodup ∧ ∀ id ∈ call.opened, id ∉ outside) :
    call.Brackets outside where
  installed := hinstalled
  once := honce
  refused := by rw [refused_iff, hinstalled, List.mem_append]
  unrun e he := by
    by_cases ha : call.context.admits call.state call.layer = true
    · rw [answer_of_admits ha] at he
      cases he
    · rw [call.answer_of_not_admits ha] at he
      cases he
      exact ⟨rfl, fun body => answer_of_not_admits { call with body := body } ha⟩
  runs ending he := by
    by_cases ha : call.context.admits call.state call.layer = true
    · rw [answer_of_admits ha] at he ⊢
      cases he
      exact ⟨call.context.inside call.layer, _, rfl, Chain.ids_push _ _, rfl, rfl, rfl⟩
    · rw [call.answer_of_not_admits ha] at he
      cases he
  restores := installed_answer call
  again c layer := Context.admits_congr (installed_answer call) c layer

end ScopeCall

namespace Program

variable {σ : Type}

/-- **The calls of an execution that is itself in open scopes** bracket their instances. -/
theorem brackets_of_mem_calls (p : Program σ) {opened outside : List Nat} {s : Shared}
    (hinstalled : s.installed = opened ++ outside)
    (honce : opened.Nodup ∧ ∀ id ∈ opened, id ∉ outside) {call : ScopeCall σ}
    (hcall : call ∈ p.calls opened s) : call.Brackets outside := by
  induction p generalizing opened s with
  | finish outcome locals => cases hcall
  | draw context site next ih =>
    exact ih _ ((context.sameNumbers_draw site s).installed.trans hinstalled) honce hcall
  | scope context layer body next ihb ihn =>
    have hthis : ScopeCall.Brackets ⟨context, layer, body, opened, s⟩ outside :=
      .of_installed hinstalled honce
    rcases List.mem_append.mp hcall with hinner | hafter
    · rcases List.mem_cons.mp hinner with rfl | hinner
      · exact hthis
      · split at hinner
        · next ending hran =>
          -- What is installed inside is in no other scope, or the call had been refused.
          have hfree := mt hthis.refused.mpr (hran ▸ nofun)
          rw [not_or, not_or] at hfree
          refine ihb _ (congrArg (layer.id :: ·) hinstalled)
            ⟨List.nodup_cons.mpr ⟨hfree.2.1, honce.1⟩, fun id hid => ?_⟩ hinner
          rcases List.mem_cons.mp hid with rfl | hid
          · exact hfree.2.2
          · exact honce.2 id hid
        · cases hinner
    · exact ihn _ (hthis.restores.trans hinstalled) honce hafter
  | cancel token next ih =>
    have hcancel : (s.cancel token).installed = opened ++ outside := hinstalled
    exact ih hcancel honce hcall

/-- **Scopes bracket their instances.** However a program nests its calls, over whatever
contexts, and however the parts inside end: each call is refused just if its instance is
linked or in an open scope, otherwise its part runs with the instance on top, and each
leaves installed what it found. -/
theorem scopes_bracket (p : Program σ) (s : Shared) :
    (p.run s).2.installed = s.installed
      ∧ ∀ call ∈ p.calls [] s, call.Brackets s.installed :=
  ⟨p.installed_run s, fun _ hcall =>
    p.brackets_of_mem_calls rfl ⟨List.nodup_nil, nofun⟩ hcall⟩

/-- An instance is refused inside its own scope, which ends in a panic, and taken again
after it. -/
example : let c : Context := ⟨.empty, .ofId 0⟩
    let inside (c : Context) : Program Unit :=
      .scope c (.plain 7 .spy) (fun _ => .finish (.value ()) ()) fun _ => .finish (.panic none) ()
    let p : Program Unit := .scope c (.plain 7 .spy) inside fun _ => inside c
    (p.calls [] (.start "/")).map (fun call => (call.opened, call.answer.1.isOk))
      = [([], true), ([7], false), ([], true)] := rfl

end Program

end Resampler
