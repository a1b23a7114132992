import Resampler.Chain.Draw

/-!
# Observations pass through every chain

A draw that brings its value along is an observation. Of the interpreters that
the library ships, a standard one and a replay answer it with that value, a
recorder records it, and all others let it pass as it came: a thread gives it
no key, a cache and a store neither look for it nor keep it, a condition does
not replace its value.

So a chain of such interpreters does to an observation what the recorders do
that stand on its way, and nothing else. A name that one of them already has is
refused. That may be because the same recorder stands on the way twice, on the
line and in a branch; the inner one has then recorded the observation before
the outer one refuses it. `Chain.passes_draw` says all this of one draw, for
every chain, state, key and site.
-/

namespace Resampler

/-- **The interpreters that the library ships**, apart from the branching one.
The others are a program's own. -/
def Handler.IsShipped : Handler → Prop
  | .standard _ | .thread _ | .memo _ | .persistent _ => True
  | .recorder | .condition _ | .replay _ => True
  | .substitute _ | .spy | .constant _ | .rekey _ => False

namespace Handler

/-- **The interpreters that let observations pass** as they came. -/
def LetsPass : Handler → Prop
  | .thread _ | .memo _ | .persistent _ | .condition _ => True
  | _ => False

/-- They leave an observation to who is next. -/
theorem LetsPass.draw_observed {h : Handler} (hh : h.LetsPass) {site : Site} {v : Json}
    (ho : site.observed = some v) (id : Nat) (next : Answerer) (key : Option RandomKey)
    (s : Shared) : h.draw id next site key s = next site key s := by
  cases h with
  | thread force =>
    show drawThread id force next site key s = _
    unfold drawThread
    rw [ho]
    rfl
  | memo cache =>
    show drawMemo cache next site key s = _
    unfold drawMemo
    rw [ho]
  | persistent store =>
    show drawPersistent store next site key s = _
    unfold drawPersistent
    rw [ho]
  | condition data =>
    show drawCondition data next site key s = _
    unfold drawCondition
    rw [ho]
  | _ => exact hh.elim

end Handler

namespace Chain

/-- A chain of shipped interpreters, on all of its branches. -/
def IsShipped : Chain → Prop
  | .empty => True
  | .link _ h rest => h.IsShipped ∧ rest.IsShipped
  | .branch _ _ alternate rest => alternate.IsShipped ∧ rest.IsShipped

/-- **The recorders on the way of an observation**, the outermost first. The way
ends at an interpreter that answers. -/
def recorders (site : Site) : Chain → List Nat
  | .empty => []
  | .link _ (.standard _) _ | .link _ (.replay _) _ => []
  | .link id .recorder rest => id :: rest.recorders site
  | .link _ _ rest => rest.recorders site
  | .branch _ selects alternate rest =>
    if selects site.name site.distribution then alternate.recorders site
    else rest.recorders site

end Chain

/-- **A recorder has appended a node**, under a name that it did not have. -/
def Shared.Appends (s s' : Shared) (name : String) (node : TraceNode) (id : Nat) :
    Prop :=
  (s.trace id).contains name = false
    ∧ (s'.trace id).entries = (s.trace id).entries ++ [(name, node)]

theorem Shared.Appends.contains {s s' : Shared} {name : String} {node : TraceNode}
    {id : Nat} (h : s.Appends s' name node id) : (s'.trace id).contains name = true := by
  rw [OrderedMap.contains_iff]
  exact ⟨node, OrderedMap.get?_eq_some_iff.mpr (by rw [h.2]; simp)⟩

/-- **An observation has passed** the recorders with the given numbers, the
outermost first. -/
structure Passes (rs : List Nat) (site : Site) (key : Option RandomKey) (v : Json)
    (s : Shared) (out : Reply × Shared) : Prop where
  /-- The answer is the observed value, or a recorder on the way refuses a name that
  it has. -/
  answered : out.1 = .value v ∨ (out.1 = .failure (.duplicateSite site.name)
    ∧ ∃ id ∈ rs, (out.2.trace id).contains site.name = true)
  /-- It is the value if no recorder stands on the way twice or has the name before. -/
  answered_iff : out.1 = .value v
    ↔ rs.Nodup ∧ ∀ id ∈ rs, (s.trace id).contains site.name = false
  /-- Nothing of the state is changed but traces. -/
  frame : ∃ traces, out.2 = { s with traces := traces }
  /-- A trace is left as it is, or it is one of a recorder on the way and gets a node
  that is marked as observed. -/
  traced : ∀ id, out.2.trace id = s.trace id ∨ (id ∈ rs
    ∧ s.Appends out.2 site.name ⟨site.distribution, key, v, true⟩ id)
  /-- With the value, every recorder on the way has got it. -/
  recorded : out.1 = .value v → ∀ id ∈ rs,
    s.Appends out.2 site.name ⟨site.distribution, key, v, true⟩ id
  /-- What a recorder has from before is refused without a change. -/
  refused : ∀ id ∈ rs, (s.trace id).contains site.name = true →
    out = (.failure (.duplicateSite site.name), s)

section Passing

variable {site : Site} {key : Option RandomKey} {v : Json} {s : Shared}
variable {rs : List Nat}

/-- Where no recorder stands, the value answers and the state stays as it is. -/
theorem passes_value : Passes [] site key v s (.value v, s) where
  answered := .inl rfl
  answered_iff := ⟨fun _ => ⟨List.nodup_nil, fun _ h => nomatch h⟩, fun _ => rfl⟩
  frame := ⟨s.traces, rfl⟩
  traced _ := .inl rfl
  recorded _ _ h := nomatch h
  refused _ h := nomatch h

/-- A recorder that has the name refuses. -/
theorem passes_refused {id : Nat} (hid : (s.trace id).contains site.name = true) :
    Passes (id :: rs) site key v s (.failure (.duplicateSite site.name), s) where
  answered := .inr ⟨rfl, id, List.mem_cons_self, hid⟩
  answered_iff := by
    refine ⟨(nomatch ·), fun ⟨_, h⟩ => ?_⟩
    rw [h id List.mem_cons_self] at hid
    cases hid
  frame := ⟨s.traces, rfl⟩
  traced _ := .inl rfl
  recorded h := nomatch h
  refused _ _ _ := rfl

variable {id : Nat} {out : Reply × Shared}

/-- A recorder passes on a failure from below, and has recorded nothing. -/
theorem Passes.failed (h : Passes rs site key v s out)
    (hid : (s.trace id).contains site.name = false) (hv : out.1 ≠ .value v) :
    Passes (id :: rs) site key v s out where
  answered := by
    obtain ⟨hf, j, hj, hc⟩ := h.answered.resolve_left hv
    exact .inr ⟨hf, j, List.mem_cons_of_mem _ hj, hc⟩
  answered_iff := by
    refine ⟨fun he => absurd he hv, fun ⟨hn, hall⟩ => ?_⟩
    exact h.answered_iff.mpr
      ⟨(List.nodup_cons.mp hn).2, fun j hj => hall j (List.mem_cons_of_mem _ hj)⟩
  frame := h.frame
  traced j := (h.traced j).imp_right fun ⟨hj, ha⟩ => ⟨List.mem_cons_of_mem _ hj, ha⟩
  recorded he := absurd he hv
  refused j hj hc := by
    rcases List.mem_cons.mp hj with rfl | hj
    · rw [hid] at hc
      cases hc
    · exact h.refused j hj hc

/-- A recorder that has come to have the name meanwhile stands further down as well,
and refuses the value from there. -/
theorem Passes.repeated (h : Passes rs site key v s out)
    (hid : (s.trace id).contains site.name = false) (hv : out.1 = .value v)
    (hagain : (out.2.trace id).contains site.name = true) :
    Passes (id :: rs) site key v s (.failure (.duplicateSite site.name), out.2) := by
  have hmem : id ∈ rs := by
    rcases h.traced id with he | ⟨hmem, -⟩
    · rw [he, hid] at hagain
      cases hagain
    · exact hmem
  refine ⟨.inr ⟨rfl, id, List.mem_cons_self, hagain⟩, ⟨(nomatch ·), ?_⟩, h.frame,
    fun j => (h.traced j).imp_right fun ⟨hj, ha⟩ => ⟨List.mem_cons_of_mem _ hj, ha⟩,
    (nomatch ·), fun j hj hc => ?_⟩
  · rintro ⟨hn, -⟩
    exact absurd hmem (List.nodup_cons.mp hn).1
  · -- The value has come up, so nobody had the name before.
    have hnone := (h.answered_iff.mp hv).2
    rcases List.mem_cons.mp hj with rfl | hj
    · rw [hid] at hc
      cases hc
    · rw [hnone j hj] at hc
      cases hc

/-- A recorder without the name records the value from below. -/
theorem Passes.record (h : Passes rs site key v s out) (ho : site.observed = some v)
    (hid : (s.trace id).contains site.name = false) (hv : out.1 = .value v)
    (hfree : (out.2.trace id).contains site.name = false) :
    Passes (id :: rs) site key v s (.value v, out.2.setTrace id
      ((out.2.trace id).insert site.name (site.node key v))) := by
  have hnode : site.node key v = ⟨site.distribution, key, v, true⟩ := by
    rw [Site.node, ho]
    rfl
  have hsame : out.2.trace id = s.trace id := by
    rcases h.traced id with he | ⟨-, ha⟩
    · exact he
    · rw [ha.contains] at hfree
      cases hfree
  have hmem : id ∉ rs := fun hm => by
    rw [(h.recorded hv id hm).contains] at hfree
    cases hfree
  -- What this recorder does, and what it leaves to the others.
  have hown : s.Appends (out.2.setTrace id ((out.2.trace id).insert site.name
      (site.node key v))) site.name ⟨site.distribution, key, v, true⟩ id := by
    refine ⟨hid, ?_⟩
    rw [Shared.trace_setTrace, if_pos rfl, OrderedMap.entries_insert hfree, hsame, hnode]
  have hothers : ∀ {j}, j ≠ id → (out.2.setTrace id ((out.2.trace id).insert site.name
      (site.node key v))).trace j = out.2.trace j := fun hj => by
    rw [Shared.trace_setTrace, if_neg hj.symm]
  obtain ⟨hn, hnone⟩ := h.answered_iff.mp hv
  have hall : ∀ j ∈ id :: rs, (s.trace j).contains site.name = false := fun j hj => by
    rcases List.mem_cons.mp hj with rfl | hj
    · exact hid
    · exact hnone j hj
  refine ⟨.inl rfl, ⟨fun _ => ⟨List.nodup_cons.mpr ⟨hmem, hn⟩, hall⟩, fun _ => rfl⟩, ?_,
    fun j => ?_, fun _ j hj => ?_, fun j hj hc => ?_⟩
  · obtain ⟨traces, he⟩ := h.frame
    exact ⟨_, by rw [he]; rfl⟩
  · by_cases hj : j = id
    · subst hj
      exact .inr ⟨List.mem_cons_self, hown⟩
    · unfold Shared.Appends
      rw [hothers hj]
      exact (h.traced j).imp_right fun ⟨hj, ha⟩ => ⟨List.mem_cons_of_mem _ hj, ha⟩
  · by_cases he : j = id
    · subst he
      exact hown
    · unfold Shared.Appends
      rw [hothers he]
      exact h.recorded hv j ((List.mem_cons.mp hj).resolve_left he)
  · rw [hall j hj] at hc
    cases hc

/-- **One recorder** on top of others. -/
theorem passes_drawRecorder {next : Answerer} (ho : site.observed = some v)
    (h : Passes rs site key v s (next site key s)) :
    Passes (id :: rs) site key v s (Handler.drawRecorder id next site key s) := by
  unfold Handler.drawRecorder
  split
  · next hid => exact passes_refused hid
  · next hid =>
    have hid := Bool.eq_false_iff.mpr hid
    split
    · next w s' he =>
      rw [he] at h
      obtain rfl : w = v := by
        rcases h.answered with hw | ⟨hf, -⟩
        · exact (Outcome.value.injEq ..).mp hw
        · cases hf
      split
      · next hagain => exact h.repeated hid rfl hagain
      · next hfree => exact h.record ho hid rfl (Bool.eq_false_iff.mpr hfree)
    · next hno => exact h.failed hid fun he => hno v (next site key s).2 (Prod.ext he rfl)

/-- **An interpreter that lets observations pass** does nothing to this one. -/
theorem passes_onward {h : Handler} {next : Answerer} (hh : h.LetsPass)
    (ho : site.observed = some v) (below : Passes rs site key v s (next site key s)) :
    Passes rs site key v s (h.draw id next site key s) := by
  rw [hh.draw_observed ho]
  exact below

end Passing

/-- **Observations pass through every chain untouched.** In any state, with any key
or none, the answer is the observed value unless a recorder refuses, and all that a
draw of an observed site leaves behind are the nodes of recorders on its way. -/
theorem Chain.passes_draw (c : Chain) (hc : c.IsShipped) (site : Site) (v : Json)
    (ho : site.observed = some v) (key : Option RandomKey) (s : Shared) :
    Passes (c.recorders site) site key v s (c.draw site key s) := by
  induction c with
  | empty =>
    show Passes [] site key v s (site.unanswered, s)
    rw [Site.unanswered, ho]
    exact passes_value
  | link id h rest ih =>
    have below := ih hc.2
    cases h with
    | standard detectReuse =>
      show Passes [] site key v s (Handler.drawStandard id detectReuse site key s)
      unfold Handler.drawStandard
      rw [ho]
      exact passes_value
    | replay values =>
      show Passes [] site key v s (Handler.drawReplay values site key s)
      unfold Handler.drawReplay
      rw [ho]
      exact passes_value
    | recorder => exact passes_drawRecorder ho below
    | thread force => exact passes_onward (h := .thread force) trivial ho below
    | memo cache => exact passes_onward (h := .memo cache) trivial ho below
    | persistent store => exact passes_onward (h := .persistent store) trivial ho below
    | condition data => exact passes_onward (h := .condition data) trivial ho below
    | substitute d => exact hc.1.elim
    | spy => exact hc.1.elim
    | constant w => exact hc.1.elim
    | rekey key' => exact hc.1.elim
  | branch id selects alternate rest iha ihr =>
    show Passes (if selects site.name site.distribution then alternate.recorders site
        else rest.recorders site) site key v s
      (if selects site.name site.distribution then alternate.draw site key s
        else rest.draw site key s)
    split
    · exact iha hc.1
    · exact ihr hc.2

/-- A recorder on top, and another one on the branch that some draws take, with a thread
that forces keys, a cache and a store below it and nothing at the end. -/
def Chain.forked : Chain :=
  .link 9 .recorder (.link 8 (.condition (.ofList [("y", .null)]))
    (.branch 7 (selectSite "y")
      (.link 6 (.thread true) (.link 5 .recorder (.link 4 (.memo 4)
        (.link 3 (.persistent 3) .empty))))
      (.link 2 (.replay .empty) (.link 1 (.standard true) .empty))))

/-- An observation goes down the branch, past two recorders. -/
theorem Chain.passes_draw_forked :
    forked.IsShipped ∧ (Site.seen "y" default (.bool true)).observed = some (.bool true)
      ∧ forked.recorders (.seen "y" default (.bool true)) = [9, 5]
      ∧ Passes (forked.recorders (.seen "y" default (.bool true)))
        (.seen "y" default (.bool true)) none (.bool true) (.start "/")
        (forked.draw (.seen "y" default (.bool true)) none (.start "/")) := by
  have hf : forked.IsShipped := by simp [forked, IsShipped, Handler.IsShipped]
  exact ⟨hf, rfl, by decide, forked.passes_draw hf _ _ rfl none _⟩

end Resampler
