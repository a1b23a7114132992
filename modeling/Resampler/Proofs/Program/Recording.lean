import Resampler.Proofs.Chain.Candour
import Resampler.Proofs.Program.Inquiry

/-!
# A recorded run is reproduced by its recording

A program is run through a chain with a new recorder on top, and every draw succeeds. What
it asks next may depend on every answer, the answers may come from distributions, caches,
stores, conditions or branches, and some of them were observed. When it is run again over
a replay of what has been recorded, under a new recorder, it cannot tell the difference.

At each point of the second run the recorder has what the first one had at that point, and
the replay has more: all that was recorded in the end, also of sites that are still to be
asked for. It makes no difference, for a recorder keeps the node that it has, so the value
that is found under a name is the one that was answered there. The values of observations
are not looked up; both chains answer them with what the program brings along.
-/

namespace Resampler

namespace Inquiry

variable {σ : Type} {q : Inquiry σ} {inner : Chain} {token token' : Token} {i j k : Nat}
variable {s t : Shared}

/-- A context with a recorder on top of a chain. -/
def recording (id : Nat) (inner : Chain) (token : Token) : Context :=
  ⟨.link id .recorder inner, token⟩

/-- A context with a recorder on top of a replay of values. -/
def retracing (id below : Nat) (values : OrderedMap String Json) (token : Token) : Context :=
  recording id (.link below (.replay values) .empty) token

/-- **What a draw that came to a value has left in the recorder**, which had nothing under
the name before. -/
theorem recorded_of_value {site : Site} {v : Json}
    (hv : ((recording i inner token).draw site s).1 = .value v) :
    (inner.draw site none s).1 = .value v ∧ (s.trace i).contains site.name = false
      ∧ ((recording i inner token).draw site s).2.trace i
        = (s.trace i).insert site.name (site.node none v) := by
  unfold Context.draw at hv ⊢
  by_cases hcancelled : s.isCancelled (recording i inner token).token = true
  · rw [if_pos hcancelled] at hv
    cases hv
  · rw [if_neg hcancelled] at hv ⊢
    exact Chain.recorded_draw hv

/-- **What a recorder has, it keeps** along a run whose draws all succeed. -/
theorem get?_trace_run
    (hall : ∀ a ∈ (q.through (recording i inner token)).transcript s, a.2.isValue = true)
    {y : String} {node : TraceNode} (hn : (s.trace i).get? y = some node) :
    ((((q.through (recording i inner token)).run s).2).trace i).get? y = some node := by
  induction q generalizing s with
  | finish outcome locals => exact hn
  | ask site next ih =>
    rw [through, Program.transcript] at hall
    obtain ⟨v, hv⟩ := Outcome.isValue_iff.mp (hall _ List.mem_cons_self)
    obtain ⟨-, hnew, htrace⟩ := recorded_of_value hv
    have hne : site.name ≠ y := by
      rintro rfl
      rw [OrderedMap.contains_eq_false_iff, hn] at hnew
      cases hnew
    have hkept : (((recording i inner token).draw site s).2.trace i).get? y = some node := by
      rw [htrace, OrderedMap.get?_insert, if_neg hne, hn]
    rw [through, Program.run_draw]
    exact ih _ (fun a ha => hall a (List.mem_cons_of_mem _ ha)) hkept

/-- **A replay under a recorder** answers a site with the value that it has, or that was
observed, and records it. -/
theorem draw_retracing {values : OrderedMap String Json} {site : Site} {v : Json}
    (live : t.isCancelled token' = false) (hnew : (t.trace j).contains site.name = false)
    (hv : site.observed = some v
      ∨ site.observed = none ∧ values.get? site.name = some v) :
    (retracing j k values token').draw site t
      = (.value v, t.setTrace j ((t.trace j).insert site.name (site.node none v))) := by
  have hbelow : (Chain.link k (.replay values) .empty).draw site none t = (.value v, t) := by
    show Handler.drawReplay values site none t = _
    unfold Handler.drawReplay
    rcases hv with ho | ⟨ho, hv⟩
    · rw [ho]
    · rw [ho, hv]
  have hgoes : ¬ t.isCancelled (retracing j k values token').token = true :=
    Bool.eq_false_iff.mp live
  unfold Context.draw
  rw [if_neg hgoes]
  show Handler.drawRecorder j _ site none t = _
  unfold Handler.drawRecorder
  rw [hbelow]
  dsimp only
  rw [if_neg (Bool.eq_false_iff.mp hnew), if_neg (Bool.eq_false_iff.mp hnew)]

/-- **A run that another one repeats**, from the side of the program and from that of the
recorders. -/
structure Repeats (q : Inquiry σ) (first second : Context) (i j : Nat) (s t : Shared) :
    Prop where
  /-- The same is asked for in the same order and answered in the same way. -/
  draws : (q.through second).transcript t = (q.through first).transcript s
  /-- Every draw succeeds. -/
  succeeds : ∀ a ∈ (q.through second).transcript t, a.2.isValue = true
  /-- The program comes to the same result. -/
  ending : ((q.through second).run t).1 = ((q.through first).run s).1
  /-- The same has been recorded: the same names in the same order, each with its
  distribution, its value and whether it was observed. -/
  recorded : ((q.through second).run t).2.trace j = ((q.through first).run s).2.trace i
  /-- No distribution is asked, and nothing is written but traces. -/
  frame : ∃ traces, ((q.through second).run t).2 = { t with traces := traces }
  /-- Other recorders record nothing. -/
  others : ∀ n, n ≠ j → ((q.through second).run t).2.trace n = t.trace n

/-- **From any point on**: a recorder that has what the other one had there, over a replay
that has what is recorded in the end, repeats the rest of the run. -/
theorem repeats_of_recorded (hinner : inner.IsCandid) {values : OrderedMap String Json}
    (hall : ∀ a ∈ (q.through (recording i inner token)).transcript s, a.2.isValue = true)
    (hvalues : ∀ y node,
      (((q.through (recording i inner token)).run s).2.trace i).get? y = some node →
      values.get? y = some node.value)
    (hsame : t.trace j = s.trace i) (live : t.isCancelled token' = false) :
    q.Repeats (recording i inner token) (retracing j k values token') i j s t := by
  induction q generalizing s t with
  | finish outcome locals => exact ⟨rfl, hall, rfl, hsame, ⟨t.traces, rfl⟩, fun _ _ => rfl⟩
  | ask site next ih =>
    rw [through, Program.transcript] at hall
    rw [through, Program.run_draw] at hvalues
    obtain ⟨v, hv : ((recording i inner token).draw site s).1 = .value v⟩ :=
      Outcome.isValue_iff.mp (hall _ List.mem_cons_self)
    obtain ⟨hbelow, hnew, htrace⟩ := recorded_of_value hv
    have hrest := fun a ha => hall a (List.mem_cons_of_mem _ ha)
    -- The node of this site is still there in the end, so the replay has its value.
    have hnode : (((recording i inner token).draw site s).2.trace i).get? site.name
        = some (site.node none v) := by
      rw [htrace, OrderedMap.get?_insert, if_pos rfl]
    have hhere : values.get? site.name = some v := hvalues _ _ (get?_trace_run hrest hnode)
    have hagain : (retracing j k values token').draw site t
        = (.value v, t.setTrace j ((t.trace j).insert site.name (site.node none v))) := by
      refine draw_retracing live (hsame ▸ hnew) ?_
      cases ho : site.observed with
      | some w => exact .inl (congrArg some (hinner.draw ho hbelow).symm)
      | none => exact .inr ⟨rfl, hhere⟩
    rw [hv] at hrest hvalues
    have hnext := ih (.value v)
      (t := t.setTrace j ((t.trace j).insert site.name (site.node none v))) hrest hvalues
      (by rw [Shared.trace_setTrace, if_pos rfl, hsame, htrace]) live
    exact {
      draws := by
        rw [through, through, Program.transcript, Program.transcript, hagain, hv]
        exact congrArg _ hnext.draws
      succeeds := fun a ha => by
        rw [through, Program.transcript, hagain] at ha
        rcases List.mem_cons.mp ha with rfl | ha
        · rfl
        · exact hnext.succeeds a ha
      ending := by
        rw [through, through, Program.run_draw, Program.run_draw, hagain, hv]
        exact hnext.ending
      recorded := by
        rw [through, through, Program.run_draw, Program.run_draw, hagain, hv]
        exact hnext.recorded
      frame := by
        obtain ⟨traces, ht⟩ := hnext.frame
        rw [through, Program.run_draw, hagain]
        exact ⟨traces, ht⟩
      others := fun n hn => by
        rw [through, Program.run_draw, hagain, hnext.others n hn, Shared.trace_setTrace,
          if_neg hn.symm] }

/-- **A recorded run is reproduced by its recording.** A program runs through a chain with a
new recorder on top, every draw succeeding; over a replay of what has been recorded, under
a new recorder and in whatever state, it runs through again, draw by draw and to the same
result, and the same is recorded. -/
theorem repeats_recording (q : Inquiry σ) (hinner : inner.IsCandid)
    (hnew : s.trace i = .empty)
    (hall : ∀ a ∈ (q.through (recording i inner token)).transcript s, a.2.isValue = true)
    (hnew' : t.trace j = .empty) (live : t.isCancelled token' = false) :
    q.Repeats (recording i inner token)
      (retracing j k (((q.through (recording i inner token)).run s).2.trace i).assignment token')
      i j s t := by
  refine repeats_of_recorded hinner hall (fun y node hn => ?_) (hnew'.trans hnew.symm) live
  rw [Trace.assignment, OrderedMap.get?_map, hn]
  rfl

/-- An inquiry that observes what it has drawn, and draws again if that is true. -/
def forking : Inquiry Unit :=
  .need (.drawn "a" default) fun v => .need (.seen "o" default v) fun w =>
    match w with
    | .bool true => .need (.drawn "b" default) fun _ => .finish (.value ()) ()
    | _ => .finish (.value ()) ()

/-- A chain that holds one site fixed and sends another one down a branch, where keys are
forced on it and a cache asks a standard interpreter. -/
def routed : Chain :=
  .link 8 (.condition (.ofList [("a", .bool true)]))
    (.branch 7 (selectSite "b")
      (.link 6 (.thread true) (.link 5 (.memo 5) (.link 4 (.standard true) .empty)))
      (.link 3 (.thread false) (.link 2 (.standard false) .empty)))

/-- The inquiry is run through the chain, and its recording in the state that this leaves. -/
theorem repeats_recording_forking :
    ∃ t : Trace, t.keys = ["a", "o", "b"]
      ∧ forking.Repeats (recording 9 routed (.ofId 0)) (retracing 11 10 t.assignment (.ofId 1)) 9 11
        (.start "/") ((forking.through (recording 9 routed (.ofId 0))).run (.start "/")).2 := by
  have hrouted : routed.IsCandid := by simp [routed, Chain.IsCandid]
  have hall : ∀ a ∈ (forking.through (recording 9 routed (.ofId 0))).transcript (.start "/"),
      a.2.isValue = true := by decide +kernel
  exact ⟨_, by decide +kernel, repeats_recording forking hrouted rfl hall rfl rfl⟩

end Inquiry

end Resampler
