import Resampler.Proofs.Chain.Candour
import Resampler.Proofs.Chain.Sequence

/-!
# A recorder lists what it has answered

A recorder may be linked anywhere in a chain: what interpreters above it answer does not
come to it, and what they hand on comes to it with the key and the distribution that they
give it. If it is linked once, and on the chain's own line (`Chain.Carries`), then at most
one draw comes to it on account of one that is asked of the chain (`Chain.arrival?`), and
nobody else writes to its trace.

So the trace is a journal: it lists the draws that the recorder has answered since it was
last emptied, in their order (`Shared.answered`). A draw that fails below leaves no trace,
and one whose name is in the journal goes no further.
-/

namespace Resampler

namespace Handler

variable {id i : Nat} {h : Handler} {name : String} {s t : Shared}

/-- Nobody writes to the trace of another recorder. -/
theorem Writes.trace_of_other (hw : h.Writes id name s t) (hne : h = .recorder → id ≠ i) :
    t.trace i = s.trace i := by
  cases hw with
  | keep _ hk =>
    obtain ⟨st, files, rfl⟩ := Shared.keep_ok hk
    rfl
  | record node _ => rw [Shared.trace_setTrace, if_neg (hne rfl)]
  | _ => rfl

end Handler

/-- **A draw as it comes to a recorder.** -/
structure Arrival extends Handed where
  /-- The chain below the recorder. -/
  below : Chain

/-- What the draw comes to at the recorder. -/
def Arrival.outcome (i : Nat) (a : Arrival) : Reply × Shared :=
  (Chain.link i .recorder a.below).draw a.site a.key a.state

/-- What the journal says of the draw, if it is answered. -/
def Arrival.line? (i : Nat) (a : Arrival) : Option (String × TraceNode) :=
  match (a.outcome i).1 with
  | .value v => some (a.site.name, a.site.node a.key v)
  | _ => none

namespace Chain

/-- **A chain in which a recorder is not linked**, also on its branches. -/
def Lacks (i : Nat) (c : Chain) : Prop :=
  LaidOver .empty (fun id h => h = .recorder → id ≠ i) c

/-- **A chain in which a recorder is linked once at most**, and on its own line. -/
inductive Carries (i : Nat) : Chain → Prop where
  | without {c : Chain} (lacks : c.Lacks i) : Carries i c
  | here {below : Chain} (lacks : below.Lacks i) : Carries i (.link i .recorder below)
  | under {id : Nat} {h : Handler} {rest : Chain} (other : h = .recorder → id ≠ i)
    (carries : Carries i rest) : Carries i (.link id h rest)
  | beside {id : Nat} {selects : String → Distribution → Bool} {alternate rest : Chain}
    (lacks : alternate.Lacks i) (carries : Carries i rest) :
    Carries i (.branch id selects alternate rest)

/-- **A thread that is not linked above a recorder**, so that no draw has taken its key when
it comes there. -/
def NotAbove (i j : Nat) : Chain → Prop
  | .empty => True
  | .link id h rest =>
    h = .recorder ∧ id = i ∨ (∀ force, h = .thread force → id ≠ j) ∧ rest.NotAbove i j
  | .branch _ _ _ rest => rest.NotAbove i j

/-- **How a draw comes to a recorder**, if it does. -/
def arrival? (i : Nat) : Chain → Site → Option RandomKey → Shared → Option Arrival
  | .empty, _, _, _ => none
  | .link id .recorder rest, site, key, s =>
    if id = i then some ⟨⟨site, key, s⟩, rest⟩
    else (Handler.recorder.handsOn id site key s).bind fun x =>
      rest.arrival? i x.site x.key x.state
  | .link id h rest, site, key, s =>
    (h.handsOn id site key s).bind fun x => rest.arrival? i x.site x.key x.state
  | .branch _ selects alternate rest, site, key, s =>
    if selects site.name site.distribution then alternate.arrival? i site key s
    else rest.arrival? i site key s

variable {i id : Nat} {h : Handler} {c rest below : Chain} {site : Site}
variable {key : Option RandomKey} {s : Shared}

theorem arrival?_here :
    (link i .recorder below).arrival? i site key s = some ⟨⟨site, key, s⟩, below⟩ :=
  if_pos rfl

theorem arrival?_link (hne : h = .recorder → id ≠ i) : (link id h rest).arrival? i site key s
    = (h.handsOn id site key s).bind fun x => rest.arrival? i x.site x.key x.state := by
  cases h with
  | recorder => exact if_neg (hne rfl)
  | _ => rfl

/-- Where a recorder is not linked, no draw comes to it. -/
theorem Lacks.arrival?_eq_none (hc : c.Lacks i) : c.arrival? i site key s = none := by
  unfold Lacks at hc
  induction hc generalizing site key s with
  | inner => rfl
  | empty => rfl
  | link ok _ ih =>
    rw [arrival?_link ok]
    cases Handler.handsOn _ _ site key s with
    | none => rfl
    | some x => exact ih
  | branch _ _ iha ihr =>
    unfold arrival?
    split
    · exact iha
    · exact ihr

/-- **Where a recorder is not linked, its trace stays as it is.** -/
theorem Lacks.trace_draw (hc : c.Lacks i) (site : Site) (key : Option RandomKey) (s : Shared) :
    (c.draw site key s).2.trace i = s.trace i := by
  let R := regimeOf site.name fun t => t.trace i = s.trace i
  have htolerates {id : Nat} {h : Handler} (hne : h = .recorder → id ≠ i) :
      R.Tolerates id h :=
    { hands := fun hname _ _ hA => hname.trans hA
      before := fun _ hw hJ => (hw.trace_of_other hne).trans hJ
      after := fun _ hw hJ => (hw.trace_of_other hne).trans hJ
      asks := fun _ _ hJ => ⟨hJ, hJ⟩ }
  exact (Regime.keeps_of_laidOver htolerates (Regime.keeps_empty R) hc site key s rfl rfl).after

/-- **What a draw comes to on account of its arrival at a recorder.** -/
structure Told (i : Nat) (site : Site) (s : Shared) (a : Arrival) (out : Reply × Shared) :
    Prop where
  /-- It is the draw of the same name, and an observation of the same value if it is one. -/
  name : a.site.name = site.name ∧ a.site.observed = site.observed
  /-- Nothing but keys and sightings has been written on its way. -/
  descends : s.Descends a.state
  /-- Below the recorder, it is not linked again. -/
  lacks : a.below.Lacks i
  /-- What does not come to a value at the recorder ends the draw. -/
  ends : (a.outcome i).1.isValue = false → out = a.outcome i
  /-- A value that the draw comes to is one that it came to at the recorder. -/
  value : ∀ v, out.1 = .value v → (a.outcome i).1 = .value v
  /-- The trace is as the recorder has left it. -/
  trace : out.2.trace i = (a.outcome i).2.trace i

/-- What is told to an interpreter on top is told on by it. -/
theorem Told.takesBack {a : Arrival} {out : Reply × Shared} {x : Handed}
    (hx : h.handsOn id site key s = some x) (hne : h = .recorder → id ≠ i)
    (ht : Told i x.site x.state a out) : Told i site s a (h.takesBack id site key out) := by
  obtain ⟨hname, hobserved⟩ := Handler.name_of_handed hx
  refine ⟨⟨ht.name.1.trans hname, ht.name.2.trans hobserved⟩,
    (Handler.descends_of_handed hx).trans ht.descends, ht.lacks, fun hno => ?_,
    fun v hv => ht.value v (Handler.value_of_takesBack hv), ?_⟩
  · rw [Handler.takesBack_of_not_isValue (ht.ends hno ▸ hno), ht.ends hno]
  · exact ((Handler.takesBack_cases id h site key out).2.trace_of_other hne).trans ht.trace

/-- **A draw comes to a recorder once**, and if it does not, the trace stays as it is. -/
theorem Carries.arrives (hc : c.Carries i) (site : Site) (key : Option RandomKey) (s : Shared) :
    (∃ a, c.arrival? i site key s = some a ∧ Told i site s a (c.draw site key s))
      ∨ c.arrival? i site key s = none ∧ (c.draw site key s).2.trace i = s.trace i := by
  induction hc generalizing site key s with
  | without lacks => exact .inr ⟨lacks.arrival?_eq_none, lacks.trace_draw site key s⟩
  | here lacks =>
    exact .inl ⟨_, arrival?_here, ⟨rfl, rfl⟩, .refl s, lacks, fun _ => rfl, fun _ hv => hv, rfl⟩
  | @under id h rest other _ ih =>
    rw [arrival?_link other, draw_link]
    cases hx : h.handsOn id site key s with
    | none =>
      refine .inr ⟨rfl, ?_⟩
      rcases Handler.state_of_kept hx rest.draw with he | ⟨_, k, -, -, -, he | he⟩
      all_goals exact congrArg (fun t => t.trace i) he
    | some x =>
      rw [Handler.draw_of_handed hx]
      rcases ih x.site x.key x.state with ⟨a, ha, ht⟩ | ⟨hnone, htrace⟩
      · exact .inl ⟨a, ha, ht.takesBack hx other⟩
      · refine .inr ⟨hnone, ?_⟩
        exact ((Handler.takesBack_cases id h site key _).2.trace_of_other other).trans
          (htrace.trans ((Handler.descends_of_handed hx).trace i))
  | @beside id selects alternate rest lacks _ ih =>
    unfold arrival?
    cases hb : selects site.name site.distribution with
    | true =>
      rw [draw_branch_of_selects hb]
      exact .inr ⟨lacks.arrival?_eq_none, lacks.trace_draw site key s⟩
    | false =>
      rw [draw_branch_of_not_selects hb]
      exact ih site key s

/-- **A draw comes to a recorder with the keys below it untouched.** -/
theorem Carries.heldKey_arrival? {j : Nat} {a : Arrival} (hc : c.Carries i)
    (hj : c.NotAbove i j) (ha : c.arrival? i site key s = some a) :
    a.state.heldKey j = s.heldKey j := by
  induction hc generalizing site key s with
  | without lacks => cases lacks.arrival?_eq_none.symm.trans ha
  | here _ =>
    cases arrival?_here.symm.trans ha
    rfl
  | @under id h rest other _ ih =>
    rw [arrival?_link other] at ha
    obtain ⟨x, hx, ha⟩ := Option.bind_eq_some_iff.mp ha
    rcases hj with ⟨hrec, rfl⟩ | ⟨hne, hj⟩
    · exact absurd rfl (other hrec)
    · exact (ih hj ha).trans (Handler.heldKey_of_handed hx hne)
  | @beside id selects alternate rest lacks _ ih =>
    unfold arrival? at ha
    split at ha
    · cases lacks.arrival?_eq_none.symm.trans ha
    · exact ih hj ha

end Chain

/-! ## What becomes of a draw -/

namespace Arrival

variable {i : Nat} {a : Arrival}

theorem line?_of_value {v : Json} (hv : (a.outcome i).1 = .value v) :
    a.line? i = some (a.site.name, a.site.node a.key v) := by
  rw [line?, hv]

theorem line?_of_not_isValue (hno : (a.outcome i).1.isValue = false) : a.line? i = none := by
  unfold line?
  split
  · next v hv => cases hv ▸ hno
  · rfl

/-- A draw whose name is recorded goes no further than the recorder. -/
theorem keeps_of_contains (h : (a.state.trace i).contains a.site.name = true) :
    Handler.Keeps i .recorder a.site a.key a.state
      (.failure (.duplicateSite a.site.name), a.state) :=
  ⟨if_pos h, fun _ => if_pos h, .inl rfl⟩

theorem outcome_of_contains (h : (a.state.trace i).contains a.site.name = true) :
    a.outcome i = (.failure (.duplicateSite a.site.name), a.state) :=
  (keeps_of_contains h).draw a.below.draw

/-- A draw whose name is not recorded is handed on as it is. -/
theorem handsOn_of_not_contains (h : (a.state.trace i).contains a.site.name = false) :
    Handler.HandsOn i .recorder a.site a.key a.state a.toHanded :=
  have hx : Handler.recorder.handsOn i a.site a.key a.state = some a.toHanded :=
    if_neg (Bool.eq_false_iff.mp h)
  ⟨hx, fun _ => Handler.draw_of_handed hx⟩

/-- **Where nobody below writes to its trace, a recorder tells every answer on**: a value
after it has recorded it. -/
theorem outcome_of_not_contains (h : (a.state.trace i).contains a.site.name = false)
    (hlacks : a.below.Lacks i) :
    (a.outcome i).1 = (a.below.draw a.site a.key a.state).1
      ∧ (a.outcome i).2.trace i = match a.line? i with
        | some entry => (a.state.trace i).insert entry.1 entry.2
        | none => a.state.trace i := by
  have hbelow := hlacks.trace_draw a.site a.key a.state
  have hdraw : a.outcome i = Handler.recorder.takesBack i a.site a.key
      (a.below.draw a.site a.key a.state) := (handsOn_of_not_contains h).draw a.below.draw
  unfold line?
  rw [hdraw]
  generalize a.below.draw a.site a.key a.state = out at hbelow ⊢
  obtain ⟨reply, t⟩ := out
  change t.trace i = a.state.trace i at hbelow
  cases reply with
  | failure e | panic payload => exact ⟨rfl, hbelow⟩
  | value v =>
    have hback : Handler.recorder.takesBack i a.site a.key (.value v, t)
        = (.value v, t.setTrace i ((t.trace i).insert a.site.name (a.site.node a.key v))) :=
      if_neg (by rw [hbelow, h]; exact Bool.false_ne_true)
    rw [hback]
    refine ⟨rfl, ?_⟩
    show (t.setTrace i _).trace i = _
    rw [Shared.trace_setTrace, if_pos rfl, hbelow]

end Arrival

namespace Request

/-- **How the draw comes to a recorder**, if it does. -/
def arrival? (i : Nat) (d : Request) (s : Shared) : Option Arrival :=
  d.chain.arrival? i d.site d.key s

/-- **What the draw adds to the journal**, if it comes to the recorder and is answered. -/
def line? (i : Nat) (d : Request) (s : Shared) : Option (String × TraceNode) :=
  (d.arrival? i s).bind (·.line? i)

/-- **What becomes of a draw that comes to a recorder.** -/
structure IsRecorded (i : Nat) (d : Request) (s : Shared) (a : Arrival) : Prop where
  /-- It comes under its own name, and with its own value if it is an observation. -/
  name : a.site.name = d.site.name ∧ a.site.observed = d.site.observed
  /-- Until it comes to the recorder, nothing is written but what threads hold and what
  spies have seen. -/
  descends : s.Descends a.state
  /-- A thread that is not linked above the recorder holds the key that it held. -/
  spared : ∀ j, d.chain.NotAbove i j → a.state.heldKey j = s.heldKey j
  /-- If the recorder is on top, nothing at all is written. -/
  top : ∀ below, d.chain = .link i .recorder below → a.state = s
  /-- If its name is in the journal, it fails there, whoever is next, and is over: it leaves
  everything as it was when the draw came there. -/
  refused : (s.trace i).contains d.site.name = true →
    d.outcome s = (.failure (.duplicateSite d.site.name), a.state)
      ∧ Handler.Keeps i .recorder a.site a.key a.state (d.outcome s)
  /-- If its name is not, it is handed on as it is, and what answers it is told on. -/
  handed : (s.trace i).contains d.site.name = false →
    Handler.HandsOn i .recorder a.site a.key a.state a.toHanded
      ∧ (a.outcome i).1 = (a.below.draw a.site a.key a.state).1
  /-- If it fails there, that is what it comes to, and the journal is as before, so it may be
  asked again. -/
  fails : (a.outcome i).1.isValue = false →
    d.outcome s = a.outcome i ∧ (d.outcome s).2.trace i = s.trace i
  /-- If it is answered, its name was new, and it stands in the journal now, last. -/
  answered : ∀ v, (a.outcome i).1 = .value v → (s.trace i).contains d.site.name = false
    ∧ ((d.outcome s).2.trace i).entries
      = (s.trace i).entries ++ [(d.site.name, a.site.node a.key v)]
  /-- Whoever has asked is answered with what stands in the journal, if with anything. -/
  told : ∀ v, (d.outcome s).1 = .value v → (a.outcome i).1 = .value v

variable {i : Nat} {d : Request} {s : Shared} {a : Arrival}

/-- **One draw.** What comes to a recorder is recorded just if it is answered there. -/
theorem isRecorded_of_told (hc : d.chain.Carries i) (ha : d.arrival? i s = some a)
    (ht : Chain.Told i d.site s a (d.outcome s)) : d.IsRecorded i s a := by
  have htrace := ht.descends.trace i
  have hname := ht.name.1
  refine ⟨ht.name, ht.descends, fun j hj => hc.heldKey_arrival? hj ha, fun below hbelow => ?_,
    fun hold => ?_, fun hnew => ?_, fun hno => ?_, fun v hv => ?_, ht.value⟩
  · rw [arrival?, hbelow, Chain.arrival?_here] at ha
    cases ha
    rfl
  · rw [← htrace, ← hname] at hold
    have hhere := Arrival.outcome_of_contains hold
    have hout : d.outcome s = a.outcome i := ht.ends (by rw [hhere]; rfl)
    rw [hout, hhere, ← hname]
    exact ⟨rfl, Arrival.keeps_of_contains hold⟩
  · rw [← htrace, ← hname] at hnew
    exact ⟨Arrival.handsOn_of_not_contains hnew,
      (Arrival.outcome_of_not_contains hnew ht.lacks).1⟩
  · refine ⟨ht.ends hno, ?_⟩
    rw [ht.trace]
    cases hrecorded : (a.state.trace i).contains a.site.name with
    | true => rw [Arrival.outcome_of_contains hrecorded, htrace]
    | false =>
      rw [(Arrival.outcome_of_not_contains hrecorded ht.lacks).2,
        Arrival.line?_of_not_isValue hno, htrace]
  · cases hrecorded : (a.state.trace i).contains a.site.name with
    | true =>
      rw [Arrival.outcome_of_contains hrecorded] at hv
      cases hv
    | false =>
      rw [ht.trace, (Arrival.outcome_of_not_contains hrecorded ht.lacks).2,
        Arrival.line?_of_value hv, htrace, ← hname]
      rw [htrace] at hrecorded
      exact ⟨hrecorded, OrderedMap.entries_insert hrecorded _⟩

/-- **What becomes of a draw through a chain that carries a recorder**: it comes to the
recorder, or the journal stays as it is. -/
theorem recorded_or_apart (hc : d.chain.Carries i) (s : Shared) :
    (∃ a, d.arrival? i s = some a ∧ d.IsRecorded i s a)
      ∨ d.arrival? i s = none ∧ (d.outcome s).2.trace i = s.trace i := by
  rcases hc.arrives d.site d.key s with ⟨a, ha, ht⟩ | hapart
  · exact .inl ⟨a, ha, isRecorded_of_told hc ha ht⟩
  · exact .inr hapart

/-- **One draw adds its entry to the journal**, if it has one. -/
theorem entries_trace_outcome (hc : d.chain.Carries i) (s : Shared) :
    ((d.outcome s).2.trace i).entries = (s.trace i).entries ++ (d.line? i s).toList := by
  rcases recorded_or_apart hc s with ⟨a, ha, hrec⟩ | ⟨hnone, htrace⟩
  · rw [line?, ha, Option.bind_some]
    cases hreply : (a.outcome i).1.isValue with
    | true =>
      obtain ⟨v, hv⟩ := Outcome.isValue_iff.mp hreply
      rw [(hrec.answered v hv).2, Arrival.line?_of_value hv, hrec.name.1]
      rfl
    | false =>
      rw [(hrec.fails hreply).2, Arrival.line?_of_not_isValue hreply]
      exact (List.append_nil _).symm
  · rw [line?, hnone, htrace]
    exact (List.append_nil _).symm

end Request

/-! ## Sequences of draws -/

/-- **What may happen to a recorder**: something is drawn, or its trace is taken. -/
inductive Happening where
  | draw (d : Request)
  | take

/-- Take the trace of a recorder, which is empty then. -/
def Shared.takeTrace (s : Shared) (i : Nat) : Trace × Shared := (s.trace i, s.setTrace i .empty)

namespace Happening

/-- Whether the trace is taken. -/
def isTake : Happening → Bool
  | .draw _ => false
  | .take => true

/-- **What a journal bears**: that its trace is taken, and draws through chains in which the
recorder is linked once at most. -/
def Suits (i : Nat) : Happening → Prop
  | .draw d => d.chain.Carries i
  | .take => True

end Happening

namespace Shared

/-- **The state after all that has happened.** -/
def through (i : Nat) : Shared → List Happening → Shared
  | s, [] => s
  | s, .draw d :: rest => (d.outcome s).2.through i rest
  | s, .take :: rest => (s.takeTrace i).2.through i rest

/-- **What has been drawn and answered at a recorder**, and not been taken since, the first
first. -/
def answered (i : Nat) : Shared → List Happening → List (String × TraceNode)
  | _, [] => []
  | s, .draw d :: rest =>
    (if rest.any Happening.isTake then [] else (d.line? i s).toList)
      ++ (d.outcome s).2.answered i rest
  | s, .take :: rest => (s.takeTrace i).2.answered i rest

variable {i : Nat} {s : Shared} {events : List Happening}

/-- **The journal of a run**: what it had in the beginning, unless that has been taken, and
what has been answered since. -/
theorem entries_trace_through (hsuits : ∀ h ∈ events, h.Suits i) (s : Shared) :
    ((s.through i events).trace i).entries
      = (if events.any Happening.isTake then [] else (s.trace i).entries)
        ++ s.answered i events := by
  induction events generalizing s with
  | nil => exact (List.append_nil _).symm
  | cons h rest ih =>
    have hrest := fun s => ih (fun h hh => hsuits h (List.mem_cons_of_mem _ hh)) s
    cases h with
    | draw d =>
      have hd : d.chain.Carries i := hsuits _ List.mem_cons_self
      have hany : (Happening.draw d :: rest).any Happening.isTake
        = rest.any Happening.isTake := rfl
      rw [through, hrest, answered, hany, Request.entries_trace_outcome hd]
      split
      · rfl
      · exact List.append_assoc ..
    | take =>
      have hempty : ((s.takeTrace i).2.trace i).entries = [] := by
        show ((s.setTrace i .empty).trace i).entries = []
        rw [trace_setTrace, if_pos rfl]
        rfl
      have hany : (Happening.take :: rest).any Happening.isTake = true := rfl
      rw [through, hrest, answered, hany, hempty, ite_self]
      rfl

/-- **A recorder keeps a journal** of what happens, and of a draw that is next. -/
structure KeepsJournal (i : Nat) (s : Shared) (events : List Happening) (d : Request) :
    Prop where
  /-- It lists what has been answered and not been taken since. -/
  journal : ((s.through i events).trace i).entries
    = (if events.any Happening.isTake then [] else (s.trace i).entries) ++ s.answered i events
  /-- No name stands in it twice. -/
  distinct : ((s.through i events).trace i).keys.Nodup
  /-- A draw that is next comes to the recorder, or nothing is recorded. -/
  next : (∃ a, d.arrival? i (s.through i events) = some a
      ∧ d.IsRecorded i (s.through i events) a)
    ∨ d.arrival? i (s.through i events) = none
      ∧ (d.outcome (s.through i events)).2.trace i = (s.through i events).trace i

/-- **A recorder that is linked once keeps a journal** of the draws that it has answered
since its trace was taken, whatever else is in the chains and whatever state that is in. -/
theorem keepsJournal_through {d : Request} (hsuits : ∀ h ∈ events, h.Suits i)
    (hd : d.chain.Carries i) (s : Shared) : s.KeepsJournal i events d where
  journal := entries_trace_through hsuits s
  distinct := ((s.through i events).trace i).distinct
  next := Request.recorded_or_apart hd _

/-- A recorder between a thread and a cache. -/
def threadedJournal : Chain :=
  .link 0 (.thread false) (.link 1 .recorder (.link 2 (.memo 0)
    (.link 3 (.standard false) .empty)))

/-- A draw of a name, which is taken, and two of another one, the first of which fails. -/
def turbulence : List Happening :=
  [.draw ⟨threadedJournal, .drawn "x" (.constant (.bool true) .null), none⟩, .take,
    .draw ⟨threadedJournal, .drawn "y" (.fallible "not yet"), none⟩,
    .draw ⟨threadedJournal, .seen "y" (.fallible "not yet") (.bool false), none⟩]

theorem carries_threadedJournal : threadedJournal.Carries 1 :=
  .under nofun (.here (.link nofun (.link nofun .empty)))

theorem suits_turbulence : ∀ h ∈ turbulence, h.Suits 1 := by
  intro h hh
  simp only [turbulence, List.mem_cons, List.not_mem_nil, or_false] at hh
  rcases hh with rfl | rfl | rfl | rfl
  · exact carries_threadedJournal
  · trivial
  · exact carries_threadedJournal
  · exact carries_threadedJournal

/-- Afterwards only the second name is in the journal, and it is refused. -/
theorem keepsJournal_through_turbulence :
    (∀ h ∈ turbulence, h.Suits 1) ∧ threadedJournal.Carries 1
      ∧ (start "").KeepsJournal 1 turbulence
        ⟨threadedJournal, .drawn "y" (.constant (.bool true) .null), none⟩
      ∧ (((start "").through 1 turbulence).trace 1).keys = ["y"] :=
  ⟨suits_turbulence, carries_threadedJournal,
    keepsJournal_through suits_turbulence carries_threadedJournal (start ""), by decide +kernel⟩

end Shared

end Resampler
