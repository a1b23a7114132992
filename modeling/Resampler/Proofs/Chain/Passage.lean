import Resampler.Proofs.Chain.Upon

/-!
# What a draw comes to on its way down

An interpreter that does not answer a draw hands it on, once, and makes something of
the answer that comes back. `Handler.handsOn` is what it hands on, `Handler.takesBack`
what it makes of the answer, and `Handler.draw_of_handed` that there is no more to it.
`Handler.Turn` says the same for those who need not know what is handed on.

A draw so comes to one chain after the other, each a part of the one before, and to
each with a site, a key and in a state of its own. `Chain.Throughout` says that
something holds of all of them.
-/

namespace Resampler

/-- **A draw as it is handed on.** -/
structure Handed where
  /-- The site, perhaps with another distribution. -/
  site : Site
  /-- The key. -/
  key : Option RandomKey
  /-- The state at the time. -/
  state : Shared

namespace Handler

/-- **What an interpreter hands on**, if it does. -/
def handsOn (id : Nat) (h : Handler) (site : Site) (key : Option RandomKey)
    (s : Shared) : Option Handed :=
  match h with
  | .standard _ => none
  | .thread force =>
    if site.observed.isSome || (key.isSome && !force) then some ⟨site, key, s⟩
    else some ⟨site, some (s.heldKey id).deeper, s.hold id (s.heldKey id).incremented⟩
  | .memo cache =>
    match site.observed, key with
    | some _, _ => some ⟨site, key, s⟩
    | none, none => none
    | none, some k =>
      match (s.cache cache).get? (site.distribution.identity, k) with
      | some _ => none
      | none => some ⟨site, some k, s⟩
  | .persistent store =>
    match site.observed, key with
    | some _, _ => some ⟨site, key, s⟩
    | none, none => none
    | none, some k =>
      match (s.store store).get? (site.distribution.cacheKey k) with
      | .ok none => some ⟨site, some k, s⟩
      | _ => none
  | .recorder => if (s.trace id).contains site.name then none else some ⟨site, key, s⟩
  | .condition data =>
    match site.observed, data.get? site.name with
    | none, some _ => none
    | _, _ => some ⟨site, key, s⟩
  | .replay _ => none
  | .substitute d => some ⟨{ site with distribution := d }, key, s⟩
  | .spy => some ⟨site, key, s.sight id site.name key⟩
  | .constant _ => none
  | .rekey key' => some ⟨site, key', s⟩

/-- **What an interpreter makes of the answer** to the draw that it has handed on. -/
def takesBack (id : Nat) (h : Handler) (site : Site) (key : Option RandomKey)
    (out : Reply × Shared) : Reply × Shared :=
  match h with
  | .memo cache =>
    match site.observed, key with
    | none, some k =>
      onValue out fun v s => (.value v, s.remember cache (site.distribution.identity, k) v)
    | _, _ => out
  | .persistent store =>
    match site.observed, key with
    | none, some k => onValue out (keepAnswer store (site.distribution.cacheKey k))
    | _, _ => out
  | .recorder => onValue out fun v s =>
    if (s.trace id).contains site.name then (.failure (.duplicateSite site.name), s)
    else (.value v, s.setTrace id ((s.trace id).insert site.name (site.node key v)))
  | _ => out

variable {id : Nat} {h : Handler} {next : Answerer} {site : Site} {key : Option RandomKey}
variable {s : Shared} {x : Handed}

/-- **What an interpreter does with a draw that it does not hand on**, whoever is next:
it changes nothing, unless it asks the distribution. -/
structure Keeps (id : Nat) (h : Handler) (site : Site) (key : Option RandomKey) (s : Shared)
    (out : Reply × Shared) : Prop where
  /-- It does not hand it on. -/
  kept : h.handsOn id site key s = none
  /-- It does not matter who is next. -/
  draw : ∀ next, h.draw id next site key s = out
  /-- What it asks is noted. -/
  state : out.2 = s ∨ ∃ detectReuse k, h = .standard detectReuse
    ∧ key = some k ∧ site.observed = none
    ∧ (out.2 = s.noteAsked site k ∨ out.2 = (s.useUp id k).noteAsked site k)

/-- **What an interpreter does with a draw that it hands on.** -/
structure HandsOn (id : Nat) (h : Handler) (site : Site) (key : Option RandomKey) (s : Shared)
    (x : Handed) : Prop where
  handed : h.handsOn id site key s = some x
  draw : ∀ next,
    h.draw id next site key s = h.takesBack id site key (next x.site x.key x.state)

theorem keeps_standard (id : Nat) (detectReuse : Bool) (site : Site) (key : Option RandomKey)
    (s : Shared) : Keeps id (.standard detectReuse) site key s
      (drawStandard id detectReuse site key s) := by
  refine ⟨rfl, fun _ => rfl, ?_⟩
  unfold drawStandard
  split
  · exact .inl rfl
  · exact .inl rfl
  · next k ho =>
    split
    · split
      · exact .inl rfl
      · exact .inr ⟨_, k, rfl, rfl, ho, .inr rfl⟩
    · exact .inr ⟨_, k, rfl, rfl, ho, .inl rfl⟩

theorem passage_memo (id cache : Nat) (site : Site) (key : Option RandomKey) (s : Shared) :
    (∃ x, HandsOn id (.memo cache) site key s x)
      ∨ ∃ out, Keeps id (.memo cache) site key s out := by
  cases ho : site.observed with
  | some v =>
    refine .inl ⟨⟨site, key, s⟩, ?_, fun next => ?_⟩
    all_goals simp only [handsOn, takesBack, draw, drawMemo, ho]
  | none =>
    cases key with
    | none =>
      refine .inr ⟨(.failure (.missingKey site.name), s), ?_, fun next => ?_, .inl rfl⟩
      all_goals simp only [handsOn, draw, drawMemo, ho]
    | some k =>
      cases hg : (s.cache cache).get? (site.distribution.identity, k) with
      | some v =>
        refine .inr ⟨(.value v, s), ?_, fun next => ?_, .inl rfl⟩
        all_goals simp only [handsOn, draw, drawMemo, ho, hg]
      | none =>
        refine .inl ⟨⟨site, some k, s⟩, ?_, fun next => ?_⟩
        · simp only [handsOn, ho, hg]
        · simp only [takesBack, draw, drawMemo, ho, hg]
          rfl

theorem passage_persistent (id store : Nat) (site : Site) (key : Option RandomKey)
    (s : Shared) : (∃ x, HandsOn id (.persistent store) site key s x)
      ∨ ∃ out, Keeps id (.persistent store) site key s out := by
  cases ho : site.observed with
  | some v =>
    refine .inl ⟨⟨site, key, s⟩, ?_, fun next => ?_⟩
    all_goals simp only [handsOn, takesBack, draw, drawPersistent, ho]
  | none =>
    cases key with
    | none =>
      refine .inr ⟨(.failure (.missingKey site.name), s), ?_, fun next => ?_, .inl rfl⟩
      all_goals simp only [handsOn, draw, drawPersistent, ho]
    | some k =>
      cases hg : (s.store store).get? (site.distribution.cacheKey k) with
      | error e =>
        refine .inr ⟨(.failure e, s), ?_, fun next => ?_, .inl rfl⟩
        all_goals simp only [handsOn, draw, drawPersistent, ho, hg]
      | ok found =>
        cases found with
        | some text =>
          cases hj : Json.ofText? text with
          | some v =>
            refine .inr ⟨(.value v, s), ?_, fun next => ?_, .inl rfl⟩
            · simp only [handsOn, ho, hg]
            · simp only [draw, drawPersistent, ho, hg, hj]
          | none =>
            refine .inr ⟨(.failure .serialization, s), ?_, fun next => ?_, .inl rfl⟩
            · simp only [handsOn, ho, hg]
            · simp only [draw, drawPersistent, ho, hg, hj]
        | none =>
          refine .inl ⟨⟨site, some k, s⟩, ?_, fun next => ?_⟩
          · simp only [handsOn, ho, hg]
          · simp only [takesBack, draw, drawPersistent, ho, hg]
            rfl

theorem passage_recorder (id : Nat) (site : Site) (key : Option RandomKey) (s : Shared) :
    (∃ x, HandsOn id .recorder site key s x) ∨ ∃ out, Keeps id .recorder site key s out := by
  by_cases hc : (s.trace id).contains site.name = true
  · refine .inr ⟨(.failure (.duplicateSite site.name), s), if_pos hc, fun next => ?_, .inl rfl⟩
    exact if_pos hc
  · refine .inl ⟨⟨site, key, s⟩, if_neg hc, fun next => ?_⟩
    exact if_neg hc

theorem passage_condition (id : Nat) (data : OrderedMap String Json) (site : Site)
    (key : Option RandomKey) (s : Shared) : (∃ x, HandsOn id (.condition data) site key s x)
      ∨ ∃ out, Keeps id (.condition data) site key s out := by
  cases ho : site.observed with
  | some v =>
    refine .inl ⟨⟨site, key, s⟩, ?_, fun next => ?_⟩
    all_goals simp only [handsOn, takesBack, draw, drawCondition, ho]
  | none =>
    cases hd : data.get? site.name with
    | some v =>
      refine .inr ⟨(.value v, s), ?_, fun next => ?_, .inl rfl⟩
      all_goals simp only [handsOn, draw, drawCondition, ho, hd]
    | none =>
      refine .inl ⟨⟨site, key, s⟩, ?_, fun next => ?_⟩
      all_goals simp only [handsOn, takesBack, draw, drawCondition, ho, hd]

/-- **An interpreter hands a draw on, or keeps it.** -/
theorem passage (id : Nat) (h : Handler) (site : Site) (key : Option RandomKey) (s : Shared) :
    (∃ x, h.HandsOn id site key s x) ∨ ∃ out, h.Keeps id site key s out := by
  cases h with
  | standard detectReuse => exact .inr ⟨_, keeps_standard id detectReuse site key s⟩
  | thread force =>
    by_cases hp : (site.observed.isSome || (key.isSome && !force)) = true
    · exact .inl ⟨⟨site, key, s⟩, if_pos hp, fun next => if_pos hp⟩
    · exact .inl ⟨⟨site, some (s.heldKey id).deeper, s.hold id (s.heldKey id).incremented⟩,
        if_neg hp, fun next => if_neg hp⟩
  | memo cache => exact passage_memo id cache site key s
  | persistent store => exact passage_persistent id store site key s
  | recorder => exact passage_recorder id site key s
  | condition data => exact passage_condition id data site key s
  | replay values =>
    refine .inr ⟨_, rfl, fun next => rfl, .inl ?_⟩
    show (drawReplay values site key s).2 = s
    unfold drawReplay
    split <;> rfl
  | substitute d => exact .inl ⟨_, rfl, fun next => rfl⟩
  | spy => exact .inl ⟨_, rfl, fun next => rfl⟩
  | constant v => exact .inr ⟨_, rfl, fun next => rfl, .inl rfl⟩
  | rekey key' => exact .inl ⟨_, rfl, fun next => rfl⟩

/-- **A draw that is handed on** is answered by what is made of the answer to it. -/
theorem draw_of_handed (hx : h.handsOn id site key s = some x) :
    h.draw id next site key s = h.takesBack id site key (next x.site x.key x.state) := by
  rcases h.passage id site key s with ⟨x', handed, hdraw⟩ | ⟨out, kept, -, -⟩
  · cases hx.symm.trans handed
    exact hdraw next
  · cases hx.symm.trans kept

/-- **A draw that is not handed on** changes nothing, unless the distribution is asked. -/
theorem state_of_kept (hx : h.handsOn id site key s = none) (next : Answerer) :
    (h.draw id next site key s).2 = s ∨ ∃ detectReuse k, h = .standard detectReuse
      ∧ key = some k ∧ site.observed = none
      ∧ ((h.draw id next site key s).2 = s.noteAsked site k
        ∨ (h.draw id next site key s).2 = (s.useUp id k).noteAsked site k) := by
  rcases h.passage id site key s with ⟨x', handed, -⟩ | ⟨out, -, hdraw, hstate⟩
  · cases hx.symm.trans handed
  · rw [hdraw]
    exact hstate

/-- What is handed on is still a draw of the same name, and an observation of the same
value if it is one. -/
theorem name_of_handed (hx : h.handsOn id site key s = some x) :
    x.site.name = site.name ∧ x.site.observed = site.observed := by
  unfold handsOn at hx
  repeat' split at hx
  all_goals cases hx
  all_goals exact ⟨rfl, rfl⟩

/-- Only a substitution changes the site. -/
theorem site_of_handed (hx : h.handsOn id site key s = some x)
    (hne : ∀ d, h ≠ .substitute d) : x.site = site := by
  cases h with
  | substitute d => exact absurd rfl (hne d)
  | _ =>
    unfold handsOn at hx
    dsimp only at hx
    repeat' split at hx
    all_goals cases hx
    all_goals rfl

/-- Before it hands on, an interpreter writes no more than the key that it holds or what
it has seen. -/
theorem state_of_handed (hx : h.handsOn id site key s = some x) :
    ∃ held sightings, x.state = { s with held := held, sightings := sightings } := by
  unfold handsOn at hx
  repeat' split at hx
  all_goals cases hx
  all_goals exact ⟨_, _, rfl⟩

/-- **What is made of an answer**: it is told on, or it is a value that is refused; and
only what the interpreter writes is written. -/
theorem takesBack_cases (id : Nat) (h : Handler) (site : Site) (key : Option RandomKey)
    (out : Reply × Shared) :
    ((h.takesBack id site key out).1 = out.1
        ∨ ∃ v e, out.1 = .value v ∧ (h.takesBack id site key out).1 = .failure e)
      ∧ h.Writes id site.name out.2 (h.takesBack id site key out).2 := by
  obtain ⟨reply, s⟩ := out
  cases h with
  | memo cache =>
    unfold takesBack
    dsimp only
    split
    · cases reply with
      | value v => exact ⟨.inl rfl, .remember _ _ _ _ _⟩
      | failure e => exact ⟨.inl rfl, .nothing _ _ _⟩
      | panic payload => exact ⟨.inl rfl, .nothing _ _ _⟩
    · exact ⟨.inl rfl, .nothing _ _ _⟩
  | persistent store =>
    unfold takesBack
    dsimp only
    split
    · cases reply with
      | value v =>
        show ((keepAnswer store _ v s).1 = _ ∨ ∃ v' e, _ = _ ∧ (keepAnswer store _ v s).1 = _)
          ∧ Writes _ _ _ s (keepAnswer store _ v s).2
        unfold keepAnswer
        split
        · next hk => exact ⟨.inl rfl, .keep _ hk⟩
        · next e hk => exact ⟨.inr ⟨v, e, rfl, rfl⟩, .nothing _ _ _⟩
      | failure e => exact ⟨.inl rfl, .nothing _ _ _⟩
      | panic payload => exact ⟨.inl rfl, .nothing _ _ _⟩
    · exact ⟨.inl rfl, .nothing _ _ _⟩
  | recorder =>
    cases reply with
    | value v =>
      unfold takesBack onValue
      dsimp only
      split
      · exact ⟨.inr ⟨v, _, rfl, rfl⟩, .nothing _ _ _⟩
      · next hc => exact ⟨.inl rfl, .record _ (Bool.eq_false_iff.mpr hc)⟩
    | failure e => exact ⟨.inl rfl, .nothing _ _ _⟩
    | panic payload => exact ⟨.inl rfl, .nothing _ _ _⟩
  | _ => exact ⟨.inl rfl, .nothing _ _ _⟩

/-- **A value is told as it came.** -/
theorem value_of_takesBack {out : Reply × Shared} {v : Json}
    (hv : (h.takesBack id site key out).1 = .value v) : out.1 = .value v := by
  rcases (takesBack_cases id h site key out).1 with htold | ⟨w, e, -, hfailed⟩
  · exact htold.symm.trans hv
  · cases hfailed.symm.trans hv

/-- An answer that is no value is told on, and nothing is written. -/
theorem takesBack_of_not_isValue {out : Reply × Shared} (hno : out.1.isValue = false) :
    h.takesBack id site key out = out := by
  obtain ⟨reply, s⟩ := out
  cases reply with
  | value v => cases hno
  | failure e | panic payload =>
    cases h with
    | memo i | persistent i =>
      unfold takesBack
      dsimp only
      split <;> rfl
    | _ => rfl

end Handler

/-! ## All chains that a draw comes to -/

namespace Chain

/-- **What holds of every chain that a draw comes to**, of the site, the key and the state
with which it does. -/
def Throughout (P : Chain → Site → Option RandomKey → Shared → Prop) :
    Chain → Site → Option RandomKey → Shared → Prop
  | .empty, site, key, s => P .empty site key s
  | .link id h rest, site, key, s =>
    P (.link id h rest) site key s
      ∧ ∀ x, h.handsOn id site key s = some x → rest.Throughout P x.site x.key x.state
  | .branch id selects alternate rest, site, key, s =>
    P (.branch id selects alternate rest) site key s
      ∧ (selects site.name site.distribution = true → alternate.Throughout P site key s)
      ∧ (selects site.name site.distribution = false → rest.Throughout P site key s)

variable {P : Chain → Site → Option RandomKey → Shared → Prop} {c : Chain}
variable {site : Site} {key : Option RandomKey} {s : Shared}

theorem Throughout.here (h : c.Throughout P site key s) : P c site key s := by
  cases c with
  | empty => exact h
  | link id handler rest => exact h.1
  | branch id selects alternate rest => exact h.1

theorem Throughout.mono {Q : Chain → Site → Option RandomKey → Shared → Prop}
    (hPQ : ∀ {c site key s}, P c site key s → Q c site key s)
    (h : c.Throughout P site key s) : c.Throughout Q site key s := by
  induction c generalizing site key s with
  | empty => exact hPQ h
  | link id handler rest ih => exact ⟨hPQ h.1, fun x hx => ih (h.2 x hx)⟩
  | branch id selects alternate rest iha ihr =>
    exact ⟨hPQ h.1, fun hb => iha (h.2.1 hb), fun hb => ihr (h.2.2 hb)⟩

end Chain

end Resampler
