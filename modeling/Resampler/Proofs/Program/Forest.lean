import Resampler.Proofs.Program.Refusal
import Resampler.Proofs.Program.Tokens

/-!
# Cancellation follows the tree of tokens

A token is made on its own or as the child of another, and may be cloned; what is done with a
clone is done with the token. So tokens form a forest, and `Forest` keeps that forest and nothing
else: the parent of each token, which token a handle is of, and which tokens have been cancelled.
It knows of no number and no state.

A session is what is done with tokens in fact (`Session.step`): they are made, cloned and
cancelled, put into contexts, and drawn through, in scopes and outside of them, in any order.
`Session.followsForest` says that the two agree at any time: a token is cancelled just if it, or
one that it descends from, has been; it stays so; and a draw is refused just if the token of its
context is cancelled then, and leaves everything as it was.
-/

namespace Resampler

/-! ## The forest of tokens -/

/-- **A forest of tokens**, which are numbered in the order in which they were made. -/
structure Forest where
  /-- The parent of each token, if it has one. -/
  parents : List (Option Nat)
  /-- The token that each handle is of. -/
  handles : List Nat
  /-- The tokens that have been cancelled. -/
  cancelled : List Nat

/-- **What is done with tokens** and the contexts that carry them, each by its number. -/
inductive Deed where
  /-- Make a token. -/
  | make
  /-- Make a child of a token. -/
  | child (handle : Nat)
  /-- Make another handle of a token. -/
  | clone (handle : Nat)
  /-- Cancel a token. -/
  | cancel (handle : Nat)
  /-- Put a token and a chain into a context. -/
  | carry (handle : Nat) (chain : Chain)
  /-- Draw, or observe, through a context. -/
  | draw (context : Nat) (site : Site)
  /-- Open a scope on a context. -/
  | enter (context : Nat) (layer : Layer)
  /-- Close the innermost scope. -/
  | leave

namespace Forest

/-- Nothing has been made. -/
def empty : Forest := ⟨[], [], []⟩

/-- A new token, with a handle. -/
def plant (F : Forest) (parent : Option Nat) : Forest :=
  { F with parents := F.parents ++ [parent], handles := F.handles ++ [F.parents.length] }

/-- What is done with the token of a handle, if there is one. -/
def atHandle (F : Forest) (handle : Nat) (deed : Nat → Forest) : Forest :=
  (F.handles[handle]?.map deed).getD F

/-- **What a deed does to the forest.** Draws and scopes do nothing to it. -/
def step (F : Forest) : Deed → Forest
  | .make => F.plant none
  | .child h => F.atHandle h fun n => F.plant (some n)
  | .clone h => F.atHandle h fun n => { F with handles := F.handles ++ [n] }
  | .cancel h => F.atHandle h fun n => { F with cancelled := n :: F.cancelled }
  | _ => F

/-- The forest that some deeds make of another. -/
def through (F : Forest) (deeds : List Deed) : Forest := deeds.foldl step F

/-- **A token, or one that it descends from.** -/
inductive Above (F : Forest) (a : Nat) : Nat → Prop where
  | self : Above F a a
  | parent {n p : Nat} (child : F.parents[n]? = some (some p)) (above : Above F a p) : Above F a n

/-- **A token that has been cancelled**, or descends from one that has. -/
def IsCancelled (F : Forest) (n : Nat) : Prop := ∃ a ∈ F.cancelled, F.Above a n

/-- **A token that does not descend from another**: one that the other descends from, another
child of the same parent, or one of another tree. -/
inductive Aside (F : Forest) (n m : Nat) : Prop where
  | ancestor (above : F.Above m n) (other : m ≠ n)
  | sibling (parent : F.parents[m]? = F.parents[n]?) (other : m ≠ n)
  | stranger (apart : ∀ r, F.Above r n → ¬ F.Above r m)

/-- Every parent was made before its children. -/
def IsOrdered (F : Forest) : Prop := ∀ n p : Nat, F.parents[n]? = some (some p) → p < n

variable {F : Forest} {a n m p : Nat}

theorem above_iff : F.Above a n ↔ a = n ∨ ∃ p, F.parents[n]? = some (some p) ∧ F.Above a p := by
  constructor
  · rintro (_ | ⟨child, above⟩)
    · exact .inl rfl
    · exact .inr ⟨_, child, above⟩
  · rintro (rfl | ⟨p, child, above⟩)
    · exact .self
    · exact .parent child above

/-- **A token is cancelled by itself or through its parent.** -/
theorem isCancelled_iff : F.IsCancelled n ↔ n ∈ F.cancelled
    ∨ ∃ p, F.parents[n]? = some (some p) ∧ F.IsCancelled p := by
  constructor
  · rintro ⟨a, ha, habove⟩
    rcases above_iff.mp habove with rfl | ⟨p, child, above⟩
    · exact .inl ha
    · exact .inr ⟨p, child, a, ha, above⟩
  · rintro (hn | ⟨p, child, a, ha, above⟩)
    · exact ⟨n, hn, .self⟩
    · exact ⟨a, ha, .parent child above⟩

theorem Above.le (hF : F.IsOrdered) (h : F.Above a n) : a ≤ n := by
  induction h with
  | self => exact Nat.le_refl a
  | parent child _ ih => exact Nat.le_trans ih (Nat.le_of_lt (hF _ _ child))

/-- What is above what depends on the parents only. -/
theorem Above.of_parents {F' : Forest} (hparents : F'.parents = F.parents) (h : F.Above a n) :
    F'.Above a n := by
  induction h with
  | self => exact .self
  | parent child _ ih => exact .parent (hparents ▸ child) ih

/-- **When one more token is cancelled**, those that are below it are. -/
theorem isCancelled_cons : { F with cancelled := n :: F.cancelled }.IsCancelled m
    ↔ F.Above n m ∨ F.IsCancelled m := by
  have hsame : ∀ a, { F with cancelled := n :: F.cancelled }.Above a m ↔ F.Above a m :=
    fun _ => ⟨.of_parents rfl, .of_parents rfl⟩
  unfold IsCancelled
  simp only [List.mem_cons, exists_eq_or_imp, hsame]

/-- **There is no way down from a token** to its ancestors, its siblings or another tree. -/
theorem Aside.not_above (hF : F.IsOrdered) (h : F.Aside n m) : ¬ F.Above n m := by
  intro habove
  cases h with
  | ancestor above other => exact other (Nat.le_antisymm (above.le hF) (habove.le hF))
  | sibling parent other =>
    rcases above_iff.mp habove with rfl | ⟨p, child, above⟩
    · exact other rfl
    · exact Nat.not_le.mpr (hF n p (parent ▸ child)) (above.le hF)
  | stranger apart => exact apart n .self habove

/-- The parents in a forest with one more token. -/
theorem parents_plant {o x : Option Nat} : (F.plant o).parents[n]? = some x
    ↔ F.parents[n]? = some x ∨ n = F.parents.length ∧ x = o := by
  show (F.parents ++ [o])[n]? = some x ↔ _
  rcases Nat.lt_trichotomy n F.parents.length with hlt | rfl | hgt
  · rw [List.getElem?_append_left hlt]
    exact ⟨.inl, fun h => h.resolve_right fun h => absurd h.1 (Nat.ne_of_lt hlt)⟩
  · rw [List.getElem?_concat_length, Option.some.injEq, List.getElem?_eq_none (Nat.le_refl _)]
    simp [eq_comm]
  · have hbeyond : (F.parents ++ [o]).length ≤ n := by simpa using Nat.succ_le_of_lt hgt
    rw [List.getElem?_eq_none hbeyond, List.getElem?_eq_none (Nat.le_of_lt hgt)]
    simp [Nat.ne_of_gt hgt]

end Forest

/-! ## Sessions -/

/-- **What tokens and contexts are there**, and the state that they share. -/
structure Session where
  /-- The state. -/
  shared : Shared
  /-- The tokens, by handle. -/
  tokens : List Token
  /-- The contexts, with the handles of their tokens. -/
  contexts : List (Nat × Context)
  /-- The instances in open scopes, the innermost first. -/
  opened : List Nat

namespace Session

/-- A session begins with nothing. -/
def begin (s : Shared) : Session := ⟨s, [], [], []⟩

/-- A new token, with a handle. -/
def grant (S : Session) (made : Token × Shared) : Session :=
  { S with shared := made.2, tokens := S.tokens ++ [made.1] }

/-- What is done with the token of a handle, if there is one. -/
def atHandle (S : Session) (handle : Nat) (deed : Token → Session) : Session :=
  (S.tokens[handle]?.map deed).getD S

/-- What is done with a context, if there is one. -/
def inContext (S : Session) (context : Nat) (deed : Nat × Context → Session) : Session :=
  (S.contexts[context]?.map deed).getD S

/-- **What a deed does.** It does nothing if what it is done with is not there. -/
def step (S : Session) : Deed → Session
  | .make => S.grant S.shared.newToken
  | .child h => S.atHandle h fun τ => S.grant (S.shared.newChild τ)
  | .clone h => S.atHandle h fun τ => { S with tokens := S.tokens ++ [τ] }
  | .cancel h => S.atHandle h fun τ => { S with shared := S.shared.cancel τ }
  | .carry h chain => S.atHandle h fun τ => { S with contexts := S.contexts ++ [(h, ⟨chain, τ⟩)] }
  | .draw i site => S.inContext i fun (_, c) => { S with shared := (c.draw site S.shared).2 }
  | .enter i layer => S.inContext i fun (h, c) =>
    if c.admits S.shared layer then
      { S with shared := S.shared.install layer.id, opened := layer.id :: S.opened
               contexts := S.contexts ++ [(h, c.inside layer)] }
    else S
  | .leave => match S.opened with
    | id :: rest => { S with shared := S.shared.release id, opened := rest }
    | [] => S

/-- The session after some deeds. -/
def through (S : Session) (deeds : List Deed) : Session := deeds.foldl step S

/-- A handle is of the same token when there are more of them. -/
theorem getElem?_tokens_append {S : Session} {h : Nat} {τ : Token} (hτ : S.tokens[h]? = some τ)
    (more : List Token) : (S.tokens ++ more)[h]? = some τ :=
  (List.getElem?_append_left (List.getElem?_eq_some_iff.mp hτ).1).trans hτ

/-! ## The forest that a session grows -/

/-- **A session has grown a forest**, with a token for each that was made there. -/
structure Grows (F : Forest) (S : Session) (token : Nat → Token) : Prop where
  tokens : S.tokens = F.handles.map token
  /-- Handles are of tokens that have been made. -/
  made : ∀ n ∈ F.handles, n < F.parents.length
  ordered : F.IsOrdered
  root : ∀ n, F.parents[n]? = some none → (token n).ancestors = []
  child : ∀ n p, F.parents[n]? = some (some p) → (token n).ancestors = (token p).lineage
  /-- Later tokens have higher numbers. -/
  later : ∀ n m, n < m → m < F.parents.length → (token n).id < (token m).id
  numbered : ∀ n, n < F.parents.length → (token n).id < S.shared.next
  cancelled : ∀ n, n < F.parents.length → ((token n).id ∈ S.shared.cancelled ↔ n ∈ F.cancelled)
  /-- No token has been cancelled before it was made. -/
  below : ∀ id ∈ S.shared.cancelled, id < S.shared.next
  felled : ∀ n ∈ F.cancelled, n < F.parents.length
  contexts : ∀ x ∈ S.contexts, S.tokens[x.1]? = some x.2.token

namespace Grows

variable {F : Forest} {S S' : Session} {token : Nat → Token} {h n m : Nat} {τ : Token}

/-- A session begins with the empty forest. -/
theorem begin {s : Shared} (hs : ∀ id ∈ s.cancelled, id < s.next) :
    Grows .empty (begin s) fun _ => .ofId 0 where
  tokens := rfl
  made := nofun
  ordered := nofun
  root := nofun
  child := nofun
  later _ _ _ h := absurd h (Nat.not_lt_zero _)
  numbered _ h := absurd h (Nat.not_lt_zero _)
  cancelled _ h := absurd h (Nat.not_lt_zero _)
  below := hs
  felled := nofun
  contexts := nofun

theorem getElem?_tokens (hg : Grows F S token) (h : Nat) :
    S.tokens[h]? = F.handles[h]?.map token := by
  rw [hg.tokens, List.getElem?_map]

theorem lt_of_handle (hg : Grows F S token) (hn : F.handles[h]? = some n) :
    n < F.parents.length :=
  hg.made n (List.mem_of_getElem? hn)

/-- What the forest does not speak of may change. -/
theorem idle (hg : Grows F S token) (tokens : S'.tokens = S.tokens)
    (next : S'.shared.next = S.shared.next) (cancelled : S'.shared.cancelled = S.shared.cancelled)
    (contexts : ∀ x ∈ S'.contexts, S.tokens[x.1]? = some x.2.token) : Grows F S' token :=
  { hg with
    tokens := tokens.trans hg.tokens
    numbered := next ▸ hg.numbered
    cancelled := cancelled ▸ hg.cancelled
    below := next ▸ cancelled ▸ hg.below
    contexts := tokens ▸ contexts }

/-- **A new token** has a number of its own, and what its parent has above it. -/
theorem plant {parent : Option Nat} (hg : Grows F S token) (hid : τ.id = S.shared.next)
    (hroot : parent = none → τ.ancestors = [])
    (hchild : ∀ p, parent = some p → p < F.parents.length ∧ τ.ancestors = (token p).lineage) :
    ∃ token', Grows (F.plant parent) (S.grant (τ, S.shared.fresh.2)) token' := by
  let token' : Nat → Token := fun n => if n = F.parents.length then τ else token n
  have hnew : token' F.parents.length = τ := if_pos rfl
  have hold : ∀ {n}, n < F.parents.length → token' n = token n := fun hn =>
    if_neg (Nat.ne_of_lt hn)
  have hlength : (F.plant parent).parents.length = F.parents.length + 1 := List.length_append
  have hbelow : ∀ {n x}, F.parents[n]? = some x → n < F.parents.length := fun hx =>
    (List.getElem?_eq_some_iff.mp hx).1
  refine ⟨token', {
    tokens := ?tokens, made := ?made, ordered := ?ordered, root := ?root, child := ?child
    later := ?later, numbered := ?numbered, cancelled := ?cancelled, below := ?below
    felled := ?felled, contexts := ?contexts }⟩
  case tokens =>
    show S.tokens ++ [τ] = (F.handles ++ [F.parents.length]).map token'
    rw [hg.tokens, List.map_append, List.map_singleton, hnew,
      List.map_congr_left fun n hn => hold (hg.made n hn)]
  case made =>
    rw [hlength]
    refine List.forall_mem_append.mpr ⟨fun n hn => Nat.lt_succ_of_lt (hg.made n hn), ?_⟩
    exact List.forall_mem_singleton.mpr (Nat.lt_succ_self _)
  case ordered =>
    intro n p hplanted
    rcases Forest.parents_plant.mp hplanted with hp | ⟨rfl, hp⟩
    · exact hg.ordered n p hp
    · exact (hchild p hp.symm).1
  case root =>
    intro n hplanted
    rcases Forest.parents_plant.mp hplanted with hn | ⟨rfl, hn⟩
    · rw [hold (hbelow hn)]
      exact hg.root n hn
    · rw [hnew]
      exact hroot hn.symm
  case child =>
    intro n p hplanted
    rcases Forest.parents_plant.mp hplanted with hp | ⟨rfl, hp⟩
    · rw [hold (hbelow hp), hold (Nat.lt_trans (hg.ordered n p hp) (hbelow hp))]
      exact hg.child n p hp
    · rw [hnew, hold (hchild p hp.symm).1]
      exact (hchild p hp.symm).2
  case later =>
    intro n m hnm hm
    rw [hlength] at hm
    rcases Nat.lt_succ_iff_lt_or_eq.mp hm with hm | rfl
    · rw [hold (Nat.lt_trans hnm hm), hold hm]
      exact hg.later n m hnm hm
    · rw [hold hnm, hnew, hid]
      exact hg.numbered n hnm
  case numbered =>
    intro n hn
    rw [hlength] at hn
    show (token' n).id < S.shared.next + 1
    rcases Nat.lt_succ_iff_lt_or_eq.mp hn with hn | rfl
    · rw [hold hn]
      exact Nat.lt_succ_of_lt (hg.numbered n hn)
    · rw [hnew, hid]
      exact Nat.lt_succ_self _
  case cancelled =>
    intro n hn
    rw [hlength] at hn
    show (token' n).id ∈ S.shared.cancelled ↔ n ∈ F.cancelled
    rcases Nat.lt_succ_iff_lt_or_eq.mp hn with hn | rfl
    · rw [hold hn]
      exact hg.cancelled n hn
    · -- Neither its number nor its place in the forest has been cancelled.
      rw [hnew, hid]
      exact iff_of_false (fun hin => Nat.lt_irrefl _ (hg.below _ hin))
        fun hin => Nat.lt_irrefl _ (hg.felled _ hin)
  case below => exact fun id hin => Nat.lt_succ_of_lt (hg.below id hin)
  case felled =>
    rw [hlength]
    exact fun n hn => Nat.lt_succ_of_lt (hg.felled n hn)
  case contexts => exact fun x hx => getElem?_tokens_append (hg.contexts x hx) _

/-- **Another handle** is of the same token. -/
theorem clone (hg : Grows F S token) (hn : n < F.parents.length) :
    Grows { F with handles := F.handles ++ [n] } { S with tokens := S.tokens ++ [token n] }
      token :=
  { hg with
    tokens := by rw [hg.tokens, List.map_append, List.map_singleton]
    made := List.forall_mem_append.mpr ⟨hg.made, List.forall_mem_singleton.mpr hn⟩
    contexts := fun x hx => getElem?_tokens_append (hg.contexts x hx) _ }

/-- Tokens of the forest are told apart by their numbers. -/
theorem id_inj (hg : Grows F S token) (hn : n < F.parents.length) (hm : m < F.parents.length) :
    (token n).id = (token m).id ↔ n = m := by
  refine ⟨fun he => ?_, fun he => he ▸ rfl⟩
  rcases Nat.lt_trichotomy n m with h | h | h
  · exact absurd he (Nat.ne_of_lt (hg.later n m h hm))
  · exact h
  · exact absurd he (Nat.ne_of_gt (hg.later m n h hn))

/-- **A token that is cancelled** is cancelled in the forest. -/
theorem cancel (hg : Grows F S token) (hn : n < F.parents.length) :
    Grows { F with cancelled := n :: F.cancelled } { S with shared := S.shared.cancel (token n) }
      token :=
  { hg with
    cancelled := fun m hm => by
      show (token m).id ∈ (token n).id :: S.shared.cancelled ↔ m ∈ n :: F.cancelled
      rw [List.mem_cons, List.mem_cons, hg.id_inj hm hn, hg.cancelled m hm]
    below := List.forall_mem_cons.mpr ⟨hg.numbered n hn, hg.below⟩
    felled := List.forall_mem_cons.mpr ⟨hn, hg.felled⟩ }

/-- What is done with the token of a handle is done with one of the forest. -/
theorem of_handle (hg : Grows F S token) {deed : Nat → Forest} {deed' : Token → Session}
    (hdeed : ∀ n, F.handles[h]? = some n → ∃ token', Grows (deed n) (deed' (token n)) token') :
    ∃ token', Grows (F.atHandle h deed) (S.atHandle h deed') token' := by
  unfold Forest.atHandle Session.atHandle
  rw [hg.getElem?_tokens]
  cases hn : F.handles[h]? with
  | none => exact ⟨token, hg⟩
  | some n => exact hdeed n hn

/-- What is done with a context leaves the forest alone. -/
theorem of_context (hg : Grows F S token) {i : Nat} {deed : Nat × Context → Session}
    (hdeed : ∀ h c, S.tokens[h]? = some c.token → Grows F (deed (h, c)) token) :
    Grows F (S.inContext i deed) token := by
  unfold inContext
  cases hc : S.contexts[i]? with
  | none => exact hg
  | some x => exact hdeed x.1 x.2 (hg.contexts x (List.mem_of_getElem? hc))

/-- One more context carries a token of the session. -/
theorem carry (hg : Grows F S token) {c : Context} (hc : S.tokens[h]? = some c.token) :
    ∀ x ∈ S.contexts ++ [(h, c)], S.tokens[x.1]? = some x.2.token :=
  List.forall_mem_append.mpr ⟨hg.contexts, List.forall_mem_singleton.mpr hc⟩

/-- **One deed.** -/
theorem step (hg : Grows F S token) (d : Deed) :
    ∃ token', Grows (F.step d) (S.step d) token' := by
  cases d with
  | make => exact hg.plant rfl (fun _ => rfl) nofun
  | child h =>
    refine hg.of_handle fun n hn => hg.plant rfl nofun ?_
    rintro _ ⟨⟩
    exact ⟨hg.lt_of_handle hn, rfl⟩
  | clone h => exact hg.of_handle fun n hn => ⟨token, hg.clone (hg.lt_of_handle hn)⟩
  | cancel h => exact hg.of_handle fun n hn => ⟨token, hg.cancel (hg.lt_of_handle hn)⟩
  | carry h chain =>
    refine ⟨token, ?_⟩
    show Grows F (S.atHandle h _) token
    unfold Session.atHandle
    cases hτ : S.tokens[h]? with
    | none => exact hg
    | some τ => exact hg.idle rfl rfl rfl (hg.carry hτ)
  | draw i site =>
    refine ⟨token, hg.of_context fun h c _ => ?_⟩
    have hsame := c.sameNumbers_draw site S.shared
    exact hg.idle rfl hsame.next hsame.cancelled hg.contexts
  | enter i layer =>
    refine ⟨token, hg.of_context fun h c hc => ?_⟩
    dsimp only
    split
    · -- The context inside the scope carries the token of the one outside.
      exact hg.idle rfl rfl rfl (hg.carry hc)
    · exact hg
  | leave =>
    refine ⟨token, ?_⟩
    show Grows F (match S.opened with | id :: rest => _ | [] => _) token
    split
    · exact hg.idle rfl rfl rfl hg.contexts
    · exact hg

/-- **A session grows the forest of its deeds.** -/
theorem through (hg : Grows F S token) (deeds : List Deed) :
    ∃ token', Grows (F.through deeds) (S.through deeds) token' := by
  induction deeds generalizing F S token with
  | nil => exact ⟨token, hg⟩
  | cons d rest ih =>
    obtain ⟨token', hg'⟩ := hg.step d
    exact ih hg'

/-- **A token is cancelled as the forest says**: the induction goes up along its parents. -/
theorem isCancelled_iff (hg : Grows F S token) (hn : n < F.parents.length) :
    S.shared.isCancelled (token n) = true ↔ F.IsCancelled n := by
  induction n using Nat.strongRecOn with
  | ind n ih =>
    have hlineage : S.shared.isCancelled (token n) = true
        ↔ n ∈ F.cancelled ∨ ∃ id ∈ (token n).ancestors, id ∈ S.shared.cancelled := by
      rw [← hg.cancelled n hn]
      simp only [Shared.isCancelled, Token.isCancelled_iff, Token.lineage, List.mem_cons,
        exists_eq_or_imp]
    rw [hlineage, Forest.isCancelled_iff]
    refine or_congr_right ?_
    cases hp : F.parents[n]? with
    | none => exact absurd hn (Nat.not_lt.mpr (List.getElem?_eq_none_iff.mp hp))
    | some parent =>
      cases parent with
      | none =>
        rw [hg.root n hp]
        simp
      | some p =>
        have hlt := hg.ordered n p hp
        rw [hg.child n p hp, ← Token.isCancelled_iff]
        simp only [Option.some.injEq, exists_eq_left']
        exact ih p hlt (Nat.lt_trans hlt hn)

end Grows

/-! ## Nothing is taken back -/

/-- **A later session** has the handles of this one, and has cancelled no less. -/
structure Later (S S' : Session) : Prop where
  tokens : ∀ (h : Nat) τ, S.tokens[h]? = some τ → S'.tokens[h]? = some τ
  cancelled : ∀ id ∈ S.shared.cancelled, id ∈ S'.shared.cancelled

namespace Later

variable {S S' S'' : Session}

theorem refl (S : Session) : S.Later S := ⟨fun _ _ h => h, fun _ h => h⟩

theorem trans (h : S.Later S') (h' : S'.Later S'') : S.Later S'' :=
  ⟨fun i τ hτ => h'.tokens i τ (h.tokens i τ hτ),
    fun id hid => h'.cancelled id (h.cancelled id hid)⟩

theorem atHandle {h : Nat} {deed : Token → Session} (hdeed : ∀ τ, S.Later (deed τ)) :
    S.Later (S.atHandle h deed) := by
  unfold Session.atHandle
  cases S.tokens[h]? with
  | none => exact .refl S
  | some τ => exact hdeed τ

theorem inContext {i : Nat} {deed : Nat × Context → Session} (hdeed : ∀ x, S.Later (deed x)) :
    S.Later (S.inContext i deed) := by
  unfold Session.inContext
  cases S.contexts[i]? with
  | none => exact .refl S
  | some x => exact hdeed x

end Later

theorem later_step (S : Session) (d : Deed) : S.Later (S.step d) := by
  cases d with
  | make => exact ⟨fun _ _ h => getElem?_tokens_append h _, fun _ h => h⟩
  | child h => exact .atHandle fun τ => ⟨fun _ _ h => getElem?_tokens_append h _, fun _ h => h⟩
  | clone h => exact .atHandle fun τ => ⟨fun _ _ h => getElem?_tokens_append h _, fun _ h => h⟩
  | cancel h =>
    exact .atHandle fun τ => ⟨fun _ _ h => h, fun _ h => List.mem_cons_of_mem _ h⟩
  | carry h chain => exact .atHandle fun τ => ⟨fun _ _ h => h, fun _ h => h⟩
  | draw i site =>
    refine .inContext fun x => ⟨fun _ _ h => h, fun id hid => ?_⟩
    show id ∈ (x.2.draw site S.shared).2.cancelled
    rw [(x.2.sameNumbers_draw site S.shared).cancelled]
    exact hid
  | enter i layer =>
    refine .inContext fun x => ?_
    dsimp only
    split
    · exact ⟨fun _ _ h => h, fun _ h => h⟩
    · exact .refl S
  | leave =>
    show S.Later (match S.opened with | id :: rest => _ | [] => _)
    split
    · exact ⟨fun _ _ h => h, fun _ h => h⟩
    · exact .refl S

theorem later_through (S : Session) (deeds : List Deed) : S.Later (S.through deeds) := by
  induction deeds generalizing S with
  | nil => exact .refl S
  | cons d rest ih => exact (S.later_step d).trans (ih _)

/-! ## A session and its forest -/

/-- **A handle**, of a token of the session and of one of the forest. -/
structure Handle (F : Forest) (S : Session) (h : Nat) (τ : Token) (n : Nat) : Prop where
  token : S.tokens[h]? = some τ
  node : F.handles[h]? = some n

namespace Grows

variable {F : Forest} {S : Session} {token : Nat → Token} {h n : Nat} {τ : Token}

theorem handle (hg : Grows F S token) (hτ : S.tokens[h]? = some τ) :
    ∃ n, Handle F S h τ n := by
  obtain ⟨n, hn, -⟩ := Option.map_eq_some_iff.mp (hg.getElem?_tokens h ▸ hτ)
  exact ⟨n, hτ, hn⟩

theorem of_isHandle (hg : Grows F S token) (hh : Handle F S h τ n) :
    n < F.parents.length ∧ τ = token n := by
  refine ⟨hg.lt_of_handle hh.node, ?_⟩
  have hτ := hh.token
  rw [hg.getElem?_tokens, hh.node] at hτ
  exact (Option.some.inj hτ).symm

theorem isCancelled_iff_of_handle (hg : Grows F S token) (hh : Handle F S h τ n) :
    S.shared.isCancelled τ = true ↔ F.IsCancelled n := by
  obtain ⟨hn, rfl⟩ := hg.of_isHandle hh
  exact hg.isCancelled_iff hn

/-- **Cancelling a token** cancels what is below it, and nothing else. -/
theorem isCancelled_step_cancel (hg : Grows F S token) (hh : Handle F S h τ n) {g m : Nat}
    {ρ : Token} (hρ : Handle F S g ρ m) : (S.step (.cancel h)).shared.isCancelled ρ = true
      ↔ F.Above n m ∨ S.shared.isCancelled ρ = true := by
  obtain ⟨hn, rfl⟩ := hg.of_isHandle hh
  obtain ⟨hm, rfl⟩ := hg.of_isHandle hρ
  have hstep : S.step (.cancel h) = { S with shared := S.shared.cancel (token n) } := by
    show (S.tokens[h]?.map _).getD S = _
    rw [hh.token]
    rfl
  rw [hstep, (hg.cancel hn).isCancelled_iff hm, Forest.isCancelled_cons, hg.isCancelled_iff hm]

end Grows

/-- **A session follows a forest.** -/
structure FollowsForest (F : Forest) (S : Session) : Prop where
  /-- Every handle is of a token in both. -/
  handles : S.tokens.length = F.handles.length
  /-- A token is cancelled just if it, or one that it descends from, has been. -/
  cancelled : ∀ h τ n, Handle F S h τ n → (S.shared.isCancelled τ = true ↔ F.IsCancelled n)
  /-- Then it stays so, whatever is done. -/
  stays : ∀ (h : Nat) τ, S.tokens[h]? = some τ → S.shared.isCancelled τ = true → ∀ more,
    (S.through more).tokens[h]? = some τ ∧ (S.through more).shared.isCancelled τ = true
  /-- Cancelling one cancels what descends from it. -/
  cancels : ∀ h τ n g ρ m, Handle F S h τ n → Handle F S g ρ m →
    ((S.step (.cancel h)).shared.isCancelled ρ = true
      ↔ F.Above n m ∨ S.shared.isCancelled ρ = true)
  /-- It makes no difference to what it descends from, to its siblings and to other trees. -/
  spares : ∀ h τ n g ρ m, Handle F S h τ n → Handle F S g ρ m → F.Aside n m →
    (S.step (.cancel h)).shared.isCancelled ρ = S.shared.isCancelled ρ
  /-- A context, in a scope or not, refuses to draw and to observe just if its token is
  cancelled at the time. -/
  refuses : ∀ (i : Nat) h c, S.contexts[i]? = some (h, c) → ∃ n, Handle F S h c.token n
    ∧ ∀ site, c.RefusesIf (F.IsCancelled n) site S.shared

/-- **Cancellation follows the forest of tokens** in every session, whatever is made, cloned,
cancelled, drawn and opened in it, and in whatever order. -/
theorem followsForest {s : Shared} (hs : ∀ id ∈ s.cancelled, id < s.next) (deeds : List Deed) :
    FollowsForest (Forest.empty.through deeds) ((begin s).through deeds) := by
  obtain ⟨token, hg⟩ := (Grows.begin hs).through deeds
  refine ⟨by rw [hg.tokens, List.length_map], fun h τ n hh => hg.isCancelled_iff_of_handle hh,
    fun h τ hτ hc more => ?_, fun h τ n g ρ m hh hρ => hg.isCancelled_step_cancel hh hρ,
    fun h τ n g ρ m hh hρ haside => ?_, fun i h c hc => ?_⟩
  · have hlater := later_through ((begin s).through deeds) more
    exact ⟨hlater.tokens h τ hτ, Token.isCancelled_of_subset hlater.cancelled hc⟩
  · rw [Bool.eq_iff_iff, hg.isCancelled_step_cancel hh hρ,
      or_iff_right (haside.not_above hg.ordered)]
  · obtain ⟨n, hh⟩ := hg.handle (hg.contexts (h, c) (List.mem_of_getElem? hc))
    exact ⟨n, hh, c.refusesIf (hg.isCancelled_iff_of_handle hh)⟩

/-- A token, a child of it with a child of its own, and a second child. The first child is put
into a context, on which a scope is opened, and is cancelled by another handle inside of it. -/
def kinship : List Deed :=
  [.make, .child 0, .child 1, .child 0, .clone 1, .carry 1 (.link 0 (.standard false) .empty),
    .enter 0 (.plain 1 (.thread false)), .draw 1 (.drawn "x" (.constant .null .null)), .cancel 4]

/-- The first child and what is below it are cancelled, its parent and its sibling are not. -/
theorem followsForest_kinship :
    (∀ id ∈ (Shared.start "/").cancelled, id < (Shared.start "/").next)
      ∧ FollowsForest (Forest.empty.through kinship) ((begin (.start "/")).through kinship)
      ∧ ((begin (.start "/")).through kinship).tokens.map
          ((begin (.start "/")).through kinship).shared.isCancelled
        = [false, true, true, false, true] :=
  ⟨List.forall_mem_nil _, followsForest (List.forall_mem_nil _) kinship, rfl⟩

end Session

end Resampler
