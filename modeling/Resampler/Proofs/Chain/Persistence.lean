import Resampler.Program.Basic
import Resampler.Proofs.Chain.Turn
import Resampler.Proofs.Json.Reading
import Resampler.Proofs.Store.Retention

/-!
# What a persisted draw is answered later

A draw that is answered from a store comes back as what reading makes of the text that
the store has for it. The text is that of the value with which the draw was first
answered: one value travels up a chain, so whatever the chain keeps on account of a draw,
in this store or in others, is the text of that value (`Chain.later_draw`), and neither
the store nor its file loses it. So the later answer is decided by the value alone. It is
an equal value just if the value is not nested too deeply and its floating-point numbers
read back (`Persists.equal`), and some do not (`drifts`).
-/

namespace Resampler

namespace Sha256

theorem littleEndian_lt (bytes : List UInt8) :
    littleEndian bytes < Nat.pow 256 bytes.length := by
  induction bytes with
  | nil => exact Nat.zero_lt_one
  | cons b rest ih =>
    have hb : b.toNat < 256 := b.toNat_lt
    have hpow : Nat.pow 256 (b :: rest).length = Nat.pow 256 rest.length * 256 := rfl
    rw [littleEndian, hpow]
    omega

/-- The first 64 bits of a digest are a number of 64 bits. -/
theorem digest64_le (message : List UInt8) : digest64 message ≤ Numeral.wordMax := by
  have hlt := littleEndian_lt ((digest message).take 8)
  have hlength : ((digest message).take 8).length ≤ 8 := List.length_take_le 8 _
  have hpow : Nat.pow 256 ((digest message).take 8).length ≤ Nat.pow 256 8 :=
    Nat.pow_le_pow_right (by decide) hlength
  have hmax : Nat.pow 256 8 = Numeral.wordMax + 1 := by decide
  rw [digest64]
  omega

end Sha256

theorem Distribution.cacheKey_le (d : Distribution) (k : RandomKey) :
    d.cacheKey k ≤ Numeral.wordMax :=
  Sha256.digest64_le _

/-! ## What a draw keeps -/

/-- **A text that is kept on account of a reply**: the text of the value, if the reply is
one. -/
def IsTextOf (reply : Reply) (text : String) : Prop := ∀ v, reply = .value v → text = v.text

namespace Handler

variable {id : Nat} {h : Handler} {name : String} {s s' : Shared} {next : Answerer}

/-- Only interpreters with a store write to stores. -/
theorem Writes.stores_eq (hw : h.Writes id name s s') (hne : ∀ store, h ≠ .persistent store) :
    s'.stores = s.stores ∧ s'.files = s.files := by
  cases hw with
  | keep _ _ => exact absurd rfl (hne _)
  | _ => exact ⟨rfl, rfl⟩

/-- An interpreter without a store keeps what the rest of the chain keeps. -/
theorem later_draw_of_ne (hne : ∀ store, h ≠ .persistent store)
    (hnext : ∀ site key s, Shared.Later (IsTextOf (next site key s).1) s (next site key s).2)
    (site : Site) (key : Option RandomKey) (s : Shared) :
    Shared.Later (IsTextOf (h.draw id next site key s).1) s (h.draw id next site key s).2 := by
  have hturn := draw_turn id h next site key s
  generalize h.draw id next site key s = out at hturn
  cases hturn with
  | asks kind keyed drawn noted =>
    rcases noted with rfl | rfl
    · exact .same (.refl s) rfl rfl
    · exact .same (.refl s) rfl rfl
  | answers reply blame => exact .refl s
  | @passes site' key' s₁ s₂ s₃ reply reply' hname hobserved keys before rest after told =>
    have hbefore := before.stores_eq hne
    have hafter := after.stores_eq hne
    have hrest := hnext site' key' s₁
    rw [rest] at hrest
    have hkind : ∀ text, IsTextOf reply text → IsTextOf reply' text := by
      rcases told with rfl | ⟨v, e, rfl, rfl, -⟩
      · exact fun _ h => h
      · exact fun _ _ _ h => nomatch h
    have hfirst : Shared.Later (IsTextOf reply') s s₁ := .same (.refl s) hbefore.1 hbefore.2
    exact .same (hfirst.trans (hrest.mono hkind)) hafter.1 hafter.2

/-- **An interpreter with a store** keeps the text of the value that it is answered. -/
theorem later_drawPersistent {store : Nat}
    (hnext : ∀ site key s, Shared.Later (IsTextOf (next site key s).1) s (next site key s).2)
    (site : Site) (key : Option RandomKey) (s : Shared) :
    Shared.Later (IsTextOf (drawPersistent store next site key s).1) s
      (drawPersistent store next site key s).2 := by
  unfold drawPersistent
  split
  · exact hnext _ _ s
  · exact .refl s
  · next k hsite =>
    dsimp only
    split
    · exact .refl s
    · split <;> exact .refl s
    · have hrest := hnext site (some k) s
      split
      · next v s₁ hvalue =>
        rw [hvalue] at hrest
        split
        · next s₂ hkeep =>
          exact hrest.keep (Distribution.cacheKey_le _ _) (fun w hw => by cases hw; rfl) hkeep
        · exact hrest.mono fun _ _ _ h => nomatch h
      · exact hrest

end Handler

/-- **All that a draw keeps is the text of its value.** -/
theorem Chain.later_draw (c : Chain) (site : Site) (key : Option RandomKey) (s : Shared) :
    Shared.Later (IsTextOf (c.draw site key s).1) s (c.draw site key s).2 := by
  induction c generalizing site key s with
  | empty => exact .refl s
  | link id h rest ih =>
    rw [draw_link]
    cases h with
    | persistent store => exact Handler.later_drawPersistent ih site key s
    | _ =>
      refine Handler.later_draw_of_ne (fun store hstore => ?_) ih site key s
      cases hstore
  | branch id selects alternate rest iha ihr =>
    by_cases hselects : selects site.name site.distribution = true
    · rw [draw_branch_of_selects hselects]
      exact iha site key s
    · rw [draw_branch_of_not_selects (Bool.eq_false_iff.mpr hselects)]
      exact ihr site key s

/-- **What a program leaves comes later** than what it was started in, whatever it draws. -/
theorem Program.later_run {σ : Type} (p : Program σ) (s : Shared) :
    Shared.Later (fun _ => True) s (p.run s).2 := by
  induction p generalizing s with
  | finish outcome locals => exact .refl s
  | draw context site next ih =>
    rw [run_draw]
    refine Shared.Later.trans ?_ (ih _ _)
    unfold Context.draw
    split
    · exact .refl s
    · exact (context.chain.later_draw site none s).mono fun _ _ => trivial
  | scope context layer body next ihbody ihnext =>
    by_cases hadmits : context.admits s layer = true
    · rw [run_scope_of_admits hadmits]
      have hopened : Shared.Later (fun _ => True) s (s.install layer.id) :=
        .same (.refl s) rfl rfl
      have hbody := ihbody (context.inside layer) (s.install layer.id)
      generalize (body (context.inside layer)).run (s.install layer.id) = out at hbody ⊢
      have hclosed : Shared.Later (fun _ => True) s (out.2.release layer.id) :=
        .same (hopened.trans hbody) rfl rfl
      exact hclosed.trans (ihnext _ _)
    · rw [run_scope_of_not_admits hadmits]
      exact ihnext _ s
  | cancel token next ih =>
    rw [run_cancel]
    have hcancelled : Shared.Later (fun _ => True) s (s.cancel token) := .same (.refl s) rfl rfl
    exact hcancelled.trans (ih _)

/-! ## The later draw -/

/-- What a draw is answered from a text that a store has for it. -/
def Reply.ofText (text : String) : Reply :=
  match Json.ofText? text with
  | some v => .value v
  | none => .failure .serialization

/-- **A value is read as an equal one** just if it is not nested too deeply and its
floating-point numbers read back. -/
theorem Reply.ofText_iff {v : Json} (hv : v.IsOrdered) :
    (∃ w, Reply.ofText v.text = .value w ∧ w.same v = true)
      ↔ v.depth ≤ Json.depthMax ∧ v.readsBack = true := by
  rw [← Json.isRead_iff hv, Reply.ofText]
  cases Json.ofText? v.text with
  | none => simp
  | some w => simp

/-- **A floating-point number comes back** as what the scaled reading makes of its
numeral. -/
theorem Reply.ofText_real {x y : Float} (hx : x.isFinite = true) (hy : y.isFinite = true)
    (h : (Json.numberLayout.numeral x).scaled = some y) :
    Reply.ofText (Json.text (.number (.real x hx))) = .value (.number (.real y hy)) := by
  have hreread : Json.reread (.number (.real x hx)) = some (.number (.real y hy)) := by
    rw [Json.reread, JsonNumber.reread, h]
    exact congrArg some (dif_pos hy)
  have hshallow : Json.depth (.number (.real x hx)) ≤ Json.depthMax := Nat.zero_le _
  rw [Reply.ofText, Json.ofText?_text (v := .number (.real x hx)) trivial, if_pos hshallow,
    hreread]

/-- **A draw is answered from a store**, whatever site it is for and whoever is next: one
for a distribution that describes itself as this one, under this key. -/
def Shared.AnswersFrom (s : Shared) (store : Nat) (d : Distribution) (k : RandomKey)
    (reply : Reply) : Prop :=
  ∀ (site : Site) (next : Answerer), site.observed = none →
    site.distribution.describe = d.describe →
    Handler.drawPersistent store next site (some k) s = (reply, s)

namespace Handler

variable {store : Nat} {text : String} {st : Store} {site : Site} {k : RandomKey}
  {s s' t : Shared} {next : Answerer} {v : Json} {d : Distribution} {path : Path}
  {place : Location} {listed : Log.Entries}

/-- What a store has for a draw is read. -/
theorem answersFrom_of_get? (hst : s.stores.get? store = some st)
    (hget : st.get? (d.cacheKey k) = .ok (some text)) :
    s.AnswersFrom store d k (Reply.ofText text) := by
  intro site next hsite hdescribe
  have hnumber : site.distribution.cacheKey k = d.cacheKey k := by
    rw [Distribution.cacheKey, Distribution.cacheChars, Distribution.identityChars, hdescribe]
    rfl
  unfold drawPersistent
  rw [hsite]
  dsimp only
  rw [hnumber, Shared.store_of_get?_eq_some hst, hget, Reply.ofText]
  dsimp only
  cases Json.ofText? text <;> rfl

/-- **A draw that a store has nothing for** is answered by the rest of the chain, and the
text of the value is kept. -/
theorem exists_keep_of_drawPersistent (hsite : site.observed = none)
    (hmiss : (s.store store).get? (site.distribution.cacheKey k) = .ok none)
    (hdraw : drawPersistent store next site (some k) s = (.value v, s')) :
    ∃ t, next site (some k) s = (.value v, t)
      ∧ t.keep store (site.distribution.cacheKey k) v.text = .ok s' := by
  unfold drawPersistent at hdraw
  rw [hsite] at hdraw
  dsimp only at hdraw
  rw [hmiss] at hdraw
  dsimp only at hdraw
  split at hdraw
  · next w t hvalue =>
    split at hdraw
    · next u hkeep =>
      cases hdraw
      exact ⟨t, hvalue, hkeep⟩
    · cases hdraw
  · next hfailed =>
    rw [hdraw] at hfailed
    exact absurd rfl (hfailed v s')

/-- **What a draw leaves that a store had nothing for**: nothing but the text of its value
has been kept, and there it is. -/
theorem kept_of_drawPersistent {rest : Chain}
    (hdraw : drawPersistent store rest.draw site (some k) s = (.value v, s'))
    (hsite : site.observed = none) (hst : s.stores.get? store = some st) (hworks : st.Works)
    (hmiss : st.get? (site.distribution.cacheKey k) = .ok none) :
    Shared.Later (· = v.text) s s'
      ∧ ∃ st', s'.stores.get? store = some st' ∧ st.Gains (· = v.text) st'
        ∧ st'.get? (site.distribution.cacheKey k) = .ok (some v.text) := by
  have hstore := Shared.store_of_get?_eq_some hst
  obtain ⟨t, hnext, hkeep⟩ := exists_keep_of_drawPersistent hsite (hstore.symm ▸ hmiss) hdraw
  -- The rest of the chain has answered this value, so it has kept no other text.
  have hrest := rest.later_draw site (some k) s
  rw [hnext] at hrest
  have hbefore : Shared.Later (· = v.text) s t := hrest.mono fun text htext => htext v rfl
  exact ⟨hbefore.keep (Distribution.cacheKey_le _ _) rfl hkeep,
    hbefore.kept hst hworks hmiss hkeep⟩

/-- **A log that has a text for a draw** answers from it, also in later processes,
whatever path it is opened by. -/
theorem answersFrom_reopened {path' : Path} {entries : Log.Entries} {files : FileTree} {id : Nat}
    {u : Shared} (hafter : Shared.After (fun _ => True) s t) (hs : s.Sound)
    (hlog : s.files.HasLog path place listed) (hget : listed.get? (d.cacheKey k) = some text)
    (hopen : Store.openLog t.files path' = (.ok (.log path' place entries), files))
    (hlater : Shared.Later (fun _ => True) (t.withStore id (.log path' place entries) files) u) :
    u.AnswersFrom id d k (Reply.ofText text) := by
  obtain ⟨listed', hlog', hgains⟩ := (hafter.retains hs).hasLog hlog
  obtain rfl := hlog'.lists.eq_of_openLog hopen
  have hthere := (t.get?_stores_withStore id id (.log path' place entries) files).trans
    (if_pos rfl)
  obtain ⟨st, hst, hstgains⟩ := hlater.stores hthere
  have hentry : (Store.log path' place entries).get? (d.cacheKey k) = .ok (some text) :=
    congrArg Except.ok (hgains.get?_eq_some hget)
  exact answersFrom_of_get? hst (hstgains.get?_eq_ok hentry)

/-- **What becomes of a draw** that was answered with a value by the rest of the chain, from
one state to the next, as a store had nothing for it. -/
structure Persists (s s' : Shared) (store : Nat) (st : Store) (d : Distribution) (k : RandomKey)
    (v : Json) : Prop where
  /-- Whatever happens later, the store answers the draw from the text of the value. -/
  again : ∀ t, Shared.Later (fun _ => True) s' t →
    t.AnswersFrom store d k (Reply.ofText v.text)
  /-- The log of the store can be opened again, also in a later process. -/
  reopens : ∀ path place entries listed t, st = .log path place entries → s.Sound →
    s.files.HasLog path place listed → Shared.After (fun _ => True) s' t →
    ∃ entries', Store.openLog t.files path = (.ok (.log path place entries'), t.files)
  /-- Whoever opens the log again answers the draw from the text of the value, unless the
  log had another text for it before. -/
  reopened : ∀ path place entries listed t path' entries' files id u,
    st = .log path place entries → s.Sound → s.files.HasLog path place listed →
    Shared.After (fun _ => True) s' t →
    Store.openLog t.files path' = (.ok (.log path' place entries'), files) →
    Shared.Later (fun _ => True) (t.withStore id (.log path' place entries') files) u →
    u.AnswersFrom id d k (Reply.ofText ((listed.get? (d.cacheKey k)).getD v.text))
  /-- The text is read as an equal value just if the value is not nested too deeply and its
  floating-point numbers read back. -/
  equal : (∃ w, Reply.ofText v.text = .value w ∧ w.same v = true)
    ↔ v.depth ≤ Json.depthMax ∧ v.readsBack = true

/-- **A draw that is answered with a value is answered from its text ever after**, by the
store that had nothing for it, and by every store that is opened over the same log. -/
theorem drawPersistent_again {rest : Chain}
    (hdraw : drawPersistent store rest.draw site (some k) s = (.value v, s'))
    (hsite : site.observed = none) (hst : s.stores.get? store = some st) (hworks : st.Works)
    (hmiss : st.get? (site.distribution.cacheKey k) = .ok none) (hv : v.IsOrdered) :
    Persists s s' store st site.distribution k v := by
  obtain ⟨hkept, st', hst', hgains, hget⟩ :=
    kept_of_drawPersistent hdraw hsite hst hworks hmiss
  have hlisted : ∀ path place entries listed, st = .log path place entries → s.Sound →
      s.files.HasLog path place listed → ∃ listed', s'.files.HasLog path place listed'
        ∧ listed'.get? (site.distribution.cacheKey k)
          = some ((listed.get? (site.distribution.cacheKey k)).getD v.text) := by
    rintro path place entries listed rfl hs hlog
    cases hgains with
    | log _ _ _ => exact (hkept.retains hs).get?_listed hst' (Except.ok.inj hget) hlog
  exact {
    again := fun t hlater => by
      obtain ⟨st'', hst'', hgains'⟩ := hlater.stores hst'
      exact answersFrom_of_get? hst'' (hgains'.get?_eq_ok hget)
    reopens := fun path place entries listed t hlogged hs hlog hafter => by
      obtain ⟨listed', hlog', -⟩ := hlisted path place entries listed hlogged hs hlog
      obtain ⟨listed'', hlog'', -⟩ := (hafter.retains (hkept.retains hs).sound).hasLog hlog'
      exact ⟨listed'', hlog''.openLog_eq⟩
    reopened := fun path place entries listed t path' entries' files id u hlogged hs hlog hafter
        hopen hlater => by
      obtain ⟨listed', hlog', hget'⟩ := hlisted path place entries listed hlogged hs hlog
      exact answersFrom_reopened hafter (hkept.retains hs).sound hlog' hget' hopen hlater
    equal := Reply.ofText_iff hv }

/-- A draw whose distribution answers every key with one value. -/
def fixedSite (v : Json) : Site := .drawn "x" ⟨.string "fixed", fun _ => .value v⟩

/-- A chain that asks the distribution. -/
def asking : Chain := .link 1 (.standard false) .empty

/-- An object with texts in it, drawn over a log that was not there, and drawn again in the
next process. -/
theorem drawPersistent_again_restarted :
    ∃ (v w : Json) (s s' t : Shared) (st : Store),
      s.stores.get? 0 = some st ∧ st.Works
        ∧ st.get? ((fixedSite v).distribution.cacheKey .root) = .ok none
        ∧ drawPersistent 0 asking.draw (fixedSite v) (some .root) s = (.value v, s')
        ∧ t.stores = .empty ∧ t.files = s'.files ∧ w.same v = true
        ∧ ∃ place entries, Store.openLog t.files (.ofText "a.jsonl")
            = (.ok (.log (.ofText "a.jsonl") place entries), t.files)
          ∧ (t.withStore 0 (.log (.ofText "a.jsonl") place entries) t.files).AnswersFrom 0
            (fixedSite v).distribution .root (.value w) := by
  have hvacant : (FileTree.ofRoot "/tmp").IsVacant (.ofText "a.jsonl") :=
    ⟨_, ["a.jsonl"], rfl, rfl, .inl rfl⟩
  obtain ⟨place, opened, hopen, hkeeps⟩ := Store.openLog_of_isVacant hvacant
  have hlog : opened.HasLog (.ofText "a.jsonl") place .empty := ⟨[], hkeeps, rfl, rfl⟩
  let s := (Shared.start "/tmp").withStore 0 (.log (.ofText "a.jsonl") place .empty) opened
  have hopened : Shared.Later (fun _ => True) (Shared.start "/tmp") s :=
    (Shared.Later.refl _).opens rfl hopen
  have hsound : s.Sound := (hopened.retains (Shared.sound_start "/tmp")).sound
  have hst : s.stores.get? 0 = some (.log (.ofText "a.jsonl") place .empty) := rfl
  have hworks : (Store.log (.ofText "a.jsonl") place .empty).Works := fun _ h => nomatch h
  let v : Json := .objectOf [("a", .array [.string "one\n\"two\"", .null]), ("b", .bool true)]
  have hordered : v.IsOrdered := by
    refine ⟨?_, ⟨trivial, trivial, trivial⟩, trivial, trivial⟩
    decide
  have hdraw : drawPersistent 0 asking.draw (fixedSite v) (some .root) s
      = (.value v, (drawPersistent 0 asking.draw (fixedSite v) (some .root) s).2) := rfl
  generalize (drawPersistent 0 asking.draw (fixedSite v) (some .root) s).2 = s' at hdraw
  have hpersists := drawPersistent_again hdraw rfl hst hworks rfl hordered
  obtain ⟨w, hread, hsame⟩ := hpersists.equal.mpr ⟨by decide, rfl⟩
  let t : Shared := { Shared.start "/tmp" with files := s'.files }
  have hafter : Shared.After (fun _ => True) s' t := .restart .refl rfl rfl
  obtain ⟨entries, hagain⟩ := hpersists.reopens _ place .empty .empty t rfl hsound hlog hafter
  have hanswers := hpersists.reopened _ place .empty .empty t _ entries t.files 0 _ rfl hsound
    hlog hafter hagain (.refl _)
  exact ⟨v, w, s, s', t, _, hst, hworks, rfl, hdraw, rfl, rfl, hsame, place, entries, hagain,
    hread ▸ hanswers⟩

/-! ## Values that do not come back -/

/-- **A number can come back as its neighbour.** A draw is answered with one
floating-point number, and the same draw from the same store with the next one. -/
theorem drifts : ∃ (s s' : Shared) (v w : Json), v.IsOrdered ∧ w.same v = false
    ∧ s.stores.get? 0 = some (.memory .empty)
    ∧ drawPersistent 0 asking.draw (fixedSite v) (some .root) s = (.value v, s')
    ∧ drawPersistent 0 asking.draw (fixedSite v) (some .root) s' = (.value w, s') := by
  let x : Float := .ofBits 0xbff73b4c2334a514
  let y : Float := .ofBits 0xbff73b4c2334a513
  have hx : x.isFinite = true := by decide +kernel
  have hy : y.isFinite = true := by decide +kernel
  have hscaled : (Json.numberLayout.numeral x).scaled = some y := by decide +kernel
  let v : Json := .number (.real x hx)
  let s := (Shared.start "/tmp").withStore 0 (.memory .empty) (.ofRoot "/tmp")
  have hst : s.stores.get? 0 = some (.memory .empty) := rfl
  have hworks : (Store.memory .empty).Works := fun _ h => nomatch h
  have hdraw : drawPersistent 0 asking.draw (fixedSite v) (some .root) s
      = (.value v, (drawPersistent 0 asking.draw (fixedSite v) (some .root) s).2) := rfl
  obtain ⟨-, st', hst', -, hget⟩ := kept_of_drawPersistent hdraw rfl hst hworks rfl
  refine ⟨s, _, v, .number (.real y hy), trivial, ?_, hst, hdraw, ?_⟩
  · show (y == x) = false
    decide +kernel
  · rw [← Reply.ofText_real hx hy hscaled]
    exact answersFrom_of_get? hst' hget _ _ rfl rfl

end Handler

end Resampler
