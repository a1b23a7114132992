import Resampler.Proofs.Store.Opening
import Resampler.Shared

/-!
# What is kept stays

Between one draw and a later one much may happen: other draws keep texts in the same
store or in others, and stores are opened, over the same file or over others
(`Later`). The process may end, and the next one finds the files (`After`). No store
loses a text in its process (`Later.stores`), and no file that is read and ends clear
loses one at all (`After.retains`), whoever appends to it. What is told of the texts that
are kept in between is true of all that is gained (`Log.Gains`).
-/

namespace Resampler

namespace Log

/-- **Entries gain texts of a kind**: under a number there is what there was, or such a
text where nothing was. -/
def Gains (P : String → Prop) (entries entries' : Entries) : Prop :=
  ∀ number, entries'.get? number = entries.get? number
    ∨ entries.get? number = none ∧ ∃ text, P text ∧ entries'.get? number = some text

variable {P : String → Prop} {entries entries' entries'' : Entries} {number : Nat} {text : String}

theorem Gains.refl (entries : Entries) : Gains P entries entries := fun _ => .inl rfl

theorem Gains.trans (h : Gains P entries entries') (h' : Gains P entries' entries'') :
    Gains P entries entries'' := by
  intro number
  rcases h number with heq | ⟨hnone, text, htext, hsome⟩
  · rw [← heq]
    exact h' number
  · rcases h' number with heq' | ⟨hnone', -⟩
    · exact .inr ⟨hnone, text, htext, heq'.trans hsome⟩
    · rw [hsome] at hnone'
      cases hnone'

theorem gains_insertIfAbsent (htext : P text) (entries : Entries) (number : Nat) :
    Gains P entries (entries.insertIfAbsent number text) := by
  intro other
  rw [OrderedMap.get?_insertIfAbsent]
  cases hother : entries.get? other with
  | some found => exact .inl rfl
  | none =>
    by_cases hnumber : number = other
    · exact .inr ⟨rfl, text, htext, by rw [if_pos hnumber]; rfl⟩
    · exact .inl (by rw [if_neg hnumber]; rfl)

/-- **What is there stays.** -/
theorem Gains.get?_eq_some (h : Gains P entries entries')
    (hsome : entries.get? number = some text) : entries'.get? number = some text := by
  rcases h number with heq | ⟨hnone, -⟩
  · exact heq.trans hsome
  · rw [hsome] at hnone
    cases hnone

/-- **What is gained is of the kind.** -/
theorem Gains.of_get?_eq_none (h : Gains P entries entries') (hnone : entries.get? number = none)
    (hsome : entries'.get? number = some text) : P text := by
  rcases h number with heq | ⟨-, found, hfound, hget⟩
  · rw [heq, hnone] at hsome
    cases hsome
  · rw [hget] at hsome
    cases hsome
    exact hfound

/-- A number that has a text in the end has the one it had, or the one that is gained. -/
theorem Gains.get?_eq_getD (h : Gains (· = text) entries entries')
    (hin : entries'.contains number = true) :
    entries'.get? number = some ((entries.get? number).getD text) := by
  obtain ⟨found, hfound⟩ := OrderedMap.contains_iff.mp hin
  cases hold : entries.get? number with
  | some old => exact h.get?_eq_some hold
  | none =>
    obtain rfl := h.of_get?_eq_none hold hfound
    exact hfound

end Log

namespace FileTree

open Log

variable {t t' : FileTree} {place other : Location} {content : List UInt8} {r : Record}
  {entries entries' : Entries}

/-! ## Files to which records are appended -/

/-- The files with a record more in the one at a place. -/
def withRecord (t : FileTree) (place : Location) (r : Record) : FileTree :=
  t.set place (.file (append (t.contentAt place) r))

theorem get?_withRecord (h : t.get? place = some (.file content)) (r : Record)
    (other : Location) :
    (t.withRecord place r).get? other
      = if place = other then some (.file (append content r)) else t.get? other := by
  by_cases hroot : other = []
  · subst hroot
    have hplace : place ≠ [] := by
      rintro rfl
      cases h
    rw [if_neg hplace]
    rfl
  · rw [withRecord, get?_set _ _ _ _ hroot, contentAt, h]

theorem extends_withRecord (h : t.get? place = some (.file content)) (r : Record) :
    t.Extends (t.withRecord place r) :=
  extends_set_file (by rw [isDirectory, h]; rfl) _

/-- **The file at a place lists entries**, and takes more records. -/
structure Lists (t : FileTree) (place : Location) (entries : Entries) : Prop where
  /-- It is there, is read as these entries, and its last line is clear. -/
  file : ∃ content, t.get? place = some (.file content) ∧ read content = .ok entries
    ∧ endsClear content = true

/-- A record that is appended is listed. -/
theorem Lists.append (h : t.Lists place entries) (hr : r.key ≤ Numeral.wordMax) :
    (t.withRecord place r).Lists place (entries.insertIfAbsent r.key r.value) := by
  obtain ⟨content, hfile, hread, hclear⟩ := h.file
  refine ⟨Log.append content r, ?_, ?_, endsClear_append content r⟩
  · rw [get?_withRecord hfile, if_pos rfl]
  · rw [read_append hread hr, if_pos hclear]

/-- What other files list they go on listing. -/
theorem Lists.elsewhere (h : t.Lists other entries) (hfile : t.get? place = some (.file content))
    (hne : place ≠ other) (r : Record) : (t.withRecord place r).Lists other entries := by
  obtain ⟨content', hother, hread⟩ := h.file
  exact ⟨content', by rw [get?_withRecord hfile, if_neg hne, hother], hread⟩

theorem Lists.grows (h : t.Lists place entries) (hgrows : t.Grows t') :
    t'.Lists place entries := by
  obtain ⟨content, hfile, hread⟩ := h.file
  exact ⟨content, hgrows place _ hfile, hread⟩

/-- **A path leads to a log** that lists entries, and the directories on its way are made. -/
structure HasLog (t : FileTree) (path : Path) (place : Location) (entries : Entries) : Prop where
  /-- The path leads to a file that is read as these entries, and its last line is clear. -/
  file : ∃ content, t.Keeps path place content ∧ read content = .ok entries
    ∧ endsClear content = true

theorem HasLog.lists {path : Path} (h : t.HasLog path place entries) : t.Lists place entries := by
  obtain ⟨content, hkeeps, hread⟩ := h.file
  exact ⟨content, hkeeps.file, hread⟩

/-- The log can be opened. -/
theorem HasLog.openLog_eq {path : Path} (h : t.HasLog path place entries) :
    Store.openLog t path = (.ok (.log path place entries), t) := by
  obtain ⟨content, hkeeps, hread, -⟩ := h.file
  rw [Store.openLog_of_keeps hkeeps, hread, Store.ofReading]

/-- **Whatever path leads to the file**, the log is opened with the entries that it lists. -/
theorem Lists.eq_of_openLog {path : Path} (h : t.Lists place entries)
    (hopen : Store.openLog t path = (.ok (.log path place entries'), t')) : entries' = entries := by
  obtain ⟨content, hfile, hread, -⟩ := h.file
  obtain ⟨place', content', entries'', hst, hread', hkeeps⟩ := Store.exists_keeps_of_openLog hopen
  cases hst
  have hgrows := Store.grows_openLog t path
  rw [hopen] at hgrows
  have hsame := (hgrows place _ hfile).symm.trans hkeeps.file
  cases hsame
  rw [hread'] at hread
  exact Except.ok.inj hread

/-- **The file at a place backs entries**: they can all be read in it, unless it is faulty
whatever is appended. -/
structure Backs (t : FileTree) (place : Location) (entries : Entries) : Prop where
  /-- It is there, and has all the numbers, or it is faulty. -/
  file : ∃ content, t.get? place = some (.file content)
    ∧ ((∃ listed, read content = .ok listed
        ∧ ∀ number, entries.contains number = true → listed.contains number = true)
      ∨ ∃ fault, settled content = .error fault)

/-- **A record that is appended is backed**, with all that was backed before. -/
theorem Backs.append (h : t.Backs place entries) (hr : r.key ≤ Numeral.wordMax) :
    (t.withRecord place r).Backs place (entries.insertIfAbsent r.key r.value) := by
  obtain ⟨content, hfile, hstate⟩ := h.file
  refine ⟨Log.append content r, by rw [get?_withRecord hfile, if_pos rfl], ?_⟩
  rcases hstate with ⟨listed, hread, hbacked⟩ | ⟨fault, hfault⟩
  · have happend := read_append hread hr
    by_cases hclear : endsClear content = true
    · rw [if_pos hclear] at happend
      refine .inl ⟨_, happend, fun number hnumber => ?_⟩
      rw [OrderedMap.contains_insertIfAbsent, Bool.or_eq_true] at hnumber ⊢
      exact hnumber.imp_left (hbacked number)
    · rw [if_neg hclear, read_append_eq] at happend
      exact .inr ⟨_, happend⟩
  · exact .inr ⟨fault, (read_append_of_error hfault r).2⟩

/-- What was backed before is backed, wherever a record is appended. -/
theorem Backs.withRecord (h : t.Backs other entries) (hfile : t.get? place = some (.file content))
    (hr : r.key ≤ Numeral.wordMax) : (t.withRecord place r).Backs other entries := by
  by_cases hplace : place = other
  · subst hplace
    obtain ⟨content', hget, hstate⟩ := (h.append hr).file
    refine ⟨content', hget, hstate.imp_left ?_⟩
    rintro ⟨listed, hread, hbacked⟩
    refine ⟨listed, hread, fun number hnumber => hbacked number ?_⟩
    rw [OrderedMap.contains_insertIfAbsent, hnumber]
    rfl
  · obtain ⟨content', hget, hstate⟩ := h.file
    exact ⟨content', by rw [get?_withRecord hfile, if_neg hplace, hget], hstate⟩

theorem Backs.grows (h : t.Backs place entries) (hgrows : t.Grows t') :
    t'.Backs place entries := by
  obtain ⟨content, hget, hstate⟩ := h.file
  exact ⟨content, hgrows place _ hget, hstate⟩

/-- A file that lists entries backs them. -/
theorem Lists.contains (h : t.Lists place entries') (hbacks : t.Backs place entries)
    {number : Nat} (hnumber : entries.contains number = true) :
    entries'.contains number = true := by
  obtain ⟨content, hfile, hread, -⟩ := h.file
  obtain ⟨content', hfile', hstate⟩ := hbacks.file
  rw [hfile] at hfile'
  cases hfile'
  rcases hstate with ⟨listed, hread', hbacked⟩ | ⟨fault, hfault⟩
  · rw [hread] at hread'
    cases hread'
    exact hbacked number hnumber
  · rw [read_eq, hfault] at hread
    cases hread

end FileTree

namespace Store

/-- **A store gains texts of a kind**, and stays what it is otherwise. -/
inductive Gains (P : String → Prop) : Store → Store → Prop where
  /-- A store in memory. -/
  | memory {entries entries' : Log.Entries} (h : Log.Gains P entries entries') :
    Gains P (.memory entries) (.memory entries')
  /-- A store over a log. -/
  | log (path : Path) (place : Location) {entries entries' : Log.Entries}
    (h : Log.Gains P entries entries') :
    Gains P (.log path place entries) (.log path place entries')
  /-- A store that holds nothing. -/
  | broken (fault : StoreFault) : Gains P (.broken fault) (.broken fault)

variable {P : String → Prop} {st st' : Store} {files files' : FileTree} {path : Path}
  {number : Nat} {text : String}

theorem Gains.refl (st : Store) : Gains P st st := by
  cases st with
  | memory entries => exact .memory (.refl entries)
  | log path place entries => exact .log path place (.refl entries)
  | broken fault => exact .broken fault

theorem Gains.trans {st'' : Store} (h : Gains P st st') (h' : Gains P st' st'') :
    Gains P st st'' := by
  cases h with
  | memory h =>
    cases h' with
    | memory h' => exact .memory (h.trans h')
  | log path place h =>
    cases h' with
    | log _ _ h' => exact .log path place (h.trans h')
  | broken fault => exact h'

/-- A store that has a text keeps it. -/
theorem Gains.get?_eq_ok (h : Gains P st st') (hget : st.get? number = .ok (some text)) :
    st'.get? number = .ok (some text) := by
  cases h with
  | memory h => exact congrArg Except.ok (h.get?_eq_some (Except.ok.inj hget))
  | log path place h => exact congrArg Except.ok (h.get?_eq_some (Except.ok.inj hget))
  | broken fault => exact hget

/-- What is gained is of the kind. -/
theorem Gains.of_get?_eq_ok_none (h : Gains P st st') (hnone : st.get? number = .ok none)
    (hsome : st'.get? number = .ok (some text)) : P text := by
  cases h with
  | memory h => exact h.of_get?_eq_none (Except.ok.inj hnone) (Except.ok.inj hsome)
  | log path place h => exact h.of_get?_eq_none (Except.ok.inj hnone) (Except.ok.inj hsome)
  | broken fault =>
    rw [hnone] at hsome
    cases hsome

/-- **Whether a store works**: it is over a log or in memory. -/
def Works (st : Store) : Prop := ∀ fault, st ≠ .broken fault

theorem Works.get?_eq (h : st.Works) (number : Nat) :
    st.get? number = .ok (st.entries.get? number) := by
  cases st with
  | memory entries => rfl
  | log path place entries => rfl
  | broken fault => exact absurd rfl (h fault)

theorem Gains.works (h : Gains P st st') (hworks : st.Works) : st'.Works := by
  cases h with
  | memory h => exact fun _ => nofun
  | log path place h => exact fun _ => nofun
  | broken fault => exact hworks

/-- **What inserting does**: nothing, if the number is there or the store holds nothing, and
else it adds the text to the entries, and to the file behind them. -/
inductive Inserts (files : FileTree) (number : Nat) (text : String) :
    Store → Store → FileTree → Prop where
  /-- The store stays as it is. -/
  | nothing (st : Store) (h : st.entries.contains number = true ∨ ∃ fault, st = .broken fault) :
    Inserts files number text st st files
  /-- A store in memory takes the text. -/
  | memory (entries : Log.Entries) :
    Inserts files number text (.memory entries) (.memory (entries.insertIfAbsent number text))
      files
  /-- A store over a log takes the text, and its file a record. -/
  | log (path : Path) (place : Location) (entries : Log.Entries)
    (h : entries.contains number = false) :
    Inserts files number text (.log path place entries)
      (.log path place (entries.insertIfAbsent number text))
      (files.withRecord place ⟨number, text⟩)

theorem inserts_of_insertIfAbsent
    (h : st.insertIfAbsent files number text = .ok (st', files')) :
    Inserts files number text st st' files' := by
  cases st with
  | memory entries =>
    cases h
    exact .memory entries
  | log path place entries =>
    unfold insertIfAbsent at h
    dsimp only at h
    split at h
    · next hold =>
      cases h
      exact .nothing _ (.inl hold)
    · next hnew =>
      cases h
      have hnew := Bool.eq_false_iff.mpr hnew
      rw [← OrderedMap.insertIfAbsent_of_not_contains hnew]
      exact .log path place entries hnew
  | broken fault =>
    cases fault with
    | get =>
      cases h
      exact .nothing _ (.inr ⟨_, rfl⟩)
    | insert => cases h
    | forgetful =>
      cases h
      exact .nothing _ (.inr ⟨_, rfl⟩)

theorem Inserts.gains (h : Inserts files number text st st' files') (htext : P text) :
    Gains P st st' := by
  cases h with
  | nothing => exact .refl st
  | memory entries => exact .memory (Log.gains_insertIfAbsent htext entries number)
  | log path place entries => exact .log path place (Log.gains_insertIfAbsent htext entries number)

/-- **After inserting a text is there**, the one that is inserted if there was no other. -/
theorem Inserts.get?_eq_ok (h : Inserts files number text st st' files') (hworks : st.Works)
    (hold : ∀ found, st.get? number = .ok (some found) → found = text) :
    st'.get? number = .ok (some text) := by
  have hinsert (entries : Log.Entries)
      (hold : ∀ found, entries.get? number = some found → found = text) :
      (entries.insertIfAbsent number text).get? number = some text := by
    rw [OrderedMap.get?_insertIfAbsent, if_pos rfl]
    cases hfound : entries.get? number with
    | none => rfl
    | some found => exact congrArg some (hold found hfound)
  cases h with
  | nothing _ hnothing =>
    rcases hnothing with hin | ⟨fault, rfl⟩
    · obtain ⟨found, hfound⟩ := OrderedMap.contains_iff.mp hin
      have hget := (hworks.get?_eq number).trans (congrArg Except.ok hfound)
      rw [hget, hold found hget]
    · exact absurd rfl (hworks fault)
  | memory entries =>
    exact congrArg Except.ok (hinsert entries fun found h => hold found (congrArg _ h))
  | log path place entries =>
    exact congrArg Except.ok (hinsert entries fun found h => hold found (congrArg _ h))

/-- **A store over a log has its file**, and the file backs what the store holds. -/
def IsBacked (st : Store) (files : FileTree) : Prop :=
  ∀ path place entries, st = .log path place entries → files.Backs place entries

/-- A store that is opened is backed. -/
theorem isBacked_of_openLog (h : openLog files path = (.ok st, files')) : st.IsBacked files' := by
  obtain ⟨place, content, entries, rfl, hread, hkeeps⟩ := exists_keeps_of_openLog h
  rintro _ _ _ ⟨⟩
  exact ⟨content, hkeeps.file, .inl ⟨entries, hread, fun _ h => h⟩⟩

theorem IsBacked.grows (h : st.IsBacked files) (hgrows : files.Grows files') :
    st.IsBacked files' :=
  fun path place entries hst => (h path place entries hst).grows hgrows

end Store

namespace Shared

variable {P : String → Prop} {s t u : Shared} {id number : Nat} {text : String} {place : Location}
  {st : Store} {listed : Log.Entries}

/-- The state with a store, and with the files that it left. -/
def withStore (s : Shared) (id : Nat) (st : Store) (files : FileTree) : Shared :=
  { s.setStore id st with files := files }

theorem get?_stores_withStore (s : Shared) (id other : Nat) (st : Store) (files : FileTree) :
    (s.withStore id st files).stores.get? other
      = if id = other then some st else s.stores.get? other :=
  OrderedMap.get?_insert _ _ _ _

theorem store_of_get?_eq_some (h : s.stores.get? id = some st) : s.store id = st := by
  rw [store, h]
  rfl

/-- **Every store is backed** by its file. -/
def Sound (s : Shared) : Prop := ∀ id st, s.stores.get? id = some st → st.IsBacked s.files

theorem Sound.store (h : s.Sound) (id : Nat) : (s.store id).IsBacked s.files := by
  unfold Shared.store
  cases hst : s.stores.get? id with
  | some st => exact h id st hst
  | none => rintro _ _ _ ⟨⟩

theorem sound_start (root : String) : (start root).Sound := fun _ _ => nofun

/-- **What comes later**, texts of a kind being kept in between. -/
inductive Later (P : String → Prop) : Shared → Shared → Prop where
  /-- Nothing has happened. -/
  | refl (s : Shared) : Later P s s
  /-- Nothing has happened to stores and files. -/
  | same {s t u : Shared} (h : Later P s t) (stores : u.stores = t.stores)
    (files : u.files = t.files) : Later P s u
  /-- A text was kept. -/
  | keep {s t u : Shared} {id number : Nat} {text : String} (h : Later P s t)
    (hnumber : number ≤ Numeral.wordMax) (htext : P text)
    (hkeep : t.keep id number text = .ok u) : Later P s u
  /-- Opening a log was tried, which may make directories and an empty file. -/
  | attempt {s t : Shared} (path : Path) (h : Later P s t) :
    Later P s { t with files := (Store.openLog t.files path).2 }
  /-- A store was added. -/
  | adds {s t : Shared} {id : Nat} {st : Store} (h : Later P s t)
    (hnew : t.stores.get? id = none) (hst : st.IsBacked t.files) :
    Later P s (t.withStore id st t.files)

theorem Later.trans (h : Later P s t) (h' : Later P t u) : Later P s u := by
  induction h' with
  | refl => exact h
  | same _ stores files ih => exact .same ih stores files
  | keep _ hnumber htext hkeep ih => exact .keep ih hnumber htext hkeep
  | attempt path _ ih => exact .attempt path ih
  | adds _ hnew hst ih => exact .adds ih hnew hst

theorem Later.mono {Q : String → Prop} (hPQ : ∀ text, P text → Q text) (h : Later P s t) :
    Later Q s t := by
  induction h with
  | refl => exact .refl _
  | same _ stores files ih => exact .same ih stores files
  | keep _ hnumber htext hkeep ih => exact .keep ih hnumber (hPQ _ htext) hkeep
  | attempt path _ ih => exact .attempt path ih
  | adds _ hnew hst ih => exact .adds ih hnew hst

/-- **A store is opened** over a log. -/
theorem Later.opens {path : Path} {files : FileTree} (h : Later P s t)
    (hnew : t.stores.get? id = none) (hopen : Store.openLog t.files path = (.ok st, files)) :
    Later P s (t.withStore id st files) := by
  have hfiles : (Store.openLog t.files path).2 = files := by rw [hopen]
  have hattempt : Later P s { t with files := files } := hfiles ▸ h.attempt path
  exact .same (.adds hattempt hnew (Store.isBacked_of_openLog hopen)) rfl rfl

/-- **What comes after**, also in a later process, which finds the files and no stores. -/
inductive After (P : String → Prop) (s : Shared) : Shared → Prop where
  /-- Nothing has happened. -/
  | refl : After P s s
  /-- The process goes on. -/
  | later {t u : Shared} (h : After P s t) (hlater : Later P t u) : After P s u
  /-- Another process begins. -/
  | restart {t u : Shared} (h : After P s t) (stores : u.stores = .empty)
    (files : u.files = t.files) : After P s u

/-! ## What keeping does -/

theorem exists_inserts_of_keep (h : s.keep id number text = .ok t) :
    ∃ st files, Store.Inserts s.files number text (s.store id) st files
      ∧ t = s.withStore id st files := by
  unfold keep at h
  generalize hinsert : (s.store id).insertIfAbsent s.files number text = out at h
  cases out with
  | error e => cases h
  | ok out =>
    cases h
    exact ⟨out.1, out.2, Store.inserts_of_insertIfAbsent hinsert, rfl⟩

/-- A store that is backed may be put beside others that are. -/
theorem sound_withStore {files : FileTree} (hst : st.IsBacked files)
    (hs : ∀ other st', s.stores.get? other = some st' → st'.IsBacked files) (id : Nat) :
    (s.withStore id st files).Sound := by
  intro other st' hother
  rw [get?_stores_withStore] at hother
  split at hother
  · cases hother
    exact hst
  · exact hs other st' hother

/-- **What is retained** as texts of a kind are kept. -/
structure Retains (P : String → Prop) (s t : Shared) : Prop where
  /-- Every store has its file. -/
  sound : t.Sound
  /-- No directory is lost. -/
  ways : s.files.Extends t.files
  /-- A file that is read as entries goes on being read, and gains texts of the kind. -/
  lists : ∀ place listed, s.files.Lists place listed →
    ∃ listed', t.files.Lists place listed' ∧ Log.Gains P listed listed'

theorem Retains.trans (h : Retains P s t) (h' : Retains P t u) : Retains P s u := by
  refine ⟨h'.sound, h.ways.trans h'.ways, fun place listed hlisted => ?_⟩
  obtain ⟨listed', hlisted', hgains⟩ := h.lists place listed hlisted
  obtain ⟨listed'', hlisted'', hgains'⟩ := h'.lists place listed' hlisted'
  exact ⟨listed'', hlisted'', hgains.trans hgains'⟩

theorem retains_of_grows (hsound : t.Sound) (hgrows : s.files.Grows t.files) :
    Retains P s t :=
  ⟨hsound, hgrows.extends, fun _ listed h => ⟨listed, h.grows hgrows, .refl listed⟩⟩

theorem retains_attempt (hs : s.Sound) (path : Path) :
    Retains P s { s with files := (Store.openLog s.files path).2 } :=
  have hgrows := Store.grows_openLog s.files path
  retains_of_grows (fun id st hst => (hs id st hst).grows hgrows) hgrows

/-- **Keeping a text retains everything.** -/
theorem retains_keep (hs : s.Sound) (hnumber : number ≤ Numeral.wordMax) (htext : P text)
    (hkeep : s.keep id number text = .ok t) : Retains P s t := by
  obtain ⟨st, files, hinserts, rfl⟩ := exists_inserts_of_keep hkeep
  have hbacked := hs.store id
  generalize s.store id = before at hinserts hbacked
  cases hinserts with
  | nothing => exact retains_of_grows (sound_withStore hbacked hs id) (.refl _)
  | memory entries =>
    have hst : (Store.memory (entries.insertIfAbsent number text)).IsBacked s.files := by
      rintro _ _ _ ⟨⟩
    exact retains_of_grows (sound_withStore hst hs id) (.refl _)
  | log path place entries =>
    have hplace := hbacked path place entries rfl
    obtain ⟨content, hfile, -⟩ := hplace.file
    have hst : (Store.log path place (entries.insertIfAbsent number text)).IsBacked
        (s.files.withRecord place ⟨number, text⟩) := by
      rintro _ _ _ ⟨⟩
      exact hplace.append hnumber
    refine ⟨sound_withStore hst (fun other st' hother path' place' entries' heq => ?_) id,
      FileTree.extends_withRecord hfile _, fun place' listed hlisted => ?_⟩
    · exact (hs other st' hother path' place' entries' heq).withRecord hfile hnumber
    · by_cases heq : place = place'
      · subst heq
        exact ⟨_, hlisted.append hnumber, Log.gains_insertIfAbsent htext listed number⟩
      · exact ⟨listed, hlisted.elsewhere hfile heq _, .refl listed⟩

/-- **Nothing is lost later**: every store stays backed, and every file that is read goes
on being read. -/
theorem Later.retains (h : Later P s t) (hs : s.Sound) : Retains P s t := by
  induction h with
  | refl => exact retains_of_grows hs (.refl _)
  | same _ stores files ih =>
    refine ih.trans (retains_of_grows (fun id st hst => ?_) (by rw [files]; exact .refl _))
    rw [stores] at hst
    rw [files]
    exact ih.sound id st hst
  | keep _ hnumber htext hkeep ih => exact ih.trans (retains_keep ih.sound hnumber htext hkeep)
  | attempt path _ ih => exact ih.trans (retains_attempt ih.sound path)
  | adds _ _ hst ih =>
    exact ih.trans (retains_of_grows (sound_withStore hst ih.sound _) (.refl _))

/-- **Nothing is lost between processes**: what a file had stays in it. -/
theorem After.retains (h : After P s t) (hs : s.Sound) : Retains P s t := by
  induction h with
  | refl => exact retains_of_grows hs (.refl _)
  | later _ hlater ih => exact ih.trans (hlater.retains ih.sound)
  | restart _ stores files ih =>
    refine ih.trans (retains_of_grows (fun id st hst => ?_) (by rw [files]; exact .refl _))
    rw [stores] at hst
    cases hst

theorem gains_keep (htext : P text) (hkeep : s.keep id number text = .ok t) {other : Nat}
    (hst : s.stores.get? other = some st) :
    ∃ st', t.stores.get? other = some st' ∧ st.Gains P st' := by
  obtain ⟨st', files, hinserts, rfl⟩ := exists_inserts_of_keep hkeep
  by_cases hid : id = other
  · subst hid
    rw [store_of_get?_eq_some hst] at hinserts
    exact ⟨st', (get?_stores_withStore s id id st' _).trans (if_pos rfl), hinserts.gains htext⟩
  · exact ⟨st, (get?_stores_withStore s id other st' _).trans ((if_neg hid).trans hst), .refl st⟩

/-- **No store loses a text later.** -/
theorem Later.stores (h : Later P s t) (hst : s.stores.get? id = some st) :
    ∃ st', t.stores.get? id = some st' ∧ st.Gains P st' := by
  induction h with
  | refl => exact ⟨st, hst, .refl st⟩
  | same _ stores _ ih =>
    rw [stores]
    exact ih
  | keep _ _ htext hkeep ih =>
    obtain ⟨st₁, hst₁, hgains⟩ := ih
    obtain ⟨st₂, hst₂, hgains'⟩ := gains_keep htext hkeep hst₁
    exact ⟨st₂, hst₂, hgains.trans hgains'⟩
  | attempt path _ ih => exact ih
  | adds _ hnew _ ih =>
    obtain ⟨st₁, hst₁, hgains⟩ := ih
    refine ⟨st₁, (get?_stores_withStore _ _ _ _ _).trans ((if_neg ?_).trans hst₁), hgains⟩
    rintro rfl
    rw [hnew] at hst₁
    cases hst₁

/-- **A text that is kept first**, nothing but it having been kept before, is there. -/
theorem Later.kept (h : Later (· = text) s t) (hst : s.stores.get? id = some st)
    (hworks : st.Works) (hmiss : st.get? number = .ok none)
    (hkeep : t.keep id number text = .ok u) :
    ∃ st', u.stores.get? id = some st' ∧ st.Gains (· = text) st'
      ∧ st'.get? number = .ok (some text) := by
  obtain ⟨st₁, hst₁, hgains⟩ := h.stores hst
  obtain ⟨st₂, files, hinserts, rfl⟩ := exists_inserts_of_keep hkeep
  rw [store_of_get?_eq_some hst₁] at hinserts
  refine ⟨st₂, (get?_stores_withStore t id id st₂ _).trans (if_pos rfl),
    hgains.trans (hinserts.gains rfl), hinserts.get?_eq_ok (hgains.works hworks) ?_⟩
  exact fun found hfound => hgains.of_get?_eq_ok_none hmiss hfound

/-- A log goes on being one, and gains texts. -/
theorem Retains.hasLog {path : Path} (h : Retains P s t) (hlog : s.files.HasLog path place listed) :
    ∃ listed', t.files.HasLog path place listed' ∧ Log.Gains P listed listed' := by
  obtain ⟨content, hkeeps, -⟩ := hlog.file
  obtain ⟨listed', hlists, hgains⟩ := h.lists place listed hlog.lists
  obtain ⟨content', hfile, hread⟩ := hlists.file
  exact ⟨listed', ⟨content', hkeeps.stays h.ways hfile, hread⟩, hgains⟩

/-- **A text that a store over a log has** stands in its file, unless there was another
under the number before. -/
theorem Retains.get?_listed {path : Path} {entries : Log.Entries} (h : Retains (· = text) s t)
    (hst : t.stores.get? id = some (.log path place entries))
    (hget : entries.get? number = some text) (hlog : s.files.HasLog path place listed) :
    ∃ listed', t.files.HasLog path place listed'
      ∧ listed'.get? number = some ((listed.get? number).getD text) := by
  obtain ⟨listed', hlog', hgains⟩ := h.hasLog hlog
  have hbacks := h.sound id _ hst path place entries rfl
  have hin := OrderedMap.contains_iff.mpr ⟨text, hget⟩
  exact ⟨listed', hlog', hgains.get?_eq_getD (hlog'.lists.contains hbacks hin)⟩

end Shared

end Resampler
