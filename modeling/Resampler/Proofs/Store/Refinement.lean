import Resampler.Proofs.Store.Opening

/-!
# A durable store does what a store in memory does

A store can be asked for a text, for its size, or to keep a text, and it can be
closed and opened again. A store in memory takes no notice of the latter. A store
over a log is read anew from its file, and yet it answers every request as the one
in memory does (`refinesMemory`), if its log was begun by it: between two requests
the file holds a line for each key, in the order in which the keys first came
(`Synced`), and these lines are read as the entries that the store held.
-/

namespace Resampler

namespace Log

/-! ## The records that come first -/

/-- The first record under a key. -/
def first? (all : List Record) (key : Nat) : Option Record := all.find? fun r => r.key = key

/-- **Of records those that come first under their keys**, in the order in which
these keys first came. -/
structure Firsts (all rs : List Record) : Prop where
  /-- Every key has one record. -/
  keys : rs.map Record.key = (all.map Record.key).eraseDups
  /-- It is the first one under the key. -/
  first : ∀ r ∈ rs, first? all r.key = some r

/-- The entries of records are the first texts under their keys. -/
theorem get?_entriesOf (rs : List Record) (key : Nat) :
    (entriesOf rs).get? key = (first? rs key).map Record.value := by
  have hfold : ∀ e : Entries,
      (rs.foldl (fun e r => e.insertIfAbsent r.key r.value) e).get? key
        = (e.get? key).or ((first? rs key).map Record.value) := by
    induction rs with
    | nil => intro e; exact (Option.or_none).symm
    | cons r rs ih =>
      intro e
      rw [List.foldl_cons, ih, OrderedMap.get?_insertIfAbsent, Option.or_assoc]
      by_cases hkey : r.key = key <;> simp [first?, hkey]
  exact hfold .empty

theorem first?_eq_none_iff {all : List Record} {key : Nat} :
    first? all key = none ↔ key ∉ all.map Record.key := by
  simp [first?]

theorem contains_entriesOf {all : List Record} {key : Nat} :
    (entriesOf all).contains key = true ↔ key ∈ all.map Record.key := by
  rw [OrderedMap.contains, get?_entriesOf, Option.isSome_map, ← Option.ne_none_iff_isSome,
    ne_eq, first?_eq_none_iff, Decidable.not_not]

namespace Firsts

variable {all rs : List Record} {r : Record}

theorem mem_keys (h : Firsts all rs) {key : Nat} :
    key ∈ rs.map Record.key ↔ key ∈ all.map Record.key := by
  rw [h.keys, List.mem_eraseDups]

/-- A further record under an old key changes nothing. -/
theorem concat_old (h : Firsts all rs) (hr : r.key ∈ all.map Record.key) :
    Firsts (all ++ [r]) rs := by
  refine ⟨?_, fun r' hr' => ?_⟩
  · have hgone : [r.key].removeAll (all.map Record.key) = [] :=
      List.filter_cons_of_neg (by simpa using hr)
    rw [List.map_append, List.eraseDups_append, h.keys, List.map_singleton, hgone]
    exact (List.append_nil _).symm
  · rw [first?, List.find?_append, ← first?, h.first r' hr']
    rfl

/-- A record under a new key comes last. -/
theorem concat_new (h : Firsts all rs) (hr : r.key ∉ all.map Record.key) :
    Firsts (all ++ [r]) (rs ++ [r]) := by
  refine ⟨?_, fun r' hr' => ?_⟩
  · have hkept : [r.key].removeAll (all.map Record.key) = [r.key] :=
      List.filter_cons_of_pos (by simpa using hr)
    rw [List.map_append, List.map_append, List.eraseDups_append, h.keys, List.map_singleton, hkept]
    rfl
  · rw [first?, List.find?_append, ← first?]
    rcases List.mem_append.mp hr' with hr' | hr'
    · rw [h.first r' hr']
      rfl
    · obtain rfl := List.mem_singleton.mp hr'
      rw [first?_eq_none_iff.mpr hr]
      simp

end Firsts

end Log

namespace Store

/-! ## What a store is asked -/

/-- **A request to a store.** -/
inductive Request where
  /-- Keep a text under a number. -/
  | insert (key : UInt64) (value : String)
  /-- Give the text under a number. -/
  | get (key : UInt64)
  /-- Say how many texts there are. -/
  | len
  /-- Close and be opened again. -/
  | reopen

/-- **The answer to a request.** -/
inductive Answer where
  | done
  | text (value : Option String)
  | number (n : Nat)
deriving DecidableEq

/-- What a request brings. -/
def Request.record? : Request → Option Record
  | .insert key value => some ⟨key.toNat, value⟩
  | _ => none

/-- The records that requests bring, in their order. -/
def brought (requests : List Request) : List Record := requests.filterMap Request.record?

/-- Open a store again; one that is not over a log stays as it is. -/
def reopen (s : Store) (files : FileTree) : Except Error Store × FileTree :=
  match s with
  | .log path _ _ => openLog files path
  | s => (.ok s, files)

/-- **Serve a request**, in the files that there are. A store that fails stays. -/
def serve (s : Store) (files : FileTree) : Request → Except Error Answer × Store × FileTree
  | .insert key value =>
    match s.insertIfAbsent files key.toNat value with
    | .ok (s, files) => (.ok .done, s, files)
    | .error e => (.error e, s, files)
  | .get key => ((s.get? key.toNat).map .text, s, files)
  | .len => (.ok (.number s.entries.size), s, files)
  | .reopen =>
    match s.reopen files with
    | (.ok s, files) => (.ok .done, s, files)
    | (.error e, files) => (.error e, s, files)

/-- **What has become of a store and its files**, and the answers given. -/
structure Served where
  /-- The answers, the first first. -/
  answers : List (Except Error Answer)
  /-- The store. -/
  store : Store
  /-- The files. -/
  files : FileTree

/-- **Serve requests**, one after the other. -/
def serveAll (s : Store) (files : FileTree) : List Request → Served
  | [] => ⟨[], s, files⟩
  | request :: rest =>
    let (answer, s, files) := s.serve files request
    let served := s.serveAll files rest
    { served with answers := answer :: served.answers }

/-! ## The two stores side by side -/

open Log FileTree

variable {files : FileTree} {path : Path} {place : Location} {all : List Record}

/-- **The file is in step with all that was brought.** -/
structure Synced (path : Path) (place : Location) (all : List Record) (files : FileTree) :
    Prop where
  /-- The file holds the records that came first. -/
  file : ∃ rs, files.Keeps path place (written rs) ∧ Firsts all rs ∧ entriesOf rs = entriesOf all
  /-- The keys are numbers of 64 bits. -/
  keys : ∀ r ∈ all, r.key ≤ Numeral.wordMax

/-- The records that come first have keys of 64 bits, if all have. -/
theorem le_wordMax_of_firsts {rs : List Record} (h : Firsts all rs)
    (hall : ∀ r ∈ all, r.key ≤ Numeral.wordMax) : ∀ r ∈ rs, r.key ≤ Numeral.wordMax := by
  intro r hr
  obtain ⟨r', hr', hkey⟩ := List.mem_map.mp (h.mem_keys.mp (List.mem_map_of_mem hr))
  exact hkey ▸ hall r' hr'

/-- The file that is in step is read as what was brought. -/
theorem Synced.openLog_eq (h : Synced path place all files) :
    openLog files path = (.ok (.log path place (entriesOf all)), files) := by
  obtain ⟨rs, hkeeps, hfirsts, hentries⟩ := h.file
  have hkeys := le_wordMax_of_firsts hfirsts h.keys
  rw [openLog_of_keeps hkeeps, read_written hkeys, hentries, ofReading]

/-- **A record that is brought** is written just if its key is new. -/
theorem Synced.insert (h : Synced path place all files) {r : Record}
    (hr : r.key ≤ Numeral.wordMax) :
    ∃ files', (Store.log path place (entriesOf all)).insertIfAbsent files r.key r.value
        = .ok (.log path place (entriesOf (all ++ [r])), files')
      ∧ Synced path place (all ++ [r]) files' := by
  obtain ⟨rs, hkeeps, hfirsts, hentries⟩ := h.file
  have hkeys : ∀ r' ∈ all ++ [r], r'.key ≤ Numeral.wordMax := by
    intro r' hr'
    rcases List.mem_append.mp hr' with hr' | hr'
    · exact h.keys r' hr'
    · exact List.mem_singleton.mp hr' ▸ hr
  by_cases hold : r.key ∈ all.map Record.key
  · have hcontains := contains_entriesOf.mpr hold
    have hsame : entriesOf (all ++ [r]) = entriesOf all := by
      rw [entriesOf_concat, OrderedMap.insertIfAbsent_of_contains hcontains]
    refine ⟨files, ?_, ⟨rs, hkeeps, hfirsts.concat_old hold, hentries.trans hsame.symm⟩, hkeys⟩
    rw [hsame]
    exact if_pos hcontains
  · have hcontains : ¬ (entriesOf all).contains r.key = true :=
      fun hc => hold (contains_entriesOf.mp hc)
    have hnew : entriesOf (all ++ [r]) = (entriesOf all).insert r.key r.value := by
      rw [entriesOf_concat]
      exact if_neg hcontains
    refine ⟨files.set place (.file (written (rs ++ [r]))), ?_,
      ⟨rs ++ [r], hkeeps.set _, hfirsts.concat_new hold, ?_⟩, hkeys⟩
    · rw [hnew, written_concat, ← hkeeps.contentAt_eq]
      exact if_neg hcontains
    · rw [entriesOf_concat, entriesOf_concat, hentries]

/-- **A request is answered alike** by the store over the log and the store in memory,
and leaves them alike. -/
theorem Synced.serve_eq (h : Synced path place all files) (elsewhere : FileTree)
    (request : Request) :
    ∃ answer files', (Store.log path place (entriesOf all)).serve files request
        = (.ok answer, .log path place (entriesOf (all ++ request.record?.toList)), files')
      ∧ (Store.memory (entriesOf all)).serve elsewhere request
        = (.ok answer, .memory (entriesOf (all ++ request.record?.toList)), elsewhere)
      ∧ Synced path place (all ++ request.record?.toList) files' := by
  cases request with
  | insert key value =>
    obtain ⟨files', hinsert, hsynced⟩ := h.insert (r := ⟨key.toNat, value⟩)
      (Nat.le_sub_one_of_lt key.toNat_lt)
    refine ⟨.done, files', ?_, ?_, hsynced⟩
    · rw [serve, hinsert]
      rfl
    · show _ = (_, Store.memory (entriesOf (all ++ [_])), _)
      rw [entriesOf_concat]
      rfl
  | get key =>
    rw [show (Request.get key).record?.toList = [] from rfl, List.append_nil]
    exact ⟨_, files, rfl, rfl, h⟩
  | len =>
    rw [show Request.len.record?.toList = [] from rfl, List.append_nil]
    exact ⟨_, files, rfl, rfl, h⟩
  | reopen =>
    rw [show Request.reopen.record?.toList = [] from rfl, List.append_nil]
    refine ⟨.done, files, ?_, rfl, h⟩
    rw [serve, reopen, h.openLog_eq]

/-- **Requests are answered alike**, and none of them fails. -/
theorem Synced.serveAll_eq (h : Synced path place all files) (elsewhere : FileTree)
    (requests : List Request) :
    ∃ answers files', (Store.log path place (entriesOf all)).serveAll files requests
        = ⟨answers, .log path place (entriesOf (all ++ brought requests)), files'⟩
      ∧ (Store.memory (entriesOf all)).serveAll elsewhere requests
        = ⟨answers, .memory (entriesOf (all ++ brought requests)), elsewhere⟩
      ∧ (∀ answer ∈ answers, ∃ a, answer = .ok a)
      ∧ Synced path place (all ++ brought requests) files' := by
  induction requests generalizing all files with
  | nil =>
    rw [show brought [] = [] from rfl, List.append_nil]
    exact ⟨[], files, rfl, rfl, nofun, h⟩
  | cons request rest ih =>
    have hbrought : all ++ brought (request :: rest)
        = all ++ request.record?.toList ++ brought rest := by
      rw [List.append_assoc, brought, List.filterMap_cons]
      cases request.record? <;> rfl
    obtain ⟨answer, files₁, hlog, hmemory, hsynced⟩ := h.serve_eq elsewhere request
    obtain ⟨answers, files₂, hlogs, hmemories, hok, hsynced⟩ := ih hsynced
    refine ⟨.ok answer :: answers, files₂, ?_, ?_, ?_, by rw [hbrought]; exact hsynced⟩
    · rw [serveAll, hlog, hbrought]
      dsimp only
      rw [hlogs]
    · rw [serveAll, hmemory, hbrought]
      dsimp only
      rw [hmemories]
    · intro a ha
      rcases List.mem_cons.mp ha with rfl | ha
      · exact ⟨answer, rfl⟩
      · exact hok a ha

/-- A log that is begun is in step with nothing. -/
theorem exists_synced (h : files.IsVacant path) :
    ∃ place opened, openLog files path = (.ok (.log path place .empty), opened)
      ∧ Synced path place [] opened := by
  obtain ⟨place, opened, hopen, hkeeps⟩ := openLog_of_isVacant h
  exact ⟨place, opened, hopen, ⟨[], hkeeps, ⟨rfl, nofun⟩, rfl⟩, nofun⟩

/-- **What a durable store must come to** beside one in memory. -/
structure Refines (path : Path) (brought : List Record) (durable memory : Served) : Prop where
  /-- It gives the same answers. -/
  answers : durable.answers = memory.answers
  /-- None of them is a failure. -/
  answered : ∀ answer ∈ durable.answers, ∃ a, answer = .ok a
  /-- It holds the same entries. -/
  entries : durable.store.entries = memory.store.entries
  /-- Under every key there is the text that came first. -/
  first : ∀ key, durable.store.get? key = .ok ((first? brought key).map Record.value)
  /-- The file is a line for each key, in the order in which the keys first came. -/
  file : ∃ rs, Firsts brought rs ∧ ∃ content, durable.files.content? path = some content
    ∧ lines content = rs.map line ++ [[]]

/-- **A durable store refines a store in memory.** Begun over no file or an empty one, it
answers every sequence of requests, closing and opening again among them, as a store in
memory does that takes no notice of these, and its file never has more than one line for
a key. -/
theorem refinesMemory (h : files.IsVacant path) (requests : List Request)
    (elsewhere : FileTree) :
    ∃ place opened, openLog files path = (.ok (.log path place .empty), opened)
      ∧ Refines path (brought requests)
        ((Store.log path place .empty).serveAll opened requests)
        ((Store.memory .empty).serveAll elsewhere requests) := by
  obtain ⟨place, opened, hopen, hsynced⟩ := exists_synced h
  obtain ⟨answers, files', hlog, hmemory, hok, hsynced⟩ :=
    hsynced.serveAll_eq elsewhere requests
  have hempty : entriesOf [] = .empty := rfl
  rw [List.nil_append, hempty] at hlog hmemory
  rw [List.nil_append] at hsynced
  obtain ⟨rs, hkeeps, hfirsts, -⟩ := hsynced.file
  refine ⟨place, opened, hopen, ?_⟩
  rw [hlog, hmemory]
  exact {
    answers := rfl
    answered := hok
    entries := rfl
    first := fun key => congrArg Except.ok (get?_entriesOf _ key)
    file := ⟨rs, hfirsts, _, hkeeps.content?_eq, lines_written rs⟩ }

theorem refinesMemory_reopened :
    (FileTree.ofRoot "/tmp").IsVacant (.ofText "kept/a.jsonl") ∧
    ∃ place opened, openLog (.ofRoot "/tmp") (.ofText "kept/a.jsonl")
        = (.ok (.log (.ofText "kept/a.jsonl") place .empty), opened)
      ∧ ((Store.log (.ofText "kept/a.jsonl") place .empty).serveAll opened
          [.insert 7 "one\n\"two\"", .insert 7 "three", .reopen, .get 7, .len]).answers
        = [.ok .done, .ok .done, .ok .done, .ok (.text (some "one\n\"two\"")),
          .ok (.number 1)] := by
  have hvacant : (FileTree.ofRoot "/tmp").IsVacant (.ofText "kept/a.jsonl") :=
    ⟨_, ["kept", "a.jsonl"], rfl, rfl, .inl rfl⟩
  obtain ⟨place, opened, hopen, hrefines⟩ := refinesMemory hvacant
    [.insert 7 "one\n\"two\"", .insert 7 "three", .reopen, .get 7, .len] (.ofRoot "/tmp")
  exact ⟨hvacant, place, opened, hopen, hrefines.answers.trans rfl⟩

end Store

end Resampler
