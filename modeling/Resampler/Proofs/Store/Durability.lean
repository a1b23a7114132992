import Resampler.Proofs.Store.Refinement

/-!
# What a log outlives

Two things can come between closing a store and opening it again that the store
does not provide for.

A crash can cut the file off. If the cut falls between two lines, or takes nothing
but a line feed, the records before it are there when the store is opened; a cut
within a record costs all of them, for the store then cannot be opened
(`opensCut`).

The file can have come from elsewhere. Its last line need not be ended by a line
feed, and yet a record is appended to it as it stands. The store answers as if
nothing were wrong, and cannot be opened again, unless there are only blanks on
that line (`opensAppended`).
-/

namespace Resampler

namespace FileTree

/-- The files after the one at a place was cut off behind `n` bytes. -/
def cutOff (t : FileTree) (place : Location) (n : Nat) : FileTree :=
  t.set place (.file ((t.contentAt place).take n))

end FileTree

namespace Store

open Log FileTree

variable {files opened : FileTree} {path : Path} {place : Location} {content : List UInt8}
  {entries : Entries}

/-! ## Files that are cut off -/

/-- **Opening a file that was cut off.** Whatever is left of it, the store opens with the
records before the cut, unless the cut falls within a record: then it does not open. -/
theorem opensCut (h : files.IsVacant path) (requests : List Request) (n : Nat) :
    ∃ place opened, openLog files path = (.ok (.log path place .empty), opened)
      ∧ ∃ rs outcome left, Firsts (brought requests) rs ∧ Cut rs n outcome
        ∧ ((Store.log path place .empty).serveAll opened requests).files.cutOff place n = left
        ∧ openLog left path = (ofReading left path place (outcome.map entriesOf), left) := by
  obtain ⟨place, opened, hopen, hsynced⟩ := exists_synced h
  obtain ⟨answers, written', hserved, -, -, hsynced⟩ :=
    hsynced.serveAll_eq files requests
  rw [List.nil_append, show entriesOf [] = .empty from rfl] at hserved
  rw [List.nil_append] at hsynced
  obtain ⟨rs, hkeeps, hfirsts, -⟩ := hsynced.file
  obtain ⟨outcome, hcut⟩ := exists_cut rs n
  have hleft := hkeeps.set ((written rs).take n)
  refine ⟨place, opened, hopen, rs, outcome, _, hfirsts, hcut, rfl, ?_⟩
  rw [hserved, cutOff, hkeeps.contentAt_eq, openLog_of_keeps hleft,
    read_take (le_wordMax_of_firsts hfirsts hsynced.keys) hcut]

theorem opensCut_pair :
    (FileTree.ofRoot "/tmp").IsVacant (.ofText "a.jsonl")
      ∧ ∃ place opened, openLog (.ofRoot "/tmp") (.ofText "a.jsonl")
          = (.ok (.log (.ofText "a.jsonl") place .empty), opened)
        ∧ ∃ rs outcome left, Firsts [⟨1, "x"⟩, ⟨2, "y"⟩] rs ∧ Cut rs 25 outcome
          ∧ ((Store.log (.ofText "a.jsonl") place .empty).serveAll opened
            [.insert 1 "x", .insert 2 "y"]).files.cutOff place 25 = left
          ∧ openLog left (.ofText "a.jsonl")
            = (ofReading left (.ofText "a.jsonl") place (outcome.map entriesOf), left) := by
  have hvacant : (FileTree.ofRoot "/tmp").IsVacant (.ofText "a.jsonl") :=
    ⟨_, ["a.jsonl"], rfl, rfl, .inl rfl⟩
  exact ⟨hvacant, opensCut hvacant [.insert 1 "x", .insert 2 "y"] 25⟩

/-- A log with a corrupt line is told by that line. -/
theorem openLog_of_corrupt {n : Nat} (h : files.Keeps path place content)
    (hread : read content = .error (.corrupt n)) :
    (openLog files path).1
      = .error (.store ((OpenFault.content (.corrupt n)).text files path)) := by
  rw [openLog_of_keeps h, hread]
  rfl

/-- A record and the beginning of another. -/
def torn : List UInt8 := written [⟨1, "x"⟩] ++ Utf8.encode ['\x7b', '"', 'k']

theorem read_torn : read torn = .error (.corrupt 2) := by
  have hparts : line ⟨2, "y"⟩
      = Utf8.encode ['\x7b', '"', 'k'] ++ (line ⟨2, "y"⟩).drop 3 := by decide +kernel
  exact (read_written_append [⟨1, "x"⟩] (by decide) (by decide)).trans
    (takeLine_part (by decide) hparts (by decide) (by decide))

/-- **A cut in the second of two records costs the first one too.** -/
theorem cut_costs_all :
    ∃ opened left, openLog (.ofRoot "/tmp") (.ofText "a.jsonl")
        = (.ok (.log (.ofText "a.jsonl") ["a.jsonl"] .empty), opened)
      ∧ ((Store.log (.ofText "a.jsonl") ["a.jsonl"] .empty).serveAll opened
          [.insert 1 "x", .insert 2 "y"]).files.cutOff ["a.jsonl"] 25 = left
      ∧ left.content? (.ofText "a.jsonl") = some torn
      ∧ (openLog left (.ofText "a.jsonl")).1
        = .error (.store "Corrupt record at \"/tmp/a.jsonl\":2") := by
  refine ⟨_, _, rfl, rfl, by decide +kernel, ?_⟩
  exact (openLog_of_corrupt ⟨rfl, rfl, by decide +kernel⟩ read_torn).trans
    (congrArg (fun text => Except.error (Error.store text)) (by decide +kernel))

/-! ## Files from elsewhere -/

/-- Requests to keep texts under numbers. -/
def inserting (pairs : List (UInt64 × String)) : List Request :=
  pairs.map fun pair => .insert pair.1 pair.2

/-- Entries and texts that are kept with them, under numbers that are not taken. -/
def kept (entries : Entries) (pairs : List (UInt64 × String)) : Entries :=
  pairs.foldl (fun e pair => e.insertIfAbsent pair.1.toNat pair.2) entries

section

variable {I : Entries → List UInt8 → Prop}
  (hstep : ∀ {e content} {r : Record}, r.key ≤ Numeral.wordMax → e.contains r.key = false →
    I e content → I (e.insert r.key r.value) (append content r))

include hstep

/-- What every appended record preserves holds after one request. -/
theorem serve_insert (hkeeps : opened.Keeps path place content) (h : I entries content)
    (key : UInt64) (value : String) :
    ∃ left content', (Store.log path place entries).serve opened (.insert key value)
        = (.ok .done, .log path place (entries.insertIfAbsent key.toNat value), left)
      ∧ left.Keeps path place content' ∧ I (entries.insertIfAbsent key.toNat value) content' := by
  have hkey : key.toNat ≤ Numeral.wordMax := Nat.le_sub_one_of_lt key.toNat_lt
  cases hcontains : entries.contains key.toNat with
  | true =>
    rw [OrderedMap.insertIfAbsent_of_contains hcontains]
    refine ⟨opened, content, ?_, hkeeps, h⟩
    rw [serve, insertIfAbsent, if_pos hcontains]
  | false =>
    rw [OrderedMap.insertIfAbsent_of_not_contains hcontains]
    refine ⟨opened.set place (.file (append content ⟨key.toNat, value⟩)), _, ?_, hkeeps.set _,
      hstep (r := ⟨key.toNat, value⟩) hkey hcontains h⟩
    rw [serve, insertIfAbsent, if_neg (Bool.eq_false_iff.mp hcontains), hkeeps.contentAt_eq]

/-- **What every appended record preserves** holds of the store and its file in the end. -/
theorem serveAll_inserting (hkeeps : opened.Keeps path place content) (h : I entries content)
    (pairs : List (UInt64 × String)) :
    ∃ left content', (Store.log path place entries).serveAll opened (inserting pairs)
        = ⟨pairs.map fun _ => .ok .done, .log path place (kept entries pairs), left⟩
      ∧ left.Keeps path place content' ∧ I (kept entries pairs) content' := by
  induction pairs generalizing opened content entries with
  | nil => exact ⟨opened, content, rfl, hkeeps, h⟩
  | cons pair pairs ih =>
    obtain ⟨key, value⟩ := pair
    obtain ⟨next, content₁, hserve, hkeeps₁, h₁⟩ := serve_insert hstep hkeeps h key value
    obtain ⟨left, content', hserved, hleft⟩ := ih hkeeps₁ h₁
    refine ⟨left, content', ?_, hleft⟩
    rw [inserting, List.map_cons, serveAll, hserve]
    dsimp only
    rw [← inserting, hserved]
    rfl

end

/-- A new key makes a map larger. -/
theorem size_insert {e : Entries} {key : Nat} (h : e.contains key = false) (value : String) :
    (e.insert key value).size = e.size + 1 := by
  rw [OrderedMap.size, OrderedMap.entries_insert h, List.length_append]
  rfl

/-- **Opening a file again to which records were appended.** If its last line was clear when it
was opened first, or nothing was appended, the store opens as it was closed. If not, it does
not open. -/
theorem opensAppended {s : Store} (h : openLog files path = (.ok s, opened))
    (pairs : List (UInt64 × String)) :
    ∃ place content entries left, s = .log path place entries
      ∧ opened.Keeps path place content
      ∧ s.serveAll opened (inserting pairs)
        = ⟨pairs.map fun _ => .ok .done, .log path place (kept entries pairs), left⟩
      ∧ openLog left path = (ofReading left path place
        (if endsClear content = true ∨ kept entries pairs = entries then .ok (kept entries pairs)
          else .error (.corrupt (lines content).length)), left) := by
  obtain ⟨place, content, entries, rfl, hread, hkeeps⟩ := exists_keeps_of_openLog h
  by_cases hclear : endsClear content = true
  · -- With a clear last line the file is always read as what the store holds.
    obtain ⟨left, content', hserved, hleft, hread', -⟩ := serveAll_inserting
      (I := fun e content => read content = .ok e ∧ endsClear content = true)
      (fun {e content r} hr hnew ⟨hread, hclear⟩ => ⟨by
        rw [read_append hread hr, if_pos hclear, OrderedMap.insertIfAbsent, hnew]
        rfl, endsClear_append content r⟩)
      hkeeps ⟨hread, hclear⟩ pairs
    refine ⟨place, content, entries, left, rfl, hkeeps, hserved, ?_⟩
    rw [openLog_of_keeps hleft, hread', if_pos (.inl hclear)]
  · -- Without one the first record that is appended spoils it.
    obtain ⟨left, content', hserved, hleft, hlast⟩ := serveAll_inserting
      (I := fun e content' => e = entries ∧ content' = content
        ∨ entries.size < e.size ∧ settled content' = .error (.corrupt (lines content).length))
      (by
        rintro e content' r hr hnew (⟨rfl, rfl⟩ | ⟨hsize, hsettled⟩)
        · refine .inr ⟨by rw [size_insert hnew]; exact Nat.lt_succ_self _, ?_⟩
          rw [← read_append_eq, read_append hread hr, if_neg hclear]
        · refine .inr ⟨by rw [size_insert hnew]; omega, ?_⟩
          exact (read_append_of_error hsettled r).2)
      hkeeps (.inl ⟨rfl, rfl⟩) pairs
    refine ⟨place, content, entries, left, rfl, hkeeps, hserved, ?_⟩
    rw [openLog_of_keeps hleft]
    rcases hlast with ⟨hsame, rfl⟩ | ⟨hsize, hsettled⟩
    · rw [if_pos (.inr hsame), hsame, hread]
    · have hnot : ¬ (endsClear content = true ∨ kept entries pairs = entries) := by
        rintro (hclear' | hsame)
        · exact hclear hclear'
        · rw [hsame] at hsize
          exact Nat.lt_irrefl _ hsize
      rw [if_neg hnot, read_eq, hsettled]
      rfl

/-- Files with a record whose line no line feed ends. -/
def unended : FileTree := (FileTree.ofRoot "/tmp").set ["a.jsonl"] (.file (line ⟨1, "x"⟩))

theorem read_unended : read (line ⟨1, "x"⟩) = .ok (.ofList [(1, "x")]) := by
  refine (read_written_append [] nofun (lineFeed_not_mem_line ⟨1, "x"⟩)).trans ?_
  rw [takeLine_line (by decide)]
  rfl

theorem openLog_unended : openLog unended (.ofText "a.jsonl")
    = (.ok (.log (.ofText "a.jsonl") ["a.jsonl"] (.ofList [(1, "x")])), unended) := by
  have hkeeps : unended.Keeps (.ofText "a.jsonl") ["a.jsonl"] (line ⟨1, "x"⟩) := ⟨rfl, rfl, rfl⟩
  rw [openLog_of_keeps hkeeps, read_unended]
  rfl

theorem opensAppended_unended :
    ∃ s opened, openLog unended (.ofText "a.jsonl") = (.ok s, opened)
      ∧ ∃ place content entries left, s = .log (.ofText "a.jsonl") place entries
        ∧ opened.Keeps (.ofText "a.jsonl") place content
        ∧ s.serveAll opened (inserting [(2, "y")])
          = ⟨[.ok .done], .log (.ofText "a.jsonl") place (kept entries [(2, "y")]), left⟩
        ∧ openLog left (.ofText "a.jsonl") = (ofReading left (.ofText "a.jsonl") place
          (if endsClear content = true ∨ kept entries [(2, "y")] = entries
            then .ok (kept entries [(2, "y")])
            else .error (.corrupt (lines content).length)), left) :=
  ⟨_, _, openLog_unended, opensAppended openLog_unended [(2, "y")]⟩

/-- **A record behind one that no line feed ends** is kept, and closes the file for good. -/
theorem append_shuts :
    ∃ opened left, openLog unended (.ofText "a.jsonl")
        = (.ok (.log (.ofText "a.jsonl") ["a.jsonl"] (.ofList [(1, "x")])), opened)
      ∧ (Store.log (.ofText "a.jsonl") ["a.jsonl"] (.ofList [(1, "x")])).serveAll opened
          [.insert 2 "y"]
        = ⟨[.ok .done], .log (.ofText "a.jsonl") ["a.jsonl"] (.ofList [(1, "x"), (2, "y")]), left⟩
      ∧ (openLog left (.ofText "a.jsonl")).1
        = .error (.store "Corrupt record at \"/tmp/a.jsonl\":1") := by
  have hread : read (append (line ⟨1, "x"⟩) ⟨2, "y"⟩) = .error (.corrupt 1) := by
    rw [read_append read_unended (by decide)]
    exact if_neg (by decide +kernel)
  refine ⟨unended, _, openLog_unended, rfl, ?_⟩
  exact (openLog_of_corrupt ⟨rfl, rfl, rfl⟩ hread).trans
    (congrArg (fun text => Except.error (Error.store text)) (by decide +kernel))

end Store

end Resampler
