import Resampler.Proofs.Store.Log
import Resampler.Store.Basic

/-!
# Opening a log, again and again

Where a path leads depends on the directories alone, and it goes on leading there
as long as no directory is lost (`Extends`). Opening a log makes the directories
on its way, and a second time finds them made (`makeWay_made`); a file that is
written replaces none. So once a log has been opened, its path keeps leading to
its file (`Keeps`), and opening it again is reading what the file then holds
(`Keeps.openLog`).
-/

namespace Resampler

namespace FileTree

variable {t t' : FileTree}

/-- **No directory is lost.** -/
def Extends (t t' : FileTree) : Prop :=
  ∀ place, t.isDirectory place = true → t'.isDirectory place = true

theorem Extends.refl (t : FileTree) : t.Extends t := fun _ h => h

theorem Extends.trans {t'' : FileTree} (h : t.Extends t') (h' : t'.Extends t'') : t.Extends t'' :=
  fun place hplace => h' place (h place hplace)

/-- Writing a file loses no directory, if there was none in its place. -/
theorem extends_set_file {place : Location} (h : t.isDirectory place = false)
    (content : List UInt8) : t.Extends (t.set place (.file content)) := by
  intro other hother
  rw [isDirectory_set_file h]
  exact hother

/-- **Nothing is lost**, no directory and no file. -/
def Grows (t t' : FileTree) : Prop :=
  ∀ place node, t.get? place = some node → t'.get? place = some node

theorem Grows.refl (t : FileTree) : t.Grows t := fun _ _ h => h

theorem Grows.trans {t'' : FileTree} (h : t.Grows t') (h' : t'.Grows t'') : t.Grows t'' :=
  fun place node hplace => h' place node (h place node hplace)

theorem Grows.extends (h : t.Grows t') : t.Extends t' := by
  intro place hplace
  have hdir : t.get? place = some .directory := of_decide_eq_true hplace
  rw [isDirectory, h place _ hdir]
  rfl

/-- What is made where nothing is replaces nothing. -/
theorem grows_set {place : Location} (h : t.get? place = none) (node : FileNode) :
    t.Grows (t.set place node) := by
  intro other node' hother
  by_cases hroot : other = []
  · subst hroot
    exact hother
  · rw [get?_set _ _ _ _ hroot]
    split
    · next heq =>
      subst heq
      rw [h] at hother
      cases hother
    · exact hother

/-! ## Ways that are made -/

/-- A name that is entered is not the root. -/
theorem concat_ne_nil (here : Location) (name : String) : here ++ [name] ≠ [] := by simp

/-- Making directories loses nothing. -/
theorem grows_makeWay (t : FileTree) (here : Location) (steps : List Path.Step) :
    t.Grows (t.makeWay here steps).1 := by
  induction steps generalizing t here with
  | nil => exact .refl t
  | cons step rest ih =>
    cases step with
    | stay => exact ih t here
    | up => exact ih t here.dropLast
    | enter name =>
      unfold makeWay
      dsimp only
      split
      · exact ih t _
      · exact .refl t
      · next hnone =>
        split
        · exact (grows_set hnone .directory).trans (ih _ _)
        · exact .refl t

theorem grows_makeDirectories (t : FileTree) (path : Path) :
    t.Grows (t.makeDirectories path).1 := by
  unfold makeDirectories
  split
  · exact grows_makeWay t _ _
  · exact .refl t

/-- **A way that is made leads through directories**, those of the tree that it
leaves behind. -/
theorem makeWay_enter {here : Location} {name : String} {rest : List Path.Step}
    (h : t.makeWay here (.enter name :: rest) = (t', true)) :
    t'.isDirectory (here ++ [name]) = true
      ∧ ∃ t₀ : FileTree, t₀.makeWay (here ++ [name]) rest = (t', true) := by
  unfold makeWay at h
  dsimp only at h
  split at h
  · next hdir =>
    refine ⟨?_, t, h⟩
    have hgrows := grows_makeWay t (here ++ [name]) rest
    rw [h] at hgrows
    exact hgrows.extends _ (by rw [isDirectory, hdir]; rfl)
  · cases h
  · split at h
    · refine ⟨?_, _, h⟩
      have hgrows := grows_makeWay (t.set (here ++ [name]) .directory) (here ++ [name]) rest
      rw [h] at hgrows
      refine hgrows.extends _ ?_
      rw [isDirectory, get?_set _ _ _ _ (concat_ne_nil here name), if_pos rfl]
      rfl
    · cases h

/-- **A way that was made once is there**, in every tree that keeps its
directories. -/
theorem makeWay_made {t₀ : FileTree} {here : Location} {steps : List Path.Step}
    (h : t₀.makeWay here steps = (t, true)) (hext : t.Extends t') :
    t'.makeWay here steps = (t', true) := by
  induction steps generalizing t₀ here with
  | nil => rfl
  | cons step rest ih =>
    cases step with
    | stay => exact ih h
    | up => exact ih h
    | enter name =>
      obtain ⟨hdir, t₁, hrest⟩ := makeWay_enter h
      have hnext : t'.get? (here ++ [name]) = some .directory :=
        of_decide_eq_true (hext _ hdir)
      unfold makeWay
      dsimp only
      rw [hnext]
      exact ih hrest

/-- The directory of a path, made once, is there. -/
theorem makeParent_made {t₀ : FileTree} {path : Path} (h : t₀.makeParent path = (t, true))
    (hext : t.Extends t') : t'.makeParent path = (t', true) := by
  unfold makeParent at h ⊢
  split at h
  · rfl
  · unfold makeDirectories at h ⊢
    split at h
    · next hwalk =>
      rw [if_pos hwalk]
      exact makeWay_made h hext
    · cases h

/-! ## Ways that are walked -/

theorem walk_extends {here place : Location} {steps : List Path.Step}
    (h : t.walk here steps = some place) (hext : t.Extends t') :
    t'.walk here steps = some place := by
  induction steps generalizing here with
  | nil => exact h
  | cons step rest ih =>
    unfold walk at h ⊢
    split at h
    · next hdir =>
      rw [if_pos (hext _ hdir)]
      cases step with
      | stay => exact ih h
      | up => exact ih h
      | enter name =>
        dsimp only at h ⊢
        split at h
        · next hname =>
          rw [if_pos hname]
          exact ih h
        · cases h
    · cases h

theorem locate?_extends {path : Path} {place : Location} (h : t.locate? path = some place)
    (hext : t.Extends t') : t'.locate? path = some place := by
  unfold locate? at h ⊢
  split at h
  · next hwalk =>
    rw [if_pos hwalk]
    exact walk_extends h hext
  · cases h

/-! ## Files that paths lead to -/

/-- **A path leads to a file with this content**, and the directories on its way are
made. -/
structure Keeps (t : FileTree) (path : Path) (place : Location) (content : List UInt8) : Prop where
  /-- The directory of the file is there. -/
  way : t.makeParent path = (t, true)
  /-- The path leads to the place of the file. -/
  leads : t.locate? path = some place
  /-- The file is there. -/
  file : t.get? place = some (.file content)

namespace Keeps

variable {path : Path} {place : Location} {content : List UInt8}

theorem isDirectory_eq_false (h : t.Keeps path place content) : t.isDirectory place = false := by
  rw [isDirectory, h.file]
  rfl

/-- The root is no file. -/
theorem place_ne_nil (h : t.Keeps path place content) : place ≠ [] := by
  rintro rfl
  cases h.file

theorem contentAt_eq (h : t.Keeps path place content) : t.contentAt place = content := by
  rw [contentAt, h.file]

theorem content?_eq (h : t.Keeps path place content) : t.content? path = some content := by
  rw [content?, h.leads, Option.bind_some, h.file]

/-- **The path goes on leading there**, as long as no directory is lost. -/
theorem stays (h : t.Keeps path place content) (hext : t.Extends t') {content' : List UInt8}
    (hfile : t'.get? place = some (.file content')) : t'.Keeps path place content' :=
  ⟨makeParent_made h.way hext, locate?_extends h.leads hext, hfile⟩

/-- **The path leads to what is written there.** -/
theorem set (h : t.Keeps path place content) (content' : List UInt8) :
    (t.set place (.file content')).Keeps path place content' := by
  refine h.stays (extends_set_file h.isDirectory_eq_false content') ?_
  rw [get?_set _ _ _ _ h.place_ne_nil, if_pos rfl]

end Keeps

/-- **No file, or an empty one**, where a path leads once the directories on its way are
made. -/
def IsVacant (t : FileTree) (path : Path) : Prop :=
  ∃ made place, t.makeParent path = (made, true) ∧ made.locate? path = some place
    ∧ (made.get? place = none ∨ made.get? place = some (.file []))

end FileTree

namespace Store

open FileTree

variable {files files' : FileTree} {path : Path} {place : Location} {content : List UInt8}

/-- Once the directory is made, the file is opened. -/
theorem openPath_of_makeParent (h : files.makeParent path = (files', true)) :
    openPath files path = openFile files' path := by
  unfold makeParent at h
  unfold openPath
  cases hparent : path.parent? with
  | none =>
    rw [hparent] at h
    cases h
    rfl
  | some parent =>
    rw [hparent] at h
    dsimp only at h ⊢
    rw [h]

/-- **What opening makes of what is read from a log.** -/
def ofReading (files : FileTree) (path : Path) (place : Location) :
    Except Log.Fault Log.Entries → Except Error Store
  | .ok entries => .ok (.log path place entries)
  | .error fault => .error (.store ((OpenFault.content fault).text files path))

/-- **Opening a log that was opened before** is reading what its file holds. -/
theorem openLog_of_keeps (h : files.Keeps path place content) :
    openLog files path = (ofReading files path place (Log.read content), files) := by
  unfold openLog
  rw [openPath_of_makeParent h.way]
  unfold openFile
  rw [h.leads]
  dsimp only
  rw [h.file]
  dsimp only
  cases Log.read content <;> rfl

/-- **Opening loses no file.** -/
theorem grows_openLog (files : FileTree) (path : Path) : files.Grows (openLog files path).2 := by
  have hfile : ∀ t : FileTree, t.Grows (openFile t path).2 := by
    intro t
    unfold openFile
    split
    · exact .refl t
    · split
      · exact .refl t
      · split <;> exact .refl t
      · next hnone => exact grows_set hnone _
  show files.Grows (openPath files path).2
  unfold openPath
  split
  · exact hfile files
  · next parent _ =>
    have hgrows := grows_makeDirectories files parent
    split
    · next made hmade =>
      rw [hmade] at hgrows
      exact hgrows.trans (hfile made)
    · next made hmade =>
      rw [hmade] at hgrows
      exact hgrows

theorem keeps_of_openFile {s : Store} (hway : files.makeParent path = (files, true))
    (h : openFile files path = (.ok s, files')) :
    ∃ place content entries, s = .log path place entries ∧ Log.read content = .ok entries
      ∧ files'.Keeps path place content := by
  unfold openFile at h
  split at h
  · cases h
  · next place hplace =>
    split at h
    · cases h
    · next content hfile =>
      split at h
      · next entries hread =>
        cases h
        exact ⟨place, content, entries, rfl, hread, hway, hplace, hfile⟩
      · cases h
    · next hnone =>
      cases h
      have hplace' : files.isDirectory place = false := by
        rw [isDirectory, hnone]
        rfl
      have hroot : place ≠ [] := by
        rintro rfl
        cases hnone
      have hext := extends_set_file hplace' []
      refine ⟨place, [], .empty, rfl, rfl, makeParent_made hway hext,
        locate?_extends hplace hext, ?_⟩
      rw [get?_set _ _ _ _ hroot, if_pos rfl]

/-- What opening a log gives, its fault not yet told as an error. -/
theorem openPath_of_openLog {s : Store} (h : openLog files path = (.ok s, files')) :
    openPath files path = (.ok s, files') := by
  unfold openLog at h
  generalize openPath files path = out at h ⊢
  obtain ⟨opened, made⟩ := out
  cases opened with
  | error fault => cases h
  | ok s' =>
    cases h
    rfl

/-- **A log that was opened is kept**, and holds what is read from its file. -/
theorem exists_keeps_of_openLog {s : Store} (h : openLog files path = (.ok s, files')) :
    ∃ place content entries, s = .log path place entries ∧ Log.read content = .ok entries
      ∧ files'.Keeps path place content := by
  have hpath := openPath_of_openLog h
  cases hmade : files.makeParent path with
  | mk made done =>
  cases done with
  | false =>
    unfold FileTree.makeParent at hmade
    unfold openPath at hpath
    cases hparent : path.parent? with
    | none =>
      rw [hparent] at hmade
      cases hmade
    | some parent =>
      rw [hparent] at hmade hpath
      dsimp only at hmade hpath
      rw [hmade] at hpath
      cases hpath
  | true =>
    rw [openPath_of_makeParent hmade] at hpath
    exact keeps_of_openFile (makeParent_made hmade (Extends.refl made)) hpath

/-- **Opening a log at a vacant path** gives an empty store over an empty file. -/
theorem openLog_of_isVacant (h : files.IsVacant path) :
    ∃ place opened, openLog files path = (.ok (.log path place .empty), opened)
      ∧ opened.Keeps path place [] := by
  obtain ⟨made, place, hmade, hplace, hnone | hempty⟩ := h
  · have hopen : openLog files path
        = (.ok (.log path place .empty), made.set place (.file [])) := by
      unfold openLog
      rw [openPath_of_makeParent hmade]
      unfold openFile
      rw [hplace]
      dsimp only
      rw [hnone]
      rfl
    obtain ⟨place', content, entries, hs, -, hkeeps⟩ := exists_keeps_of_openLog hopen
    cases hs
    have hroot : place ≠ [] := hkeeps.place_ne_nil
    have hfile := hkeeps.file
    rw [get?_set _ _ _ _ hroot, if_pos rfl] at hfile
    cases hfile
    exact ⟨place, _, hopen, hkeeps⟩
  · have hkeeps : made.Keeps path place [] :=
      ⟨makeParent_made hmade (Extends.refl made), hplace, hempty⟩
    refine ⟨place, made, ?_, hkeeps⟩
    unfold openLog
    rw [openPath_of_makeParent hmade, ← openPath_of_makeParent hkeeps.way]
    exact openLog_of_keeps hkeeps

end Store

end Resampler
