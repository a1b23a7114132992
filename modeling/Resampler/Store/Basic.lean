import Resampler.Error
import Resampler.Store.FileTree
import Resampler.Store.Log

/-!
# Stores

A store keeps texts under numbers, and what is once kept under a number stays:
inserting there again changes nothing. A store is kept in memory, or in a log
that outlives it; a third kind fails on demand and keeps nothing.

A store over a log reads it when it is opened. Later it answers from memory
and appends every new record to the file, as the file then stands.
-/

namespace Resampler

/-- **What a store fails on.** -/
inductive StoreFault where
  /-- It cannot be asked. -/
  | get
  /-- It cannot be added to. -/
  | insert
  /-- It forgets what it is given. -/
  | forgetful
deriving DecidableEq

/-- **A store.** -/
inductive Store where
  /-- A store in memory. -/
  | memory (entries : Log.Entries)
  /-- A store over a log: the path under which it was opened, where that led,
  and the entries that it holds. -/
  | log (path : Path) (place : Location) (entries : Log.Entries)
  /-- A store that holds nothing. -/
  | broken (fault : StoreFault)
deriving DecidableEq

namespace Store

/-- What the store holds. -/
def entries : Store → Log.Entries
  | .memory entries => entries
  | .log _ _ entries => entries
  | .broken _ => .empty

/-- **The text under a number**, if there is one. -/
def get? (s : Store) (key : Nat) : Except Error (Option String) :=
  match s with
  | .broken .get => .error (.store "get is down")
  | s => .ok (s.entries.get? key)

/-- **Keep a text under a number**, unless there is one already. A store over
a log adds a record to its file. -/
def insertIfAbsent (s : Store) (files : FileTree) (key : Nat) (value : String) :
    Except Error (Store × FileTree) :=
  match s with
  | .memory entries => .ok (.memory (entries.insertIfAbsent key value), files)
  | .log path place entries =>
    if entries.contains key then .ok (s, files)
    else
      let content := Log.append (files.contentAt place) ⟨key, value⟩
      .ok (.log path place (entries.insert key value),
        files.set place (.file content))
  | .broken .insert => .error (.store "insert is down")
  | .broken _ => .ok (s, files)

/-! ## Opening a log -/

/-- **What is wrong with a log that cannot be opened.** -/
inductive OpenFault where
  /-- The directory for it is not there and cannot be made. -/
  | directory (parent : Path)
  /-- It is there, but cannot be read as a log. -/
  | content (fault : Log.Fault)
  /-- It is not there and cannot be made. -/
  | absent

/-- The text of a fault, for the log at a path. -/
def OpenFault.text (files : FileTree) (path : Path) : OpenFault → String
  | .directory parent =>
    "Failed to create store directory: " ++ files.quoted parent
  | .content .unreadable => "Failed to read " ++ files.quoted path
  | .content (.corrupt line) =>
    "Corrupt record at " ++ files.quoted path ++ ":" ++ toString line
  | .absent => "Failed to open store file for writing: " ++ files.quoted path

/-- Open the log at a path whose directory is there. -/
def openFile (files : FileTree) (path : Path) :
    Except OpenFault Store × FileTree :=
  match files.locate? path with
  | none => (.error .absent, files)
  | some place =>
    match files.get? place with
    | some .directory => (.error (.content .unreadable), files)
    | some (.file content) =>
      match Log.read content with
      | .ok entries => (.ok (.log path place entries), files)
      | .error fault => (.error (.content fault), files)
    | none => (.ok (.log path place .empty), files.set place (.file []))

/-- Open the log at a path. The file and the directories on the way to it are
made if they are missing. -/
def openPath (files : FileTree) (path : Path) :
    Except OpenFault Store × FileTree :=
  match path.parent? with
  | none => openFile files path
  | some parent =>
    match files.makeDirectories parent with
    | (files, true) => openFile files path
    | (files, false) => (.error (.directory parent), files)

/-- **Open the store over the log at a path.** -/
def openLog (files : FileTree) (path : Path) : Except Error Store × FileTree :=
  let (opened, files) := openPath files path
  (opened.mapError fun fault => .store (fault.text files path), files)

end Store

end Resampler
