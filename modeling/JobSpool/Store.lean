/-
# The store of job files

`JobDirectoryStore`, from `ensure_root` to `remove_entries`: `SPEC_FULL.md`, 4.1.

Every principal has a folder below the job root, and a job is nothing but the files in
it that share a stem. The store lists those files, creates inputs under names that are
free, writes them, and removes files one by one.

A listing holds the regular files right in a folder. Hidden files, links, folders and
names that are no text are none of the store's business.
-/

import JobSpool.Artifact
import JobSpool.Files.Medium
import JobSpool.Principal

namespace JobSpool

/-- A file of the store. -/
structure Entry where
  stem : String
  extension : Option String
  path : Path
  /-- When the file was last written, if that is known. -/
  modified : Option Instant
  deriving DecidableEq, Repr

namespace Entry

/-- The name of the file. -/
def fileName (e : Entry) : String :=
  FileName.ofParts e.stem e.extension

/-- What the file is to its job. -/
def artifact (e : Entry) : Artifact :=
  .ofExtension e.extension

/-- The entry for a file with a given name. -/
def ofName (name : String) (path : Path) (modified : Option Instant) : Entry :=
  { stem := (FileName.split name).1, extension := (FileName.split name).2, path, modified }

/-- **An entry has the name it was made for.** -/
@[simp] theorem fileName_ofName (name : String) (path : Path) (modified : Option Instant) :
    (ofName name path modified).fileName = name :=
  FileName.ofParts_split name

end Entry

/-- A file that could not be removed. -/
structure RemovalFailure where
  fileName : String
  reason : String
  deriving DecidableEq, Repr

namespace RemovalFailure

/-- A failure as a JSON object. -/
def toJson (f : RemovalFailure) : Json.Value :=
  .object [("fileName", .text f.fileName), ("reason", .text f.reason)]

end RemovalFailure

/-- The outcome of removing several files, each on its own. -/
structure RemovalReport where
  removed : List String := []
  failures : List RemovalFailure := []
  deriving DecidableEq, Repr

namespace RemovalReport

/-- Did nothing fail? -/
def isClean (r : RemovalReport) : Bool :=
  r.failures.isEmpty

/-- One report after another. -/
def merge (r s : RemovalReport) : RemovalReport :=
  ⟨r.removed ++ s.removed, r.failures ++ s.failures⟩

/-- The failures as a member of a JSON object, left out when there are none. -/
def failuresMember (failures : List RemovalFailure) : List (String × Json.Value) :=
  if failures.isEmpty then [] else [("failures", .list (failures.map (·.toJson)))]

/-- A report as a JSON object. -/
def toJson (r : RemovalReport) : Json.Value :=
  .object (("removed", .texts r.removed) :: failuresMember r.failures)

end RemovalReport

/-- Where the folders of the principals are. -/
structure Store where
  root : Path
  deriving DecidableEq, Repr

namespace Store

/-- The permissions of a folder that a worker shares. -/
def folderMode : Nat := 0o777

/-- The permissions of an input. -/
def inputMode : Nat := 0o644

/-- How often a name is generated before giving up. -/
def uniqueAttempts : Nat := 16

/-- The largest number behind an underscore in the name of an upload. -/
def namedAttempts : Nat := 1000

/-- `principal_dir`: the folder of a principal, which may not exist yet. -/
def folder (s : Store) (p : Principal) : Path :=
  s.root.join p.name

/-- `ensure_root`: creates the folder of a principal if it is missing, for the principal's workers
to write to. The job root gets the same permissions when it is missing too. -/
def ensureFolder (s : Store) (p : Principal) (t : Files.Tree)
    (medium : Files.Medium := .intact) : Except StorageError Path × Files.Tree :=
  let folder := s.folder p
  if t.isFolder folder then (.ok folder, t)
  else
    let rootExisted := t.isFolder s.root
    match medium.makeFolders t folder with
    | (.error fault, t) => (.error (.makeFolder folder fault), t)
    | (.ok (), t) =>
      match medium.setMode t folder folderMode with
      | .error fault => (.error (.setPermissions folder fault), t)
      | .ok t =>
        -- A job root that was there keeps its permissions.
        if rootExisted then (.ok folder, t)
        else
          match medium.setMode t s.root folderMode with
          | .error fault => (.error (.setPermissions s.root fault), t)
          | .ok t => (.ok folder, t)

/-- A generated name: the start, the time and a token. -/
def generatedName (start : String) (now : Instant) (token : String) : String :=
  start ++ now.stamp ++ "_" ++ token

/-- Creates an empty file under the first of some names that nothing has. Nothing when all names
are taken. -/
def createFirst (folder : Path) (now : Instant) (t : Files.Tree) :
    List String → Except StorageError (Option (Path × Files.Tree))
  | [] => .ok none
  | name :: names =>
    match t.create (folder.join name) now with
    | .ok t => .ok (some (folder.join name, t))
    | .error (.system .exists) => createFirst folder now t names
    | .error fault => .error (.create (folder.join name) fault)

/-- The file that was created, or that no name was left. -/
def orExhausted (folder : Path) (start : String) :
    Except StorageError (Option (Path × Files.Tree)) → Except StorageError (Path × Files.Tree)
  | .error e => .error e
  | .ok (some made) => .ok made
  | .ok none => .error (.namesExhausted folder start)

/-- `create_unique_file`: creates an empty file under a generated name. `token` gives the token of
each attempt. -/
def createUnique (folder : Path) (start : String) (now : Instant) (token : Nat → String)
    (t : Files.Tree) : Except StorageError (Path × Files.Tree) :=
  let names := (List.range uniqueAttempts).map fun n => generatedName start now (token n)
  orExhausted folder start (createFirst folder now t names)

/-- The entry for an object in a folder, if the store cares for it. When it was written is not
known in a folder that is listed but not `searched`. -/
def entryOf? (folder : Path) (searched : Bool) : Files.Name × Files.Object → Option Entry
  | (.text name, .file f) =>
    if name.toList.head? == some '.' then none
    else
      let path := folder.join name
      let known := searched && (Files.Tree.refusal? path).isNone
      some (.ofName name path (if known then some f.modified else none))
  | _ => none

/-- `list`: the files right in a folder. -/
def list (folder : Path) (t : Files.Tree) : Except StorageError (List Entry) :=
  match t.visit folder with
  | .error fault => .error (.list folder fault)
  | .ok objects => .ok (objects.filterMap (entryOf? folder (t.isSearchable folder)))

/-- The name with a given number among the names for an upload. -/
def candidate (base : String) (n : Nat) : String :=
  if n = 1 then base else base ++ "_" ++ n.repr

/-- `claims_reserved`: would a job with the given stem own a file with a reserved name? -/
def claimsReserved (reserved : List String) (stem : String) : Bool :=
  Artifact.owned.any fun a => reserved.contains (a.fileName stem)

/-- The names that may be tried for an upload, in order: no file has the name as its stem, so
the new job adopts nothing, and no file of the job has a reserved name. -/
def candidates (base : String) (reserved : List String) (entries : List Entry) : List String :=
  ((List.range namedAttempts).map fun n => candidate base (n + 1)).filter fun name =>
    !entries.any (·.stem == name) && !claimsReserved reserved name

/-- `create_named_file`: creates an empty file named after an upload, with a number when the name
is taken. -/
def createNamed (folder : Path) (base : String) (reserved : List String) (now : Instant)
    (t : Files.Tree) : Except StorageError (Path × Files.Tree) :=
  match list folder t with
  | .error e => .error e
  | .ok entries =>
    orExhausted folder base (createFirst folder now t (candidates base reserved entries))

/-- `set_mode`, as an input gets it. -/
def publish (path : Path) (t : Files.Tree) (medium : Files.Medium := .intact) :
    Except StorageError Files.Tree :=
  (medium.setMode t path inputMode).mapError (.setPermissions path)

/-- `write_input`: writes the content of an input, and sets its permissions. -/
def writeInput (path : Path) (content : ByteArray) (now : Instant) (t : Files.Tree)
    (medium : Files.Medium := .intact) : Except StorageError Files.Tree :=
  match medium.write t path content now with
  | .error fault => .error (.write path fault)
  | .ok t => publish path t medium

/-- `copy_input`: copies a file over an input, and sets the permissions of the input. -/
def copyInput (source path : Path) (now : Instant) (t : Files.Tree)
    (medium : Files.Medium := .intact) : Except StorageError Files.Tree :=
  match medium.copy t source path now with
  | .error fault => .error (.copy source path fault)
  | .ok t => publish path t medium

/-- `remove`: removes a file, and tells whether it was there. -/
def remove (path : Path) (t : Files.Tree) : Except StorageError (Bool × Files.Tree) :=
  match t.remove path with
  | .ok t => .ok (true, t)
  | .error (.system .noEntry) => .ok (false, t)
  | .error fault => .error (.remove path fault)

/-- Removes one file of a listing. A file that is gone already is not reported. -/
def removeEntry (e : Entry) (t : Files.Tree) : RemovalReport × Files.Tree :=
  match remove e.path t with
  | .ok (true, t) => ({ removed := [e.fileName] }, t)
  | .ok (false, t) => ({}, t)
  | .error cause => ({ failures := [⟨e.fileName, cause.reason⟩] }, t)

/-- `remove_entries`: removes files of a listing one by one, whatever becomes of the others. -/
def removeEntries : List Entry → Files.Tree → RemovalReport × Files.Tree
  | [], t => ({}, t)
  | e :: rest, t =>
    let (first, t) := removeEntry e t
    let (more, t) := removeEntries rest t
    (first.merge more, t)

/-- `remove_all_with_stem`: removes every file in a folder that has a given stem. -/
def removeStem (folder : Path) (stem : String) (t : Files.Tree) :
    Except StorageError (RemovalReport × Files.Tree) :=
  match list folder t with
  | .error e => .error e
  | .ok entries => .ok (removeEntries (entries.filter (·.stem == stem)) t)

end Store
end JobSpool
