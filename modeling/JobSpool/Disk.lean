/-
# The disk

The library works on trees, and here is where trees meet a disk. Before a call, the places
that it may ask for are noted in a tree; after the call, the disk follows the
changes of the tree. Links on the way to a place are followed. In a folder that is noted
with all its files, a link stands for itself.

Permissions are left to the disk: what is noted is noted as something that its owner may
use, and a disk that does not allow it refuses to follow.
-/

import JobSpool.Files.Change

namespace JobSpool
namespace Disk

open Files (Change Name Object Place Tree)

/-- The path of a place. -/
def pathOf (place : Place) : String :=
  "/" ++ "/".intercalate (place.map Name.shown)

/-- The place that a path means, where `home` is the place of the working folder. -/
def placeOf (home : Place) (p : Path) : Place :=
  p.trail.foldl
    (fun place step =>
      match step with
      | .stay => place
      | .up => place.dropLast
      | .down name => place ++ [.text name])
    (if p.isAbsolute then [] else home)

/-- The instant of a time of the disk. -/
def instantOf (time : IO.FS.SystemTime) : Instant :=
  .ofSeconds time.sec time.nsec.toNat

/-- What stands at a path of the disk. -/
def object? (follow : Bool) (path : String) : IO (Option Object) := do
  let path := System.mkFilePath [path]
  try
    let data ← if follow then path.metadata else path.symlinkMetadata
    match data.type with
    | .dir => return some (.folder Files.folderMode)
    | .file =>
      return some (.file ⟨← IO.FS.readBinFile path, Files.fileMode, instantOf data.modified⟩)
    | .symlink => return some (.link ⟨(← IO.FS.realPath path).toString⟩)
    | .other => return none
  catch _ => return none

/-- Notes what stands at a place. -/
def note (follow : Bool) (t : Tree) (place : Place) : IO Tree := do
  match ← object? follow (pathOf place) with
  | some o => return t.put place o
  | none => return t

/-- Notes what stands at a place and on the way to it. -/
def noteWay (t : Tree) (place : Place) : IO Tree :=
  ((List.range place.length).map fun n => place.take (n + 1)).foldlM (note true) t

/-- Notes what stands at a name in a folder, and where it leads when it is a link. -/
def noteChild (folder : Place) (t : Tree) (name : String) : IO Tree := do
  let place := folder ++ [.text name]
  let t ← note false t place
  match t.at? place with
  | some (.link target) => noteWay t (placeOf folder target)
  | _ => return t

/-- Notes a folder with everything in it. -/
def noteFolder (t : Tree) (folder : Place) : IO Tree := do
  let t ← noteWay t folder
  if (t.at? folder).any Object.isFolder then
    let children ← (System.mkFilePath [pathOf folder]).readDir
    (children.toList.map (·.fileName)).foldlM (noteChild folder) t
  else return t

/-- The rights that permissions give to one of the three groups of users. -/
def rights (mode : Nat) : IO.AccessRight :=
  { read := mode.testBit 2, write := mode.testBit 1, execution := mode.testBit 0 }

/-- The rights that permissions give. -/
def allRights (mode : Nat) : IO.FileRight :=
  { user := rights (mode / 64), group := rights (mode / 8), other := rights mode }

/-- Makes a path hold an object. A `fresh` file is made only if nothing has come there meanwhile.
Links are never made. -/
def make (fresh : Bool) (path : String) : Object → IO Unit
  | .folder mode => do
    unless ← (System.mkFilePath [path]).isDir do
      IO.FS.createDir path
    IO.setAccessRights path (allRights mode)
  | .file f => do
    let handle ← IO.FS.Handle.mk path (if fresh then .writeNew else .write)
    handle.write f.content
    handle.flush
    IO.setAccessRights path (allRights f.mode)
  | .link _ => return

/-- Lets the disk follow a change of the tree that was noted before the call. -/
def follow (before : Tree) : Change → IO Unit
  | .remove place => IO.FS.removeFile (pathOf place)
  | .put place object => make (before.at? place).isNone (pathOf place) object

end Disk
end JobSpool
