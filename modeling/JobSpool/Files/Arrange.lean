/-
# Arranging a tree of files

What an operator does to a tree by hand, and the store never does: links are made,
things are moved, whole folders are cleared, ages are set, and everything below a
folder is listed.
-/

import JobSpool.Files.Tree
import JobSpool.Text.Order

namespace JobSpool
namespace Files

/-- The way from a folder down to a place, if the place is the folder or lies below it. -/
def wayDown? : Place → Place → Option Place
  | [], place => some place
  | a :: folder, b :: place => if a = b then wayDown? folder place else none
  | _ :: _, [] => none

namespace Tree

/-- Makes a link where nothing stands yet. -/
def makeLink (t : Tree) (p target : Path) : Except Fault Tree :=
  match t.locate .itself p with
  | .error fault => .error fault
  | .ok (.taken _ _) => .error (.system .exists)
  | .ok (.vacant folder name) =>
    if p.endsInSlash then .error (.system .noEntry)
    else t.add folder (.text name) (.link target)

/-- Puts an empty file with a given name into a folder. -/
def putNamed (t : Tree) (folder : Path) (name : Name) (now : Instant) : Except Fault Tree :=
  match t.find folder with
  | .error fault => .error fault
  | .ok (place, .folder _) => t.add place name (.file ⟨ByteArray.empty, fileMode, now⟩)
  | .ok _ => .error (.system .notFolder)

/-- Sets when a file was last written. -/
def setModified (t : Tree) (p : Path) (time : Instant) : Except Fault Tree :=
  match t.find p with
  | .error fault => .error fault
  | .ok (place, .file f) => .ok (t.put place (.file { f with modified := time }))
  | .ok _ => .ok t

/-- The permissions of a file or a folder. -/
def mode (t : Tree) (p : Path) : Except Fault Nat :=
  match t.find p with
  | .error fault => .error fault
  | .ok (_, .file f) => .ok f.mode
  | .ok (_, .folder mode) => .ok mode
  | .ok (_, .link _) => .error (.system .noEntry)

/-- Removes a folder with nothing in it. -/
def removeFolder (t : Tree) (p : Path) : Except Fault Tree :=
  match t.locate .itself p, p.steps.getLast? with
  | .error fault, _ => .error fault
  | .ok _, none => .error (.system .busy)
  | .ok _, some .stay => .error (.system .invalid)
  | .ok _, some .up => .error (.system .notEmpty)
  | .ok (.vacant _ _), some (.down _) => .error (.system .noEntry)
  | .ok (.taken place o), some (.down _) =>
    if !t.mayChange place.dropLast then .error (.system .denied)
    else if !o.isFolder then .error (.system .notFolder)
    else if (t.children place).isEmpty then .ok (t.erase place)
    else .error (.system .notEmpty)

/-- May everything below the folder at a place be removed? Every folder there has to be listed,
and to be changed if there is something in it. -/
def mayEmpty (t : Tree) (place : Place) : Bool :=
  t.entries.all fun e =>
    (wayDown? place e.1).isNone || !e.2.isFolder ||
      e.2.mayRead && (t.mayChange e.1 || (t.children e.1).isEmpty)

/-- Takes away everything below the folder at a place. -/
def emptied (t : Tree) (place : Place) : Tree :=
  { t with entries := t.entries.filter fun e => (wayDown? place e.1).all (· == []) }

/-- Takes away what a path leads to, with everything below it. What was below a folder is gone
even if the folder itself has to stay. -/
def clear (t : Tree) (p : Path) : Except Fault Unit × Tree :=
  match t.locate (if p.endsInSlash then .target else .itself) p with
  | .ok (.taken place (.folder _)) =>
    if !t.mayEmpty place then (.error (.system .denied), t)
    else
      match (t.emptied place).removeFolder p with
      | .ok t => (.ok (), t)
      | .error (.system .noEntry) => (.ok (), t.emptied place)
      | .error fault => (.error fault, t.emptied place)
  | _ =>
    match t.remove p with
    | .ok t => (.ok (), t)
    | .error fault => (.error fault, t)

/-- Moves something with everything below it to a place in another tree of places. -/
def relocate (t : Tree) (source target : Place) : Tree :=
  if source = target then t
  else
    let rest := t.entries.filter (·.1 != target)
    { t with entries := rest.map fun e =>
        match wayDown? source e.1 with
        | some way => (target ++ way, e.2)
        | none => e }

/-- The folder in which a path ends, and the name there, if it is a name that the path ends in. -/
def ending (t : Tree) (p : Path) : Except Fault (Place × Option String) :=
  match refusal? p with
  | some fault => .error fault
  | none =>
    match t.walk .target linkLimit true (t.start p) p.steps.dropLast with
    | .error cause => .error (.system cause)
    | .ok (.vacant _ _) => .error (.system .noEntry)
    | .ok (.taken folder _) =>
      if !t.maySearch folder then .error (.system .denied)
      else
        match p.steps.getLast? with
        | some (.down name) => .ok (folder, some name)
        | _ => .ok (folder, none)

/-- Why something may not come to a place instead of what stands there: a folder takes the place
of a folder only, and anything else never that of a folder. -/
def clash? (t : Tree) (o : Object) (place : Place) : Option OsError :=
  match (t.at? place).map Object.isFolder with
  | none => none
  | some occupant =>
    match o.isFolder, occupant with
    | true, false => some .notFolder
    | false, true => some .isFolder
    | _, _ => none

/-- Gives a name in a folder to what stands at a place. Nothing is moved below itself, or instead
of a folder that it is in. A folder that comes into another one has to be one that may be written
to, and one whose place it takes has to be empty. -/
def moveTo (t : Tree) (place : Place) (o : Object) (folder : Place) (name : String) :
    Except OsError Tree :=
  let target := folder ++ [.text name]
  if place = target then .ok t
  else if (wayDown? place folder).isSome then .error .invalid
  else if (wayDown? target place).isSome then .error .notEmpty
  else if !t.mayChange place.dropLast || !t.mayChange folder then .error .denied
  else
    match t.clash? o target with
    | some cause => .error cause
    | none =>
      if o.isFolder && place.dropLast != folder && !o.mayWrite then .error .denied
      else if !(t.children target).isEmpty then .error .notEmpty
      else .ok (t.relocate place target)

/-- Gives something another name, or moves it to another folder. A slash at the end of either
path asks for a folder. -/
def move (t : Tree) (source target : Path) : Except Fault Tree :=
  match t.ending source, t.ending target with
  | .error fault, _ => .error fault
  | _, .error fault => .error fault
  | .ok (_, none), _ => .error (.system .busy)
  | _, .ok (_, none) => .error (.system .busy)
  | .ok (folder, some name), .ok (other, some newName) =>
    if nameLimit < name.utf8ByteSize then .error (.system .nameTooLong)
    else
      match t.at? (folder ++ [.text name]) with
      | none => .error (.system .noEntry)
      | some o =>
        if nameLimit < newName.utf8ByteSize then .error (.system .nameTooLong)
        else if !o.isFolder && (source.endsInSlash || target.endsInSlash) then
          .error (.system .notFolder)
        else (t.moveTo (folder ++ [.text name]) o other newName).mapError .system

/-- A way down from a folder as it is shown: a folder ends in a slash. -/
def shownWay (way : Place) (o : Object) : String :=
  "/".intercalate (way.map Name.shown) ++ (if o.isFolder then "/" else "")

/-- May a name below the folder at a place be seen, the folder being listed, then the next one on
the way, and so on? -/
def shows (t : Tree) (place way : Place) : Bool :=
  (List.range way.length).all fun n =>
    let folder := t.at? (place ++ way.take n)
    folder.all Object.mayRead && (n + 1 == way.length || folder.all Object.maySearch)

/-- Everything below a folder, in byte order. -/
def contents (t : Tree) (p : Path) : List String :=
  match t.find p with
  | .ok (place, .folder _) =>
    Text.sortNames (t.entries.filterMap fun e =>
      match wayDown? place e.1 with
      | some [] | none => none
      | some way => if t.shows place way then some (shownWay way e.2) else none)
  | _ => []

end Tree
end Files
end JobSpool
