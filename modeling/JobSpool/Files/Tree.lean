/-
# A tree of files

The store lives in a tree of files, folders and links. It is a flat list that maps a
*place*, which is the names on the way from the root, to what stands there: so a call
that changes one place leaves every other one alone (`at?_put_of_ne`,
`at?_erase_of_ne`), and the files of a folder are the places one name below it
(`childOf?_eq_some_iff`).

`walk` follows the steps of a path from a folder. It goes on at the target of a link,
at most 40 times, and stops at a name with nothing there. What is looked for (`Aim`)
decides about the end of the path: whether a link there is followed, and whether a name
with a slash after it may be a place for a file.

Everything in a tree belongs to the one who works on it, so the permissions of the owner
decide. A name is followed in a folder that may be searched (`Object.maySearch`), comes
and goes in one that may be changed too (`Tree.mayChange`), and is listed in one that may
be read. The permissions of a file count when it is opened, not when it is replaced.
-/

import JobSpool.Calendar
import JobSpool.Files.Fault
import JobSpool.Path
import JobSpool.Text.Decode

namespace JobSpool
namespace Files

/-- A name in a folder: a text, or bytes that are no UTF-8. -/
inductive Name where
  | text (s : String)
  | raw (bytes : List UInt8)
  deriving DecidableEq, Repr

namespace Name

/-- A name as it is shown. -/
def shown : Name → String
  | text s => s
  | raw bytes => String.ofList (Text.lenientChars bytes)

end Name

/-- The names on the way from the root. -/
abbrev Place := List Name

/-- A regular file. -/
structure File where
  content : ByteArray
  mode : Nat
  modified : Instant

instance : DecidableEq File := fun f g =>
  decidable_of_iff (f.content.data = g.content.data ∧ f.mode = g.mode ∧ f.modified = g.modified)
    (by cases f; cases g; simp [ByteArray.ext_iff])

/-- What stands at a place. -/
inductive Object where
  | file (f : File)
  | folder (mode : Nat)
  | link (target : Path)
  deriving DecidableEq

namespace Object

/-- Is it a folder? -/
def isFolder : Object → Bool
  | folder _ => true
  | _ => false

/-- The permissions. A link leaves them to what it leads to. -/
def mode : Object → Nat
  | file f => f.mode
  | folder mode => mode
  | link _ => 0o777

/-- May the owner read the file, or list the folder? -/
def mayRead (o : Object) : Bool :=
  o.mode.testBit 8

/-- May the owner write to it? -/
def mayWrite (o : Object) : Bool :=
  o.mode.testBit 7

/-- May the owner follow names in the folder, or start the file? -/
def maySearch (o : Object) : Bool :=
  o.mode.testBit 6

end Object

/-- All places with something there, and the folder where relative paths start. -/
structure Tree where
  entries : List (Place × Object)
  home : Place
  deriving DecidableEq

/-- The permissions of a new folder. -/
def folderMode : Nat := 0o755

/-- The permissions of a new file. -/
def fileMode : Nat := 0o644

/-- The name of a place one name below a folder. -/
def childOf? : Place → Place → Option Name
  | [], [name] => some name
  | a :: folder, b :: place => if a = b then childOf? folder place else none
  | _, _ => none

/-- The child of a folder is the place with one name more. -/
theorem childOf?_eq_some_iff {folder place : Place} {name : Name} :
    childOf? folder place = some name ↔ place = folder ++ [name] := by
  induction folder generalizing place with
  | nil =>
    cases place with
    | nil => simp [childOf?]
    | cons b rest => cases rest <;> simp [childOf?]
  | cons a folder ih =>
    cases place with
    | nil => simp [childOf?]
    | cons b place => by_cases h : a = b <;> simp [childOf?, h, ih, eq_comm]

namespace Tree

/-- What stands at a place. The root is always a folder. -/
def at? (t : Tree) (place : Place) : Option Object :=
  if place = [] then some (.folder folderMode)
  else (t.entries.find? (·.1 == place)).map (·.2)

/-- Puts something at a place, instead of what stands there. -/
def put (t : Tree) (place : Place) (o : Object) : Tree :=
  if t.entries.any (·.1 == place) then
    { t with entries := t.entries.map fun e => if e.1 == place then (place, o) else e }
  else { t with entries := t.entries ++ [(place, o)] }

/-- Takes away what stands at a place. -/
def erase (t : Tree) (place : Place) : Tree :=
  { t with entries := t.entries.filter (·.1 != place) }

/-- Replacing what stands at one place does not show at another. -/
theorem find?_map_ne {entries : List (Place × Object)} {place other : Place} (o : Object)
    (h : other ≠ place) :
    ((entries.map fun e => if e.1 == place then (place, o) else e).find? (·.1 == other)).map (·.2)
      = (entries.find? (·.1 == other)).map (·.2) := by
  induction entries with
  | nil => rfl
  | cons e entries ih =>
    by_cases he : e.1 = place
    · subst he; simpa [h, Ne.symm h, List.find?_cons] using ih
    · by_cases ho : e.1 = other
      · subst ho; simp [h]
      · simpa [he, ho, List.find?_cons] using ih

/-- **What is put at a place is not seen at another.** -/
theorem at?_put_of_ne {t : Tree} {place other : Place} {o : Object} (h : other ≠ place) :
    (t.put place o).at? other = t.at? other := by
  unfold put at?
  split
  · rfl
  · split
    · exact find?_map_ne o h
    · simp [List.find?_append, Ne.symm h]

/-- What was put at a place that had an entry is found there. -/
theorem find?_map_self {entries : List (Place × Object)} {place : Place} (o : Object)
    (h : entries.any (·.1 == place)) :
    ((entries.map fun e => if e.1 == place then (place, o) else e).find? (·.1 == place)).map (·.2)
      = some o := by
  induction entries with
  | nil => simp at h
  | cons e entries ih =>
    by_cases he : e.1 = place
    · simp [he]
    · simpa [he] using ih (by simpa [he] using h)

/-- **What is put at a place stands there.** -/
theorem at?_put_self {t : Tree} {place : Place} {o : Object} (h : place ≠ []) :
    (t.put place o).at? place = some o := by
  unfold put at?
  rw [if_neg h]
  split
  · rename_i hany
    exact find?_map_self o hany
  · rename_i hany
    have : t.entries.find? (·.1 == place) = none := by
      rw [List.find?_eq_none]
      exact fun e he hp => hany (List.any_eq_true.2 ⟨e, he, hp⟩)
    simp [List.find?_append, this]

/-- **What is taken away at a place is not missed at another.** -/
theorem at?_erase_of_ne {t : Tree} {place other : Place} (h : other ≠ place) :
    (t.erase place).at? other = t.at? other := by
  unfold erase at?
  split
  · rfl
  · rw [List.find?_filter]
    congr 2
    funext e
    by_cases ho : e.1 = other
    · subst ho; simp [h]
    · simp [ho]

/-- **What is taken away is gone.** -/
theorem at?_erase_self {t : Tree} {place : Place} (h : place ≠ []) :
    (t.erase place).at? place = none := by
  simp [erase, at?, h, List.find?_filter]

/-- The names in a folder and what stands there, in the order of the tree. -/
def children (t : Tree) (folder : Place) : List (Name × Object) :=
  t.entries.filterMap fun e => (childOf? folder e.1).map (·, e.2)

/-- May names be followed in the folder at a place? -/
def maySearch (t : Tree) (folder : Place) : Bool :=
  (t.at? folder).all Object.maySearch

/-- May names come to the folder at a place, and go? -/
def mayChange (t : Tree) (folder : Place) : Bool :=
  (t.at? folder).all fun o => o.mayWrite && o.maySearch

/-- Puts something new into a folder. -/
def add (t : Tree) (folder : Place) (name : Name) (o : Object) : Except Fault Tree :=
  if t.mayChange folder then .ok (t.put (folder ++ [name]) o) else .error (.system .denied)

end Tree

/-- Where a path leads: to something, or to a free name in a folder. -/
inductive Spot where
  | taken (place : Place) (object : Object)
  | vacant (folder : Place) (name : String)

/-- The largest number of links on a way. -/
def linkLimit : Nat := 40

/-- The largest size of a name, in bytes. -/
def nameLimit : Nat := 255

/-- The smallest size of a path that is too long, in bytes. -/
def pathLimit : Nat := 4096

/-- What is looked for at the end of a path. -/
inductive Aim where
  /-- What stands there, be it a link. -/
  | itself
  /-- What a link there leads to. -/
  | target
  /-- A place for a file that has to be new. -/
  | newFile
  /-- A place for a file, which may be where a link there leads to. -/
  | file
  deriving DecidableEq, Repr

namespace Aim

/-- Is a link at the end followed? -/
def follows : Aim → Bool
  | target | file => true
  | itself | newFile => false

/-- Is a file going to be opened there for writing? Then no slash may come after its name. -/
def opens : Aim → Bool
  | newFile | file => true
  | itself | target => false

end Aim

namespace Tree

/-- Follows steps from a folder. A `slash` comes after the last one if it is set. `jump` goes on
from a link in a folder, with the steps that are left behind it. -/
def walkWith (jump : Place → Path → List Path.Step → Except OsError Spot) (t : Tree)
    (aim : Aim) (slash : Bool) : Place → List Path.Step → Except OsError Spot
  | here, [] =>
    match t.at? here with
    | some o => .ok (.taken here o)
    | none => .error .noEntry
  | here, .stay :: rest =>
    if t.maySearch here then walkWith jump t aim slash here rest else .error .denied
  | here, .up :: rest =>
    if t.maySearch here then walkWith jump t aim slash here.dropLast rest else .error .denied
  | here, .down name :: rest =>
    -- What is asked first decides which fault is told: the folder, the end of the path, the name.
    if !t.maySearch here then .error .denied
    else if rest.isEmpty && slash && aim.opens then .error .isFolder
    else if nameLimit < name.utf8ByteSize then .error .nameTooLong
    else
      match t.at? (here ++ [.text name]) with
      | none => if rest.isEmpty then .ok (.vacant here name) else .error .noEntry
      | some (.file f) =>
        if rest.isEmpty && !(slash && aim.follows) then
          .ok (.taken (here ++ [.text name]) (.file f))
        else .error .notFolder
      | some (.link target) =>
        if rest.isEmpty && !aim.follows then .ok (.taken (here ++ [.text name]) (.link target))
        else jump here target rest
      | some (.folder _) => walkWith jump t aim slash (here ++ [.text name]) rest

/-- **Nothing is reached through a folder that may not be searched,** not even the folder
itself by a step that stays. -/
theorem walkWith_cons_of_not_maySearch {jump : Place → Path → List Path.Step → Except OsError Spot}
    {t : Tree} {aim : Aim} {slash : Bool} {here : Place} {step : Path.Step}
    {rest : List Path.Step} (h : t.maySearch here = false) :
    walkWith jump t aim slash here (step :: rest) = .error .denied := by
  cases step <;> simp [walkWith, h]

/-- Follows steps from a folder, over at most `links` links. -/
def walk (t : Tree) (aim : Aim) : (links : Nat) → (slash : Bool) → Place → List Path.Step →
    Except OsError Spot
  | 0, slash => walkWith (fun _ _ _ => .error .tooManyLinks) t aim slash
  | links + 1, slash =>
    walkWith
      (fun here target rest =>
        walk t aim links (slash || (rest.isEmpty && target.endsInSlash))
          (if target.isAbsolute then [] else here) (target.steps ++ rest))
      t aim slash

/-- Why a path is refused before it is followed, if it is. -/
def refusal? (p : Path) : Option Fault :=
  if p.text.toList.contains '\x00' then some .nullInPath
  else if p.text.isEmpty then some (.system .noEntry)
  else if pathLimit ≤ p.text.utf8ByteSize then some (.system .nameTooLong)
  else none

/-- Where a path starts. -/
def start (t : Tree) (p : Path) : Place :=
  if p.isAbsolute then [] else t.home

/-- Where a path leads. -/
def locate (t : Tree) (aim : Aim) (p : Path) : Except Fault Spot :=
  match refusal? p with
  | some fault => .error fault
  | none => (t.walk aim linkLimit p.endsInSlash (t.start p) p.steps).mapError .system

/-- Does a path end in a name, so that something can be removed there? -/
def endsInName (p : Path) : Bool :=
  match p.steps.getLast? with
  | some (.down _) => true
  | _ => false

/-- What a path leads to, links followed. A slash at the end asks for a folder. -/
def find (t : Tree) (p : Path) : Except Fault (Place × Object) :=
  match t.locate .target p with
  | .error fault => .error fault
  | .ok (.vacant _ _) => .error (.system .noEntry)
  | .ok (.taken place o) => .ok (place, o)

/-- Does a path lead to a folder? -/
def isFolder (t : Tree) (p : Path) : Bool :=
  match t.find p with
  | .ok (_, o) => o.isFolder
  | .error _ => false

/-- The regular file that a path leads to, if it leads to one. -/
def file? (t : Tree) (p : Path) : Option File :=
  match t.find p with
  | .ok (_, .file f) => some f
  | _ => none

/-- May names be followed in the folder that a path leads to? -/
def isSearchable (t : Tree) (p : Path) : Bool :=
  match t.find p with
  | .ok (_, o) => o.isFolder && o.maySearch
  | .error _ => false

/-- What a path leads to, if it may be opened for reading. -/
def opened (t : Tree) (p : Path) : Except Fault (Place × Object) :=
  match t.find p with
  | .error fault => .error fault
  | .ok (place, o) => if o.mayRead then .ok (place, o) else .error (.system .denied)

/-- The content of a file. -/
def read (t : Tree) (p : Path) : Except Fault ByteArray :=
  match t.opened p with
  | .error fault => .error fault
  | .ok (_, .file f) => .ok f.content
  | .ok _ => .error (.system .isFolder)

/-- The content of a file that holds text. -/
def readText (t : Tree) (p : Path) : Except Fault String :=
  match t.read p with
  | .error fault => .error fault
  | .ok content =>
    match Text.strict content with
    | some text => .ok text
    | none => .error .notUtf8

/-- Creates an empty file where nothing stands yet. -/
def create (t : Tree) (p : Path) (now : Instant) : Except Fault Tree :=
  match t.locate .newFile p with
  | .error fault => .error fault
  | .ok (.taken _ _) => .error (.system .exists)
  | .ok (.vacant folder name) =>
    t.add folder (.text name) (.file ⟨ByteArray.empty, fileMode, now⟩)

/-- Writes a file anew. What it held before is gone, and its permissions stay. -/
def write (t : Tree) (p : Path) (content : ByteArray) (now : Instant) : Except Fault Tree :=
  match t.locate .file p with
  | .error fault => .error fault
  | .ok (.taken place (.file f)) =>
    if (Object.file f).mayWrite then
      .ok (t.put place (.file { f with content := content, modified := now }))
    else .error (.system .denied)
  | .ok (.taken _ _) => .error (.system .isFolder)
  | .ok (.vacant folder name) => t.add folder (.text name) (.file ⟨content, fileMode, now⟩)

/-- Removes a file or a link. -/
def remove (t : Tree) (p : Path) : Except Fault Tree :=
  match t.locate .itself p with
  | .error fault => .error fault
  | .ok spot =>
    -- Only a path whose last step is a name leads to something that can be removed.
    if !endsInName p then .error (.system .isFolder)
    else
      match spot with
      | .vacant _ _ => .error (.system .noEntry)
      | .taken place o =>
        if p.endsInSlash && !o.isFolder then .error (.system .notFolder)
        else if !p.endsInSlash && !t.mayChange place.dropLast then .error (.system .denied)
        else if o.isFolder then .error (.system .isFolder)
        else .ok (t.erase place)

/-- The file that is started under a path. It is run and not opened, so it need not be one that
may be read. -/
def program (t : Tree) (p : Path) : Except Fault File :=
  match t.find p with
  | .error fault => .error fault
  | .ok (_, .file f) =>
    if (Object.file f).maySearch then .ok f else .error (.system .denied)
  | .ok _ => .error (.system .denied)

/-- Creates a folder where nothing stands yet. -/
def makeFolder (t : Tree) (p : Path) : Except Fault Tree :=
  match t.locate .itself p with
  | .error fault => .error fault
  | .ok (.taken _ _) => .error (.system .exists)
  | .ok (.vacant folder name) => t.add folder (.text name) (.folder folderMode)

/-- Creates a folder, and first the folders on the way to it, of which `above` is the list with
the nearest one first. The folders that were created stay when the call fails. -/
def makeFoldersBelow (t : Tree) (p : Path) : (above : List Path) → Except Fault Unit × Tree
  | [] =>
    match t.makeFolder p with
    | .ok t => (.ok (), t)
    -- A folder that is there after all is as good as one that was made.
    | .error fault => if t.isFolder p then (.ok (), t) else (.error fault, t)
  | parent :: above =>
    match t.makeFolder p with
    | .ok t => (.ok (), t)
    | .error (.system .noEntry) =>
      match t.makeFoldersBelow parent above with
      | (.error fault, t) => (.error fault, t)
      | (.ok (), t) =>
        match t.makeFolder p with
        | .ok t => (.ok (), t)
        | .error fault => if t.isFolder p then (.ok (), t) else (.error fault, t)
    | .error fault => if t.isFolder p then (.ok (), t) else (.error fault, t)

/-- Creates a folder and all that are missing on the way to it. -/
def makeFolders (t : Tree) (p : Path) : Except Fault Unit × Tree :=
  t.makeFoldersBelow p p.ancestors

/-- Sets the permissions of a file or a folder. -/
def setMode (t : Tree) (p : Path) (mode : Nat) : Except Fault Tree :=
  match t.find p with
  | .error fault => .error fault
  | .ok (place, .file f) => .ok (t.put place (.file { f with mode := mode }))
  | .ok (place, _) => .ok (t.put place (.folder mode))

/-- Copies a file over another one, or to where nothing stands yet. The permissions come along.
A file that is copied over itself is empty afterwards. -/
def copy (t : Tree) (source target : Path) (now : Instant) : Except Fault Tree :=
  match t.opened source with
  | .error fault => .error fault
  | .ok (_, .file f) =>
    -- The target is emptied before the source is read: the two may be one file.
    match t.write target ByteArray.empty now with
    | .error fault => .error fault
    | .ok t =>
      match t.read source with
      | .error fault => .error fault
      | .ok content =>
        match t.write target content now with
        | .error fault => .error fault
        | .ok t => t.setMode target f.mode
  | .ok _ => .error .notRegular

/-- The files and other objects in a folder; a file has none. -/
def visit (t : Tree) (p : Path) : Except Fault (List (Name × Object)) :=
  match t.find p with
  | .error fault => .error fault
  | .ok (place, .folder mode) =>
    if (Object.folder mode).mayRead then .ok (t.children place) else .error (.system .denied)
  | .ok _ => .ok []

end Tree
end Files
end JobSpool
