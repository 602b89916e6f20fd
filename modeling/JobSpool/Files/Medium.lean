/-
# The medium under a tree

The I/O failures that every `StorageError` of `SPEC_FULL.md`, 7 and E2, is about.

A tree says what its owner may do. Whether that is carried out is up to the medium that the
files are on: it may be full, over a quota, mounted for reading only, or broken. Then it
refuses calls that the tree allows, for causes of its own (`Medium.refusal?`).

A call that is refused leaves the tree as it was, with one exception: the writing of a file
may be broken off in the middle, and then the file holds whatever was kept of it
(`Medium.breakOff`).
-/

import JobSpool.Files.Tree

namespace JobSpool
namespace Files

/-- A call that changes what is stored. -/
inductive Access where
  /-- A folder is made, and first those that are missing on the way to it. -/
  | makeFolder
  | create
  | write
  | copy
  | setMode
  | remove
  deriving DecidableEq, Repr

/-- What becomes of calls that a tree allows. -/
structure Medium where
  /-- Why a call on a path is refused, if it is. -/
  refusal? : Access → Path → Option OsError
  /-- The file under a path after its writing was broken off, if it changed by then. -/
  left? : Path → Option File

namespace Medium

/-- A medium that carries out every call. -/
def intact : Medium :=
  ⟨fun _ _ => none, fun _ => none⟩

variable {α : Type}

/-- The outcome of a call that a tree has answered. -/
def allow (m : Medium) (access : Access) (p : Path) : Except Fault α → Except Fault α
  | .error fault => .error fault
  | .ok answer =>
    match m.refusal? access p with
    | none => .ok answer
    | some cause => .error (.system cause)

/-- A medium that refuses nothing passes every answer on. -/
@[simp] theorem allow_intact (access : Access) (p : Path) (answer : Except Fault α) :
    intact.allow access p answer = answer := by
  cases answer <;> rfl

/-- **A medium grants only what a tree grants.** -/
theorem eq_ok_of_allow {m : Medium} {access : Access} {p : Path} {answer : Except Fault α} {a : α}
    (h : m.allow access p answer = .ok a) : answer = .ok a := by
  cases answer with
  | error fault => cases h
  | ok a' =>
    rw [allow] at h
    split at h
    · exact h
    · cases h

/-- Creates a folder and all that are missing on the way to it. -/
def makeFolders (m : Medium) (t : Tree) (p : Path) : Except Fault Unit × Tree :=
  match m.refusal? .makeFolder p with
  | none => t.makeFolders p
  | some cause => (.error (.system cause), t)

/-- On a medium that refuses nothing, folders are made as the tree allows it. -/
@[simp] theorem makeFolders_intact (t : Tree) (p : Path) :
    intact.makeFolders t p = t.makeFolders p :=
  rfl

/-- Writes a file anew. -/
def write (m : Medium) (t : Tree) (p : Path) (content : ByteArray) (now : Instant) :
    Except Fault Tree :=
  m.allow .write p (t.write p content now)

/-- Copies a file over another one. -/
def copy (m : Medium) (t : Tree) (source target : Path) (now : Instant) : Except Fault Tree :=
  m.allow .copy target (t.copy source target now)

/-- Sets the permissions of a file or a folder. -/
def setMode (m : Medium) (t : Tree) (p : Path) (mode : Nat) : Except Fault Tree :=
  m.allow .setMode p (t.setMode p mode)

/-- The tree after the writing of a file was broken off. -/
def breakOff (m : Medium) (t : Tree) (p : Path) : Tree :=
  match m.left? p, t.find p with
  | some f, .ok (place, .file _) => t.put place (.file f)
  | _, _ => t

end Medium
end Files
end JobSpool
