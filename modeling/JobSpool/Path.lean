/-
# Paths

Paths as they are joined and taken apart, with `redact_path` (`SPEC_FULL.md`, E3).

A path is a text whose steps are separated by slashes. `pieces` cuts at every slash, so
that the pieces of two texts with a slash between them are the pieces of the one
followed by those of the other (`pieces_append_slash`); each piece that is not empty
is a `Step`: to stay, to go up, or to go down to a name.

`trail` is what makes two paths look alike in a trace: the steps without those that
stay, except that a path may start by staying. It also tells the last name of a
path (`fileName`), the folders on the way (`ancestors`), and nothing about whether
the path starts at the root.
-/

import JobSpool.Text.Blank
import JobSpool.Text.Order

namespace JobSpool

/-- A path, as it was given. -/
structure Path where
  text : String
  deriving DecidableEq, Repr

namespace Path

/-- One step of a path. -/
inductive Step where
  /-- A single dot. -/
  | stay
  /-- Two dots. -/
  | up
  /-- Any other name. -/
  | down (name : String)
  deriving DecidableEq, Repr

namespace Step

/-- The step that a piece between slashes stands for. -/
def ofPiece? : List Char → Option Step
  | [] => none
  | ['.'] => some stay
  | ['.', '.'] => some up
  | cs => some (down (String.ofList cs))

/-- The piece between slashes that stands for a step. -/
def text : Step → String
  | stay => "."
  | up => ".."
  | down name => name

end Step

/-- The pieces of a text between its slashes, empty ones included. -/
def pieces : List Char → List (List Char)
  | [] => [[]]
  | c :: cs => if c = '/' then [] :: pieces cs else Text.extendFirst c (pieces cs)

/-- Cutting a text leaves at least one piece, which may be empty. -/
theorem pieces_ne_nil (cs : List Char) : pieces cs ≠ [] := by
  cases cs with
  | nil => simp [pieces]
  | cons c cs =>
    rw [pieces]
    split
    · simp
    · cases h : pieces cs <;> simp [Text.extendFirst]

/-- **Cutting at slashes distributes over a slash.** -/
theorem pieces_append_slash (a b : List Char) :
    pieces (a ++ '/' :: b) = pieces a ++ pieces b := by
  induction a with
  | nil => simp [pieces]
  | cons c a ih =>
    by_cases h : c = '/'
    · simp [pieces, h, ih]
    · cases hp : pieces a with
      | nil => exact absurd hp (pieces_ne_nil a)
      | cons p ps => simp [pieces, h, ih, hp, Text.extendFirst]

/-- **A text without a slash is one piece.** -/
theorem pieces_eq_singleton {cs : List Char} (h : '/' ∉ cs) : pieces cs = [cs] := by
  induction cs with
  | nil => rfl
  | cons c cs ih =>
    have hc : c ≠ '/' := fun e => h (e ▸ List.mem_cons_self)
    have hcs : '/' ∉ cs := fun m => h (List.mem_cons_of_mem _ m)
    simp [pieces, hc, ih hcs, Text.extendFirst]

/-- Does the path start at the root? -/
def isAbsolute (p : Path) : Bool :=
  p.text.toList.head? == some '/'

/-- Does the path end in a slash? Then it means a folder. -/
def endsInSlash (p : Path) : Bool :=
  p.text.toList.getLast? == some '/'

/-- The steps of a path, in order. -/
def steps (p : Path) : List Step :=
  (pieces p.text.toList).filterMap Step.ofPiece?

/-- The steps that make a path what it is. -/
def trail (p : Path) : List Step :=
  let rest := p.steps.filter (· != .stay)
  if (pieces p.text.toList).head? == some ['.'] then .stay :: rest else rest

/-- The name at the end of a path, if a name is what it ends in. -/
def fileName (p : Path) : Option String :=
  match p.trail.getLast? with
  | some (.down name) => some name
  | _ => none

/-- `redact_path`: the name a trace shows for a path, never more than its last name. -/
def shownName (p : Path) : String :=
  p.fileName.getD "<unknown>"

/-- The position of the first path of a list that is alike in a trace. -/
def firstAlike (p : Path) (paths : List Path) : Option Nat :=
  paths.findIdx? fun q => q.trail == p.trail

/-- The path to `other` from a folder. An `other` that starts at the root stands for itself. -/
def join (folder : Path) (other : String) : Path :=
  if (Path.mk other).isAbsolute || folder.text.isEmpty then ⟨other⟩
  else if folder.endsInSlash then ⟨folder.text ++ other⟩
  else ⟨folder.text ++ "/" ++ other⟩

/-- The path with the given steps. -/
def ofTrail (absolute : Bool) (trail : List Step) : Path :=
  ⟨(if absolute then "/" else "") ++ "/".intercalate (trail.map Step.text)⟩

/-- The folders on the way to a path, the nearest one first. -/
def ancestors (p : Path) : List Path :=
  let trail := p.trail
  let above := (List.range trail.length).reverse
  let above := if p.isAbsolute then above else above.filter (· != 0)
  above.map fun n => ofTrail p.isAbsolute (trail.take n)

end Path
end JobSpool
