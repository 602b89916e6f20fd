/-
# Principals

`Principal`: `SPEC_FULL.md`, 3.

A principal owns one folder below the job root, named after the principal. So the name
has to be plain, and it always is: the type holds no other names.
-/

import JobSpool.Error
import JobSpool.FileName

namespace JobSpool

/-- The owner of a folder below the job root. -/
structure Principal where
  name : String
  isPlain : FileName.isPlain name = true
  deriving DecidableEq

namespace Principal

/-- The principal with a given name, if the name is plain. -/
def ofName (name : String) : Except StorageError Principal :=
  if h : FileName.isPlain name = true then .ok ⟨name, h⟩ else .error (.invalidName name)

/-- **A name is refused exactly when it is not plain.** -/
theorem ofName_eq_error_iff {name : String} {e : StorageError} :
    ofName name = .error e ↔ FileName.isPlain name = false ∧ e = .invalidName name := by
  unfold ofName
  split
  · simp [*]
  · rename_i h
    simpa [h] using eq_comm

end Principal
end JobSpool
