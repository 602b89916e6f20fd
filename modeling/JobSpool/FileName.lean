/-
# File names

`split_file_name`, `is_plain_component` and `upload_stem`: `SPEC_FULL.md`, 4.1 and 6.

Everything that belongs to a job is a file whose name is the job's stem, or the stem,
a dot and an extension. `split` cuts a name at its last dot; a name without a
dot, or whose only dot is in front, is all stem. `ofParts` puts the parts together
again (`ofParts_split`).

A *plain* name can stand as one step of a path: it is not empty, does not start with
a dot, and holds no slash, backslash or null character. `uploadStem` reduces the name
of an uploaded file to a plain stem of letters, digits, hyphens and underscores.
-/

import JobSpool.Path

namespace JobSpool
namespace FileName

/-- Is the character impossible in a plain name? -/
def isSeparator (c : Char) : Bool :=
  c = '/' || c = '\\' || c = '\x00'

/-- `is_plain_component`: can the name stand for exactly one visible file of a folder? -/
def isPlain (name : String) : Bool :=
  match name.toList with
  | [] => false
  | c :: cs => c != '.' && !(c :: cs).any isSeparator

/-- The characters in front of the last dot; none when there is no dot. -/
def stemChars (cs : List Char) : List Char :=
  ((cs.reverse.dropWhile (· != '.')).drop 1).reverse

/-- The characters after the last dot; all of them when there is no dot. -/
def extensionChars (cs : List Char) : List Char :=
  (cs.reverse.takeWhile (· != '.')).reverse

/-- **The last dot stands between the stem and the extension.** -/
theorem stemChars_append {cs : List Char} (h : stemChars cs ≠ []) :
    stemChars cs ++ '.' :: extensionChars cs = cs := by
  cases hd : cs.reverse.dropWhile (· != '.') with
  | nil => simp [stemChars, hd] at h
  | cons d ds =>
    have hdot : d = '.' := by
      have := List.head?_dropWhile_not (· != '.') cs.reverse
      simpa [hd] using this
    have := List.takeWhile_append_dropWhile (p := (· != '.')) (l := cs.reverse)
    rw [hd, hdot] at this
    have := congrArg List.reverse this
    simpa [stemChars, extensionChars, hd] using this

/-- `split_file_name`: the stem and the extension of a name. -/
def split (name : String) : String × Option String :=
  if stemChars name.toList = [] then (name, none)
  else (String.ofList (stemChars name.toList), some (String.ofList (extensionChars name.toList)))

/-- The name with a stem and an extension. -/
def ofParts (stem : String) : Option String → String
  | none => stem
  | some extension => stem ++ "." ++ extension

/-- A name is longer than its stem by the dot and the extension. -/
theorem utf8ByteSize_ofParts (stem extension : String) :
    (ofParts stem (some extension)).utf8ByteSize
      = stem.utf8ByteSize + 1 + extension.utf8ByteSize := by
  have hdot : ".".utf8ByteSize = 1 := rfl
  rw [ofParts, String.utf8ByteSize_append, String.utf8ByteSize_append, hdot]

/-- **A name is put together again from its parts.** -/
theorem ofParts_split (name : String) : ofParts (split name).1 (split name).2 = name := by
  unfold split
  split
  · rfl
  · rename_i h
    apply String.toList_injective
    simpa [ofParts] using stemChars_append h

/-- The stem of the name at the end of a path. -/
def stemOf (path : Path) : Option String :=
  path.fileName.map fun name => (split name).1

/-- Does the character stay in the stem of an upload? -/
def isKept (c : Char) : Bool :=
  c.isAlphanum || c = '-' || c = '_'

/-- The characters without the underscores at either end. -/
def trimUnderscores (cs : List Char) : List Char :=
  ((cs.dropWhile (· == '_')).reverse.dropWhile (· == '_')).reverse

/-- `upload_stem`: the stem of the jobs made from an upload with the given name. Any character that
is not kept becomes an underscore, and there are none at the ends. Nothing when nothing is
left. -/
def uploadStem (name : String) : Option String :=
  let stem := (stemOf ⟨name⟩).getD ""
  let cleaned := trimUnderscores (stem.toList.map fun c => if isKept c then c else '_')
  if cleaned.isEmpty then none else some (String.ofList cleaned)

end FileName
end JobSpool
