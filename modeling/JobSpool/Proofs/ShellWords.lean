/-
# What a shell makes of a worker's command line

`shell_quote` and `build`: `SPEC_FULL.md`, 6, "this whole compound command is handed to the
Scheduler Binding as one opaque string".

`Shell.quote` writes a word and `Shell.commands` reads a line, and here the two are put
together.  A quoted word is read back as that word in whatever it stands
(`read_quoteChars`): a word of safe characters one character at a time
(`read_allSafe`), any other word between its apostrophes (`read_true_escape`), where
each apostrophe of the word leaves the quotation and enters it again.

From there it is a matter of what stands between the words.  Words with a blank between
them and a terminator behind are one command (`read_typed`), so the line of a worker is
exactly two commands, the call of the worker and the removal of its input
(`commands_workerLine`), whatever the executable, the arguments and the paths hold.
-/

import JobSpool.Scheduler.Facility
import JobSpool.WorkerCommand

namespace JobSpool
namespace Shell

namespace Reading

/-- Adds characters to the current word, which starts with them if none has started. -/
def extend (r : Reading) (cs : List Char) : Reading :=
  { r with word := some (r.word.getD [] ++ cs) }

/-- Adding no character starts a word. -/
theorem extend_nil (r : Reading) : r.extend [] = r.start := by
  simp [extend, start]

/-- A word that is added to was started. -/
theorem extend_start (r : Reading) (cs : List Char) : r.start.extend cs = r.extend cs := by
  simp [extend, start]

/-- Characters are added to a word one after another. -/
theorem extend_push (r : Reading) (c : Char) (cs : List Char) :
    (r.push c).extend cs = r.extend (c :: cs) := by
  simp [extend, push]

end Reading

/-! ### One character at a time -/

/-- An apostrophe ends a quotation. -/
theorem read_true_apostrophe (r : Reading) (cs : List Char) :
    read true r ('\'' :: cs) = read false r cs := by
  rw [read.eq_def]; simp

/-- Inside a quotation any other character stands for itself. -/
theorem read_true_of_ne (r : Reading) {c : Char} (h : c ≠ '\'') (cs : List Char) :
    read true r (c :: cs) = read true (r.push c) cs := by
  rw [read.eq_def]; simp [h]

/-- An apostrophe starts a quotation, and a word if there is none. -/
theorem read_apostrophe (r : Reading) (cs : List Char) :
    read false r ('\'' :: cs) = read true r.start cs := by
  rw [read.eq_def]; simp

/-- A blank ends a word. -/
theorem read_blank (r : Reading) (cs : List Char) :
    read false r (' ' :: cs) = read false r.endWord cs := by
  rw [read.eq_def]; simp

/-- A semicolon ends a command, and so does a line feed. -/
theorem read_terminator (r : Reading) {c : Char} (h : c = ';' ∨ c = '\n') (cs : List Char) :
    read false r (c :: cs) = read false r.endCommand cs := by
  rcases h with rfl | rfl <;> rw [read.eq_def] <;> simp

/-- A backslash makes the next character stand for itself. -/
theorem read_backslash (r : Reading) (c : Char) (cs : List Char) :
    read false r ('\\' :: c :: cs) = read false (r.push c) cs := by
  rw [read.eq_def]; simp

/-- A safe character stands for itself. -/
theorem read_safe (r : Reading) {c : Char} (h : isSafe c = true) (cs : List Char) :
    read false r (c :: cs) = read false (r.push c) cs := by
  have hne : c ≠ '\'' ∧ c ≠ ' ' ∧ c ≠ '\t' ∧ c ≠ ';' ∧ c ≠ '\n' ∧ c ≠ '\\' := by
    refine ⟨?_, ?_, ?_, ?_, ?_, ?_⟩ <;> rintro rfl <;> exact absurd h (by decide)
  obtain ⟨h₁, h₂, h₃, h₄, h₅, h₆⟩ := hne
  rw [read.eq_def]
  simp [h, h₁, h₂, h₃, h₄, h₅, h₆]

/-! ### One word at a time -/

/-- A word of safe characters is read as it stands. -/
theorem read_allSafe (r : Reading) {cs : List Char} (hne : cs ≠ [])
    (h : ∀ c ∈ cs, isSafe c = true) (rest : List Char) :
    read false r (cs ++ rest) = read false (r.extend cs) rest := by
  induction cs generalizing r with
  | nil => exact absurd rfl hne
  | cons c cs ih =>
    rw [List.cons_append, read_safe r (h c List.mem_cons_self), ← r.extend_push]
    cases cs with
    | nil => rw [Reading.extend_nil]; rfl
    | cons d ds => exact ih (r.push c) (by simp) fun e he => h e (List.mem_cons_of_mem c he)

/-- The text between the apostrophes gives the word back, and the apostrophe that ends it is the
one behind the text. -/
theorem read_true_escape (r : Reading) (cs rest : List Char) :
    read true r.start (escape cs ++ '\'' :: rest) = read false (r.extend cs) rest := by
  induction cs generalizing r with
  | nil => rw [Reading.extend_nil]; exact read_true_apostrophe r.start rest
  | cons c cs ih =>
    have hpush : (r.start.push c).start = r.start.push c := by
      simp [Reading.start, Reading.push]
    have hext : (r.start.push c).extend cs = r.extend (c :: cs) := by
      rw [Reading.extend_push, Reading.extend_start]
    by_cases hc : c = '\''
    · subst hc
      have hleave : read true r.start (escape ('\'' :: cs) ++ '\'' :: rest)
          = read true (r.start.push '\'').start (escape cs ++ '\'' :: rest) := by
        rw [escape, List.cons_append, List.cons_append, List.cons_append, List.cons_append,
          read_true_apostrophe, read_backslash, read_apostrophe]
      rw [hleave, ih, hext]
    · have hesc : escape (c :: cs) = c :: escape cs := by
        rw [escape]; simpa using hc
      rw [hesc, List.cons_append, read_true_of_ne r.start hc, ← hpush, ih, hext]

/-- **A quoted word is read back as that word,** in whatever it stands. -/
theorem read_quoteChars (r : Reading) (cs rest : List Char) :
    read false r (quoteChars cs ++ rest) = read false (r.extend cs) rest := by
  unfold quoteChars
  split
  · rename_i h
    simp only [Bool.and_eq_true, Bool.not_eq_true', List.isEmpty_eq_false_iff,
      List.all_eq_true] at h
    exact read_allSafe r h.1 h.2 rest
  · rw [List.cons_append, List.cons_append, List.append_assoc, List.cons_append, List.nil_append,
      read_apostrophe, read_true_escape]

/-- Words are quoted character by character. -/
theorem toList_quote (word : String) : (quote word).toList = quoteChars word.toList :=
  String.toList_ofList

/-- No word is quoted to nothing, not even the empty one. -/
theorem quoteChars_ne_nil (cs : List Char) : quoteChars cs ≠ [] := by
  unfold quoteChars
  split <;> simp_all

/-- A quoted word does not end in a line feed: that one would stand between apostrophes. -/
theorem getLast?_quoteChars_ne_lineFeed (cs : List Char) :
    (quoteChars cs).getLast? ≠ some '\n' := by
  unfold quoteChars
  split
  · rename_i h
    simp only [Bool.and_eq_true, List.all_eq_true] at h
    intro hlast
    exact absurd (h.2 _ (List.mem_of_getLast? hlast)) (by decide)
  · rw [List.getLast?_append]
    simp

/-- **A word of safe characters needs no quotation.** -/
theorem quote_eq_self {word : String} (hne : word.toList ≠ [])
    (h : ∀ c ∈ word.toList, isSafe c = true) : quote word = word := by
  have hsame : quoteChars word.toList = word.toList := by
    unfold quoteChars
    rw [if_pos]
    simpa [hne] using h
  rw [quote, hsame, String.ofList_toList]

/-- A digit is safe. -/
theorem isSafe_of_isDigit {c : Char} (h : c.isDigit = true) : isSafe c = true := by
  simp [isSafe, Char.isAlphanum, h]

/-! ### One command at a time -/

/-- The words of a command as they are typed: quoted, with a blank between them. -/
def typed (words : List String) : List Char :=
  [' '].intercalate (words.map fun word => quoteChars word.toList)

/-- Words are typed with a blank between them. -/
theorem typed_cons_cons (word next : String) (words : List String) :
    typed (word :: next :: words)
      = quoteChars word.toList ++ ' ' :: typed (next :: words) := by
  simp [typed]

/-- Joining quoted words with blanks is typing them. -/
theorem toList_intercalate_quote (words : List String) :
    (" ".intercalate (words.map quote)).toList = typed words := by
  rw [String.toList_intercalate, List.map_map]
  congr 1
  exact List.map_congr_left fun word _ => toList_quote word

/-- Typed words are read one after another, and only the last of them has not ended. -/
theorem exists_read_typed (word : String) (words : List String) (r : Reading)
    (hr : r.word = none) (rest : List Char) :
    ∃ r' : Reading, read false r (typed (word :: words) ++ rest) = read false r' rest ∧
      r'.endWord = { r with words := r.words ++ (word :: words).map String.toList } := by
  induction words generalizing word r with
  | nil =>
    refine ⟨r.extend word.toList, ?_, ?_⟩
    · simpa [typed] using read_quoteChars r word.toList rest
    · simp [Reading.extend, Reading.endWord, hr]
  | cons next words ih =>
    have hend : (r.extend word.toList).endWord = { r with words := r.words ++ [word.toList] } := by
      simp [Reading.extend, Reading.endWord, hr]
    obtain ⟨r', hread, hr'⟩ := ih next { r with words := r.words ++ [word.toList] } hr
    refine ⟨r', ?_, ?_⟩
    · rw [typed_cons_cons, List.append_assoc, List.cons_append, read_quoteChars, read_blank, hend,
        hread]
    · rw [hr']; simp

/-- **Typed words with a terminator behind them are one command.** -/
theorem read_typed (word : String) (words : List String) (done : List (List (List Char)))
    {c : Char} (hc : c = ';' ∨ c = '\n') (rest : List Char) :
    read false { commands := done } (typed (word :: words) ++ c :: rest)
      = read false { commands := done ++ [(word :: words).map String.toList] } rest := by
  obtain ⟨r, hread, hend⟩ := exists_read_typed word words { commands := done } rfl (c :: rest)
  rw [hread, read_terminator r hc]
  congr 1
  simp [Reading.endCommand, hend]

end Shell

namespace WorkerCommand

/-- The words with which a worker is called, before any quoting. -/
def argv (worker : WorkerConfig) (kind : JobKind) (folder input : Path) : List String :=
  worker.executable :: worker.args ++ ["-j", folder.text] ++
    (match kind with
      | .profile => []
      | .ping retryCount pauseMillis =>
        ["-r" ++ retryCount.toNat.repr, "-p" ++ pauseMillis.toNat.repr]) ++
    [input.text]

/-- A flag with a number needs no quotation. -/
theorem quote_flag {flag : String} (n : Nat) (hne : flag.toList ≠ [])
    (h : ∀ c ∈ flag.toList, Shell.isSafe c = true) :
    Shell.quote (flag ++ n.repr) = flag ++ n.repr := by
  refine Shell.quote_eq_self (by simp [hne]) fun c hc => ?_
  rw [String.toList_append, List.mem_append, Nat.toList_repr] at hc
  rcases hc with hc | hc
  · exact h c hc
  · exact Shell.isSafe_of_isDigit (Nat.isDigit_of_mem_toDigits (by decide) (by decide) hc)

/-- The arguments that a kind of job adds need no quotation. -/
theorem map_quote_kindArgs (kind : JobKind) :
    (kindArgs kind).map Shell.quote = kindArgs kind := by
  cases kind with
  | profile => rfl
  | ping retryCount pauseMillis =>
    simp only [kindArgs, Text.writeCount, List.map_cons, List.map_nil]
    have hsafe : ∀ c ∈ "-r".toList ++ "-p".toList, Shell.isSafe c = true :=
      List.all_eq_true.1 (by decide)
    rw [quote_flag _ (by decide) fun c hc => hsafe c (List.mem_append_left _ hc),
      quote_flag _ (by decide) fun c hc => hsafe c (List.mem_append_right _ hc)]

/-- The line of a worker holds the typed words of two commands. -/
theorem toList_line (worker : WorkerConfig) (kind : JobKind) (folder input : Path) :
    (line worker kind folder input).toList
      = Shell.typed (argv worker kind folder input) ++
        ';' :: ' ' :: Shell.typed ["rm", "-f", input.text] := by
  have hargs : argv worker kind folder input
      = [worker.executable] ++ worker.args ++ ["-j", folder.text] ++ kindArgs kind ++
        [input.text] := by
    cases kind <;> simp [argv, kindArgs, Text.writeCount]
  have hj : Shell.quote "-j" = "-j" :=
    Shell.quote_eq_self (by decide) (List.all_eq_true.1 (by decide))
  have hrun : (argv worker kind folder input).map Shell.quote
      = [Shell.quote worker.executable] ++ worker.args.map Shell.quote ++
        ["-j", Shell.quote folder.text] ++ kindArgs kind ++ [Shell.quote input.text] := by
    rw [hargs]
    simp [map_quote_kindArgs, hj]
  have hrm : Shell.typed ["rm", "-f", input.text]
      = "rm -f ".toList ++ (Shell.quote input.text).toList := by
    rw [← Shell.toList_intercalate_quote]
    have h₁ : Shell.quote "rm" = "rm" :=
      Shell.quote_eq_self (by decide) (List.all_eq_true.1 (by decide))
    have h₂ : Shell.quote "-f" = "-f" :=
      Shell.quote_eq_self (by decide) (List.all_eq_true.1 (by decide))
    simp [h₁, h₂]
  rw [hrm, ← Shell.toList_intercalate_quote, hrun, line]
  simp

/-- A worker's line ends in a quoted word, so the facility always adds the line feed. -/
theorem script_line (worker : WorkerConfig) (kind : JobKind) (folder input : Path) :
    Facility.script (line worker kind folder input) = line worker kind folder input ++ "\n" := by
  have hlast : (line worker kind folder input).toList.getLast? ≠ some '\n' := by
    rw [line, String.toList_append, Shell.toList_quote input.text, List.getLast?_append, Ne,
      Option.or_eq_some_iff, List.getLast?_eq_none_iff]
    rintro (h | ⟨h, -⟩)
    · exact Shell.getLast?_quoteChars_ne_lineFeed input.text.toList h
    · exact Shell.quoteChars_ne_nil input.text.toList h
  rw [Facility.script, if_neg (by simpa using hlast)]

/-- **No word of a worker's line is lost and none is added,** and nothing in a word means
anything to the shell.  As a script, the line is read without an error and with every
quotation closed, and it is two commands: the call of the worker with exactly its words, and
the removal of the input. -/
theorem commands_workerLine (worker : WorkerConfig) (kind : JobKind) (folder input : Path) :
    Facility.script (line worker kind folder input) = line worker kind folder input ++ "\n" ∧
      Shell.commands (line worker kind folder input ++ "\n").toList
        = some [(argv worker kind folder input).map String.toList,
            ["rm", "-f", input.text].map String.toList] := by
  refine ⟨script_line worker kind folder input, ?_⟩
  have hblank : ∀ (r : Shell.Reading) (cs : List Char), r.word = none →
      Shell.read false r (' ' :: cs) = Shell.read false r cs := by
    intro r cs hr
    rw [Shell.read_blank]
    congr 1
    cases r; simp_all [Shell.Reading.endWord]
  obtain ⟨args, hargs⟩ : ∃ args, argv worker kind folder input = worker.executable :: args :=
    ⟨_, rfl⟩
  rw [String.toList_append, toList_line, hargs, Shell.commands, List.append_assoc,
    List.cons_append, List.cons_append]
  rw [Shell.read_typed _ _ [] (Or.inl rfl), hblank _ _ rfl, show "\n".toList = ['\n'] from rfl,
    Shell.read_typed _ _ _ (Or.inr rfl)]
  simp [Shell.read, Shell.Reading.endCommand, Shell.Reading.endWord]

end WorkerCommand
end JobSpool
