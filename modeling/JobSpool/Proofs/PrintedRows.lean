/-
# No row of a listing is lost

`parse_atq_listing`: `SPEC_FULL.md`, 6 (the text format of the queue listing) and E9.

A listing may be cut at any line feed: its entries are those of the two parts, one behind the other
(`PendingQueue.entries_append`).  This holds of all texts, also where a carriage return stands in
front of the line feed, which then belongs to it.

A `Row` is a line of fields with gaps between them, and perhaps blanks in front.  However wide the
gaps are, it is read as its fields (`Row.fields_line`).  So a listing of rows, with blank lines
among them, is read as one entry for each row, whether or not a line feed ends the last line
(`PendingQueue.no_row_is_lost`).
-/

import JobSpool.Proofs.ListingLines

namespace JobSpool

namespace Text

/-! ### Lines -/

/-- A text that is not empty has a line. -/
theorem lines_ne_nil {cs : List Char} (h : cs ≠ []) : lines cs ≠ [] := by
  have hextend : ∀ c words, extendFirst c words ≠ [] := fun c words => by
    cases words <;> exact List.cons_ne_nil _ _
  unfold lines
  split
  · exact absurd rfl h
  · exact List.cons_ne_nil _ _
  · exact List.cons_ne_nil _ _
  · exact hextend _ _

/-- A character in front of the first word leaves the words behind it alone. -/
theorem extendFirst_append {words : List (List Char)} (h : words ≠ []) (c : Char)
    (more : List (List Char)) : extendFirst c (words ++ more) = extendFirst c words ++ more := by
  cases words with
  | nil => exact absurd rfl h
  | cons word words => rfl

/-- A character that ends no line is in the first one. -/
theorem lines_cons {c : Char} {cs : List Char} (hfeed : c ≠ '\n')
    (hreturn : c = '\r' → cs.head? ≠ some '\n') : lines (c :: cs) = extendFirst c (lines cs) := by
  rw [lines]
  · exact hfeed
  · rintro rest hc rfl
    exact hreturn hc rfl

/-- **A text may be cut behind any line feed.** -/
theorem lines_append_feed (a b : List Char) :
    lines (a ++ '\n' :: b) = lines (a ++ ['\n']) ++ lines b := by
  induction a using lines.induct with
  | case1 => rfl
  | case2 cs ih => rw [List.cons_append, List.cons_append, lines, lines, ih, List.cons_append]
  | case3 cs ih =>
    simp only [List.cons_append]
    rw [lines, lines, ih, List.cons_append]
  | case4 c cs hfeed hreturn ih =>
    cases cs with
    | nil =>
      -- A carriage return right in front of the cut goes with the line feed, on both sides.
      by_cases hc : c = '\r'
      · subst hc
        rfl
      · have hcons : ∀ rest, lines (c :: '\n' :: rest) = extendFirst c (lines ('\n' :: rest)) :=
          fun rest => lines_cons hfeed fun h => absurd h hc
        simp only [List.cons_append, List.nil_append, hcons]
        rfl
    | cons d cs =>
      have hcons : ∀ rest, lines (c :: d :: cs ++ rest) = extendFirst c (lines (d :: cs ++ rest)) :=
        fun rest => lines_cons hfeed fun hc hd => hreturn cs hc (by rw [Option.some.inj hd])
      rw [hcons, hcons, ih, extendFirst_append]
      exact lines_ne_nil (List.cons_ne_nil _ _)

/-- Characters without a line feed are one line. -/
theorem lines_eq_singleton {line : List Char} (hne : line ≠ []) (h : '\n' ∉ line) :
    lines line = [line] := by
  induction line with
  | nil => exact absurd rfl hne
  | cons c line ih =>
    rw [List.mem_cons, not_or] at h
    have hhead : line.head? ≠ some '\n' := fun hhead => h.2 (List.mem_of_mem_head? hhead)
    rw [lines_cons (fun hc => h.1 hc.symm) fun _ => hhead]
    cases line with
    | nil => rfl
    | cons d line => rw [ih (List.cons_ne_nil _ _) h.2, extendFirst]

/-- A character of a word is the one that was put in front, or was there before. -/
theorem mem_of_mem_extendFirst {c d : Char} {words : List (List Char)} {word : List Char}
    (hword : word ∈ extendFirst c words) (hd : d ∈ word) :
    d = c ∨ ∃ word' ∈ words, d ∈ word' := by
  cases words with
  | nil =>
    obtain rfl := List.mem_singleton.1 hword
    exact Or.inl (List.mem_singleton.1 hd)
  | cons first words =>
    rcases List.mem_cons.1 hword with rfl | hword
    · exact (List.mem_cons.1 hd).imp_right fun hd => ⟨first, List.mem_cons_self, hd⟩
    · exact Or.inr ⟨word, List.mem_cons_of_mem _ hword, hd⟩

/-- A line has no characters but those of the text. -/
theorem mem_of_mem_lines {cs line : List Char} {c : Char} (hline : line ∈ lines cs)
    (hc : c ∈ line) : c ∈ cs := by
  induction cs using lines.induct generalizing line with
  | case1 => cases hline
  | case2 cs ih =>
    rw [lines] at hline
    rcases List.mem_cons.1 hline with rfl | hline
    · cases hc
    · exact List.mem_cons_of_mem _ (ih hline hc)
  | case3 cs ih =>
    rw [lines] at hline
    rcases List.mem_cons.1 hline with rfl | hline
    · cases hc
    · exact List.mem_cons_of_mem _ (List.mem_cons_of_mem _ (ih hline hc))
  | case4 d cs hfeed hreturn ih =>
    rw [lines] at hline
    · rcases mem_of_mem_extendFirst hline hc with rfl | ⟨line', hline', hc⟩
      · exact List.mem_cons_self
      · exact List.mem_cons_of_mem _ (ih hline' hc)
    · exact hfeed
    · exact hreturn

/-! ### Fields -/

/-- Blanks in front of the fields do not matter, whichever they are. -/
theorem fields_blanks_append {blanks : List Char} (h : ∀ b ∈ blanks, isBlank b = true)
    (cs : List Char) : fields (blanks ++ cs) = fields cs := by
  induction blanks with
  | nil => rfl
  | cons b blanks ih =>
    obtain ⟨hb, hmore⟩ := List.forall_mem_cons.1 h
    rw [List.cons_append, fields, if_pos hb, ih hmore]

/-- Blanks have no fields. -/
theorem fields_eq_nil {cs : List Char} (h : ∀ b ∈ cs, isBlank b = true) : fields cs = [] := by
  have hall := fields_blanks_append h []
  rwa [List.append_nil] at hall

/-- Are the characters blanks that end no line? -/
def IsSpacing (cs : List Char) : Prop :=
  ∀ c ∈ cs, isBlank c = true ∧ c ≠ '\n' ∧ c ≠ '\r'

/-- Spacing, as it can be tested: blanks that end no line. -/
theorem isSpacing_iff {cs : List Char} :
    IsSpacing cs ↔ cs.all (fun c => isBlank c && c != '\n' && c != '\r') = true := by
  simp [IsSpacing, and_assoc]

instance (cs : List Char) : Decidable (IsSpacing cs) :=
  decidable_of_iff _ isSpacing_iff.symm

end Text

/-! ### Rows -/

open Text (IsField IsSpacing)

/-- A row of a listing as it may be printed. -/
structure Row where
  /-- The blanks in front. -/
  indent : List Char := []
  first : List Char
  /-- The fields that follow, each with the gap in front of it. -/
  more : List (List Char × List Char)
  isSpacing_indent : IsSpacing indent := by decide
  isField_first : IsField first := by decide
  isSpacing_gaps : ∀ m ∈ more, m.1 ≠ [] ∧ IsSpacing m.1 := by decide
  isField_more : ∀ m ∈ more, IsField m.2 := by decide

namespace Row

/-- The row as it is printed. -/
def line (r : Row) : List Char :=
  r.indent ++ (r.first ++ r.more.flatMap fun m => m.1 ++ m.2)

/-- The fields of a row. -/
def fields (r : Row) : List (List Char) :=
  r.first :: r.more.map (·.2)

/-- Fields with gaps between them are those fields. -/
theorem fields_append_more {first : List Char} (hfirst : IsField first)
    {more : List (List Char × List Char)}
    (hgaps : ∀ m ∈ more, m.1 ≠ [] ∧ IsSpacing m.1) (hmore : ∀ m ∈ more, IsField m.2) :
    Text.fields (first ++ more.flatMap fun m => m.1 ++ m.2) = first :: more.map (·.2) := by
  induction more generalizing first with
  | nil => rw [List.flatMap_nil, List.append_nil, Text.fields_word hfirst.1 hfirst.2, List.map_nil]
  | cons m more ih =>
    obtain ⟨⟨hne, hgap⟩, hgaps⟩ := List.forall_mem_cons.1 hgaps
    obtain ⟨hfield, hmore⟩ := List.forall_mem_cons.1 hmore
    obtain ⟨b, gap, hm⟩ := List.exists_cons_of_ne_nil hne
    obtain ⟨hb, hgap⟩ := List.forall_mem_cons.1 (hm ▸ hgap)
    rw [List.flatMap_cons, hm, List.append_assoc, List.cons_append,
      Text.fields_append hfirst.1 hfirst.2 hb.1,
      Text.fields_blanks_append fun c hc => (hgap c hc).1, ih hfield hgaps hmore, List.map_cons]

/-- **A row is read as its fields,** however wide the gaps are. -/
theorem fields_line (r : Row) : Text.fields r.line = r.fields := by
  rw [line, Text.fields_blanks_append fun c hc => (r.isSpacing_indent c hc).1,
    fields_append_more r.isField_first r.isSpacing_gaps r.isField_more, fields]

/-- Nothing in a row ends a line. -/
theorem ne_of_mem_line (r : Row) : ∀ c ∈ r.line, c ≠ '\n' ∧ c ≠ '\r' := by
  intro c hc
  simp only [line, List.mem_append, List.mem_flatMap] at hc
  rcases hc with hc | hc | ⟨m, hm, hc | hc⟩
  · exact (r.isSpacing_indent c hc).2
  · exact r.isField_first.ne_of_mem hc
  · exact ((r.isSpacing_gaps m hm).2 c hc).2
  · exact (r.isField_more m hm).ne_of_mem hc

/-- A row is not empty. -/
theorem line_ne_nil (r : Row) : r.line ≠ [] :=
  List.append_ne_nil_of_right_ne_nil _ (List.append_ne_nil_of_left_ne_nil r.isField_first.1 _)

/-- The ticket that a row is about. -/
def ticket (r : Row) : Ticket :=
  ⟨String.ofList r.first⟩

/-- Does the row say that the command has started: is there a seventh field, and is it `=`? -/
def saysStarted (r : Row) : Bool :=
  r.fields[6]? == some ['=']

/-- The entry that a row is read as. -/
def entry (r : Row) : PendingEntry :=
  ⟨r.ticket, String.ofList r.line, r.saysStarted⟩

/-- A printed row is read as its entry. -/
theorem ofLine?_line (r : Row) : PendingEntry.ofLine? r.line = some r.entry := by
  rw [PendingEntry.ofLine?, r.fields_line]
  rfl

end Row

/-- A line of a listing: blanks alone, or a row. -/
inductive ListingLine where
  | blank (text : List Char) (isBlank : ∀ c ∈ text, Text.isBlank c = true)
  | row (r : Row)

namespace ListingLine

/-- The characters of a line. -/
def chars : ListingLine → List Char
  | blank text _ => text
  | row r => r.line

/-- The row on a line. -/
def row? : ListingLine → Option Row
  | blank _ _ => none
  | row r => some r

/-- A text of lines.  A line feed ends each of them but the last, and that one too if `ended`. -/
def listing (lines : List ListingLine) (ended : Bool) : String :=
  "\n".intercalate (lines.map fun l => String.ofList l.chars) ++ (if ended then "\n" else "")

end ListingLine

namespace PendingQueue

/-- **A listing may be cut behind any line feed.** -/
theorem entries_append (a b : String) : (ofListing (a ++ "\n" ++ b)).entries
    = (ofListing (a ++ "\n")).entries ++ (ofListing b).entries := by
  have hcut := Text.lines_append_feed a.toList b.toList
  have hfeed : "\n".toList = ['\n'] := rfl
  simp only [ofListing, String.toList_append, hfeed, List.append_assoc, List.singleton_append, hcut,
    List.filterMap_append]

/-- A text of blanks has no entries, be it one line or several. -/
theorem entries_eq_nil {listing : String} (h : ∀ c ∈ listing.toList, Text.isBlank c = true) :
    (ofListing listing).entries = [] := by
  refine List.filterMap_eq_nil_iff.2 fun line hline => ?_
  rw [PendingEntry.ofLine?, Text.fields_eq_nil fun c hc => h c (Text.mem_of_mem_lines hline hc)]

/-- **One line has the entry of its row,** ended or not. -/
theorem entries_line (l : ListingLine) (ended : Bool) :
    (ofListing (String.ofList l.chars ++ (if ended then "\n" else ""))).entries
      = l.row?.toList.map Row.entry := by
  cases l with
  | blank text hblank =>
    refine entries_eq_nil fun c hc => ?_
    rw [String.toList_append, List.mem_append, String.toList_ofList] at hc
    rcases hc with hc | hc
    · exact hblank c hc
    · cases ended with
      | true => exact List.mem_singleton.1 hc ▸ by decide
      | false => cases hc
  | row r =>
    have hlines : Text.lines (r.line ++ (if ended then "\n" else "").toList) = [r.line] := by
      cases ended with
      | true => exact Text.lines_append r.ne_of_mem_line []
      | false =>
        have hnone : ("" : String).toList = [] := rfl
        rw [if_neg Bool.false_ne_true, hnone, List.append_nil]
        exact Text.lines_eq_singleton r.line_ne_nil fun hfeed => (r.ne_of_mem_line _ hfeed).1 rfl
    simp only [ofListing, String.toList_append, String.toList_ofList, ListingLine.chars, hlines]
    rw [List.filterMap_cons_some r.ofLine?_line]
    rfl

/-- A printed listing is read row by row, and lines without a row are passed over. -/
theorem entries_lines (lines : List ListingLine) (ended : Bool) :
    (ofListing (ListingLine.listing lines ended)).entries
      = (lines.filterMap ListingLine.row?).map Row.entry := by
  induction lines with
  | nil => cases ended <;> rfl
  | cons l lines ih =>
    have hrows : (l :: lines).filterMap ListingLine.row?
        = l.row?.toList ++ lines.filterMap ListingLine.row? := by
      cases l <;> rfl
    rw [hrows, List.map_append]
    cases lines with
    | nil =>
      rw [ListingLine.listing, List.map_singleton, String.intercalate_singleton, entries_line,
        List.filterMap_nil, List.map_nil, List.append_nil]
    | cons l' lines =>
      have hlisting : ListingLine.listing (l :: l' :: lines) ended
          = String.ofList l.chars ++ "\n" ++ ListingLine.listing (l' :: lines) ended := by
        rw [ListingLine.listing, List.map_cons, List.map_cons, String.intercalate_cons_cons,
          String.append_assoc]
        rfl
      rw [hlisting, entries_append, ih]
      exact congrArg (· ++ _) (entries_line l true)

/-- **No row is lost, and none is invented.**  The entries of a listing that is cut behind a line
feed are those of its parts.  A listing of rows, with any blank lines among them, has one entry for
each row, in order; what can be dropped are the tickets of the rows that do not say that they have
started; and the text is kept. -/
theorem no_row_is_lost :
    (∀ a b : String, (ofListing (a ++ "\n" ++ b)).entries
      = (ofListing (a ++ "\n")).entries ++ (ofListing b).entries) ∧
    ∀ (lines : List ListingLine) (ended : Bool),
      let queue := ofListing (ListingLine.listing lines ended)
      let rows := lines.filterMap ListingLine.row?
      queue.entries = rows.map Row.entry ∧
      queue.cancellable = (rows.filter (!·.saysStarted)).map Row.ticket ∧
      queue.rawListing = ListingLine.listing lines ended := by
  refine ⟨entries_append, fun lines ended => ⟨entries_lines lines ended, ?_, rfl⟩⟩
  rw [cancellable, entries_lines, List.filter_map, List.map_map]
  rfl

/-- Two rows with a blank line between them, the first one with a mark behind wide gaps. -/
example :
    let marked : Row :=
      { indent := [' ', '\t'], first := "13".toList
        more := ["Sat", "Oct", "17", "10:01:00", "2026", "="].map fun s => ([' ', ' '], s.toList) }
    let short : Row := { first := "14".toList, more := [([' '], "garbage".toList)] }
    let gap : ListingLine := .blank [' ', '\r'] (List.all_eq_true.1 rfl)
    let listing := ListingLine.listing [.row marked, gap, .row short] false
    (ofListing listing).entries.map (fun e => (e.ticket.text, e.executing))
      = [("13", true), ("14", false)] := by
  decide +kernel

end PendingQueue
end JobSpool
