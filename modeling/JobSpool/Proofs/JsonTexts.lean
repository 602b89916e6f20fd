/-
# Reading what was written

`Value.render` writes a JSON value without blanks, and `parse` reads it again
(`parse_render`).  What is read is the value with the members of its objects in the byte order of
their names (`Value.sorted`).  It has to be `Value.Fits`: not nested deeper than a text may be, and
with no numbers but natural ones.

Each reader is told what to expect by the writer: `stringRest_escapeChar` and
`number_writeCount` for the tokens, `items_renderItems` and `members_renderMembers` for what
stands between brackets and braces.  What follows a value is never a part of it, since it is a
comma, a bracket, a brace or nothing at all (`Ends`).
-/

import JobSpool.Json.Reader
import JobSpool.Proofs.Lines

namespace JobSpool
namespace Json

/-! ### Numbers -/

/-- **Only zero is written with a zero in front.** -/
theorem head?_toDigits {n : Nat} : (Nat.toDigits 10 n).head? = some '0' ↔ n = 0 := by
  induction n using Nat.strongRecOn with
  | ind n ih =>
    rw [Nat.toDigits_eq_if (by decide)]
    split
    · rename_i hsmall
      have hall : ∀ d < 10, d.digitChar = '0' ↔ d = 0 := by decide
      rw [List.head?_cons, Option.some_inj, hall n hsmall]
    · rename_i hlarge
      simp only [List.head?_append, Option.or_eq_some_iff, ih (n / 10) (by omega),
        List.head?_eq_none_iff, Nat.toDigits_ne_nil, false_and, or_false]
      omega

/-- Digits that make a small number are all of them appended. -/
theorem appendDigits_eq {cs : List Char} {significand : Nat}
    (h : Nat.ofDigitChars 10 cs significand < UInt64.size) :
    appendDigits significand cs = (Nat.ofDigitChars 10 cs significand, []) := by
  induction cs generalizing significand with
  | nil => rw [appendDigits, Nat.ofDigitChars_nil]
  | cons c cs ih =>
    rw [Nat.ofDigitChars_cons, Nat.mul_comm] at h ⊢
    have hpow : 0 < 10 ^ cs.length := Nat.pow_pos (by decide)
    have hle : significand * 10 + (c.toNat - '0'.toNat)
        ≤ Nat.ofDigitChars 10 cs (significand * 10 + (c.toNat - '0'.toNat)) := by
      rw [Nat.ofDigitChars_eq_ofDigitChars_zero]
      exact Nat.le_add_right_of_le (Nat.le_mul_of_pos_left _ hpow)
    rw [appendDigits, if_pos (Nat.lt_of_le_of_lt hle h), ih h]

/-- Is there nothing left, or a mark that comes after a value? -/
def Ends (rest : List Char) : Prop :=
  rest = [] ∨ ∃ c cs, rest = c :: cs ∧ (c = ',' ∨ c = ']' ∨ c = '\x7d')

/-- A comma, a closing bracket and a closing brace end a value. -/
theorem Ends.cons {c : Char} (h : c = ',' ∨ c = ']' ∨ c = '\x7d') (cs : List Char) :
    Ends (c :: cs) :=
  Or.inr ⟨c, cs, rfl, h⟩

/-- No digit stands where a value has ended. -/
theorem takeWhile_isDigit_of_ends {rest : List Char} (h : Ends rest) :
    rest.takeWhile Char.isDigit = [] ∧ rest.dropWhile Char.isDigit = rest := by
  rcases h with rfl | ⟨c, cs, rfl, rfl | rfl | rfl⟩ <;> exact ⟨rfl, rfl⟩

/-- A number that ends with its digits is a natural one. -/
theorem numberRest_of_ends {rest : List Char} (h : Ends rest) (significand : Nat) :
    numberRest false significand 0 rest = .ok (.natural (.ofNat significand), rest) := by
  rcases h with rfl | ⟨c, cs, rfl, rfl | rfl | rfl⟩ <;> rfl

/-- **A count is read again** before whatever may follow it. -/
theorem number_writeCount (n : UInt64) {rest : List Char} (h : Ends rest) :
    number false ((Text.writeCount n).toList ++ rest) = .ok (.natural n, rest) := by
  have hall : ∀ c ∈ Nat.toDigits 10 n.toNat, c.isDigit = true := fun c =>
    Nat.isDigit_of_mem_toDigits (by decide) (by decide)
  obtain ⟨htake, hdrop⟩ := takeWhile_isDigit_of_ends h
  have hrun : digitRun (Nat.toDigits 10 n.toNat ++ rest) = (Nat.toDigits 10 n.toNat, rest) := by
    rw [digitRun, List.takeWhile_append_of_pos hall, List.dropWhile_append_of_pos hall, htake,
      hdrop, List.append_nil]
  have hsmall : Nat.ofDigitChars 10 (Nat.toDigits 10 n.toNat) 0 < UInt64.size := by
    rw [Nat.ofDigitChars_ten_toDigits]
    exact n.toNat_lt_size
  have hrest := numberRest_of_ends h n.toNat
  rw [Text.toList_writeCount, number, hrun]
  split
  · rename_i hnil
    exact absurd (Prod.mk.inj hnil).1 Nat.toDigits_ne_nil
  · rename_i hnil
    exact absurd (Prod.mk.inj hnil).1 Nat.toDigits_ne_nil
  · rename_i c cs _ hzero
    -- A zero in front is the whole number, so nothing follows it.
    have hfirst := (Prod.mk.inj hzero).1
    have hnull : n.toNat = 0 := head?_toDigits.1 (by rw [hfirst, List.head?_cons])
    rw [hnull] at hfirst
    cases hfirst
  · rename_i digits rest' _ _ _ hsplit
    obtain ⟨rfl, rfl⟩ := Prod.mk.inj hsplit
    rw [appendDigits_eq hsmall, Nat.ofDigitChars_ten_toDigits]
    rw [UInt64.ofNat_toNat] at hrest
    exact hrest

/-! ### Strings -/

/-- **Four hexadecimal digits are read** as the number that they spell. -/
theorem hexUnit_of_digits {a b c d : Char} {w x y z : Nat} (ha : hexDigit? a = some w)
    (hb : hexDigit? b = some x) (hc : hexDigit? c = some y) (hd : hexDigit? d = some z)
    (rest : List Char) :
    hexUnit (a :: b :: c :: d :: rest) = .ok (((w * 16 + x) * 16 + y) * 16 + z, rest) := by
  have hsize : ¬ (String.ofList ((a :: b :: c :: d :: rest).take 4)).utf8ByteSize < 4 := by
    have hpos := fun c : Char => c.utf8Size_pos
    have ha := hpos a
    have hb := hpos b
    have hc := hpos c
    have hd := hpos d
    simp only [List.take_succ_cons, List.take_zero, String.ofList_cons,
      String.utf8ByteSize_append, String.utf8ByteSize_singleton]
    omega
  simp only [hexUnit, hsize, if_false, ha, hb, hc, hd]

/-- A hexadecimal digit is read as what it was written for. -/
theorem hexDigit?_digitChar : ∀ d < 16, hexDigit? d.digitChar = some d := by
  decide

/-- A control character is spelled by four digits. -/
theorem hexDigits_of_lt {n : Nat} (h : n < 32) :
    (if n < 16 then ['0'] else []) ++ Nat.toDigits 16 n
      = [(n / 16).digitChar, (n % 16).digitChar] := by
  have hall : ∀ n < 32, (if n < 16 then ['0'] else []) ++ Nat.toDigits 16 n
      = [(n / 16).digitChar, (n % 16).digitChar] := by decide
  exact hall n h

/-- The escape of a control character is read as that character. -/
theorem unicodeEscape_of_lt {c : Char} (h : c.toNat < 32) (rest : List Char) :
    unicodeEscape ('0' :: '0' :: (c.toNat / 16).digitChar :: (c.toNat % 16).digitChar :: rest)
      = .ok (c, rest) := by
  have hhigh := hexDigit?_digitChar (c.toNat / 16) (by omega)
  have hlow := hexDigit?_digitChar (c.toNat % 16) (by omega)
  have hzero : hexDigit? '0' = some 0 := by decide
  have hunit := hexUnit_of_digits hzero hzero hhigh hlow rest
  have hvalue : ((0 * 16 + 0) * 16 + c.toNat / 16) * 16 + c.toNat % 16 = c.toNat := by omega
  rw [hvalue] at hunit
  have hlone : ¬ (0xDC00 ≤ c.toNat ∧ c.toNat ≤ 0xDFFF) := by omega
  have hbasic : c.toNat < 0xD800 ∨ 0xDBFF < c.toNat := by omega
  rw [unicodeEscape, hunit]
  simp [hlone, hbasic, Char.ofNat_toNat, bind, Except.bind, pure, Except.pure]

/-- **A character is read as it was escaped.** -/
theorem stringRest_escapeChar (c : Char) (fuel : Nat) (done rest : List Char) :
    stringRest (fuel + 1) done (escapeChar c ++ rest) = stringRest fuel (c :: done) rest := by
  unfold escapeChar
  split
  · subst_vars; rfl
  split
  · subst_vars; rfl
  split
  · subst_vars; rfl
  split
  · subst_vars; rfl
  split
  · subst_vars; rfl
  split
  · subst_vars; rfl
  split
  · subst_vars; rfl
  split
  · rename_i hcontrol
    rw [List.append_assoc ['\\', 'u', '0', '0'], hexDigits_of_lt hcontrol]
    simp only [List.cons_append, List.nil_append, stringRest, escape, unicodeEscape_of_lt hcontrol]
    rfl
  · rename_i hquote hslash _ _ _ _ _ hvisible
    simp only [List.cons_append, List.nil_append, stringRest, hquote, hslash, hvisible, if_false]

/-- The characters of a text are read back up to the closing quotation mark. -/
theorem stringRest_renderText {fuel : Nat} (cs done rest : List Char) (h : cs.length < fuel) :
    stringRest fuel done (cs.flatMap escapeChar ++ '"' :: rest)
      = .ok (String.ofList (done.reverse ++ cs), rest) := by
  induction cs generalizing fuel done with
  | nil =>
    obtain ⟨fuel, rfl⟩ := Nat.exists_eq_succ_of_ne_zero (Nat.ne_of_gt h)
    simp [stringRest]
  | cons c cs ih =>
    obtain ⟨fuel, rfl⟩ := Nat.exists_eq_succ_of_ne_zero (Nat.ne_of_gt (Nat.zero_lt_of_lt h))
    rw [List.flatMap_cons, List.append_assoc, stringRest_escapeChar,
      ih _ (Nat.lt_of_succ_lt_succ h), List.reverse_cons, List.append_assoc,
      List.singleton_append]

/-- No character is escaped to nothing. -/
theorem length_le_flatMap_escapeChar (cs : List Char) :
    cs.length ≤ (cs.flatMap escapeChar).length := by
  have hpos : ∀ c, 0 < (escapeChar c).length := by
    intro c
    unfold escapeChar
    repeat' split
    all_goals simp
  induction cs with
  | nil => simp
  | cons c cs ih =>
    have := hpos c
    rw [List.flatMap_cons, List.length_append, List.length_cons]
    omega

/-- **A text is read again,** whatever follows it. -/
theorem stringLit_renderText (s : String) (rest : List Char) :
    stringLit (s.toList.flatMap escapeChar ++ '"' :: rest) = .ok (s, rest) := by
  have hlength := length_le_flatMap_escapeChar s.toList
  rw [stringLit, stringRest_renderText, List.reverse_nil, List.nil_append, String.ofList_toList]
  rw [List.length_append]
  omega

/-! ### Values that a text can hold -/

mutual

/-- A value as it is read: the members of every object stand in the byte order of their names, and
the last of several with one name counts. -/
def Value.sorted : Value → Value
  | .null => .null
  | .bool b => .bool b
  | .number n => .number n
  | .text s => .text s
  | .list items => .list (sortedItems items)
  | .object members => .objectOf (sortedMembers members)

/-- The items of a list as they are read. -/
def sortedItems : List Value → List Value
  | [] => []
  | v :: vs => v.sorted :: sortedItems vs

/-- The members of an object as they are read, in the order of the text. -/
def sortedMembers : List (String × Value) → List (String × Value)
  | [] => []
  | (name, v) :: ms => (name, v.sorted) :: sortedMembers ms

end

/-- Sorting the items of a list sorts each of them. -/
theorem sortedItems_eq_map (vs : List Value) : sortedItems vs = vs.map (·.sorted) := by
  induction vs with
  | nil => rfl
  | cons v vs ih => rw [sortedItems, ih, List.map_cons]

/-- Sorting the members of an object sorts the value of each, before they are put in order. -/
theorem sortedMembers_eq_map (ms : List (String × Value)) :
    sortedMembers ms = ms.map fun m => (m.1, m.2.sorted) := by
  induction ms with
  | nil => rfl
  | cons m ms ih => rw [sortedMembers, ih, List.map_cons]

/-- Has a value so many levels of lists and objects at most, and no numbers but natural ones? -/
inductive Value.Fits : (levels : Nat) → Value → Prop
  | null {levels : Nat} : Fits levels .null
  | bool {levels : Nat} (b : Bool) : Fits levels (.bool b)
  | natural {levels : Nat} (n : UInt64) : Fits levels (.number (.natural n))
  | text {levels : Nat} (s : String) : Fits levels (.text s)
  | list {levels : Nat} {items : List Value} (h : ∀ v ∈ items, v.Fits levels) :
    Fits (levels + 1) (.list items)
  | object {levels : Nat} {members : List (String × Value)} (h : ∀ m ∈ members, m.2.Fits levels) :
    Fits (levels + 1) (.object members)

/-- Can a value start with the character? -/
structure Starts (c : Char) : Prop where
  notGap : isGap c = false
  notComma : c ≠ ','
  notBracket : c ≠ ']'

/-- A digit is none of the other characters. -/
theorem ne_of_isDigit {c d : Char} (h : c.isDigit = true) (hd : d.isDigit = false) : c ≠ d := by
  rintro rfl
  rw [h] at hd
  cases hd

/-- A digit starts a value. -/
theorem starts_of_isDigit {c : Char} (h : c.isDigit = true) : Starts c where
  notGap := by
    simp [isGap, ne_of_isDigit h (by decide : ' '.isDigit = false),
      ne_of_isDigit h (by decide : '\n'.isDigit = false),
      ne_of_isDigit h (by decide : '\t'.isDigit = false),
      ne_of_isDigit h (by decide : '\r'.isDigit = false)]
  notComma := ne_of_isDigit h (by decide)
  notBracket := ne_of_isDigit h (by decide)

/-- A count starts with a digit. -/
theorem exists_writeCount_eq (n : UInt64) :
    ∃ c cs, (Text.writeCount n).toList = c :: cs ∧ c.isDigit = true := by
  rw [Text.toList_writeCount]
  obtain ⟨c, cs, hcs⟩ := List.exists_cons_of_ne_nil (Nat.toDigits_ne_nil (b := 10) (n := n.toNat))
  exact ⟨c, cs, hcs,
    Nat.isDigit_of_mem_toDigits (by decide) (by decide) (hcs ▸ List.mem_cons_self)⟩

/-- Every value starts with a character that tells its kind. -/
theorem exists_renderChars_eq {levels : Nat} {v : Value} (h : v.Fits levels) :
    ∃ c cs, renderChars v = c :: cs ∧ Starts c := by
  cases h with
  | null => exact ⟨_, _, rfl, by decide, by decide, by decide⟩
  | bool b => cases b <;> exact ⟨_, _, rfl, by decide, by decide, by decide⟩
  | natural n =>
    obtain ⟨c, cs, hcs, hc⟩ := exists_writeCount_eq n
    exact ⟨c, cs, hcs, starts_of_isDigit hc⟩
  | text s => exact ⟨_, _, rfl, by decide, by decide, by decide⟩
  | list h => exact ⟨_, _, rfl, by decide, by decide, by decide⟩
  | object h => exact ⟨_, _, rfl, by decide, by decide, by decide⟩

/-! ### Lists and objects -/

/-- There is nothing to skip in front of a value. -/
theorem skipGaps_cons {c : Char} (h : isGap c = false) (cs : List Char) :
    skipGaps (c :: cs) = c :: cs := by
  rw [skipGaps, List.dropWhile_cons, h, if_neg Bool.false_ne_true]

/-- The items of a list stand with commas between them, -/
theorem renderItems_cons (v : Value) (vs : List Value) :
    renderItems (v :: vs) = renderChars v ++ vs.flatMap fun w => ',' :: renderChars w := by
  induction vs generalizing v with
  | nil => simp [renderItems]
  | cons w ws ih =>
    rw [renderItems, ih, List.flatMap_cons, List.cons_append]
    simp

/-- The text of a member. -/
def renderMember (m : String × Value) : List Char :=
  renderText m.1 ++ ':' :: renderChars m.2

/-- and so do the members of an object. -/
theorem renderMembers_cons (m : String × Value) (ms : List (String × Value)) :
    renderMembers (m :: ms) = renderMember m ++ ms.flatMap fun m => ',' :: renderMember m := by
  induction ms generalizing m with
  | nil => simp [renderMembers, renderMember]
  | cons k ks ih =>
    rw [renderMembers, ih, List.flatMap_cons, List.cons_append]
    · simp [renderMember]
    · exact List.cons_ne_nil k ks

/-- A comma in front of a value leads to the next item, -/
theorem nextItem_comma {c : Char} (h : Starts c) (cs : List Char) :
    nextItem false (',' :: c :: cs) = .ok (some (c :: cs)) := by
  rw [nextItem, skipGaps_cons (by decide)]
  simp only [Bool.false_eq_true, if_false, skipGaps_cons h.notGap]
  split
  · rename_i hnil
    cases hnil
  · rename_i hbracket
    exact absurd (List.cons.inj hbracket).1 h.notBracket
  · rfl

/-- and an opening bracket to the first one. -/
theorem nextItem_first {c : Char} (h : Starts c) (cs : List Char) :
    nextItem true (c :: cs) = .ok (some (c :: cs)) := by
  rw [nextItem, skipGaps_cons h.notGap]
  split
  · rename_i hnil
    cases hnil
  · rename_i hbracket
    exact absurd (List.cons.inj hbracket).1 h.notBracket
  · rename_i hcomma
    exact absurd (List.cons.inj hcomma).1 h.notComma
  · rfl

/-- A list of items with commas in front ends as whatever follows it does. -/
theorem ends_flatMap {α : Type} (text : α → List Char) (xs : List α) {rest : List Char}
    (h : Ends rest) : Ends (xs.flatMap (fun x => ',' :: text x) ++ rest) := by
  cases xs with
  | nil => exact h
  | cons x xs => exact .cons (Or.inl rfl) _

/-- Does a reader read the texts of some values, whatever may follow? -/
def Reads (read : List Char → Except Fault (Value × List Char)) (vs : List Value) : Prop :=
  ∀ v ∈ vs, (∃ c cs, renderChars v = c :: cs ∧ Starts c) ∧
    ∀ rest, Ends rest → read (renderChars v ++ rest) = .ok (v.sorted, rest)

/-- The items behind the first one, up to the bracket. -/
theorem items_flatMap {read : List Char → Except Fault (Value × List Char)} {vs : List Value}
    (h : Reads read vs) {fuel : Nat} (hfuel : vs.length < fuel) (done : List Value)
    (rest : List Char) :
    items read fuel false done (vs.flatMap (fun v => ',' :: renderChars v) ++ ']' :: rest)
      = .ok (done.reverse ++ sortedItems vs, rest) := by
  induction vs generalizing fuel done with
  | nil =>
    obtain ⟨fuel, rfl⟩ := Nat.exists_eq_succ_of_ne_zero (Nat.ne_of_gt hfuel)
    rw [sortedItems, List.append_nil]
    rfl
  | cons v vs ih =>
    obtain ⟨fuel, rfl⟩ := Nat.exists_eq_succ_of_ne_zero (Nat.ne_of_gt (Nat.zero_lt_of_lt hfuel))
    obtain ⟨⟨c, cs, hcs, hstarts⟩, hread⟩ := h v List.mem_cons_self
    have hitem := hread _ (ends_flatMap renderChars vs (.cons (Or.inr (Or.inl rfl)) rest))
    have hnext : nextItem false ((v :: vs).flatMap (fun v => ',' :: renderChars v) ++ ']' :: rest)
        = .ok (some (renderChars v ++
          (vs.flatMap (fun v => ',' :: renderChars v) ++ ']' :: rest))) := by
      rw [List.flatMap_cons, List.cons_append, List.cons_append, List.append_assoc, hcs,
        List.cons_append, nextItem_comma hstarts]
    have hrest := ih (fun w hw => h w (List.mem_cons_of_mem _ hw)) (Nat.lt_of_succ_lt_succ hfuel)
      (v.sorted :: done)
    rw [List.reverse_cons, List.append_assoc, List.singleton_append] at hrest
    rw [items, hnext, sortedItems, ← hrest]
    simp only [bind, Except.bind, hitem]

/-- The items of a list are read back, each by itself. -/
theorem items_renderItems {read : List Char → Except Fault (Value × List Char)} {vs : List Value}
    (h : Reads read vs) {fuel : Nat} (hfuel : vs.length < fuel) (rest : List Char) :
    items read fuel true [] (renderItems vs ++ ']' :: rest) = .ok (sortedItems vs, rest) := by
  obtain ⟨fuel, rfl⟩ := Nat.exists_eq_succ_of_ne_zero (Nat.ne_of_gt (Nat.zero_lt_of_lt hfuel))
  cases vs with
  | nil => rfl
  | cons v vs =>
    obtain ⟨⟨c, cs, hcs, hstarts⟩, hread⟩ := h v List.mem_cons_self
    have hitem := hread _ (ends_flatMap renderChars vs (.cons (Or.inr (Or.inl rfl)) rest))
    have hnext : nextItem true (renderItems (v :: vs) ++ ']' :: rest)
        = .ok (some (renderChars v ++
          (vs.flatMap (fun v => ',' :: renderChars v) ++ ']' :: rest))) := by
      rw [renderItems_cons, List.append_assoc, hcs, List.cons_append, nextItem_first hstarts]
    have hrest := items_flatMap (fun w hw => h w (List.mem_cons_of_mem _ hw))
      (Nat.lt_of_succ_lt_succ hfuel) [v.sorted] rest
    rw [items, hnext, sortedItems]
    simp only [bind, Except.bind, hitem]
    exact hrest

/-- A member is its name in quotation marks, a colon and its value. -/
theorem renderMember_append (m : String × Value) (rest : List Char) :
    renderMember m ++ rest
      = '"' :: (m.1.toList.flatMap escapeChar ++ '"' :: ':' :: (renderChars m.2 ++ rest)) := by
  simp [renderMember, renderText]

/-- The name of the first member follows the brace, -/
theorem nextName_first (cs : List Char) :
    nextName true ('"' :: cs) = (stringLit cs).map some := rfl

/-- and that of any other one a comma. -/
theorem nextName_comma (cs : List Char) :
    nextName false (',' :: '"' :: cs) = (stringLit cs).map some := rfl

/-- Does a reader take up the members of an object, whatever may follow? -/
def TakesUp (take : List (String × Value) → String → List Char →
    Except Fault (List (String × Value) × List Char)) (ms : List (String × Value)) : Prop :=
  ∀ m ∈ ms, ∀ done rest, Ends rest →
    take done m.1 (':' :: (renderChars m.2 ++ rest)) = .ok ((m.1, m.2.sorted) :: done, rest)

/-- The members behind the first one, up to the brace. -/
theorem members_flatMap {take : List (String × Value) → String → List Char →
    Except Fault (List (String × Value) × List Char)} {ms : List (String × Value)}
    (h : TakesUp take ms) {fuel : Nat} (hfuel : ms.length < fuel) (done : List (String × Value))
    (rest : List Char) :
    members take fuel false done (ms.flatMap (fun m => ',' :: renderMember m) ++ '\x7d' :: rest)
      = .ok ((sortedMembers ms).reverse ++ done, rest) := by
  induction ms generalizing fuel done with
  | nil =>
    obtain ⟨fuel, rfl⟩ := Nat.exists_eq_succ_of_ne_zero (Nat.ne_of_gt hfuel)
    rfl
  | cons m ms ih =>
    obtain ⟨fuel, rfl⟩ := Nat.exists_eq_succ_of_ne_zero (Nat.ne_of_gt (Nat.zero_lt_of_lt hfuel))
    have hends := ends_flatMap renderMember ms (.cons (Or.inr (Or.inr rfl)) rest)
    have htake := h m List.mem_cons_self done _ hends
    have hnext : nextName false ((m :: ms).flatMap (fun m => ',' :: renderMember m) ++
        '\x7d' :: rest) = .ok (some (m.1, ':' :: (renderChars m.2 ++
          (ms.flatMap (fun m => ',' :: renderMember m) ++ '\x7d' :: rest)))) := by
      rw [List.flatMap_cons, List.cons_append, List.cons_append, List.append_assoc,
        renderMember_append, nextName_comma, stringLit_renderText]
      rfl
    have hrest := ih (fun k hk => h k (List.mem_cons_of_mem _ hk)) (Nat.lt_of_succ_lt_succ hfuel)
      ((m.1, m.2.sorted) :: done)
    rw [members, hnext, sortedMembers, List.reverse_cons, List.append_assoc,
      List.singleton_append, ← hrest]
    simp only [bind, Except.bind, htake]

/-- The members of an object are read back, each by itself. -/
theorem members_renderMembers {take : List (String × Value) → String → List Char →
    Except Fault (List (String × Value) × List Char)} {ms : List (String × Value)}
    (h : TakesUp take ms) {fuel : Nat} (hfuel : ms.length < fuel) (rest : List Char) :
    members take fuel true [] (renderMembers ms ++ '\x7d' :: rest)
      = .ok ((sortedMembers ms).reverse, rest) := by
  obtain ⟨fuel, rfl⟩ := Nat.exists_eq_succ_of_ne_zero (Nat.ne_of_gt (Nat.zero_lt_of_lt hfuel))
  cases ms with
  | nil => rfl
  | cons m ms =>
    have hends := ends_flatMap renderMember ms (.cons (Or.inr (Or.inr rfl)) rest)
    have htake := h m List.mem_cons_self [] _ hends
    have hnext : nextName true (renderMembers (m :: ms) ++ '\x7d' :: rest)
        = .ok (some (m.1, ':' :: (renderChars m.2 ++
          (ms.flatMap (fun m => ',' :: renderMember m) ++ '\x7d' :: rest)))) := by
      rw [renderMembers_cons, List.append_assoc, renderMember_append, nextName_first,
        stringLit_renderText]
      rfl
    have hrest := members_flatMap (fun k hk => h k (List.mem_cons_of_mem _ hk))
      (Nat.lt_of_succ_lt_succ hfuel) [(m.1, m.2.sorted)] rest
    rw [members, hnext, sortedMembers, List.reverse_cons]
    simp only [bind, Except.bind, htake]
    exact hrest

/-! ### Any value -/

/-- A digit in front makes the value a number. -/
theorem valueWithin_of_isDigit {c : Char} (h : c.isDigit = true) (fuel depth : Nat)
    (cs : List Char) : valueWithin (fuel + 1) depth (c :: cs)
      = (number false (c :: cs)).map fun r => (.number r.1, r.2) := by
  have hne : ∀ {d : Char} {rest : List Char}, d.isDigit = false → c :: cs ≠ d :: rest :=
    fun hd heq => ne_of_isDigit h hd (List.cons.inj heq).1
  rw [valueWithin, skipGaps_cons (starts_of_isDigit h).notGap]
  split
  · rename_i hnil
    cases hnil
  · exact absurd ‹_› (hne (by decide))
  · exact absurd ‹_› (hne (by decide))
  · exact absurd ‹_› (hne (by decide))
  · exact absurd ‹_› (hne (by decide))
  · exact absurd ‹_› (hne (by decide))
  · exact absurd ‹_› (hne (by decide))
  · exact absurd ‹_› (hne (by decide))
  · rename_i heq
    obtain ⟨rfl, rfl⟩ := List.cons.inj heq
    rw [if_pos h]

/-- A list is no longer than its text, -/
theorem length_le_flatMap {α : Type} (text : α → List Char) (xs : List α) :
    xs.length ≤ (xs.flatMap fun x => ',' :: text x).length := by
  induction xs with
  | nil => simp
  | cons x xs ih =>
    rw [List.flatMap_cons, List.length_append, List.length_cons, List.length_cons]
    omega

/-- so the items of a list are never more than one for each character, -/
theorem length_le_renderItems (vs : List Value) : vs.length ≤ (renderItems vs).length + 1 := by
  cases vs with
  | nil => simp
  | cons v vs =>
    have := length_le_flatMap renderChars vs
    rw [renderItems_cons, List.length_append, List.length_cons]
    omega

/-- and neither are the members of an object. -/
theorem length_le_renderMembers (ms : List (String × Value)) :
    ms.length ≤ (renderMembers ms).length + 1 := by
  cases ms with
  | nil => simp
  | cons m ms =>
    have := length_le_flatMap renderMember ms
    rw [renderMembers_cons, List.length_append, List.length_cons]
    omega

section Values

variable (fuel depth : Nat) {rest : List Char}

/-- **A natural number is read back,** wherever a value may end. -/
theorem valueWithin_natural (n : UInt64) (hrest : Ends rest) :
    valueWithin (fuel + 1) depth (renderChars (.number (.natural n)) ++ rest)
      = .ok (.number (.natural n), rest) := by
  obtain ⟨c, cs, hcs, hc⟩ := exists_writeCount_eq n
  have hnumber := number_writeCount n hrest
  rw [hcs, List.cons_append] at hnumber
  rw [renderChars, Number.render, hcs, List.cons_append, valueWithin_of_isDigit hc, hnumber]
  rfl

/-- **A text is read back,** whatever it holds. -/
theorem valueWithin_text (s : String) :
    valueWithin (fuel + 1) depth (renderChars (.text s) ++ rest) = .ok (.text s, rest) := by
  have htext : renderChars (.text s) ++ rest
      = '"' :: (s.toList.flatMap escapeChar ++ '"' :: rest) := by
    simp [renderChars, renderText]
  have hread : ∀ cs, valueWithin (fuel + 1) depth ('"' :: cs)
      = (stringLit cs).map fun r => (.text r.1, r.2) := fun _ => rfl
  rw [htext, hread, stringLit_renderText]
  rfl

/-- **A list is read back** when its items are. -/
theorem valueWithin_list {vs : List Value} (h : Reads (valueWithin fuel (depth + 1)) vs) :
    valueWithin (fuel + 1) (depth + 2) (renderChars (.list vs) ++ rest)
      = .ok (.list (sortedItems vs), rest) := by
  have htext : renderChars (.list vs) ++ rest = '[' :: (renderItems vs ++ ']' :: rest) := by
    simp [renderChars]
  have hread : ∀ cs, valueWithin (fuel + 1) (depth + 2) ('[' :: cs)
      = (items (valueWithin fuel (depth + 1)) (cs.length + 1) true [] cs).map
          fun r => (.list r.1, r.2) := fun cs => by
    rw [valueWithin, skipGaps_cons (by decide)]
    exact if_neg (by omega)
  have hlength := length_le_renderItems vs
  rw [htext, hread, items_renderItems h]
  · rfl
  · rw [List.length_append, List.length_cons]
    omega

/-- **An object is read back** when the values of its members are, with its members in order. -/
theorem valueWithin_object {ms : List (String × Value)}
    (h : Reads (valueWithin fuel (depth + 1)) (ms.map (·.2))) :
    valueWithin (fuel + 1) (depth + 2) (renderChars (.object ms) ++ rest)
      = .ok (.objectOf (sortedMembers ms), rest) := by
  have htext : renderChars (.object ms) ++ rest
      = '\x7b' :: (renderMembers ms ++ '\x7d' :: rest) := by
    simp [renderChars]
  have hlength := length_le_renderMembers ms
  rw [htext, valueWithin, skipGaps_cons (by decide)]
  refine (if_neg (by omega)).trans ?_
  dsimp only
  rw [members_renderMembers]
  · exact congrArg (fun ms => Except.ok (Value.objectOf ms, rest)) (List.reverse_reverse _)
  · intro m hm done rest' hrest'
    have hread : valueWithin fuel (depth + 2 - 1) (renderChars m.2 ++ rest')
        = .ok (m.2.sorted, rest') := (h m.2 (List.mem_map_of_mem hm)).2 rest' hrest'
    have hcolon : colon (':' :: (renderChars m.2 ++ rest')) = .ok ((), renderChars m.2 ++ rest') :=
      rfl
    simp only [bind, Except.bind, hcolon, hread, pure, Except.pure]
  · rw [List.length_append, List.length_cons]
    omega

end Values

/-- **A value that was written is read,** with the members of its objects in order. -/
theorem valueWithin_renderChars {levels : Nat} {v : Value} (h : v.Fits levels) {fuel : Nat}
    (hfuel : levels ≤ fuel) {rest : List Char} (hrest : Ends rest) :
    valueWithin (fuel + 1) (levels + 1) (renderChars v ++ rest) = .ok (v.sorted, rest) := by
  induction h generalizing fuel rest with
  | null => rfl
  | bool b => cases b <;> rfl
  | natural n => exact valueWithin_natural fuel _ n hrest
  | text s => exact valueWithin_text fuel _ s
  | list h ih =>
    obtain ⟨fuel, rfl⟩ := Nat.exists_eq_succ_of_ne_zero (Nat.ne_of_gt (Nat.zero_lt_of_lt hfuel))
    refine valueWithin_list _ _ fun v hv => ⟨exists_renderChars_eq (h v hv), fun rest hrest => ?_⟩
    exact ih v hv (Nat.le_of_succ_le_succ hfuel) hrest
  | object h ih =>
    obtain ⟨fuel, rfl⟩ := Nat.exists_eq_succ_of_ne_zero (Nat.ne_of_gt (Nat.zero_lt_of_lt hfuel))
    refine valueWithin_object _ _ fun v hv => ?_
    obtain ⟨m, hm, rfl⟩ := List.mem_map.1 hv
    exact ⟨exists_renderChars_eq (h m hm), fun rest hrest =>
      ih m hm (Nat.le_of_succ_le_succ hfuel) hrest⟩

/-- **A text that was written is read again.** -/
theorem parse_render {v : Value} (h : v.Fits (depthLimit - 1)) : parse v.render = .ok v.sorted := by
  have hread : value depthLimit (renderChars v ++ []) = .ok (v.sorted, []) :=
    valueWithin_renderChars h (by decide) (Or.inl rfl)
  rw [List.append_nil] at hread
  rw [parse, whole, Value.render, String.toList_ofList, hread]
  rfl

end Json
end JobSpool
