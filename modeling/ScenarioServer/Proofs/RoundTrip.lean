import ScenarioServer.Proofs.LineTable

/-!
# From bytes to positions and back

The two conversions undo each other up to three roundings, each of its own kind.

* A byte offset inside a character counts as the start of that character.
* A column inside a surrogate pair counts as the end of that pair.
* A column past the content of a line counts as the end of the content, so the place behind a
  carriage return that ends a line is moved in front of it (`BehindReturn`).

`offsetAt_positionAt_round_trip` says it for every offset and every position.
-/

namespace ScenarioServer

namespace Text

/-! ## From a cut to its position and back -/

/-- The place is behind a carriage return that the end of the line, or of the text, follows. -/
def BehindReturn (before after : List Char) : Prop :=
  before.getLast? = some '\r' ∧ (after = [] ∨ after.head? = some '\n')

instance (before after : List Char) : Decidable (BehindReturn before after) :=
  inferInstanceAs (Decidable (_ ∧ _))

/-- The line that goes across the place between `before` and `after`. -/
theorem exists_line_across (before after : List Char) :
    ∃ start head more rest, before = start ++ head ∧ after = more ++ rest ∧ '\n' ∉ head ∧
      IsLine (before ++ after) (positionAfter before).line start (head ++ more) rest ∧
      positionAfter before = ⟨start.count '\n', unitLength head⟩ := by
  obtain ⟨start, head, rfl, hstarts, hhead⟩ := exists_lastLine before
  obtain ⟨empty, more, rest, hafter⟩ := exists_isLine (Nat.zero_le (after.count '\n'))
  have hempty : empty = [] := by
    rcases hafter.starts.cases with rfl | ⟨text, rfl⟩
    · rfl
    · have hcount := hafter.count_eq
      simp at hcount
  subst hempty
  have hposition := positionAfter_append hstarts hhead
  refine ⟨start, head, more, rest, rfl, by simpa using hafter.text_eq, hhead, ?_, hposition⟩
  refine ⟨by simp [hafter.text_eq], hstarts, by rw [hposition], ?_, hafter.ends⟩
  intro hmem
  rcases List.mem_append.mp hmem with hmem | hmem
  · exact hhead hmem
  · exact hafter.unbroken hmem

theorem dropCarriageReturn_append (head : List Char) {more : List Char} (hne : more ≠ []) :
    dropCarriageReturn (head ++ more) = head ++ dropCarriageReturn more := by
  have hlast : (head ++ more).getLast? = more.getLast? := by
    rw [List.getLast?_append, List.getLast?_eq_some_getLast hne, Option.some_or]
  rw [dropCarriageReturn, dropCarriageReturn, hlast]
  split
  · rw [List.dropLast_append_of_ne_nil hne]
  · rfl

theorem indexAt_positionAfter {before after : List Char} (h : ¬BehindReturn before after) :
    indexAt (before ++ after) (positionAfter before) = some before.length := by
  obtain ⟨start, head, more, rest, rfl, rfl, -, hline, hposition⟩ := exists_line_across before after
  have hcontent : ∃ tail, dropCarriageReturn (head ++ more) = head ++ tail := by
    by_cases hne : more = []
    · -- the line ends at this place, and `head` does not end in a carriage return
      subst hne
      refine ⟨[], ?_⟩
      rw [List.append_nil]
      apply dropCarriageReturn_of_ne
      intro hlast
      refine h ⟨?_, by simpa using hline.ends⟩
      rw [List.getLast?_append, hlast]
      rfl
    · exact ⟨_, dropCarriageReturn_append head hne⟩
  obtain ⟨tail, htail⟩ := hcontent
  rw [indexAt_of_isLine hline, htail, hposition, columnIndex_unitLength, List.length_append]

theorem indexAt_positionAfter_of_behindReturn {before after : List Char}
    (h : BehindReturn (before ++ ['\r']) after) :
    indexAt (before ++ ['\r'] ++ after) (positionAfter (before ++ ['\r'])) =
      some before.length := by
  obtain ⟨start, head, more, rest, hbefore, rfl, hhead, hline, hposition⟩ :=
    exists_line_across (before ++ ['\r']) after
  have hmore : more = [] := by
    cases more with
    | nil => rfl
    | cons c more =>
        rcases h.2 with hnil | hfeed
        · simp at hnil
        · obtain rfl : c = '\n' := by simpa using hfeed
          exact absurd (by simp) hline.unbroken
  subst hmore
  -- the carriage return is on the line: the text before the line ends in a line feed, if at all
  obtain ⟨content, rfl⟩ : ∃ content, head = content ++ ['\r'] := by
    rcases List.eq_nil_or_concat head with rfl | ⟨content, c, rfl⟩
    · rcases hline.starts.cases with rfl | ⟨text, rfl⟩
      · simp at hbefore
      · simp at hbefore
    · rw [List.concat_eq_append, ← List.append_assoc] at hbefore
      have hc := (List.append_inj' hbefore rfl).2
      exact ⟨content, by rw [List.concat_eq_append, ← hc]⟩
  rw [← List.append_assoc] at hbefore
  have hinit : before = start ++ content := (List.append_inj' hbefore rfl).1
  have hfull : columnIndex (unitLength (content ++ ['\r'])) content = content.length := by
    have hcut := columnIndex_unitLength content []
    have hwider : unitLength content ≤ unitLength (content ++ ['\r']) := by simp
    have hmono := columnIndex_mono hwider content
    have hle := columnIndex_le_length (unitLength (content ++ ['\r'])) content
    rw [List.append_nil] at hcut
    omega
  rw [indexAt_of_isLine hline, List.append_nil, dropCarriageReturn_concat, hposition, hfull, hinit,
    List.length_append]

theorem offsetAt_positionAfter {before after : List Char} (h : ¬BehindReturn before after) :
    offsetAt (before ++ after) (positionAfter before) = some (byteLength before) :=
  offsetAt_of_indexAt (indexAt_positionAfter h)

theorem offsetAt_positionAfter_of_behindReturn {before after : List Char}
    (h : BehindReturn before after) :
    offsetAt (before ++ after) (positionAfter before) = some (byteLength before - 1) := by
  obtain ⟨init, rfl⟩ := List.getLast?_eq_some_iff.mp h.1
  have hindex := indexAt_positionAfter_of_behindReturn h
  have hsize : byteLength ['\r'] = 1 := by decide
  rw [List.append_assoc] at hindex ⊢
  rw [offsetAt_of_indexAt hindex, byteLength_append, hsize, Nat.add_sub_cancel]

/-! ## From a position to its cut and back -/

/-- A character of the content starts at the column. -/
def IsCharColumn (content : List Char) (column : Nat) : Prop :=
  ∃ head c tail, content = head ++ c :: tail ∧ unitLength head = column

/-- `stop` is the first column from `column` on where a character of the content starts, or the end
of the content if none starts there. -/
def IsNextColumn (content : List Char) (column stop : Nat) : Prop :=
  IsLeast {k | IsCharColumn content k ∧ column ≤ k} stop ∨
    (∀ k, IsCharColumn content k → k < column) ∧ stop = unitLength content

theorem isNextColumn_of_columnIndex {column : Nat} {head tail : List Char}
    (h : head.length = columnIndex column (head ++ tail)) :
    IsNextColumn (head ++ tail) column (unitLength head) := by
  have hbelow : ∀ init rest, head ++ tail = init ++ rest → init.length < head.length →
      unitLength init < column := by
    intro init rest hsplit hlt
    rw [h] at hlt
    have hwidth := unitLength_lt_of_lt_columnIndex hlt
    rwa [hsplit, List.take_left] at hwidth
  cases tail with
  | nil =>
      refine .inr ⟨?_, by rw [List.append_nil]⟩
      rintro k ⟨init, c, rest, hsplit, rfl⟩
      apply hbelow init (c :: rest) hsplit
      have hlength := congrArg List.length hsplit
      simp only [List.append_nil, List.length_append, List.length_cons] at hlength
      omega
  | cons c tail =>
      refine .inl ⟨⟨⟨head, c, tail, rfl, rfl⟩, ?_⟩, ?_⟩
      · have hinside : columnIndex column (head ++ c :: tail) < (head ++ c :: tail).length := by
          rw [← h, List.length_append, List.length_cons]
          omega
        have hwidth := le_unitLength_of_columnIndex_lt hinside
        rwa [← h, List.take_left] at hwidth
      · rintro k ⟨⟨init, d, rest, hsplit, rfl⟩, hle⟩
        rcases List.append_eq_append_iff.mp hsplit with ⟨mid, rfl, -⟩ | ⟨mid, rfl, -⟩
        · rw [unitLength_append]
          omega
        · by_cases hmid : mid = []
          · simp [hmid]
          · have hpos := List.length_pos_iff.mpr hmid
            have hwidth := hbelow init (d :: rest) hsplit (by rw [List.length_append]; omega)
            omega

theorem positionAt_of_isLine {text before line after head tail : List Char} {number : Nat}
    (h : IsLine text number before line after) (hcut : dropCarriageReturn line = head ++ tail) :
    positionAt text (byteLength (before ++ head)) = ⟨number, unitLength head⟩ := by
  obtain ⟨rest, rfl⟩ := h.isPrefix hcut
  rw [positionAt_append, positionAfter_append h.starts (h.not_mem_head hcut), h.count_eq]

theorem offsetAt_of_isLine {text before line after head tail : List Char} {number : Nat}
    (h : IsLine text number before line after) (hcut : dropCarriageReturn line = head ++ tail) :
    offsetAt text ⟨number, unitLength head⟩ = some (byteLength (before ++ head)) := by
  have hindex : indexAt text ⟨number, unitLength head⟩ = some (before ++ head).length := by
    rw [indexAt_of_isLine h, hcut, columnIndex_unitLength, List.length_append]
  obtain ⟨rest, rfl⟩ := h.isPrefix hcut
  exact offsetAt_of_indexAt hindex

theorem offsetAt_of_line_le {text : List Char} {p : Position} (h : p.line ≤ text.count '\n') :
    ∃ before line after head tail, IsLine text p.line before line after ∧
      dropCarriageReturn line = head ++ tail ∧
      offsetAt text p = some (byteLength (before ++ head)) ∧
      IsNextColumn (head ++ tail) p.character (unitLength head) := by
  have hsome : indexAt text p ≠ none := by
    rw [ne_eq, indexAt_eq_none_iff]
    omega
  obtain ⟨index, hindex⟩ := Option.ne_none_iff_exists'.mp hsome
  obtain ⟨before, line, after, head, tail, hline, hcut, hlength, htake, -⟩ := indexAt_cases hindex
  refine ⟨before, line, after, head, tail, hline, hcut, ?_, isNextColumn_of_columnIndex hlength⟩
  rw [offsetAt, hindex, Option.map_some, htake]

end Text

open Text

/-- The two look-ups by the table of line starts always succeed and give position and offset.
Reading an offset as a position and going back rounds down to a boundary, and from behind a carriage
return that ends a line to the place in front of it. Going from a position to its offset and back
stays on the line and rounds the column up, at most to the end of the line's content. -/
theorem offsetAt_positionAt_round_trip {text : List Char} (hsize : byteLength text < UInt32.size) :
    (∀ offset, LineTable.position? text offset = some (positionAt text offset)) ∧
    (∀ p, LineTable.offset? text p = some (offsetAt text p)) ∧
    (∀ offset, ∃ before after, text = before ++ after ∧
      IsGreatest {b | IsBoundary text b ∧ b ≤ min offset (byteLength text)} (byteLength before) ∧
      offsetAt text (positionAt text offset) =
        if BehindReturn before after then some (byteLength before - 1)
        else some (byteLength before)) ∧
    (∀ p, offsetAt text p = none ↔ text.count '\n' < p.line) ∧
    (∀ p, p.line ≤ text.count '\n' → ∃ before line after head tail,
      IsLine text p.line before line after ∧ dropCarriageReturn line = head ++ tail ∧
      offsetAt text p = some (byteLength (before ++ head)) ∧
      ∃ column, IsNextColumn (head ++ tail) p.character column ∧
        positionAt text (byteLength (before ++ head)) = ⟨p.line, column⟩) ∧
    ∀ number before line after head tail, IsLine text number before line after →
      dropCarriageReturn line = head ++ tail →
      (offsetAt text ⟨number, unitLength head⟩).map (positionAt text) =
        some ⟨number, unitLength head⟩ := by
  refine ⟨LineTable.position?_eq hsize, LineTable.offset?_eq text, fun offset => ?_,
    offsetAt_eq_none_iff text, fun p hle => ?_, ?_⟩
  · have hsplit := List.take_append_drop (charsWithin offset text) text
    refine ⟨_, _, hsplit.symm, isGreatest_charsWithin text offset, ?_⟩
    rw [positionAt]
    generalize text.take (charsWithin offset text) = before at *
    generalize text.drop (charsWithin offset text) = after at *
    subst hsplit
    split
    · next h => exact offsetAt_positionAfter_of_behindReturn h
    · next h => exact offsetAt_positionAfter h
  · obtain ⟨before, line, after, head, tail, hline, hcut, hoffset, hcolumn⟩ :=
      offsetAt_of_line_le hle
    exact ⟨before, line, after, head, tail, hline, hcut, hoffset, unitLength head, hcolumn,
      positionAt_of_isLine hline hcut⟩
  · intro number before line after head tail hline hcut
    rw [offsetAt_of_isLine hline hcut, Option.map_some, positionAt_of_isLine hline hcut]

/-- A line with a surrogate pair, ended by a carriage return and a line feed, and one more line. -/
def pairText : List Char := ['a', '😀', '\r', '\n', 'b']

/-- The offset behind the carriage return is rounded down, the column inside the pair is rounded up,
and the column in front of the pair stays. -/
theorem round_trip_around_pair :
    byteLength pairText < UInt32.size ∧
    (∃ before after, pairText = before ++ after ∧
      IsGreatest {b | IsBoundary pairText b ∧ b ≤ min 6 (byteLength pairText)} (byteLength before) ∧
      offsetAt pairText (positionAt pairText 6) =
        if BehindReturn before after then some (byteLength before - 1)
        else some (byteLength before)) ∧
    (⟨0, 2⟩ : Position).line ≤ pairText.count '\n' ∧
    (∃ before line after head tail, IsLine pairText 0 before line after ∧
      dropCarriageReturn line = head ++ tail ∧
      offsetAt pairText ⟨0, 2⟩ = some (byteLength (before ++ head)) ∧
      ∃ column, IsNextColumn (head ++ tail) 2 column ∧
        positionAt pairText (byteLength (before ++ head)) = ⟨0, column⟩) ∧
    IsLine pairText 0 [] ['a', '😀', '\r'] ['\n', 'b'] ∧
    dropCarriageReturn ['a', '😀', '\r'] = ['a'] ++ ['😀'] ∧
    (offsetAt pairText ⟨0, unitLength ['a']⟩).map (positionAt pairText) =
      some ⟨0, unitLength ['a']⟩ := by
  have hsize : byteLength pairText < UInt32.size := by decide
  obtain ⟨-, -, hoffsets, -, hpositions, hboundaries⟩ := offsetAt_positionAt_round_trip hsize
  have hline : IsLine pairText 0 [] ['a', '😀', '\r'] ['\n', 'b'] :=
    ⟨rfl, startsLine_nil, rfl, by decide, .inr rfl⟩
  have hcount : (⟨0, 2⟩ : Position).line ≤ pairText.count '\n' := Nat.zero_le _
  exact ⟨hsize, hoffsets 6, hcount, hpositions ⟨0, 2⟩ hcount, hline, by decide,
    hboundaries 0 [] _ _ ['a'] ['😀'] hline (by decide)⟩

end ScenarioServer
