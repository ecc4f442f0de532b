import Mathlib.Data.List.Induction
import ScenarioServer.Text.Position

/-!
# Lines and columns

The theory under the conversions between positions and offsets. A text is cut into what stands
before a line, the line, and what follows (`IsLine`); a line is cut at a column. Along these two
cuts `positionAfter` and `indexAt` have closed forms, `positionAfter_append` and
`indexAt_of_isLine`, and every statement about positions is read off them.

Positions are ordered by line, then by column, and a longer beginning of a text ends at a later
position (`positionAfter_lt`).
-/

namespace ScenarioServer

/-! ## The order of positions -/

namespace Position

instance : LT Position :=
  ⟨fun p q => p.line < q.line ∨ p.line = q.line ∧ p.character < q.character⟩

instance : LE Position :=
  ⟨fun p q => p.line < q.line ∨ p.line = q.line ∧ p.character ≤ q.character⟩

theorem lt_iff {p q : Position} :
    p < q ↔ p.line < q.line ∨ p.line = q.line ∧ p.character < q.character := Iff.rfl

theorem le_iff {p q : Position} :
    p ≤ q ↔ p.line < q.line ∨ p.line = q.line ∧ p.character ≤ q.character := Iff.rfl

instance (p q : Position) : Decidable (p < q) := decidable_of_iff _ lt_iff.symm

instance (p q : Position) : Decidable (p ≤ q) := decidable_of_iff _ le_iff.symm

theorem lt_trans {p q r : Position} (hpq : p < q) (hqr : q < r) : p < r := by
  rw [lt_iff] at *
  omega

end Position

namespace Text

/-! ## Widths -/

theorem unitWidth_pos (c : Char) : 0 < unitWidth c := by
  unfold unitWidth
  split <;> omega

@[simp] theorem unitLength_nil : unitLength [] = 0 := rfl

@[simp] theorem unitLength_cons (c : Char) (text : List Char) :
    unitLength (c :: text) = unitWidth c + unitLength text := rfl

@[simp] theorem unitLength_append (text rest : List Char) :
    unitLength (text ++ rest) = unitLength text + unitLength rest := by
  induction text with
  | nil => simp
  | cons c text ih => simp [ih, Nat.add_assoc]

theorem unitLength_pos {text : List Char} (hne : text ≠ []) : 0 < unitLength text := by
  cases text with
  | nil => exact absurd rfl hne
  | cons c text =>
      have hpos := unitWidth_pos c
      rw [unitLength_cons]
      omega

/-! ## Where lines start -/

/-- A line starts behind `before`. -/
def StartsLine (before : List Char) : Prop := before = [] ∨ before.getLast? = some '\n'

theorem startsLine_nil : StartsLine [] := .inl rfl

theorem startsLine_concat (text : List Char) : StartsLine (text ++ ['\n']) := .inr (by simp)

theorem StartsLine.cases {before : List Char} (h : StartsLine before) :
    before = [] ∨ ∃ text, before = text ++ ['\n'] := by
  rcases h with rfl | hlast
  · exact .inl rfl
  · exact .inr (List.getLast?_eq_some_iff.mp hlast)

/-- Every beginning of a text is made of whole lines and the beginning of one more. -/
theorem exists_lastLine (text : List Char) :
    ∃ before head, text = before ++ head ∧ StartsLine before ∧ '\n' ∉ head := by
  induction text using List.reverseRecOn with
  | nil => exact ⟨[], [], rfl, startsLine_nil, by simp⟩
  | append_singleton text c ih =>
      by_cases hc : c = '\n'
      · subst hc
        exact ⟨text ++ ['\n'], [], by simp, startsLine_concat text, by simp⟩
      · obtain ⟨before, head, rfl, hstarts, hhead⟩ := ih
        refine ⟨before, head ++ [c], by simp, hstarts, ?_⟩
        intro hmem
        rcases List.mem_append.mp hmem with hmem | hmem
        · exact hhead hmem
        · exact hc (List.mem_singleton.mp hmem).symm

theorem exists_startsLine {number : Nat} {text : List Char} (h : number ≤ text.count '\n') :
    ∃ before rest, text = before ++ rest ∧ StartsLine before ∧ before.count '\n' = number := by
  induction number with
  | zero => exact ⟨[], text, rfl, startsLine_nil, rfl⟩
  | succ number ih =>
      obtain ⟨before, rest, rfl, -, hcount⟩ := ih (by omega)
      have hmem : '\n' ∈ rest := by
        rw [List.count_append] at h
        exact List.count_pos_iff.mp (by omega)
      obtain ⟨line, after, rfl, hline⟩ := List.eq_append_cons_of_mem hmem
      refine ⟨before ++ line ++ ['\n'], after, by simp, startsLine_concat _, ?_⟩
      simp [List.count_append, List.count_eq_zero_of_not_mem hline, hcount]

theorem lineStart_append {before : List Char} (hstarts : StartsLine before) (rest : List Char) :
    lineStart (before.count '\n') (before ++ rest) = some before.length := by
  induction before with
  | nil => rw [List.count_nil, List.nil_append, lineStart, List.length_nil]
  | cons c before ih =>
      by_cases hc : c = '\n'
      · subst hc
        have hrest : StartsLine before := by
          cases before with
          | nil => exact startsLine_nil
          | cons d before => exact .inr (by simpa [StartsLine] using hstarts)
        rw [List.count_cons_self, List.cons_append, lineStart, if_pos rfl, ih hrest]
        rfl
      · -- the line feed that ends `before` is still to come
        have hlast : before.getLast? = some '\n' := by
          cases before with
          | nil => simp [StartsLine, hc] at hstarts
          | cons d before => simpa [StartsLine] using hstarts
        have hpos : 0 < before.count '\n' := List.count_pos_iff.mpr (List.mem_of_getLast? hlast)
        obtain ⟨number, hnumber⟩ := Nat.exists_eq_succ_of_ne_zero (Nat.ne_of_gt hpos)
        have hrest := ih (.inr hlast)
        rw [hnumber] at hrest
        rw [List.count_cons_of_ne hc, hnumber, List.cons_append, lineStart, if_neg hc, hrest]
        rfl

theorem lineStart_eq_none_iff (number : Nat) (text : List Char) :
    lineStart number text = none ↔ text.count '\n' < number := by
  fun_induction lineStart number text with
  | case1 => simp
  | case2 => simp
  | case3 number rest ih =>
      rw [Option.map_eq_none_iff, ih, List.count_cons_self]
      omega
  | case4 number c rest hc ih =>
      rw [Option.map_eq_none_iff, ih, List.count_cons_of_ne hc]

/-! ## The position behind a text -/

theorem positionAfter_concat (text : List Char) (c : Char) :
    positionAfter (text ++ [c]) = (positionAfter text).advance c := by
  simp [positionAfter]

theorem positionAfter_line (text : List Char) : (positionAfter text).line = text.count '\n' := by
  induction text using List.reverseRecOn with
  | nil => rfl
  | append_singleton text c ih =>
      rw [positionAfter_concat, Position.advance, List.count_append]
      by_cases hc : c = '\n'
      · simp [hc, ih]
      · simp [hc, ih]

/-- Behind whole lines and the beginning `head` of one more, the line is the number of line feeds
and the column is the width of `head`. -/
theorem positionAfter_append {before head : List Char} (hstarts : StartsLine before)
    (hhead : '\n' ∉ head) :
    positionAfter (before ++ head) = ⟨before.count '\n', unitLength head⟩ := by
  induction head using List.reverseRecOn with
  | nil =>
      rw [List.append_nil]
      rcases hstarts.cases with rfl | ⟨text, rfl⟩
      · rfl
      · rw [positionAfter_concat, Position.advance, if_pos rfl, positionAfter_line]
        simp
  | append_singleton head c ih =>
      have hc : c ≠ '\n' := by
        rintro rfl
        simp at hhead
      have hinit : '\n' ∉ head := fun hmem => hhead (List.mem_append_left _ hmem)
      rw [← List.append_assoc, positionAfter_concat, ih hinit, Position.advance, if_neg hc]
      simp

theorem positionAfter_append_unbroken (before : List Char) {more : List Char} (h : '\n' ∉ more) :
    positionAfter (before ++ more) =
      ⟨(positionAfter before).line, (positionAfter before).character + unitLength more⟩ := by
  obtain ⟨start, head, rfl, hstarts, hhead⟩ := exists_lastLine before
  have hboth : '\n' ∉ head ++ more := by
    rw [List.mem_append]
    exact not_or_intro hhead h
  rw [positionAfter_append hstarts hhead, List.append_assoc, positionAfter_append hstarts hboth,
    unitLength_append]

theorem lt_advance (p : Position) (c : Char) : p < p.advance c := by
  have hpos := unitWidth_pos c
  rw [Position.advance, Position.lt_iff]
  split
  · exact .inl (by simp)
  · exact .inr ⟨rfl, by simp [hpos]⟩

/-- A longer beginning of a text ends at a later position. -/
theorem positionAfter_lt (before : List Char) {rest : List Char} (hne : rest ≠ []) :
    positionAfter before < positionAfter (before ++ rest) := by
  induction rest using List.reverseRecOn with
  | nil => exact absurd rfl hne
  | append_singleton rest c ih =>
      have hstep := lt_advance (positionAfter (before ++ rest)) c
      rw [← positionAfter_concat, List.append_assoc] at hstep
      by_cases hrest : rest = []
      · subst hrest
        simpa using hstep
      · exact Position.lt_trans (ih hrest) hstep

/-! ## The content of a line -/

/-- Line `number` of a text: what stands before it, the line without its line feed, and what
follows, that line feed included. -/
structure IsLine (text : List Char) (number : Nat) (before line after : List Char) : Prop where
  text_eq : text = before ++ line ++ after
  starts : StartsLine before
  count_eq : before.count '\n' = number
  unbroken : '\n' ∉ line
  ends : after = [] ∨ after.head? = some '\n'

theorem takeWhile_line {line after : List Char} (hline : '\n' ∉ line)
    (hafter : after = [] ∨ after.head? = some '\n') :
    (line ++ after).takeWhile (· ≠ '\n') = line := by
  have hall : ∀ c ∈ line, decide (c ≠ '\n') = true := by
    intro c hc
    simp only [ne_eq, decide_eq_true_eq]
    rintro rfl
    exact hline hc
  rw [List.takeWhile_append_of_pos hall]
  rcases hafter with rfl | hhead
  · simp
  · cases after with
    | nil => simp
    | cons c after =>
        obtain rfl : c = '\n' := by simpa using hhead
        simp

theorem exists_isLine {number : Nat} {text : List Char} (h : number ≤ text.count '\n') :
    ∃ before line after, IsLine text number before line after := by
  obtain ⟨before, rest, rfl, hstarts, hcount⟩ := exists_startsLine h
  by_cases hmem : '\n' ∈ rest
  · obtain ⟨line, after, rfl, hline⟩ := List.eq_append_cons_of_mem hmem
    exact ⟨before, line, '\n' :: after, by simp, hstarts, hcount, hline, .inr rfl⟩
  · exact ⟨before, rest, [], by simp, hstarts, hcount, hmem, .inl rfl⟩

theorem dropCarriageReturn_concat (line : List Char) :
    dropCarriageReturn (line ++ ['\r']) = line := by
  simp [dropCarriageReturn]

theorem dropCarriageReturn_of_ne {line : List Char} (h : line.getLast? ≠ some '\r') :
    dropCarriageReturn line = line := if_neg h

/-- A line is its content, or its content and one carriage return. -/
theorem eq_dropCarriageReturn (line : List Char) :
    ∃ stop, line = dropCarriageReturn line ++ stop ∧ (stop = [] ∨ stop = ['\r']) := by
  by_cases h : line.getLast? = some '\r'
  · obtain ⟨init, rfl⟩ := List.getLast?_eq_some_iff.mp h
    exact ⟨['\r'], by rw [dropCarriageReturn_concat], .inr rfl⟩
  · exact ⟨[], by rw [dropCarriageReturn_of_ne h, List.append_nil], .inl rfl⟩

/-! ## Columns -/

theorem columnIndex_zero (content : List Char) : columnIndex 0 content = 0 := by
  cases content <;> simp [columnIndex]

theorem columnIndex_cons {column : Nat} (hpos : 0 < column) (c : Char) (rest : List Char) :
    columnIndex column (c :: rest) = columnIndex (column - unitWidth c) rest + 1 := by
  rw [columnIndex, if_neg (by omega)]

theorem columnIndex_le_length (column : Nat) (content : List Char) :
    columnIndex column content ≤ content.length := by
  fun_induction columnIndex column content with
  | case1 => simp
  | case2 => simp
  | case3 column c rest _ ih =>
      rw [List.length_cons]
      omega

/-- The column of a cut of the content is where the content is cut. -/
theorem columnIndex_unitLength (head tail : List Char) :
    columnIndex (unitLength head) (head ++ tail) = head.length := by
  induction head with
  | nil => exact columnIndex_zero tail
  | cons c head ih =>
      have hpos := unitLength_pos (List.cons_ne_nil c head)
      rw [List.cons_append, columnIndex_cons hpos, unitLength_cons, Nat.add_sub_cancel_left, ih,
        List.length_cons]

theorem columnIndex_mono {first last : Nat} (hle : first ≤ last) (content : List Char) :
    columnIndex first content ≤ columnIndex last content := by
  induction content generalizing first last with
  | nil => simp [columnIndex]
  | cons c rest ih =>
      by_cases hzero : first = 0
      · subst hzero
        rw [columnIndex_zero]
        exact Nat.zero_le _
      · have hrest := ih (Nat.sub_le_sub_right hle (unitWidth c))
        rw [columnIndex_cons (by omega), columnIndex_cons (by omega)]
        omega

/-- In front of the cut at a column there is no place at or behind the column. -/
theorem unitLength_lt_of_lt_columnIndex {column index : Nat} {content : List Char}
    (h : index < columnIndex column content) : unitLength (content.take index) < column := by
  induction content generalizing column index with
  | nil => simp [columnIndex] at h
  | cons c rest ih =>
      have hpos : 0 < column := by
        apply Nat.pos_of_ne_zero
        rintro rfl
        simp [columnIndex_zero] at h
      rw [columnIndex_cons hpos] at h
      cases index with
      | zero => simpa using hpos
      | succ index =>
          have hrest := ih (Nat.lt_of_succ_lt_succ h)
          rw [List.take_succ_cons, unitLength_cons]
          omega

/-- The cut at a column is at or behind the column, unless the content ends there. -/
theorem le_unitLength_of_columnIndex_lt {column : Nat} {content : List Char}
    (h : columnIndex column content < content.length) :
    column ≤ unitLength (content.take (columnIndex column content)) := by
  induction content generalizing column with
  | nil => simp at h
  | cons c rest ih =>
      by_cases hzero : column = 0
      · omega
      · rw [columnIndex_cons (by omega)] at h ⊢
        have hrest := ih (by simpa using h)
        rw [List.take_succ_cons, unitLength_cons]
        omega

/-! ## The place of a position -/

/-- In a text with the line of a position, the place of the position is the start of the line and as
much of its content as stands before the column. -/
theorem indexAt_of_isLine {text before line after : List Char} {p : Position}
    (h : IsLine text p.line before line after) :
    indexAt text p = some (before.length + columnIndex p.character (dropCarriageReturn line)) := by
  have hstart := lineStart_append h.starts (line ++ after)
  rw [h.count_eq, ← List.append_assoc, ← h.text_eq] at hstart
  have hdrop : text.drop before.length = line ++ after := by
    rw [h.text_eq, List.append_assoc, List.drop_left]
  rw [indexAt, hstart, Option.map_some, hdrop, lineContent, takeWhile_line h.unbroken h.ends]

theorem indexAt_eq_none_iff (text : List Char) (p : Position) :
    indexAt text p = none ↔ text.count '\n' < p.line := by
  rw [indexAt, Option.map_eq_none_iff, lineStart_eq_none_iff]

theorem offsetAt_eq_none_iff (text : List Char) (p : Position) :
    offsetAt text p = none ↔ text.count '\n' < p.line := by
  rw [offsetAt, Option.map_eq_none_iff, indexAt_eq_none_iff]

theorem offsetAt_of_indexAt {before after : List Char} {p : Position}
    (h : indexAt (before ++ after) p = some before.length) :
    offsetAt (before ++ after) p = some (byteLength before) := by
  rw [offsetAt, h, Option.map_some, List.take_left]

theorem IsLine.isPrefix {text before line after head tail : List Char} {number : Nat}
    (h : IsLine text number before line after) (hcut : dropCarriageReturn line = head ++ tail) :
    before ++ head <+: text := by
  obtain ⟨stop, hline, -⟩ := eq_dropCarriageReturn line
  rw [hcut] at hline
  refine ⟨tail ++ stop ++ after, ?_⟩
  rw [h.text_eq, hline]
  simp only [List.append_assoc]

theorem IsLine.not_mem_head {text before line after head tail : List Char} {number : Nat}
    (h : IsLine text number before line after) (hcut : dropCarriageReturn line = head ++ tail) :
    '\n' ∉ head := by
  obtain ⟨stop, hline, -⟩ := eq_dropCarriageReturn line
  rw [hcut] at hline
  intro hmem
  apply h.unbroken
  rw [hline]
  exact List.mem_append_left _ (List.mem_append_left _ hmem)

/-- Everything about the place of a position: the text is cut in front of the position's line, and
the content of that line is cut at its column. -/
theorem indexAt_cases {text : List Char} {p : Position} {index : Nat}
    (h : indexAt text p = some index) :
    ∃ before line after head tail, IsLine text p.line before line after ∧
      dropCarriageReturn line = head ++ tail ∧
      head.length = columnIndex p.character (head ++ tail) ∧
      text.take index = before ++ head ∧ index = (before ++ head).length := by
  have hline : p.line ≤ text.count '\n' := by
    apply Nat.le_of_not_lt
    rw [← indexAt_eq_none_iff, h]
    simp
  obtain ⟨before, line, after, hisLine⟩ := exists_isLine hline
  rw [indexAt_of_isLine hisLine, Option.some.injEq] at h
  have hle := columnIndex_le_length p.character (dropCarriageReturn line)
  generalize hcontent : dropCarriageReturn line = content at h hle
  generalize hcut : columnIndex p.character content = cut at h hle
  have hsplit : dropCarriageReturn line = content.take cut ++ content.drop cut := by
    rw [hcontent, List.take_append_drop]
  have hlength : (content.take cut).length = cut := by
    rw [List.length_take]
    omega
  have hindex : index = (before ++ content.take cut).length := by
    rw [List.length_append, hlength, h]
  refine ⟨before, line, after, content.take cut, content.drop cut, hisLine, hsplit, ?_, ?_, hindex⟩
  · rw [List.take_append_drop, hlength, hcut]
  · rw [hindex]
    exact (List.prefix_iff_eq_take.mp (hisLine.isPrefix hsplit)).symm

theorem count_take_indexAt {text : List Char} {p : Position} {index : Nat}
    (h : indexAt text p = some index) : (text.take index).count '\n' = p.line := by
  obtain ⟨before, line, after, head, tail, hline, hcut, -, htake, -⟩ := indexAt_cases h
  have hhead := List.count_eq_zero_of_not_mem (hline.not_mem_head hcut)
  rw [htake, List.count_append, hline.count_eq, hhead, Nat.add_zero]

/-- On one line, a later column has a later place. -/
theorem indexAt_mono {text : List Char} {p q : Position} {i j : Nat} (hline : p.line = q.line)
    (hle : p.character ≤ q.character) (hp : indexAt text p = some i)
    (hq : indexAt text q = some j) : i ≤ j := by
  obtain ⟨before, line, after, head, tail, hisLine, -⟩ := indexAt_cases hp
  have hmono := columnIndex_mono hle (dropCarriageReturn line)
  rw [indexAt_of_isLine hisLine, Option.some.injEq] at hp
  rw [hline] at hisLine
  rw [indexAt_of_isLine hisLine, Option.some.injEq] at hq
  omega

end Text

end ScenarioServer
