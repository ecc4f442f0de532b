import Mathlib.Order.Bounds.Basic
import ScenarioServer.Proofs.Lines
import ScenarioServer.Proofs.Tokens

/-!
# Positions by a table of line starts

The conversions as they are done on bytes. A table holds the byte offset of every line; the line of
an offset is sought in it, and the column is counted in the slice between the two. A slice can fail:
its ends must be boundaries of the text, in order (`slice?`). So can an index into the table.

Neither ever does, and in a text of less than `UInt32.size` bytes the numbers fit into 32 bits:
`LineTable.position?_eq` and `LineTable.offset?_eq` say that the outcome is that of `positionAt` and
`offsetAt`.
-/

namespace ScenarioServer

namespace Text

/-! ## Boundaries -/

/-- A byte offset that stands between two characters or at an end of the text. -/
def IsBoundary (text : List Char) (offset : Nat) : Prop :=
  ∃ before after, text = before ++ after ∧ byteLength before = offset

theorem byteLength_take_charsWithin_le (offset : Nat) (text : List Char) :
    byteLength (text.take (charsWithin offset text)) ≤ offset := by
  induction text generalizing offset with
  | nil => exact Nat.zero_le _
  | cons c rest ih =>
      rw [charsWithin]
      split
      · next hfits =>
          have hrest := ih (offset - c.utf8Size)
          rw [List.take_succ_cons, byteLength_cons]
          omega
      · exact Nat.zero_le _

theorem le_byteLength_take_charsWithin {offset : Nat} {before : List Char}
    (h : byteLength before ≤ offset) (after : List Char) :
    byteLength before ≤
      byteLength ((before ++ after).take (charsWithin offset (before ++ after))) := by
  induction before generalizing offset with
  | nil => exact Nat.zero_le _
  | cons c before ih =>
      rw [byteLength_cons] at h
      have hrest := @ih (offset - c.utf8Size) (by omega)
      rw [List.cons_append, charsWithin, if_pos (by omega), List.take_succ_cons, byteLength_cons,
        byteLength_cons]
      omega

/-- The characters that end within an offset end at the last boundary up to it. -/
theorem isGreatest_charsWithin (text : List Char) (offset : Nat) :
    IsGreatest {b | IsBoundary text b ∧ b ≤ min offset (byteLength text)}
      (byteLength (text.take (charsWithin offset text))) := by
  constructor
  · have hsplit := List.take_append_drop (charsWithin offset text) text
    have hlength := congrArg byteLength hsplit
    have hle := byteLength_take_charsWithin_le offset text
    rw [byteLength_append] at hlength
    exact ⟨⟨_, _, hsplit.symm, rfl⟩, Nat.le_min.mpr ⟨hle, by omega⟩⟩
  · rintro b ⟨⟨before, after, rfl, rfl⟩, hle⟩
    exact le_byteLength_take_charsWithin (Nat.le_trans hle (Nat.min_le_left _ _)) after

/-! ## Slices -/

/-- A text cut in two at a byte offset; none if the offset is inside a character or past the end. -/
def splitBytes? : Nat → List Char → Option (List Char × List Char)
  | 0, text => some ([], text)
  | _ + 1, [] => none
  | offset + 1, c :: rest =>
    if c.utf8Size ≤ offset + 1 then
      (splitBytes? (offset + 1 - c.utf8Size) rest).map fun parts => (c :: parts.1, parts.2)
    else none

/-- The characters of a span of bytes; none if an end is not a boundary or the ends are in the wrong
order. -/
def slice? (text : List Char) (span : Span) : Option (List Char) := do
  let (front, _) ← splitBytes? span.last text
  let (_, chars) ← splitBytes? span.first front
  return chars

@[simp] theorem splitBytes?_zero (text : List Char) : splitBytes? 0 text = some ([], text) := by
  rw [splitBytes?]

theorem splitBytes?_append (before after : List Char) :
    splitBytes? (byteLength before) (before ++ after) = some (before, after) := by
  induction before with
  | nil => simp
  | cons c before ih =>
      have hpos := c.utf8Size_pos
      obtain ⟨offset, hoffset⟩ : ∃ offset, byteLength (c :: before) = offset + 1 :=
        Nat.exists_eq_add_one.mpr (by rw [byteLength_cons]; omega)
      have hsize : c.utf8Size ≤ offset + 1 := by
        rw [← hoffset, byteLength_cons]
        omega
      rw [hoffset, List.cons_append, splitBytes?, if_pos hsize, ← hoffset, byteLength_cons,
        Nat.add_sub_cancel_left, ih, Option.map_some]

/-- A text is cut at one offset in one way. -/
theorem cut_unique {before after before' after' : List Char}
    (htext : before ++ after = before' ++ after')
    (hlength : byteLength before = byteLength before') : before = before' ∧ after = after' := by
  have hcut := splitBytes?_append before after
  rw [htext, hlength, splitBytes?_append, Option.some.injEq, Prod.mk.injEq] at hcut
  exact ⟨hcut.1.symm, hcut.2.symm⟩

theorem isBoundary_of_splitBytes? {offset : Nat} {text : List Char} {parts : List Char × List Char}
    (h : splitBytes? offset text = some parts) : IsBoundary text offset := by
  fun_induction splitBytes? offset text generalizing parts with
  | case1 text => exact ⟨[], text, rfl, rfl⟩
  | case2 => cases h
  | case3 offset c rest hsize ih =>
      obtain ⟨inner, hinner, -⟩ := Option.map_eq_some_iff.mp h
      obtain ⟨before, after, rfl, hlength⟩ := ih hinner
      refine ⟨c :: before, after, rfl, ?_⟩
      rw [byteLength_cons, hlength]
      omega
  | case4 => cases h

theorem slice?_eq {text before chars after : List Char} {first last : Nat}
    (htext : text = before ++ chars ++ after) (hfirst : byteLength before = first)
    (hlast : byteLength (before ++ chars) = last) : slice? text ⟨first, last⟩ = some chars := by
  subst htext hfirst hlast
  simp only [slice?, splitBytes?_append, Option.bind_eq_bind, Option.bind_some, Option.pure_def]

/-! ## The boundary below an offset -/

/-- The last boundary up to an offset, sought downwards one byte at a time. -/
def roundDown (text : List Char) : Nat → Nat
  | 0 => 0
  | offset + 1 =>
    if (splitBytes? (offset + 1) text).isSome then offset + 1 else roundDown text offset

theorem isGreatest_roundDown (text : List Char) (offset : Nat) :
    IsGreatest {b | IsBoundary text b ∧ b ≤ offset} (roundDown text offset) := by
  induction offset with
  | zero => exact ⟨⟨⟨[], text, rfl, rfl⟩, Nat.le_refl 0⟩, fun b hb => hb.2⟩
  | succ offset ih =>
      rw [roundDown]
      split
      · next hsome =>
          obtain ⟨parts, hparts⟩ := Option.isSome_iff_exists.mp hsome
          exact ⟨⟨isBoundary_of_splitBytes? hparts, Nat.le_refl _⟩, fun b hb => hb.2⟩
      · next hnone =>
          refine ⟨⟨ih.1.1, Nat.le_succ_of_le ih.1.2⟩, ?_⟩
          rintro b ⟨hboundary, hle⟩
          have hne : b ≠ offset + 1 := by
            rintro rfl
            obtain ⟨before, after, rfl, hlength⟩ := hboundary
            rw [← hlength, splitBytes?_append] at hnone
            exact hnone rfl
          exact ih.2 ⟨hboundary, by omega⟩

theorem roundDown_eq (text : List Char) (offset : Nat) :
    roundDown text (min offset (byteLength text)) =
      byteLength (text.take (charsWithin offset text)) :=
  (isGreatest_roundDown text _).unique (isGreatest_charsWithin text offset)

/-! ## The table -/

namespace LineTable

/-- The offsets behind the line feeds of a text that itself starts at `offset`. -/
def startsFrom (offset : Nat) : List Char → List Nat
  | [] => []
  | c :: rest =>
    if c = '\n' then (offset + c.utf8Size) :: startsFrom (offset + c.utf8Size) rest
    else startsFrom (offset + c.utf8Size) rest

/-- The offset at which each line of a text starts. -/
def starts (text : List Char) : List Nat := 0 :: startsFrom 0 text

theorem startsFrom_append (offset : Nat) (text rest : List Char) :
    startsFrom offset (text ++ rest) =
      startsFrom offset text ++ startsFrom (offset + byteLength text) rest := by
  induction text generalizing offset with
  | nil => simp [startsFrom]
  | cons c text ih =>
      rw [List.cons_append, startsFrom, startsFrom, ih, byteLength_cons, Nat.add_assoc]
      split
      · rfl
      · rfl

theorem length_startsFrom (offset : Nat) (text : List Char) :
    (startsFrom offset text).length = text.count '\n' := by
  induction text generalizing offset with
  | nil => rfl
  | cons c text ih =>
      rw [startsFrom]
      split
      · next hc => rw [hc, List.length_cons, List.count_cons_self, ih]
      · next hc => rw [List.count_cons_of_ne hc, ih]

theorem mem_startsFrom {offset start : Nat} {text : List Char}
    (h : start ∈ startsFrom offset text) :
    offset < start ∧ start ≤ offset + byteLength text := by
  induction text generalizing offset with
  | nil => simp [startsFrom] at h
  | cons c text ih =>
      have hpos := c.utf8Size_pos
      rw [byteLength_cons]
      rw [startsFrom] at h
      split at h
      · rcases List.mem_cons.mp h with rfl | hrest
        · omega
        · have hbounds := ih hrest
          omega
      · have hbounds := ih h
        omega

/-- The table has the start of a line at the line's number. -/
theorem starts_getElem? {before : List Char} (hstarts : StartsLine before) (rest : List Char) :
    (starts (before ++ rest))[before.count '\n']? = some (byteLength before) := by
  rw [starts, startsFrom_append]
  rcases hstarts.cases with rfl | ⟨text, rfl⟩
  · rfl
  · have hlength := length_startsFrom 0 text
    rw [startsFrom_append, List.count_append, List.count_singleton_self, List.getElem?_cons_succ,
      List.append_assoc, ← hlength, List.getElem?_append_right (Nat.le_refl _), Nat.sub_self]
    simp [startsFrom]

theorem starts_getElem?_eq_none_iff (text : List Char) (number : Nat) :
    (starts text)[number]? = none ↔ text.count '\n' < number := by
  rw [List.getElem?_eq_none_iff, starts, List.length_cons, length_startsFrom]
  omega

/-- At a boundary, the entries up to it are those of the lines that start before it. -/
theorem length_takeWhile_starts (before after : List Char) :
    ((starts (before ++ after)).takeWhile (· ≤ byteLength before)).length =
      before.count '\n' + 1 := by
  have hbefore : ∀ start ∈ startsFrom 0 before, decide (start ≤ byteLength before) = true := by
    intro start hstart
    have hbounds := mem_startsFrom hstart
    exact decide_eq_true (by omega)
  have hafter :
      (startsFrom (0 + byteLength before) after).takeWhile (· ≤ byteLength before) = [] := by
    cases hstarts : startsFrom (0 + byteLength before) after with
    | nil => rfl
    | cons start others =>
        have hmem : start ∈ startsFrom (0 + byteLength before) after := by
          rw [hstarts]
          exact List.mem_cons_self
        have hbounds := mem_startsFrom hmem
        rw [List.takeWhile_cons_of_neg (by simp only [decide_eq_true_eq]; omega)]
  rw [starts, List.takeWhile_cons_of_pos (by simp), startsFrom_append,
    List.takeWhile_append_of_pos hbefore, hafter, List.append_nil, List.length_cons,
    length_startsFrom]

/-! ## Looking up an offset -/

/-- The position of a byte offset, in 32 bits; none if the table has no entry for its line or the
part of the line in front of it is no slice. -/
def position? (text : List Char) (offset : Nat) : Option Position := do
  let stop := roundDown text (min offset (byteLength text))
  let line := ((starts text).takeWhile (· ≤ stop)).length - 1
  let start ← (starts text)[line]?
  let chars ← slice? text ⟨start, stop⟩
  return ⟨line % UInt32.size, unitLength chars % UInt32.size⟩

theorem unitWidth_le_utf8Size (c : Char) : unitWidth c ≤ c.utf8Size := by
  have hpos := c.utf8Size_pos
  rw [unitWidth]
  split
  · exact hpos
  · next hlarge =>
      rw [Char.utf8Size]
      split
      · next h => exact absurd (Nat.lt_of_le_of_lt h (by decide)) hlarge
      · split
        · exact Nat.le_refl 2
        · split <;> omega

theorem unitLength_le_byteLength (text : List Char) : unitLength text ≤ byteLength text := by
  induction text with
  | nil => exact Nat.le_refl 0
  | cons c text ih =>
      have hwidth := unitWidth_le_utf8Size c
      rw [unitLength_cons, byteLength_cons]
      omega

theorem length_le_byteLength (text : List Char) : text.length ≤ byteLength text := by
  induction text with
  | nil => exact Nat.le_refl 0
  | cons c text ih =>
      have hpos := c.utf8Size_pos
      rw [List.length_cons, byteLength_cons]
      omega

/-- In a text of less than `UInt32.size` bytes the look-up succeeds and gives the position. -/
theorem position?_eq {text : List Char} (hsize : byteLength text < UInt32.size) (offset : Nat) :
    position? text offset = some (positionAt text offset) := by
  have hsplit := List.take_append_drop (charsWithin offset text) text
  rw [position?, positionAt, roundDown_eq]
  generalize text.take (charsWithin offset text) = before at *
  generalize text.drop (charsWithin offset text) = after at *
  subst hsplit
  obtain ⟨start, head, rfl, hstarts, hhead⟩ := exists_lastLine before
  have hcount : (start ++ head).count '\n' = start.count '\n' := by
    rw [List.count_append, List.count_eq_zero_of_not_mem hhead, Nat.add_zero]
  have hentry := starts_getElem? hstarts (head ++ after)
  rw [← List.append_assoc] at hentry
  have hslice : slice? (start ++ head ++ after) ⟨byteLength start, byteLength (start ++ head)⟩ =
      some head := slice?_eq rfl rfl rfl
  rw [byteLength_append, byteLength_append] at hsize
  have hline : start.count '\n' < UInt32.size := by
    have hle := Nat.le_trans (start.count_le_length (a := '\n')) (length_le_byteLength start)
    omega
  have hcolumn : unitLength head < UInt32.size := by
    have hle := unitLength_le_byteLength head
    omega
  simp only [length_takeWhile_starts, hcount, Nat.add_sub_cancel, hentry, hslice,
    Option.bind_eq_bind, Option.bind_some, Option.pure_def, Nat.mod_eq_of_lt hline,
    Nat.mod_eq_of_lt hcolumn, positionAfter_append hstarts hhead]

/-! ## Looking up a position -/

/-- The bytes of a line in front of a column: the scan stops at the first character that starts at
the column or behind it. -/
def scanColumn (column units bytes : Nat) : List Char → Nat
  | [] => bytes
  | c :: rest =>
    if column ≤ units then bytes
    else scanColumn column (units + unitWidth c) (bytes + c.utf8Size) rest

/-- The byte offset of a position, if the text has its line; no answer at all if what follows the
start of the line is no slice. -/
def offset? (text : List Char) (p : Position) : Option (Option Nat) :=
  match (starts text)[p.line]? with
  | none => some none
  | some start => do
    let rest ← slice? text ⟨start, byteLength text⟩
    return some (start + scanColumn p.character 0 0 (lineContent rest))

theorem scanColumn_eq (column units bytes : Nat) (content : List Char) :
    scanColumn column units bytes content =
      bytes + byteLength (content.take (columnIndex (column - units) content)) := by
  induction content generalizing units bytes with
  | nil => simp [scanColumn]
  | cons c rest ih =>
      rw [scanColumn]
      split
      · next hle =>
          rw [Nat.sub_eq_zero_of_le hle, columnIndex_zero]
          simp
      · next hlt =>
          rw [ih, columnIndex_cons (by omega), List.take_succ_cons, byteLength_cons,
            Nat.sub_add_eq, Nat.add_assoc]

/-- The look-up of a position succeeds and gives its offset. -/
theorem offset?_eq (text : List Char) (p : Position) :
    offset? text p = some (offsetAt text p) := by
  cases hindex : indexAt text p with
  | none =>
      have hline := (indexAt_eq_none_iff text p).mp hindex
      rw [offset?, (starts_getElem?_eq_none_iff text p.line).mpr hline,
        (offsetAt_eq_none_iff text p).mpr hline]
  | some index =>
      obtain ⟨before, line, after, head, tail, h, hcut, hlength, htake, -⟩ := indexAt_cases hindex
      have hentry := starts_getElem? h.starts (line ++ after)
      rw [h.count_eq, ← List.append_assoc, ← h.text_eq] at hentry
      have htext : text = before ++ (line ++ after) ++ [] := by simp [h.text_eq]
      have hslice : slice? text ⟨byteLength before, byteLength text⟩ = some (line ++ after) :=
        slice?_eq htext rfl (by rw [htext, List.append_nil])
      have hscan : scanColumn p.character 0 0 (head ++ tail) = byteLength head := by
        rw [scanColumn_eq, Nat.sub_zero, ← hlength, List.take_left, Nat.zero_add]
      simp only [offset?, hentry, hslice, Option.bind_eq_bind, Option.bind_some, Option.pure_def,
        lineContent, takeWhile_line h.unbroken h.ends, hcut, hscan]
      rw [offsetAt, hindex, Option.map_some, htake, byteLength_append]

end LineTable

end Text

end ScenarioServer
