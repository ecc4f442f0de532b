import ScenarioServer.Proofs.LineTable

/-!
# The line of an offset, by halving

The table of line starts is strictly increasing (`pairwise_starts`), so the entries up to an offset
are a beginning of it, and there is one place where they end (`IsPartition`). A search that halves
the table finds this place whatever the text (`bisect_eq`), and `sought?` is the conversion of a byte
offset with that search in it: the offset is rounded down byte by byte, the line is sought, and the
column is counted in a slice, with every index and every slice checked.

`positionAt_embeds_offsets` has the outcome for every offset of every text, in counts of line feeds
and code units, and says that positions are in the order of the places they belong to.
-/

namespace ScenarioServer

namespace Text

namespace LineTable

/-! ## The order of the table -/

theorem pairwise_startsFrom (offset : Nat) (text : List Char) :
    (startsFrom offset text).Pairwise (· < ·) := by
  induction text generalizing offset with
  | nil => exact .nil
  | cons c text ih =>
      rw [startsFrom]
      split
      · exact .cons (fun start hstart => (mem_startsFrom hstart).1) (ih _)
      · exact ih _

/-- Every line starts behind the one before it. -/
theorem pairwise_starts (text : List Char) : (starts text).Pairwise (· < ·) :=
  .cons (fun _ hstart => (mem_startsFrom hstart).1) (pairwise_startsFrom 0 text)

/-! ## The search -/

/-- The entries in front of `point` are not above `stop`, and those from there on are. -/
structure IsPartition (table : List Nat) (stop point : Nat) : Prop where
  le_length : point ≤ table.length
  below : ∀ i start, i < point → table[i]? = some start → start ≤ stop
  above : ∀ i start, point ≤ i → table[i]? = some start → stop < start

theorem IsPartition.le {table : List Nat} {stop point other : Nat}
    (h : IsPartition table stop point) (h' : IsPartition table stop other) : point ≤ other := by
  apply Nat.le_of_not_lt
  intro hlt
  have hlength := h.le_length
  have hentry := List.getElem?_eq_getElem (show other < table.length by omega)
  have hbelow := h.below other _ hlt hentry
  have habove := h'.above other _ (Nat.le_refl _) hentry
  omega

/-- A table is parted in one place at most. -/
theorem IsPartition.unique {table : List Nat} {stop point other : Nat}
    (h : IsPartition table stop point) (h' : IsPartition table stop other) : point = other :=
  Nat.le_antisymm (h.le h') (h'.le h)

/-- An increasing table is parted where its entries up to `stop` end. -/
theorem isPartition_takeWhile {table : List Nat} (hsorted : table.Pairwise (· < ·)) (stop : Nat) :
    IsPartition table stop (table.takeWhile (· ≤ stop)).length := by
  induction table with
  | nil => exact ⟨Nat.le_refl _, by simp, by simp⟩
  | cons first rest ih =>
      obtain ⟨hfirst, hrest⟩ := List.pairwise_cons.mp hsorted
      by_cases hle : first ≤ stop
      · have h := ih hrest
        rw [List.takeWhile_cons_of_pos (by simpa using hle), List.length_cons]
        refine ⟨Nat.succ_le_succ h.le_length, fun i start hi hentry => ?_,
          fun i start hi hentry => ?_⟩
        · cases i with
          | zero =>
              obtain rfl : first = start := by simpa using hentry
              exact hle
          | succ i => exact h.below i start (by omega) hentry
        · cases i with
          | zero => omega
          | succ i => exact h.above i start (by omega) hentry
      · rw [List.takeWhile_cons_of_neg (by simpa using hle), List.length_nil]
        refine ⟨Nat.zero_le _, fun i _ hi => absurd hi (Nat.not_lt_zero i),
          fun i start _ hentry => ?_⟩
        have hge : first ≤ start := by
          rcases List.mem_cons.mp (List.mem_of_getElem? hentry) with rfl | hmem
          · exact Nat.le_refl _
          · exact Nat.le_of_lt (hfirst start hmem)
        omega

theorem entry_le {table : List Nat} (hsorted : table.Pairwise (· < ·)) {i j a b : Nat} (hle : i ≤ j)
    (ha : table[i]? = some a) (hb : table[j]? = some b) : a ≤ b := by
  obtain ⟨hi, rfl⟩ := List.getElem?_eq_some_iff.mp ha
  obtain ⟨hj, rfl⟩ := List.getElem?_eq_some_iff.mp hb
  rcases Nat.lt_or_eq_of_le hle with hlt | rfl
  · exact Nat.le_of_lt (List.pairwise_iff_getElem.mp hsorted i j hi hj hlt)
  · exact Nat.le_refl _

/-- The number of entries up to `stop`, if it is from `low` to `high`. -/
def bisect (table : List Nat) (stop low high : Nat) : Nat :=
  if low < high then
    let middle := low + (high - low) / 2
    if table[middle]?.any (· ≤ stop) then bisect table stop (middle + 1) high
    else bisect table stop low middle
  else low
termination_by high - low

/-- What the search keeps: all entries in front of `low` are up to `stop`, and none from `high` on. -/
theorem isPartition_bisect {table : List Nat} (hsorted : table.Pairwise (· < ·)) {stop low high : Nat}
    (hle : low ≤ high) (hlength : high ≤ table.length)
    (hbelow : ∀ i start, i < low → table[i]? = some start → start ≤ stop)
    (habove : ∀ i start, high ≤ i → table[i]? = some start → stop < start) :
    IsPartition table stop (bisect table stop low high) := by
  fun_induction bisect table stop low high with
  | case1 low high hlt middle hentry ih =>
      have hmiddle := List.getElem?_eq_getElem (show middle < table.length by omega)
      rw [hmiddle, Option.any_some, decide_eq_true_iff] at hentry
      refine ih (by omega) hlength (fun i start hi hstart => ?_) habove
      exact Nat.le_trans (entry_le hsorted (by omega) hstart hmiddle) hentry
  | case2 low high hlt middle hentry ih =>
      have hmiddle := List.getElem?_eq_getElem (show middle < table.length by omega)
      rw [hmiddle, Option.any_some, decide_eq_true_iff, Nat.not_le] at hentry
      refine ih (by omega) (by omega) hbelow fun i start hi hstart => ?_
      exact Nat.lt_of_lt_of_le hentry (entry_le hsorted hi hmiddle hstart)
  | case3 low high hge =>
      obtain rfl : low = high := by omega
      exact ⟨hlength, hbelow, habove⟩

/-- At a boundary the table is parted behind the entries of the lines that start up to it. -/
theorem isPartition_starts_iff (before after : List Char) (point : Nat) :
    IsPartition (starts (before ++ after)) (byteLength before) point ↔
      point = before.count '\n' + 1 := by
  have h := isPartition_takeWhile (pairwise_starts (before ++ after)) (byteLength before)
  rw [length_takeWhile_starts] at h
  constructor
  · intro hpoint
    exact hpoint.unique h
  · rintro rfl
    exact h

theorem bisect_eq {table : List Nat} (hsorted : table.Pairwise (· < ·)) (stop : Nat) :
    bisect table stop 0 table.length = (table.takeWhile (· ≤ stop)).length := by
  have h : IsPartition table stop (bisect table stop 0 table.length) := by
    refine isPartition_bisect hsorted (Nat.zero_le _) (Nat.le_refl _)
      (fun i _ hi => absurd hi (Nat.not_lt_zero i)) fun i start hi hentry => ?_
    rw [List.getElem?_eq_none hi] at hentry
    cases hentry
  exact h.unique (isPartition_takeWhile hsorted stop)

/-! ## The conversion -/

/-- The position of a byte offset, in 32 bits, with its line sought by halving; none if the table has
no entry for the line or the part of the line in front of the offset is no slice. -/
def sought? (text : List Char) (offset : Nat) : Option Position := do
  let stop := roundDown text (min offset (byteLength text))
  let line := bisect (starts text) stop 0 (starts text).length - 1
  let start ← (starts text)[line]?
  let chars ← slice? text ⟨start, stop⟩
  return ⟨line % UInt32.size, unitLength chars % UInt32.size⟩

theorem sought?_eq {text : List Char} (hsize : byteLength text < UInt32.size) (offset : Nat) :
    sought? text offset = some (positionAt text offset) := by
  rw [← position?_eq hsize, sought?, position?]
  simp only [bisect_eq (pairwise_starts text)]

end LineTable

/-- A later boundary has a later position. -/
theorem positionAt_lt {text : List Char} {first last : Nat} (hfirst : IsBoundary text first)
    (hlast : IsBoundary text last) (hlt : first < last) :
    positionAt text first < positionAt text last := by
  obtain ⟨before, rest, rfl, rfl⟩ := hfirst
  obtain ⟨before', rest', htext, rfl⟩ := hlast
  obtain ⟨between, rfl, rfl⟩ := exists_between htext (Nat.le_of_lt hlt)
  have hne : between ≠ [] := by
    rintro rfl
    simp at hlt
  have hposition := positionAt_append (before ++ between) rest'
  rw [List.append_assoc] at hposition
  rw [positionAt_append, hposition]
  exact positionAfter_lt before hne

end Text

open Text

/-- In a text of less than `UInt32.size` bytes, for an offset of any size: rounding down ends at the
last boundary up to the offset; there the table of lines is parted in one place, which the search by
halving finds; the look-up and the slice succeed, and in 32 bits they give the line feeds in front of
that boundary and the code units since the last of them. Boundaries and their positions are in the
same order. -/
theorem positionAt_embeds_offsets {text : List Char} (hsize : byteLength text < UInt32.size) :
    (∀ offset, ∃ start head after, text = start ++ head ++ after ∧
      IsGreatest {b | IsBoundary text b ∧ b ≤ min offset (byteLength text)}
        (byteLength (start ++ head)) ∧
      roundDown text (min offset (byteLength text)) = byteLength (start ++ head) ∧
      (∀ point, LineTable.IsPartition (LineTable.starts text) (byteLength (start ++ head)) point ↔
        point = (start ++ head).count '\n' + 1) ∧
      StartsLine start ∧ '\n' ∉ head ∧
      positionAt text offset = ⟨(start ++ head).count '\n', unitLength head⟩ ∧
      LineTable.sought? text offset = some (positionAt text offset)) ∧
    ∀ first last, IsBoundary text first → IsBoundary text last → first < last →
      positionAt text first < positionAt text last := by
  refine ⟨fun offset => ?_, fun first last => positionAt_lt⟩
  have hsplit := (List.take_append_drop (charsWithin offset text) text).symm
  have hgreatest := isGreatest_charsWithin text offset
  have hround := roundDown_eq text offset
  obtain ⟨start, head, hbefore, hstarts, hhead⟩ := exists_lastLine (text.take (charsWithin offset text))
  rw [hbefore] at hsplit hgreatest hround
  refine ⟨start, head, _, hsplit, hgreatest, hround, fun point => ?_, hstarts, hhead, ?_,
    LineTable.sought?_eq hsize offset⟩
  · rw [hsplit]
    exact LineTable.isPartition_starts_iff _ _ point
  · rw [positionAt, hbefore, positionAfter_append hstarts hhead, List.count_append,
      List.count_eq_zero_of_not_mem hhead, Nat.add_zero]

/-- Two lines and an empty one, with a surrogate pair in the second. -/
def threeLines : List Char := ['é', '\n', '😀', 'b', '\n']

/-- An offset inside the pair has the position of its start, one past the end that of the empty line
behind the last line feed. -/
theorem positionAt_embeds_threeLines :
    byteLength threeLines < UInt32.size ∧
    LineTable.sought? threeLines 5 = some ⟨1, 0⟩ ∧ LineTable.sought? threeLines 1000 = some ⟨2, 0⟩ ∧
    IsBoundary threeLines 3 ∧ IsBoundary threeLines 7 ∧ (3 : Nat) < 7 ∧
    positionAt threeLines 3 < positionAt threeLines 7 := by
  have hsize : byteLength threeLines < UInt32.size := by decide
  have hfirst : IsBoundary threeLines 3 := ⟨['é', '\n'], ['😀', 'b', '\n'], rfl, by decide⟩
  have hlast : IsBoundary threeLines 7 := ⟨['é', '\n', '😀'], ['b', '\n'], rfl, by decide⟩
  have hinside : positionAt threeLines 5 = ⟨1, 0⟩ := by decide
  have hend : positionAt threeLines 1000 = ⟨2, 0⟩ := by decide
  obtain ⟨hsought, horder⟩ := positionAt_embeds_offsets hsize
  obtain ⟨-, -, -, -, -, -, -, -, -, -, hpair⟩ := hsought 5
  obtain ⟨-, -, -, -, -, -, -, -, -, -, hpast⟩ := hsought 1000
  rw [hinside] at hpair
  rw [hend] at hpast
  exact ⟨hsize, hpair, hpast, hfirst, hlast, by decide, horder 3 7 hfirst hlast (by decide)⟩

end ScenarioServer
