import ScenarioServer.Proofs.DiagnosticRanges
import ScenarioServer.Proofs.JsonText
import ScenarioServer.Proofs.TableRows

/-!
# Line feeds with and without a carriage return

A text without carriage returns gets one in front of every line feed (`withReturns`). Byte offsets
behind the first line feed are then others, but nothing that the editor sees changes: positions are
those of the same places (`positionAfter_withReturns`), a position selects the same place on both
sides of the change (`indexAt_withReturns`), and no word and no token reaches across a line ending.

`line_endings_are_invisible` puts this together for diagnostics, words and hover texts, and for the
same computations as they are done on bytes.
-/

namespace ScenarioServer

namespace Text

/-- The text with a carriage return in front of every line feed. -/
def withReturns (text : List Char) : List Char :=
  text.flatMap fun c => if c = '\n' then ['\r', '\n'] else [c]

@[simp] theorem withReturns_nil : withReturns [] = [] := rfl

@[simp] theorem withReturns_cons (c : Char) (text : List Char) :
    withReturns (c :: text) = (if c = '\n' then ['\r', '\n'] else [c]) ++ withReturns text :=
  List.flatMap_cons

@[simp] theorem withReturns_append (text rest : List Char) :
    withReturns (text ++ rest) = withReturns text ++ withReturns rest :=
  List.flatMap_append

theorem withReturns_of_unbroken {text : List Char} (h : '\n' ∉ text) : withReturns text = text := by
  induction text with
  | nil => rfl
  | cons c text ih =>
      obtain ⟨hc, hrest⟩ := not_or.mp (List.mem_cons.not.mp h)
      rw [withReturns_cons, if_neg (Ne.symm hc), ih hrest, List.singleton_append]

theorem count_withReturns (text : List Char) : (withReturns text).count '\n' = text.count '\n' := by
  induction text with
  | nil => rfl
  | cons c text ih =>
      rw [withReturns_cons, List.count_append, ih]
      split
      · next hc => simp [hc, Nat.add_comm]
      · next hc => simp [hc]

theorem getLast?_withReturns (text : List Char) : (withReturns text).getLast? = text.getLast? := by
  rcases List.eq_nil_or_concat text with rfl | ⟨init, c, rfl⟩
  · rfl
  · rw [List.concat_eq_append, withReturns_append, List.getLast?_append]
    by_cases hc : c = '\n' <;> simp [hc]

theorem byteLength_withReturns_le (text : List Char) :
    byteLength (withReturns text) ≤ 2 * byteLength text := by
  induction text with
  | nil => exact Nat.le_refl 0
  | cons c text ih =>
      rw [withReturns_cons, byteLength_append, byteLength_cons]
      split
      · next hc =>
          have hbreak : byteLength ['\r', '\n'] = 2 := by decide
          have hfeed : '\n'.utf8Size = 1 := by decide
          rw [hc, hbreak, hfeed]
          omega
      · rw [byteLength_cons, byteLength_nil]
        omega

/-! ## Positions -/

theorem advance_return_feed (p : Position) : (p.advance '\r').advance '\n' = p.advance '\n' := rfl

/-- A place has the same position with and without carriage returns. -/
theorem positionAfter_withReturns (text : List Char) :
    positionAfter (withReturns text) = positionAfter text := by
  induction text using List.reverseRecOn with
  | nil => rfl
  | append_singleton text c ih =>
      rw [withReturns_append, positionAfter_concat, ← ih]
      by_cases hc : c = '\n'
      · subst hc
        rw [← advance_return_feed, ← positionAfter_concat, ← positionAfter_concat, List.append_assoc]
        rfl
      · have hsame : withReturns [c] = [c] := withReturns_of_unbroken (by simpa using Ne.symm hc)
        rw [hsame, positionAfter_concat]

theorem StartsLine.withReturns {before : List Char} (h : StartsLine before) :
    StartsLine (withReturns before) := by
  rcases h with rfl | hlast
  · exact startsLine_nil
  · exact .inr ((getLast?_withReturns before).trans hlast)

theorem dropCarriageReturn_of_not_mem {line : List Char} (h : '\r' ∉ line) :
    dropCarriageReturn line = line :=
  dropCarriageReturn_of_ne fun hlast => h (List.mem_of_getLast? hlast)

/-- A line has the same number and the same content, with a carriage return behind it if a line feed
follows. -/
theorem IsLine.withReturns {text before line after : List Char} {number : Nat}
    (h : IsLine text number before line after) (hreturn : '\r' ∉ line) :
    ∃ line' after', IsLine (withReturns text) number (withReturns before) line' after' ∧
      dropCarriageReturn line' = line := by
  have htext : Text.withReturns text = Text.withReturns before ++ line ++ Text.withReturns after := by
    rw [h.text_eq, withReturns_append, withReturns_append, withReturns_of_unbroken h.unbroken]
  have hcount := (count_withReturns before).trans h.count_eq
  rcases h.ends with rfl | hfeed
  · exact ⟨line, [], ⟨htext, h.starts.withReturns, hcount, h.unbroken, .inl rfl⟩,
      dropCarriageReturn_of_not_mem hreturn⟩
  · obtain ⟨rest, rfl⟩ := List.head?_eq_some_iff.mp hfeed
    refine ⟨line ++ ['\r'], '\n' :: Text.withReturns rest,
      ⟨by simpa using htext, h.starts.withReturns, hcount, ?_, .inr rfl⟩,
      dropCarriageReturn_concat line⟩
    simpa using h.unbroken

/-- A position selects the same place with and without carriage returns: what stands before it and
what stands behind it correspond. -/
theorem indexAt_withReturns {text : List Char} (hreturn : '\r' ∉ text) {p : Position} {index : Nat}
    (h : indexAt text p = some index) :
    ∃ index', indexAt (withReturns text) p = some index' ∧
      (withReturns text).take index' = withReturns (text.take index) ∧
      (withReturns text).drop index' = withReturns (text.drop index) := by
  obtain ⟨before, line, after, head, tail, hline, hcut, hlength, htake, hindex⟩ := indexAt_cases h
  have hreturn' : '\r' ∉ line := by
    intro hmem
    apply hreturn
    rw [hline.text_eq]
    simp [hmem]
  obtain ⟨line', after', hline', hcontent⟩ := hline.withReturns hreturn'
  have hindex' : indexAt (withReturns text) p = some (withReturns (text.take index)).length := by
    rw [indexAt_of_isLine hline', hcontent, ← dropCarriageReturn_of_not_mem hreturn', hcut, ← hlength,
      htake, withReturns_append, withReturns_of_unbroken (hline.not_mem_head hcut), List.length_append]
  have hsplit : withReturns text = withReturns (text.take index) ++ withReturns (text.drop index) := by
    rw [← withReturns_append, List.take_append_drop]
  refine ⟨_, hindex', ?_, ?_⟩
  · rw [hsplit, List.take_left]
  · rw [hsplit, List.drop_left]

/-! ## Words -/

variable {isWord : Char → Bool}

theorem any_head?_withReturns (hfeed : isWord '\n' = false) (hreturn : isWord '\r' = false)
    (text : List Char) : (withReturns text).head?.any isWord = text.head?.any isWord := by
  cases text with
  | nil => rfl
  | cons c text =>
      rw [withReturns_cons]
      split
      · next hc => simp [hc, hfeed, hreturn]
      · simp

theorem Surrounds.withReturns {pre left right post : List Char}
    (h : Surrounds isWord pre left right post) (hfeed : isWord '\n' = false)
    (hreturn : isWord '\r' = false) :
    Surrounds isWord (withReturns pre) left right (withReturns post) := by
  refine ⟨h.left_all, h.right_all, ?_, ?_⟩
  · rw [getLast?_withReturns, h.pre_last]
  · rw [any_head?_withReturns hfeed hreturn, h.post_head]

/-- The word at a place has no line ending in it, so it is the same with carriage returns. -/
theorem wordBetween_withReturns (hfeed : isWord '\n' = false) (hreturn : isWord '\r' = false)
    (before after : List Char) :
    wordBetween isWord (withReturns before) (withReturns after) = wordBetween isWord before after := by
  obtain ⟨pre, left, right, post, rfl, rfl, h⟩ := exists_surrounds isWord before after
  have hleft := withReturns_of_unbroken (not_mem_of_all h.left_all hfeed)
  have hright := withReturns_of_unbroken (not_mem_of_all h.right_all hfeed)
  have hstop : positionAfter (withReturns pre ++ (left ++ right)) =
      positionAfter (pre ++ (left ++ right)) := by
    rw [← positionAfter_withReturns (pre ++ (left ++ right)), withReturns_append, withReturns_append,
      hleft, hright]
  rw [withReturns_append, withReturns_append, hleft, hright,
    (h.withReturns hfeed hreturn).wordBetween_eq, h.wordBetween_eq, positionAfter_withReturns, hstop]

theorem wordAtBy_withReturns (hfeed : isWord '\n' = false) (hreturn : isWord '\r' = false)
    {text : List Char} (hnone : '\r' ∉ text) (p : Position) :
    wordAtBy isWord (withReturns text) p = wordAtBy isWord text p := by
  cases hindex : indexAt text p with
  | none =>
      have hline := (indexAt_eq_none_iff text p).mp hindex
      rw [← count_withReturns, ← indexAt_eq_none_iff] at hline
      rw [wordAtBy, wordAtBy, hline, hindex, Option.bind_none, Option.bind_none]
  | some index =>
      obtain ⟨index', hindex', htake, hdrop⟩ := indexAt_withReturns hnone hindex
      rw [wordAtBy_of_indexAt isWord hindex', wordAtBy_of_indexAt isWord hindex, htake, hdrop,
        wordBetween_withReturns hfeed hreturn]

/-! ## Tokens -/

theorem runsFrom_withReturns {before rest : List Char} (hsep : Separate before rest)
    (here : Position) : runsFrom here (withReturns rest) = runsFrom here rest := by
  revert here
  refine token_induction ?nil ?gap ?run before rest hsep
  case nil =>
    intro before here
    rfl
  case gap =>
    intro before c rest hc ih here
    rw [runsFrom_gap here rest hc, withReturns_cons, ← ih]
    split
    · next hbreak =>
        rw [hbreak, List.cons_append, List.singleton_append, runsFrom_gap _ _ isTokenChar_return,
          runsFrom_gap _ _ isTokenChar_newline, advance_return_feed]
    · rw [List.singleton_append, runsFrom_gap here _ hc]
  case run =>
    intro before token rest hne htoken hbefore hrest ih here
    have hunbroken := withReturns_of_unbroken (not_mem_of_all htoken isTokenChar_newline)
    have hrest' : touches (withReturns rest).head? = false := by
      rw [touches, any_head?_withReturns isTokenChar_newline isTokenChar_return]
      exact hrest
    rw [withReturns_append, hunbroken, runsFrom_run here hne htoken hrest',
      runsFrom_run here hne htoken hrest, ih]

theorem shoutedRuns_withReturns (text : List Char) :
    shoutedRuns (withReturns text) = shoutedRuns text := by
  rw [shoutedRuns, shoutedRuns, runs, runs, runsFrom_withReturns (.inl rfl : Separate [] text)]

/-! ## Tokens on bytes -/

namespace LineTable

/-- The characters of a span and the range it fills; none if the span is no slice or a look-up of one
of its ends fails. -/
def run? (text : List Char) (span : Span) : Option Run := do
  let chars ← slice? text span
  return ⟨chars, ← position? text span.first, ← position? text span.last⟩

/-- The diagnostics of the first matches in a text; none if one of them has no range. -/
def diagnostics? (uri : Uri) (text : List Char) (cap : Nat) (related : Bool) :
    Option (List Diagnostic) :=
  ((matchesIn text).take cap).mapM fun span => (run? text span).map (Diagnostic.ofRun uri related)

theorem run?_eq {text : List Char} (hsize : byteLength text < UInt32.size) {span : Span}
    (h : span ∈ matchesIn text) : run? text span = some (runAt text span) := by
  obtain ⟨before, token, after, htext, rfl, -⟩ := (mem_matchesIn text span).mp h
  have hslice : slice? text (spanAfter before token) = some token :=
    slice?_eq htext rfl (byteLength_append before token)
  have hchars : slice text (spanAfter before token) = token := by
    rw [htext, slice_spanAfter]
  simp only [run?, hslice, position?_eq hsize, Option.bind_eq_bind, Option.bind_some,
    Option.pure_def, runAt, hchars, rangeAt]

/-- In a text of less than `UInt32.size` bytes no look-up fails and the diagnostics are those of
`validate`. -/
theorem diagnostics?_eq {text : String} (hsize : byteLength text.toList < UInt32.size) (uri : Uri)
    (cap : Nat) (related : Bool) :
    diagnostics? uri text.toList cap related = some (validate uri text cap related) := by
  have hruns : ∀ span ∈ (matchesIn text.toList).take cap,
      (run? text.toList span).map (Diagnostic.ofRun uri related) =
        some (Diagnostic.ofRun uri related (runAt text.toList span)) := by
    intro span hspan
    rw [run?_eq hsize (List.mem_of_mem_take hspan), Option.map_some]
  rw [diagnostics?, mapM_eq_some_map hruns, validate, shoutedRuns_eq, ← List.map_take, List.map_map]
  rfl

end LineTable

end Text

open Text

/-- The document with a carriage return in front of every line feed. -/
def crlf (text : String) : String := String.ofList (withReturns text.toList)

@[simp] theorem toList_crlf (text : String) : (crlf text).toList = withReturns text.toList :=
  String.toList_ofList

theorem validate_crlf (uri : Uri) (text : String) (cap : Nat) (related : Bool) :
    validate uri (crlf text) cap related = validate uri text cap related := by
  rw [validate, validate, toList_crlf, shoutedRuns_withReturns]

theorem wordAt_crlf {text : String} (h : '\r' ∉ text.toList) (p : Position) :
    wordAt (crlf text).toList p = wordAt text.toList p := by
  rw [toList_crlf]
  exact wordAtBy_withReturns isWordChar_newline isWordChar_return h p

/-- A text without carriage returns, of less than half of `UInt32.size` bytes, and the same text with
one in front of every line feed have the same diagnostics, the same word at every position and the same
hover texts. On bytes, with 32-bit positions, both are computed without a failure. -/
theorem line_endings_are_invisible {text : String} (hreturn : '\r' ∉ text.toList)
    (hsize : byteLength text.toList < UInt32.size / 2) :
    (∀ uri cap related, validate uri (crlf text) cap related = validate uri text cap related ∧
      LineTable.diagnostics? uri text.toList cap related = some (validate uri text cap related) ∧
      LineTable.diagnostics? uri (crlf text).toList cap related =
        some (validate uri text cap related)) ∧
    (∀ p, wordAt (crlf text).toList p = wordAt text.toList p ∧
      LineTable.word? isWordChar text.toList p = some (wordAt text.toList p) ∧
      LineTable.word? isWordChar (crlf text).toList p = some (wordAt text.toList p)) ∧
    ∀ (engine : Engine) uri p,
      engine.hoverText uri (crlf text) p = engine.hoverText uri text p := by
  have hfits : byteLength text.toList < UInt32.size := Nat.lt_of_lt_of_le hsize (Nat.div_le_self ..)
  have hfits' : byteLength (crlf text).toList < UInt32.size := by
    have hle := byteLength_withReturns_le text.toList
    rw [toList_crlf]
    omega
  refine ⟨fun uri cap related => ⟨validate_crlf uri text cap related, ?_, ?_⟩,
    fun p => ⟨wordAt_crlf hreturn p, ?_, ?_⟩, fun engine uri p => ?_⟩
  · exact LineTable.diagnostics?_eq hfits uri cap related
  · rw [LineTable.diagnostics?_eq hfits', validate_crlf]
  · exact LineTable.word?_eq hfits p
  · rw [← wordAt_crlf hreturn]
    exact LineTable.word?_eq hfits' p
  · rw [Engine.hoverText, Engine.hoverText, wordAt_crlf hreturn]

/-- Tokens at the start and the end of lines, an empty line, and a last line without a line feed. -/
def plainLines : String := "AB é\n\n😀 button STOP\nx"

/-- The token and the word of the third line stay where they are, although the bytes of the token have
moved; a column past its end still selects the token. -/
theorem line_endings_are_invisible_in_plainLines :
    '\r' ∉ plainLines.toList ∧ byteLength plainLines.toList < UInt32.size / 2 ∧
    matchesIn plainLines.toList = [⟨0, 2⟩, ⟨19, 23⟩] ∧
    matchesIn (crlf plainLines).toList = [⟨0, 2⟩, ⟨21, 25⟩] ∧
    validate buttonUri (crlf plainLines) 10 true = validate buttonUri plainLines 10 true ∧
    wordAt (crlf plainLines).toList ⟨2, 99⟩ = some ⟨"STOP", ⟨2, 10⟩, ⟨2, 14⟩⟩ ∧
    Engine.hoverText ⟨⟨[]⟩, ⟨buttonRows⟩⟩ buttonUri (crlf plainLines) ⟨2, 5⟩ = "a locator" := by
  have hreturn : '\r' ∉ plainLines.toList := by decide
  have hsize : byteLength plainLines.toList < UInt32.size / 2 := by decide
  obtain ⟨hdiagnostics, hword, hhover⟩ := line_endings_are_invisible hreturn hsize
  refine ⟨hreturn, hsize, ?_, ?_, (hdiagnostics buttonUri 10 true).1, ?_, ?_⟩
  · decide +kernel
  · decide +kernel
  · rw [(hword ⟨2, 99⟩).1]
    decide +kernel
  · rw [hhover ⟨⟨[]⟩, ⟨buttonRows⟩⟩ buttonUri ⟨2, 5⟩]
    decide +kernel

end ScenarioServer
