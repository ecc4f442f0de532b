import ScenarioServer.Proofs.RoundTrip
import ScenarioServer.Text.Position

/-!
# The word that a cursor touches

Whatever counts as a word character, as long as line feeds and carriage returns do not, the word at
a position is the one maximal run of word characters that contains the position's offset or touches
it (`IsWordRun`). Around any place a text is cut into four parts, the word characters on each side
and what lies beyond them (`Surrounds`); the search and the runs are both read off these parts.

A run stays on its line and in front of the carriage return that may end it, so the range of a word
leads back to its bytes, and every position in the range selects the same word.

`LineTable.word?` is the search as it is done on bytes, scanning backwards and forwards from the
offset, with every slice checked. It never fails. `wordAtBy_selects_run` has the whole law.
-/

namespace ScenarioServer

namespace Text

variable {isWord : Char → Bool}

/-! ## Both sides of a place -/

theorem not_mem_of_all {text : List Char} {c : Char} (hall : ∀ d ∈ text, isWord d = true)
    (hc : isWord c = false) : c ∉ text := by
  intro hmem
  rw [hall c hmem] at hc
  cases hc

/-- `left` and `right` are the word characters on the two sides of a place, and `pre` and `post`
what lies beyond. -/
structure Surrounds (isWord : Char → Bool) (pre left right post : List Char) : Prop where
  left_all : ∀ c ∈ left, isWord c = true
  right_all : ∀ c ∈ right, isWord c = true
  pre_last : pre.getLast?.any isWord = false
  post_head : post.head?.any isWord = false

theorem takeWhile_eq_nil_of_head? {text : List Char} (h : text.head?.any isWord = false) :
    text.takeWhile isWord = [] := by
  cases text with
  | nil => rfl
  | cons c rest => exact List.takeWhile_cons_of_neg (by simpa using h)

theorem any_head?_dropWhile (text : List Char) :
    (text.dropWhile isWord).head?.any isWord = false := by
  have hhead := List.head?_dropWhile_not isWord text
  split at hhead
  · next heq => rw [heq, Option.any_some, hhead]
  · next heq => rw [heq, Option.any_none]

theorem wordTail_append {pre left : List Char} (hleft : ∀ c ∈ left, isWord c = true)
    (hpre : pre.getLast?.any isWord = false) : wordTail isWord (pre ++ left) = left := by
  have hreverse : ∀ c ∈ left.reverse, isWord c = true := fun c hc =>
    hleft c (List.mem_reverse.mp hc)
  rw [← List.head?_reverse] at hpre
  rw [wordTail, List.reverse_append, List.takeWhile_append_of_pos hreverse,
    takeWhile_eq_nil_of_head? hpre, List.append_nil, List.reverse_reverse]

theorem wordHead_append {right post : List Char} (hright : ∀ c ∈ right, isWord c = true)
    (hpost : post.head?.any isWord = false) : wordHead isWord (right ++ post) = right := by
  rw [wordHead, List.takeWhile_append_of_pos hright, takeWhile_eq_nil_of_head? hpost,
    List.append_nil]

/-- Every place is surrounded. -/
theorem exists_surrounds (isWord : Char → Bool) (before after : List Char) :
    ∃ pre left right post, before = pre ++ left ∧ after = right ++ post ∧
      Surrounds isWord pre left right post := by
  have hall : ∀ text : List Char, ∀ c ∈ text.takeWhile isWord, isWord c = true :=
    fun text => List.all_eq_true.mp List.all_takeWhile
  refine ⟨(before.reverse.dropWhile isWord).reverse, (before.reverse.takeWhile isWord).reverse,
    after.takeWhile isWord, after.dropWhile isWord, ?_, List.takeWhile_append_dropWhile.symm, ?_⟩
  · rw [← List.reverse_append, List.takeWhile_append_dropWhile, List.reverse_reverse]
  · refine ⟨fun c hc => hall _ c (List.mem_reverse.mp hc), hall after, ?_,
      any_head?_dropWhile after⟩
    rw [List.getLast?_reverse]
    exact any_head?_dropWhile before.reverse

/-- The word found at a place is what surrounds it. -/
theorem Surrounds.wordBetween_eq {pre left right post : List Char}
    (h : Surrounds isWord pre left right post) :
    wordBetween isWord (pre ++ left) (right ++ post) =
      if left ++ right = [] then none
      else some ⟨String.ofList (left ++ right), positionAfter pre,
        positionAfter (pre ++ (left ++ right))⟩ := by
  rw [wordBetween, wordTail_append h.left_all h.pre_last, wordHead_append h.right_all h.post_head]
  have hstart : (pre ++ left).take ((pre ++ left).length - left.length) = pre := by
    rw [List.length_append, Nat.add_sub_cancel, List.take_left]
  split
  · next hnil => rw [if_pos hnil]
  · next hne =>
      rw [if_neg hne, hstart, List.append_assoc]

/-- Nothing is found exactly if neither neighbour of the place is a word character. -/
theorem wordBetween_eq_none_iff (before after : List Char) :
    wordBetween isWord before after = none ↔
      before.getLast?.any isWord = false ∧ after.head?.any isWord = false := by
  obtain ⟨pre, left, right, post, rfl, rfl, h⟩ := exists_surrounds isWord before after
  rw [h.wordBetween_eq]
  constructor
  · intro hnone
    split at hnone
    · next hnil =>
        obtain ⟨rfl, rfl⟩ := List.append_eq_nil_iff.mp hnil
        exact ⟨by simpa using h.pre_last, by simpa using h.post_head⟩
    · cases hnone
  · rintro ⟨hlast, hhead⟩
    have hleft := wordTail_append (fun c hc => absurd hc List.not_mem_nil) hlast
    have hright := wordHead_append (fun c hc => absurd hc List.not_mem_nil) hhead
    rw [List.append_nil, wordTail_append h.left_all h.pre_last] at hleft
    rw [List.nil_append, wordHead_append h.right_all h.post_head] at hright
    rw [hleft, hright, List.append_nil, if_pos rfl]

/-! ## Maximal runs -/

/-- `word` is a maximal run of word characters between `pre` and `post`. -/
structure Isolated (isWord : Char → Bool) (pre word post : List Char) : Prop where
  ne_nil : word ≠ []
  all : ∀ c ∈ word, isWord c = true
  pre_last : pre.getLast?.any isWord = false
  post_head : post.head?.any isWord = false

/-- The span holds word characters only, at least one, and on each side the text ends or goes on
with another character. -/
def IsWordRun (isWord : Char → Bool) (text : List Char) (span : Span) : Prop :=
  ∃ pre word post, text = pre ++ word ++ post ∧ span = spanAfter pre word ∧
    Isolated isWord pre word post

theorem Surrounds.isolated {pre left right post : List Char}
    (h : Surrounds isWord pre left right post) (hne : left ++ right ≠ []) :
    Isolated isWord pre (left ++ right) post := by
  refine ⟨hne, fun c hc => ?_, h.pre_last, h.post_head⟩
  rcases List.mem_append.mp hc with hc | hc
  · exact h.left_all c hc
  · exact h.right_all c hc

/-- A run that contains or touches a place is what surrounds the place. -/
theorem IsWordRun.eq_spanAfter {pre left right post : List Char} {span : Span}
    (hrun : IsWordRun isWord (pre ++ left ++ (right ++ post)) span)
    (h : Surrounds isWord pre left right post) (hfirst : span.first ≤ byteLength (pre ++ left))
    (hlast : byteLength (pre ++ left) ≤ span.last) : span = spanAfter pre (left ++ right) := by
  obtain ⟨pre', word, post', htext, rfl, hrun⟩ := hrun
  -- the place cuts the run in two, which are again the word characters on its sides
  have htext' : pre' ++ (word ++ post') = pre ++ left ++ (right ++ post) := by
    rw [htext, List.append_assoc]
  obtain ⟨left', hbefore, hrest⟩ := exists_between htext' hfirst
  have hlast' : byteLength (pre ++ left) ≤ byteLength (pre' ++ word) := by
    rw [byteLength_append pre' word]
    exact hlast
  obtain ⟨right', hsplit, hafter⟩ := exists_between htext hlast'
  rw [hbefore, List.append_assoc] at hsplit
  obtain rfl := List.append_cancel_left hsplit
  have hleft : left' = left := by
    rw [← wordTail_append (fun c hc => hrun.all c (List.mem_append_left _ hc)) hrun.pre_last,
      ← hbefore, wordTail_append h.left_all h.pre_last]
  have hright : right' = right := by
    rw [← wordHead_append (fun c hc => hrun.all c (List.mem_append_right _ hc)) hrun.post_head,
      ← hafter, wordHead_append h.right_all h.post_head]
  subst hleft hright
  rw [List.append_cancel_right hbefore]

/-! ## The search by positions -/

theorem wordAtBy_of_indexAt (isWord : Char → Bool) {text : List Char} {p : Position} {index : Nat}
    (h : indexAt text p = some index) :
    wordAtBy isWord text p = wordBetween isWord (text.take index) (text.drop index) := by
  rw [wordAtBy, h, Option.bind_some]

/-- The word that fills a run. -/
def wordOf (pre word : List Char) : Word :=
  ⟨String.ofList word, positionAfter pre, positionAfter (pre ++ word)⟩

namespace Isolated

variable {pre word post : List Char}

/-- Any position whose place is in a run, or at an end of it, finds that run. -/
theorem wordAtBy_eq (h : Isolated isWord pre word post) {p : Position} {index : Nat}
    (hindex : indexAt (pre ++ word ++ post) p = some index) (hfirst : pre.length ≤ index)
    (hlast : index ≤ (pre ++ word).length) :
    wordAtBy isWord (pre ++ word ++ post) p = some (wordOf pre word) := by
  obtain ⟨cut, rfl⟩ := Nat.exists_eq_add_of_le hfirst
  rw [List.length_append] at hlast
  have htake : (pre ++ word ++ post).take (pre.length + cut) = pre ++ word.take cut := by
    rw [List.append_assoc, List.take_length_add_append, List.take_append_of_le_length (by omega)]
  have hdrop : (pre ++ word ++ post).drop (pre.length + cut) = word.drop cut ++ post := by
    rw [List.append_assoc, List.drop_length_add_append, List.drop_append_of_le_length (by omega)]
  have hsurrounds : Surrounds isWord pre (word.take cut) (word.drop cut) post :=
    ⟨fun c hc => h.all c (List.mem_of_mem_take hc), fun c hc => h.all c (List.mem_of_mem_drop hc),
      h.pre_last, h.post_head⟩
  rw [wordAtBy_of_indexAt isWord hindex, htake, hdrop, hsurrounds.wordBetween_eq,
    List.take_append_drop, if_neg h.ne_nil, wordOf]

theorem indexAt_start (h : Isolated isWord pre word post) (hfeed : isWord '\n' = false) :
    indexAt (pre ++ word ++ post) (positionAfter pre) = some pre.length := by
  rw [List.append_assoc]
  apply indexAt_positionAfter
  rintro ⟨-, hend⟩
  -- the place is followed by the first character of the word, which is no line feed
  obtain ⟨c, rest, rfl⟩ := List.exists_cons_of_ne_nil h.ne_nil
  rcases hend with hnil | hhead
  · simp at hnil
  · obtain rfl : c = '\n' := by simpa using hhead
    exact not_mem_of_all h.all hfeed List.mem_cons_self

theorem indexAt_stop (h : Isolated isWord pre word post) (hreturn : isWord '\r' = false) :
    indexAt (pre ++ word ++ post) (positionAfter (pre ++ word)) = some (pre ++ word).length := by
  apply indexAt_positionAfter
  rintro ⟨hlast, -⟩
  rw [List.getLast?_append, List.getLast?_eq_some_getLast h.ne_nil, Option.some_or,
    Option.some.injEq] at hlast
  exact not_mem_of_all h.all hreturn (hlast ▸ List.getLast_mem h.ne_nil)

/-- The end of the word is the width of the word behind its start, on the same line. -/
theorem positionAfter_stop (h : Isolated isWord pre word post) (hfeed : isWord '\n' = false) :
    positionAfter (pre ++ word) =
      ⟨(positionAfter pre).line, (positionAfter pre).character + unitLength word⟩ :=
  positionAfter_append_unbroken pre (not_mem_of_all h.all hfeed)

theorem offsetAt_start (h : Isolated isWord pre word post) (hfeed : isWord '\n' = false) :
    offsetAt (pre ++ word ++ post) (positionAfter pre) = some (byteLength pre) := by
  have hindex := h.indexAt_start hfeed
  rw [List.append_assoc] at hindex ⊢
  exact offsetAt_of_indexAt hindex

theorem offsetAt_stop (h : Isolated isWord pre word post) (hreturn : isWord '\r' = false) :
    offsetAt (pre ++ word ++ post) (positionAfter (pre ++ word)) =
      some (byteLength (pre ++ word)) :=
  offsetAt_of_indexAt (h.indexAt_stop hreturn)

/-- Every position in the range of a run finds that run. -/
theorem wordAtBy_of_mem_range (h : Isolated isWord pre word post) (hfeed : isWord '\n' = false)
    (hreturn : isWord '\r' = false) {q : Position} (hstart : positionAfter pre ≤ q)
    (hstop : q ≤ positionAfter (pre ++ word)) :
    wordAtBy isWord (pre ++ word ++ post) q = some (wordOf pre word) := by
  have hfirst := h.indexAt_start hfeed
  have hlast := h.indexAt_stop hreturn
  have hline : (positionAfter (pre ++ word)).line = (positionAfter pre).line := by
    rw [h.positionAfter_stop hfeed]
  rw [Position.le_iff] at hstart hstop
  have hsome : indexAt (pre ++ word ++ post) q ≠ none := by
    have hfound : indexAt (pre ++ word ++ post) (positionAfter pre) ≠ none := by
      rw [hfirst]
      exact Option.some_ne_none _
    rw [ne_eq, indexAt_eq_none_iff] at hfound ⊢
    omega
  obtain ⟨index, hindex⟩ := Option.ne_none_iff_exists'.mp hsome
  have hge := indexAt_mono (by omega) (by omega) hfirst hindex
  have hle := indexAt_mono (by omega) (by omega) hindex hlast
  exact h.wordAtBy_eq hindex hge hle

end Isolated

/-- A word is found exactly at a run that the place of the position is in, or at an end of. -/
theorem wordAtBy_cases {text : List Char} {p : Position} {word : Word}
    (h : wordAtBy isWord text p = some word) :
    ∃ pre left right post, text = pre ++ left ++ (right ++ post) ∧
      indexAt text p = some (pre ++ left).length ∧ Surrounds isWord pre left right post ∧
      left ++ right ≠ [] ∧ word = wordOf pre (left ++ right) := by
  obtain ⟨index, hindex, hword⟩ := Option.bind_eq_some_iff.mp h
  have hle : index ≤ text.length := by
    obtain ⟨before, -, -, head, -, -, -, -, htake, hlength⟩ := indexAt_cases hindex
    have hcut := congrArg List.length htake
    rw [List.length_take] at hcut
    omega
  obtain ⟨pre, left, right, post, hbefore, hafter, hsurrounds⟩ :=
    exists_surrounds isWord (text.take index) (text.drop index)
  rw [hbefore, hafter, hsurrounds.wordBetween_eq] at hword
  split at hword
  · cases hword
  · next hne =>
      refine ⟨pre, left, right, post, ?_, ?_, hsurrounds, hne, (Option.some.inj hword).symm⟩
      · rw [← hbefore, ← hafter, List.take_append_drop]
      · rw [hindex, ← hbefore, List.length_take, Nat.min_eq_left hle]

/-- A word starts on the line of any position that finds it. -/
theorem Surrounds.line_eq {pre left right post : List Char} {p : Position}
    (h : Surrounds isWord pre left right post) (hfeed : isWord '\n' = false)
    (hindex : indexAt (pre ++ left ++ (right ++ post)) p = some (pre ++ left).length) :
    (positionAfter pre).line = p.line := by
  have hcount := count_take_indexAt hindex
  have hunbroken : '\n' ∉ left := not_mem_of_all h.left_all hfeed
  rw [List.take_left, List.count_append, List.count_eq_zero_of_not_mem hunbroken, Nat.add_zero]
    at hcount
  rw [positionAfter_line, hcount]

/-- There is no word exactly if there is no such line or no word character is next to the place. -/
theorem wordAtBy_eq_none_iff (isWord : Char → Bool) (text : List Char) (p : Position) :
    wordAtBy isWord text p = none ↔ text.count '\n' < p.line ∨
      ∃ before after, text = before ++ after ∧ offsetAt text p = some (byteLength before) ∧
        before.getLast?.any isWord = false ∧ after.head?.any isWord = false := by
  rw [← indexAt_eq_none_iff]
  cases hindex : indexAt text p with
  | none => simp [wordAtBy, hindex]
  | some index =>
      have hsplit := (List.take_append_drop index text).symm
      rw [wordAtBy_of_indexAt isWord hindex, wordBetween_eq_none_iff, offsetAt, hindex,
        Option.map_some]
      constructor
      · intro hneighbours
        exact .inr ⟨_, _, hsplit, rfl, hneighbours⟩
      · rintro (hnone | ⟨before, after, htext, hlength, hneighbours⟩)
        · cases hnone
        · obtain ⟨hbefore, hafter⟩ := cut_unique (hsplit.symm.trans htext) (Option.some.inj hlength)
          rwa [hbefore, hafter]

/-! ## The search by bytes -/

namespace LineTable

/-- The characters of a text that starts at `offset`, each with its own offset. -/
def charIndices (offset : Nat) : List Char → List (Nat × Char)
  | [] => []
  | c :: rest => (offset, c) :: charIndices (offset + c.utf8Size) rest

/-- The start of the word characters that `before` ends with; its own end if there are none. -/
def scanBack (isWord : Char → Bool) (offset : Nat) (before : List Char) : Nat :=
  (((charIndices 0 before).reverse.takeWhile fun place => isWord place.2).getLast?).elim offset
    fun place => place.1

/-- The offset of the first character of `after` that is no word character; the end of the text if
there is none. -/
def scanAhead (isWord : Char → Bool) (offset limit : Nat) (after : List Char) : Nat :=
  ((charIndices 0 after).find? fun place => !isWord place.2).elim limit
    fun place => offset + place.1

/-- The word at a byte offset; no answer at all if a slice on the way fails. -/
def wordFrom? (isWord : Char → Bool) (text : List Char) (offset : Nat) : Option (Option Word) := do
  let before ← slice? text ⟨0, offset⟩
  let after ← slice? text ⟨offset, byteLength text⟩
  let first := scanBack isWord offset before
  let last := scanAhead isWord offset (byteLength text) after
  if first = last then return none
  else
    let word ← slice? text ⟨first, last⟩
    return some ⟨String.ofList word, ← position? text first, ← position? text last⟩

/-- The word at a position, in the same way. -/
def word? (isWord : Char → Bool) (text : List Char) (p : Position) : Option (Option Word) := do
  match ← offset? text p with
  | none => return none
  | some offset => wordFrom? isWord text offset

theorem charIndices_append (offset : Nat) (text rest : List Char) :
    charIndices offset (text ++ rest) =
      charIndices offset text ++ charIndices (offset + byteLength text) rest := by
  induction text generalizing offset with
  | nil => rfl
  | cons c text ih =>
      rw [List.cons_append, charIndices, charIndices, ih, byteLength_cons, Nat.add_assoc,
        List.cons_append]

theorem mem_of_mem_charIndices {offset : Nat} {text : List Char} {place : Nat × Char}
    (h : place ∈ charIndices offset text) : place.2 ∈ text := by
  induction text generalizing offset with
  | nil => cases h
  | cons c text ih =>
      rcases List.mem_cons.mp h with rfl | hrest
      · exact List.mem_cons_self
      · exact List.mem_cons_of_mem _ (ih hrest)

theorem scanBack_eq {pre left : List Char} (hleft : ∀ c ∈ left, isWord c = true)
    (hpre : pre.getLast?.any isWord = false) :
    scanBack isWord (byteLength (pre ++ left)) (pre ++ left) = byteLength pre := by
  have hall : ∀ place ∈ (charIndices (0 + byteLength pre) left).reverse,
      isWord place.2 = true := fun place hplace =>
    hleft _ (mem_of_mem_charIndices (List.mem_reverse.mp hplace))
  have hstop : (charIndices 0 pre).reverse.takeWhile (fun place => isWord place.2) = [] := by
    rcases List.eq_nil_or_concat pre with rfl | ⟨init, c, rfl⟩
    · rfl
    · rw [List.concat_eq_append, List.getLast?_concat, Option.any_some] at hpre
      rw [List.concat_eq_append, charIndices_append, List.reverse_append]
      exact List.takeWhile_cons_of_neg (by simp [hpre])
  rw [scanBack, charIndices_append, List.reverse_append, List.takeWhile_append_of_pos hall, hstop,
    List.append_nil, List.getLast?_reverse]
  cases left with
  | nil => simp [charIndices]
  | cons c left => simp [charIndices]

theorem scanAhead_eq {right post : List Char} (offset : Nat) (hright : ∀ c ∈ right, isWord c = true)
    (hpost : post.head?.any isWord = false) :
    scanAhead isWord offset (offset + byteLength (right ++ post)) (right ++ post) =
      offset + byteLength right := by
  have hnone : (charIndices 0 right).find? (fun place => !isWord place.2) = none := by
    apply List.find?_eq_none.mpr
    intro place hplace
    simp [hright _ (mem_of_mem_charIndices hplace)]
  rw [scanAhead, charIndices_append, List.find?_append, hnone, Option.none_or]
  cases post with
  | nil => simp [charIndices]
  | cons c post =>
      have hc : isWord c = false := by simpa using hpost
      simp [charIndices, hc]

theorem wordFrom?_eq {pre left right post : List Char} (h : Surrounds isWord pre left right post)
    (hsize : byteLength (pre ++ (left ++ right) ++ post) < UInt32.size) :
    wordFrom? isWord (pre ++ (left ++ right) ++ post) (byteLength (pre ++ left)) =
      some (wordBetween isWord (pre ++ left) (right ++ post)) := by
  generalize htext : pre ++ (left ++ right) ++ post = text at hsize ⊢
  have hcut : text = pre ++ left ++ (right ++ post) := by
    rw [← htext]
    simp only [List.append_assoc]
  have htotal : byteLength (pre ++ left) + byteLength (right ++ post) = byteLength text := by
    rw [hcut, byteLength_append (pre ++ left)]
  -- the two parts of the text on the sides of the offset
  have hbefore : slice? text ⟨0, byteLength (pre ++ left)⟩ = some (pre ++ left) :=
    slice?_eq (List.nil_append _ ▸ hcut) rfl (by rw [List.nil_append])
  have hafter : slice? text ⟨byteLength (pre ++ left), byteLength text⟩ = some (right ++ post) :=
    slice?_eq (by rw [List.append_nil, hcut]) rfl (by rw [hcut])
  -- the two scans stop where the run does
  have hfirst := scanBack_eq h.left_all h.pre_last
  have hlast := scanAhead_eq (byteLength (pre ++ left)) h.right_all h.post_head
  rw [htotal, ← byteLength_append, List.append_assoc] at hlast
  have hempty : byteLength pre = byteLength (pre ++ (left ++ right)) ↔ left ++ right = [] := by
    rw [byteLength_append]
    constructor
    · intro heq
      exact eq_nil_of_byteLength (by omega)
    · intro hnil
      rw [hnil, byteLength_nil, Nat.add_zero]
  have hword : slice? text ⟨byteLength pre, byteLength (pre ++ (left ++ right))⟩ =
      some (left ++ right) := slice?_eq htext.symm rfl rfl
  have hstart : positionAt text (byteLength pre) = positionAfter pre := by
    rw [← htext, List.append_assoc, positionAt_append]
  have hstop : positionAt text (byteLength (pre ++ (left ++ right))) =
      positionAfter (pre ++ (left ++ right)) := by
    rw [← htext, positionAt_append]
  simp only [wordFrom?, hbefore, hafter, hfirst, hlast, hempty, hword, position?_eq hsize, hstart,
    hstop, h.wordBetween_eq, Option.bind_eq_bind, Option.bind_some, Option.pure_def]
  split <;> rfl

theorem word?_eq {text : List Char} (hsize : byteLength text < UInt32.size) (p : Position) :
    word? isWord text p = some (wordAtBy isWord text p) := by
  cases hindex : indexAt text p with
  | none => simp [word?, offset?_eq, offsetAt, wordAtBy, hindex]
  | some index =>
      have hsplit := List.take_append_drop index text
      obtain ⟨pre, left, right, post, hbefore, hafter, h⟩ :=
        exists_surrounds isWord (text.take index) (text.drop index)
      have hoffset : offsetAt text p = some (byteLength (pre ++ left)) := by
        rw [offsetAt, hindex, Option.map_some, hbefore]
      have htext : text = pre ++ (left ++ right) ++ post := by
        rw [← hsplit, hbefore, hafter]
        simp only [List.append_assoc]
      rw [word?, offset?_eq, hoffset, wordAtBy_of_indexAt isWord hindex, hbefore, hafter]
      rw [htext] at hsize ⊢
      exact wordFrom?_eq h hsize

end LineTable

end Text

open Text

/-- Whatever predicate tells the word characters, so long as it fails on line breaks, as that of
`wordAt` does: the search on bytes always gives an answer, so it cuts the text between characters
only; there is no word exactly if the text has no such line or no word character is next to the
position's offset; otherwise the word is the one run that contains or touches the offset, its range
is on the position's line and leads back to the bytes of the run, and every position in the range
selects the same word. -/
theorem wordAtBy_selects_run {isWord : Char → Bool} (hfeed : isWord '\n' = false)
    (hreturn : isWord '\r' = false) {text : List Char} (hsize : byteLength text < UInt32.size) :
    (∀ p, LineTable.word? isWord text p = some (wordAtBy isWord text p)) ∧
    (∀ p, wordAtBy isWord text p = none ↔ text.count '\n' < p.line ∨
      ∃ before after, text = before ++ after ∧ offsetAt text p = some (byteLength before) ∧
        before.getLast?.any isWord = false ∧ after.head?.any isWord = false) ∧
    ∀ p word, wordAtBy isWord text p = some word →
      (∃ offset span, offsetAt text p = some offset ∧ IsWordRun isWord text span ∧
        span.first ≤ offset ∧ offset ≤ span.last ∧
        (∀ other, IsWordRun isWord text other → other.first ≤ offset → offset ≤ other.last →
          other = span) ∧
        slice? text span = some word.text.toList ∧
        word.range = rangeAt text span.first span.last ∧
        word.range.start.line = p.line ∧ word.range.stop.line = p.line ∧
        offsetAt text word.range.start = some span.first ∧
        offsetAt text word.range.stop = some span.last) ∧
      ∀ q, word.range.start ≤ q → q ≤ word.range.stop → wordAtBy isWord text q = some word := by
  refine ⟨LineTable.word?_eq hsize, wordAtBy_eq_none_iff isWord text, fun p word hword => ?_⟩
  obtain ⟨pre, left, right, post, htext, hindex, hsurrounds, hne, rfl⟩ := wordAtBy_cases hword
  have hrun := hsurrounds.isolated hne
  have hline := hsurrounds.line_eq hfeed (htext ▸ hindex)
  have hwhole : text = pre ++ (left ++ right) ++ post := by
    rw [htext]
    simp only [List.append_assoc]
  constructor
  · refine ⟨byteLength (pre ++ left), spanAfter pre (left ++ right), ?_,
      ⟨_, _, _, hwhole, rfl, hrun⟩, ?_, ?_, ?_, ?_, ?_, hline, ?_, ?_, ?_⟩
    · subst htext
      exact offsetAt_of_indexAt hindex
    · rw [spanAfter_first, byteLength_append]
      omega
    · rw [spanAfter_last, byteLength_append, byteLength_append]
      omega
    · intro other hother hfirst hlast
      subst htext
      exact hother.eq_spanAfter hsurrounds hfirst hlast
    · rw [wordOf, String.toList_ofList]
      exact slice?_eq hwhole rfl (byteLength_append _ _)
    · have hrange := congrArg Run.range (runAt_spanAfter pre (left ++ right) post)
      rw [← hwhole] at hrange
      exact hrange.symm
    · rw [wordOf, hrun.positionAfter_stop hfeed]
      exact hline
    · rw [hwhole]
      exact hrun.offsetAt_start hfeed
    · rw [hwhole, spanAfter_last, ← byteLength_append]
      exact hrun.offsetAt_stop hreturn
  · rw [hwhole]
    intro q hstart hstop
    exact hrun.wordAtBy_of_mem_range hfeed hreturn hstart hstop

/-- A word that starts with a surrogate pair and stands at the end of a line. -/
def pairedText : List Char := ['x', ' ', '𝐀', 'b', '\r', '\n']

/-- A cursor in the middle of the pair finds the word, and so does one behind the word. -/
theorem wordAt_inside_pair :
    isWordChar '\n' = false ∧ isWordChar '\r' = false ∧ byteLength pairedText < UInt32.size ∧
    wordAt pairedText ⟨0, 3⟩ = some ⟨"𝐀b", ⟨0, 2⟩, ⟨0, 5⟩⟩ ∧
    (∃ offset span, offsetAt pairedText ⟨0, 3⟩ = some offset ∧
      IsWordRun isWordChar pairedText span ∧ span.first ≤ offset ∧ offset ≤ span.last ∧
      slice? pairedText span = some "𝐀b".toList ∧
      offsetAt pairedText ⟨0, 2⟩ = some span.first ∧ offsetAt pairedText ⟨0, 5⟩ = some span.last) ∧
    wordAt pairedText ⟨0, 5⟩ = some ⟨"𝐀b", ⟨0, 2⟩, ⟨0, 5⟩⟩ := by
  have hsize : byteLength pairedText < UInt32.size := by decide
  have hword : wordAt pairedText ⟨0, 3⟩ = some ⟨"𝐀b", ⟨0, 2⟩, ⟨0, 5⟩⟩ := by decide +kernel
  obtain ⟨-, -, hfound⟩ := wordAtBy_selects_run isWordChar_newline isWordChar_return hsize
  obtain ⟨⟨offset, span, hoffset, hrun, hfirst, hlast, -, hslice, -, -, -, hstart, hstop⟩,
    hrange⟩ := hfound ⟨0, 3⟩ _ hword
  exact ⟨isWordChar_newline, isWordChar_return, hsize, hword,
    ⟨offset, span, hoffset, hrun, hfirst, hlast, hslice, hstart, hstop⟩,
    hrange ⟨0, 5⟩ (by decide) (by decide)⟩

end ScenarioServer
