import ScenarioServer.Diagnostic

/-!
# The tokens of the uppercase check

The same tokens are described in three ways.

* `matchesIn` searches a text from the left for two or more capital letters with a boundary on each
  side, takes the longest match at every place, and goes on behind it.
* `IsMaximalRun` singles out the runs of token characters that no longer run contains; the tokens
  are those that consist of two or more capital letters.
* `IsShouted` asks only for two or more capital letters and for the two neighbours.

`validate_reports_tokens` says that the three agree, and what a document's diagnostics carry: they
are those of the first matches. All three speak of spans of bytes; the induction that ties them to
the runs of a text cuts the text between tokens (`token_induction`).
-/

namespace ScenarioServer

namespace Text

/-! ## Spans -/

/-- The bytes of a text from `first` up to `last`, without `last`. -/
structure Span where
  first : Nat
  last : Nat
deriving Repr, DecidableEq

/-- The span of `token` in a text where it follows `before`. -/
def spanAfter (before token : List Char) : Span :=
  ⟨byteLength before, byteLength before + byteLength token⟩

@[simp] theorem spanAfter_first (before token : List Char) :
    (spanAfter before token).first = byteLength before := rfl

@[simp] theorem spanAfter_last (before token : List Char) :
    (spanAfter before token).last = byteLength before + byteLength token := rfl

/-- The characters of a span. -/
def slice (text : List Char) (span : Span) : List Char :=
  (text.take (charsWithin span.last text)).drop (charsWithin span.first text)

/-- The characters of a span, with the range it fills. -/
def runAt (text : List Char) (span : Span) : Run :=
  ⟨slice text span, rangeAt text span.first span.last⟩

theorem slice_spanAfter (before token after : List Char) :
    slice (before ++ token ++ after) (spanAfter before token) = token := by
  have hfirst : charsWithin (byteLength before) (before ++ token ++ after) = before.length := by
    rw [List.append_assoc, charsWithin_append]
  have hlast := charsWithin_append (before ++ token) after
  rw [byteLength_append] at hlast
  rw [slice, spanAfter, hfirst, hlast, List.take_left, List.drop_left]

theorem runAt_spanAfter (before token after : List Char) :
    runAt (before ++ token ++ after) (spanAfter before token) =
      ⟨token, positionAfter before, positionAfter (before ++ token)⟩ := by
  have hfirst := positionAt_append before (token ++ after)
  have hlast := positionAt_append (before ++ token) after
  rw [← List.append_assoc] at hfirst
  rw [byteLength_append] at hlast
  rw [runAt, slice_spanAfter, rangeAt, spanAfter, hfirst, hlast]

/-- Of two cuts of one text, the one at the lower offset leaves the other to its right. -/
theorem exists_between {before rest before' rest' : List Char}
    (htext : before ++ rest = before' ++ rest') (hle : byteLength before ≤ byteLength before') :
    ∃ mid, before' = before ++ mid ∧ rest = mid ++ rest' := by
  rcases List.append_eq_append_iff.mp htext with h | ⟨mid, rfl, rfl⟩
  · exact h
  · have hmid : mid = [] := by
      apply eq_nil_of_byteLength
      rw [byteLength_append] at hle
      omega
    subst hmid
    exact ⟨[], by simp, by simp⟩

/-! ## Neighbours -/

/-- Whether a place has a token character on the side where `neighbour` stands. -/
def touches (neighbour : Option Char) : Bool := neighbour.any isTokenChar

@[simp] theorem touches_none : touches none = false := rfl

@[simp] theorem touches_some (c : Char) : touches (some c) = isTokenChar c := rfl

theorem eq_nil_of_getLast? {before token : List Char}
    (h : touches (before ++ token).getLast? = false)
    (htoken : ∀ c ∈ token, isTokenChar c = true) : token = [] := by
  rcases List.eq_nil_or_concat token with hnil | ⟨token, c, rfl⟩
  · exact hnil
  · rw [List.concat_eq_append, ← List.append_assoc, List.getLast?_concat, touches_some,
      htoken c (by simp)] at h
    cases h

theorem touches_head?_append {token after : List Char} (hne : token ≠ [])
    (htoken : ∀ c ∈ token, isTokenChar c = true) : touches (token ++ after).head? = true := by
  cases token with
  | nil => exact absurd rfl hne
  | cons c token => exact htoken c (by simp)

theorem eq_nil_of_head? {token after : List Char} (h : touches (token ++ after).head? = false)
    (htoken : ∀ c ∈ token, isTokenChar c = true) : token = [] := by
  cases token with
  | nil => rfl
  | cons c token =>
      rw [touches_head?_append (by simp) htoken] at h
      cases h

theorem takeWhile_of_not_touches {p : Char → Bool} (hp : ∀ c, p c = true → isTokenChar c = true)
    {text : List Char} (h : touches text.head? = false) : text.takeWhile p = [] := by
  cases text with
  | nil => rfl
  | cons c rest =>
      have hc : p c ≠ true := fun hpc => by simp [hp c hpc] at h
      rw [List.takeWhile_cons_of_neg hc]

theorem takeWhile_run {token after : List Char} (htoken : ∀ c ∈ token, isTokenChar c = true)
    (hafter : touches after.head? = false) : (token ++ after).takeWhile isTokenChar = token := by
  rw [List.takeWhile_append_of_pos htoken, takeWhile_of_not_touches (fun _ h => h) hafter,
    List.append_nil]

theorem touches_head?_dropWhile (text : List Char) :
    touches (text.dropWhile isTokenChar).head? = false := by
  induction text with
  | nil => rfl
  | cons c rest ih =>
      rw [List.dropWhile_cons]
      split
      · exact ih
      · next hc => simpa using hc

/-- No run goes across the place between `before` and `rest`. -/
def Separate (before rest : List Char) : Prop :=
  touches before.getLast? = false ∨ touches rest.head? = false

/-- Reading a text from between two runs on, one meets the end, a character outside all runs, or a
whole run. -/
@[elab_as_elim]
theorem token_induction {motive : List Char → List Char → Prop}
    (nil : ∀ before, motive before [])
    (gap : ∀ before c rest, isTokenChar c = false → motive (before ++ [c]) rest →
      motive before (c :: rest))
    (run : ∀ before token rest, token ≠ [] → (∀ c ∈ token, isTokenChar c = true) →
      touches before.getLast? = false → touches rest.head? = false →
      motive (before ++ token) rest → motive before (token ++ rest))
    (before rest : List Char) (hsep : Separate before rest) : motive before rest := by
  match rest with
  | [] => exact nil before
  | c :: rest =>
      cases hc : isTokenChar c with
      | false =>
          refine gap before c rest hc (token_induction nil gap run _ rest (.inl ?_))
          simp [hc]
      | true =>
          have hbefore : touches before.getLast? = false := by
            rcases hsep with h | h
            · exact h
            · simp [hc] at h
          have hafter := touches_head?_dropWhile rest
          have htoken : ∀ d ∈ c :: rest.takeWhile isTokenChar, isTokenChar d = true := by
            intro d hd
            rcases List.mem_cons.mp hd with rfl | hd
            · exact hc
            · exact List.all_eq_true.mp List.all_takeWhile d hd
          have ih := token_induction nil gap run (before ++ c :: rest.takeWhile isTokenChar)
            (rest.dropWhile isTokenChar) (.inr hafter)
          have := run before _ _ (by simp) htoken hbefore hafter ih
          rwa [List.cons_append, List.takeWhile_append_dropWhile] at this
termination_by rest.length
decreasing_by
  · exact Nat.lt_succ_self _
  · exact Nat.lt_succ_of_le (List.dropWhile_sublist isTokenChar).length_le

/-! ## Searching from the left -/

/-- Whether a place with these two neighbours is the edge of a run of token characters. -/
def isBoundary (previous next : Option Char) : Bool := touches previous != touches next

/-- The greatest number of leading characters, at most the given one and at least two, with a
boundary behind them. -/
def longestMatch? (text : List Char) : Nat → Option Nat
  | n + 2 =>
    if isBoundary text[n + 1]? text[n + 2]? then some (n + 2) else longestMatch? text (n + 1)
  | _ => none

/-- How many characters the match at the start of `text` takes, where `previous` stands before it:
a boundary, as many capital letters as possible but two at least, and a boundary. -/
def matchAt? (previous : Option Char) (text : List Char) : Option Nat :=
  if isBoundary previous text.head? then longestMatch? text (text.takeWhile isCapital).length
  else none

/-- The matches from `offset` on, where `previous` stands before the remaining text. The search goes
on behind a match, and one character further where there is none. -/
def matchesFrom (offset : Nat) (previous : Option Char) : List Char → List Span
  | [] => []
  | c :: rest =>
    match matchAt? previous (c :: rest) with
    | some n =>
      let token := c :: rest.take (n - 1)
      let stop := offset + byteLength token
      ⟨offset, stop⟩ :: matchesFrom stop token.getLast? (rest.drop (n - 1))
    | none => matchesFrom (offset + c.utf8Size) (some c) rest
termination_by text => text.length
decreasing_by
  · simp only [List.length_drop, List.length_cons]
    omega
  · exact Nat.lt_succ_self _

/-- The matches in a text, from left to right. -/
def matchesIn (text : List Char) : List Span := matchesFrom 0 none text

/-- The matches in what follows `before`. -/
def matchesAfter (before rest : List Char) : List Span :=
  matchesFrom (byteLength before) before.getLast? rest

/-- Whether `token` is two or more capital letters. -/
def isShoutedToken (token : List Char) : Bool := 2 ≤ token.length && token.all isCapital

theorem isCapital_of_isShoutedToken {token : List Char} (h : isShoutedToken token = true) :
    2 ≤ token.length ∧ ∀ c ∈ token, isCapital c = true := by
  simpa [isShoutedToken] using h

/-- Inside a run there is no boundary. -/
theorem longestMatch?_inside {token after : List Char}
    (htoken : ∀ c ∈ token, isTokenChar c = true) {n : Nat} (hn : n < token.length) :
    longestMatch? (token ++ after) n = none := by
  have hinside : ∀ i, i < token.length → touches (token ++ after)[i]? = true := by
    intro i hi
    rw [List.getElem?_append_left hi, List.getElem?_eq_getElem hi, touches_some]
    exact htoken _ (List.getElem_mem hi)
  induction n with
  | zero => rfl
  | succ n ih =>
      cases n with
      | zero => rfl
      | succ n =>
          rw [longestMatch?, isBoundary, hinside _ (by omega), hinside _ hn]
          exact ih (by omega)

/-- A match at the start of a run takes the whole run. -/
theorem matchAt?_run {previous : Option Char} {token after : List Char} (hne : token ≠ [])
    (htoken : ∀ c ∈ token, isTokenChar c = true) (hprevious : touches previous = false)
    (hafter : touches after.head? = false) :
    matchAt? previous (token ++ after) =
      if isShoutedToken token then some token.length else none := by
  have hstart : isBoundary previous (token ++ after).head? = true := by
    rw [isBoundary, hprevious, touches_head?_append hne htoken]
    rfl
  rw [matchAt?, if_pos hstart]
  by_cases hall : ∀ c ∈ token, isCapital c = true
  · have hcapitals : (token ++ after).takeWhile isCapital = token := by
      rw [List.takeWhile_append_of_pos hall,
        takeWhile_of_not_touches (fun _ => isTokenChar_of_isCapital) hafter, List.append_nil]
    rw [hcapitals]
    match hlength : token.length with
    | 0 => simp [longestMatch?, isShoutedToken, hlength]
    | 1 => simp [longestMatch?, isShoutedToken, hlength]
    | n + 2 =>
        have hend : isBoundary (token ++ after)[n + 1]? (token ++ after)[n + 2]? = true := by
          rw [List.getElem?_append_left (by omega), List.getElem?_append_right (by omega),
            List.getElem?_eq_getElem (by omega), isBoundary, touches_some,
            htoken _ (List.getElem_mem _), hlength, Nat.sub_self, ← List.head?_eq_getElem?, hafter]
          rfl
        have hshouted : isShoutedToken token = true := by
          simpa [isShoutedToken, hlength] using hall
        rw [longestMatch?, if_pos hend, if_pos hshouted]
  · have hle := (token.takeWhile_prefix isCapital).length_le
    have hshort : (token.takeWhile isCapital).length ≠ token.length := fun hlength =>
      hall (List.all_eq_true.mp
        ((token.takeWhile_prefix isCapital).eq_of_length hlength ▸ List.all_takeWhile))
    have hlt : ((token ++ after).takeWhile isCapital).length < token.length := by
      rw [List.takeWhile_append, if_neg hshort]
      omega
    have hnot : ¬ isShoutedToken token = true := fun h => hall (isCapital_of_isShoutedToken h).2
    rw [longestMatch?_inside htoken hlt, if_neg hnot]

/-- A search inside a run finds nothing before the run ends. -/
theorem matchesAfter_inside {before token after : List Char}
    (hbefore : touches before.getLast? = true) (htoken : ∀ c ∈ token, isTokenChar c = true) :
    matchesAfter before (token ++ after) = matchesAfter (before ++ token) after := by
  induction token generalizing before with
  | nil => simp
  | cons c token ih =>
      have hc : isTokenChar c = true := htoken c (by simp)
      have hnone : matchAt? before.getLast? (c :: (token ++ after)) = none := by
        simp [matchAt?, isBoundary, hbefore, hc]
      have hnext : matchesAfter before (c :: token ++ after) =
          matchesAfter (before ++ [c]) (token ++ after) := by
        simp [matchesAfter, matchesFrom, hnone]
      rw [hnext, ih (by simp [hc]) (fun d hd => htoken d (by simp [hd])), List.append_assoc,
        List.singleton_append]

theorem matchesAfter_gap (before : List Char) {c : Char} (rest : List Char)
    (hc : isTokenChar c = false) :
    matchesAfter before (c :: rest) = matchesAfter (before ++ [c]) rest := by
  have hcapital : isCapital c ≠ true := fun h => by simp [isTokenChar_of_isCapital h] at hc
  have hnone : matchAt? before.getLast? (c :: rest) = none := by
    rw [matchAt?, List.takeWhile_cons_of_neg hcapital]
    simp [longestMatch?]
  simp [matchesAfter, matchesFrom, hnone]

theorem matchesAfter_run {before token rest : List Char} (hne : token ≠ [])
    (htoken : ∀ c ∈ token, isTokenChar c = true) (hbefore : touches before.getLast? = false)
    (hrest : touches rest.head? = false) :
    matchesAfter before (token ++ rest) =
      (if isShoutedToken token then [spanAfter before token] else []) ++
        matchesAfter (before ++ token) rest := by
  have hmatch := matchAt?_run hne htoken hbefore hrest
  cases token with
  | nil => exact absurd rfl hne
  | cons c token =>
      cases hshouted : isShoutedToken (c :: token) with
      | true =>
          rw [hshouted, if_pos rfl, List.cons_append, List.length_cons] at hmatch
          simp [matchesAfter, matchesFrom, hmatch, spanAfter, List.getLast?_append,
            List.getLast?_cons]
      | false =>
          -- the search moves one character into the run, where it finds nothing more
          rw [hshouted, if_neg (by simp), List.cons_append] at hmatch
          have hinside : matchesAfter (before ++ [c]) (token ++ rest) =
              matchesAfter (before ++ [c] ++ token) rest :=
            matchesAfter_inside (by simp [htoken c]) (fun d hd => htoken d (by simp [hd]))
          simpa [matchesAfter, matchesFrom, hmatch] using hinside

/-! ## The runs that are matched -/

theorem advanceOver_positionAfter (before token : List Char) :
    advanceOver (positionAfter before) token = positionAfter (before ++ token) := by
  rw [advanceOver, positionAfter, positionAfter, List.foldl_append]

theorem runsFrom_gap (here : Position) {c : Char} (rest : List Char) (hc : isTokenChar c = false) :
    runsFrom here (c :: rest) = runsFrom (here.advance c) rest := by
  rw [runsFrom, if_neg (by simp [hc])]

theorem runsFrom_run (here : Position) {token rest : List Char} (hne : token ≠ [])
    (htoken : ∀ c ∈ token, isTokenChar c = true) (hrest : touches rest.head? = false) :
    runsFrom here (token ++ rest) =
      ⟨token, here, advanceOver here token⟩ :: runsFrom (advanceOver here token) rest := by
  cases token with
  | nil => exact absurd rfl hne
  | cons c token =>
      have htail : ∀ d ∈ token, isTokenChar d = true := fun d hd => htoken d (by simp [hd])
      have hdrop : (token ++ rest).dropWhile isTokenChar = rest := by
        have hsplit := @List.takeWhile_append_dropWhile _ isTokenChar (token ++ rest)
        rw [takeWhile_run htail hrest] at hsplit
        exact List.append_cancel_left hsplit
      rw [List.cons_append, runsFrom, if_pos (htoken c (by simp)), takeWhile_run htail hrest, hdrop]

theorem filter_runsFrom {before rest : List Char} (hsep : Separate before rest) :
    (runsFrom (positionAfter before) rest).filter Run.isShouted =
      (matchesAfter before rest).map (runAt (before ++ rest)) := by
  refine token_induction ?nil ?gap ?run before rest hsep
  case nil =>
    intro before
    simp [runsFrom, matchesAfter, matchesFrom]
  case gap =>
    intro before c rest hc ih
    rw [runsFrom_gap _ rest hc, matchesAfter_gap before rest hc]
    simpa [positionAfter] using ih
  case run =>
    intro before token rest hne htoken hbefore hrest ih
    rw [runsFrom_run _ hne htoken hrest, advanceOver_positionAfter,
      matchesAfter_run hne htoken hbefore hrest, List.filter_cons, ih, ← List.append_assoc,
      List.map_append, Run.isShouted, ← isShoutedToken]
    cases isShoutedToken token with
    | false => rfl
    | true => rw [if_pos rfl, if_pos rfl, List.map_singleton, runAt_spanAfter, List.singleton_append]

/-- The runs that deserve a warning are those that the search finds. -/
theorem shoutedRuns_eq (text : List Char) :
    shoutedRuns text = (matchesIn text).map (runAt text) :=
  filter_runsFrom (.inl rfl : Separate [] text)

/-! ## What a match is -/

/-- The span has two or more bytes, all of them capital letters, and on each side the text ends or
goes on with a character that no token holds. -/
def IsShouted (text : List Char) (span : Span) : Prop :=
  ∃ before token after, text = before ++ token ++ after ∧ span = spanAfter before token ∧
    span.first + 2 ≤ span.last ∧ (∀ c ∈ token, isCapital c = true) ∧
    touches before.getLast? = false ∧ touches after.head? = false

theorem byteLength_of_capitals {token : List Char} (h : ∀ c ∈ token, isCapital c = true) :
    byteLength token = token.length := by
  induction token with
  | nil => rfl
  | cons c token ih =>
      have hc := h c (by simp)
      simp only [isCapital, Bool.and_eq_true, decide_eq_true_eq] at hc
      have hsize : c.utf8Size = 1 := Char.utf8Size_eq_one_iff.mpr (UInt32.le_trans hc.2 (by decide))
      rw [byteLength_cons, hsize, ih fun d hd => h d (by simp [hd]), List.length_cons, Nat.add_comm]

theorem isShouted_of_isShoutedToken {before token after : List Char}
    (h : isShoutedToken token = true) (hbefore : touches before.getLast? = false)
    (hafter : touches after.head? = false) :
    IsShouted (before ++ token ++ after) (spanAfter before token) := by
  obtain ⟨hlength, hcapital⟩ := isCapital_of_isShoutedToken h
  refine ⟨before, token, after, rfl, rfl, ?_, hcapital, hbefore, hafter⟩
  rw [spanAfter_first, spanAfter_last, byteLength_of_capitals hcapital]
  omega

theorem IsShouted.last_le {text : List Char} {span : Span} (h : IsShouted text span) :
    span.first + 2 ≤ span.last ∧ span.last ≤ byteLength text := by
  obtain ⟨before, token, after, rfl, rfl, hlength, -⟩ := h
  refine ⟨hlength, ?_⟩
  simp only [spanAfter_last, byteLength_append]
  omega

/-- A token that does not start before a character outside all runs starts behind it. -/
theorem IsShouted.behind_gap {before rest : List Char} {c : Char} {span : Span}
    (h : IsShouted (before ++ c :: rest) span) (hc : isTokenChar c = false)
    (hle : byteLength before ≤ span.first) : byteLength (before ++ [c]) ≤ span.first := by
  obtain ⟨before', token, after, htext, rfl, hlength, hcapital, -⟩ := h
  rw [List.append_assoc] at htext
  obtain ⟨mid, rfl, hmid⟩ := exists_between htext hle
  cases mid with
  | nil =>
      cases token with
      | nil =>
          rw [spanAfter_first, spanAfter_last, byteLength_nil] at hlength
          omega
      | cons d token =>
          obtain ⟨rfl, -⟩ := List.cons.inj hmid
          simp [isTokenChar_of_isCapital (hcapital c (by simp))] at hc
  | cons d mid =>
      obtain ⟨rfl, -⟩ := List.cons.inj hmid
      simp only [spanAfter_first, byteLength_append, byteLength_cons, byteLength_nil]
      omega

/-- A token that does not start before a run is that run or starts behind it. -/
theorem IsShouted.behind_run {before token rest : List Char} {span : Span}
    (h : IsShouted (before ++ (token ++ rest)) span)
    (htoken : ∀ c ∈ token, isTokenChar c = true) (hrest : touches rest.head? = false)
    (hle : byteLength before ≤ span.first) :
    (span = spanAfter before token ∧ isShoutedToken token = true) ∨
      byteLength (before ++ token) ≤ span.first := by
  obtain ⟨before', token', after, htext, rfl, hlength, hcapital, hbefore, hafter⟩ := h
  rw [List.append_assoc] at htext
  obtain ⟨mid, rfl, hmid⟩ := exists_between htext hle
  rcases List.append_eq_append_iff.mp hmid with ⟨gap, rfl, -⟩ | ⟨tail, rfl, htail⟩
  · right
    simp only [spanAfter_first, byteLength_append]
    omega
  · left
    -- the token starts within the run, so at its start: the character before it is outside all runs
    have hstart : mid = [] :=
      eq_nil_of_getLast? hbefore fun c hc => htoken c (List.mem_append_left _ hc)
    subst hstart
    have hwhole := takeWhile_run (fun c hc => isTokenChar_of_isCapital (hcapital c hc)) hafter
    rw [htail, takeWhile_run (by simpa using htoken) hrest] at hwhole
    subst hwhole
    rw [List.append_nil]
    refine ⟨rfl, ?_⟩
    rw [spanAfter_first, spanAfter_last, byteLength_of_capitals hcapital] at hlength
    simp only [isShoutedToken, List.nil_append, Bool.and_eq_true, decide_eq_true_eq,
      List.all_eq_true]
    exact ⟨by omega, hcapital⟩

theorem mem_matchesAfter {before rest : List Char} (hsep : Separate before rest) (span : Span) :
    span ∈ matchesAfter before rest ↔
      IsShouted (before ++ rest) span ∧ byteLength before ≤ span.first := by
  refine token_induction ?nil ?gap ?run before rest hsep
  case nil =>
    intro before
    simp only [matchesAfter, matchesFrom, List.not_mem_nil, false_iff, List.append_nil]
    rintro ⟨h, hle⟩
    have := h.last_le
    omega
  case gap =>
    intro before c rest hc ih
    rw [matchesAfter_gap before rest hc, ih, List.append_assoc, List.singleton_append]
    constructor
    · rintro ⟨h, hle⟩
      rw [byteLength_append] at hle
      exact ⟨h, by omega⟩
    · rintro ⟨h, hle⟩
      exact ⟨h, h.behind_gap hc hle⟩
  case run =>
    intro before token rest hne htoken hbefore hrest ih
    rw [matchesAfter_run hne htoken hbefore hrest, List.mem_append, ih, List.append_assoc]
    constructor
    · rintro (h | ⟨h, hle⟩)
      · split at h
        · next hshouted =>
            obtain rfl := List.mem_singleton.mp h
            rw [← List.append_assoc]
            exact ⟨isShouted_of_isShoutedToken hshouted hbefore hrest, Nat.le_refl _⟩
        · cases h
      · rw [byteLength_append] at hle
        exact ⟨h, by omega⟩
    · rintro ⟨h, hle⟩
      rcases h.behind_run htoken hrest hle with ⟨rfl, hshouted⟩ | hbehind
      · left
        rw [if_pos hshouted]
        exact List.mem_singleton_self _
      · exact .inr ⟨h, hbehind⟩

theorem mem_matchesIn (text : List Char) (span : Span) :
    span ∈ matchesIn text ↔ IsShouted text span := by
  have h := mem_matchesAfter (.inl rfl : Separate [] text) span
  rw [List.nil_append, byteLength_nil] at h
  exact h.trans (and_iff_left (Nat.zero_le _))

theorem pairwise_matchesAfter {before rest : List Char} (hsep : Separate before rest) :
    (matchesAfter before rest).Pairwise fun a b => a.first < a.last ∧ a.last ≤ b.first := by
  refine token_induction ?nil ?gap ?run before rest hsep
  case nil =>
    intro before
    simp [matchesAfter, matchesFrom]
  case gap =>
    intro before c rest hc ih
    rwa [matchesAfter_gap before rest hc]
  case run =>
    intro before token rest hne htoken hbefore hrest ih
    rw [matchesAfter_run hne htoken hbefore hrest]
    refine List.pairwise_append.mpr ⟨?_, ih, ?_⟩
    · split <;> simp
    · intro a ha b hb
      split at ha
      · next hshouted =>
          obtain rfl := List.mem_singleton.mp ha
          have hlast := (isShouted_of_isShoutedToken hshouted hbefore hrest).last_le
          have hle := ((mem_matchesAfter (.inr hrest) b).mp hb).2
          rw [byteLength_append] at hle
          exact ⟨by omega, hle⟩
      · cases ha

/-! ## Maximal runs -/

/-- The span is not empty and holds token characters only. -/
def IsTokenSpan (text : List Char) (span : Span) : Prop :=
  ∃ before token after, text = before ++ token ++ after ∧ span = spanAfter before token ∧
    token ≠ [] ∧ ∀ c ∈ token, isTokenChar c = true

/-- The span is a run of token characters that no other such run contains. -/
structure IsMaximalRun (text : List Char) (span : Span) : Prop where
  tokens : IsTokenSpan text span
  maximal : ∀ other, IsTokenSpan text other → other.first ≤ span.first → span.last ≤ other.last →
    other = span

theorem IsMaximalRun.not_touches {before token after : List Char}
    (h : IsMaximalRun (before ++ token ++ after) (spanAfter before token))
    (htoken : ∀ c ∈ token, isTokenChar c = true) :
    touches before.getLast? = false ∧ touches after.head? = false := by
  -- a token character next to the run would make a longer one
  constructor
  · rcases List.eq_nil_or_concat before with rfl | ⟨before, c, rfl⟩
    · rfl
    · rw [List.concat_eq_append, List.getLast?_concat, touches_some]
      apply Bool.eq_false_iff.mpr
      intro hc
      have hpos := c.utf8Size_pos
      have hlonger := h.maximal (spanAfter before (c :: token))
        ⟨before, c :: token, after, by simp, rfl, by simp, by simpa [hc] using htoken⟩
        (by simp) (by simp [Nat.add_assoc])
      have hfirst := congrArg Span.first hlonger
      simp only [spanAfter_first, List.concat_eq_append, byteLength_append, byteLength_cons] at hfirst
      omega
  · cases after with
    | nil => rfl
    | cons c after =>
        rw [List.head?_cons, touches_some]
        apply Bool.eq_false_iff.mpr
        intro hc
        have hpos := c.utf8Size_pos
        have hlonger := h.maximal (spanAfter before (token ++ [c]))
          ⟨before, token ++ [c], after, by simp, rfl, by simp, fun d hd => ?_⟩
          (Nat.le_refl _) (by simp)
        · have hlast := congrArg Span.last hlonger
          simp only [spanAfter_last, byteLength_append, byteLength_cons] at hlast
          omega
        · rcases List.mem_append.mp hd with hd | hd
          · exact htoken d hd
          · rwa [List.mem_singleton.mp hd]

theorem isMaximalRun_of_not_touches {before token after : List Char} (hne : token ≠ [])
    (htoken : ∀ c ∈ token, isTokenChar c = true) (hbefore : touches before.getLast? = false)
    (hafter : touches after.head? = false) :
    IsMaximalRun (before ++ token ++ after) (spanAfter before token) := by
  refine ⟨⟨before, token, after, rfl, rfl, hne, htoken⟩, ?_⟩
  rintro other ⟨before', token', after', htext, rfl, -, htoken'⟩ hfirst hlast
  -- the larger run is `left`, the run and `right`, and neither neighbour is a token character
  obtain ⟨right, hsplit, rfl⟩ := exists_between htext (by simpa using hlast)
  rw [List.append_assoc] at hsplit
  obtain ⟨left, rfl, hleft⟩ := exists_between hsplit hfirst
  subst hleft
  have hleft : left = [] := eq_nil_of_getLast? hbefore fun c hc => htoken' c (by simp [hc])
  have hright : right = [] := eq_nil_of_head? hafter fun c hc => htoken' c (by simp [hc])
  subst hleft hright
  simp

/-- The two descriptions of a token agree. -/
theorem isShouted_iff (text : List Char) (span : Span) :
    IsShouted text span ↔ IsMaximalRun text span ∧ 2 ≤ (slice text span).length ∧
      ∀ c ∈ slice text span, isCapital c = true := by
  constructor
  · rintro ⟨before, token, after, rfl, rfl, hlength, hcapital, hbefore, hafter⟩
    rw [spanAfter_first, spanAfter_last, byteLength_of_capitals hcapital] at hlength
    have hne : token ≠ [] := by
      rintro rfl
      rw [List.length_nil] at hlength
      omega
    rw [slice_spanAfter]
    exact ⟨isMaximalRun_of_not_touches hne
      (fun c hc => isTokenChar_of_isCapital (hcapital c hc)) hbefore hafter, by omega, hcapital⟩
  · rintro ⟨hmaximal, hlength, hcapital⟩
    obtain ⟨before, token, after, rfl, rfl, -, htoken⟩ := hmaximal.tokens
    rw [slice_spanAfter] at hlength hcapital
    obtain ⟨hbefore, hafter⟩ := hmaximal.not_touches htoken
    refine ⟨before, token, after, rfl, rfl, ?_, hcapital, hbefore, hafter⟩
    rw [spanAfter_first, spanAfter_last, byteLength_of_capitals hcapital]
    omega

end Text

/-! ## The diagnostics of a document -/

open Text

/-- The diagnostics of a text are those of its first tokens, whatever the document and the cap: each
has the range of its token, names it in the message, and carries two notes about that range if they
are wanted. The tokens come in increasing order and do not overlap. -/
theorem validate_reports_tokens (text : String) :
    (∀ uri cap related, validate uri text cap related =
      ((matchesIn text.toList).take cap).map fun span =>
        { range := rangeAt text.toList span.first span.last
          source := "ex"
          message := String.ofList (slice text.toList span) ++
            " is all uppercase. Can you please fix that"
          notes := if related then
              [⟨uri, rangeAt text.toList span.first span.last, "Spelling matters"⟩,
                ⟨uri, rangeAt text.toList span.first span.last, "Particularly for names"⟩]
            else [] }) ∧
    (matchesIn text.toList).Pairwise (fun a b => a.first < a.last ∧ a.last ≤ b.first) ∧
    (∀ span, span ∈ matchesIn text.toList ↔ IsShouted text.toList span) ∧
    (∀ span, span ∈ matchesIn text.toList ↔ IsMaximalRun text.toList span ∧
      2 ≤ (slice text.toList span).length ∧ ∀ c ∈ slice text.toList span, isCapital c = true) ∧
    ∀ uri cap more related,
      validate uri text cap related <+: validate uri text (cap + more) related := by
  refine ⟨fun uri cap related => ?_, pairwise_matchesAfter (.inl rfl : Separate [] _),
    mem_matchesIn _, fun span => ?_, fun uri cap more related => ?_⟩
  · rw [validate, shoutedRuns_eq, ← List.map_take, List.map_map]
    rfl
  · rw [mem_matchesIn, isShouted_iff]
  · exact (List.take_prefix_take_left (Nat.le_add_right cap more)).map _

end ScenarioServer
