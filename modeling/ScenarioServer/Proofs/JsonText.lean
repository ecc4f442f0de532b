import Mathlib.Data.List.Forall2
import ScenarioServer.Json.Value

/-!
# Reading back what was printed

A value in the pretty layout can be read again, and what is read is the value (`parse?_pretty`). The
way back has three parts, as the reader has. The text spells the tokens of the value, whatever comes
behind it; the tokens build its node on top of whatever is open; and the node means the value.

This holds for the values that the reader does not cut short: they nest at most `nestingLimit` deep,
their numbers are words, and no object has a name twice (`Readable`).
-/

namespace ScenarioServer

/-! ## Traversals -/

section Traversal

variable {α β : Type}

/-- A traversal in which nothing fails is a map. -/
theorem mapM_eq_some_map {f : α → Option β} {g : α → β} {items : List α}
    (h : ∀ item ∈ items, f item = some (g item)) : items.mapM f = some (items.map g) := by
  induction items with
  | nil => rfl
  | cons item items ih =>
      have hrest := ih fun other hother => h other (List.mem_cons_of_mem _ hother)
      simp [List.mapM_cons, h item List.mem_cons_self, hrest]

theorem mapM_map_eq_some {f : α → β} {g : β → Option α} {items : List α}
    (h : ∀ item ∈ items, g (f item) = some item) : (items.map f).mapM g = some items := by
  have hid : ∀ item ∈ items, (g ∘ f) item = some (id item) := h
  rw [List.mapM_map, mapM_eq_some_map hid, List.map_id]

end Traversal

namespace Json

/-! ## Texts that spell tokens -/

/-- A text consists of the given tokens with blanks around them. -/
inductive Spells : List Char → List Token → Prop where
  | nil : Spells [] []
  | blank {c : Char} {text : List Char} {found : List Token} (hblank : isBlank c = true)
      (h : Spells text found) : Spells (c :: text) found
  | token {c : Char} {used text : List Char} {token : Token} {found : List Token}
      (hblank : isBlank c = false) (hscan : scanToken c (used ++ text) = some (token, text))
      (h : Spells text found) : Spells (c :: (used ++ text)) (token :: found)

theorem Spells.tokensFrom_eq {text : List Char} {found : List Token} (h : Spells text found)
    {fuel : Nat} (hfuel : text.length ≤ fuel) (before : List Token) :
    tokensFrom fuel before text = some (before.reverse ++ found) := by
  induction h generalizing fuel before with
  | nil =>
      rw [tokensFrom, List.append_nil]
  | blank hblank h ih =>
      obtain ⟨fuel, rfl⟩ := Nat.exists_eq_add_one_of_ne_zero (Nat.ne_zero_of_lt hfuel)
      rw [tokensFrom, if_pos hblank, ih (Nat.le_of_succ_le_succ hfuel)]
  | token hblank hscan h ih =>
      -- the characters behind the first one of a token leave fuel over
      obtain ⟨fuel, rfl⟩ := Nat.exists_eq_add_one_of_ne_zero (Nat.ne_zero_of_lt hfuel)
      rw [List.length_cons, List.length_append] at hfuel
      rw [tokensFrom, hblank, if_neg Bool.false_ne_true, hscan]
      simp only
      rw [ih (by omega), List.reverse_cons, List.append_assoc, List.singleton_append]

theorem Spells.tokens_eq {text : List Char} {found : List Token} (h : Spells text found) :
    tokens text = some found :=
  h.tokensFrom_eq (Nat.le_refl _) []

/-- A text of blanks. -/
def Blank (text : String) : Prop := ∀ c ∈ text.toList, isBlank c = true

theorem Spells.blanks {indent : String} (hindent : Blank indent) {text : List Char}
    {found : List Token} (h : Spells text found) : Spells (indent.toList ++ text) found := by
  unfold Blank at hindent
  generalize indent.toList = blanks at hindent ⊢
  induction blanks with
  | nil => exact h
  | cons c blanks ih =>
      exact .blank (hindent c List.mem_cons_self)
        (ih fun other hother => hindent other (List.mem_cons_of_mem _ hother))

/-- A text is one token, whatever stands behind it. -/
def Marks (text : String) (token : Token) : Prop :=
  ∀ rest more, Spells rest more → Spells (text.toList ++ rest) (token :: more)

theorem Marks.of_scan {text : String} {c : Char} {used : List Char} {token : Token}
    (htext : text.toList = c :: used) (hblank : isBlank c = false)
    (hscan : ∀ rest, scanToken c (used ++ rest) = some (token, rest)) : Marks text token := by
  intro rest more hrest
  rw [htext, List.cons_append]
  exact .token hblank (hscan rest) hrest

/-- What stands behind a value: nothing, or a character that cannot continue a number. -/
inductive Ends : List Char → Prop where
  | nil : Ends []
  | comma (rest : List Char) : Ends (',' :: rest)
  | feed (rest : List Char) : Ends ('\n' :: rest)

/-- A text consists of the given tokens, whatever stands behind its end. -/
def Writes (text : String) (found : List Token) : Prop :=
  ∀ rest more, Ends rest → Spells rest more → Spells (text.toList ++ rest) (found ++ more)

theorem Marks.writes {text : String} {token : Token} (h : Marks text token) : Writes text [token] :=
  fun rest more _ hrest => h rest more hrest

/-! ## Strings -/

theorem hexValue?_hexDigit {n : Nat} (h : n < 16) : hexValue? (hexDigit n) = some n := by
  have hall : ∀ n < 16, hexValue? (hexDigit n) = some n := by decide
  exact hall n h

theorem scanString_control {c : Char} (h : c.toNat < 0x20) (found rest : List Char) :
    scanString .escape ⟨found, none, true⟩
        ('u' :: '0' :: '0' :: hexDigit (c.toNat / 16) :: hexDigit (c.toNat % 16) :: rest) =
      scanString .plain ⟨c :: found, none, true⟩ rest := by
  have hhigh := hexValue?_hexDigit (show c.toNat / 16 < 16 by omega)
  have hlow := hexValue?_hexDigit (Nat.mod_lt c.toNat (show 0 < 16 by decide))
  have hzero : hexValue? '0' = some 0 := by decide
  have hunit : c.toNat / 16 * 16 + c.toNat % 16 = c.toNat := Nat.div_add_mod' c.toNat 16
  have hpush : StringScan.pushUnit ⟨found, none, true⟩ c.toNat = ⟨c :: found, none, true⟩ := by
    rw [StringScan.pushUnit, if_neg (by omega), if_neg (by omega), StringScan.push,
      Char.ofNat_toNat]
    rfl
  simp [scanString, hhigh, hlow, hzero, hunit, hpush]

/-- An escaped character is read as the character. -/
theorem scanString_escapeChar (c : Char) (found rest : List Char) :
    scanString .plain ⟨found, none, true⟩ (escapeChar c ++ rest) =
      scanString .plain ⟨c :: found, none, true⟩ rest := by
  unfold escapeChar
  split_ifs with hquote hslash hback hform hfeed hreturn htab hcontrol
  · subst hquote; rfl
  · subst hslash; rfl
  · subst hback; rfl
  · subst hform; rfl
  · subst hfeed; rfl
  · subst hreturn; rfl
  · subst htab; rfl
  · exact scanString_control hcontrol found rest
  · rw [List.singleton_append, scanString, if_neg hquote, if_neg hslash, if_neg hcontrol]
    rfl

theorem scanString_escaped (text found rest : List Char) :
    scanString .plain ⟨found, none, true⟩ (text.flatMap escapeChar ++ '"' :: rest) =
      some (⟨text.reverse ++ found, none, true⟩, rest) := by
  induction text generalizing found with
  | nil => rfl
  | cons c text ih =>
      rw [List.flatMap_cons, List.append_assoc, scanString_escapeChar, ih, List.reverse_cons,
        List.append_assoc, List.singleton_append]

theorem marks_quote (text : String) : Marks (quote text) (.string (some text)) := by
  intro rest more hrest
  have hquoted : (quote text).toList ++ rest =
      '"' :: ((text.toList.flatMap escapeChar ++ ['"']) ++ rest) := by
    rw [quote, String.toList_ofList, List.cons_append, List.cons_append]
  have hscan : scanToken '"' ((text.toList.flatMap escapeChar ++ ['"']) ++ rest) =
      some (.string (some text), rest) := by
    rw [List.append_assoc, List.singleton_append, scanToken, scanString_escaped, Option.map_some]
    simp [StringScan.value?]
  rw [hquoted]
  exact .token rfl hscan hrest

/-! ## Numbers -/

/-- The digits of a natural number. -/
def digits (n : Nat) : List Nat := (Nat.toDigits 10 n).map fun c => c.toNat - '0'.toNat

theorem digitsValue_digits (n : Nat) : digitsValue (digits n) = n := by
  calc digitsValue (digits n) = Nat.ofDigitChars 10 (Nat.toDigits 10 n) 0 := by
        simp only [digitsValue, digits, Nat.ofDigitChars_eq_foldl, List.foldl_map, Nat.mul_comm]
    _ = n := Nat.ofDigitChars_toDigits (by decide) (by decide)

theorem head?_toDigits_ne_zero {n : Nat} (h : n ≠ 0) : (Nat.toDigits 10 n).head? ≠ some '0' := by
  induction n using Nat.strongRecOn with
  | ind n ih =>
      rcases Nat.lt_or_ge n 10 with hlt | hge
      · rw [Nat.toDigits_of_lt_base hlt]
        have hall : ∀ n < 10, n ≠ 0 → [n.digitChar].head? ≠ some '0' := by decide
        exact hall n hlt h
      · rw [Nat.toDigits_of_base_le (by decide) hge, List.head?_append]
        have hhead := ih (n / 10) (by omega) (by omega)
        cases hfirst : (Nat.toDigits 10 (n / 10)).head? with
        | none => simp at hfirst
        | some c =>
            rw [hfirst] at hhead
            exact hhead

theorem digits_zero : digits 0 = [0] := by decide

theorem digits_ne_nil (n : Nat) : digits n ≠ [] := by
  intro h
  exact Nat.toDigits_ne_nil (List.map_eq_nil_iff.mp h)

theorem isDigit_of_mem_toDigits {n : Nat} {c : Char} (h : c ∈ Nat.toDigits 10 n) : c.isDigit = true :=
  Nat.isDigit_of_mem_toDigits (by decide) (by decide) h

/-- Only zero starts with a zero, and then it is the only digit. -/
theorem digits_ne_zero_cons_cons (n d : Nat) (ds : List Nat) : digits n ≠ 0 :: d :: ds := by
  intro h
  by_cases hzero : n = 0
  · rw [hzero, digits_zero] at h
    cases h
  · obtain ⟨c, cs, hdigits, hc, -⟩ := List.map_eq_cons_iff.mp h
    have hdigit : c.isDigit = true := isDigit_of_mem_toDigits (hdigits ▸ List.mem_cons_self)
    have hhead := head?_toDigits_ne_zero hzero
    rw [hdigits, List.head?_cons] at hhead
    apply hhead
    have hvalue : c.toNat = '0'.toNat := by
      have hle : '0'.toNat ≤ c.toNat := (Char.isDigit_iff_toNat.mp hdigit).1
      omega
    rw [Char.toNat_inj.mp hvalue]

theorem takeDigits_toDigits (n : Nat) {rest : List Char} (h : Ends rest) :
    takeDigits (Nat.toDigits 10 n ++ rest) = (digits n, rest) := by
  have hdigits : ∀ c ∈ Nat.toDigits 10 n, c.isDigit = true := fun c hc => isDigit_of_mem_toDigits hc
  rw [takeDigits, List.takeWhile_append_of_pos hdigits, List.dropWhile_append_of_pos hdigits]
  cases h <;> simp [digits]

theorem scanWhole_toDigits (n : Nat) {rest : List Char} (h : Ends rest) :
    scanWhole (Nat.toDigits 10 n ++ rest) = some (digits n, rest) := by
  unfold scanWhole
  rw [takeDigits_toDigits n h]
  split
  · next heq => exact absurd (Prod.mk.inj heq).1 (digits_ne_nil n)
  · next heq => exact absurd (Prod.mk.inj heq).1 (digits_ne_zero_cons_cons n _ _)
  · rfl

theorem scanNumber_toDigits (n : Nat) {rest : List Char} (h : Ends rest) :
    scanNumber (Nat.toDigits 10 n ++ rest) = some ({ negative := false, whole := digits n }, rest) := by
  have hwhole := scanWhole_toDigits n h
  have hfraction : scanFraction rest = some (none, rest) := by cases h <;> rfl
  have hexponent : scanExponent rest = some (none, rest) := by cases h <;> rfl
  obtain ⟨c, cs, hdigits⟩ := List.exists_cons_of_ne_nil (@Nat.toDigits_ne_nil n 10)
  have hsign : c ≠ '-' := by
    rintro rfl
    have hdigit := @isDigit_of_mem_toDigits n '-' (hdigits ▸ List.mem_cons_self)
    simp at hdigit
  rw [hdigits, List.cons_append] at hwhole ⊢
  simp [scanNumber, hsign, hwhole, hfraction, hexponent]

/-- A digit starts none of the other tokens. -/
theorem scanToken_digit {c : Char} (h : c.isDigit = true) (rest : List Char) :
    scanToken c rest = (scanNumber (c :: rest)).map fun (literal, rest) => (.number literal, rest) := by
  unfold scanToken
  split <;> first | rfl | simp at h

theorem writes_repr (n : Nat) :
    Writes (Nat.repr n) [.number { negative := false, whole := digits n }] := by
  intro rest more hends hrest
  obtain ⟨c, cs, hdigits⟩ := List.exists_cons_of_ne_nil (@Nat.toDigits_ne_nil n 10)
  have hdigit : c.isDigit = true := isDigit_of_mem_toDigits (hdigits ▸ List.mem_cons_self)
  have hblank : isBlank c = false := by
    by_contra hblank
    simp only [isBlank, Bool.not_eq_false, Bool.or_eq_true, decide_eq_true_eq] at hblank
    rcases hblank with ((rfl | rfl) | rfl) | rfl <;> simp at hdigit
  have hscan := scanNumber_toDigits n hends
  rw [Nat.toList_repr, hdigits, List.cons_append]
  rw [hdigits, List.cons_append] at hscan
  refine .token hblank ?_ hrest
  rw [scanToken_digit hdigit, hscan, Option.map_some]

/-! ## Values -/

/-- The literal that a number is printed as. -/
def Number.literal : Number → NumberLiteral
  | .natural value => { negative := false, whole := digits value }
  | .negative value => { negative := true, whole := digits value }
  | .real literal => literal

theorem Value.sizeOf_lt_array {items : List Value} {item : Value} (h : item ∈ items) :
    sizeOf item < sizeOf (Value.array items) := by
  have hitem := List.sizeOf_lt_of_mem h
  simp only [array.sizeOf_spec]
  omega

theorem Value.sizeOf_lt_object {members : List (String × Value)} {m : String × Value}
    (h : m ∈ members) : sizeOf m.2 < sizeOf (Value.object members) := by
  have hmember := List.sizeOf_lt_of_mem h
  cases m
  simp only [object.sizeOf_spec, Prod.mk.sizeOf_spec] at hmember ⊢
  omega

/-- The tokens of a value. -/
def Value.tokens : Value → List Token
  | .null => [.null]
  | .bool value => [.bool value]
  | .number n => [.number n.literal]
  | .string text => [.string (some text)]
  | .array items =>
    .openBracket :: [Token.comma].intercalate (items.map Value.tokens) ++ [.closeBracket]
  | .object members =>
    .openBrace :: [Token.comma].intercalate
      (members.map fun m => .string (some m.1) :: .colon :: m.2.tokens) ++ [.closeBrace]
decreasing_by
  · exact sizeOf_lt_array ‹_›
  · exact sizeOf_lt_object ‹_›

/-- The document that a value is printed as. -/
def Value.node : Value → Node
  | .null => .null
  | .bool value => .bool value
  | .number n => .number n.literal
  | .string text => .string (some text)
  | .array items => .array (items.map Value.node)
  | .object members => .object (members.map fun m => (some m.1, m.2.node))
decreasing_by
  · exact sizeOf_lt_array ‹_›
  · exact sizeOf_lt_object ‹_›

/-- A value that nests at most `depth` arrays and objects, whose numbers are words, and in which no
object has a name twice. -/
inductive Value.Readable : Nat → Value → Prop where
  | null {depth : Nat} : Readable depth .null
  | bool {depth : Nat} (value : Bool) : Readable depth (.bool value)
  | natural {depth n : Nat} (h : n ≤ maxWord) : Readable depth (.ofNat n)
  | string {depth : Nat} (text : String) : Readable depth (.string text)
  | array {depth : Nat} {items : List Value} (h : ∀ item ∈ items, Readable depth item) :
      Readable (depth + 1) (.array items)
  | object {depth : Nat} {members : List (String × Value)} (h : ∀ m ∈ members, Readable depth m.2)
      (hnames : (members.map Prod.fst).Nodup) : Readable (depth + 1) (.object members)

theorem prettyItems_eq_map (indent : String) (items : List Value) :
    prettyItems indent items = items.map (pretty indent) := by
  induction items with
  | nil => rfl
  | cons value items ih => rw [prettyItems, ih, List.map_cons]

theorem prettyMembers_eq_map (indent : String) (members : List (String × Value)) :
    prettyMembers indent members = members.map fun m => quote m.1 ++ ": " ++ pretty indent m.2 := by
  induction members with
  | nil => rfl
  | cons m members ih => rw [prettyMembers, ih, List.map_cons]

theorem writes_lines {inner : String} (hinner : Blank inner)
    {lines : List String} {founds : List (List Token)} (h : List.Forall₂ Writes lines founds) :
    Writes (String.intercalate ",\n" (lines.map (inner ++ ·))) ([Token.comma].intercalate founds) := by
  induction h with
  | nil =>
      intro rest more _ hrest
      simpa using hrest
  | @cons line found lines founds hline htail ih =>
      intro rest more hends hrest
      -- a comma stands behind every line but the last, so the last ends as the whole does
      cases htail with
      | nil =>
          simpa using (hline rest more hends hrest).blanks hinner
      | cons hnext htail =>
          have hfeed := Spells.blank (c := '\n') rfl (ih rest more hends hrest)
          have hcomma := (show Marks "," .comma from .of_scan rfl rfl fun _ => rfl) _ _ hfeed
          simpa [String.toList_intercalate, List.intercalate_cons_cons] using
            (hline _ _ (.comma _) hcomma).blanks hinner

theorem Blank.deeper {indent : String} (h : Blank indent) : Blank (indent ++ "  ") := by
  intro c hc
  rcases List.mem_append.mp (String.toList_append ▸ hc) with hc | hc
  · exact h c hc
  · rw [show c = ' ' by simpa using hc]
    rfl

theorem writes_block {opening closing : String} {first last : Token}
    (hopening : Marks opening first) (hclosing : Marks closing last) {indent : String}
    (hindent : Blank indent) {lines : List String} {founds : List (List Token)}
    (h : List.Forall₂ Writes lines founds) :
    Writes (block opening closing indent lines)
      (first :: [Token.comma].intercalate founds ++ [last]) := by
  intro rest more _ hrest
  have hlast := hclosing rest more hrest
  cases h with
  | nil =>
      simpa [block] using hopening _ _ hlast
  | cons hline htail =>
      have hend := Spells.blank (c := '\n') rfl (hlast.blanks hindent)
      have hlines := writes_lines hindent.deeper (.cons hline htail) _ _ (.feed _) hend
      simpa [block] using hopening _ _ (.blank (c := '\n') rfl hlines)

/-- A member is its name, a colon and its value. -/
theorem writes_member (name : String) {text : String} {found : List Token} (h : Writes text found) :
    Writes (quote name ++ ": " ++ text) (.string (some name) :: .colon :: found) := by
  intro rest more hends hrest
  have hcolon : Marks ":" .colon := .of_scan rfl rfl fun _ => rfl
  have hvalue := Spells.blank (c := ' ') rfl (h rest more hends hrest)
  simpa using marks_quote name _ _ (hcolon _ _ hvalue)

theorem writes_pretty {depth : Nat} {value : Value} (h : value.Readable depth) {indent : String}
    (hindent : Blank indent) : Writes (pretty indent value) value.tokens := by
  induction h generalizing indent with
  | null =>
      have hnull : Marks "null" .null := .of_scan rfl rfl fun _ => rfl
      rw [Value.tokens]
      exact hnull.writes
  | bool value =>
      have htrue : Marks "true" (.bool true) := .of_scan rfl rfl fun _ => rfl
      have hfalse : Marks "false" (.bool false) := .of_scan rfl rfl fun _ => rfl
      rw [Value.tokens]
      cases value with
      | true => exact htrue.writes
      | false => exact hfalse.writes
  | @natural depth n h =>
      rw [Value.ofNat, Value.tokens]
      exact writes_repr n
  | string text =>
      rw [Value.tokens]
      exact (marks_quote text).writes
  | array h ih =>
      have hopening : Marks "[" .openBracket := .of_scan rfl rfl fun _ => rfl
      have hclosing : Marks "]" .closeBracket := .of_scan rfl rfl fun _ => rfl
      rw [pretty, Value.tokens, prettyItems_eq_map]
      refine writes_block hopening hclosing hindent ?_
      rw [List.forall₂_map_left_iff, List.forall₂_map_right_iff, List.forall₂_same]
      intro item hitem
      exact ih item hitem hindent.deeper
  | object h hnames ih =>
      have hopening : Marks "\x7b" .openBrace := .of_scan rfl rfl fun _ => rfl
      have hclosing : Marks "\x7d" .closeBrace := .of_scan rfl rfl fun _ => rfl
      rw [pretty, Value.tokens, prettyMembers_eq_map]
      refine writes_block hopening hclosing hindent ?_
      rw [List.forall₂_map_left_iff, List.forall₂_map_right_iff, List.forall₂_same]
      intro m hm
      exact writes_member m.1 (ih m hm hindent.deeper)

/-! ## Reading the tokens -/

namespace Node.Reading

/-- The tokens of a value, read where a value may come, hand its node to what is open. -/
def Delivers (found : List Token) (node : Node) : Prop :=
  ∀ stack expected rest, expected = .value ∨ expected = .itemOrEnd →
    (found ++ rest).foldlM step { stack, expected } = rest.foldlM step (deliver stack node)

/-- The first token of a value is read as such where the end of an array may come, too. -/
theorem step_start {stack : List Frame} {token : Token} {next : Reading}
    (hstart : startValue stack token = some next) {expected : Expected}
    (hexpected : expected = .value ∨ expected = .itemOrEnd) :
    step { stack, expected } token = some next := by
  rcases hexpected with rfl | rfl
  · exact hstart
  · have hclose : close stack token = none := by
      unfold close
      split
      · cases hstart
      · cases hstart
      · rfl
    rw [step, hclose, Option.none_or, hstart]

theorem delivers_items {founds : List (List Token)} {nodes : List Node}
    (h : List.Forall₂ Delivers founds nodes) (hne : nodes ≠ []) (before : List Node)
    (outer : List Frame) {expected : Expected}
    (hexpected : expected = .value ∨ expected = .itemOrEnd) (rest : List Token) :
    ([Token.comma].intercalate founds ++ .closeBracket :: rest).foldlM step
        { stack := .array before :: outer, expected } =
      rest.foldlM step (deliver outer (.array (before.reverse ++ nodes))) := by
  induction h generalizing before expected with
  | nil => exact absurd rfl hne
  | @cons found node founds nodes hfound htail ih =>
      cases htail with
      | nil =>
          rw [List.intercalate_singleton, hfound _ _ _ hexpected, List.foldlM_cons]
          simp [deliver, step, close]
      | cons hnext htail =>
          rw [List.intercalate_cons_cons, List.append_assoc, List.append_assoc, hfound _ _ _ hexpected,
            List.singleton_append, List.foldlM_cons]
          simpa [deliver, step, afterComma] using ih (List.cons_ne_nil _ _) (node :: before) (.inl rfl)

theorem delivers_members {founds : List (List Token)} {members : List (Option String × Node)}
    (h : List.Forall₂ (fun found m => ∃ tail, found = .string m.1 :: .colon :: tail ∧
      Delivers tail m.2) founds members)
    (hne : members ≠ []) (before : List (Option String × Node)) (name : Option String)
    (outer : List Frame) {expected : Expected}
    (hexpected : expected = .name ∨ expected = .nameOrEnd) (rest : List Token) :
    ([Token.comma].intercalate founds ++ .closeBrace :: rest).foldlM step
        { stack := .object before name :: outer, expected } =
      rest.foldlM step (deliver outer (.object (before.reverse ++ members))) := by
  induction h generalizing before name expected with
  | nil => exact absurd rfl hne
  | @cons found m founds members hfound htail ih =>
      obtain ⟨tail, rfl, hvalue⟩ := hfound
      -- the frame keeps the name behind the value; the next member overwrites it
      have hmember : ∀ rest, (.string m.1 :: .colon :: tail ++ rest).foldlM step
          { stack := .object before name :: outer, expected } =
          rest.foldlM step
            { stack := .object (m :: before) m.1 :: outer, expected := .commaOrEnd } := by
        intro rest
        have hread := hvalue (.object before m.1 :: outer) .value rest (.inl rfl)
        rcases hexpected with rfl | rfl <;>
          simpa [List.foldlM_cons, step, startMember, close, deliver] using hread
      cases htail with
      | nil =>
          rw [List.intercalate_singleton, hmember, List.foldlM_cons]
          simp [step, close]
      | cons hnext htail =>
          rw [List.intercalate_cons_cons, List.append_assoc, List.append_assoc, hmember,
            List.singleton_append, List.foldlM_cons]
          simpa [step, afterComma] using ih (List.cons_ne_nil _ _) (m :: before) m.1 (.inl rfl)

theorem delivers_token {token : Token} {node : Node}
    (hstart : ∀ stack, startValue stack token = some (deliver stack node)) :
    Delivers [token] node := by
  intro stack expected rest hexpected
  rw [List.singleton_append, List.foldlM_cons, step_start (hstart stack) hexpected,
    Option.bind_eq_bind, Option.bind_some]

theorem delivers_node {depth : Nat} {value : Value} (h : value.Readable depth) :
    Delivers value.tokens value.node := by
  induction h with
  | null | bool value | string text =>
      rw [Value.tokens, Value.node]
      exact delivers_token fun _ => rfl
  | natural h =>
      rw [Value.ofNat, Value.tokens, Value.node]
      exact delivers_token fun _ => rfl
  | @array depth items h ih =>
      intro stack expected rest hexpected
      rw [Value.tokens, Value.node, List.cons_append, List.cons_append, List.foldlM_cons,
        step_start rfl hexpected, Option.bind_eq_bind, Option.bind_some, List.append_assoc,
        List.singleton_append]
      rcases eq_or_ne items [] with rfl | hne
      · rfl
      · refine delivers_items ?_ (mt List.map_eq_nil_iff.mp hne) [] stack (.inr rfl) rest
        rw [List.forall₂_map_left_iff, List.forall₂_map_right_iff, List.forall₂_same]
        exact ih
  | @object depth members h hnames ih =>
      intro stack expected rest hexpected
      rw [Value.tokens, Value.node, List.cons_append, List.cons_append, List.foldlM_cons,
        step_start rfl hexpected, Option.bind_eq_bind, Option.bind_some, List.append_assoc,
        List.singleton_append]
      rcases eq_or_ne members [] with rfl | hne
      · rfl
      · refine delivers_members ?_ (mt List.map_eq_nil_iff.mp hne) [] none stack (.inr rfl) rest
        rw [List.forall₂_map_left_iff, List.forall₂_map_right_iff, List.forall₂_same]
        intro m hm
        exact ⟨m.2.tokens, rfl, ih m hm⟩

end Node.Reading

theorem Node.ofTokens?_tokens {depth : Nat} {value : Value} (h : value.Readable depth) :
    ofTokens? value.tokens = some value.node := by
  have hread := Reading.delivers_node h [] .value [] (.inl rfl)
  rw [List.append_nil] at hread
  rw [ofTokens?, hread]
  rfl

/-! ## The meaning of the document -/

namespace Value

theorem setMember_of_notMem {members : List (String × Value)} {name : String}
    (h : name ∉ members.map Prod.fst) (value : Value) :
    setMember members name value = members ++ [(name, value)] := by
  rw [setMember, List.filter_eq_self.mpr]
  intro m hm
  have hne : m.1 ≠ name := fun heq => h (heq ▸ List.mem_map_of_mem hm)
  exact decide_eq_true hne

theorem foldl_setMember {members : List (String × Value)} (found : List (String × Value))
    (h : ((found ++ members).map Prod.fst).Nodup) :
    members.foldl (fun found (name, value) => setMember found name value) found =
      found ++ members := by
  induction members generalizing found with
  | nil => rw [List.foldl_nil, List.append_nil]
  | cons m members ih =>
      have hnew : m.1 ∉ found.map Prod.fst := by
        rw [List.map_append, List.nodup_append] at h
        intro hmem
        exact h.2.2 _ hmem _ (List.mem_map_of_mem List.mem_cons_self) rfl
      rw [List.append_cons] at h
      obtain ⟨name, value⟩ := m
      rw [List.foldl_cons]
      simp only
      rw [setMember_of_notMem hnew, ih _ h, ← List.append_cons]

theorem ofNode?_node {depth : Nat} {value : Value} (h : value.Readable depth) :
    ofNode? depth value.node = some value := by
  induction h with
  | null | bool value => rw [node, ofNode?]
  | string text => rw [node, ofNode?, Option.map_some]
  | @natural depth n h =>
      have hliteral : Number.ofLiteral? (Number.natural n).literal = some (.natural n) := by
        simp [Number.ofLiteral?, Number.literal, digitsValue_digits, h]
      rw [ofNat, node, ofNode?, hliteral, Option.map_some]
  | array h ih =>
      rw [node, ofNode?, mapM_map_eq_some ih, Option.map_some]
  | @object depth members h hnames ih =>
      have hmembers : (members.map fun m => (some m.1, m.2.node)).mapM
          (fun (m : Option String × Node) => do return (← m.1, ← ofNode? depth m.2)) =
            some members := by
        refine mapM_map_eq_some fun m hm => ?_
        simp [ih m hm]
      rw [node, ofNode?, hmembers]
      simp only [Option.bind_eq_bind, Option.bind_some]
      rw [foldl_setMember [] hnames]
      rfl

/-- A value in the pretty layout is read back as it is. -/
theorem parse?_pretty {value : Value} (h : value.Readable nestingLimit) :
    parse? (pretty "" value ++ "\n") = some value := by
  have hindent : Blank "" := by simp [Blank]
  have hspells := writes_pretty h hindent ['\n'] [] (.feed []) (.blank rfl .nil)
  have htokens : Json.tokens (pretty "" value ++ "\n").toList = some value.tokens := by
    rw [String.toList_append]
    simpa using hspells.tokens_eq
  rw [parse?, Node.parse?, htokens, Option.bind_some, Node.ofTokens?_tokens h, Option.bind_some,
    ofNode?_node h]

end Value

end Json

end ScenarioServer
