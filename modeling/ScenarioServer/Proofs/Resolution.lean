import ScenarioServer.Proofs.ItemMessages
import ScenarioServer.Proofs.TableRows

/-!
# Resolving completion items

An item is resolved by the id that it carries and by nothing else. An id is an integer of the JSON
document as it was written (`Node.IsUnsigned`), it names a term by its place in the vocabulary, and
the term's label names a row. An engine exists only over a table that covers the vocabulary, so the
last of these steps never fails: an item is refused because it carries no id, or because the id is
outside the vocabulary.

`resolve_is_exact` says which of the three outcomes an item has, and what follows for items that are
listed, for labels that appear twice and for items that were resolved before. What a resolved item
keeps of the one that a client sent is also what the client gets back as JSON.
-/

namespace ScenarioServer

/-! ## Ids as they are written -/

namespace Json

/-- The document is the integer `n`, written with digits only: no sign, no point, no exponent. -/
def Node.IsUnsigned (node : Node) (n : Nat) : Prop :=
  ∃ digits, node = .number { negative := false, whole := digits } ∧ digitsValue digits = n

theorem Number.ofLiteral?_eq_natural_iff (literal : NumberLiteral) (n : Nat) :
    ofLiteral? literal = some (.natural n) ↔
      literal = { negative := false, whole := literal.whole } ∧ digitsValue literal.whole = n ∧
        n ≤ maxWord := by
  obtain ⟨negative, whole, fraction, exponent⟩ := literal
  cases fraction <;> cases exponent <;> grind [ofLiteral?]

theorem Value.ofNode?_eq_number_iff (depth : Nat) (node : Node) (number : Number) :
    ofNode? depth node = some (.number number) ↔
      ∃ literal, node = .number literal ∧ Number.ofLiteral? literal = some number := by
  cases node with
  | number literal => simp [ofNode?]
  | array items => cases depth <;> simp [ofNode?]
  | object members => cases depth <;> simp [ofNode?, Option.bind_eq_some_iff]
  | null | bool | string => simp [ofNode?]

/-- A document that is read as a value is an unsigned integer exactly if it is written as one and
fits 64 bits. -/
theorem Value.eq_natural_iff {depth : Nat} {node : Node} {value : Value}
    (h : ofNode? depth node = some value) (n : Nat) :
    value = .number (.natural n) ↔ node.IsUnsigned n ∧ n ≤ maxWord := by
  rw [← Option.some_inj, ← h, ofNode?_eq_number_iff]
  constructor
  · rintro ⟨literal, rfl, hnumber⟩
    obtain ⟨hdigits, hvalue, hfits⟩ := (Number.ofLiteral?_eq_natural_iff literal n).mp hnumber
    exact ⟨⟨literal.whole, congrArg Node.number hdigits, hvalue⟩, hfits⟩
  · rintro ⟨⟨digits, rfl, hvalue⟩, hfits⟩
    exact ⟨_, rfl, (Number.ofLiteral?_eq_natural_iff _ n).mpr ⟨rfl, hvalue, hfits⟩⟩

end Json

/-! ## Tables that cover the vocabulary -/

namespace KeywordTable

theorem ofEntries_eq_ok_iff (entries : List KeywordEntry) (table : KeywordTable) :
    ofEntries entries = .ok table ↔
      table = ⟨entries⟩ ∧ (∀ entry ∈ entries, entry.label ≠ "") ∧
        (entries.map KeywordEntry.label).Nodup :=
  accepted_iff .keyword KeywordEntry.label KeywordEntry.label KeywordEntry.label entries
    (mk entries) table

theorem get?_eq_some_iff {table : KeywordTable}
    (hnodup : (table.entries.map KeywordEntry.label).Nodup) {label : String} {entry : KeywordEntry} :
    table.get? label = some entry ↔ entry ∈ table.entries ∧ entry.label = label :=
  find?_eq_some_iff_of_nodup hnodup fun _ => decide_eq_true_iff

theorem covers_eq_ok_iff (table : KeywordTable) (labels : List String) :
    table.covers labels = .ok () ↔ ∀ label ∈ labels, ∃ entry, table.get? label = some entry := by
  rw [covers]
  split
  · next label hmissing =>
      constructor
      · intro h
        cases h
      · intro h
        obtain ⟨entry, hentry⟩ := h label (List.mem_of_find?_eq_some hmissing)
        have hnone := List.find?_some hmissing
        rw [hentry] at hnone
        cases hnone
  · next hnone => simpa [Option.ne_none_iff_exists'] using hnone

end KeywordTable

theorem Engine.ofTables_eq_ok_iff (tables : LookupTables) (engine : Engine) :
    ofTables tables = .ok engine ↔ engine = ⟨tables.keywords, tables.hover⟩ ∧
      tables.keywords.covers vocabularyLabels = .ok () := by
  rw [ofTables]
  cases tables.keywords.covers vocabularyLabels with
  | error fault => simp [bind, Except.bind]
  | ok => simp [bind, Except.bind, pure, Except.pure, eq_comm]

/-- In an engine every term has exactly one row. -/
theorem Engine.exists_row {rows : List KeywordEntry} {keywords : KeywordTable} {hover : HoverTable}
    {engine : Engine} (haccepted : KeywordTable.ofEntries rows = .ok keywords)
    (hengine : ofTables ⟨keywords, hover⟩ = .ok engine) {term : Term} (hterm : term ∈ vocabulary) :
    ∃ row, rows.filter (fun row => row.label = term.label) = [row] ∧
      engine.keywords.get? term.label = some row := by
  obtain ⟨rfl, -, hnodup⟩ := (KeywordTable.ofEntries_eq_ok_iff rows keywords).mp haccepted
  obtain ⟨rfl, hcovers⟩ := (ofTables_eq_ok_iff _ engine).mp hengine
  obtain ⟨row, hrow⟩ := (KeywordTable.covers_eq_ok_iff _ _).mp hcovers term.label
    (List.mem_map_of_mem hterm)
  obtain ⟨hmem, hlabel⟩ := (KeywordTable.get?_eq_some_iff hnodup).mp hrow
  exact ⟨row, filter_eq_singleton hnodup (fun _ => decide_eq_true_iff) hmem hlabel, hrow⟩

/-! ## Ids of the vocabulary -/

theorem termById?_eq_none_iff (id : Nat) :
    termById? id = none ↔ id = 0 ∨ vocabulary.length < id := by
  cases id with
  | zero => simp [termById?]
  | succ id =>
      rw [termById?, List.getElem?_eq_none_iff]
      omega

theorem termById?_of_pos {id : Nat} (h : 0 < id) : termById? id = vocabulary[id - 1]? := by
  cases id with
  | zero => cases h
  | succ id => rfl

namespace CompletionItem

/-- The item carries an id: its data are an unsigned integer. -/
def Carries (item : CompletionItem) (id : Nat) : Prop := item.data = some (.number (.natural id))

/-- The item with the two texts of a row; all else stays. -/
def filled (item : CompletionItem) (row : KeywordEntry) : CompletionItem :=
  { item with detail := some row.detail, documentation := some (.text row.documentation) }

theorem Sendable.filled {item : CompletionItem} (h : item.Sendable) (row : KeywordEntry) :
    (item.filled row).Sendable :=
  ⟨h.textEdit, h.additionalTextEdits, h.data⟩

theorem id?_eq_some_iff (item : CompletionItem) (id : Nat) :
    item.id? = some id ↔ item.Carries id := by
  rw [id?, Carries]
  cases item.data with
  | none => simp
  | some value =>
      cases value with
      | number number => cases number <;> simp [Json.Value.natural?, Json.Number.natural?]
      | null | bool | string | array | object => simp [Json.Value.natural?]

theorem id?_eq_none_iff (item : CompletionItem) : item.id? = none ↔ ∀ id, ¬item.Carries id := by
  rw [Option.eq_none_iff_forall_ne_some]
  exact forall_congr' fun id => not_congr (id?_eq_some_iff item id)

/-! ## The three outcomes -/

section Outcomes

variable {rows : List KeywordEntry} {keywords : KeywordTable} {hover : HoverTable} {engine : Engine}

theorem resolve_of_missing (keywords : KeywordTable) {item : CompletionItem}
    (h : ∀ id, ¬item.Carries id) : item.resolve keywords = .error (.missingId item.label) := by
  rw [resolve, (id?_eq_none_iff item).mpr h]

theorem resolve_of_unknown (keywords : KeywordTable) {item : CompletionItem} {id : Nat}
    (hid : item.Carries id) (h : id = 0 ∨ vocabulary.length < id) :
    item.resolve keywords = .error (.unknownId id) := by
  simp only [resolve, (id?_eq_some_iff item id).mpr hid, (termById?_eq_none_iff id).mpr h,
    Option.bind_none]

theorem resolve_of_row {keywords : KeywordTable} {item : CompletionItem} {id : Nat} {term : Term}
    {row : KeywordEntry} (hid : item.Carries id) (hterm : termById? id = some term)
    (hrow : keywords.get? term.label = some row) :
    item.resolve keywords = .ok (item.filled row) := by
  simp only [resolve, (id?_eq_some_iff item id).mpr hid, hterm, Option.bind_some, hrow, filled]

/-- An id of the vocabulary names one row, and every item that carries the id gets its texts. -/
theorem resolve_of_term (haccepted : KeywordTable.ofEntries rows = .ok keywords)
    (hengine : Engine.ofTables ⟨keywords, hover⟩ = .ok engine) {id : Nat} {term : Term}
    (hterm : termById? id = some term) :
    ∃ row, rows.filter (fun row => row.label = term.label) = [row] ∧
      ∀ item : CompletionItem, item.Carries id →
        item.resolve engine.keywords = .ok (item.filled row) := by
  have hmem : term ∈ vocabulary := by
    cases id with
    | zero => cases hterm
    | succ id => exact List.mem_of_getElem? hterm
  obtain ⟨row, honly, hrow⟩ := Engine.exists_row haccepted hengine hmem
  exact ⟨row, honly, fun item hid => resolve_of_row hid hterm hrow⟩

/-- There is no fourth outcome: an item without an id, one with an id outside the vocabulary, or one
with the id of a term. -/
theorem carries_cases (item : CompletionItem) :
    (∀ id, ¬item.Carries id) ∨ ∃ id, item.Carries id ∧
      ((id = 0 ∨ vocabulary.length < id) ∨ ∃ term, termById? id = some term) := by
  cases hid : item.id? with
  | none => exact .inl ((id?_eq_none_iff item).mp hid)
  | some id =>
      refine .inr ⟨id, (id?_eq_some_iff item id).mp hid, ?_⟩
      rw [← termById?_eq_none_iff]
      cases termById? id with
      | none => exact .inl rfl
      | some term => exact .inr ⟨term, rfl⟩

theorem resolve_eq_missingId_iff (haccepted : KeywordTable.ofEntries rows = .ok keywords)
    (hengine : Engine.ofTables ⟨keywords, hover⟩ = .ok engine) (item : CompletionItem)
    (label : String) :
    item.resolve engine.keywords = .error (.missingId label) ↔
      label = item.label ∧ ∀ id, ¬item.Carries id := by
  rcases carries_cases item with hnone | ⟨id, hid, hunknown | ⟨term, hterm⟩⟩
  · rw [resolve_of_missing _ hnone]
    simp [hnone, eq_comm]
  · rw [resolve_of_unknown _ hid hunknown]
    simp only [Except.error.injEq, reduceCtorEq, false_iff]
    exact fun h => h.2 id hid
  · obtain ⟨row, -, hresolve⟩ := resolve_of_term haccepted hengine hterm
    rw [hresolve item hid]
    simp only [reduceCtorEq, false_iff]
    exact fun h => h.2 id hid

theorem resolve_eq_unknownId_iff (haccepted : KeywordTable.ofEntries rows = .ok keywords)
    (hengine : Engine.ofTables ⟨keywords, hover⟩ = .ok engine) (item : CompletionItem) (id : Nat) :
    item.resolve engine.keywords = .error (.unknownId id) ↔
      item.Carries id ∧ (id = 0 ∨ vocabulary.length < id) := by
  constructor
  · intro h
    rcases carries_cases item with hnone | ⟨id', hid, hunknown | ⟨term, hterm⟩⟩
    · rw [resolve_of_missing _ hnone] at h
      cases h
    · rw [resolve_of_unknown _ hid hunknown] at h
      cases h
      exact ⟨hid, hunknown⟩
    · obtain ⟨row, -, hresolve⟩ := resolve_of_term haccepted hengine hterm
      rw [hresolve item hid] at h
      cases h
  · rintro ⟨hid, hunknown⟩
    exact resolve_of_unknown _ hid hunknown

/-- Only the id of a term resolves. -/
theorem term_of_resolve {item resolved : CompletionItem}
    (h : item.resolve engine.keywords = .ok resolved) :
    ∃ id term, item.Carries id ∧ termById? id = some term := by
  rcases carries_cases item with hnone | ⟨id, hid, hunknown | ⟨term, hterm⟩⟩
  · rw [resolve_of_missing _ hnone] at h
    cases h
  · rw [resolve_of_unknown _ hid hunknown] at h
    cases h
  · exact ⟨id, term, hid, hterm⟩

end Outcomes

/-- A listed item carries the id of its term. -/
theorem carries_of_mem_completionItems {item : CompletionItem} (h : item ∈ completionItems) :
    ∃ id term, item.Carries id ∧ termById? id = some term := by
  obtain ⟨⟨id, term⟩, hnumbered, rfl⟩ := List.mem_map.mp h
  obtain ⟨⟨term', index⟩, hplace, heq⟩ := List.mem_map.mp hnumbered
  obtain ⟨rfl, rfl⟩ := Prod.mk.inj heq
  exact ⟨_, _, rfl, List.mem_zipIdx_iff_getElem?.mp hplace⟩

theorem sendable_of_mem_completionItems {item : CompletionItem} (h : item ∈ completionItems) :
    item.Sendable := by
  obtain ⟨⟨id, term⟩, -, rfl⟩ := List.mem_map.mp h
  exact ⟨nofun, nofun, nofun⟩

end CompletionItem

open CompletionItem

/-- Over every table that makes an engine: an item is refused for lack of an id exactly if its data
are absent or no unsigned 64-bit integer, and for an unknown id exactly if that id is 0 or beyond
the vocabulary. Any other item gets detail and documentation of the only row that has the label of
the id's term, whatever its own label, and keeps all else. Nothing is lost between client and server
either: items that were listed or read can be sent, and an item that can be sent is read as it is,
before and after it is resolved. So every listed item resolves, ids with one label resolve alike, and
resolving again changes nothing. -/
theorem resolve_is_exact {rows : List KeywordEntry} {keywords : KeywordTable} {hover : HoverTable}
    {engine : Engine} (haccepted : KeywordTable.ofEntries rows = .ok keywords)
    (hengine : Engine.ofTables ⟨keywords, hover⟩ = .ok engine) :
    (∀ depth node value, Json.Value.ofNode? depth node = some value → ∀ item : CompletionItem,
      item.data = some value → ∀ id, item.Carries id ↔ node.IsUnsigned id ∧ id ≤ Json.maxWord) ∧
    (∀ item : CompletionItem, ∀ label,
      item.resolve engine.keywords = .error (.missingId label) ↔
        label = item.label ∧ ∀ id, ¬item.Carries id) ∧
    (∀ item : CompletionItem, ∀ id,
      item.resolve engine.keywords = .error (.unknownId id) ↔
        item.Carries id ∧ (id = 0 ∨ vocabulary.length < id)) ∧
    (∀ id, 0 < id → id ≤ vocabulary.length → ∃ term row, vocabulary[id - 1]? = some term ∧
      rows.filter (fun row => row.label = term.label) = [row] ∧
      ∀ item : CompletionItem, item.Carries id →
        item.resolve engine.keywords = .ok (item.filled row)) ∧
    (∀ item ∈ completionItems, item.Sendable ∧
      ∃ resolved, item.resolve engine.keywords = .ok resolved) ∧
    (∀ id id' term term', termById? id = some term → termById? id' = some term' →
      term.label = term'.label → ∃ row, ∀ item : CompletionItem, item.Carries id ∨ item.Carries id' →
        item.resolve engine.keywords = .ok (item.filled row)) ∧
    (∀ value item, Wire.completionItem? value = some item → item.Sendable) ∧
    (∀ item : CompletionItem, item.Sendable →
      Wire.completionItem? (Wire.completionItem item) = some item ∧ ∀ row : KeywordEntry,
        Wire.completionItem? (Wire.completionItem (item.filled row)) = some (item.filled row)) ∧
    ∀ item resolved : CompletionItem, item.resolve engine.keywords = .ok resolved →
      resolved.resolve engine.keywords = .ok resolved := by
  refine ⟨?_, resolve_eq_missingId_iff haccepted hengine,
    resolve_eq_unknownId_iff haccepted hengine, ?_, ?_, ?_,
    fun value item => Wire.sendable_of_completionItem?, ?_, ?_⟩
  · intro depth node value hvalue item hdata id
    rw [Carries, hdata, Option.some.injEq, Json.Value.eq_natural_iff hvalue]
  · intro id hpos hle
    have hsome : termById? id ≠ none := by
      rw [ne_eq, termById?_eq_none_iff]
      omega
    obtain ⟨term, hterm⟩ := Option.ne_none_iff_exists'.mp hsome
    obtain ⟨row, honly, hresolve⟩ := resolve_of_term haccepted hengine hterm
    rw [termById?_of_pos hpos] at hterm
    exact ⟨term, row, hterm, honly, hresolve⟩
  · intro item hitem
    obtain ⟨id, term, hid, hterm⟩ := carries_of_mem_completionItems hitem
    obtain ⟨row, -, hresolve⟩ := resolve_of_term haccepted hengine hterm
    exact ⟨sendable_of_mem_completionItems hitem, _, hresolve item hid⟩
  · intro id id' term term' hterm hterm' hlabel
    obtain ⟨row, honly, hresolve⟩ := resolve_of_term haccepted hengine hterm
    obtain ⟨row', honly', hresolve'⟩ := resolve_of_term haccepted hengine hterm'
    rw [hlabel, honly'] at honly
    obtain rfl := List.singleton_inj.mp honly
    refine ⟨row', fun item hid => ?_⟩
    rcases hid with hid | hid
    · exact hresolve item hid
    · exact hresolve' item hid
  · intro item hsendable
    exact ⟨Wire.completionItem?_completionItem hsendable, fun row =>
      Wire.completionItem?_completionItem (hsendable.filled row)⟩
  · intro item resolved h
    obtain ⟨id, term, hid, hterm⟩ := term_of_resolve h
    obtain ⟨row, -, hresolve⟩ := resolve_of_term haccepted hengine hterm
    rw [hresolve item hid] at h
    cases h
    exact hresolve (item.filled row) hid

/-- The built-in rows in reverse, and one that no term needs. -/
def spareRows : List KeywordEntry := ⟨"spare", "unused", "Named by no term"⟩ :: builtinKeywords.reverse

/-- An item with the label of another term than its id has, and an edit of its own. -/
def mislabelled (data : Json.Value) : CompletionItem :=
  { label := "Given"
    preselect := some true
    filterText := some "giv"
    textEdit := some (.insertReplace "Given" ⟨⟨0, 2⟩, ⟨0, 5⟩⟩ ⟨⟨0, 2⟩, ⟨0, 7⟩⟩)
    data := some data }

theorem sendable_mislabelled (id : Nat) : (mislabelled (.ofNat id)).Sendable := by
  refine ⟨fun edit hedit => ?_, nofun, nofun⟩
  cases hedit
  simp [CompletionEdit.Fits, Range.Fits, Position.Fits, UInt32.size]

/-- The ids 27 and 30 have one label; the largest id is not known, and null is no id. -/
theorem resolve_is_exact_mislabelled :
    KeywordTable.ofEntries spareRows = .ok ⟨spareRows⟩ ∧
    Engine.ofTables ⟨⟨spareRows⟩, ⟨[]⟩⟩ = .ok ⟨⟨spareRows⟩, ⟨[]⟩⟩ ∧
    (∃ row, (mislabelled (.ofNat 27)).resolve ⟨spareRows⟩ =
        .ok ((mislabelled (.ofNat 27)).filled row) ∧
      (mislabelled (.ofNat 30)).resolve ⟨spareRows⟩ = .ok ((mislabelled (.ofNat 30)).filled row) ∧
      Wire.completionItem? (Wire.completionItem ((mislabelled (.ofNat 30)).filled row)) =
        some ((mislabelled (.ofNat 30)).filled row)) ∧
    (mislabelled (.ofNat Json.maxWord)).resolve ⟨spareRows⟩ = .error (.unknownId Json.maxWord) ∧
    (mislabelled .null).resolve ⟨spareRows⟩ = .error (.missingId "Given") := by
  have hsound : firstFault .keyword KeywordEntry.label KeywordEntry.label KeywordEntry.label [] 0
      spareRows = none := by decide +kernel
  have haccepted : KeywordTable.ofEntries spareRows = .ok ⟨spareRows⟩ := by
    rw [KeywordTable.ofEntries, hsound]
  have hcovers : KeywordTable.covers ⟨spareRows⟩ vocabularyLabels = .ok () := by decide +kernel
  have hengine : Engine.ofTables ⟨⟨spareRows⟩, ⟨[]⟩⟩ = .ok ⟨⟨spareRows⟩, ⟨[]⟩⟩ :=
    (Engine.ofTables_eq_ok_iff _ _).mpr ⟨rfl, hcovers⟩
  obtain ⟨-, hmissing, hunknown, -, -, hrepeated, -, hsent, -⟩ := resolve_is_exact haccepted hengine
  obtain ⟨row, hrow⟩ := hrepeated 27 30 ⟨"empty", .property⟩ ⟨"empty", .value⟩ rfl rfl rfl
  refine ⟨haccepted, hengine, ⟨row, hrow _ (.inl rfl), hrow _ (.inr rfl),
    (hsent _ (sendable_mislabelled 30)).2 row⟩, ?_, ?_⟩
  · exact (hunknown _ _).mpr ⟨rfl, .inr (by decide)⟩
  · exact (hmissing _ _).mpr ⟨rfl, by simp [Carries, mislabelled]⟩

end ScenarioServer
