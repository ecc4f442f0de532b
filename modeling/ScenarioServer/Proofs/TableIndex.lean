import ScenarioServer.Proofs.Resolution

/-!
# Which rows make a table

A table is made of exactly the valid rows: no label is empty and no two rows have the same key. Of
other rows the first one at fault is reported, which is the row behind the longest beginning that is
valid (`IsFirstFault`), and of its two possible faults the empty label.

`IndexedKeywords` is the keyword table as it is searched. The check fills a hash map from labels to
places while it goes over the rows, and a look-up takes the row at the place that the map has. What
carries the loop is `Places`: the map has the place of every row read so far and nothing else. So the
place is always one of a row, and the look-ups answer as those by search do.

`tables_hold_valid_rows` has the whole law for both tables.
-/

namespace ScenarioServer

/-! ## The first row at fault -/

section Rows

variable {α κ : Type} {label : α → String} {key : α → κ} {shown : α → String} {table : TableName}

/-- No label is empty and no two rows have the same key. -/
def ValidRows (label : α → String) (key : α → κ) (rows : List α) : Prop :=
  (∀ row ∈ rows, label row ≠ "") ∧ (rows.map key).Nodup

/-- What is reported of rows that make no table: the rows before the reported one are valid, and it
has no label or the key of one of them. -/
inductive IsFirstFault (table : TableName) (label : α → String) (key : α → κ) (shown : α → String)
    (rows : List α) : TableError → Prop where
  | empty {before : List α} {row : α} {after : List α} (hrows : rows = before ++ row :: after)
      (hvalid : ValidRows label key before) (hlabel : label row = "") :
      IsFirstFault table label key shown rows (.emptyLabel table before.length)
  | repeated {before : List α} {row : α} {after : List α} (hrows : rows = before ++ row :: after)
      (hvalid : ValidRows label key before) (hlabel : label row ≠ "")
      (hseen : key row ∈ before.map key) :
      IsFirstFault table label key shown rows (.duplicateLabel table (shown row))

theorem validRows_nil : ValidRows label key [] := ⟨fun _ h => absurd h List.not_mem_nil, List.nodup_nil⟩

theorem ValidRows.concat {rows : List α} {row : α} (h : ValidRows label key rows)
    (hlabel : label row ≠ "") (hnew : key row ∉ rows.map key) :
    ValidRows label key (rows ++ [row]) := by
  constructor
  · intro other hother
    rcases List.mem_append.mp hother with hother | hother
    · exact h.1 other hother
    · rwa [List.mem_singleton.mp hother]
  · rw [List.map_append, List.map_singleton, List.nodup_append]
    refine ⟨h.2, List.nodup_singleton _, ?_⟩
    rintro k hk k' hk' rfl
    rw [List.mem_singleton.mp hk'] at hk
    exact hnew hk

variable [DecidableEq κ]

/-- Valid rows are passed over. -/
theorem firstFault_append (table : TableName) (shown : α → String) {before : List α}
    (h : ValidRows label key before) {seen : List κ} (hseen : ∀ row ∈ before, key row ∉ seen)
    (index : Nat) (rest : List α) :
    ∃ seen', (∀ k, k ∈ seen' ↔ k ∈ before.map key ∨ k ∈ seen) ∧
      firstFault table label key shown seen index (before ++ rest) =
        firstFault table label key shown seen' (index + before.length) rest := by
  induction before generalizing seen index with
  | nil => exact ⟨seen, by simp, rfl⟩
  | cons row before ih =>
      obtain ⟨hlabels, hkeys⟩ := h
      rw [List.map_cons, List.nodup_cons] at hkeys
      have hrest : ValidRows label key before :=
        ⟨fun other hother => hlabels other (List.mem_cons_of_mem _ hother), hkeys.2⟩
      have hnew : ∀ other ∈ before, key other ∉ key row :: seen := by
        intro other hother hmem
        rcases List.mem_cons.mp hmem with heq | hmem
        · exact hkeys.1 (heq ▸ List.mem_map_of_mem hother)
        · exact hseen other (List.mem_cons_of_mem _ hother) hmem
      obtain ⟨seen', hseen', hfault⟩ := ih hrest hnew (index + 1)
      refine ⟨seen', fun k => ?_, ?_⟩
      · rw [hseen' k, List.map_cons, List.mem_cons, List.mem_cons]
        tauto
      · rw [List.cons_append, firstFault, if_neg (hlabels row List.mem_cons_self),
          if_neg (hseen row List.mem_cons_self), hfault, List.length_cons, Nat.add_assoc,
          Nat.add_comm 1]

theorem isFirstFault_of_firstFault {before rows : List α} (h : ValidRows label key before)
    {seen : List κ} (hseen : ∀ k, k ∈ seen ↔ k ∈ before.map key) {fault : TableError}
    (hfault : firstFault table label key shown seen before.length rows = some fault) :
    IsFirstFault table label key shown (before ++ rows) fault := by
  induction rows generalizing before seen with
  | nil => cases hfault
  | cons row rest ih =>
      rw [firstFault] at hfault
      split at hfault
      · next hlabel =>
          cases hfault
          exact .empty rfl h hlabel
      · next hlabel =>
          split at hfault
          · next hmem =>
              cases hfault
              exact .repeated rfl h hlabel ((hseen _).mp hmem)
          · next hmem =>
              have hnew : key row ∉ before.map key := fun hkey => hmem ((hseen _).mpr hkey)
              rw [List.append_cons]
              refine @ih (before ++ [row]) (h.concat hlabel hnew) (key row :: seen) ?_ ?_
              · intro k
                rw [List.mem_cons, hseen k, List.map_append, List.mem_append, List.map_singleton,
                  List.mem_singleton, or_comm]
              · rwa [List.length_append, List.length_singleton]

theorem firstFault_eq_some_iff (rows : List α) (fault : TableError) :
    firstFault table label key shown [] 0 rows = some fault ↔
      IsFirstFault table label key shown rows fault := by
  constructor
  · intro h
    have hseen : ∀ k, k ∈ [] ↔ k ∈ ([] : List α).map key := fun k => Iff.rfl
    exact isFirstFault_of_firstFault validRows_nil hseen h
  · intro h
    cases h with
    | empty hrows hvalid hlabel =>
        obtain ⟨seen, -, hfault⟩ := firstFault_append table shown hvalid
          (fun _ _ => List.not_mem_nil) 0 _
        rw [hrows, hfault, firstFault, if_pos hlabel, Nat.zero_add]
    | repeated hrows hvalid hlabel hkey =>
        obtain ⟨seen, hseen, hfault⟩ := firstFault_append table shown hvalid
          (fun _ _ => List.not_mem_nil) 0 _
        rw [hrows, hfault, firstFault, if_neg hlabel, if_pos ((hseen _).mpr (.inl hkey))]

/-- No table is made of rows with a fault, and the first one is the reason. -/
theorem rejected_iff {τ : Type} (rows : List α) (made : τ) (fault : TableError) :
    (match firstFault table label key shown [] 0 rows with
      | some fault => Except.error fault
      | none => .ok made) = .error fault ↔ IsFirstFault table label key shown rows fault := by
  rw [← firstFault_eq_some_iff]
  cases firstFault table label key shown [] 0 rows <;> simp

end Rows

theorem KeywordTable.ofEntries_eq_error_iff (entries : List KeywordEntry) (fault : TableError) :
    ofEntries entries = .error fault ↔
      IsFirstFault .keyword KeywordEntry.label KeywordEntry.label KeywordEntry.label entries fault :=
  rejected_iff entries (mk entries) fault

theorem HoverEntry.shown_eq (row : HoverEntry) :
    row.shown =
      row.category.elim row.label fun category => row.label ++ " (" ++ category.name ++ ")" := by
  unfold shown
  cases row.category <;> rfl

theorem HoverTable.ofEntries_eq_error_iff (entries : List HoverEntry) (fault : TableError) :
    ofEntries entries = .error fault ↔
      IsFirstFault .hover HoverEntry.label HoverEntry.key HoverEntry.shown entries fault :=
  rejected_iff entries (mk entries) fault

/-! ## Labels with and without a row -/

namespace KeywordTable

theorem exists_get?_iff (table : KeywordTable) (label : String) :
    (∃ row, table.get? label = some row) ↔ ∃ row ∈ table.entries, row.label = label := by
  rw [← Option.isSome_iff_exists, get?, List.find?_isSome]
  simp only [decide_eq_true_eq]

theorem get?_eq_none_iff (table : KeywordTable) (label : String) :
    table.get? label = none ↔ ∀ row ∈ table.entries, row.label ≠ label := by
  simp [get?]

theorem covers_eq_error_iff (table : KeywordTable) (labels : List String) (fault : TableError) :
    table.covers labels = .error fault ↔ ∃ before label after, labels = before ++ label :: after ∧
      (∀ earlier ∈ before, ∃ row ∈ table.entries, row.label = earlier) ∧
      (∀ row ∈ table.entries, row.label ≠ label) ∧ fault = .missingKeyword label := by
  have hmissing (label : String) : (table.get? label).isNone = true ↔
      ∀ row ∈ table.entries, row.label ≠ label := by
    rw [Option.isNone_iff_eq_none, get?_eq_none_iff]
  have hpresent (label : String) : (!(table.get? label).isNone) = true ↔
      ∃ row ∈ table.entries, row.label = label := by
    rw [Bool.not_eq_true', Option.isNone_eq_false_iff, Option.isSome_iff_exists, exists_get?_iff]
  constructor
  · intro h
    unfold covers at h
    split at h
    · next label hfind =>
        obtain ⟨hnone, before, after, rfl, hbefore⟩ := List.find?_eq_some_iff_append.mp hfind
        refine ⟨before, label, after, rfl, ?_, (hmissing label).mp hnone, ?_⟩
        · intro earlier hearlier
          exact (hpresent earlier).mp (hbefore earlier hearlier)
        · exact (Except.error.inj h).symm
    · cases h
  · rintro ⟨before, label, after, rfl, hbefore, hnone, rfl⟩
    have hfind : (before ++ label :: after).find? (fun label => (table.get? label).isNone) =
        some label := by
      refine List.find?_eq_some_iff_append.mpr ⟨(hmissing label).mpr hnone, before, after, rfl, ?_⟩
      intro earlier hearlier
      exact (hpresent earlier).mpr (hbefore earlier hearlier)
    unfold covers
    rw [hfind]

end KeywordTable

/-! ## The index of labels -/

/-- The keyword table as it is searched: the rows, and the place of the row of each label. -/
structure IndexedKeywords where
  entries : List KeywordEntry
  places : Std.HashMap String Nat

namespace IndexedKeywords

/-- Checks rows and notes the place of each, given the places of the rows before them and their
number. -/
def notePlaces (places : Std.HashMap String Nat) (index : Nat) :
    List KeywordEntry → Except TableError (Std.HashMap String Nat)
  | [] => .ok places
  | row :: rest =>
    if row.label = "" then .error (.emptyLabel .keyword index)
    else if places.contains row.label then .error (.duplicateLabel .keyword row.label)
    else notePlaces (places.insert row.label index) (index + 1) rest

/-- The table of the given rows, if they are valid. -/
def ofEntries (entries : List KeywordEntry) : Except TableError IndexedKeywords :=
  match notePlaces ∅ 0 entries with
  | .error fault => .error fault
  | .ok places => .ok ⟨entries, places⟩

/-- The row of a label, if there is one; no answer at all if the noted place is none of a row. -/
def get? (table : IndexedKeywords) (label : String) : Option (Option KeywordEntry) :=
  match table.places[label]? with
  | none => some none
  | some index => (table.entries[index]?).map some

/-- Whether every one of the labels has a place. -/
def covers (table : IndexedKeywords) : List String → Except TableError Unit
  | [] => .ok ()
  | label :: rest =>
    if table.places.contains label then table.covers rest else .error (.missingKeyword label)

/-- The map has the place of every row under its label, and nothing else. -/
def Places (rows : List KeywordEntry) (places : Std.HashMap String Nat) : Prop :=
  ∀ (label : String) (index : Nat), places[label]? = some index ↔
    ∃ row, rows[index]? = some row ∧ row.label = label

variable {rows : List KeywordEntry} {places : Std.HashMap String Nat}

theorem places_empty : Places [] ∅ := by
  intro label index
  simp

theorem Places.contains_iff (h : Places rows places) (label : String) :
    places.contains label = true ↔ label ∈ rows.map KeywordEntry.label := by
  rw [Std.HashMap.contains_eq_isSome_getElem?, Option.isSome_iff_exists, List.mem_map]
  constructor
  · rintro ⟨index, hindex⟩
    obtain ⟨row, hrow, hlabel⟩ := (h label index).mp hindex
    exact ⟨row, List.mem_of_getElem? hrow, hlabel⟩
  · rintro ⟨row, hmem, hlabel⟩
    obtain ⟨index, hindex⟩ := List.mem_iff_getElem?.mp hmem
    exact ⟨index, (h label index).mpr ⟨row, hindex, hlabel⟩⟩

/-- A row with a new label takes the next place. -/
theorem Places.insert (h : Places rows places) {row : KeywordEntry}
    (hnew : row.label ∉ rows.map KeywordEntry.label) :
    Places (rows ++ [row]) (places.insert row.label rows.length) := by
  intro label index
  rw [Std.HashMap.getElem?_insert]
  by_cases hlabel : row.label = label
  · subst hlabel
    rw [if_pos (beq_self_eq_true _), Option.some.injEq]
    constructor
    · rintro rfl
      exact ⟨row, by simp, rfl⟩
    · rintro ⟨other, hother, hsame⟩
      rcases Nat.lt_trichotomy index rows.length with hlt | heq | hgt
      · -- an earlier row would have the label already
        rw [List.getElem?_append_left hlt] at hother
        exact absurd (List.mem_map.mpr ⟨other, List.mem_of_getElem? hother, hsame⟩) hnew
      · exact heq.symm
      · rw [List.getElem?_eq_none (by simp only [List.length_append, List.length_singleton]; omega)]
          at hother
        cases hother
  · rw [if_neg (by simpa using hlabel), h label index]
    constructor
    · rintro ⟨other, hother, hsame⟩
      have hlt := (List.getElem?_eq_some_iff.mp hother).1
      exact ⟨other, by rw [List.getElem?_append_left hlt, hother], hsame⟩
    · rintro ⟨other, hother, hsame⟩
      refine ⟨other, ?_, hsame⟩
      rcases Nat.lt_or_ge index rows.length with hlt | hge
      · rwa [List.getElem?_append_left hlt] at hother
      · rw [List.getElem?_append_right hge] at hother
        obtain rfl := List.mem_singleton.mp (List.mem_of_getElem? hother)
        exact absurd hsame hlabel

/-- The loop and the check of the rows stop at the same fault; if there is none, the map has the place
of every row. -/
theorem notePlaces_cases {before : List KeywordEntry} {places : Std.HashMap String Nat}
    (h : Places before places) {seen : List String}
    (hseen : ∀ label, label ∈ seen ↔ label ∈ before.map KeywordEntry.label)
    (rows : List KeywordEntry) :
    (∃ fault, firstFault .keyword KeywordEntry.label KeywordEntry.label KeywordEntry.label seen
        before.length rows = some fault ∧ notePlaces places before.length rows = .error fault) ∨
    firstFault .keyword KeywordEntry.label KeywordEntry.label KeywordEntry.label seen
        before.length rows = none ∧
      ∃ filled, notePlaces places before.length rows = .ok filled ∧ Places (before ++ rows) filled := by
  induction rows generalizing before places seen with
  | nil => exact .inr ⟨rfl, places, rfl, by rwa [List.append_nil]⟩
  | cons row rest ih =>
      rw [firstFault, notePlaces]
      by_cases hlabel : row.label = ""
      · exact .inl ⟨_, if_pos hlabel, if_pos hlabel⟩
      · rw [if_neg hlabel, if_neg hlabel]
        by_cases hmem : row.label ∈ seen
        · have hcontains := (h.contains_iff row.label).mpr ((hseen _).mp hmem)
          exact .inl ⟨_, if_pos hmem, if_pos hcontains⟩
        · have hnew : row.label ∉ before.map KeywordEntry.label := fun hold =>
            hmem ((hseen _).mpr hold)
          have hcontains : ¬places.contains row.label = true := fun hold =>
            hnew ((h.contains_iff row.label).mp hold)
          have hseen' : ∀ label, label ∈ row.label :: seen ↔
              label ∈ (before ++ [row]).map KeywordEntry.label := by
            intro label
            rw [List.mem_cons, hseen label, List.map_append, List.mem_append, List.map_singleton,
              List.mem_singleton, or_comm]
          have hrest := ih (h.insert hnew) hseen'
          rw [List.length_append, List.length_singleton, List.append_assoc] at hrest
          rw [if_neg hmem, if_neg hcontains]
          exact hrest

theorem ofEntries_cases (rows : List KeywordEntry) :
    (∃ fault, KeywordTable.ofEntries rows = .error fault ∧ ofEntries rows = .error fault) ∨
    KeywordTable.ofEntries rows = .ok ⟨rows⟩ ∧
      ∃ places, ofEntries rows = .ok ⟨rows, places⟩ ∧ Places rows places := by
  have hseen : ∀ label, label ∈ ([] : List String) ↔
      label ∈ ([] : List KeywordEntry).map KeywordEntry.label := fun label => Iff.rfl
  unfold ofEntries KeywordTable.ofEntries
  rcases notePlaces_cases places_empty hseen rows with ⟨fault, hfault, hplaces⟩ | ⟨hnone, filled,
    hfilled, hall⟩
  · rw [List.length_nil] at hfault hplaces
    rw [hfault, hplaces]
    exact .inl ⟨fault, rfl, rfl⟩
  · rw [List.length_nil] at hnone hfilled
    rw [hnone, hfilled]
    exact .inr ⟨rfl, filled, rfl, hall⟩

theorem Places.lt_length (h : Places rows places) {label : String} {index : Nat}
    (hindex : places[label]? = some index) : index < rows.length := by
  obtain ⟨row, hrow, -⟩ := (h label index).mp hindex
  exact (List.getElem?_eq_some_iff.mp hrow).1

theorem Places.contains_iff_get? (h : Places rows places) (label : String) :
    places.contains label = true ↔ ∃ row, KeywordTable.get? ⟨rows⟩ label = some row := by
  rw [h.contains_iff, KeywordTable.exists_get?_iff, List.mem_map]

/-- The look-up through the index always has an answer, that of the search. -/
theorem Places.get?_eq (h : Places rows places) (hnodup : (rows.map KeywordEntry.label).Nodup)
    (label : String) : get? ⟨rows, places⟩ label = some (KeywordTable.get? ⟨rows⟩ label) := by
  unfold get?
  split
  · next hnone =>
      cases hfound : KeywordTable.get? ⟨rows⟩ label with
      | none => rfl
      | some row =>
          have hcontains := (h.contains_iff_get? label).mpr ⟨row, hfound⟩
          rw [Std.HashMap.contains_eq_isSome_getElem?, hnone] at hcontains
          cases hcontains
  · next index hindex =>
      obtain ⟨row, hrow, hlabel⟩ := (h label index).mp hindex
      have hfound : KeywordTable.get? ⟨rows⟩ label = some row :=
        (KeywordTable.get?_eq_some_iff hnodup).mpr ⟨List.mem_of_getElem? hrow, hlabel⟩
      rw [hrow, hfound, Option.map_some]

theorem Places.covers_eq (h : Places rows places) (labels : List String) :
    covers ⟨rows, places⟩ labels = KeywordTable.covers ⟨rows⟩ labels := by
  induction labels with
  | nil => rfl
  | cons label rest ih =>
      rw [covers, KeywordTable.covers]
      split
      · next hcontains =>
          obtain ⟨row, hrow⟩ := (h.contains_iff_get? label).mp hcontains
          rw [ih, List.find?_cons_of_neg (by simp [hrow]), KeywordTable.covers]
      · next hcontains =>
          have hmissing : KeywordTable.get? ⟨rows⟩ label = none := by
            rw [Option.eq_none_iff_forall_ne_some]
            intro row hrow
            exact hcontains ((h.contains_iff_get? label).mpr ⟨row, hrow⟩)
          rw [List.find?_cons_of_pos (by simp [hmissing])]

end IndexedKeywords

/-! ## Both tables -/

/-- For both tables and all rows: a table is made exactly of rows with labels and with different keys,
in their order, and otherwise the first row at fault is reported. In a keyword table a label leads to
the row that has it, a list of labels is covered exactly if each has a row, and otherwise the first
that has none is named. The index that is filled during the check leads to the same outcomes, always
through the place of a row. -/
theorem tables_hold_valid_rows (keywords : List KeywordEntry) (hovers : List HoverEntry) :
    (∀ table, KeywordTable.ofEntries keywords = .ok table ↔ table.entries = keywords ∧
      (∀ row ∈ keywords, row.label ≠ "") ∧ (keywords.map KeywordEntry.label).Nodup) ∧
    (∀ fault, KeywordTable.ofEntries keywords = .error fault ↔
      IsFirstFault .keyword KeywordEntry.label KeywordEntry.label KeywordEntry.label keywords fault) ∧
    (∀ table, HoverTable.ofEntries hovers = .ok table ↔ table.entries = hovers ∧
      (∀ row ∈ hovers, row.label ≠ "") ∧
      (hovers.map fun row => (row.label, row.category)).Nodup) ∧
    (∀ fault, HoverTable.ofEntries hovers = .error fault ↔
      IsFirstFault .hover HoverEntry.label (fun row => (row.label, row.category)) (fun row =>
        row.category.elim row.label fun category => row.label ++ " (" ++ category.name ++ ")")
        hovers fault) ∧
    (∀ fault, IndexedKeywords.ofEntries keywords = .error fault ↔
      KeywordTable.ofEntries keywords = .error fault) ∧
    ∀ table, KeywordTable.ofEntries keywords = .ok table →
      (∀ label row, table.get? label = some row ↔ row ∈ keywords ∧ row.label = label) ∧
      (∀ labels, table.covers labels = .ok () ↔
        ∀ label ∈ labels, ∃ row ∈ keywords, row.label = label) ∧
      (∀ labels fault, table.covers labels = .error fault ↔
        ∃ before label after, labels = before ++ label :: after ∧
          (∀ earlier ∈ before, ∃ row ∈ keywords, row.label = earlier) ∧
          (∀ row ∈ keywords, row.label ≠ label) ∧ fault = .missingKeyword label) ∧
      ∃ places, IndexedKeywords.ofEntries keywords = .ok ⟨keywords, places⟩ ∧
        (∀ (label : String) (index : Nat), places[label]? = some index → index < keywords.length) ∧
        (∀ label, IndexedKeywords.get? ⟨keywords, places⟩ label = some (table.get? label)) ∧
        ∀ labels, IndexedKeywords.covers ⟨keywords, places⟩ labels = table.covers labels := by
  refine ⟨?_, KeywordTable.ofEntries_eq_error_iff keywords, ?_, ?_, ?_, ?_⟩
  · rintro ⟨entries⟩
    rw [KeywordTable.ofEntries_eq_ok_iff, KeywordTable.mk.injEq]
  · rintro ⟨entries⟩
    rw [HoverTable.ofEntries_eq_ok_iff, HoverTable.mk.injEq]
    rfl
  · intro fault
    rw [HoverTable.ofEntries_eq_error_iff, funext HoverEntry.shown_eq]
    rfl
  · intro fault
    rcases IndexedKeywords.ofEntries_cases keywords with ⟨first, htable, hindexed⟩ | ⟨htable, places,
      hindexed, -⟩
    · rw [htable, hindexed]
      simp only [Except.error.injEq]
    · rw [htable, hindexed]
      simp only [reduceCtorEq]
  · intro table haccepted
    obtain ⟨rfl, -, hnodup⟩ := (KeywordTable.ofEntries_eq_ok_iff keywords table).mp haccepted
    refine ⟨fun label row => KeywordTable.get?_eq_some_iff hnodup, fun labels => ?_,
      KeywordTable.covers_eq_error_iff ⟨keywords⟩, ?_⟩
    · simp only [KeywordTable.covers_eq_ok_iff, KeywordTable.exists_get?_iff]
    · rcases IndexedKeywords.ofEntries_cases keywords with ⟨fault, hrejected, -⟩ | ⟨-, places,
        hindexed, hplaces⟩
      · rw [haccepted] at hrejected
        cases hrejected
      · exact ⟨places, hindexed, fun label index => hplaces.lt_length, hplaces.get?_eq hnodup,
          hplaces.covers_eq⟩

def stepRows : List KeywordEntry :=
  [⟨"Given", "a step", "what holds"⟩, ⟨"click", "an action", "a press"⟩]

/-- A word without a scope, scoped once, and scoped to the same category again; a row without a label
comes only later. -/
def rescopedRows : List HoverEntry :=
  [⟨"row", "any", none⟩, ⟨"row", "a record", some .data⟩, ⟨"row", "a line", some .data⟩,
    ⟨"", "nothing", none⟩]

theorem tables_hold_valid_rows_of_steps :
    KeywordTable.ofEntries stepRows = .ok ⟨stepRows⟩ ∧
    KeywordTable.get? ⟨stepRows⟩ "click" = some ⟨"click", "an action", "a press"⟩ ∧
    KeywordTable.covers ⟨stepRows⟩ ["click", "Then", "When"] = .error (.missingKeyword "Then") ∧
    (∃ places, IndexedKeywords.ofEntries stepRows = .ok ⟨stepRows, places⟩ ∧
      (∀ (label : String) (index : Nat), places[label]? = some index → index < stepRows.length) ∧
      IndexedKeywords.get? ⟨stepRows, places⟩ "click" =
        some (some ⟨"click", "an action", "a press"⟩)) ∧
    HoverTable.ofEntries rescopedRows = .error (.duplicateLabel .hover "row (data)") := by
  obtain ⟨hok, -, -, hrejected, -, hmade⟩ := tables_hold_valid_rows stepRows rescopedRows
  have haccepted : KeywordTable.ofEntries stepRows = .ok ⟨stepRows⟩ :=
    (hok ⟨stepRows⟩).mpr ⟨rfl, by simp [stepRows], by simp [stepRows]⟩
  obtain ⟨hget, -, hmissing, places, hindexed, hinside, hsame, -⟩ := hmade _ haccepted
  have hclick : KeywordTable.get? ⟨stepRows⟩ "click" = some ⟨"click", "an action", "a press"⟩ :=
    (hget _ _).mpr ⟨by simp [stepRows], rfl⟩
  refine ⟨haccepted, hclick, ?_, ⟨places, hindexed, hinside, by rw [hsame, hclick]⟩, ?_⟩
  · exact (hmissing _ _).mpr ⟨["click"], "Then", ["When"], rfl, by simp [stepRows],
      by simp [stepRows], rfl⟩
  · have hcut : rescopedRows =
        rescopedRows.take 2 ++ ⟨"row", "a line", some .data⟩ :: rescopedRows.drop 3 := rfl
    refine (hrejected _).mpr (.repeated hcut ?_ ?_ ?_)
    · exact ⟨by simp [rescopedRows], by simp [rescopedRows]⟩
    · simp
    · simp [rescopedRows]

end ScenarioServer
