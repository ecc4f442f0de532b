import Mathlib.Data.List.Nodup
import ScenarioServer.Engine

/-!
# The row that documents a word

A table is accepted exactly if no label is empty and the keys of its rows differ
(`firstFault_eq_none_iff`). So a look-up by key answers with the row that has the key, in whatever
order the rows stand.

For the hover table the answer is described without any search: `IsDocumentation` lists the cases, a
row scoped to the document's category, else one that is not scoped, else nothing. `IsNearest` says
in the same way what the category of a document is. `hoverText_selects_row` ties both to the text
that is shown, for every accepted table, document and position.
-/

namespace ScenarioServer

/-! ## Accepted rows -/

section Rows

variable {α κ : Type}

theorem firstFault_eq_none_iff [DecidableEq κ] (table : TableName) (label : α → String)
    (key : α → κ) (shown : α → String) (seen : List κ) (index : Nat) (rows : List α) :
    firstFault table label key shown seen index rows = none ↔
      (∀ row ∈ rows, label row ≠ "") ∧ (rows.map key).Nodup ∧ ∀ row ∈ rows, key row ∉ seen := by
  induction rows generalizing seen index with
  | nil => simp [firstFault]
  | cons row rest ih =>
      rw [firstFault]
      split
      · next hempty => simp [hempty]
      · next hlabel =>
          split
          · next hseen => simp [hseen]
          · next hnew =>
              rw [ih, List.forall_mem_cons, List.forall_mem_cons, List.map_cons, List.nodup_cons]
              constructor
              · rintro ⟨hlabels, hnodup, hkeys⟩
                refine ⟨⟨hlabel, hlabels⟩, ⟨?_, hnodup⟩, hnew, fun other hother hmem => ?_⟩
                · intro hmem
                  obtain ⟨other, hother, heq⟩ := List.mem_map.mp hmem
                  exact hkeys other hother (heq ▸ List.mem_cons_self)
                · exact hkeys other hother (List.mem_cons_of_mem _ hmem)
              · rintro ⟨⟨-, hlabels⟩, ⟨hfirst, hnodup⟩, -, hkeys⟩
                refine ⟨hlabels, hnodup, fun other hother hmem => ?_⟩
                rcases List.mem_cons.mp hmem with heq | hmem
                · exact hfirst (heq ▸ List.mem_map_of_mem hother)
                · exact hkeys other hother hmem

/-- A table is made of rows without a fault, and of no others. -/
theorem accepted_iff {τ : Type} [DecidableEq κ] (name : TableName) (label : α → String)
    (key : α → κ) (shown : α → String) (rows : List α) (made table : τ) :
    (match firstFault name label key shown [] 0 rows with
      | some fault => Except.error fault
      | none => .ok made) = .ok table ↔
      table = made ∧ (∀ row ∈ rows, label row ≠ "") ∧ (rows.map key).Nodup := by
  have hfault := firstFault_eq_none_iff name label key shown [] 0 rows
  split
  · next fault heq =>
      constructor
      · intro h
        cases h
      · rintro ⟨-, hlabels, hnodup⟩
        rw [hfault.mpr ⟨hlabels, hnodup, fun _ _ => List.not_mem_nil⟩] at heq
        cases heq
  · next heq =>
      obtain ⟨hlabels, hnodup, -⟩ := hfault.mp heq
      constructor
      · intro h
        exact ⟨(Except.ok.inj h).symm, hlabels, hnodup⟩
      · rintro ⟨rfl, -⟩
        rfl

/-- Among rows with distinct keys, the search for a key finds the row that has it. -/
theorem find?_eq_some_iff_of_nodup {key : α → κ} {rows : List α} (hnodup : (rows.map key).Nodup)
    {sought : α → Bool} {k : κ} (hsought : ∀ row, sought row = true ↔ key row = k) {row : α} :
    rows.find? sought = some row ↔ row ∈ rows ∧ key row = k := by
  constructor
  · intro h
    exact ⟨List.mem_of_find?_eq_some h, (hsought row).mp (List.find?_some h)⟩
  · rintro ⟨hmem, hkey⟩
    have hsome : (rows.find? sought).isSome := by
      rw [List.find?_isSome]
      exact ⟨row, hmem, (hsought row).mpr hkey⟩
    obtain ⟨found, hfound⟩ := Option.isSome_iff_exists.mp hsome
    have hsame : key found = key row := by
      rw [hkey]
      exact (hsought found).mp (List.find?_some hfound)
    rw [hfound, List.inj_on_of_nodup_map hnodup (List.mem_of_find?_eq_some hfound) hmem hsame]

/-- Rows with distinct keys hold at most one row of each key. -/
theorem length_filter_le_one {key : α → κ} {rows : List α} (hnodup : (rows.map key).Nodup)
    {sought : α → Bool} {k : κ} (hsought : ∀ row, sought row = true ↔ key row = k) :
    (rows.filter sought).length ≤ 1 := by
  have hkeys : ∀ row ∈ rows.filter sought, key row = k := fun row hrow =>
    (hsought row).mp (List.of_mem_filter hrow)
  have hdistinct : ((rows.filter sought).map key).Nodup :=
    hnodup.sublist (List.filter_sublist.map key)
  match hfilter : rows.filter sought with
  | [] => simp
  | [_] => simp
  | first :: second :: rest =>
      rw [hfilter] at hkeys hdistinct
      have hfirst := hkeys first List.mem_cons_self
      have hsecond := hkeys second (List.mem_cons_of_mem _ List.mem_cons_self)
      rw [List.map_cons, List.map_cons, hfirst, hsecond] at hdistinct
      exact absurd List.mem_cons_self (List.nodup_cons.mp hdistinct).1

/-- Among rows with distinct keys, a row is the only one of its key. -/
theorem filter_eq_singleton {key : α → κ} {rows : List α} (hnodup : (rows.map key).Nodup)
    {sought : α → Bool} {k : κ} (hsought : ∀ row, sought row = true ↔ key row = k) {row : α}
    (hmem : row ∈ rows) (hkey : key row = k) : rows.filter sought = [row] := by
  have hle := length_filter_le_one hnodup hsought
  have hrow : row ∈ rows.filter sought := List.mem_filter.mpr ⟨hmem, (hsought row).mpr hkey⟩
  match hfilter : rows.filter sought with
  | [] =>
      rw [hfilter] at hrow
      cases hrow
  | [other] =>
      rw [hfilter] at hrow
      rw [List.mem_singleton.mp hrow]
  | _ :: _ :: _ =>
      rw [hfilter] at hle
      simp at hle

end Rows

/-! ## The hover table -/

/-- What documents a word in a document of the given category: the row scoped to the category, else
the row without a scope, else nothing. -/
inductive IsDocumentation (entries : List HoverEntry) (word : String) (category : Option Category) :
    String → Prop where
  | own {entry : HoverEntry} (hentry : entry ∈ entries) (hlabel : entry.label = word)
      (hscope : entry.category = category) (hcategory : category ≠ none) :
      IsDocumentation entries word category entry.documentation
  | general {entry : HoverEntry} (hentry : entry ∈ entries) (hlabel : entry.label = word)
      (hscope : entry.category = none)
      (hnone : ∀ other ∈ entries, other.label = word → other.category = none ∨
        other.category ≠ category) :
      IsDocumentation entries word category entry.documentation
  | missing (hnone : ∀ entry ∈ entries, entry.label = word → entry.category ≠ none ∧
        entry.category ≠ category) :
      IsDocumentation entries word category ""

namespace HoverTable

theorem ofEntries_eq_ok_iff (entries : List HoverEntry) (table : HoverTable) :
    ofEntries entries = .ok table ↔
      table = ⟨entries⟩ ∧ (∀ entry ∈ entries, entry.label ≠ "") ∧
        (entries.map HoverEntry.key).Nodup :=
  accepted_iff .hover HoverEntry.label HoverEntry.key HoverEntry.shown entries (mk entries) table

theorem sought_iff (word : String) (scope : Option Category) (entry : HoverEntry) :
    (decide (entry.label = word) && decide (entry.category = scope)) = true ↔
      entry.key = (word, scope) := by
  simp [HoverEntry.key]

theorem row?_eq_some_iff {table : HoverTable}
    (hnodup : (table.entries.map HoverEntry.key).Nodup) {word : String} {scope : Option Category}
    {entry : HoverEntry} :
    table.row? word scope = some entry ↔
      entry ∈ table.entries ∧ entry.label = word ∧ entry.category = scope := by
  rw [row?, find?_eq_some_iff_of_nodup hnodup (sought_iff word scope), HoverEntry.key,
    Prod.mk.injEq]

theorem row?_eq_none_iff {table : HoverTable} {word : String} {scope : Option Category} :
    table.row? word scope = none ↔
      ∀ entry ∈ table.entries, entry.label = word → entry.category ≠ scope := by
  simp [row?]

theorem lookup_none (table : HoverTable) (word : String) :
    table.lookup word none = table.row? word none := rfl

theorem lookup_some (table : HoverTable) (word : String) (category : Category) :
    table.lookup word (some category) =
      (table.row? word (some category)).or (table.row? word none) := rfl

/-- What a look-up takes from a table: the rows of the word that are scoped to the category or not
at all. -/
theorem lookup_congr {table other : HoverTable} {word : String} {category : Option Category}
    (h : ∀ scope, scope = none ∨ scope = category → table.row? word scope = other.row? word scope) :
    table.lookup word category = other.lookup word category := by
  have hunscoped := h none (.inl rfl)
  cases category with
  | none => rw [lookup_none, lookup_none, hunscoped]
  | some category => rw [lookup_some, lookup_some, hunscoped, h _ (.inr rfl)]

theorem lookup_of_documentation {table : HoverTable}
    (hnodup : (table.entries.map HoverEntry.key).Nodup) {word : String}
    {category : Option Category} {answer : String}
    (h : IsDocumentation table.entries word category answer) :
    (table.lookup word category).elim "" HoverEntry.documentation = answer := by
  cases h with
  | own hentry hlabel hscope hcategory =>
      obtain ⟨category, rfl⟩ := Option.ne_none_iff_exists'.mp hcategory
      have hrow := (row?_eq_some_iff hnodup).mpr ⟨hentry, hlabel, hscope⟩
      rw [lookup_some, hrow, Option.some_or, Option.elim_some]
  | general hentry hlabel hscope hnone =>
      have hrow := (row?_eq_some_iff hnodup).mpr ⟨hentry, hlabel, hscope⟩
      cases category with
      | none => rw [lookup_none, hrow, Option.elim_some]
      | some category =>
          have hscoped : table.row? word (some category) = none := by
            rw [row?_eq_none_iff]
            intro other hother hword
            rcases hnone other hother hword with hfree | hforeign
            · rw [hfree]
              exact (Option.some_ne_none category).symm
            · exact hforeign
          rw [lookup_some, hscoped, hrow, Option.none_or, Option.elim_some]
  | missing hnone =>
      have hunscoped : table.row? word none = none :=
        row?_eq_none_iff.mpr fun entry hentry hlabel => (hnone entry hentry hlabel).1
      have hscoped : table.row? word category = none :=
        row?_eq_none_iff.mpr fun entry hentry hlabel => (hnone entry hentry hlabel).2
      cases category with
      | none => rw [lookup_none, hunscoped, Option.elim_none]
      | some category => rw [lookup_some, hscoped, hunscoped, Option.none_or, Option.elim_none]

theorem documentation_of_lookup {table : HoverTable}
    (hnodup : (table.entries.map HoverEntry.key).Nodup) (word : String)
    (category : Option Category) :
    IsDocumentation table.entries word category
      ((table.lookup word category).elim "" HoverEntry.documentation) := by
  by_cases hscoped : ∃ entry ∈ table.entries, entry.label = word ∧ entry.category = category ∧
      category ≠ none
  · obtain ⟨entry, hentry, hlabel, hscope, hcategory⟩ := hscoped
    have hanswer := IsDocumentation.own hentry hlabel hscope hcategory
    rwa [lookup_of_documentation hnodup hanswer]
  · have hforeign : ∀ other ∈ table.entries, other.label = word →
        other.category = none ∨ other.category ≠ category := by
      intro other hother hlabel
      by_cases hfree : other.category = none
      · exact .inl hfree
      · refine .inr fun hscope => hscoped ⟨other, hother, hlabel, hscope, ?_⟩
        rwa [← hscope]
    by_cases hunscoped : ∃ entry ∈ table.entries, entry.label = word ∧ entry.category = none
    · obtain ⟨entry, hentry, hlabel, hscope⟩ := hunscoped
      have hanswer := IsDocumentation.general hentry hlabel hscope hforeign
      rwa [lookup_of_documentation hnodup hanswer]
    · have hanswer : IsDocumentation table.entries word category "" := by
        refine .missing fun entry hentry hlabel => ?_
        have hscope : entry.category ≠ none := fun hfree => hunscoped ⟨entry, hentry, hlabel, hfree⟩
        exact ⟨hscope, (hforeign entry hentry hlabel).resolve_left hscope⟩
      rwa [lookup_of_documentation hnodup hanswer]

/-- Rows in another order answer alike. -/
theorem row?_perm {table other : HoverTable} (hperm : table.entries.Perm other.entries)
    (hnodup : (table.entries.map HoverEntry.key).Nodup) (word : String) (scope : Option Category) :
    table.row? word scope = other.row? word scope := by
  have hnodup' := (hperm.map HoverEntry.key).nodup_iff.mp hnodup
  apply Option.ext
  intro entry
  rw [row?_eq_some_iff hnodup, row?_eq_some_iff hnodup', hperm.mem_iff]

/-- Rows scoped to another category can be left out. -/
theorem row?_filter (entries : List HoverEntry) (word : String) {category scope : Option Category}
    (hscope : scope = none ∨ scope = category) :
    row? ⟨entries.filter fun entry => entry.category = none ∨ entry.category = category⟩ word
      scope = row? ⟨entries⟩ word scope := by
  rw [row?, row?, List.find?_filter]
  congr 1
  funext entry
  by_cases hentry : entry.category = scope
  · simp [hentry, hscope]
  · simp [hentry]

/-! ## The table in one pass -/

/-- One pass over the rows of a word: a row scoped to the category ends it, and the first row
without a scope is kept until then. -/
def scan (word : String) (category : Option Category) (kept : Option HoverEntry) :
    List HoverEntry → Option HoverEntry
  | [] => kept
  | entry :: rest =>
    if entry.label = word then
      match entry.category with
      | none => scan word category (if kept.isNone then some entry else kept) rest
      | some scope =>
        if some scope = category then some entry else scan word category kept rest
    else scan word category kept rest

theorem row?_cons (entry : HoverEntry) (rest : List HoverEntry) (word : String)
    (scope : Option Category) :
    row? ⟨entry :: rest⟩ word scope =
      if entry.label = word ∧ entry.category = scope then some entry
      else row? ⟨rest⟩ word scope := by
  rw [row?, row?, List.find?_cons]
  by_cases h : entry.label = word ∧ entry.category = scope
  · simp [h]
  · rw [if_neg h]
    split
    · next heq => simp [h] at heq
    · rfl

theorem scan_eq (word : String) (category : Option Category) (kept : Option HoverEntry)
    (entries : List HoverEntry) :
    scan word category kept entries =
      (category.bind fun _ => row? ⟨entries⟩ word category).or
        (kept.or (row? ⟨entries⟩ word none)) := by
  induction entries generalizing kept with
  | nil => cases category <;> simp [scan, row?]
  | cons entry rest ih =>
      rw [scan, row?_cons, row?_cons]
      by_cases hlabel : entry.label = word
      · cases hentry : entry.category with
        | none =>
            cases category <;> cases kept <;> simp [hlabel, ih]
        | some scope =>
            by_cases hscope : some scope = category
            · subst hscope
              simp [hlabel]
            · cases category <;> simp_all
      · simp [hlabel, ih]

/-- The pass finds the row of the look-up. -/
theorem scan_none (table : HoverTable) (word : String) (category : Option Category) :
    scan word category none table.entries = table.lookup word category := by
  rw [scan_eq, Option.none_or]
  cases category with
  | none => rfl
  | some category => rfl

end HoverTable

/-! ## The category of a document -/

/-- The category of the last directory on the document's path that has a known name; the last
segment names no directory. -/
def IsNearest (uri : Uri) : Option Category → Prop
  | some category => ∃ outer inner file,
      uri.segments? = some (outer ++ category.name :: inner ++ [file]) ∧
      ∀ name ∈ inner, ∀ other : Category, name ≠ other.name
  | none => ∀ directories file, uri.segments? = some (directories ++ [file]) →
      ∀ name ∈ directories, ∀ other : Category, name ≠ other.name

namespace Category

theorem ofName?_eq_some_iff (name : String) (category : Category) :
    ofName? name = some category ↔ name = category.name := by
  constructor
  · intro h
    unfold ofName? at h
    split at h <;> cases h <;> rfl
  · rintro rfl
    exact ofName?_name category

theorem ofName?_eq_none_iff (name : String) :
    ofName? name = none ↔ ∀ category : Category, name ≠ category.name := by
  rw [Option.eq_none_iff_forall_ne_some]
  exact forall_congr' fun category => not_congr (ofName?_eq_some_iff name category)

theorem ofDirectories?_eq_some_iff (directories : List String) (category : Category) :
    ofDirectories? directories = some category ↔
      ∃ outer inner, directories = outer ++ category.name :: inner ∧
        ∀ name ∈ inner, ∀ other : Category, name ≠ other.name := by
  rw [ofDirectories?, List.findSome?_eq_some_iff]
  constructor
  · rintro ⟨inner, name, outer, hsplit, hname, hinner⟩
    obtain rfl := (ofName?_eq_some_iff name category).mp hname
    refine ⟨outer.reverse, inner.reverse, ?_, fun other hother => ?_⟩
    · rw [List.reverse_eq_iff.mp hsplit]
      simp
    · exact (ofName?_eq_none_iff other).mp (hinner other (List.mem_reverse.mp hother))
  · rintro ⟨outer, inner, rfl, hinner⟩
    refine ⟨inner.reverse, category.name, outer.reverse, by simp, ofName?_name category, ?_⟩
    intro other hother
    exact (ofName?_eq_none_iff other).mpr (hinner other (List.mem_reverse.mp hother))

theorem ofDirectories?_eq_none_iff (directories : List String) :
    ofDirectories? directories = none ↔
      ∀ name ∈ directories, ∀ other : Category, name ≠ other.name := by
  rw [ofDirectories?, List.findSome?_eq_none_iff]
  constructor
  · intro h name hname
    exact (ofName?_eq_none_iff name).mp (h name (List.mem_reverse.mpr hname))
  · intro h name hname
    exact (ofName?_eq_none_iff name).mpr (h name (List.mem_reverse.mp hname))

theorem isNearest_iff (uri : Uri) (category : Option Category) :
    IsNearest uri category ↔ classify uri = category := by
  rw [classify]
  cases hsegments : uri.segments? with
  | none => cases category <;> simp [IsNearest, hsegments]
  | some segments =>
      rw [Option.bind_some]
      rcases List.eq_nil_or_concat segments with rfl | ⟨directories, file, rfl⟩
      · cases category <;> simp [IsNearest, hsegments, ofDirectories?]
      · rw [List.concat_eq_append] at hsegments ⊢
        rw [List.dropLast_concat]
        cases category with
        | none =>
            rw [ofDirectories?_eq_none_iff, IsNearest, hsegments]
            constructor
            · intro h
              exact h directories file rfl
            · intro h directories' file' heq
              obtain ⟨rfl, -⟩ := List.append_inj' (Option.some.inj heq) rfl
              exact h
        | some category =>
            rw [ofDirectories?_eq_some_iff, IsNearest, hsegments]
            constructor
            · rintro ⟨outer, inner, file', heq, hinner⟩
              exact ⟨outer, inner, (List.append_inj' (Option.some.inj heq) rfl).1, hinner⟩
            · rintro ⟨outer, inner, rfl, hinner⟩
              exact ⟨outer, inner, file, rfl, hinner⟩

end Category

/-! ## The text shown at a position -/

namespace Engine

theorem hoverText_of_none {text : String} {p : Position} (engine : Engine) (uri : Uri)
    (h : Text.wordAt text.toList p = none) : engine.hoverText uri text p = "" := by
  rw [hoverText, h]

theorem hoverText_of_some {text : String} {p : Position} {word : Word} (engine : Engine) (uri : Uri)
    (h : Text.wordAt text.toList p = some word) :
    engine.hoverText uri text p =
      (engine.hover.lookup word.text (Category.classify uri)).elim "" HoverEntry.documentation := by
  simp only [hoverText, h]
  cases engine.hover.lookup word.text (Category.classify uri) with
  | none => rfl
  | some entry => rfl

/-- Two tables whose look-ups agree show the same texts. -/
theorem hoverText_congr {table other : HoverTable} (keywords : KeywordTable) {uri : Uri}
    (h : ∀ word, table.lookup word (Category.classify uri) =
      other.lookup word (Category.classify uri)) (text : String) (p : Position) :
    hoverText ⟨keywords, table⟩ uri text p = hoverText ⟨keywords, other⟩ uri text p := by
  cases hword : Text.wordAt text.toList p with
  | none => rw [hoverText_of_none _ uri hword, hoverText_of_none _ uri hword]
  | some word => rw [hoverText_of_some _ uri hword, hoverText_of_some _ uri hword, h]

end Engine

/-- In an accepted table each word has at most one row of each scope. At a word, the text shown is
the one of the row scoped to the document's category, else of the row without a scope, else empty;
rows of other categories do not count, and neither does the order of the rows. The one-pass search
finds the same rows. -/
theorem hoverText_selects_row {entries : List HoverEntry} {table : HoverTable}
    (h : HoverTable.ofEntries entries = .ok table) :
    (∀ word scope, (entries.filter fun entry =>
      entry.label = word && entry.category = scope).length ≤ 1) ∧
    (∀ word category, HoverTable.scan word category none entries = table.lookup word category) ∧
    (∀ keywords uri text p,
      (Text.wordAt text.toList p = none → Engine.hoverText ⟨keywords, table⟩ uri text p = "") ∧
      ∃ category, (∀ c, IsNearest uri c ↔ c = category) ∧
        ∀ word, Text.wordAt text.toList p = some word →
          (∀ answer, Engine.hoverText ⟨keywords, table⟩ uri text p = answer ↔
            IsDocumentation entries word.text category answer) ∧
          Engine.hoverText ⟨keywords, ⟨entries.filter fun entry =>
            entry.category = none ∨ entry.category = category⟩⟩ uri text p =
              Engine.hoverText ⟨keywords, table⟩ uri text p) ∧
    ∀ entries', entries.Perm entries' → ∃ table', HoverTable.ofEntries entries' = .ok table' ∧
      ∀ keywords uri text p, Engine.hoverText ⟨keywords, table'⟩ uri text p =
        Engine.hoverText ⟨keywords, table⟩ uri text p := by
  obtain ⟨rfl, hlabels, hnodup⟩ := (HoverTable.ofEntries_eq_ok_iff entries table).mp h
  refine ⟨fun word scope => length_filter_le_one hnodup (HoverTable.sought_iff word scope),
    HoverTable.scan_none ⟨entries⟩, fun keywords uri text p => ⟨?_, ?_⟩, ?_⟩
  · exact Engine.hoverText_of_none _ uri
  · refine ⟨Category.classify uri, fun c => (Category.isNearest_iff uri c).trans eq_comm, ?_⟩
    intro word hword
    constructor
    · intro answer
      rw [Engine.hoverText_of_some _ uri hword]
      constructor
      · rintro rfl
        exact HoverTable.documentation_of_lookup hnodup _ _
      · exact HoverTable.lookup_of_documentation hnodup
    · apply Engine.hoverText_congr
      intro word
      exact HoverTable.lookup_congr fun scope hscope => HoverTable.row?_filter entries word hscope
  · intro entries' hperm
    have hlabels' : ∀ entry ∈ entries', entry.label ≠ "" := fun entry hentry =>
      hlabels entry (hperm.mem_iff.mpr hentry)
    have hnodup' := (hperm.map HoverEntry.key).nodup_iff.mp hnodup
    have haccepted := (HoverTable.ofEntries_eq_ok_iff entries' _).mpr ⟨rfl, hlabels', hnodup'⟩
    refine ⟨⟨entries'⟩, haccepted, fun keywords uri text p => ?_⟩
    apply Engine.hoverText_congr
    intro word
    exact HoverTable.lookup_congr fun scope _ => (HoverTable.row?_perm hperm hnodup word scope).symm

/-- A word with a row of its own in two categories and one for all others. -/
def buttonRows : List HoverEntry :=
  [⟨"button", "any element", none⟩, ⟨"button", "a record", some .data⟩,
    ⟨"button", "a locator", some .elements⟩]

def buttonUri : Uri :=
  { scheme := "file", authority := some {}, path := "/w/data/elements/pages/login.tacl" }

/-- Below `data/elements/pages` the nearest known directory decides, in both orders of the rows. -/
theorem hoverText_selects_button :
    HoverTable.ofEntries buttonRows = .ok ⟨buttonRows⟩ ∧
    Text.wordAt "Then login.button".toList ⟨0, 17⟩ = some ⟨"button", ⟨0, 11⟩, ⟨0, 17⟩⟩ ∧
    Engine.hoverText ⟨⟨[]⟩, ⟨buttonRows⟩⟩ buttonUri "Then login.button" ⟨0, 17⟩ = "a locator" ∧
    buttonRows.Perm buttonRows.reverse ∧
    ∃ table, HoverTable.ofEntries buttonRows.reverse = .ok table ∧
      Engine.hoverText ⟨⟨[]⟩, table⟩ buttonUri "Then login.button" ⟨0, 17⟩ = "a locator" := by
  have haccepted : HoverTable.ofEntries buttonRows = .ok ⟨buttonRows⟩ := by decide
  have hword : Text.wordAt "Then login.button".toList ⟨0, 17⟩ =
      some ⟨"button", ⟨0, 11⟩, ⟨0, 17⟩⟩ := by decide +kernel
  have hperm : buttonRows.Perm buttonRows.reverse := (List.reverse_perm buttonRows).symm
  obtain ⟨-, -, hshown, hreordered⟩ := hoverText_selects_row haccepted
  obtain ⟨-, category, hnearest, hanswer⟩ := hshown ⟨[]⟩ buttonUri "Then login.button" ⟨0, 17⟩
  have hunknown : ∀ name ∈ ["pages"], ∀ other : Category, name ≠ other.name := by
    intro name hname other
    obtain rfl := List.mem_singleton.mp hname
    cases other <;> decide
  have hcategory : some Category.elements = category :=
    (hnearest _).mp ⟨["w", "data"], ["pages"], "login.tacl", by decide +kernel, hunknown⟩
  subst hcategory
  have hrow : (⟨"button", "a locator", some .elements⟩ : HoverEntry) ∈ buttonRows := by
    simp [buttonRows]
  have hlocator := ((hanswer _ hword).1 "a locator").mpr (.own hrow rfl rfl (by simp))
  obtain ⟨table, htable, hsame⟩ := hreordered _ hperm
  exact ⟨haccepted, hword, hlocator, hperm, table, htable, by rw [hsame, hlocator]⟩

end ScenarioServer
