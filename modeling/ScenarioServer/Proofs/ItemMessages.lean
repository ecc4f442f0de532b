import ScenarioServer.Proofs.JsonText
import ScenarioServer.Wire.Message

/-!
# Completion items as messages

A client sends a completion item, and the server sends one back. Nothing of an item is lost on the
way: an item that can be sent (`CompletionItem.Sendable`) is read back from its JSON form in all its
fields (`completionItem?_completionItem`), and every item that was read can be sent
(`sendable_of_completionItem?`).

Two things keep an item from being sent. The places of its edits have to be 32-bit numbers, and its
data may not be null, since a null member means an absent one.
-/

namespace ScenarioServer

open Json (Value)

/-! ## What can be sent -/

def Position.Fits (p : Position) : Prop := p.line < UInt32.size ∧ p.character < UInt32.size

def Range.Fits (r : Range) : Prop := r.start.Fits ∧ r.stop.Fits

def CompletionEdit.Fits : CompletionEdit → Prop
  | .plain edit => edit.range.Fits
  | .insertReplace _ insert replace => insert.Fits ∧ replace.Fits

/-- What an item needs to have a JSON form of its own. -/
structure CompletionItem.Sendable (item : CompletionItem) : Prop where
  textEdit : ∀ edit, item.textEdit = some edit → edit.Fits
  additionalTextEdits : ∀ edits, item.additionalTextEdits = some edits →
    ∀ edit ∈ edits, edit.range.Fits
  data : item.data ≠ some .null

namespace Wire

/-! ## Members of an object -/

theorem lookup_present_of_notMem {members : List (String × Option Value)} {name : String}
    (h : name ∉ members.map Prod.fst) : (present members).lookup name = none := by
  rw [List.lookup_eq_none_iff]
  intro p hp
  obtain ⟨member, hmember, heq⟩ := List.mem_filterMap.mp hp
  obtain ⟨value, -, rfl⟩ := Option.map_eq_some_iff.mp heq
  rw [bne_iff_ne]
  rintro rfl
  exact h (List.mem_map_of_mem hmember)

/-- An object has the members that it was written with, and lacks the absent ones. -/
theorem get?_present {members : List (String × Option Value)}
    (hnodup : (members.map Prod.fst).Nodup) :
    ∀ member ∈ members, (Value.object (present members)).get? member.1 = member.2 := by
  induction members with
  | nil => simp
  | cons first rest ih =>
      obtain ⟨name, value⟩ := first
      obtain ⟨hnew, hrest⟩ := List.nodup_cons.mp hnodup
      intro member hmember
      rcases List.mem_cons.mp hmember with rfl | hin
      · cases value with
        | none =>
            show (present rest).lookup name = none
            exact lookup_present_of_notMem hnew
        | some value => exact List.lookup_cons_self
      · have hname : member.1 ∈ rest.map Prod.fst := List.mem_map_of_mem hin
        have hne : member.1 ≠ name := fun heq => hnew (heq ▸ hname)
        cases value with
        | none => exact ih hrest member hin
        | some value =>
            show ((name, value) :: present rest).lookup member.1 = member.2
            rw [List.lookup_cons, beq_eq_false_iff_ne.mpr hne]
            exact ih hrest member hin

section Reading

variable {α : Type} {read : Value → Option α} {write : α → Value}

theorem optional_of_ne_null {value : Value} (h : value ≠ .null) :
    optional read (some value) = (read value).map some := by
  cases value with
  | null => exact absurd rfl h
  | bool | number | string | array | object => rfl

/-- A member that is read back from its written form may be absent as well. -/
theorem optional_map {found : Option α} (hread : ∀ a, found = some a → read (write a) = some a)
    (hnull : ∀ a, write a ≠ .null) : optional read (found.map write) = some found := by
  cases found with
  | none => rfl
  | some a => rw [Option.map_some, optional_of_ne_null (hnull a), hread a rfl, Option.map_some]

theorem exists_of_optional {member : Option Value} {a : α}
    (h : optional read member = some (some a)) : ∃ value, value ≠ .null ∧ read value = some a := by
  cases member with
  | none => cases h
  | some value =>
      by_cases hnull : value = .null
      · subst hnull
        cases h
      · rw [optional_of_ne_null hnull] at h
        exact ⟨value, hnull, by simpa using h⟩

theorem list?_list {items : List α} (h : ∀ item ∈ items, read (write item) = some item) :
    list? read (list write items) = some items :=
  mapM_map_eq_some h

theorem forall_of_list? {property : α → Prop} (h : ∀ value a, read value = some a → property a)
    {value : Value} {items : List α} (hread : list? read value = some items) :
    ∀ item ∈ items, property item := by
  obtain ⟨values, -, hvalues⟩ := Option.bind_eq_some_iff.mp hread
  clear hread
  induction values generalizing items with
  | nil =>
      cases hvalues
      simp
  | cons value values ih =>
      rw [List.mapM_cons] at hvalues
      obtain ⟨a, ha, hvalues⟩ := Option.bind_eq_some_iff.mp hvalues
      obtain ⟨rest, hrest, hitems⟩ := Option.bind_eq_some_iff.mp hvalues
      cases hitems
      exact List.forall_mem_cons.mpr ⟨h value a ha, ih hrest⟩

theorem optional_list {found : Option (List α)}
    (h : ∀ items, found = some items → ∀ a ∈ items, read (write a) = some a) :
    optional (list? read) (found.map (list write)) = some found :=
  optional_map (fun items hitems => list?_list (h items hitems)) nofun

end Reading

/-! ## Edits -/

theorem place?_position {p : Position} (h : p.Fits) : place? (position p) = some p := by
  refine Option.filter_eq_some_iff.mpr ⟨rfl, ?_⟩
  rw [Bool.and_eq_true, decide_eq_true_iff, decide_eq_true_iff]
  exact h

theorem fits_of_place? {value : Value} {p : Position} (h : place? value = some p) : p.Fits := by
  have hfits := (Option.filter_eq_some_iff.mp h).2
  rw [Bool.and_eq_true, decide_eq_true_iff, decide_eq_true_iff] at hfits
  exact hfits

theorem placeRange?_range {r : Range} (h : r.Fits) : placeRange? (range r) = some r := by
  show (place? (position r.start)).bind (fun start =>
    (place? (position r.stop)).bind fun stop => some ⟨start, stop⟩) = some r
  rw [place?_position h.1, Option.bind_some, place?_position h.2, Option.bind_some]

theorem fits_of_placeRange? {value : Value} {r : Range} (h : placeRange? value = some r) :
    r.Fits := by
  simp only [placeRange?, Option.bind_eq_bind, Option.bind_eq_some_iff, Option.pure_def,
    Option.some.injEq] at h
  obtain ⟨_, _, start, hstart, _, _, stop, hstop, rfl⟩ := h
  exact ⟨fits_of_place? hstart, fits_of_place? hstop⟩

theorem textEdit?_textEdit {edit : TextEdit} (h : edit.range.Fits) :
    textEdit? (textEdit edit) = some edit := by
  show (placeRange? (range edit.range)).bind (fun range => some ⟨range, edit.newText⟩) = some edit
  rw [placeRange?_range h, Option.bind_some]

theorem fits_of_textEdit? {value : Value} {edit : TextEdit} (h : textEdit? value = some edit) :
    edit.range.Fits := by
  simp only [textEdit?, Option.bind_eq_bind, Option.bind_eq_some_iff, Option.pure_def,
    Option.some.injEq] at h
  obtain ⟨_, _, range, hrange, _, _, newText, _, rfl⟩ := h
  exact fits_of_placeRange? hrange

theorem completionEdit?_completionEdit {edit : CompletionEdit} (h : edit.Fits) :
    completionEdit? (completionEdit edit) = some edit := by
  cases edit with
  | plain edit =>
      have hedit : textEdit? (textEdit edit) = some edit := textEdit?_textEdit h
      rw [completionEdit, completionEdit?, hedit]
      rfl
  | insertReplace newText insert replace =>
      -- without a member for its one range, such an edit is not taken for one of the other kind
      show (placeRange? (range insert)).bind (fun insert =>
        (placeRange? (range replace)).bind fun replace =>
          some (CompletionEdit.insertReplace newText insert replace)) = some _
      rw [placeRange?_range h.1, Option.bind_some, placeRange?_range h.2, Option.bind_some]

theorem fits_of_completionEdit? {value : Value} {edit : CompletionEdit}
    (h : completionEdit? value = some edit) : edit.Fits := by
  rcases Option.or_eq_some_iff.mp h with hone | ⟨-, htwo⟩
  · obtain ⟨edit, hedit, rfl⟩ := Option.map_eq_some_iff.mp hone
    exact fits_of_textEdit? hedit
  · simp only [insertReplace?, Option.bind_eq_bind, Option.bind_eq_some_iff, Option.pure_def,
      Option.some.injEq] at htwo
    obtain ⟨_, _, newText, _, _, _, insert, hinsert, _, _, replace, hreplace, rfl⟩ := htwo
    exact ⟨fits_of_placeRange? hinsert, fits_of_placeRange? hreplace⟩

theorem completionEdit_ne_null (edit : CompletionEdit) : completionEdit edit ≠ .null := by
  cases edit <;> exact nofun

/-! ## Members without a condition -/

theorem optional_text (found : Option String) :
    optional Value.text? (found.map .string) = some found := by
  cases found <;> rfl

theorem optional_bool (found : Option Bool) :
    optional Value.bool? (found.map .bool) = some found := by
  cases found <;> rfl

theorem integer?_ofInt (n : Int) : (Value.ofInt n).integer? = some n := by
  cases n <;> rfl

theorem code?_code (n : Int32) : code? (code n) = some n := by
  rw [code?, code, integer?_ofInt]
  show (if _ then some (Int32.ofInt n.toInt) else none) = some n
  rw [if_pos ⟨n.minValue_le_toInt, n.toInt_le⟩, Int32.ofInt_toInt]

theorem code_ne_null (n : Int32) : code n ≠ .null := by
  rw [code]
  cases n.toInt <;> exact nofun

theorem optional_code (found : Option Int32) : optional code? (found.map code) = some found :=
  optional_map (fun n _ => code?_code n) code_ne_null

theorem labelDetails?_labelDetails (details : LabelDetails) :
    labelDetails? (labelDetails details) = some details := by
  obtain ⟨detail, description⟩ := details
  cases detail <;> cases description <;> rfl

theorem optional_labelDetails (found : Option LabelDetails) :
    optional labelDetails? (found.map labelDetails) = some found :=
  optional_map (fun details _ => labelDetails?_labelDetails details) nofun

theorem documentation?_documentation (d : Documentation) :
    documentation? (documentation d) = some d := by
  cases d with
  | text text => rfl
  | markup kind text => cases kind <;> rfl

theorem optional_documentation (found : Option Documentation) :
    optional documentation? (found.map documentation) = some found := by
  refine optional_map (fun d _ => documentation?_documentation d) fun d => ?_
  cases d <;> exact nofun

theorem editorCommand?_editorCommand (command : EditorCommand) :
    editorCommand? (editorCommand command) = some command := by
  obtain ⟨title, command, arguments⟩ := command
  cases arguments <;> rfl

theorem optional_editorCommand (found : Option EditorCommand) :
    optional editorCommand? (found.map editorCommand) = some found :=
  optional_map (fun command _ => editorCommand?_editorCommand command) nofun

theorem optional_codes (found : Option (List Int32)) :
    optional (list? code?) (found.map (list code)) = some found :=
  optional_list fun _ _ n _ => code?_code n

theorem optional_texts (found : Option (List String)) :
    optional (list? Value.text?) (found.map (list .string)) = some found :=
  optional_list fun _ _ _ _ => rfl

/-! ## Items -/

theorem get?_completionItem (item : CompletionItem) :
    ∀ member ∈ itemMembers item, (completionItem item).get? member.1 = member.2 :=
  get?_present (by simp [itemMembers])

/-- How an item is shown arrives as it was, whatever accepting it does. -/
theorem shownItem?_completionItem (item : CompletionItem) :
    shownItem? (completionItem item) = some { item with
      insertText := none, insertTextFormat := none, insertTextMode := none, textEdit := none
      additionalTextEdits := none, command := none, commitCharacters := none, data := none } := by
  have hget := get?_completionItem item
  simp only [itemMembers, List.forall_mem_cons] at hget
  obtain ⟨hlabel, hdetails, hkind, hdetail, hdocumentation, hdeprecated, hpreselect, hsort, hfilter, -,
    -, -, -, -, -, -, -, htags, -⟩ := hget
  simp only [shownItem?, hlabel, hdetails, hkind, hdetail, hdocumentation, hdeprecated, hpreselect,
    hsort, hfilter, htags, optional_text, optional_bool, optional_code, optional_labelDetails,
    optional_documentation, optional_codes, Option.bind_eq_bind, Option.bind_some, Value.text?,
    Option.pure_def]

/-- An item that can be sent arrives as it was. -/
theorem completionItem?_completionItem {item : CompletionItem} (h : item.Sendable) :
    completionItem? (completionItem item) = some item := by
  have hget := get?_completionItem item
  simp only [itemMembers, List.forall_mem_cons] at hget
  obtain ⟨-, -, -, -, -, -, -, -, -, hinsert, hformat, hmode, hedit, hedits, hcommand, hcommit, hdata,
    -, -⟩ := hget
  -- the three members that an item may lack a JSON form for
  have hreadEdit : optional completionEdit? (item.textEdit.map completionEdit) =
      some item.textEdit :=
    optional_map (fun edit hsome => completionEdit?_completionEdit (h.textEdit edit hsome))
      completionEdit_ne_null
  have hreadEdits : optional (list? textEdit?) (item.additionalTextEdits.map (list textEdit)) =
      some item.additionalTextEdits :=
    optional_list fun edits hsome edit hmem =>
      textEdit?_textEdit (h.additionalTextEdits edits hsome edit hmem)
  have hreadData : optional some item.data = some item.data := by
    cases hvalue : item.data with
    | none => rfl
    | some value => exact optional_of_ne_null fun hnull => h.data (hnull ▸ hvalue)
  simp only [completionItem?, shownItem?_completionItem, hinsert, hformat, hmode, hedit, hedits,
    hcommand, hcommit, hdata, hreadEdit, hreadEdits, hreadData, optional_text, optional_code,
    optional_editorCommand, optional_texts, Option.bind_eq_bind, Option.bind_some, Option.pure_def]

/-- Every item that was read can be sent. -/
theorem sendable_of_completionItem? {value : Value} {item : CompletionItem}
    (h : completionItem? value = some item) : item.Sendable := by
  simp only [completionItem?, Option.bind_eq_bind, Option.bind_eq_some_iff, Option.pure_def,
    Option.some.injEq] at h
  obtain ⟨shown, _, insertText, _, format, _, mode, _, edit, hedit, edits, hedits, command, _,
    characters, _, data, hdata, rfl⟩ := h
  refine ⟨?_, ?_, ?_⟩
  · rintro edit rfl
    obtain ⟨value, -, hread⟩ := exists_of_optional hedit
    exact fits_of_completionEdit? hread
  · rintro edits rfl
    obtain ⟨value, -, hread⟩ := exists_of_optional hedits
    exact forall_of_list? (fun _ _ => fits_of_textEdit?) hread
  · rintro rfl
    obtain ⟨value, hnull, hread⟩ := exists_of_optional hdata
    exact hnull (Option.some.inj hread)

end Wire

end ScenarioServer
