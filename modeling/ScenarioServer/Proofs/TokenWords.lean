import ScenarioServer.Proofs.DiagnosticRanges
import ScenarioServer.Proofs.LineEndings

/-!
# Tokens and words

The uppercase check reads a text from left to right and cuts it by one notion of a word character;
the search for the word under a cursor reads outwards from its place and cuts by another. In a text
whose characters the two notions judge alike (`SameWordChars`), an isolated run of the one is an
isolated run of the other, and so both find the same words at the same places.

`tokens_are_words` says it both ways: whatever a diagnostic points at is the word under every cursor
in its range, and a word of two or more capital letters has one diagnostic, at its range.
-/

namespace ScenarioServer

theorem Position.lt_irrefl (p : Position) : ¬p < p := by
  rw [lt_iff]
  omega

namespace Text

/-! ## Runs of both notions -/

/-- Each character of the text bounds tokens exactly if it bounds words. -/
def SameWordChars (text : List Char) : Prop := ∀ c ∈ text, isTokenChar c = isWordChar c

instance (text : List Char) : Decidable (SameWordChars text) :=
  List.decidableBAll (fun c => isTokenChar c = isWordChar c) text

theorem sameWordChars_of_ascii {text : List Char} (h : ∀ c ∈ text, c.toNat < 0x80) :
    SameWordChars text := by
  intro c hc
  exact isTokenChar_eq_isWordChar (h c hc)

theorem Isolated.congr {isWord isWord' : Char → Bool} {pre word post : List Char}
    (h : Isolated isWord pre word post) (hsame : ∀ c ∈ pre ++ word ++ post, isWord c = isWord' c) :
    Isolated isWord' pre word post := by
  refine ⟨h.ne_nil, ?_, ?_, ?_⟩
  · intro c hc
    rw [← hsame c (by simp [hc])]
    exact h.all c hc
  · have hlast := h.pre_last
    cases hc : pre.getLast? with
    | none => rfl
    | some c =>
        have hmem := List.mem_of_getLast? hc
        rwa [hc, Option.any_some, hsame c (by simp [hmem])] at hlast
  · have hhead := h.post_head
    cases hc : post.head? with
    | none => rfl
    | some c =>
        have hmem := List.mem_of_head? hc
        rwa [hc, Option.any_some, hsame c (by simp [hmem])] at hhead

/-- Two or more capital letters that stand alone are a run that deserves a warning. -/
theorem Isolated.mem_shoutedRuns {before token after : List Char}
    (h : Isolated isTokenChar before token after) (hlength : 2 ≤ token.length)
    (hcapital : ∀ c ∈ token, isCapital c = true) :
    ⟨token, positionAfter before, positionAfter (before ++ token)⟩ ∈
      shoutedRuns (before ++ token ++ after) := by
  have hshouted : isShoutedToken token = true := by
    simpa [isShoutedToken, hlength] using hcapital
  rw [shoutedRuns_eq, ← runAt_spanAfter before token after]
  apply List.mem_map_of_mem
  rw [mem_matchesIn]
  exact isShouted_of_isShoutedToken hshouted h.pre_last h.post_head

end Text

open Text

/-! ## Diagnostics and the words they point at -/

theorem nodup_ranges_validate (uri : Uri) (text : String) (cap : Nat) (related : Bool) :
    ((validate uri text cap related).map Diagnostic.range).Nodup := by
  rw [validate, List.map_map, List.Nodup, List.pairwise_map]
  refine ((pairwise_shoutedRuns text.toList).sublist (List.take_sublist cap _)).imp ?_
  rintro a b ⟨hfirst, hnext⟩ hrange
  have hsame : a.range = b.range := hrange
  rw [← hsame] at hnext
  exact Position.lt_irrefl _ (Position.lt_trans hfirst hnext)

theorem validate_of_length_le {text : String} {cap : Nat}
    (h : (matchesIn text.toList).length ≤ cap) (uri : Uri) (related : Bool) :
    validate uri text cap related =
      (shoutedRuns text.toList).map (Diagnostic.ofRun uri related) := by
  rw [validate, List.take_of_length_le]
  rwa [shoutedRuns_eq, List.length_map]

/-- A diagnostic's token is the word at every position of its range. -/
theorem wordAt_of_mem_validate {uri : Uri} {text : String} {cap : Nat} {related : Bool}
    {diagnostic : Diagnostic} (hsame : SameWordChars text.toList)
    (h : diagnostic ∈ validate uri text cap related) :
    ∃ token, diagnostic.message = Diagnostic.uppercaseMessage token ∧
      ∀ q, diagnostic.range.start ≤ q → q ≤ diagnostic.range.stop →
        wordAt text.toList q = some ⟨token, diagnostic.range⟩ := by
  obtain ⟨run, hrun, rfl⟩ := List.mem_map.mp h
  obtain ⟨before, token, after, htext, rfl, -, hisolated⟩ :=
    mem_shoutedRuns (List.mem_of_mem_take hrun)
  rw [htext] at hsame ⊢
  refine ⟨String.ofList token, rfl, ?_⟩
  intro q hstart hstop
  exact (hisolated.congr hsame).wordAtBy_of_mem_range isWordChar_newline isWordChar_return hstart hstop

/-- A word of two or more capital letters has a diagnostic of its own. -/
theorem exists_diagnostic_of_wordAt {text : String} {cap : Nat} {p : Position} {word : Word}
    (hsame : SameWordChars text.toList) (hcap : (matchesIn text.toList).length ≤ cap)
    (h : wordAt text.toList p = some word) (hlength : 2 ≤ word.text.length)
    (hcapital : ∀ c ∈ word.text.toList, isCapital c = true) (uri : Uri) (related : Bool) :
    ∃ diagnostic ∈ validate uri text cap related, diagnostic.range = word.range ∧
      diagnostic.message = Diagnostic.uppercaseMessage word.text := by
  obtain ⟨pre, left, right, post, htext, -, hsurrounds, hne, rfl⟩ := wordAtBy_cases h
  have hwhole : text.toList = pre ++ (left ++ right) ++ post := by
    rw [htext]
    simp only [List.append_assoc]
  rw [hwhole] at hsame
  have hisolated := (hsurrounds.isolated hne).congr fun c hc => (hsame c hc).symm
  rw [wordOf, String.length_ofList] at hlength
  rw [wordOf, String.toList_ofList] at hcapital
  have hrun := hisolated.mem_shoutedRuns hlength hcapital
  rw [← hwhole] at hrun
  rw [validate_of_length_le hcap]
  exact ⟨_, List.mem_map_of_mem hrun, rfl, rfl⟩

/-- In a text whose characters bound tokens exactly if they bound words, as every ASCII text is: the
token of a diagnostic is the word at every position of the diagnostic's range, with that range; and
if the cap leaves no match out, a word of two or more capital letters has exactly one diagnostic at its
range. On bytes, with 32-bit positions, both scans give an answer for every text of this size. -/
theorem tokens_are_words {text : String} (hsize : byteLength text.toList < UInt32.size) :
    ((∀ c ∈ text.toList, c.toNat < 0x80) → SameWordChars text.toList) ∧
    (SameWordChars text.toList → ∀ uri cap related,
      (∀ diagnostic ∈ validate uri text cap related, ∃ token,
        diagnostic.message = token ++ " is all uppercase. Can you please fix that" ∧
        ∀ q, diagnostic.range.start ≤ q → q ≤ diagnostic.range.stop →
          wordAt text.toList q = some ⟨token, diagnostic.range⟩) ∧
      ((matchesIn text.toList).length ≤ cap → ∀ p word, wordAt text.toList p = some word →
        2 ≤ word.text.length → (∀ c ∈ word.text.toList, isCapital c = true) →
        ∃ diagnostic, (validate uri text cap related).filter
            (fun diagnostic => diagnostic.range = word.range) = [diagnostic] ∧
          diagnostic.message = word.text ++ " is all uppercase. Can you please fix that")) ∧
    (∀ uri cap related, LineTable.diagnostics? uri text.toList cap related =
      some (validate uri text cap related)) ∧
    ∀ p, LineTable.word? isWordChar text.toList p = some (wordAt text.toList p) := by
  refine ⟨sameWordChars_of_ascii, ?_, LineTable.diagnostics?_eq hsize, LineTable.word?_eq hsize⟩
  intro hsame uri cap related
  constructor
  · intro diagnostic hdiagnostic
    exact wordAt_of_mem_validate hsame hdiagnostic
  · intro hcap p word hword hlength hcapital
    obtain ⟨diagnostic, hmem, hrange, hmessage⟩ :=
      exists_diagnostic_of_wordAt hsame hcap hword hlength hcapital uri related
    have hnodup := nodup_ranges_validate uri text cap related
    exact ⟨diagnostic, filter_eq_singleton hnodup (fun _ => decide_eq_true_iff) hmem hrange, hmessage⟩

/-- A token behind a letter beyond ASCII and in front of a carriage return, capitals that an underscore
makes part of a longer word, and a token behind a surrogate pair. -/
def mixedText : String := "é API\r\nlogin_OK 😀GO"

def mixedDiagnostic : Diagnostic := .ofRun shoutingUri false ⟨['A', 'P', 'I'], ⟨0, 2⟩, ⟨0, 5⟩⟩

/-- A cursor behind the first token selects it, and the last word has the other diagnostic. -/
theorem tokens_are_words_in_mixedText :
    byteLength mixedText.toList < UInt32.size ∧ SameWordChars mixedText.toList ∧
    mixedDiagnostic ∈ validate shoutingUri mixedText 2 false ∧
    (∃ token, mixedDiagnostic.message = token ++ " is all uppercase. Can you please fix that" ∧
      wordAt mixedText.toList ⟨0, 5⟩ = some ⟨token, ⟨0, 2⟩, ⟨0, 5⟩⟩) ∧
    wordAt mixedText.toList ⟨1, 8⟩ = some ⟨"login_OK", ⟨1, 0⟩, ⟨1, 8⟩⟩ ∧
    (matchesIn mixedText.toList).length ≤ 2 ∧
    wordAt mixedText.toList ⟨1, 12⟩ = some ⟨"GO", ⟨1, 11⟩, ⟨1, 13⟩⟩ ∧
    ∃ diagnostic, (validate shoutingUri mixedText 2 false).filter
        (fun diagnostic => diagnostic.range = ⟨⟨1, 11⟩, ⟨1, 13⟩⟩) = [diagnostic] ∧
      diagnostic.message = "GO" ++ " is all uppercase. Can you please fix that" := by
  have hsize : byteLength mixedText.toList < UInt32.size := by decide
  have hsame : SameWordChars mixedText.toList := by decide +kernel
  have hmem : mixedDiagnostic ∈ validate shoutingUri mixedText 2 false := by decide +kernel
  have hcap : (matchesIn mixedText.toList).length ≤ 2 := by decide +kernel
  have hword : wordAt mixedText.toList ⟨1, 12⟩ = some ⟨"GO", ⟨1, 11⟩, ⟨1, 13⟩⟩ := by decide +kernel
  obtain ⟨-, hagree, -, -⟩ := tokens_are_words hsize
  obtain ⟨htokens, hwords⟩ := hagree hsame shoutingUri 2 false
  obtain ⟨token, hmessage, hcursor⟩ := htokens _ hmem
  exact ⟨hsize, hsame, hmem, ⟨token, hmessage, hcursor ⟨0, 5⟩ (by decide) (by decide)⟩,
    by decide +kernel, hcap, hword, hwords hcap ⟨1, 12⟩ _ hword (by decide) (by simp [isCapital])⟩

end ScenarioServer
