import ScenarioServer.Proofs.CursorWord

/-!
# Where diagnostics point

A token of the uppercase check is an isolated run of token characters, so what is known of words and
their ranges holds of it: both ends of its range lead back to its bytes, on one line. Two tokens are
never next to each other, since a character that no token holds parts them, and the ranges of
successive diagnostics are apart as positions too.

`diagnostics_locate_tokens` says so of the diagnostics of every document.
-/

namespace ScenarioServer

namespace Text

/-! ## Tokens as runs -/

theorem unitLength_of_capitals {token : List Char} (h : ∀ c ∈ token, isCapital c = true) :
    unitLength token = token.length := by
  induction token with
  | nil => rfl
  | cons c token ih =>
      have hc := h c List.mem_cons_self
      simp only [isCapital, Bool.and_eq_true, decide_eq_true_eq] at hc
      have hle : c.toNat ≤ 90 := hc.2
      have hwidth : unitWidth c = 1 := if_pos (by omega)
      rw [unitLength_cons, hwidth, ih fun d hd => h d (List.mem_cons_of_mem _ hd), List.length_cons,
        Nat.add_comm]

theorem IsShouted.isolated {text : List Char} {span : Span} (h : IsShouted text span) :
    ∃ before token after, text = before ++ token ++ after ∧ span = spanAfter before token ∧
      (∀ c ∈ token, isCapital c = true) ∧ Isolated isTokenChar before token after := by
  obtain ⟨before, token, after, rfl, rfl, hlength, hcapital, hbefore, hafter⟩ := h
  refine ⟨before, token, after, rfl, rfl, hcapital, ?_, ?_, hbefore, hafter⟩
  · rintro rfl
    rw [spanAfter_first, spanAfter_last, byteLength_nil] at hlength
    omega
  · intro c hc
    exact isTokenChar_of_isCapital (hcapital c hc)

/-- Of two runs, the one that comes first ends before the place where the other starts. -/
theorem Isolated.positionAfter_lt {isWord : Char → Bool}
    {pre word post pre' word' post' : List Char}
    (h : Isolated isWord pre word post) (h' : Isolated isWord pre' word' post')
    (htext : pre ++ word ++ post = pre' ++ word' ++ post')
    (hle : byteLength (pre ++ word) ≤ byteLength pre') :
    positionAfter (pre ++ word) < positionAfter pre' := by
  rw [List.append_assoc pre' word' post'] at htext
  obtain ⟨mid, rfl, hpost⟩ := exists_between htext hle
  apply Text.positionAfter_lt
  rintro rfl
  -- otherwise the first character of the later run would touch the earlier one
  obtain ⟨c, rest, rfl⟩ := List.exists_cons_of_ne_nil h'.ne_nil
  have hc := h'.all c List.mem_cons_self
  have hhead := h.post_head
  rw [hpost, List.nil_append, List.cons_append, List.head?_cons, Option.any_some, hc] at hhead
  cases hhead

theorem mem_shoutedRuns {text : List Char} {run : Run} (h : run ∈ shoutedRuns text) :
    ∃ before token after, text = before ++ token ++ after ∧
      run = ⟨token, positionAfter before, positionAfter (before ++ token)⟩ ∧
      (∀ c ∈ token, isCapital c = true) ∧ Isolated isTokenChar before token after := by
  rw [shoutedRuns_eq] at h
  obtain ⟨span, hspan, rfl⟩ := List.mem_map.mp h
  obtain ⟨before, token, after, rfl, rfl, hcapital, hrun⟩ :=
    ((mem_matchesIn text span).mp hspan).isolated
  exact ⟨before, token, after, rfl, runAt_spanAfter before token after, hcapital, hrun⟩

theorem pairwise_shoutedRuns (text : List Char) :
    (shoutedRuns text).Pairwise fun a b =>
      a.range.start < a.range.stop ∧ a.range.stop < b.range.start := by
  rw [shoutedRuns_eq, List.pairwise_map]
  have hordered := pairwise_matchesAfter (.inl rfl : Separate [] text)
  refine hordered.imp_of_mem ?_
  rintro a b ha hb ⟨-, hle⟩
  obtain ⟨before, token, after, htext, rfl, -, hrun⟩ := ((mem_matchesIn text a).mp ha).isolated
  obtain ⟨before', token', after', htext', rfl, -, hrun'⟩ := ((mem_matchesIn text b).mp hb).isolated
  have hfirst := runAt_spanAfter before token after
  have hsecond := runAt_spanAfter before' token' after'
  rw [← htext] at hfirst
  rw [← htext'] at hsecond
  rw [hfirst, hsecond]
  rw [spanAfter_last, ← byteLength_append] at hle
  exact ⟨positionAfter_lt before hrun.ne_nil,
    hrun.positionAfter_lt hrun' (htext.symm.trans htext') hle⟩

end Text

open Text

/-- Every diagnostic leads back to the bytes of the token that its message names, on one line and as
many columns as the token has letters, and its notes point at the same range of the same document.
Successive diagnostics come in order and are apart. -/
theorem diagnostics_locate_tokens (uri : Uri) (text : String) (cap : Nat) (related : Bool) :
    (∀ diagnostic ∈ validate uri text cap related, ∃ first last token,
      offsetAt text.toList diagnostic.range.start = some first ∧
      offsetAt text.toList diagnostic.range.stop = some last ∧
      slice? text.toList ⟨first, last⟩ = some token.toList ∧
      diagnostic.message = token ++ " is all uppercase. Can you please fix that" ∧
      diagnostic.range.start.line = diagnostic.range.stop.line ∧
      diagnostic.range.stop.character = diagnostic.range.start.character + token.length ∧
      (related = true → diagnostic.notes.length = 2 ∧
        ∀ note ∈ diagnostic.notes, note.uri = uri ∧ note.range = diagnostic.range)) ∧
    (validate uri text cap related).Pairwise fun a b =>
      a.range.start < a.range.stop ∧ a.range.stop < b.range.start := by
  constructor
  · intro diagnostic hdiagnostic
    obtain ⟨run, hrun, rfl⟩ := List.mem_map.mp hdiagnostic
    obtain ⟨before, token, after, htext, rfl, hcapital, hisolated⟩ :=
      mem_shoutedRuns (List.mem_of_mem_take hrun)
    have hstop := hisolated.positionAfter_stop isTokenChar_newline
    refine ⟨byteLength before, byteLength (before ++ token), String.ofList token,
      ?_, ?_, ?_, rfl, ?_, ?_, ?_⟩
    · rw [htext]
      exact hisolated.offsetAt_start isTokenChar_newline
    · rw [htext]
      exact hisolated.offsetAt_stop isTokenChar_return
    · rw [String.toList_ofList]
      exact slice?_eq htext rfl rfl
    · rw [Diagnostic.ofRun, hstop]
    · rw [Diagnostic.ofRun, hstop, unitLength_of_capitals hcapital, String.length_ofList]
    · rintro rfl
      refine ⟨rfl, ?_⟩
      intro note hnote
      obtain ⟨message, -, rfl⟩ := List.mem_map.mp hnote
      exact ⟨rfl, rfl⟩
  · rw [validate, List.pairwise_map]
    exact (pairwise_shoutedRuns text.toList).sublist (List.take_sublist cap _)

def shoutingUri : Uri :=
  { scheme := "file", authority := some {}, path := "/w/features/login.tacl" }

/-- The token behind a surrogate pair. -/
def pairedDiagnostic : Diagnostic := .ofRun shoutingUri true ⟨['O', 'K'], ⟨0, 4⟩, ⟨0, 6⟩⟩

/-- The text has a second token, behind a lone carriage return. -/
theorem diagnostics_locate_paired :
    pairedDiagnostic ∈ validate shoutingUri "é😀 OK\r\n\rAB" 5 true ∧
    (∃ first last token,
      offsetAt "é😀 OK\r\n\rAB".toList ⟨0, 4⟩ = some first ∧
      offsetAt "é😀 OK\r\n\rAB".toList ⟨0, 6⟩ = some last ∧
      slice? "é😀 OK\r\n\rAB".toList ⟨first, last⟩ = some token.toList ∧
      pairedDiagnostic.message = token ++ " is all uppercase. Can you please fix that" ∧
      6 = 4 + token.length) ∧
    pairedDiagnostic.notes.length = 2 ∧
    ∀ note ∈ pairedDiagnostic.notes,
      note.uri = shoutingUri ∧ note.range = pairedDiagnostic.range := by
  have hmem : pairedDiagnostic ∈ validate shoutingUri "é😀 OK\r\n\rAB" 5 true := by decide +kernel
  obtain ⟨first, last, token, hstart, hstop, hslice, hmessage, -, hwidth, hnotes⟩ :=
    (diagnostics_locate_tokens shoutingUri "é😀 OK\r\n\rAB" 5 true).1 _ hmem
  exact ⟨hmem, ⟨first, last, token, hstart, hstop, hslice, hmessage, hwidth⟩, hnotes rfl⟩

end ScenarioServer
