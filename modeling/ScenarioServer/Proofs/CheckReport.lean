import ScenarioServer.Command.Run
import ScenarioServer.Proofs.JsonText
import ScenarioServer.Proofs.LineEndings
import ScenarioServer.Wire.Message

/-!
# What a check reports

A check reads and resolves its files one after the other. The first that fails ends it: the fault is
all that is written, however much was found before it. If none fails, every file has its report, in
the order in which the files were given, and text and JSON are two forms of the same reports. Of the
JSON this is shown by reading it: the document behind the printed text holds the reports again
(`reports?`), and the text leads back to that document.

`check_reports_all_or_nothing` has both outcomes, for every file system.
-/

namespace ScenarioServer

/-! ## Positions within a text -/

namespace Text

theorem positionAfter_line_le (text : List Char) : (positionAfter text).line ≤ byteLength text := by
  rw [positionAfter_line]
  exact List.count_le_length.trans (LineTable.length_le_byteLength text)

theorem positionAfter_character_le (text : List Char) :
    (positionAfter text).character ≤ byteLength text := by
  obtain ⟨before, head, rfl, hstarts, hhead⟩ := exists_lastLine text
  have hwidth := LineTable.unitLength_le_byteLength head
  rw [positionAfter_append hstarts hhead, byteLength_append]
  exact hwidth.trans (Nat.le_add_left _ _)

end Text

open Text

open Json (Value)

/-- No number of a position is larger than `size`. -/
def Position.Within (p : Position) (size : Nat) : Prop := p.line ≤ size ∧ p.character ≤ size

theorem positionAfter_within {text before after : List Char} (h : text = before ++ after) :
    (positionAfter before).Within (byteLength text) := by
  have hle : byteLength before ≤ byteLength text := by
    rw [h, byteLength_append]
    exact Nat.le_add_right _ _
  exact ⟨(positionAfter_line_le before).trans hle, (positionAfter_character_le before).trans hle⟩

theorem within_of_mem_validate {uri : Uri} {text : String} {cap : Nat} {related : Bool}
    {d : Diagnostic} (h : d ∈ validate uri text cap related) :
    d.range.start.Within (byteLength text.toList) ∧ d.range.stop.Within (byteLength text.toList) := by
  obtain ⟨run, hrun, rfl⟩ := List.mem_map.mp h
  obtain ⟨before, token, after, htext, rfl, -⟩ := mem_shoutedRuns (List.mem_of_mem_take hrun)
  exact ⟨positionAfter_within (htext.trans (List.append_assoc before token after)),
    positionAfter_within htext⟩

theorem notes_of_mem_validate {uri : Uri} {text : String} {cap : Nat} {d : Diagnostic}
    (h : d ∈ validate uri text cap false) : d.notes = [] := by
  obtain ⟨run, -, rfl⟩ := List.mem_map.mp h
  rfl

namespace Command

/-! ## Files that can be checked -/

/-- A file can be read as text and its path can be resolved. -/
def Checkable (files : FileSystem) (path : String) : Prop :=
  (∃ text, files.read path = .ok text) ∧ ∃ place, files.resolve path = .ok place

/-- The report on a file: what `validate` finds in its text, without notes. -/
def IsReport (files : FileSystem) (cap : Nat) (path : String) (report : FileReport) : Prop :=
  ∃ text place, files.read path = .ok text ∧ files.resolve path = .ok place ∧
    report = ⟨path, validate (Uri.ofFilePath place) text cap false⟩

/-- Why a file cannot be checked. A file that cannot be read is not resolved. -/
inductive IsFault (files : FileSystem) (path : String) : CheckError → Prop where
  | unreadable {cause : FileError} (h : files.read path = .error cause) :
      IsFault files path (.unreadable path cause)
  | unresolvable {text : String} {cause : FileError} (hread : files.read path = .ok text)
      (h : files.resolve path = .error cause) : IsFault files path (.unresolvable path cause)

variable {files : FileSystem} {cap : Nat} {path : String} {paths : List String}

theorem checkFile_eq_ok_iff {report : FileReport} :
    checkFile files cap path = .ok report ↔ IsReport files cap path report := by
  unfold checkFile IsReport
  cases hread : files.read path with
  | error cause => simp
  | ok text =>
      cases hresolve : files.resolve path with
      | error cause => simp
      | ok place => simp [eq_comm]

theorem checkFile_eq_error_iff {fault : CheckError} :
    checkFile files cap path = .error fault ↔ IsFault files path fault := by
  constructor
  · intro h
    unfold checkFile at h
    split at h
    · next hread =>
        cases h
        exact .unreadable hread
    · next hread =>
        split at h
        · next hresolve =>
            cases h
            exact .unresolvable hread hresolve
        · cases h
  · intro h
    cases h with
    | unreadable h => rw [checkFile, h]
    | unresolvable hread h => simp only [checkFile, hread, h]

theorem checkable_iff : Checkable files path ↔ ∃ report, IsReport files cap path report := by
  constructor
  · rintro ⟨⟨text, hread⟩, place, hresolve⟩
    exact ⟨_, text, place, hread, hresolve, rfl⟩
  · rintro ⟨report, text, place, hread, hresolve, -⟩
    exact ⟨⟨text, hread⟩, place, hresolve⟩

theorem IsFault.not_checkable {fault : CheckError} (h : IsFault files path fault) :
    ¬ Checkable files path := by
  rintro ⟨⟨text, hread⟩, place, hresolve⟩
  cases h with
  | unreadable h => cases h.symm.trans hread
  | unresolvable _ h => cases h.symm.trans hresolve

/-! ## The list of files -/

/-- A traversal that may fail gives all results, or the error of the first element that has one. -/
theorem mapM_cases {α β ε : Type} (f : α → Except ε β) (items : List α) :
    (∃ results, items.mapM f = .ok results ∧ List.Forall₂ (fun a b => f a = .ok b) items results) ∨
    ∃ before item after e, items = before ++ item :: after ∧ (∀ a ∈ before, ∃ b, f a = .ok b) ∧
      f item = .error e ∧ items.mapM f = .error e := by
  induction items with
  | nil => exact .inl ⟨[], rfl, .nil⟩
  | cons item items ih =>
      cases hitem : f item with
      | error e =>
          refine .inr ⟨[], item, items, e, rfl, by simp, hitem, ?_⟩
          rw [List.mapM_cons, hitem]
          rfl
      | ok result =>
          rcases ih with ⟨results, hmap, hall⟩ | ⟨before, other, after, e, rfl, hbefore, hother, hmap⟩
          · refine .inl ⟨result :: results, ?_, .cons hitem hall⟩
            rw [List.mapM_cons, hitem, hmap]
            rfl
          · refine .inr ⟨item :: before, other, after, e, rfl, ?_, hother, ?_⟩
            · intro a ha
              rcases List.mem_cons.mp ha with rfl | ha
              · exact ⟨result, hitem⟩
              · exact hbefore a ha
            · rw [List.mapM_cons, hitem, hmap]
              rfl

/-- If some file cannot be checked, the fault is that of the first such file. -/
theorem checkFiles_eq_error (cap : Nat) (h : ∃ path ∈ paths, ¬ Checkable files path) :
    ∃ before path after fault, paths = before ++ path :: after ∧
      (∀ earlier ∈ before, Checkable files earlier) ∧ IsFault files path fault ∧
      checkFiles files cap paths = .error fault := by
  rcases mapM_cases (checkFile files cap) paths with
    ⟨reports, -, hall⟩ | ⟨before, path, after, fault, hpaths, hbefore, hpath, hmap⟩
  · obtain ⟨path, hpath, hnot⟩ := h
    have hchecked : List.Forall₂ (fun path report => Checkable files path ∧
        checkFile files cap path = .ok report) paths reports :=
      hall.imp fun path report hok => ⟨checkable_iff.mpr ⟨report, checkFile_eq_ok_iff.mp hok⟩, hok⟩
    exact absurd ((List.forall₂_and_left _ _).mp hchecked |>.1 path hpath) hnot
  · refine ⟨before, path, after, fault, hpaths, ?_, checkFile_eq_error_iff.mp hpath, hmap⟩
    intro earlier hearlier
    obtain ⟨report, hreport⟩ := hbefore earlier hearlier
    exact checkable_iff.mpr ⟨report, checkFile_eq_ok_iff.mp hreport⟩

/-- If every file can be checked, every file has its report. -/
theorem checkFiles_eq_ok (cap : Nat) (h : ∀ path ∈ paths, Checkable files path) :
    ∃ reports, checkFiles files cap paths = .ok reports ∧
      List.Forall₂ (IsReport files cap) paths reports := by
  rcases mapM_cases (checkFile files cap) paths with
    ⟨reports, hmap, hall⟩ | ⟨before, path, after, fault, hpaths, -, hpath, -⟩
  · exact ⟨reports, hmap, hall.imp fun _ _ hok => checkFile_eq_ok_iff.mp hok⟩
  · have hmem : path ∈ paths := hpaths ▸ List.mem_append_right _ List.mem_cons_self
    exact absurd (h path hmem) (checkFile_eq_error_iff.mp hpath).not_checkable

theorem exists_path_of_mem {reports : List FileReport}
    (h : List.Forall₂ (IsReport files cap) paths reports) {report : FileReport}
    (hreport : report ∈ reports) : ∃ path ∈ paths, IsReport files cap path report := by
  induction h with
  | nil => cases hreport
  | cons hfirst htail ih =>
      rcases List.mem_cons.mp hreport with rfl | hreport
      · exact ⟨_, List.mem_cons_self, hfirst⟩
      · obtain ⟨path, hpath, his⟩ := ih hreport
        exact ⟨path, List.mem_cons_of_mem _ hpath, his⟩

/-! ## The report in text -/

theorem length_flatMap_lines (reports : List FileReport) (before : Nat) :
    reports.foldl (fun total report => total + report.diagnostics.length) before =
      before + (reports.flatMap FileReport.lines).length := by
  induction reports generalizing before with
  | nil => rfl
  | cons report reports ih =>
      rw [List.foldl_cons, ih, List.flatMap_cons, List.length_append, FileReport.lines,
        List.length_map, Nat.add_assoc]

theorem summary_eq (reports : List FileReport) :
    summary reports =
      if reports.flatMap FileReport.lines = [] then s!"No issues found in {reports.length} file(s)"
      else s!"Found {(reports.flatMap FileReport.lines).length} warning(s)" := by
  rw [summary, length_flatMap_lines, Nat.zero_add]
  simp only [List.length_eq_zero_iff]

theorem flatMap_lines_eq_nil_iff (reports : List FileReport) :
    reports.flatMap FileReport.lines = [] ↔ ∀ report ∈ reports, report.diagnostics = [] := by
  simp only [List.flatMap_eq_nil_iff, FileReport.lines, List.map_eq_nil_iff]

theorem foundAny_eq (reports : List FileReport) :
    foundAny reports = decide (reports.flatMap FileReport.lines ≠ []) := by
  rw [Bool.eq_iff_iff, decide_eq_true_iff, Ne, flatMap_lines_eq_nil_iff]
  simp [foundAny]

/-! ## The report in JSON -/

/-- The range that a value holds. -/
def range? (value : Value) : Option Range := do
  return ⟨← (value.get? "start").bind Wire.position?, ← (value.get? "end").bind Wire.position?⟩

/-- The warning without notes that a value holds. -/
def diagnostic? (value : Value) : Option Diagnostic := do
  let range ← (value.get? "range").bind range?
  let severity ← (value.get? "severity").bind Value.natural?
  let source ← (value.get? "source").bind Value.text?
  let message ← (value.get? "message").bind Value.text?
  if severity = Diagnostic.severityCode ∧ (value.get? "relatedInformation").isNone then
    return { range, source, message }
  else none

/-- The report on one file that a value holds. -/
def report? (value : Value) : Option FileReport := do
  let file ← (value.get? "file").bind Value.text?
  let diagnostics ← (value.get? "diagnostics").bind Value.items?
  return ⟨file, ← diagnostics.mapM diagnostic?⟩

/-- The reports that a value holds. -/
def reports? (value : Value) : Option (List FileReport) := do
  (← value.items?).mapM report?

theorem diagnostic?_diagnostic {d : Diagnostic} (h : d.notes = []) :
    diagnostic? (Wire.diagnostic d) = some d := by
  obtain ⟨⟨start, stop⟩, source, message, notes⟩ := d
  cases h
  rfl

theorem reports?_array {reports : List FileReport}
    (h : ∀ report ∈ reports, ∀ d ∈ report.diagnostics, d.notes = []) :
    reports? (.array (reports.map FileReport.toJson)) = some reports := by
  refine mapM_map_eq_some fun report hreport => ?_
  have hdiagnostics : (report.diagnostics.map Wire.diagnostic).mapM diagnostic? =
      some report.diagnostics :=
    mapM_map_eq_some fun d hd => diagnostic?_diagnostic (h report hreport d hd)
  show ((report.diagnostics.map Wire.diagnostic).mapM diagnostic?).bind
    (fun diagnostics => some ⟨report.file, diagnostics⟩) = some report
  rw [hdiagnostics, Option.bind_some]

section Readable

variable {depth size : Nat}

theorem readable_position {p : Position} (h : p.Within size) (hsize : size ≤ Json.maxWord) :
    (Wire.position p).Readable (depth + 1) := by
  refine .object ?_ (show ["line", "character"].Nodup by decide)
  simp only [List.forall_mem_cons]
  exact ⟨.natural (h.1.trans hsize), .natural (h.2.trans hsize), by simp⟩

theorem readable_range {r : Range} (hstart : r.start.Within size) (hstop : r.stop.Within size)
    (hsize : size ≤ Json.maxWord) : (Wire.range r).Readable (depth + 2) := by
  refine .object ?_ (show ["start", "end"].Nodup by decide)
  simp only [List.forall_mem_cons]
  exact ⟨readable_position hstart hsize, readable_position hstop hsize, by simp⟩

theorem readable_diagnostic {d : Diagnostic} (hnotes : d.notes = [])
    (hrange : (Wire.range d.range).Readable (depth + 2)) :
    (Wire.diagnostic d).Readable (depth + 3) := by
  obtain ⟨range, source, message, notes⟩ := d
  cases hnotes
  refine .object ?_ (show ["range", "severity", "source", "message"].Nodup by decide)
  show ∀ m ∈ [("range", Wire.range range), ("severity", .ofNat Diagnostic.severityCode),
    ("source", .string source), ("message", .string message)], m.2.Readable (depth + 2)
  simp only [List.forall_mem_cons]
  exact ⟨hrange, .natural (by decide), .string _, .string _, by simp⟩

theorem readable_report {report : FileReport}
    (h : ∀ d ∈ report.diagnostics, (Wire.diagnostic d).Readable depth) :
    report.toJson.Readable (depth + 2) := by
  refine .object ?_ (show ["file", "diagnostics"].Nodup by decide)
  simp only [List.forall_mem_cons]
  refine ⟨.string _, .array ?_, by simp⟩
  intro value hvalue
  obtain ⟨d, hd, rfl⟩ := List.mem_map.mp hvalue
  exact h d hd

theorem IsReport.notes {report : FileReport} (h : IsReport files cap path report) :
    ∀ d ∈ report.diagnostics, d.notes = [] := by
  obtain ⟨text, place, -, -, rfl⟩ := h
  intro d hd
  exact notes_of_mem_validate hd

theorem IsReport.readable {report : FileReport} (h : IsReport files cap path report)
    (hsize : ∀ text, files.read path = .ok text → byteLength text.toList ≤ Json.maxWord) :
    report.toJson.Readable (depth + 5) := by
  obtain ⟨text, place, hread, -, rfl⟩ := h
  refine readable_report fun d hd => ?_
  obtain ⟨hstart, hstop⟩ := within_of_mem_validate hd
  exact readable_diagnostic (notes_of_mem_validate hd)
    (readable_range hstart hstop (hsize text hread))

end Readable

/-! ## Both outcomes -/

/-- If a file cannot be read as text or resolved, the check ends with the fault of the first such file
and writes nothing else. Otherwise each file has its report, repeated files have it repeatedly, and
both formats show the same reports: the text has a line for each diagnostic and then their number, the
JSON holds the reports, and the exit code is 1 if there is a diagnostic at all. In a file of less than
`UInt32.size - 1` bytes the numbers of the lines and columns fit 32 bits. -/
theorem check_reports_all_or_nothing (files : FileSystem) (cap : Nat) (paths : List String) :
    ((∃ path ∈ paths, ¬ Checkable files path) →
      ∃ before path after fault, paths = before ++ path :: after ∧
        (∀ earlier ∈ before, Checkable files earlier) ∧ IsFault files path fault ∧
        ∀ format, runCheck files cap paths format =
          { code := 1, stdout := "", stderr := s!"Error: {fault.message}\n" }) ∧
    ((∀ path ∈ paths, Checkable files path) →
      ∃ reports lines, List.Forall₂ (IsReport files cap) paths reports ∧
        (lines = reports.flatMap fun r => r.diagnostics.map fun d =>
          let start := d.range.start
          s!"{r.file}:{start.line + 1}:{start.character + 1}: warning: {d.message} [{d.source}]") ∧
        (lines = [] ↔ ∀ report ∈ reports, report.diagnostics = []) ∧
        runCheck files cap paths .text =
          { code := if lines = [] then 0 else 1
            stdout := String.join ((lines ++ [
              if lines = [] then s!"No issues found in {paths.length} file(s)"
              else s!"Found {lines.length} warning(s)"]).map (· ++ "\n"))
            stderr := "" } ∧
        ∃ document, reports? document = some reports ∧
          runCheck files cap paths .json =
            { code := if lines = [] then 0 else 1
              stdout := Json.pretty "" document ++ "\n"
              stderr := "" } ∧
          ((∀ path ∈ paths, ∀ text, files.read path = .ok text →
            byteLength text.toList ≤ Json.maxWord) →
          Value.parse? (Json.pretty "" document ++ "\n") = some document)) ∧
    ∀ path ∈ paths, ∀ text place, files.read path = .ok text → files.resolve path = .ok place →
      byteLength text.toList < UInt32.size - 1 →
      LineTable.diagnostics? (Uri.ofFilePath place) text.toList cap false =
        some (validate (Uri.ofFilePath place) text cap false) ∧
      ∀ d ∈ validate (Uri.ofFilePath place) text cap false,
        d.range.start.line + 1 < UInt32.size ∧ d.range.start.character + 1 < UInt32.size := by
  refine ⟨?_, ?_, ?_⟩
  · intro hnot
    obtain ⟨before, path, after, fault, hpaths, hbefore, hfault, hcheck⟩ := checkFiles_eq_error cap hnot
    refine ⟨before, path, after, fault, hpaths, hbefore, hfault, fun format => ?_⟩
    rw [runCheck, hcheck]
    rfl
  · intro hall
    obtain ⟨reports, hcheck, hreports⟩ := checkFiles_eq_ok cap hall
    have hnotes : ∀ report ∈ reports, ∀ d ∈ report.diagnostics, d.notes = [] := by
      intro report hreport
      obtain ⟨path, -, his⟩ := exists_path_of_mem hreports hreport
      exact his.notes
    have hcode : (if foundAny reports then 1 else 0) =
        if reports.flatMap FileReport.lines = [] then 0 else 1 := by
      simp only [foundAny_eq, decide_eq_true_eq, ite_not, ne_eq]
    refine ⟨reports, reports.flatMap FileReport.lines, hreports, rfl,
      flatMap_lines_eq_nil_iff reports, ?_,
      .array (reports.map FileReport.toJson), reports?_array hnotes, ?_, ?_⟩
    · rw [runCheck, hcheck, hreports.length_eq, ← summary_eq, ← hcode]
      rfl
    · rw [runCheck, hcheck, ← hcode]
      rfl
    · -- the largest number in the document is a position, and no position is beyond its text
      intro hsize
      refine Value.parse?_pretty (.array fun value hvalue => ?_)
      obtain ⟨report, hreport, rfl⟩ := List.mem_map.mp hvalue
      obtain ⟨path, hpath, his⟩ := exists_path_of_mem hreports hreport
      exact his.readable (hsize path hpath)
  · intro path hpath text place hread hresolve hsize
    refine ⟨LineTable.diagnostics?_eq (by omega) _ _ _, fun d hd => ?_⟩
    obtain ⟨⟨hline, hcharacter⟩, -⟩ := within_of_mem_validate hd
    omega

/-- The text of `noisy.tacl` below: a token on each of two lines. -/
def noisyText : String := "Then the API\nreturns OK"

/-- Two files with text, of which one has tokens; no other file is text. -/
def checkedFiles : FileSystem where
  read path :=
    if path = "noisy.tacl" then .ok noisyText
    else if path = "clean.tacl" then .ok "Given a user"
    else .error .notText
  isFile _ := true
  resolve path := .ok ("/work/" ++ path)

theorem checkable_noisy : Checkable checkedFiles "noisy.tacl" := ⟨⟨_, rfl⟩, _, rfl⟩

theorem checkable_clean : Checkable checkedFiles "clean.tacl" := ⟨⟨_, rfl⟩, _, rfl⟩

theorem not_checkable_binary : ¬ Checkable checkedFiles "binary.tacl" := by
  rintro ⟨⟨text, hread⟩, -⟩
  cases hread

theorem byteLength_checkedFiles {path text : String} (h : checkedFiles.read path = .ok text) :
    byteLength text.toList < UInt32.size - 1 := by
  simp only [checkedFiles] at h
  split_ifs at h
  · cases h
    decide
  · cases h
    decide

/-- A file that is not text ends a check whose first file has tokens. Without it, the file given twice
is reported twice, and both formats say so. -/
theorem check_reports_noisy_twice :
    (∀ format, runCheck checkedFiles 1 ["noisy.tacl", "binary.tacl", "clean.tacl"] format =
      { code := 1
        stdout := ""
        stderr :=
          "Error: Failed to read input file: binary.tacl: stream did not contain valid UTF-8\n" }) ∧
    runCheck checkedFiles 1 ["noisy.tacl", "clean.tacl", "noisy.tacl"] .text =
      { code := 1
        stdout := "noisy.tacl:1:10: warning: API is all uppercase. Can you please fix that [ex]\n" ++
          "noisy.tacl:1:10: warning: API is all uppercase. Can you please fix that [ex]\n" ++
          "Found 2 warning(s)\n" } ∧
    (∃ reports document,
      List.Forall₂ (IsReport checkedFiles 1) ["noisy.tacl", "clean.tacl", "noisy.tacl"] reports ∧
      reports? document = some reports ∧
      Value.parse? (runCheck checkedFiles 1 ["noisy.tacl", "clean.tacl", "noisy.tacl"] .json).stdout =
        some document) ∧
    LineTable.diagnostics? (Uri.ofFilePath "/work/noisy.tacl") noisyText.toList 1 false =
      some (validate (Uri.ofFilePath "/work/noisy.tacl") noisyText 1 false) := by
  obtain ⟨hfault, -, -⟩ :=
    check_reports_all_or_nothing checkedFiles 1 ["noisy.tacl", "binary.tacl", "clean.tacl"]
  obtain ⟨-, hreports, hfits⟩ :=
    check_reports_all_or_nothing checkedFiles 1 ["noisy.tacl", "clean.tacl", "noisy.tacl"]
  refine ⟨?_, by decide +kernel, ?_, ?_⟩
  · obtain ⟨before, path, after, fault, hpaths, -, hfault, hrun⟩ :=
      hfault ⟨_, by simp, not_checkable_binary⟩
    have hpath : path ∈ ["noisy.tacl", "binary.tacl", "clean.tacl"] :=
      hpaths ▸ List.mem_append_right _ List.mem_cons_self
    have hnot := hfault.not_checkable
    simp only [List.mem_cons, List.not_mem_nil, or_false] at hpath
    rcases hpath with rfl | rfl | rfl
    · exact absurd checkable_noisy hnot
    · cases hfault with
      | unreadable h =>
          cases h
          exact hrun
      | unresolvable h _ => cases h
    · exact absurd checkable_clean hnot
  · have hall : ∀ path ∈ ["noisy.tacl", "clean.tacl", "noisy.tacl"], Checkable checkedFiles path := by
      simp [checkable_noisy, checkable_clean]
    obtain ⟨reports, lines, hlist, -, -, -, document, hdocument, hjson, hparse⟩ := hreports hall
    refine ⟨reports, document, hlist, hdocument, ?_⟩
    rw [hjson]
    apply hparse
    intro path _ text hread
    have hsize := byteLength_checkedFiles hread
    have hword : UInt32.size - 1 ≤ Json.maxWord := by decide
    exact (hsize.trans_le hword).le
  · exact (hfits "noisy.tacl" (by simp) noisyText _ rfl rfl (by decide)).1

end Command

end ScenarioServer
