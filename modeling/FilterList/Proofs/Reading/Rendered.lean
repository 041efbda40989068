import FilterList.Proofs.Reading.Lines
import FilterList.Proofs.Snippet
import FilterList.Proofs.Text.Quoted

/-!
# Rendered diagnostics

What a person is shown of a diagnostic is a sheet of four lines: the title, and
the three lines of the snippet it points at. A title quotes a character of the
source only in a written form, so it stays on its line whatever is read.

Results:
* `Fits.newline_not_mem_title`: the title of a diagnostic is one line.
* `shows_ofLine`: the sheet with the snippet of a place in a line.
* `sheet_of_render`: every diagnostic that can be rendered is rendered as a
  sheet that shows the line it points into.
-/
namespace FilterList

/-! ## Titles -/

namespace Report

/-- The header without its newline. -/
def title (r : Report) : List Char :=
  r.severity.toList ++ [':', ' '] ++ r.name.toList ++
    match r.tip with
    | none => []
    | some tip => [' ', '('] ++ tip.toList ++ [')']

theorem toList_header (r : Report) : r.header.toList = r.title ++ ['\n'] := by
  unfold header title
  cases r.tip <;> simp

theorem newline_not_mem_title {r : Report} (hseverity : '\n' ∉ r.severity.toList)
    (hname : '\n' ∉ r.name.toList) (htip : ∀ tip ∈ r.tip, '\n' ∉ tip.toList) :
    '\n' ∉ r.title := by
  unfold title
  cases h : r.tip with
  | none => simp [hseverity, hname]
  | some tip =>
    have := htip tip h
    simp [hseverity, hname, this]

end Report

theorem Breaks.newline_not_mem_tip {text : List Char} {kind : ErrorKind} (h : Breaks text kind) :
    ∀ tip ∈ kind.tip, '\n' ∉ tip.toList := by
  intro tip htip
  cases h with
  | loneAt =>
    obtain rfl := Option.some.inj htip
    simp
  | @expectedHash marker behind hmarker =>
    obtain rfl := Option.some.inj htip
    have hfound := Text.newline_not_mem_describe behind.head?
    rcases hmarker with rfl | rfl
    · simp [hfound]
    · simp [hfound]

theorem Deviates.newline_not_mem_tip {text : List Char} {kind : WarningKind}
    (h : Deviates text kind) : ∀ tip ∈ kind.tip, '\n' ∉ tip.toList := by
  intro tip htip
  cases h with
  | unexpectedCharacter => cases htip
  | unknownHashSequence =>
    obtain rfl := Option.some.inj htip
    simp

namespace Diagnostic

theorem newline_not_mem_severity (d : Diagnostic) : '\n' ∉ d.severity.toList := by
  cases d <;> simp [severity]

theorem newline_not_mem_name (d : Diagnostic) : '\n' ∉ d.name.toList := by
  have hnames : ∀ name ∈ ["LoneAt", "ExpectedHash", "UnexpectedCharacter", "UnknownHashSequence"],
      '\n' ∉ name.toList := by
    simp
  apply hnames
  rcases d with ⟨_ | _, _⟩ | ⟨_ | _, _⟩ <;> simp [name, ErrorKind.name, WarningKind.name]

/-- What is told of a source has a title of one line. -/
theorem Fits.newline_not_mem_title {d : Diagnostic} {text : List Char} (h : d.Fits text) :
    '\n' ∉ d.report.title := by
  refine @Report.newline_not_mem_title d.report d.newline_not_mem_severity
    d.newline_not_mem_name ?_
  cases d with
  | error e => exact Breaks.newline_not_mem_tip h
  | warning w => exact Deviates.newline_not_mem_tip h

end Diagnostic

/-! ## Sheets -/

/-- The lines that a diagnostic is rendered as, without their newlines. -/
structure Sheet where
  title : List Char    -- what is told
  ruler : List Char    -- a bar
  row : List Char      -- the line of the source behind its number and a bar
  pointer : List Char  -- a bar and a caret
  deriving DecidableEq, Repr

namespace Sheet

def lines (s : Sheet) : List (List Char) :=
  [s.title, s.ruler, s.row, s.pointer]

def text (s : Sheet) : List Char :=
  s.lines.flatMap fun line => line ++ ['\n']

/-- The sheet shows the part `shown` of the line `begun ++ rest` under the line
number `number`, with its caret below the place behind `begun`. -/
structure Shows (s : Sheet) (number : Nat) (begun rest lead shown trail : List Char) : Prop where
  newline : ∀ line ∈ s.lines, '\n' ∉ line
  ruler_eq : ∃ blanks, s.ruler = List.replicate blanks ' ' ++ ['|']
  trimmed : Trimmed (begun ++ rest) lead shown trail
  row_eq : s.row = Snippet.margin number ++ shown
  bar : ∀ i : Nat, s.pointer[i]? = some '|' ↔ (Snippet.margin number)[i]? = some '|'
  caret : ∀ i : Nat, s.pointer[i]? = some '^' ↔
    i = number.repr.length + 3 + (begun.length - lead.length)
  caret_last : s.pointer.getLast? = some '^'
  below : ∀ (i : Nat) (c : Char), s.pointer[i]? = some '^' → rest.head? = some c →
    Unicode.isWhiteSpace c = false → s.row[i]? = some c

end Sheet

/-- The sheet with the snippet of a place in a line. -/
theorem Snippet.shows_ofLine {number k : Nat} {title begun rest : List Char} {s : Snippet}
    (htitle : '\n' ∉ title) (hline : '\n' ∉ (begun ++ rest).dropLast)
    (h : ofLine number ⟨k, begun ++ rest, Text.byteSize begun⟩ = .ok s) :
    ∃ lead shown trail,
      Sheet.Shows ⟨title, s.ruler, s.row, s.pointer⟩ number begun rest lead shown trail := by
  obtain ⟨-, rfl⟩ := ofLine_eq_ok_iff.mp h
  have htrimmed := trimmed_trim (begun ++ rest)
  refine ⟨_, _, _, ⟨?_, ⟨_, rfl⟩, htrimmed, rfl, bar_iff _, caret_iff _, ?_, ?_⟩⟩
  · intro line hmem
    rcases List.mem_cons.mp hmem with rfl | hmem
    · exact htitle
    · exact newline_not_mem_lines (htrimmed.newline_not_mem hline) line hmem
  · exact List.getLast?_concat
  · intro i c hcaret hc hwhite
    have hplace : (begun ++ rest)[begun.length]? = some c := by
      rw [List.getElem?_append_right (Nat.le_refl _), Nat.sub_self, ← List.head?_eq_getElem?, hc]
    exact getElem?_row_of_caret (htrimmed.getElem?_shown hplace hwhite) hcaret

/-- A report is rendered as its title and the snippet of the line it points into. -/
theorem Report.render_eq_ok_iff {source : String} {r : Report} {l : Text.Line} {text : String}
    (h : Text.lineAt? source.toList r.position.offset = some l) :
    r.render source = .ok text ↔
      ∃ s, Snippet.ofLine r.position.line.toNat l = .ok s ∧ text = r.header ++ s.render := by
  rw [render_of_lineAt? h]
  cases Snippet.ofLine r.position.line.toNat l with
  | error e => simp [Except.map]
  | ok s => simp [Except.map, eq_comm]

namespace Reading

/-- Whatever is told in any runs and can be rendered is rendered as a sheet. Under
the title of its report it shows the line of the source that the diagnostic stands
in, behind the number that the diagnostic tells, with the caret below its place. -/
theorem sheet_of_render (source : String) (options : Options) (n : Nat) {d : Diagnostic}
    (hd : d ∈ (ofSource source options).diagnosticsIn n) {text : String}
    (hrender : d.report.render source = .ok text) :
    ∃ (sheet : Sheet) (front begun rest back lead shown trail : List Char),
      text.toList = sheet.text ∧ sheet.title = d.report.title ∧
      Text.PlaceInLine source.toList d.position.offset front begun rest back ∧ rest ≠ [] ∧
      sheet.Shows d.position.line.toNat begun rest lead shown trail := by
  have hpoints := pointsInto_of_mem_diagnosticsIn hd
  obtain ⟨front, begun, rest, back, -, hrest, hplace, hfound⟩ := hpoints.placed
  obtain ⟨-, behind, -, -, hfits⟩ := hpoints
  obtain ⟨s, hsnippet, rfl⟩ := (Report.render_eq_ok_iff hfound).mp hrender
  obtain ⟨lead, shown, trail, hshows⟩ :=
    Snippet.shows_ofLine hfits.newline_not_mem_title hplace.between.newline hsnippet
  refine ⟨_, front, begun, rest, back, lead, shown, trail, ?_, rfl, hplace, hrest, hshows⟩
  rw [String.toList_append, Report.toList_header, Snippet.toList_render]
  rfl

/-- Two blanks and a letter of two bytes in front of the place. -/
theorem sheet_of_render_behind_blanks :
    Diagnostic.error ⟨.loneAt "@", ⟨2, 7⟩⟩ ∈ (ofSource "é\n \té@x ").diagnosticsIn 1 ∧
    (Diagnostic.error ⟨.loneAt "@", ⟨2, 7⟩⟩).report.render "é\n \té@x " =
      .ok ("Error: LoneAt (`@` must be doubled (`@@`) to mark an exemption rule)\n" ++
        "  |\n2 | é@x\n  | -^\n") ∧
    ∃ (sheet : Sheet) (front begun rest back lead shown trail : List Char),
      sheet.title =
        "Error: LoneAt (`@` must be doubled (`@@`) to mark an exemption rule)".toList ∧
      Text.PlaceInLine "é\n \té@x ".toList 7 front begun rest back ∧ rest ≠ [] ∧
      sheet.Shows 2 begun rest lead shown trail := by
  have hmem : Diagnostic.error ⟨.loneAt "@", ⟨2, 7⟩⟩ ∈
      (ofSource "é\n \té@x ").diagnosticsIn 1 := by
    decide +kernel
  have hrender : (Diagnostic.error ⟨.loneAt "@", ⟨2, 7⟩⟩).report.render "é\n \té@x " =
      .ok ("Error: LoneAt (`@` must be doubled (`@@`) to mark an exemption rule)\n" ++
        "  |\n2 | é@x\n  | -^\n") := by
    decide +kernel
  have hreport : (Diagnostic.error ⟨.loneAt "@", ⟨2, 7⟩⟩).report.title =
      "Error: LoneAt (`@` must be doubled (`@@`) to mark an exemption rule)".toList := by
    decide +kernel
  obtain ⟨sheet, front, begun, rest, back, lead, shown, trail, -, htitle, hplace, hrest, hshows⟩ :=
    sheet_of_render "é\n \té@x " {} 1 hmem hrender
  exact ⟨hmem, hrender, sheet, front, begun, rest, back, lead, shown, trail,
    htitle.trans hreport, hplace, hrest, hshows⟩

end Reading

end FilterList
