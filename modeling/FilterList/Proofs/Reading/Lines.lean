import FilterList.Proofs.Reading.Diagnostics
import FilterList.Proofs.Reading.Session
import FilterList.Proofs.Text.Line
import FilterList.Rendering

/-!
# The lines that are reported

A reading counts the newlines that it reads; a report is shown with the line
that is found by cutting up the source afterwards. The two agree wherever a
reading can stand: the number a diagnostic carries is that of the line found at
its offset, and the number on the token that closes the tokens is that of the
last line.

Results:
* `PointsInto.placed`, `lineAt?_of_pointsInto`: the line found where a
  diagnostic points.
* `eq_endOfInput_of_mem`: the tokens that close the tokens are all the same.
* `lineAt?_diagnosticsIn`: in any runs the lines that are reported are those
  that are found, and the snippet of a diagnostic shows the line of its number.
-/
namespace FilterList

/-- The line `l` holds the place of the diagnostic, in front of a text that is
not empty, and carries its number. -/
structure Diagnostic.OnLine (d : Diagnostic) (source : List Char) (l : Text.Line) : Prop where
  lineAt? : Text.lineAt? source d.position.offset = some l
  number_eq : l.number = d.position.line.toNat
  isLine : Text.IsLine source d.position.line.toNat l.text
  offset_lt : l.offset < Text.byteSize l.text
  behind : ∃ before begun rest back, source = before ++ (rest ++ back) ∧
    Text.byteSize before = d.position.offset ∧ l.text = begun ++ rest ∧
    Text.byteSize begun = l.offset

/-- A diagnostic points into a line, in front of a part of it that is not empty,
and this line is found at its offset. -/
theorem Diagnostic.PointsInto.placed {source : List Char} {d : Diagnostic}
    (h : d.PointsInto source) :
    ∃ front begun rest back, d.position = Position.origin.advance (front ++ begun) ∧ rest ≠ [] ∧
      Text.PlaceInLine source d.position.offset front begun rest back ∧
      Text.lineAt? source d.position.offset =
        some ⟨1 + front.count '\n', begun ++ rest, Text.byteSize begun⟩ := by
  obtain ⟨before, behind, rfl, hposition, hfits⟩ := h
  have hoffset : d.position.offset = Text.byteSize before := by
    rw [hposition, Position.offset_origin_advance]
  obtain ⟨front, begun, rest, back, hplace, hfound⟩ := Text.lineAt?_eq_placed before behind
  rw [← hoffset] at hplace hfound
  obtain ⟨rfl, rfl⟩ := Text.append_inj_of_byteSize_eq hplace.text_eq
    (hoffset.symm.trans hplace.offset_eq.symm)
  exact ⟨front, begun, rest, back, hposition, hplace.rest_ne_nil hfits.ne_nil, hplace, hfound⟩

/-- Where a diagnostic points, the line found is the one it tells. -/
theorem lineAt?_of_pointsInto {source : List Char} {d : Diagnostic}
    (hlines : source.count '\n' ≤ 2 ^ 32 - 2) (h : d.PointsInto source) :
    ∃ l, d.OnLine source l := by
  obtain ⟨front, begun, rest, back, hposition, hrest, hplace, hfound⟩ := h.placed
  have hline : d.position.line.toNat = 1 + front.count '\n' := by
    rw [hplace.text_eq] at hlines
    rw [hposition, Position.toNat_line_origin_of_append hlines, hplace.count_eq]
  have hlt : Text.byteSize begun < Text.byteSize (begun ++ rest) := by
    have hpos := Text.byteSize_pos hrest
    rw [Text.byteSize_append]
    omega
  exact ⟨_, ⟨hfound, hline.symm, ⟨front, back, hplace.between, hline⟩, hlt,
    front ++ begun, begun, rest, back, hplace.text_eq, hplace.offset_eq, rfl, rfl⟩⟩

/-- A report is rendered with the line found at its place. -/
theorem Report.render_of_lineAt? {source : String} {r : Report} {l : Text.Line}
    (h : Text.lineAt? source.toList r.position.offset = some l) :
    r.render source =
      (Snippet.ofLine r.position.line.toNat l).map fun s => r.header ++ s.render := by
  simp only [render, h]

namespace Reading

/-- Every token that closes the tokens of a reached reading stands on the last line. -/
theorem eq_endOfInput_of_mem {source : String} {options : Options} {n : Nat} {t : Token}
    (h : t ∈ ((ofSource source options).after n).tokens) (hkind : t.kind = .endOfInput) :
    t = Token.endOfInput (Position.origin.advance source.toList).line := by
  obtain ⟨marks, htokens, hmarks⟩ := (inSession_after source options n).tokens
  rw [htokens] at h
  rcases List.mem_append.mp h with h | h
  · exact absurd hkind (hmarks t h)
  · rw [source_after] at h
    exact (List.mem_replicate.mp h).2

/-- The line that a diagnostic tells is the one found at its offset, which lies
inside it, and the snippet shows it under that number; the line on each token
for the end is the one found at the end of the source. -/
theorem lineAt?_diagnosticsIn (source : String) (options : Options) (n : Nat)
    (hlines : source.toList.count '\n' ≤ 2 ^ 32 - 2) :
    (∀ d ∈ (ofSource source options).diagnosticsIn n, ∃ l,
      d.OnLine source.toList l ∧
      d.report.render source =
        (Snippet.ofLine l.number l).map fun s => d.report.header ++ s.render) ∧
    ∀ t ∈ ((ofSource source options).after n).tokens, t.kind = .endOfInput →
      ∃ l, Text.lineAt? source.toList source.utf8ByteSize = some l ∧
        l.number = t.line.toNat := by
  constructor
  · intro d hd
    obtain ⟨l, hline⟩ := lineAt?_of_pointsInto hlines (pointsInto_of_mem_diagnosticsIn hd)
    refine ⟨l, hline, ?_⟩
    rw [hline.number_eq]
    exact Report.render_of_lineAt? hline.lineAt?
  · intro t ht hkind
    obtain ⟨l, hfound, -, hnumber, -⟩ := Text.lineAt?_split source.toList []
    rw [List.append_nil, Text.byteSize_toList] at hfound
    refine ⟨l, hfound, ?_⟩
    rw [eq_endOfInput_of_mem ht hkind, hnumber]
    exact (Position.toNat_line_origin_advance hlines).symm

theorem lineAt?_diagnosticsIn_behind_newlines :
    "é#\n@".toList.count '\n' ≤ 2 ^ 32 - 2 ∧
    (∃ l, Diagnostic.OnLine (.error ⟨.loneAt "@", ⟨2, 4⟩⟩) "é#\n@".toList l ∧ l.number = 2) ∧
    ∃ l, Text.lineAt? "é#\n@".toList 5 = some l ∧ l.number = 2 := by
  have hlines : "é#\n@".toList.count '\n' ≤ 2 ^ 32 - 2 := by decide
  have hmem : .error ⟨.loneAt "@", ⟨2, 4⟩⟩ ∈ (ofSource "é#\n@").diagnosticsIn 2 := by
    decide +kernel
  have hclosing : Token.endOfInput 2 ∈ ((ofSource "é#\n@").after 2).tokens := by decide +kernel
  obtain ⟨hdiagnostics, htokens⟩ := lineAt?_diagnosticsIn "é#\n@" {} 2 hlines
  obtain ⟨l, hline, -⟩ := hdiagnostics _ hmem
  exact ⟨hlines, ⟨l, hline, hline.number_eq⟩, htokens _ hclosing rfl⟩

end Reading

end FilterList
