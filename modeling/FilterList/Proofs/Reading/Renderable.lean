import FilterList.Proofs.Reading.Rendered
import FilterList.Proofs.Text.LineAt

/-!
# What can be rendered

A report may point anywhere. Two kinds of places in a source cannot be shown: a
byte inside a character, and a place so far along its line that the field of the
caret would be wider than fields are. A place behind the end of the source is
told by its line number, and every other place has a snippet.

What a reading tells of its source never lies inside a character, so only the
length of a line can keep it from being shown.

Results:
* `render_eq_splitCharacter_iff`, `render_eq_caretTooFar_iff`: when a report
  cannot be rendered, for either reason.
* `PointsInto.render`: a diagnostic in a source of short lines is rendered.
* `mem_diagnosticsIn_of_mem_warnings`: a reading keeps what it has told.
* `render_error_exact`: which reports of a source cannot be rendered, and that
  the diagnostics of a source of short lines all can.
-/
namespace FilterList

/-! ## Places of a line -/

/-- The byte of a line that is found splits the source where it splits the line. -/
theorem Text.Line.Located.isValid_iff {l : Text.Line} {number offset : Nat} {source : String}
    {front back : List Char} (h : l.Located number source.toList front back offset) :
    (⟨offset⟩ : String.Pos.Raw).IsValid source ↔
      ∃ column, Text.columnAt? l.text l.offset = some column := by
  have hoffset := h.offset_eq
  have htext : source.toList = front ++ (l.text ++ back) := by
    rw [h.between.text_eq, List.append_assoc]
  constructor
  · intro hvalid
    obtain ⟨before, behind, hsplit, hbefore⟩ := Text.exists_split_of_isValid hvalid
    obtain ⟨begun, rfl, hbegun⟩ := Text.exists_between (htext.symm.trans hsplit) (by omega)
    rw [Text.byteSize_append] at hbefore
    have hle : Text.byteSize begun ≤ Text.byteSize l.text := by
      rcases h.within with hlt | ⟨heq, -, -⟩ <;> omega
    obtain ⟨rest, hline, -⟩ := Text.exists_between hbegun.symm hle
    exact ⟨_, Text.columnAt?_eq_some_iff.mpr ⟨begun, rest, hline, by omega, rfl⟩⟩
  · intro hcolumn
    obtain ⟨column, hcolumn⟩ := hcolumn
    obtain ⟨begun, rest, hline, hbegun, -⟩ := Text.columnAt?_eq_some_iff.mp hcolumn
    have hsplit : source.toList = (front ++ begun) ++ (rest ++ back) := by
      rw [htext, hline]
      simp
    have hvalid := Text.isValid_byteSize hsplit
    rwa [Text.byteSize_append, hbegun, hoffset] at hvalid

/-- The indent of a line counts the blanks in front of what is shown of it. -/
theorem Trimmed.indent_eq {line lead shown trail : List Char} (h : Trimmed line lead shown trail) :
    Snippet.indent line = lead.length := by
  have hlead : ∀ c ∈ lead, Snippet.isBlank c = true := by
    intro c hc
    exact Snippet.isBlank_iff.mpr (h.lead_blank c hc)
  have hshown : (shown ++ trail).takeWhile Snippet.isBlank = [] := by
    cases hhead : shown ++ trail with
    | nil => rfl
    | cons c behind =>
      have hblank := h.lead_maximal c (by rw [hhead]; rfl)
      rw [List.takeWhile_cons_of_neg (by simpa [Snippet.isBlank] using hblank)]
  rw [Snippet.indent, h.line_eq, List.append_assoc, List.takeWhile_append_of_pos hlead, hshown,
    List.append_nil]

/-- The field of the caret below this byte of the source is wider than `limit`. It
holds the caret, and a dash for each character of the line in front of the byte,
but for the blanks that the line starts with. -/
def Snippet.WiderThan (limit : Nat) (source : List Char) (offset : Nat) : Prop :=
  ∃ front begun rest back lead shown trail,
    Text.PlaceInLine source offset front begun rest back ∧
    Trimmed (begun ++ rest) lead shown trail ∧ limit < begun.length - lead.length + 1

namespace Report

variable {source : String} {r : Report}

/-! ## Reports that cannot be rendered -/

theorem render_eq_error_iff_of_lineAt? {l : Text.Line} {e : RenderError}
    (h : Text.lineAt? source.toList r.position.offset = some l) :
    r.render source = .error e ↔ Snippet.ofLine r.position.line.toNat l = .error e := by
  rw [render_of_lineAt? h]
  cases Snippet.ofLine r.position.line.toNat l <;> simp [Except.map]

/-- A report that cannot be rendered points into the source or at its end. -/
theorem offset_le_of_render_error {e : RenderError} (h : r.render source = .error e) :
    r.position.offset ≤ source.utf8ByteSize := by
  by_contra hlt
  have hok := isOk_render (Nat.lt_of_not_le hlt)
  rw [h] at hok
  cases hok

theorem render_eq_splitCharacter_iff :
    r.render source = .error .splitCharacter ↔
      r.position.offset ≤ source.utf8ByteSize ∧
        ¬ (⟨r.position.offset⟩ : String.Pos.Raw).IsValid source := by
  rcases Nat.lt_or_ge source.utf8ByteSize r.position.offset with hlt | hle
  · constructor
    · intro h
      exact absurd (offset_le_of_render_error h) (Nat.not_le.mpr hlt)
    · intro h
      exact absurd h.1 (Nat.not_le.mpr hlt)
  · rw [← Text.byteSize_toList] at hle
    obtain ⟨front, back, hlocated⟩ := Text.lineFrom_located 1 source.toList _ hle
    rw [render_eq_error_iff_of_lineAt? (if_pos hle), Snippet.ofLine_eq_splitCharacter_iff,
      hlocated.isValid_iff]
    simp [← Text.byteSize_toList, hle, Option.eq_none_iff_forall_ne_some]

/-- At a place of a line only the width of the field decides. -/
theorem render_eq_caretTooFar_iff_of_placed {front begun rest back lead shown trail : List Char}
    (hplace : Text.PlaceInLine source.toList r.position.offset front begun rest back)
    (htrimmed : Trimmed (begun ++ rest) lead shown trail) :
    r.render source = .error .caretTooFar ↔ 65535 < begun.length - lead.length + 1 := by
  rw [render_eq_error_iff_of_lineAt? hplace.lineAt?_eq, Snippet.ofLine_eq_caretTooFar_iff,
    htrimmed.indent_eq]
  simp [Text.columnAt?_append, Snippet.caretLimit]

theorem render_eq_caretTooFar_iff :
    r.render source = .error .caretTooFar ↔
      Snippet.WiderThan 65535 source.toList r.position.offset := by
  constructor
  · intro h
    have hle := offset_le_of_render_error h
    -- no byte inside a character: that is the other reason
    have hvalid : (⟨r.position.offset⟩ : String.Pos.Raw).IsValid source := by
      by_contra hinside
      rw [render_eq_splitCharacter_iff.mpr ⟨hle, hinside⟩] at h
      cases h
    obtain ⟨before, behind, hsplit, hbefore⟩ := Text.exists_split_of_isValid hvalid
    obtain ⟨front, begun, rest, back, hplace, -⟩ := Text.lineAt?_eq_placed before behind
    rw [← hsplit, hbefore] at hplace
    have htrimmed := Snippet.trimmed_trim (begun ++ rest)
    exact ⟨front, begun, rest, back, _, _, _, hplace, htrimmed,
      (render_eq_caretTooFar_iff_of_placed hplace htrimmed).mp h⟩
  · intro h
    obtain ⟨front, begun, rest, back, lead, shown, trail, hplace, htrimmed, hlong⟩ := h
    exact (render_eq_caretTooFar_iff_of_placed hplace htrimmed).mpr hlong

end Report

/-! ## Diagnostics of a source of short lines -/

/-- A line of the source has at most `limit` characters, its newline among them. -/
def Text.LinesWithin (limit : Nat) (source : List Char) : Prop :=
  ∀ number line, Text.IsLine source number line → line.length ≤ limit

theorem Diagnostic.PointsInto.isValid {source : String} {d : Diagnostic}
    (h : d.PointsInto source.toList) :
    (⟨d.position.offset⟩ : String.Pos.Raw).IsValid source := by
  obtain ⟨before, behind, hsource, hposition, -⟩ := h
  rw [hposition, Position.offset_origin_advance]
  exact Text.isValid_byteSize hsource

/-- The caret of a diagnostic stands below a character of its line, so a line that
is not longer than the widest field has room for it. -/
theorem Diagnostic.PointsInto.render {source : String} {d : Diagnostic}
    (h : d.PointsInto source.toList) (hshort : Text.LinesWithin 65535 source.toList) :
    ∃ text, d.report.render source = .ok text := by
  obtain ⟨front, begun, rest, back, -, hrest, hplace, hfound⟩ := h.placed
  have hlength := hshort _ _ ⟨front, back, hplace.between, rfl⟩
  have hpos := List.length_pos_iff.mpr hrest
  rw [List.length_append] at hlength
  have hfits : begun.length - Snippet.indent (begun ++ rest) + 1 ≤ Snippet.caretLimit := by
    unfold Snippet.caretLimit
    omega
  exact ⟨_, (Report.render_eq_ok_iff hfound).mpr ⟨_, Snippet.ofLine_eq_ok_iff.mpr ⟨hfits, rfl⟩, rfl⟩⟩

theorem exists_mapM_eq_ok {α β ε : Type} {f : α → Except ε β} {l : List α}
    (h : ∀ a ∈ l, ∃ b, f a = .ok b) : ∃ bs, l.mapM f = .ok bs := by
  induction l with
  | nil => exact ⟨[], rfl⟩
  | cons a l ih =>
    obtain ⟨b, hb⟩ := h a List.mem_cons_self
    obtain ⟨bs, hbs⟩ := ih fun a ha => h a (List.mem_cons_of_mem _ ha)
    exact ⟨b :: bs, by rw [List.mapM_cons, hb, hbs]; rfl⟩

theorem Options.keep_subset (o : Options) (stored : Nat) (ws : List Warning) :
    o.keep stored ws ⊆ ws := by
  unfold keep
  split
  · exact List.Subset.refl ws
  · exact List.take_subset _ ws

namespace Reading

/-- The warnings that a reading keeps have been told. -/
theorem mem_diagnosticsIn_of_mem_warnings {source : String} {options : Options} {n : Nat}
    {w : Warning} (h : w ∈ ((ofSource source options).after n).warnings) :
    .warning w ∈ (ofSource source options).diagnosticsIn n := by
  induction n with
  | zero => cases h
  | succ n ih =>
    rw [after, warnings_run] at h
    rcases List.mem_append.mp h with hearlier | hkept
    · exact List.mem_append_left _ (ih hearlier)
    · have htold := Options.keep_subset _ _ _ hkept
      rw [← reported_run] at htold
      exact List.mem_append_right _ (List.mem_append_left _ (List.mem_map_of_mem htold))

/-- What a reading shows can be shown when each piece of it can. -/
theorem exists_render_eq_ok {r : Reading} {error : Option Error}
    (hwarnings : ∀ w ∈ r.warnings, ∃ text, (Diagnostic.warning w).report.render r.source = .ok text)
    (herror : ∀ e ∈ error, ∃ text, (Diagnostic.error e).report.render r.source = .ok text) :
    ∃ rendering, r.render error = .ok rendering := by
  obtain ⟨warnings, hwarnings⟩ := exists_mapM_eq_ok hwarnings
  cases error with
  | none => exact ⟨⟨warnings, none⟩, by rw [Reading.render, hwarnings]; rfl⟩
  | some e =>
    obtain ⟨text, htext⟩ := herror e rfl
    refine ⟨⟨warnings, some text⟩, ?_⟩
    rw [Reading.render, hwarnings, Option.mapM_some, htext]
    rfl

/-- A report cannot be rendered exactly when it points inside a character of the
source, or so far along a line that the field of the caret would be too wide. The
diagnostics of a reading never point inside a character, and all of them are
rendered when the lines of the source are short enough. -/
theorem render_error_exact (source : String) :
    (∀ r : Report, (∃ e, r.render source = .error e) ↔
      r.position.offset ≤ source.utf8ByteSize ∧
        (¬ (⟨r.position.offset⟩ : String.Pos.Raw).IsValid source ∨
          Snippet.WiderThan 65535 source.toList r.position.offset)) ∧
    ∀ (options : Options) (n : Nat),
      (∀ d ∈ (ofSource source options).diagnosticsIn n,
        (⟨d.position.offset⟩ : String.Pos.Raw).IsValid source) ∧
      (Text.LinesWithin 65535 source.toList →
        (∀ d ∈ (ofSource source options).diagnosticsIn n,
          ∃ text, d.report.render source = .ok text) ∧
        ∃ rendering, ((ofSource source options).after n).run.reading.render
          ((ofSource source options).after n).run.error? = .ok rendering) := by
  refine ⟨fun r => ⟨?_, ?_⟩, fun options n => ⟨?_, fun hshort => ?_⟩⟩
  · intro h
    obtain ⟨e, h⟩ := h
    refine ⟨Report.offset_le_of_render_error h, ?_⟩
    cases e with
    | splitCharacter => exact Or.inl (Report.render_eq_splitCharacter_iff.mp h).2
    | caretTooFar => exact Or.inr (Report.render_eq_caretTooFar_iff.mp h)
  · intro h
    obtain ⟨hle, hinside | hwide⟩ := h
    · exact ⟨_, Report.render_eq_splitCharacter_iff.mpr ⟨hle, hinside⟩⟩
    · exact ⟨_, Report.render_eq_caretTooFar_iff.mpr hwide⟩
  · intro d hd
    exact (pointsInto_of_mem_diagnosticsIn hd).isValid
  · have hall : ∀ (n : Nat), ∀ d ∈ (ofSource source options).diagnosticsIn n,
        ∃ text, d.report.render source = .ok text := by
      intro n d hd
      exact (pointsInto_of_mem_diagnosticsIn hd).render hshort
    refine ⟨hall n, exists_render_eq_ok ?_ ?_⟩
    · intro w hw
      rw [source_run, source_after]
      exact hall (n + 1) _ (mem_diagnosticsIn_of_mem_warnings hw)
    · intro e he
      rw [source_run, source_after]
      refine hall (n + 1) _ (List.mem_append_right _ (List.mem_append_right _ ?_))
      simp [Option.mem_def.mp he]

/-- A report that points inside the letter, and the error behind it. -/
theorem render_error_exact_behind_letter :
    (∃ e, Report.render "é@" ⟨"Note", "Letter", none, ⟨1, 1⟩⟩ = .error e) ∧
    Diagnostic.error ⟨.loneAt "@", ⟨1, 2⟩⟩ ∈ (ofSource "é@").diagnosticsIn 1 ∧
    Text.LinesWithin 65535 "é@".toList ∧
    (∃ text, (Diagnostic.error ⟨.loneAt "@", ⟨1, 2⟩⟩).report.render "é@" = .ok text) ∧
    ∃ rendering, ((ofSource "é@").after 1).run.reading.render
      ((ofSource "é@").after 1).run.error? = .ok rendering := by
  have hmem : Diagnostic.error ⟨.loneAt "@", ⟨1, 2⟩⟩ ∈ (ofSource "é@").diagnosticsIn 1 := by
    decide +kernel
  have hshort : Text.LinesWithin 65535 "é@".toList := by
    intro number line hline
    obtain ⟨front, back, hbetween, -⟩ := hline
    have hlength := congrArg List.length hbetween.text_eq
    have htwo : "é@".toList.length = 2 := by decide
    rw [htwo, List.length_append, List.length_append] at hlength
    omega
  have hinside : ¬ (⟨1⟩ : String.Pos.Raw).IsValid "é@" := by decide +kernel
  obtain ⟨hreports, hreading⟩ := render_error_exact "é@"
  obtain ⟨-, hdiagnostics⟩ := hreading {} 1
  obtain ⟨hrendered, hrendering⟩ := hdiagnostics hshort
  exact ⟨(hreports _).mpr ⟨by decide, Or.inl hinside⟩, hmem, hshort, hrendered _ hmem, hrendering⟩

end Reading

end FilterList
