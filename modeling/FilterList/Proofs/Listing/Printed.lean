import FilterList.Proofs.Listing.Layout

/-!
# Printed listings

A layout is printed with a space behind each mark and newlines down to each
line. Read again, the text has the listing that the layout stands for: spaces
and newlines are stray characters and no marks, and they keep the marks apart.

Conversely every listing can be printed. The lines of its marks never go back,
because a line number that does not wrap only grows on the way over a text.

Results:
* `lists_printFrom`: what is printed from a line on lists the layout.
* `ascending_entries`: the lines of a division ascend up to where it stops.
* `tokensOf_print`: a printed layout has its listing, and every listing is that
  of a printed layout.
-/
namespace FilterList

namespace Layout

/-- Entries that ascend from some line on also do so from a line before it. -/
theorem Ascending.of_le {here there last : UInt32} {entries : List (Mark × UInt32)}
    (h : Ascending there last entries) (hle : here ≤ there) : Ascending here last entries := by
  cases entries with
  | nil => exact UInt32.le_trans hle h
  | cons entry entries => exact ⟨UInt32.le_trans hle h.1, h.2⟩

end Layout

/-! ## Lines on the way over a text -/

/-- The newlines that are printed lead to the line they are printed for. -/
theorem Position.line_advance_newlines {start : Position} {there : UInt32}
    (h : start.line ≤ there) : (start.advance (Layout.newlines start.line there)).line = there := by
  have hle := UInt32.le_iff_toNat_le.mp h
  have hlt := there.toNat_lt
  have hcount := Layout.count_newlines start.line there
  apply UInt32.toNat_inj.mp
  rw [Position.toNat_line_advance (by omega), hcount]
  omega

/-- A line number that does not wrap only grows. -/
theorem Position.line_le_advance {start : Position} {text : List Char}
    (h : start.line.toNat + text.count '\n' < 2 ^ 32) : start.line ≤ (start.advance text).line := by
  rw [UInt32.le_iff_toNat_le, Position.toNat_line_advance h]
  omega

/-! ## Reading what is printed -/

namespace Division

variable {start : Position} {rest : List Char} {layout : Layout}

theorem Lists.replicate_newline {count : Nat}
    (h : (ofText (start.advance (List.replicate count '\n')) rest).Lists layout) :
    (ofText start (List.replicate count '\n' ++ rest)).Lists layout := by
  induction count generalizing start with
  | zero => exact h
  | succ count ih => exact Lists.stray (by decide) (ih h)

/-- Behind the newlines that are printed a text is read on the line they lead to. -/
theorem lists_newlines {there : UInt32} (hle : start.line ≤ there)
    (h : ∀ p : Position, p.line = there → (ofText p rest).Lists layout) :
    (ofText start (Layout.newlines start.line there ++ rest)).Lists layout :=
  Lists.replicate_newline (h _ (Position.line_advance_newlines hle))

/-- What is printed from a line on lists the entries and the last line. -/
theorem lists_printFrom {last : UInt32} {entries : List (Mark × UInt32)}
    (h : Layout.Ascending start.line last entries) :
    (ofText start (Layout.printFrom start.line last entries)).Lists ⟨entries, last⟩ := by
  induction entries generalizing start with
  | nil =>
    rw [Layout.printFrom, ← List.append_nil (Layout.newlines _ _)]
    refine lists_newlines h fun p hp => ?_
    rw [← hp]
    exact lists_nil p
  | cons entry entries ih =>
    obtain ⟨m, line⟩ := entry
    obtain ⟨hle, hentries⟩ := h
    rw [Layout.printFrom, List.append_assoc, List.append_assoc]
    refine lists_newlines hle fun p hp => ?_
    -- the space behind the mark ends it, and neither leaves the line
    have hend (behind : List Char) : (Segment.mark m).EndsAt (' ' :: behind) :=
      ((Segment.mark m).endsAt_cons_iff (by decide) (by decide) behind).mpr ⟨by simp, by simp⟩
    have hline : ((p.advance m.spelling).next ' ').line = line := by
      rw [← hp]
      exact Position.line_advance_of_not_mem m.newline_not_mem_spelling
    have hrest := ih (by rw [hline]; exact hentries)
    rw [hline] at hrest
    have hmark := (hrest.stray (by decide)).mark (hend _)
    rw [hp] at hmark
    exact hmark

/-! ## The layout of what is read -/

/-- The lines of the marks ascend from the start of the text to where the division
of it stops. -/
theorem ascending_entries {text : List Char}
    (h : start.line.toNat + text.count '\n' < 2 ^ 32) :
    Layout.Ascending start.line (ofText start text).layout.last
      (ofText start text).layout.entries := by
  induction text using item_induction generalizing start with
  | nil =>
    rw [ofText_nil]
    exact UInt32.le_refl start.line
  | segment s rest hshape hend ih =>
    rw [List.count_append] at h
    have hle := @Position.line_le_advance start s.text (by omega)
    have hrest := @ih (start.advance s.text) (by rw [Position.toNat_line_advance (by omega)]; omega)
    rw [ofText_segment_append start hshape hend, entries_push]
    -- what ascends from the end of the segment on ascends from its start on
    cases s.mark? with
    | none => exact hrest.of_le hle
    | some m => exact ⟨UInt32.le_refl start.line, hrest.of_le hle⟩
  | fragment f rest hend =>
    rw [List.count_append] at h
    rw [ofText_fragment_append start hend]
    exact @Position.line_le_advance start f.text (by omega)

end Division

/-- A printed layout is read as the tokens that it stands for, and every listing
is that of a layout, so it is read again from what is printed for it. -/
theorem tokensOf_print :
    (∀ layout : Layout, layout.WellFormed → tokensOf layout.print = .ok layout.tokens) ∧
    ∀ (source : String) (tokens : List Token), source.toList.count '\n' ≤ 2 ^ 32 - 2 →
      tokensOf source = .ok tokens →
      ∃ layout : Layout, layout.WellFormed ∧ layout.tokens = tokens ∧
        tokensOf layout.print = .ok tokens := by
  have hprint : ∀ layout : Layout, layout.WellFormed → tokensOf layout.print = .ok layout.tokens := by
    intro layout hlayout
    have hlists := @Division.lists_printFrom .origin layout.last layout.entries hlayout
    refine tokensOf_eq_ok_iff_lists.mpr ⟨layout, ?_, rfl⟩
    rw [Layout.print, String.toList_ofList]
    exact hlists
  refine ⟨hprint, ?_⟩
  intro source tokens hlines hok
  obtain ⟨layout, ⟨hfault, rfl⟩, rfl⟩ := tokensOf_eq_ok_iff_lists.mp hok
  have hfit : Position.origin.line.toNat + source.toList.count '\n' < 2 ^ 32 := by
    have horigin : Position.origin.line.toNat = 1 := rfl
    omega
  have hlayout : (Division.ofText .origin source.toList).layout.WellFormed :=
    Division.ascending_entries hfit
  exact ⟨_, hlayout, rfl, hprint _ hlayout⟩

/-- Two marks on the third line, and a source with strays and a comment. -/
theorem tokensOf_print_two_marks :
    Layout.WellFormed ⟨[(.anchor, 3), (.domainAnchor, 3)], 4⟩ ∧
    Layout.print ⟨[(.anchor, 3), (.domainAnchor, 3)], 4⟩ = "\n\n| || \n" ∧
    tokensOf "\n\n| || \n" =
      .ok [Token.ofMark .anchor 3, Token.ofMark .domainAnchor 3, Token.endOfInput 4] ∧
    "|#\n##a!@".toList.count '\n' ≤ 2 ^ 32 - 2 ∧
    tokensOf "|#\n##a!@" =
      .ok [Token.ofMark .anchor 1, Token.ofMark .cssSeparator 2, Token.endOfInput 2] ∧
    ∃ layout : Layout, layout.WellFormed ∧
      layout.tokens = [Token.ofMark .anchor 1, Token.ofMark .cssSeparator 2, Token.endOfInput 2] ∧
      tokensOf layout.print =
        .ok [Token.ofMark .anchor 1, Token.ofMark .cssSeparator 2, Token.endOfInput 2] := by
  have hlayout : Layout.WellFormed ⟨[(.anchor, 3), (.domainAnchor, 3)], 4⟩ := by
    simp [Layout.WellFormed, Layout.Ascending]
  have hprint : Layout.print ⟨[(.anchor, 3), (.domainAnchor, 3)], 4⟩ = "\n\n| || \n" := by
    decide
  have hlines : "|#\n##a!@".toList.count '\n' ≤ 2 ^ 32 - 2 := by decide
  have hok : tokensOf "|#\n##a!@" =
      .ok [Token.ofMark .anchor 1, Token.ofMark .cssSeparator 2, Token.endOfInput 2] := by
    decide +kernel
  have hread := tokensOf_print.1 _ hlayout
  rw [hprint] at hread
  exact ⟨hlayout, hprint, hread, hlines, hok, tokensOf_print.2 _ _ hlines hok⟩

end FilterList
