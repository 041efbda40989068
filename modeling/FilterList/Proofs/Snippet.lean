import FilterList.Snippet
import Mathlib.Data.List.DropRight
import Mathlib.Data.List.TakeWhile

/-!
# What a snippet shows

A snippet has three lines: a bar, the line of the source behind its number, and
a caret behind a bar. The line is shown without its blanks in front and its
white space behind; `Trimmed` tells this part of a line without cutting it out.
The caret moves to the left with the text, up to the first column that is shown.

Results:
* `trimmed_trim`, `ofLine_eq_ok_iff`: what a snippet shows of a line.
* `Trimmed.newline_not_mem`: nothing of a line break is shown.
* `Trimmed.getElem?_shown`: where a character of the line is shown.
* `toList_render`, `newline_not_mem_lines`: a snippet is rendered as three lines.
* `bar_iff`, `caret_iff`: the columns of the bar and of the caret.
-/
namespace FilterList

/-- The part `shown` of a line stands between blanks and white space, as much
of them as there is. -/
structure Trimmed (line lead shown trail : List Char) : Prop where
  line_eq : line = lead ++ shown ++ trail
  lead_blank : ∀ c ∈ lead, c = ' ' ∨ c = '\t'
  lead_maximal : ∀ c ∈ (shown ++ trail).head?, c ≠ ' ' ∧ c ≠ '\t'
  trail_white : ∀ c ∈ trail, Unicode.isWhiteSpace c = true
  trail_maximal : ∀ c ∈ shown.getLast?, Unicode.isWhiteSpace c = false

theorem Unicode.isWhiteSpace_of_blank {c : Char} (h : c = ' ' ∨ c = '\t') :
    Unicode.isWhiteSpace c = true := by
  rcases h with rfl | rfl
  · decide
  · decide

namespace Trimmed

variable {text lead shown trail : List Char}

/-- A newline can only stand at the end of a line, where it counts as white space. -/
theorem newline_not_mem (h : Trimmed text lead shown trail) (hline : '\n' ∉ text.dropLast) :
    '\n' ∉ shown := by
  intro hmem
  obtain ⟨front, back, rfl⟩ := List.append_of_mem hmem
  have hback : back ≠ [] := by
    rintro rfl
    have hlast := h.trail_maximal '\n' (by simp)
    revert hlast
    decide
  apply hline
  have hsplit : text = lead ++ front ++ ['\n'] ++ (back ++ trail) := by
    rw [h.line_eq]
    simp
  rw [hsplit, List.dropLast_append_of_ne_nil (List.append_ne_nil_of_left_ne_nil hback trail)]
  simp

/-- A character that is not white space is shown, as many columns to the left
as there are blanks in front of the line. -/
theorem getElem?_shown (h : Trimmed text lead shown trail) {column : Nat} {c : Char}
    (hc : text[column]? = some c) (hwhite : Unicode.isWhiteSpace c = false) :
    shown[column - lead.length]? = some c := by
  rw [h.line_eq, List.append_assoc, List.getElem?_append] at hc
  split at hc
  · have hblank := h.lead_blank c (List.mem_of_getElem? hc)
    rw [Unicode.isWhiteSpace_of_blank hblank] at hwhite
    cases hwhite
  · rw [List.getElem?_append] at hc
    split at hc
    · exact hc
    · rw [h.trail_white c (List.mem_of_getElem? hc)] at hwhite
      cases hwhite

end Trimmed

namespace Snippet

theorem isBlank_iff {c : Char} : isBlank c = true ↔ c = ' ' ∨ c = '\t' := by
  simp [isBlank]

/-- A snippet shows the trimmed line, and its indent counts the blanks in front. -/
theorem trimmed_trim (line : List Char) :
    Trimmed line (line.takeWhile isBlank) (trim line)
      ((line.dropWhile isBlank).rtakeWhile Unicode.isWhiteSpace) := by
  have hshown : trim line ++ (line.dropWhile isBlank).rtakeWhile Unicode.isWhiteSpace =
      line.dropWhile isBlank := List.rdropWhile_append_rtakeWhile
  refine ⟨?_, ?_, ?_, ?_, ?_⟩
  · rw [List.append_assoc, hshown, List.takeWhile_append_dropWhile]
  · intro c hc
    exact isBlank_iff.mp (List.mem_takeWhile_imp hc)
  · intro c hc
    have hblank := List.head?_dropWhile_not isBlank line
    rw [hshown] at hc
    rw [hc] at hblank
    simpa [isBlank] using hblank
  · intro c hc
    exact List.mem_rtakeWhile_imp hc
  · intro c hc
    obtain ⟨hne, rfl⟩ := List.mem_getLast?_eq_getLast hc
    have hlast := List.rdropWhile_last_not Unicode.isWhiteSpace (line.dropWhile isBlank) hne
    exact Bool.eq_false_iff.mpr hlast

/-- A place behind `begun` in a line has a snippet unless its caret is too far right. -/
theorem ofLine_eq_ok_iff {number k : Nat} {begun rest : List Char} {s : Snippet} :
    ofLine number ⟨k, begun ++ rest, Text.byteSize begun⟩ = .ok s ↔
      begun.length - indent (begun ++ rest) + 1 ≤ caretLimit ∧
        s = ⟨number, trim (begun ++ rest), begun.length - indent (begun ++ rest)⟩ := by
  simp only [ofLine, Text.columnAt?_append]
  split
  · next hle => simp [hle, eq_comm]
  · next hlt => simp [hlt]

/-! ## The three lines -/

/-- A bar below the one behind the number. -/
def ruler (s : Snippet) : List Char :=
  List.replicate (s.number.repr.length + 1) ' ' ++ ['|']

/-- The number of a line and the bar behind it. -/
def margin (number : Nat) : List Char :=
  number.repr.toList ++ [' ', '|', ' ']

/-- What is shown of the line. -/
def row (s : Snippet) : List Char :=
  margin s.number ++ s.text

/-- The caret behind dashes and a bar. -/
def pointer (s : Snippet) : List Char :=
  s.ruler ++ [' '] ++ List.replicate s.caret '-' ++ ['^']

theorem toList_render (s : Snippet) :
    s.render.toList = [s.ruler, s.row, s.pointer].flatMap fun line => line ++ ['\n'] := by
  simp [render, gutter, ruler, row, margin, pointer]

@[simp]
theorem length_toDigits (n : Nat) : (Nat.toDigits 10 n).length = n.repr.length := by
  rw [← Nat.toList_repr, String.length_toList]

theorem not_mem_toDigits {c : Char} (hc : c.isDigit = false) (n : Nat) : c ∉ Nat.toDigits 10 n := by
  intro h
  rw [Nat.isDigit_of_mem_toDigits (by decide) (by decide) h] at hc
  cases hc

theorem newline_not_mem_lines {s : Snippet} (htext : '\n' ∉ s.text) :
    ∀ line ∈ [s.ruler, s.row, s.pointer], '\n' ∉ line := by
  have hnumber : '\n' ∉ Nat.toDigits 10 s.number := not_mem_toDigits (by decide) s.number
  simp [ruler, row, margin, pointer, hnumber, htext]

/-! ## Columns -/

/-- A character that occurs once stands at one place. -/
theorem getElem?_eq_some_iff_of_not_mem {front back : List Char} {c : Char} (hfront : c ∉ front)
    (hback : c ∉ back) (i : Nat) : (front ++ c :: back)[i]? = some c ↔ i = front.length := by
  constructor
  · intro h
    rw [List.getElem?_append] at h
    split at h
    · exact absurd (List.mem_of_getElem? h) hfront
    · cases hi : i - front.length with
      | zero => omega
      | succ j =>
        rw [hi, List.getElem?_cons_succ] at h
        exact absurd (List.mem_of_getElem? h) hback
  · rintro rfl
    simp

theorem margin_bar_iff (number i : Nat) :
    (margin number)[i]? = some '|' ↔ i = number.repr.length + 1 := by
  have hfront : '|' ∉ number.repr.toList ++ [' '] := by
    simpa using not_mem_toDigits (by decide) number
  have hmargin : margin number = number.repr.toList ++ [' '] ++ '|' :: [' '] := by
    simp [margin]
  rw [hmargin, getElem?_eq_some_iff_of_not_mem hfront (by decide)]
  simp

/-- The bar in front of the caret stands below the one behind the number. -/
theorem bar_iff (s : Snippet) (i : Nat) :
    s.pointer[i]? = some '|' ↔ (margin s.number)[i]? = some '|' := by
  have hpointer : s.pointer = List.replicate (s.number.repr.length + 1) ' ' ++
      '|' :: ([' '] ++ List.replicate s.caret '-' ++ ['^']) := by
    simp [pointer, ruler]
  rw [margin_bar_iff, hpointer, getElem?_eq_some_iff_of_not_mem (by simp) (by simp)]
  simp

theorem caret_iff (s : Snippet) (i : Nat) :
    s.pointer[i]? = some '^' ↔ i = s.number.repr.length + 3 + s.caret := by
  rw [pointer, getElem?_eq_some_iff_of_not_mem (by simp [ruler]) (by simp)]
  simp only [ruler, List.length_append, List.length_replicate, List.length_singleton]

theorem length_margin (number : Nat) : (margin number).length = number.repr.length + 3 := by
  simp [margin]

/-- Below a character that is shown in the column of the caret stands the caret. -/
theorem getElem?_row_of_caret {s : Snippet} {c : Char} (htext : s.text[s.caret]? = some c) {i : Nat}
    (hcaret : s.pointer[i]? = some '^') : s.row[i]? = some c := by
  rw [caret_iff, ← length_margin] at hcaret
  rw [hcaret, row, List.getElem?_append_right (Nat.le_add_right _ _), Nat.add_sub_cancel_left]
  exact htext

end Snippet

end FilterList
