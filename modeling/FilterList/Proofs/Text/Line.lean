import FilterList.Proofs.Text.Offset
import FilterList.Text.Line
import Mathlib.Data.List.TakeWhile

/-!
# Which line holds an offset

A text falls into lines, each up to and over its newline. `IsLine` says which of
them a piece of the text is, by the newlines in front of it and the one that
ends it, and knows of no search. The search finds the line that holds an
offset, at every byte of the text.

Results:
* `lineFrom_located`: the line found is one of the text, and holds the offset.
* `lineAt?_eq_placed`, `lineAt?_split`: where a text splits, the line found is
  the one around that place, and its number is one more than the newlines in
  front of it.
-/
namespace FilterList.Text

/-- The piece `line` stands in the text between `front` and `back`, which it
touches at newlines only, and has no newline of its own but the last character. -/
structure LineBetween (text front line back : List Char) : Prop where
  text_eq : text = front ++ line ++ back
  front_end : front = [] ∨ front.getLast? = some '\n'
  line_end : back = [] ∨ line.getLast? = some '\n'
  newline : '\n' ∉ line.dropLast

/-- The piece `line` is the line of the text with this number, counted from 1. -/
def IsLine (text : List Char) (number : Nat) (line : List Char) : Prop :=
  ∃ front back, LineBetween text front line back ∧ number = 1 + front.count '\n'

/-- The line `l` of the text holds the offset, where `number` counts the first
line. The end of the text belongs to the last line. -/
structure Line.Located (l : Line) (number : Nat) (text front back : List Char) (offset : Nat) :
    Prop where
  between : LineBetween text front l.text back
  number_eq : l.number = number + front.count '\n'
  offset_eq : byteSize front + l.offset = offset
  within : l.offset < byteSize l.text ∨
    l.offset = byteSize l.text ∧ back = [] ∧ '\n' ∉ l.text

/-! ## The first line -/

theorem newline_not_mem_takeWhile (text : List Char) : '\n' ∉ text.takeWhile (· ≠ '\n') := by
  intro h
  simpa using List.mem_takeWhile_imp h

/-- Up to its first newline a text is its first line. -/
theorem eq_of_dropWhile_eq_cons {text behind : List Char} {newline : Char}
    (h : text.dropWhile (· ≠ '\n') = newline :: behind) :
    newline = '\n' ∧ text = text.takeWhile (· ≠ '\n') ++ ['\n'] ++ behind := by
  have hhead := List.head?_dropWhile_not (· ≠ '\n') text
  rw [h] at hhead
  obtain rfl : newline = '\n' := by simpa using hhead
  refine ⟨rfl, ?_⟩
  have htext := List.takeWhile_append_dropWhile (p := (· ≠ '\n')) (l := text)
  rw [h] at htext
  simpa using htext.symm

/-- A text without a newline is one line. -/
theorem located_last {text : List Char} {number offset : Nat} (hnewline : '\n' ∉ text)
    (hle : offset ≤ byteSize text) :
    Line.Located ⟨number, text, offset⟩ number text [] [] offset := by
  refine ⟨⟨by simp, Or.inl rfl, Or.inl rfl, ?_⟩, rfl, Nat.zero_add _, ?_⟩
  · intro h
    exact hnewline (List.dropLast_subset text h)
  · rcases Nat.lt_or_ge offset (byteSize text) with hlt | hge
    · exact Or.inl hlt
    · exact Or.inr ⟨Nat.le_antisymm hle hge, rfl, hnewline⟩

/-- The first line up to its newline, in front of the other lines. -/
theorem located_first {body behind : List Char} {number offset : Nat} (hnewline : '\n' ∉ body)
    (hlt : offset < byteSize (body ++ ['\n'])) :
    Line.Located ⟨number, body ++ ['\n'], offset⟩ number (body ++ ['\n'] ++ behind) [] behind
      offset := by
  refine ⟨⟨rfl, Or.inl rfl, Or.inr (by simp), ?_⟩, rfl, Nat.zero_add _, Or.inl hlt⟩
  rwa [List.dropLast_concat]

/-- A line behind the first one. -/
theorem Line.Located.behind {l : Line} {number offset : Nat} {body text front back : List Char}
    (h : l.Located (number + 1) text front back offset) (hnewline : '\n' ∉ body) :
    l.Located number (body ++ ['\n'] ++ text) (body ++ ['\n'] ++ front) back
      (byteSize (body ++ ['\n']) + offset) := by
  obtain ⟨⟨htext, hfront, hline, hown⟩, hnumber, hoffset, hwithin⟩ := h
  refine ⟨⟨?_, Or.inr ?_, hline, hown⟩, ?_, ?_, hwithin⟩
  · rw [htext]
    simp
  · rcases hfront with rfl | hfront
    · simp
    · rw [List.getLast?_append, hfront]
      rfl
  · have hcount : body.count '\n' = 0 := List.count_eq_zero.mpr hnewline
    rw [hnumber, List.count_append, List.count_append, hcount]
    simp
    omega
  · rw [byteSize_append, ← hoffset]
    omega

/-- The line found is a line of the text that holds the offset. -/
theorem lineFrom_located (number : Nat) (text : List Char) (offset : Nat)
    (hle : offset ≤ byteSize text) :
    ∃ front back, (lineFrom number text offset).Located number text front back offset := by
  fun_induction lineFrom number text offset with
  | case1 number text offset hbehind =>
    have hnewline : '\n' ∉ text := by
      intro h
      have := List.dropWhile_eq_nil_iff.mp hbehind '\n' h
      simp at this
    exact ⟨[], [], located_last hnewline hle⟩
  | case2 number text offset newline behind hbehind line hlt =>
    obtain ⟨rfl, htext⟩ := eq_of_dropWhile_eq_cons hbehind
    refine ⟨[], behind, ?_⟩
    have hfirst := @located_first _ behind number offset (newline_not_mem_takeWhile text) hlt
    rwa [← htext] at hfirst
  | case3 number text offset newline behind hbehind line hge ih =>
    obtain ⟨rfl, htext⟩ := eq_of_dropWhile_eq_cons hbehind
    have hsize : byteSize text = byteSize line + byteSize behind := by
      conv => lhs; rw [htext]
      exact byteSize_append _ _
    obtain ⟨front, back, hlocated⟩ := ih (by omega)
    have hlater := hlocated.behind (newline_not_mem_takeWhile text)
    have hoffset : byteSize line + (offset - byteSize line) = offset := by omega
    rw [← htext, hoffset] at hlater
    exact ⟨_, back, hlater⟩

/-! ## Where a text splits -/

/-- The byte `offset` of a text lies behind `begun` in the line `begun ++ rest`,
which stands between `front` and `back`. -/
structure PlaceInLine (text : List Char) (offset : Nat) (front begun rest back : List Char) :
    Prop where
  between : LineBetween text front (begun ++ rest) back
  newline : '\n' ∉ begun
  offset_eq : byteSize (front ++ begun) = offset

namespace PlaceInLine

variable {text front begun rest back : List Char} {offset : Nat}

theorem text_eq (h : PlaceInLine text offset front begun rest back) :
    text = (front ++ begun) ++ (rest ++ back) := by
  rw [h.between.text_eq]
  simp

/-- All newlines in front of the place are in front of its line. -/
theorem count_eq (h : PlaceInLine text offset front begun rest back) :
    (front ++ begun).count '\n' = front.count '\n' := by
  rw [List.count_append, List.count_eq_zero.mpr h.newline, Nat.add_zero]

/-- The place lies behind all of a line only at the end of the text. -/
theorem rest_ne_nil (h : PlaceInLine text offset front begun rest back)
    (hrest : rest ++ back ≠ []) : rest ≠ [] := by
  rintro rfl
  rcases h.between.line_end with rfl | hlast
  · exact hrest rfl
  · rw [List.append_nil] at hlast
    exact h.newline (List.mem_of_getLast? hlast)

end PlaceInLine

/-- A place inside a line has no newline of the line in front of it. -/
theorem newline_not_mem_of_dropLast {begun rest : List Char} (h : '\n' ∉ (begun ++ rest).dropLast)
    (hrest : rest ≠ []) : '\n' ∉ begun := by
  rw [List.dropLast_append_of_ne_nil hrest] at h
  intro hmem
  exact h (List.mem_append_left _ hmem)

/-- Where a text splits, the line found is the one around that place. -/
theorem lineAt?_eq_placed (before behind : List Char) :
    ∃ front begun rest back,
      PlaceInLine (before ++ behind) (byteSize before) front begun rest back ∧
      lineAt? (before ++ behind) (byteSize before) =
        some ⟨1 + front.count '\n', begun ++ rest, byteSize begun⟩ := by
  have hle : byteSize before ≤ byteSize (before ++ behind) := by
    rw [byteSize_append]; omega
  obtain ⟨front, back, hlocated⟩ := lineFrom_located 1 (before ++ behind) (byteSize before) hle
  have hfound : lineAt? (before ++ behind) (byteSize before) =
      some (lineFrom 1 (before ++ behind) (byteSize before)) := if_pos hle
  rw [hfound]
  generalize lineFrom 1 (before ++ behind) (byteSize before) = l at hlocated
  obtain ⟨number, text, offset⟩ := l
  obtain ⟨hbetween, hnumber, hoffset, hwithin⟩ := hlocated
  simp only at hbetween hnumber hoffset hwithin
  have htext := hbetween.text_eq
  -- the place lies behind the start of the line and in front of its end
  obtain ⟨begun, rfl, hbegun⟩ : ∃ begun, before = front ++ begun ∧ text ++ back = begun ++ behind :=
    exists_between (by rw [← List.append_assoc, ← htext]) (by omega)
  rw [byteSize_append] at hoffset
  obtain ⟨rest, rfl, rfl⟩ : ∃ rest, text = begun ++ rest ∧ behind = rest ++ back :=
    exists_between hbegun.symm (by omega)
  rw [byteSize_append] at hwithin
  have hnewline : '\n' ∉ begun := by
    rcases hwithin with hlt | ⟨-, -, hnone⟩
    · apply newline_not_mem_of_dropLast hbetween.newline
      rintro rfl
      rw [byteSize_nil] at hlt
      omega
    · intro hmem
      exact hnone (List.mem_append_left _ hmem)
  obtain rfl : offset = byteSize begun := by omega
  exact ⟨front, begun, rest, back, ⟨hbetween, hnewline, rfl⟩, by rw [hnumber]⟩

/-- A line that holds the place where a text splits, split at this place. -/
structure Line.SplitAt (l : Line) (before behind : List Char) : Prop where
  isLine : IsLine (before ++ behind) l.number l.text
  number_eq : l.number = 1 + before.count '\n'
  split : ∃ front begun rest back, before = front ++ begun ∧ behind = rest ++ back ∧
    l.text = begun ++ rest ∧ byteSize begun = l.offset ∧ (behind ≠ [] → rest ≠ [])

/-- Where a text splits, the line found splits as well. -/
theorem lineAt?_split (before behind : List Char) :
    ∃ l, lineAt? (before ++ behind) (byteSize before) = some l ∧ l.SplitAt before behind := by
  obtain ⟨front, begun, rest, back, hplace, hfound⟩ := lineAt?_eq_placed before behind
  obtain ⟨hbefore, hbehind⟩ := append_inj_of_byteSize_eq hplace.text_eq hplace.offset_eq.symm
  refine ⟨_, hfound, ⟨front, back, hplace.between, rfl⟩, ?_, ?_⟩
  · rw [hbefore, hplace.count_eq]
  · refine ⟨front, begun, rest, back, hbefore, hbehind, rfl, rfl, ?_⟩
    rw [hbehind]
    exact hplace.rest_ne_nil

end FilterList.Text
