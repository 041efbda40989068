/-!
# Byte offsets in text

Text is a list of characters; an offset into it counts the bytes of its UTF-8
form, one to four for each character. `byteSize` measures a text and
`columnAt?` turns an offset into a count of characters.

Results:
* `byteSize_append`, `byteSize_toList`: the size is additive and agrees with
  the size of a `String`.
* `columnAt?_eq_some_iff`: an offset has column `n` exactly when the text
  splits there behind its first `n` characters, so an offset inside a
  character has no column.
-/
namespace FilterList.Text

/-- Number of bytes of `text` in UTF-8. -/
def byteSize (text : List Char) : Nat :=
  text.foldl (fun size c => size + c.utf8Size) 0

/-- The count `column` and the number of characters in the first `offset`
bytes of `text`; `none` when the offset lies inside a character or behind the
end. -/
def columnFrom (column : Nat) : List Char → Nat → Option Nat
  | _, 0 => some column
  | [], _ + 1 => none
  | c :: text, offset + 1 =>
    if c.utf8Size ≤ offset + 1 then columnFrom (column + 1) text (offset + 1 - c.utf8Size) else none

/-- Number of characters in the first `offset` bytes of `text`, if the text
splits there. -/
def columnAt? (text : List Char) (offset : Nat) : Option Nat :=
  columnFrom 0 text offset

/-! ## Sizes -/

theorem foldl_utf8Size (text : List Char) (n : Nat) :
    text.foldl (fun size c => size + c.utf8Size) n = n + byteSize text := by
  unfold byteSize
  induction text generalizing n with
  | nil => rfl
  | cons c text ih => rw [List.foldl_cons, List.foldl_cons, ih, ih (0 + _)]; omega

@[simp]
theorem byteSize_nil : byteSize [] = 0 := rfl

@[simp]
theorem byteSize_cons (c : Char) (text : List Char) :
    byteSize (c :: text) = c.utf8Size + byteSize text := by
  rw [byteSize, List.foldl_cons, foldl_utf8Size, Nat.zero_add]

@[simp]
theorem byteSize_append (a b : List Char) : byteSize (a ++ b) = byteSize a + byteSize b := by
  induction a with
  | nil => simp
  | cons c a ih => simp [ih, Nat.add_assoc]

/-- The bytes of a `String` are those of its characters. -/
theorem byteSize_toList (s : String) : byteSize s.toList = s.utf8ByteSize := by
  have h : ∀ text : List Char, (String.ofList text).utf8ByteSize = byteSize text := by
    intro text
    induction text with
    | nil => rfl
    | cons c text ih =>
      rw [String.ofList_cons, String.utf8ByteSize_append, String.utf8ByteSize_singleton, ih,
        byteSize_cons]
  rw [← h, String.ofList_toList]

/-- Every character has at least one byte. -/
theorem length_le_byteSize (text : List Char) : text.length ≤ byteSize text := by
  induction text with
  | nil => simp
  | cons c text ih => have := c.utf8Size_pos; simp; omega

/-! ## Columns -/

theorem columnFrom_eq_some_iff {text : List Char} {offset column n : Nat} :
    columnFrom column text offset = some n ↔
      ∃ before behind, text = before ++ behind ∧ byteSize before = offset ∧
        n = column + before.length := by
  induction text generalizing offset column with
  | nil =>
    cases offset with
    | zero => simp [columnFrom, eq_comm]
    | succ offset =>
      simp only [columnFrom, reduceCtorEq, false_iff, not_exists]
      rintro before behind ⟨h, hs, -⟩
      have := (List.append_eq_nil_iff.mp h.symm).1
      subst this; simp at hs
  | cons c text ih =>
    cases offset with
    | zero =>
      simp only [columnFrom, Option.some.injEq]
      constructor
      · rintro rfl; exact ⟨[], c :: text, rfl, rfl, rfl⟩
      · rintro ⟨before, behind, -, hs, rfl⟩
        have := length_le_byteSize before
        omega
    | succ offset =>
      simp only [columnFrom]
      split
      · next hc =>
        rw [ih]
        constructor
        · rintro ⟨before, behind, rfl, hs, rfl⟩
          exact ⟨c :: before, behind, rfl, by simp; omega, by simp; omega⟩
        · rintro ⟨before, behind, h, hs, rfl⟩
          cases before with
          | nil => simp at hs
          | cons d before =>
            obtain ⟨rfl, rfl⟩ := List.cons.inj h
            exact ⟨before, behind, rfl, by simp at hs; omega, by simp; omega⟩
      · next hc =>
        simp only [reduceCtorEq, false_iff, not_exists]
        rintro before behind ⟨h, hs, -⟩
        cases before with
        | nil => simp at hs
        | cons d before =>
          obtain ⟨rfl, rfl⟩ := List.cons.inj h
          simp at hs; omega

/-- An offset has column `n` exactly when the text splits at it behind `n`
characters. -/
theorem columnAt?_eq_some_iff {text : List Char} {offset n : Nat} :
    columnAt? text offset = some n ↔
      ∃ before behind, text = before ++ behind ∧ byteSize before = offset ∧ before.length = n := by
  rw [columnAt?, columnFrom_eq_some_iff]
  simp only [Nat.zero_add, eq_comm]

/-- Where a text splits, the column is the number of characters in front. -/
theorem columnAt?_append (before behind : List Char) :
    columnAt? (before ++ behind) (byteSize before) = some before.length :=
  columnAt?_eq_some_iff.mpr ⟨before, behind, rfl, rfl, rfl⟩

end FilterList.Text
