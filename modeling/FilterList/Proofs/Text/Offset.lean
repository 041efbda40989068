import FilterList.Text.Bytes

/-!
# Offsets at which a text splits

An offset that is the size of a beginning of a text splits the text there: it
lies on a character boundary, and of two such offsets the smaller one belongs to
the shorter beginning.

Results:
* `isValid_byteSize`, `exists_split_of_isValid`: the sizes of the beginnings are
  the character boundaries.
* `exists_between`, `append_inj_of_byteSize_eq`: two splits of one text, by the
  order of their offsets.
-/
namespace FilterList.Text

theorem byteSize_eq_zero_iff {text : List Char} : byteSize text = 0 ↔ text = [] := by
  constructor
  · intro h
    have hlength := length_le_byteSize text
    exact List.eq_nil_of_length_eq_zero (by omega)
  · rintro rfl; rfl

theorem byteSize_pos {text : List Char} (h : text ≠ []) : 0 < byteSize text := by
  rw [Nat.pos_iff_ne_zero]
  intro hzero
  exact h (byteSize_eq_zero_iff.mp hzero)

/-- The size of a beginning of a source is a character boundary of it. -/
theorem isValid_byteSize {source : String} {before behind : List Char}
    (h : source.toList = before ++ behind) :
    (⟨byteSize before⟩ : String.Pos.Raw).IsValid source := by
  refine String.Pos.Raw.isValid_iff_exists_append.mpr
    ⟨String.ofList before, String.ofList behind, ?_, ?_⟩
  · rw [← String.ofList_append, ← h, String.ofList_toList]
  · rw [String.Pos.Raw.ext_iff]
    show byteSize before = (String.ofList before).utf8ByteSize
    rw [← byteSize_toList, String.toList_ofList]

/-- A source splits at each of its character boundaries. -/
theorem exists_split_of_isValid {source : String} {offset : Nat}
    (h : (⟨offset⟩ : String.Pos.Raw).IsValid source) :
    ∃ before behind, source.toList = before ++ behind ∧ byteSize before = offset := by
  obtain ⟨before, behind, rfl, hoffset⟩ := String.Pos.Raw.isValid_iff_exists_append.mp h
  refine ⟨before.toList, behind.toList, String.toList_append, ?_⟩
  rw [byteSize_toList]
  exact (congrArg String.Pos.Raw.byteIdx hoffset).symm

/-- Of two splits of a text the one at the smaller offset comes first. -/
theorem exists_between {a b c d : List Char} (h : a ++ b = c ++ d)
    (hle : byteSize a ≤ byteSize c) : ∃ between, c = a ++ between ∧ b = between ++ d := by
  rcases List.append_eq_append_iff.mp h with ⟨between, hc, hb⟩ | ⟨between, ha, hd⟩
  · exact ⟨between, hc, hb⟩
  · have hempty : between = [] := by
      rw [ha, byteSize_append] at hle
      exact byteSize_eq_zero_iff.mp (by omega)
    subst hempty
    exact ⟨[], by simpa using ha.symm, by simpa using hd.symm⟩

theorem append_inj_of_byteSize_eq {a b c d : List Char} (h : a ++ b = c ++ d)
    (hsize : byteSize a = byteSize c) : a = c ∧ b = d := by
  obtain ⟨between, rfl, rfl⟩ := exists_between h (Nat.le_of_eq hsize)
  rw [byteSize_append] at hsize
  obtain rfl : between = [] := byteSize_eq_zero_iff.mp (by omega)
  simp

end FilterList.Text
