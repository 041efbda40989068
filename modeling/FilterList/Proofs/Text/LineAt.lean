import FilterList.Proofs.Text.Line

/-!
# The line at every byte

A line is looked up by a byte of the text, and the byte may lie inside a
character. `Line.Around` says which line is meant by the bytes alone: its number
counts the newline bytes in front of the byte, and the line of this number is a
piece of the text between newlines. A newline is one byte, and no other
character has this byte among its own, so there are as many newline bytes as
newlines.

Results:
* `count_bytes`: the newline bytes of a text are its newlines.
* `LineBetween.unique`: a text has one line of each number.
* `PlaceInLine.lineAt?_eq`: where a text splits, the line of the place is found.
* `Line.Located.around`, `Line.Around.unique`: the line found is the one around
  the byte, and there is no other.
* `lineAt?_exact`: the look-up at every byte.
-/
namespace FilterList.Text

/-! ## Newlines as bytes -/

/-- The byte of a newline. -/
def newlineByte : UInt8 := 10

/-- The bytes of a text in UTF-8. -/
def bytes (text : List Char) : List UInt8 :=
  text.flatMap String.utf8EncodeChar

theorem bytes_append (a b : List Char) : bytes (a ++ b) = bytes a ++ bytes b :=
  List.flatMap_append

theorem length_bytes (text : List Char) : (bytes text).length = byteSize text := by
  induction text with
  | nil => rfl
  | cons c text ih =>
    rw [bytes, List.flatMap_cons, List.length_append, String.length_utf8EncodeChar, byteSize_cons,
      ← ih, bytes]

/-- The bytes of a source are those of its characters. -/
theorem toList_data_toByteArray (source : String) :
    source.toByteArray.data.toList = bytes source.toList := by
  rw [← String.utf8Encode_toList, List.utf8Encode, List.toList_data_toByteArray, bytes]

/-- A byte of a character is its code, or lies beyond the codes of one byte. -/
theorem toNat_of_mem_utf8EncodeChar {c : Char} {b : UInt8} (h : b ∈ String.utf8EncodeChar c) :
    b.toNat = c.val.toNat ∨ 128 ≤ b.toNat := by
  unfold String.utf8EncodeChar at h
  simp only at h
  split at h
  · obtain rfl := List.mem_singleton.mp h
    rw [UInt8.toNat_ofNat']
    omega
  · right
    split at h
    · simp only [List.mem_cons, List.not_mem_nil, or_false] at h
      rcases h with rfl | rfl <;> rw [UInt8.toNat_ofNat'] <;> omega
    · split at h
      · simp only [List.mem_cons, List.not_mem_nil, or_false] at h
        rcases h with rfl | rfl | rfl <;> rw [UInt8.toNat_ofNat'] <;> omega
      · simp only [List.mem_cons, List.not_mem_nil, or_false] at h
        rcases h with rfl | rfl | rfl | rfl <;> rw [UInt8.toNat_ofNat'] <;> omega

theorem count_utf8EncodeChar (c : Char) :
    (String.utf8EncodeChar c).count newlineByte = if c = '\n' then 1 else 0 := by
  split
  · next h => subst h; decide
  · next h =>
    rw [List.count_eq_zero]
    intro hmem
    rcases toNat_of_mem_utf8EncodeChar hmem with heq | hle
    · exact h (Char.toNat_inj.mp heq.symm)
    · exact absurd hle (by decide)

/-- The newline bytes of a text are its newlines. -/
theorem count_bytes (text : List Char) : (bytes text).count newlineByte = text.count '\n' := by
  induction text with
  | nil => rfl
  | cons c text ih =>
    rw [bytes, List.flatMap_cons, List.count_append, count_utf8EncodeChar, ← bytes, ih,
      List.count_cons, Nat.add_comm]
    simp only [beq_iff_eq]

/-- A text without newlines has no newline byte, nor has a part of its bytes. -/
theorem count_take_bytes_of_not_mem {text : List Char} (h : '\n' ∉ text) (n : Nat) :
    ((bytes text).take n).count newlineByte = 0 := by
  have hbytes : (bytes text).count newlineByte = 0 := by
    rw [count_bytes]
    exact List.count_eq_zero.mpr h
  have hsub := (List.take_sublist n (bytes text)).count_le newlineByte
  omega

/-! ## The line found -/

/-- A line with a newline is a text without one, and the newline behind it. -/
theorem eq_concat_of_mem {line : List Char} (hmem : '\n' ∈ line) (hnewline : '\n' ∉ line.dropLast) :
    ∃ body, line = body ++ ['\n'] ∧ '\n' ∉ body := by
  rcases List.eq_nil_or_concat line with rfl | ⟨body, c, rfl⟩
  · cases hmem
  · rw [List.concat_eq_append] at hmem hnewline ⊢
    rw [List.dropLast_concat] at hnewline
    rcases List.mem_append.mp hmem with h | h
    · exact absurd h hnewline
    · obtain rfl := List.mem_singleton.mp h
      exact ⟨body, rfl, hnewline⟩

namespace Line.Located

variable {l : Line} {number offset : Nat} {text front back : List Char}

/-- A place in a line lies in front of its newline. -/
theorem le_body (h : l.Located number text front back offset) :
    ∃ body tail, l.text = body ++ tail ∧ '\n' ∉ body ∧ l.offset ≤ byteSize body := by
  by_cases hmem : '\n' ∈ l.text
  · -- the newline is the last character, one byte long, and the place is not behind it
    obtain ⟨body, hbody, hnewline⟩ := eq_concat_of_mem hmem h.between.newline
    refine ⟨body, ['\n'], hbody, hnewline, ?_⟩
    rcases h.within with hlt | ⟨-, -, hnone⟩
    · have hsize : byteSize l.text = byteSize body + 1 := by
        rw [hbody, byteSize_append]
        rfl
      omega
    · exact absurd hmem hnone
  · refine ⟨l.text, [], (List.append_nil _).symm, hmem, ?_⟩
    rcases h.within with hlt | ⟨heq, -, -⟩ <;> omega

/-- All newline bytes in front of a place are those in front of its line. -/
theorem count_take (h : l.Located number text front back offset) :
    ((bytes text).take offset).count newlineByte = front.count '\n' := by
  obtain ⟨body, tail, hbody, hnewline, hle⟩ := h.le_body
  have htext : text = front ++ (body ++ (tail ++ back)) := by
    rw [h.between.text_eq, hbody]
    simp
  -- inside the line the bytes are cut anywhere, but only bytes of its body come first
  have hhere : ((bytes (body ++ (tail ++ back))).take l.offset).count newlineByte = 0 := by
    rw [bytes_append, List.take_append_of_le_length (by rwa [length_bytes])]
    exact count_take_bytes_of_not_mem hnewline l.offset
  rw [htext, ← h.offset_eq, bytes_append, ← length_bytes, List.take_length_add_append,
    List.count_append, count_bytes, hhere, Nat.add_zero]

end Line.Located

/-! ## One line of each number -/

/-- A beginning of a text that ends at a newline has all its newlines only if it is
the whole text. -/
theorem eq_nil_of_count_eq {a b : List Char} (hend : a ++ b = [] ∨ (a ++ b).getLast? = some '\n')
    (hcount : (a ++ b).count '\n' = a.count '\n') : b = [] := by
  rcases List.eq_nil_or_concat b with rfl | ⟨body, c, rfl⟩
  · rfl
  · rw [List.concat_eq_append, ← List.append_assoc] at hend
    obtain rfl : c = '\n' := by simpa using hend
    rw [List.concat_eq_append, List.count_append, List.count_append] at hcount
    simp at hcount

namespace LineBetween

variable {text front line back front' line' back' : List Char}

/-- Lines with the same number of newlines in front of them begin at the same place. -/
theorem front_eq (h : LineBetween text front line back) (h' : LineBetween text front' line' back')
    (hcount : front.count '\n' = front'.count '\n') : front = front' := by
  have htext : front ++ (line ++ back) = front' ++ (line' ++ back') := by
    rw [← List.append_assoc, ← List.append_assoc, ← h.text_eq, ← h'.text_eq]
  rcases List.append_eq_append_iff.mp htext with ⟨between, rfl, -⟩ | ⟨between, rfl, -⟩
  · rw [eq_nil_of_count_eq h'.front_end hcount.symm, List.append_nil]
  · rw [eq_nil_of_count_eq h.front_end hcount, List.append_nil]

/-- Of two lines that begin at the same place none goes on behind the other. -/
theorem eq_nil_of_longer {between : List Char} (h : LineBetween text front line (between ++ back'))
    (h' : LineBetween text front (line ++ between) back') : between = [] := by
  by_contra hne
  have hlast : line.getLast? = some '\n' := by
    rcases h.line_end with hnil | hlast
    · exact absurd (List.append_eq_nil_iff.mp hnil).1 hne
    · exact hlast
  apply h'.newline
  rw [List.dropLast_append_of_ne_nil hne]
  exact List.mem_append_left _ (List.mem_of_getLast? hlast)

/-- A text has one line of each number. -/
theorem unique (h : LineBetween text front line back) (h' : LineBetween text front' line' back')
    (hcount : front.count '\n' = front'.count '\n') :
    front = front' ∧ line = line' ∧ back = back' := by
  obtain rfl := h.front_eq h' hcount
  have htext : front ++ (line ++ back) = front ++ (line' ++ back') := by
    rw [← List.append_assoc, ← List.append_assoc, ← h.text_eq, ← h'.text_eq]
  rcases List.append_eq_append_iff.mp (List.append_cancel_left htext) with
    ⟨between, rfl, rfl⟩ | ⟨between, rfl, rfl⟩
  · obtain rfl := eq_nil_of_longer h h'
    simp
  · obtain rfl := eq_nil_of_longer h' h
    simp

end LineBetween

/-- A place lies in one line, and this line is found at its offset. -/
theorem PlaceInLine.lineAt?_eq {text front begun rest back : List Char} {offset : Nat}
    (h : PlaceInLine text offset front begun rest back) :
    lineAt? text offset = some ⟨1 + front.count '\n', begun ++ rest, byteSize begun⟩ := by
  obtain ⟨front', begun', rest', back', h', hfound⟩ :=
    lineAt?_eq_placed (front ++ begun) (rest ++ back)
  rw [← h.text_eq, h.offset_eq] at h' hfound
  obtain ⟨hbegun, -⟩ := append_inj_of_byteSize_eq (h.text_eq.symm.trans h'.text_eq)
    (h.offset_eq.trans h'.offset_eq.symm)
  have hcount : front.count '\n' = front'.count '\n' := by
    rw [← h.count_eq, hbegun, h'.count_eq]
  obtain ⟨rfl, hline, -⟩ := h.between.unique h'.between hcount
  obtain rfl := List.append_cancel_left hbegun
  rw [hfound, hline]

/-! ## The look-up -/

/-- The line of the source around a byte: its number is one more than the newline
bytes in front of the byte, it is the piece of the source between the newline
before and the one that ends it, and the place is counted from its start. -/
structure Line.Around (l : Line) (source : String) (offset : Nat) : Prop where
  number_eq : l.number = 1 + (source.toByteArray.data.toList.take offset).count newlineByte
  placed : ∃ front back, LineBetween source.toList front l.text back ∧
    l.number = 1 + front.count '\n' ∧ byteSize front + l.offset = offset

theorem Line.Located.around {l : Line} {source : String} {front back : List Char} {offset : Nat}
    (h : l.Located 1 source.toList front back offset) : l.Around source offset := by
  refine ⟨?_, front, back, h.between, h.number_eq, h.offset_eq⟩
  rw [toList_data_toByteArray, h.count_take]
  exact h.number_eq

/-- There is one line around a byte. -/
theorem Line.Around.unique {l l' : Line} {source : String} {offset : Nat}
    (h : l.Around source offset) (h' : l'.Around source offset) : l = l' := by
  obtain ⟨hnumber, front, back, hbetween, hcount, hoffset⟩ := h
  obtain ⟨hnumber', front', back', hbetween', hcount', hoffset'⟩ := h'
  obtain ⟨rfl, htext, -⟩ := hbetween.unique hbetween' (by omega)
  obtain ⟨number, text, offset⟩ := l
  obtain ⟨number', text', offset'⟩ := l'
  simp only at hnumber hnumber' hoffset hoffset' htext
  rw [Line.mk.injEq]
  exact ⟨by omega, htext, by omega⟩

/-- A place inside a line lies in front of the end of the text, and every other
place of a line is the end of the text. -/
theorem Line.Located.offset_lt_iff {l : Line} {number offset : Nat} {text front back : List Char}
    (h : l.Located number text front back offset) :
    l.offset < byteSize l.text ↔ offset < byteSize text := by
  have hoffset := h.offset_eq
  have hsize : byteSize text = byteSize front + byteSize l.text + byteSize back := by
    conv => lhs; rw [h.between.text_eq]
    rw [byteSize_append, byteSize_append]
  rcases h.within with hlt | ⟨heq, rfl, -⟩
  · omega
  · rw [byteSize_nil] at hsize
    omega

/-- A line is found at every byte up to the end of the source, and it is the one
around this byte. A newline can only be its last character, and only the end of
the source lies behind all of it. -/
theorem lineAt?_exact (source : String) (offset : Nat) :
    (lineAt? source.toList offset = none ↔ source.utf8ByteSize < offset) ∧
    ∀ l, (lineAt? source.toList offset = some l ↔
        offset ≤ source.utf8ByteSize ∧ l.Around source offset) ∧
      (lineAt? source.toList offset = some l →
        '\n' ∉ l.text.dropLast ∧ (l.offset < byteSize l.text ↔ offset < source.utf8ByteSize)) := by
  rw [← byteSize_toList]
  refine ⟨lineAt?_eq_none_iff, fun l => ?_⟩
  rcases Nat.lt_or_ge (byteSize source.toList) offset with hlt | hle
  · rw [lineAt?_eq_none_iff.mpr hlt]
    simp [Nat.not_le.mpr hlt]
  · obtain ⟨front, back, hlocated⟩ := lineFrom_located 1 source.toList offset hle
    have hfound : lineAt? source.toList offset = some (lineFrom 1 source.toList offset) :=
      if_pos hle
    rw [hfound, Option.some.injEq]
    refine ⟨⟨?_, ?_⟩, ?_⟩
    · rintro rfl
      exact ⟨hle, hlocated.around⟩
    · intro h
      exact hlocated.around.unique h.2
    · rintro rfl
      exact ⟨hlocated.between.newline, hlocated.offset_lt_iff⟩

/-- The second byte of a character in front of the newline. -/
theorem lineAt?_exact_inside_character :
    lineAt? "|\né\n".toList 3 = some ⟨2, ['é', '\n'], 1⟩ ∧
    Line.Around ⟨2, ['é', '\n'], 1⟩ "|\né\n" 3 ∧
    '\n' ∉ ['é', '\n'].dropLast ∧ (1 < byteSize ['é', '\n'] ↔ 3 < "|\né\n".utf8ByteSize) := by
  have hfound : lineAt? "|\né\n".toList 3 = some ⟨2, ['é', '\n'], 1⟩ := by decide +kernel
  obtain ⟨hiff, hline⟩ := (lineAt?_exact "|\né\n" 3).2 ⟨2, ['é', '\n'], 1⟩
  exact ⟨hfound, (hiff.mp hfound).2, hline hfound⟩

end FilterList.Text
