import FilterList.Position

/-!
# Cursors

A cursor reads a source by byte offsets, the way the bytes lie in memory:
`start` is where the item in hand began, `current` the first byte that is not
read. It looks at the source through slices only, and a slice can be taken only
between two character boundaries of which the first is not behind the second.

Results:
* `slice_of_append`: what lies between two splits of a source is a slice of it.
* `lt_of_peek`: a cursor that sees a character is not at the end.
-/
namespace FilterList

/-- Two offsets between which a source has no slice. -/
structure BadSlice where
  first : Nat
  last : Nat
  deriving DecidableEq, Repr

/-- A place in a source that is read by bytes. -/
structure Cursor where
  source : String
  start : Nat     -- where the item in hand began
  current : Nat   -- the first byte that is not read
  line : UInt32   -- counted from 1
  deriving DecidableEq, Repr

namespace Cursor

/-- A cursor at the start of a source. -/
def ofSource (source : String) : Cursor := ⟨source, 0, 0, 1⟩

/-- The part of the source from byte `first` up to byte `last`. -/
def slice (c : Cursor) (first last : Nat) : Except BadSlice String :=
  if h : (⟨first⟩ : String.Pos.Raw).IsValid c.source ∧
      (⟨last⟩ : String.Pos.Raw).IsValid c.source ∧ first ≤ last then
    .ok (String.extract ⟨_, h.1⟩ ⟨_, h.2.1⟩)
  else .error ⟨first, last⟩

/-- The next character, if the source goes on. -/
def peek (c : Cursor) : Except BadSlice (Option Char) :=
  (c.slice c.current c.source.utf8ByteSize).map fun rest => rest.toList.head?

/-- The source text of the item in hand. -/
def lexeme (c : Cursor) : Except BadSlice String :=
  c.slice c.start c.current

/-- Whether the whole source is read. -/
def atEnd (c : Cursor) : Bool :=
  c.source.utf8ByteSize ≤ c.current

/-- Where the item in hand began. -/
def position (c : Cursor) : Position := ⟨c.line, c.start⟩

/-- The cursor with a new item in hand. -/
def begin (c : Cursor) : Cursor := { c with start := c.current }

/-- The cursor behind the character `d`. -/
def past (c : Cursor) (d : Char) : Cursor := { c with current := c.current + d.utf8Size }

/-- The cursor on the next line. -/
def newLine (c : Cursor) : Cursor := { c with line := c.line + 1 }

/-! ## Slices -/

theorem extract_between (a b d : ByteArray) :
    (a ++ b ++ d).extract a.size (a.size + b.size) = b := by
  have hfront : a.extract a.size (a.size + b.size) = ByteArray.empty :=
    ByteArray.extract_eq_empty_iff.mpr (by omega)
  simp only [ByteArray.extract_append, ByteArray.size_append]
  simp [hfront]

/-- What lies between two splits of the source can be taken out of it. -/
theorem slice_of_append {c : Cursor} {before part behind : String}
    (h : c.source = before ++ part ++ behind) :
    c.slice before.utf8ByteSize (before.utf8ByteSize + part.utf8ByteSize) = .ok part := by
  obtain ⟨source, start, current, line⟩ := c
  obtain rfl : source = before ++ part ++ behind := h
  have hfirst : (⟨before.utf8ByteSize⟩ : String.Pos.Raw).IsValid (before ++ part ++ behind) :=
    String.Pos.Raw.isValid_iff_exists_append.mpr ⟨before, part ++ behind, String.append_assoc, rfl⟩
  have hlast : (⟨before.utf8ByteSize + part.utf8ByteSize⟩ : String.Pos.Raw).IsValid
      (before ++ part ++ behind) := by
    refine String.Pos.Raw.isValid_iff_exists_append.mpr ⟨before ++ part, behind, rfl, ?_⟩
    rw [String.Pos.Raw.ext_iff]
    exact (String.utf8ByteSize_append).symm
  unfold slice
  rw [dif_pos ⟨hfirst, hlast, Nat.le_add_right _ _⟩]
  apply congrArg Except.ok
  apply String.toByteArray_inj.mp
  rw [String.toByteArray_extract, String.toByteArray_append, String.toByteArray_append]
  exact extract_between _ _ _

/-- A slice has as many bytes as lie between the offsets. -/
theorem utf8ByteSize_slice {c : Cursor} {first last : Nat} {part : String}
    (h : c.slice first last = .ok part) : part.utf8ByteSize = last - first := by
  unfold slice at h
  split at h
  · next hvalid =>
    obtain rfl := Except.ok.inj h
    have hlast : last ≤ c.source.utf8ByteSize := hvalid.2.1.le_rawEndPos
    rw [← String.size_toByteArray, String.toByteArray_extract, ByteArray.size_extract,
      String.size_toByteArray]
    show min last _ - first = last - first
    omega
  · cases h

/-- A cursor that sees a character is not at the end. -/
theorem lt_of_peek {c : Cursor} {d : Char} (h : c.peek = .ok (some d)) :
    c.current < c.source.utf8ByteSize := by
  unfold peek at h
  cases hslice : c.slice c.current c.source.utf8ByteSize with
  | error e => simp [hslice, Except.map] at h
  | ok rest =>
    rw [hslice] at h
    have hhead : rest.toList.head? = some d := Except.ok.inj h
    have hsize := utf8ByteSize_slice hslice
    rcases Nat.lt_or_ge c.current c.source.utf8ByteSize with hlt | hge
    · exact hlt
    · have hempty : rest = "" := String.utf8ByteSize_eq_zero_iff.mp (by omega)
      rw [hempty] at hhead
      simp at hhead

end Cursor

end FilterList
