import FilterList.Proofs.Text.Offset
import FilterList.Walk

/-!
# Cursors that fit their source

Offsets say little by themselves. A cursor `Stands` somewhere when they split its
source in three: what is read, what is taken of the item in hand, and the rest.
Such a cursor is `Sound`, it lies on character boundaries and its slices exist,
and each move over the next character leads to another one. A trail `LeadsTo` a
later one when all cursors in between are sound.

Results:
* `Stands.peek`, `Stands.lexeme`: what a cursor sees where it stands.
* `Stands.past`, `Stands.newLine`: where it stands after a move.
* `Stands.sound`: bounds and boundaries.
* `LeadsTo.trans`, `LeadsTo.past`, `LeadsTo.newLine`: a trail that goes on.
-/
namespace FilterList

namespace Cursor

/-- The cursor is behind `read` and the part `taken` of the item in hand, in
front of `rest`. -/
structure Stands (c : Cursor) (read taken rest : List Char) : Prop where
  text : c.source.toList = read ++ taken ++ rest
  start : c.start = Text.byteSize read
  current : c.current = Text.byteSize (read ++ taken)

/-- The offsets are in order, inside the source and on its character boundaries,
so that the slices at the cursor exist. -/
structure Sound (c : Cursor) (source : String) : Prop where
  source_eq : c.source = source
  start_le : c.start ≤ c.current
  current_le : c.current ≤ source.utf8ByteSize
  start_valid : (⟨c.start⟩ : String.Pos.Raw).IsValid source
  current_valid : (⟨c.current⟩ : String.Pos.Raw).IsValid source
  peek : ∃ next, c.peek = .ok next
  lexeme : ∃ text, c.lexeme = .ok text

variable {c : Cursor} {read taken rest : List Char}

/-- What lies between two splits of the source can be taken out of it. -/
theorem slice_of_split {before part behind : List Char}
    (h : c.source.toList = before ++ part ++ behind) :
    c.slice (Text.byteSize before) (Text.byteSize (before ++ part)) = .ok (String.ofList part) := by
  have hsize : ∀ text, (String.ofList text).utf8ByteSize = Text.byteSize text := by
    intro text
    rw [← Text.byteSize_toList, String.toList_ofList]
  have hsource : c.source = String.ofList before ++ String.ofList part ++ String.ofList behind := by
    rw [← String.ofList_append, ← String.ofList_append, ← h, String.ofList_toList]
  rw [Text.byteSize_append, ← hsize, ← hsize]
  exact slice_of_append hsource

/-- A cursor sees the rest of its source. -/
theorem Stands.peek (h : c.Stands read taken rest) : c.peek = .ok rest.head? := by
  have htext : c.source.toList = read ++ taken ++ rest ++ [] := by rw [h.text, List.append_nil]
  have hslice := slice_of_split htext
  rw [← h.text, ← h.current, Text.byteSize_toList] at hslice
  rw [Cursor.peek, hslice]
  show Except.ok (String.ofList rest).toList.head? = _
  rw [String.toList_ofList]

theorem Stands.lexeme (h : c.Stands read taken rest) : c.lexeme = .ok (String.ofList taken) := by
  rw [Cursor.lexeme, h.start, h.current]
  exact slice_of_split h.text

theorem Stands.sound (h : c.Stands read taken rest) : c.Sound c.source := by
  have hsize : c.source.utf8ByteSize = c.current + Text.byteSize rest := by
    rw [← Text.byteSize_toList, h.text, Text.byteSize_append, h.current]
  have hcurrent : c.current = c.start + Text.byteSize taken := by
    rw [h.current, h.start, Text.byteSize_append]
  refine ⟨rfl, by omega, by omega, ?_, ?_, ⟨_, h.peek⟩, ⟨_, h.lexeme⟩⟩
  · rw [h.start]
    exact Text.isValid_byteSize (h.text.trans (List.append_assoc _ _ _))
  · rw [h.current]
    exact Text.isValid_byteSize h.text

theorem Stands.past {d : Char} (h : c.Stands read taken (d :: rest)) :
    (c.past d).Stands read (taken ++ [d]) rest := by
  refine ⟨?_, h.start, ?_⟩
  · show c.source.toList = _
    rw [h.text]
    simp
  · show c.current + d.utf8Size = _
    rw [h.current, ← List.append_assoc, Text.byteSize_append _ [d], Text.byteSize_cons]
    rfl

theorem Stands.newLine (h : c.Stands read taken rest) : c.newLine.Stands read taken rest :=
  ⟨h.text, h.start, h.current⟩

/-- A cursor is at the end exactly when there is no rest. -/
theorem Stands.atEnd_iff (h : c.Stands read taken rest) : c.atEnd = true ↔ rest = [] := by
  have hsize : c.source.utf8ByteSize = c.current + Text.byteSize rest := by
    rw [← Text.byteSize_toList, h.text, Text.byteSize_append, h.current]
  rw [← Text.byteSize_eq_zero_iff]
  simp only [atEnd, decide_eq_true_eq]
  omega

end Cursor

namespace Trail

/-- The trail `t'` goes on from `t` through sound cursors, up to one that stands
in front of `rest`, on the line `line`. The cursors in between are still on the line
that the item in hand began on. -/
structure LeadsTo (t t' : Trail) (read taken rest : List Char) (line : UInt32) : Prop where
  source : t'.here.source = t.here.source
  stands : t'.here.Stands read taken rest
  line : t'.here.line = line
  sound : ∀ c ∈ t'.cursors, c ∈ t.cursors ∨ c.Sound t.here.source
  passed : ∀ c ∈ t'.passed, c ∈ t.cursors ∨ c.start = Text.byteSize read ∧ c.line = t.here.line

variable {t t' : Trail} {read taken rest : List Char} {line : UInt32}

theorem leadsTo_refl (h : t.here.Stands read taken rest) :
    t.LeadsTo t read taken rest t.here.line :=
  ⟨rfl, h, rfl, fun _ hc => Or.inl hc, fun _ hc => Or.inl (List.mem_cons_of_mem _ hc)⟩

/-- A trail that stays on its line goes on from where it leads. -/
theorem LeadsTo.trans {u : Trail} {taken' rest' : List Char}
    (h : t.LeadsTo u read taken rest t.here.line) (h' : u.LeadsTo t' read taken' rest' line) :
    t.LeadsTo t' read taken' rest' line := by
  refine ⟨h'.source.trans h.source, h'.stands, h'.line, ?_, ?_⟩
  · intro c hc
    rcases h'.sound c hc with hc | hc
    · exact h.sound c hc
    · right
      rwa [← h.source]
  · intro c hc
    rcases h'.passed c hc with hc | ⟨hstart, hline⟩
    · rcases List.mem_cons.mp hc with rfl | hc
      · exact Or.inr ⟨h.stands.start, h.line⟩
      · exact h.passed c hc
    · exact Or.inr ⟨hstart, hline.trans h.line⟩

/-- One more sound cursor. -/
theorem LeadsTo.goTo {taken' rest' : List Char} (h : t.LeadsTo t' read taken rest t.here.line)
    (u : Cursor) (hsource : u.source = t'.here.source) (hstands : u.Stands read taken' rest') :
    t.LeadsTo (t'.goTo u) read taken' rest' u.line := by
  have hsame : u.source = t.here.source := hsource.trans h.source
  refine ⟨hsame, hstands, rfl, ?_, ?_⟩
  · intro c hc
    rcases List.mem_cons.mp hc with rfl | hc
    · right
      rw [← hsame]
      exact hstands.sound
    · exact h.sound c hc
  · intro c hc
    rcases List.mem_cons.mp hc with rfl | hc
    · exact Or.inr ⟨h.stands.start, h.line⟩
    · exact h.passed c hc

theorem LeadsTo.past {d : Char} (h : t.LeadsTo t' read taken (d :: rest) t.here.line) :
    t.LeadsTo (t'.past d) read (taken ++ [d]) rest t.here.line := by
  have hpast := h.goTo (t'.here.past d) rfl h.stands.past
  rwa [show (t'.here.past d).line = t.here.line from h.line] at hpast

theorem LeadsTo.newLine (h : t.LeadsTo t' read taken rest t.here.line) :
    t.LeadsTo (t'.goTo t'.here.newLine) read taken rest (t.here.line + 1) := by
  have hnew := h.goTo t'.here.newLine rfl h.stands.newLine
  rwa [show t'.here.newLine.line = t.here.line + 1 from congrArg (· + 1) h.line] at hnew

end Trail

end FilterList
