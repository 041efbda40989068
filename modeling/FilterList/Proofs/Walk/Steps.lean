import FilterList.Proofs.Position
import FilterList.Proofs.Walk.Item

/-!
# A walk step by step

At the end of a step a walk has read a beginning of its source, and its place is
the one that this beginning leads to. It is `InFront` of the rest; every cursor on
the way there is sound, and its line counts the newlines up to it or up to its item.
The next step reads the item that fits in front
of the rest, or closes the tokens if there is none, and leads to such a walk again.

Results:
* `InFront.step_of_item`, `InFront.step_of_nil`: what a step does.
* `InFront.steps`: every walk that is reached is in front of a rest, and no step
  on the way there has asked for a slice that the source does not have.
* `steps_add`: steps behind steps.
-/
namespace FilterList

/-- The line of the cursor is the one on which the item in hand begins, or the one
that the cursor has come to. -/
def Cursor.Counts (c : Cursor) (source : String) : Prop :=
  ∃ before behind, source.toList = before ++ behind ∧
    (c.start = Text.byteSize before ∨ c.current = Text.byteSize before) ∧
    c.line = (Position.origin.advance before).line

namespace Walk

variable {source : String} {o : Options} {w w' : Walk} {read rest : List Char}

/-- The walk has read the beginning `read` of the source over sound cursors and
stands in front of `rest`. -/
structure InFront (w : Walk) (source : String) (read rest : List Char) : Prop where
  text : source.toList = read ++ rest
  current : w.trail.here.current = Text.byteSize read
  line : w.trail.here.line = (Position.origin.advance read).line
  sound : ∀ c ∈ w.trail.cursors, c.Sound source
  counts : ∀ c ∈ w.trail.cursors, c.Counts source

theorem stands_ofSource (source : String) :
    (Cursor.ofSource source).Stands [] [] source.toList :=
  ⟨rfl, rfl, rfl⟩

theorem inFront_ofSource (source : String) : (ofSource source).InFront source [] source.toList := by
  refine ⟨rfl, rfl, rfl, ?_, ?_⟩
  · intro c hc
    obtain rfl := List.mem_singleton.mp hc
    exact (stands_ofSource source).sound
  · intro c hc
    obtain rfl := List.mem_singleton.mp hc
    exact ⟨[], source.toList, rfl, Or.inl rfl, rfl⟩

theorem InFront.source_eq (h : w.InFront source read rest) : w.trail.here.source = source :=
  (h.sound _ List.mem_cons_self).source_eq

/-! ## With a new item in hand -/

theorem InFront.stands_begun (h : w.InFront source read rest) :
    w.begun.here.Stands read [] rest := by
  refine ⟨?_, h.current, ?_⟩
  · rw [List.append_nil, ← h.text]
    exact congrArg String.toList h.source_eq
  · rw [List.append_nil]
    exact h.current

theorem InFront.position_begun (h : w.InFront source read rest) :
    w.begun.here.position = Position.origin.advance read := by
  have hoffset := Position.offset_origin_advance read
  rw [← h.current] at hoffset
  show (⟨w.trail.here.line, w.trail.here.current⟩ : Position) = _
  rw [h.line, ← hoffset]

theorem InFront.sound_begun (h : w.InFront source read rest) :
    ∀ c ∈ w.begun.cursors, c.Sound source := by
  intro c hc
  rcases List.mem_cons.mp hc with rfl | hc
  · have hsound := h.stands_begun.sound
    rwa [show w.begun.here.source = source from h.source_eq] at hsound
  · exact h.sound c hc

theorem InFront.counts_begun (h : w.InFront source read rest) :
    ∀ c ∈ w.begun.cursors, c.Counts source := by
  intro c hc
  rcases List.mem_cons.mp hc with rfl | hc
  · exact ⟨read, rest, h.text, Or.inl h.current, h.line⟩
  · exact h.counts c hc

/-! ## One step -/

/-- In front of an item a step reads it. -/
theorem InFront.step_of_item {i : Item} (h : w.InFront source read (i.text ++ rest))
    (hfits : i.Fits rest) :
    ∃ w', w.step o = .ok w' ∧ w'.InFront source (read ++ i.text) rest ∧
      w'.found = w.found ++ [i.finding o (Position.origin.advance read) rest.head?] := by
  obtain ⟨t', hmove, hleads⟩ := Move.item_reads (o := o) hfits h.stands_begun
  have hsource : w.begun.here.source = source := h.source_eq
  have htext : source.toList = (read ++ i.text) ++ rest := by rw [h.text, List.append_assoc]
  have hline : t'.here.line = (Position.origin.advance (read ++ i.text)).line := by
    rw [Position.advance_append, ← h.position_begun]
    exact hleads.line
  rw [h.position_begun] at hmove
  refine ⟨⟨t', w.found ++ [i.finding o (Position.origin.advance read) rest.head?]⟩, ?_, ?_, rfl⟩
  · have hend : w.trail.here.atEnd ≠ true := by
      intro hend
      have hnil := h.stands_begun.atEnd_iff.mp hend
      exact i.text_ne_nil (List.append_eq_nil_iff.mp hnil).1
    rw [step, if_neg hend, hmove]
    rfl
  · refine ⟨htext, hleads.stands.current, hline, ?_, ?_⟩
    · intro c hc
      rcases hleads.sound c hc with hc | hsound
      · exact h.sound_begun c hc
      · rwa [hsource] at hsound
    · intro c hc
      rcases List.mem_cons.mp hc with rfl | hc
      · exact ⟨read ++ i.text, rest, htext, Or.inr hleads.stands.current, hline⟩
      · rcases hleads.passed c hc with hc | ⟨hstart, hbegun⟩
        · exact h.counts_begun c hc
        · exact ⟨read, i.text ++ rest, h.text, Or.inl hstart, hbegun.trans h.line⟩

/-- At the end of the source a step closes the tokens. -/
theorem InFront.step_of_nil (h : w.InFront source read []) :
    ∃ w', w.step o = .ok w' ∧ w'.InFront source read [] ∧
      w'.found = w.found ++ [.closing (Token.endOfInput (Position.origin.advance read).line)] := by
  have hend : w.trail.here.atEnd = true := h.stands_begun.atEnd_iff.mpr rfl
  refine ⟨⟨w.begun, w.found ++ [.closing (Token.endOfInput (Position.origin.advance read).line)]⟩,
    ?_, ⟨h.text, h.current, h.line, h.sound_begun, h.counts_begun⟩, rfl⟩
  rw [step, if_pos hend, ← h.line]
  rfl

theorem InFront.step (h : w.InFront source read rest) :
    ∃ w' read' rest', w.step o = .ok w' ∧ w'.InFront source read' rest' := by
  cases rest with
  | nil =>
    obtain ⟨w', hstep, hfront, -⟩ := h.step_of_nil (o := o)
    exact ⟨w', read, [], hstep, hfront⟩
  | cons c rest =>
    rw [← Item.text_read c rest] at h
    obtain ⟨w', hstep, hfront, -⟩ := h.step_of_item (o := o) (Item.fits_read c rest)
    exact ⟨w', _, _, hstep, hfront⟩

/-! ## Many steps -/

theorem steps_of_step {k : Nat} (h : w.step o = .ok w') : w.steps o (k + 1) = w'.steps o k := by
  rw [steps, h]
  rfl

theorem steps_one (h : w.step o = .ok w') : w.steps o 1 = .ok w' :=
  steps_of_step h

/-- Steps behind steps. -/
theorem steps_add {j k : Nat} (h : w.steps o j = .ok w') : w.steps o (j + k) = w'.steps o k := by
  induction j generalizing w with
  | zero =>
    obtain rfl : w = w' := Except.ok.inj h
    rw [Nat.zero_add]
  | succ j ih =>
    cases hstep : w.step o with
    | error e => simp [steps, hstep, Except.bind] at h
    | ok next =>
      rw [steps_of_step hstep] at h
      rw [Nat.add_right_comm, steps_of_step hstep]
      exact ih h

/-- Every walk that is reached is in front of a rest of its source. -/
theorem InFront.steps (h : w.InFront source read rest) (k : Nat) :
    ∃ w' read' rest', w.steps o k = .ok w' ∧ w'.InFront source read' rest' := by
  induction k generalizing w read rest with
  | zero => exact ⟨w, read, rest, rfl, h⟩
  | succ k ih =>
    obtain ⟨w₁, read₁, rest₁, hstep, hfront⟩ := h.step (o := o)
    obtain ⟨w', read', rest', hsteps, hfront'⟩ := ih hfront
    exact ⟨w', read', rest', (steps_of_step hstep).trans hsteps, hfront'⟩

end Walk

end FilterList
