import FilterList.Proofs.Division.Segmentation
import FilterList.Proofs.Position
import FilterList.Proofs.Reading.Run

/-!
# Where a run fails

A run fails at the first place that a mark is begun and not finished. That
place can be told without running: the text in front of it has a segmentation
that is `Settled`, one whose last segment takes nothing from what follows, and
the text behind it `Breaks` a mark off. An at sign inside a comment, or behind
a hash that took it along, has no such text in front of it.

Results:
* `breaks_iff`: a text breaks a mark off exactly when it begins with a
  fragment, and then it says which error.
* `breaksOff_of_fault`, `ofText_of_breaksOff`: the fragment of a division is
  where its text breaks off.
* `outcome_error_exact`: a run fails exactly when its source breaks off
  somewhere, which is then one place, and the error tells it.
-/
namespace FilterList

/-- What is wrong at the start of a text: an at sign that is not doubled, or a
hash and a marker without a second hash. -/
inductive Breaks : List Char → ErrorKind → Prop where
  | loneAt {behind : List Char} : behind.head? ≠ some '@' → Breaks ('@' :: behind) (.loneAt "@")
  | expectedHash {marker : Char} {behind : List Char} : marker = '@' ∨ marker = '?' →
    behind.head? ≠ some '#' →
      Breaks ('#' :: marker :: behind) (.expectedHash marker (Text.describe behind.head?))

/-- A text with a segmentation that ends neither in a comment nor in a lone hash. -/
def Settled (text : List Char) : Prop :=
  ∃ segments, Segmentation segments text ∧
    ∀ s ∈ segments.getLast?, s ≠ .loneHash ∧ ∀ body, s ≠ .comment body

/-- A text whose part `read` can be read over and whose part `rest` begins with
what is wrong. -/
structure BreaksOff (text read rest : List Char) (kind : ErrorKind) : Prop where
  text_eq : text = read ++ rest
  settled : Settled read
  breaks : Breaks rest kind

/-- A text breaks a mark off exactly when it begins with a fragment. -/
theorem breaks_iff {rest : List Char} {kind : ErrorKind} :
    Breaks rest kind ↔
      ∃ (f : Fragment) (behind : List Char), rest = f.text ++ behind ∧ f.EndsAt behind ∧
        kind = f.error behind.head? := by
  constructor
  · intro h
    cases h with
    | @loneAt behind hend => exact ⟨.loneAt, behind, rfl, hend, rfl⟩
    | @expectedHash marker behind hmarker hend =>
      rcases hmarker with rfl | rfl
      · exact ⟨.hashAt, behind, rfl, hend, rfl⟩
      · exact ⟨.hashQuestion, behind, rfl, hend, rfl⟩
  · intro h
    obtain ⟨f, behind, rfl, hend, rfl⟩ := h
    cases f with
    | loneAt => exact .loneAt hend
    | hashAt => exact .expectedHash (Or.inl rfl) hend
    | hashQuestion => exact .expectedHash (Or.inr rfl) hend

/-- The first character of a fragment is an at sign or a hash. -/
theorem Fragment.head?_text (f : Fragment) (behind : List Char) :
    (f.text ++ behind).head? = some '@' ∨ (f.text ++ behind).head? = some '#' := by
  cases f
  · exact Or.inl rfl
  · exact Or.inr rfl
  · exact Or.inr rfl

/-- In front of a fragment every segment ends but a comment and a lone hash. -/
theorem Segment.endsAt_fragment_iff (s : Segment) (f : Fragment) (behind : List Char) :
    s.EndsAt (f.text ++ behind) ↔ s ≠ .loneHash ∧ ∀ body, s ≠ .comment body := by
  obtain ⟨c, rest, hrest⟩ := List.exists_cons_of_ne_nil
    (List.append_ne_nil_of_left_ne_nil f.text_ne_nil behind)
  have hhead := f.head?_text behind
  rw [hrest] at hhead ⊢
  exact s.endsAt_cons_iff (by rintro rfl; simp at hhead) (by rintro rfl; simp at hhead) rest

namespace Division

/-- The fragment of a division is where the text breaks off. -/
theorem breaksOff_of_fault {start : Position} {text : List Char} {f : Located Fragment}
    (h : (ofText start text).fault = some f) :
    BreaksOff text (ofText start text).segmentText (f.value.text ++ (ofText start text).rest)
      (f.value.error (ofText start text).rest.head?) := by
  have htext := text_ofText start text
  have hfault : (ofText start text).faultText = f.value.text := by rw [faultText, h]
  have hend := endsAt_ofText start text
  rw [hfault] at htext hend
  refine ⟨by rw [← List.append_assoc, htext], ⟨_, segmentation_segmentText start text, ?_⟩,
    breaks_iff.mpr ⟨f.value, _, rfl, endsAt_of_fault h, rfl⟩⟩
  intro s hs
  exact (s.endsAt_fragment_iff f.value _).mp (hend s hs)

/-- Behind a settled text the division of a fragment goes on. -/
theorem ofText_settled_append {read : List Char} (h : Settled read) (start : Position)
    (f : Fragment) (behind : List Char) :
    ofText start (read ++ (f.text ++ behind)) =
      (ofText start read).append (ofText (start.advance read) (f.text ++ behind)) := by
  obtain ⟨segments, hsegments, hlast⟩ := h
  obtain ⟨hfault, hcuts⟩ := ofText_of_segmentation hsegments start
  have hends : (ofText start read).EndsAt (f.text ++ behind) := by
    intro s hs
    rw [hcuts] at hs
    exact (s.endsAt_fragment_iff f behind).mpr (hlast s hs)
  exact ofText_append hfault hends

/-- Where a text breaks off, its division has a fragment. -/
theorem ofText_of_breaksOff {text read rest : List Char} {kind : ErrorKind}
    (h : BreaksOff text read rest kind) (start : Position) :
    (ofText start text).error? = some ⟨kind, start.advance read⟩ ∧
      (ofText start text).segmentText = read := by
  obtain ⟨rfl, hsettled, hbreaks⟩ := h
  obtain ⟨f, behind, rfl, hend, rfl⟩ := breaks_iff.mp hbreaks
  rw [ofText_settled_append hsettled, ofText_fragment_append _ hend]
  refine ⟨rfl, ?_⟩
  show (_ ++ []).flatMap _ = read
  rw [List.append_nil]
  obtain ⟨segments, hsegments, -⟩ := hsettled
  exact segmentText_of_fault_eq_none (ofText_of_segmentation hsegments start).1

end Division

/-- A run fails exactly when its source breaks off somewhere. That place is
the only one, and the error tells it. -/
theorem outcome_error_exact (source : String) (options : Options)
    (hlines : source.toList.count '\n' ≤ 2 ^ 32 - 2) :
    ((∃ e, (Reading.ofSource source options).run.outcome = .error e) ↔
      ∃ read rest kind, BreaksOff source.toList read rest kind) ∧
    (∀ read rest kind read' rest' kind', BreaksOff source.toList read rest kind →
      BreaksOff source.toList read' rest' kind' → read = read' ∧ rest = rest') ∧
    ∀ e read rest kind, (Reading.ofSource source options).run.outcome = .error e →
      BreaksOff source.toList read rest kind →
        e.position.offset = Text.byteSize read ∧ e.position.line.toNat = 1 + read.count '\n' ∧
          e.value = kind := by
  have hrun : ∀ {read rest kind}, BreaksOff source.toList read rest kind →
      (Reading.ofSource source options).run.outcome =
        .error ⟨kind, Position.origin.advance read⟩ := by
    intro read rest kind h
    have herror : (Reading.ofSource source options).division.error? = _ :=
      (Division.ofText_of_breaksOff h .origin).1
    rw [Reading.outcome_run, herror]
  refine ⟨⟨?_, ?_⟩, ?_, ?_⟩
  · intro hfails
    obtain ⟨e, he⟩ := hfails
    cases hfault : (Reading.ofSource source options).division.fault with
    | none => rw [Reading.outcome_of_fault_eq_none hfault] at he; cases he
    | some f => exact ⟨_, _, _, Division.breaksOff_of_fault hfault⟩
  · intro hbreaks
    obtain ⟨read, rest, kind, h⟩ := hbreaks
    exact ⟨_, hrun h⟩
  · intro read rest kind read' rest' kind' h h'
    obtain rfl : read = read' := by
      rw [← (Division.ofText_of_breaksOff h .origin).2]
      exact (Division.ofText_of_breaksOff h' .origin).2
    exact ⟨rfl, List.append_cancel_left (h.text_eq.symm.trans h'.text_eq)⟩
  · intro e read rest kind he h
    rw [hrun h] at he
    obtain rfl : ⟨kind, Position.origin.advance read⟩ = e := Except.error.inj he
    have hread : read.count '\n' ≤ 2 ^ 32 - 2 := by
      rw [h.text_eq, List.count_append] at hlines; omega
    exact ⟨Position.offset_origin_advance read, Position.toNat_line_origin_advance hread, rfl⟩

/-- An at sign in a comment breaks nothing off, the marker on the next line does. -/
theorem outcome_error_exact_behind_comment :
    "!é@\n#@|@".toList.count '\n' ≤ 2 ^ 32 - 2 ∧
    BreaksOff "!é@\n#@|@".toList ['!', 'é', '@', '\n'] ['#', '@', '|', '@']
      (.expectedHash '@' (Text.describe (some '|'))) ∧
    ∃ e, (Reading.ofSource "!é@\n#@|@").run.outcome = .error e ∧
      e.position.offset = 5 ∧ e.position.line.toNat = 2 ∧
        e.value = .expectedHash '@' (Text.describe (some '|')) := by
  have hlines : "!é@\n#@|@".toList.count '\n' ≤ 2 ^ 32 - 2 := by decide
  have hsegments : Segmentation [.comment ['é', '@'], .stray '\n'] ['!', 'é', '@', '\n'] := by
    decide +kernel
  have hbreaks : BreaksOff "!é@\n#@|@".toList ['!', 'é', '@', '\n'] ['#', '@', '|', '@']
      (.expectedHash '@' (Text.describe (some '|'))) :=
    ⟨rfl, ⟨_, hsegments, by simp⟩, .expectedHash (Or.inl rfl) (by decide)⟩
  obtain ⟨hfails, -, herror⟩ := outcome_error_exact "!é@\n#@|@" {} hlines
  obtain ⟨e, he⟩ := hfails.mpr ⟨_, _, _, hbreaks⟩
  exact ⟨hlines, hbreaks, e, he, herror e _ _ _ he hbreaks⟩

end FilterList
