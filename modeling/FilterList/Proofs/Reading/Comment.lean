import FilterList.Proofs.Division.LastSegment
import FilterList.Proofs.Division.Shifted
import FilterList.Proofs.Reading.Diagnostics

/-!
# The text of a comment

What a comment says has no influence on what is found. Two sources that differ
in the text of one comment have the same tokens and the same diagnostics; those
behind the comment stand as much further on as the text is longer. A comment
begins at an exclamation mark unless a hash takes that along; where one is open
already, the mark and the text belong to it, and where a fragment stops the
division in front of the mark, the text is not read at all.

`Position.Across` relates the places of the two sources, and the divisions and
runs that tell the same at such places are `Across` as well.

Results:
* `ofText_openComment`, `ofText_comment`: the division of a text with a comment
  that goes on, and of one with a comment in it.
* `across_of_fault`, `across_comment`, `ofText_across`: the divisions of two
  texts that differ in a comment.
* `run_comment`: the runs of two sources that differ in a comment.
-/
namespace FilterList

/-- `q` is the place `p`, where behind the first `bound` bytes a text of `old`
bytes is replaced by one of `new` bytes. -/
structure Position.Across (bound old new : Nat) (p q : Position) : Prop where
  line : q.line = p.line
  side : q.offset < bound ↔ p.offset < bound
  front : p.offset < bound → q.offset = p.offset
  behind : bound ≤ p.offset → q.offset + old = p.offset + new

/-- The same thing on both sides of the replaced text. -/
structure Located.Across {α : Type} (bound old new : Nat) (a b : Located α) : Prop where
  value : b.value = a.value
  position : a.position.Across bound old new b.position

/-- Two runs that tell the same, at places across the replaced text. -/
structure Run.Across (bound old new : Nat) (a b : Run) : Prop where
  outcome : (∃ tokens, a.outcome = .ok tokens ∧ b.outcome = .ok tokens) ∨
    ∃ e e', a.outcome = .error e ∧ b.outcome = .error e' ∧ Located.Across bound old new e e'
  reported : List.Forall₂ (Located.Across bound old new) a.reported b.reported

/-- Two divisions that tell the same, at places across the replaced text. -/
structure Division.Across (bound old new : Nat) (d e : Division) : Prop where
  tokens : e.tokens = d.tokens
  closing : e.closing = d.closing
  warnings : List.Forall₂ (Located.Across bound old new) d.warnings e.warnings
  error : Option.Rel (Located.Across bound old new) d.error? e.error?

variable {bound old new : Nat}

theorem Located.across_of_lt {α : Type} {a : Located α} (h : a.position.offset < bound) :
    Located.Across bound old new a a :=
  ⟨rfl, rfl, Iff.rfl, fun _ => rfl, fun _ => by omega⟩

theorem Located.across_shift {α : Type} {a : Located α} (h : bound ≤ a.position.offset) :
    Located.Across bound old new (a.shift old) (a.shift new) := by
  refine ⟨rfl, rfl, ?_, ?_, ?_⟩
  · simp only [Located.shift, Position.shift]
    omega
  · simp only [Located.shift, Position.shift]
    omega
  · simp only [Located.shift, Position.shift]
    omega

theorem across_of_forall_lt {α : Type} {as : List (Located α)}
    (h : ∀ a ∈ as, a.position.offset < bound) :
    List.Forall₂ (Located.Across bound old new) as as :=
  List.forall₂_same.mpr fun a ha => Located.across_of_lt (h a ha)

theorem across_map_shift {α : Type} {as : List (Located α)}
    (h : ∀ a ∈ as, bound ≤ a.position.offset) :
    List.Forall₂ (Located.Across bound old new) (as.map (Located.shift old))
      (as.map (Located.shift new)) := by
  rw [List.forall₂_map_left_iff, List.forall₂_map_right_iff, List.forall₂_same]
  exact fun a ha => Located.across_shift (h a ha)

/-! ## Divisions -/

namespace Division

/-- An open comment at the end of a text takes along what follows on its line. -/
theorem ofText_openComment {start : Position} {text body : List Char} {segments : List Segment}
    (h : Segmentation (segments ++ [.comment body]) text) :
    ∃ front, text = front ++ '!' :: body ∧
      ∀ said behind, '\n' ∉ said → behind = [] ∨ behind.head? = some '\n' →
        ofText start (text ++ (said ++ behind)) =
          (ofText start front).append
            ((ofText (start.advance (text ++ said)) behind).push
              ⟨.comment (body ++ said), start.advance front⟩) := by
  obtain ⟨front, rfl, hbody, hmore⟩ := ofText_of_concat h start
  refine ⟨front, rfl, fun said behind hsaid hbehind => ?_⟩
  have hshape : (Segment.comment (body ++ said)).WellFormed := by
    intro hmem
    rcases List.mem_append.mp hmem with hmem | hmem
    · exact hbody hmem
    · exact hsaid hmem
  have htext : (Segment.comment body).text ++ (said ++ behind) =
      (Segment.comment (body ++ said)).text ++ behind := by
    simp [Segment.text]
  have hplace : start.advance (front ++ (Segment.comment body).text ++ said) =
      (start.advance front).advance (Segment.comment (body ++ said)).text := by
    rw [← Position.advance_append]
    simp [Segment.text]
  rw [hmore, htext, ofText_segment_append _ hshape hbehind, hplace]

/-- Without an open comment, a text without a lone hash at its end ends in front
of an exclamation mark. -/
theorem endsAt_mark {start : Position} {text behind : List Char}
    (hsegments : Segmentation (ofText start text).cuts text) (hhash : text.getLast? ≠ some '#')
    (hopen : ∀ body, (ofText start text).cuts.getLast? ≠ some (.comment body)) :
    (ofText start text).EndsAt ('!' :: behind) := by
  intro s hs
  refine (s.endsAt_cons_iff (by decide) (by decide) _).mpr ⟨?_, ?_⟩
  · rintro rfl
    obtain ⟨segments, hcuts⟩ := List.getLast?_eq_some_iff.mp hs
    rw [hcuts] at hsegments
    obtain ⟨front, rfl, -, -⟩ := hsegments.of_concat
    exact hhash (by simp [Segment.text])
  · rintro body rfl
    exact hopen body hs

/-- What stands in front of a comment, up to where the comment begins. -/
theorem ofText_comment {start : Position} {text : List Char}
    (hfault : (ofText start text).fault = none) (hhash : text.getLast? ≠ some '#') :
    ∃ front body, text ++ ['!'] = front ++ '!' :: body ∧
      ∀ said behind, '\n' ∉ said → behind = [] ∨ behind.head? = some '\n' →
        ofText start (text ++ '!' :: (said ++ behind)) =
          (ofText start front).append
            ((ofText (start.advance (text ++ '!' :: said)) behind).push
              ⟨.comment (body ++ said), start.advance front⟩) := by
  have hsegments := segmentation_segmentText start text
  rw [segmentText_of_fault_eq_none hfault] at hsegments
  by_cases hopen : ∃ body, (ofText start text).cuts.getLast? = some (.comment body)
  · -- the last segment is a comment, which takes the mark along as well
    obtain ⟨body, hlast⟩ := hopen
    obtain ⟨segments, hcuts⟩ := List.getLast?_eq_some_iff.mp hlast
    rw [hcuts] at hsegments
    obtain ⟨front, rfl, hmore⟩ := ofText_openComment hsegments
    refine ⟨front, body ++ ['!'], by simp, fun said behind hsaid hbehind => ?_⟩
    have hmark : '\n' ∉ '!' :: said := by simpa using hsaid
    simpa using hmore ('!' :: said) behind hmark hbehind
  · -- every other segment ends in front of the mark, but for a lone hash
    have hclosed : ∀ body, (ofText start text).cuts.getLast? ≠ some (.comment body) :=
      fun body hlast => hopen ⟨body, hlast⟩
    refine ⟨text, [], rfl, fun said behind hsaid hbehind => ?_⟩
    have hshape : (Segment.comment said).WellFormed := hsaid
    have htext : '!' :: (said ++ behind) = (Segment.comment said).text ++ behind := rfl
    rw [ofText_append hfault (endsAt_mark hsegments hhash hclosed), htext, ofText_segment_append _ hshape hbehind,
      ← Position.advance_append]
    rfl

/-- A comment in front of a division tells nothing. -/
theorem tokens_push_comment (body : List Char) (p : Position) (d : Division) :
    (d.push ⟨.comment body, p⟩).tokens = d.tokens := by
  rw [tokens_push]
  rfl

theorem warnings_push_comment (body : List Char) (p : Position) (d : Division) :
    (d.push ⟨.comment body, p⟩).warnings = d.warnings := by
  rw [warnings_push]
  rfl

/-- Divisions with the same in front of a comment and the same behind it, there
shifted by the size of what the comment says. -/
theorem across_comment {d e : Division} {body body' : List Char} {p p' : Position}
    (hfront : ∀ x ∈ d.diagnostics, x.position.offset < bound)
    (hbehind : ∀ x ∈ e.diagnostics, bound ≤ x.position.offset) :
    Across bound old new (d.append ((e.shift old).push ⟨.comment body, p⟩))
      (d.append ((e.shift new).push ⟨.comment body', p'⟩)) := by
  refine ⟨?_, ?_, ?_, ?_⟩
  · rw [tokens_append, tokens_append, tokens_push_comment, tokens_push_comment, tokens_shift,
      tokens_shift]
  · show (e.shift new).closing = (e.shift old).closing
    rw [closing_shift, closing_shift]
  · rw [warnings_append, warnings_append, warnings_push_comment, warnings_push_comment,
      warnings_shift, warnings_shift]
    exact List.rel_append (across_of_forall_lt fun w hw => hfront _ (mem_diagnostics_of_warning hw))
      (across_map_shift fun w hw => hbehind _ (mem_diagnostics_of_warning hw))
  · show Option.Rel _ (e.shift old).error? (e.shift new).error?
    rw [error?_shift, error?_shift]
    cases he : e.error? with
    | none => exact .none
    | some x => exact .some (Located.across_shift (hbehind _ (mem_diagnostics_of_error he)))

theorem offset_lt_byteSize {text : List Char} {d : Diagnostic}
    (h : d ∈ (ofText .origin text).diagnostics) : d.position.offset < Text.byteSize text := by
  have hlt := (offset_of_mem_diagnostics h).2
  rwa [show Position.origin.offset = 0 from rfl, Nat.zero_add] at hlt

/-- A division that stops in front of an exclamation mark reads nothing behind it;
all that its fragment may see is the mark. -/
theorem across_of_fault {text behind behind' : List Char} {f : Located Fragment}
    (hfault : (ofText .origin text).fault = some f) :
    Across (Text.byteSize text) old new (ofText .origin (text ++ '!' :: behind))
      (ofText .origin (text ++ '!' :: behind')) := by
  have hend : ∀ behind, f.value.EndsAt ((ofText .origin text).rest ++ '!' :: behind) :=
    fun behind => (endsAt_of_fault hfault).append_cons (by decide) (by decide) behind
  rw [ofText_append_of_fault hfault (hend behind), ofText_append_of_fault hfault (hend behind')]
  have herror : (ofText .origin text).error? =
      some ⟨f.value.error (ofText .origin text).rest.head?, f.position⟩ := by
    rw [error?, hfault]
    rfl
  have hlt : f.position.offset < Text.byteSize text :=
    offset_lt_byteSize (mem_diagnostics_of_error herror)
  have hnext : ((ofText .origin text).rest ++ '!' :: behind).head? =
      ((ofText .origin text).rest ++ '!' :: behind').head? := by
    cases (ofText .origin text).rest <;> rfl
  refine ⟨rfl, rfl, across_of_forall_lt fun w hw => ?_, ?_⟩
  · exact offset_lt_byteSize (mem_diagnostics_of_warning hw)
  · simp only [error?, hfault, Option.map_some, hnext]
    exact .some (Located.across_of_lt hlt)

/-- The divisions of two texts that differ in a comment. -/
theorem ofText_across {text said said' behind : List Char} (hhash : text.getLast? ≠ some '#')
    (hsaid : '\n' ∉ said) (hsaid' : '\n' ∉ said')
    (hbehind : behind = [] ∨ behind.head? = some '\n') :
    Across (Text.byteSize text) (Text.byteSize said) (Text.byteSize said')
      (ofText .origin (text ++ '!' :: (said ++ behind)))
      (ofText .origin (text ++ '!' :: (said' ++ behind))) := by
  cases hfault : (ofText .origin text).fault with
  | some f => exact across_of_fault hfault
  | none =>
    obtain ⟨front, body, htext, hdivision⟩ := ofText_comment hfault hhash
    have hplace : ∀ {said}, '\n' ∉ said → Position.origin.advance (text ++ '!' :: said) =
        (Position.origin.advance (text ++ ['!'])).shift (Text.byteSize said) := by
      intro said hsaid
      rw [← Position.advance_of_not_mem hsaid, ← Position.advance_append]
      simp
    rw [hdivision said behind hsaid hbehind, hdivision said' behind hsaid' hbehind,
      hplace hsaid, hplace hsaid', ofText_shift, ofText_shift]
    have hsize := congrArg Text.byteSize htext
    simp only [Text.byteSize_append, Text.byteSize_cons, Text.byteSize_nil] at hsize
    have hmark : ('!').utf8Size = 1 := by decide
    refine across_comment (fun x hx => ?_) (fun x hx => ?_)
    · have hlt := offset_lt_byteSize hx
      omega
    · have hle := (offset_of_mem_diagnostics hx).1
      rw [Position.offset_origin_advance, Text.byteSize_append] at hle
      omega

end Division

/-! ## Runs -/

namespace Reading

/-- Readings whose divisions tell the same across the replaced text do so in a run. -/
theorem run_across {r r' : Reading} (h : Division.Across bound old new r.division r'.division)
    (hoptions : r'.options = r.options) (htokens : r'.tokens = r.tokens) :
    Run.Across bound old new r.run r'.run := by
  constructor
  · have herror := h.error
    rw [outcome_run, outcome_run]
    generalize r.division.error? = e at herror ⊢
    generalize r'.division.error? = e' at herror ⊢
    cases herror with
    | none =>
      left
      refine ⟨_, rfl, ?_⟩
      rw [tokens_run, tokens_run, htokens, h.tokens, h.closing]
    | some he => exact .inr ⟨_, _, rfl, rfl, he⟩
  · rw [reported_run, reported_run, hoptions]
    exact r.options.select_rel (fun _ _ hw => hw.value) h.warnings

/-- Two sources that differ in what a comment says are read alike: a run tells
the same tokens or the same error, and the same warnings, on the same lines; in
front of the comment at the same offsets, and behind it as much further on as
the one text is longer. -/
theorem run_comment (text said said' behind : String) (options : Options)
    (hhash : text.toList.getLast? ≠ some '#') (hsaid : '\n' ∉ said.toList)
    (hsaid' : '\n' ∉ said'.toList)
    (hbehind : behind = "" ∨ behind.toList.head? = some '\n') :
    Run.Across text.utf8ByteSize said.utf8ByteSize said'.utf8ByteSize
      (ofSource (text ++ "!" ++ said ++ behind) options).run
      (ofSource (text ++ "!" ++ said' ++ behind) options).run := by
  have htext : ∀ said : String, (text ++ "!" ++ said ++ behind).toList =
      text.toList ++ '!' :: (said.toList ++ behind.toList) := by
    intro said
    simp [String.toList_append]
  have hbehind' : behind.toList = [] ∨ behind.toList.head? = some '\n' := by
    rcases hbehind with rfl | h
    · exact .inl rfl
    · exact .inr h
  have hacross := Division.ofText_across hhash hsaid hsaid' hbehind'
  rw [← htext said, ← htext said', Text.byteSize_toList, Text.byteSize_toList,
    Text.byteSize_toList] at hacross
  exact run_across hacross rfl rfl

/-- Markers in a comment hide; the at sign on the next line moves with its end. -/
theorem run_comment_hides_markers :
    "é%".toList.getLast? ≠ some '#' ∧ '\n' ∉ "@#@é".toList ∧ '\n' ∉ "|".toList ∧
    ("\n@x" = "" ∨ "\n@x".toList.head? = some '\n') ∧
    (ofSource "é%!@#@é\n@x").run.outcome = .error ⟨.loneAt "@", ⟨2, 10⟩⟩ ∧
    ∃ e, (ofSource "é%!|\n@x").run.outcome = .error e ∧ e.value = .loneAt "@" ∧
      e.position.line = 2 ∧ e.position.offset + 5 = 10 + 1 := by
  have hhash : "é%".toList.getLast? ≠ some '#' := by decide
  have hsaid : '\n' ∉ "@#@é".toList := by decide
  have hsaid' : '\n' ∉ "|".toList := by decide
  have hbehind : "\n@x" = "" ∨ "\n@x".toList.head? = some '\n' := by decide
  have houtcome : (ofSource "é%!@#@é\n@x").run.outcome = .error ⟨.loneAt "@", ⟨2, 10⟩⟩ := by
    decide +kernel
  refine ⟨hhash, hsaid, hsaid', hbehind, houtcome, ?_⟩
  rcases (run_comment "é%" "@#@é" "|" "\n@x" {} hhash hsaid hsaid' hbehind).outcome with
    ⟨tokens, hok, -⟩ | ⟨e, e', he, he', hacross⟩
  · exact absurd (houtcome.symm.trans hok) (by simp)
  · obtain rfl := Except.error.inj (houtcome.symm.trans he)
    exact ⟨e', he', hacross.value, hacross.position.line, hacross.position.behind (by decide)⟩

end Reading

end FilterList
