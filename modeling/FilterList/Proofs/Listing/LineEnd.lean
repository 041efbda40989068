import FilterList.Proofs.Position
import FilterList.Proofs.Reading.Run
import FilterList.Proofs.Text.Quoted

/-!
# Line ends of two characters

A text may end its lines by a carriage return and a newline. It is cut up
differently then: the return is a stray of its own, or it ends a comment, or a
hash takes it along where it took the newline before. None of these is a token,
and the newline behind it is still read, so the listing stays the same. Only an
error that names the next character names the return, and places have moved by
one byte for each line end in front of them.

Results:
* `withReturns_append`, `byteSize_withReturns`, `count_withReturns`: the text
  with carriage returns.
* `Retold.push`, `retold_push_right_iff`: segments in front of divisions that
  tell the same.
* `ofText_withReturns`: the division of a text with carriage returns.
* `tokensOf_withReturns`: the listing of a source with carriage returns.
-/
namespace FilterList

namespace Text

/-- The text with a carriage return in front of each newline. -/
def withReturns (text : List Char) : List Char :=
  text.flatMap fun c => if c = '\n' then ['\r', '\n'] else [c]

@[simp]
theorem withReturns_nil : withReturns [] = [] := rfl

@[simp]
theorem withReturns_newline (text : List Char) :
    withReturns ('\n' :: text) = '\r' :: '\n' :: withReturns text := rfl

theorem withReturns_cons {c : Char} (h : c ≠ '\n') (text : List Char) :
    withReturns (c :: text) = c :: withReturns text := by
  simp [withReturns, h]

@[simp]
theorem withReturns_append (a b : List Char) :
    withReturns (a ++ b) = withReturns a ++ withReturns b := by
  simp [withReturns]

theorem withReturns_of_not_mem {text : List Char} (h : '\n' ∉ text) : withReturns text = text := by
  induction text with
  | nil => rfl
  | cons c text ih =>
    rw [List.mem_cons, not_or] at h
    rw [withReturns_cons (Ne.symm h.1), ih h.2]

/-- The returns come first where a newline did, and no other character does. -/
theorem head?_withReturns (text : List Char) :
    (withReturns text).head? = text.head?.map fun c => if c = '\n' then '\r' else c := by
  cases text with
  | nil => rfl
  | cons c text =>
    by_cases h : c = '\n'
    · subst h; rfl
    · simp [withReturns_cons h, h]

/-- Each newline has one more byte. -/
theorem byteSize_withReturns (text : List Char) :
    byteSize (withReturns text) = byteSize text + text.count '\n' := by
  induction text with
  | nil => rfl
  | cons c text ih =>
    by_cases h : c = '\n'
    · subst h
      have hreturn : ('\r').utf8Size = 1 := by decide
      rw [withReturns_newline, byteSize_cons, byteSize_cons, byteSize_cons, List.count_cons_self, ih]
      omega
    · rw [withReturns_cons h, byteSize_cons, byteSize_cons, List.count_cons_of_ne h, ih]
      omega

theorem count_withReturns (text : List Char) :
    (withReturns text).count '\n' = text.count '\n' := by
  induction text with
  | nil => rfl
  | cons c text ih =>
    by_cases h : c = '\n'
    · subst h
      rw [withReturns_newline, List.count_cons_of_ne (by decide), List.count_cons_self,
        List.count_cons_self, ih]
    · rw [withReturns_cons h, List.count_cons_of_ne h, List.count_cons_of_ne h, ih]

end Text

open Text (withReturns)

/-! ## Where items end -/

/-- Where the next character is no return, it is the same one with returns. -/
theorem Text.head?_withReturns_ne {text : List Char} {c : Char} (hc : c ≠ '\r')
    (h : text.head? ≠ some c) : (withReturns text).head? ≠ some c := by
  rw [head?_withReturns]
  intro heq
  obtain ⟨d, hd, hchange⟩ := Option.map_eq_some_iff.mp heq
  split at hchange
  · exact hc hchange.symm
  · exact h (hd.trans (congrArg some hchange))

theorem Fragment.EndsAt.withReturns {f : Fragment} {rest : List Char} (h : f.EndsAt rest) :
    f.EndsAt (withReturns rest) := by
  cases f with
  | loneAt => exact Text.head?_withReturns_ne (by decide) h
  | hashAt => exact Text.head?_withReturns_ne (by decide) h
  | hashQuestion => exact Text.head?_withReturns_ne (by decide) h

/-- A segment ends in front of a return as it did in front of the newline, but
for a comment, which takes the return along. -/
theorem Segment.EndsAt.withReturns {s : Segment} {rest : List Char} (h : s.EndsAt rest)
    (hcomment : (∀ body, s ≠ .comment body) ∨ rest = []) : s.EndsAt (withReturns rest) := by
  cases s with
  | mark m =>
    cases m
    case anchor => exact Text.head?_withReturns_ne (by decide) h
    all_goals trivial
  | comment body =>
    rcases hcomment with hne | rfl
    · exact absurd rfl (hne body)
    · exact .inl rfl
  | droppedPair c => trivial
  | loneHash =>
    obtain rfl : rest = [] := h
    rfl
  | stray c => trivial

/-- The error when a carriage return stands in front of the newline. -/
def ErrorKind.atReturn : ErrorKind → ErrorKind
  | loneAt token => loneAt token
  | expectedHash marker found =>
    expectedHash marker
      (if found = Text.describe (some '\n') then Text.describe (some '\r') else found)

/-- A fragment sees the return where it saw the newline. -/
theorem error_withReturns (f : Fragment) (rest : List Char) :
    f.error (withReturns rest).head? = (f.error rest.head?).atReturn := by
  rw [Text.head?_withReturns]
  cases rest with
  | nil =>
    have hend : Text.describe none ≠ Text.describe (some '\n') := fun h => by
      cases Text.describe_injective h
    cases f <;> simp [Fragment.error, ErrorKind.atReturn, hend]
  | cons c rest =>
    by_cases h : c = '\n'
    · subst h
      cases f <;> simp [Fragment.error, ErrorKind.atReturn]
    · have hfound : Text.describe (some c) ≠ Text.describe (some '\n') := fun heq =>
        h (Option.some.inj (Text.describe_injective heq))
      cases f <;> simp [Fragment.error, ErrorKind.atReturn, h, hfound]

/-! ## Divisions that tell the same -/

/-- The error `e'` of the source with carriage returns, where the source has `e`. -/
structure Error.Retold (source : List Char) (e e' : Error) : Prop where
  value : e'.value = e.value.atReturn
  position : ∃ read rest, source = read ++ rest ∧ e.position = Position.origin.advance read ∧
    e'.position = Position.origin.advance (withReturns read)

/-- The division `e` of a text with carriage returns tells what `d` does. -/
structure Division.Retold (source : List Char) (d e : Division) : Prop where
  tokens : e.tokens = d.tokens
  closing : e.closing = d.closing
  error : Option.Rel (Error.Retold source) d.error? e.error?

theorem Position.line_advance_withReturns (p : Position) (text : List Char) :
    (p.advance (withReturns text)).line = (p.advance text).line := by
  rw [line_advance, line_advance, Text.count_withReturns]

namespace Division

variable {source : List Char} {d e : Division}

theorem Retold.push (h : Retold source d e) {s s' : Segment} {p p' : Position}
    (htoken : s'.token? p'.line = s.token? p.line) :
    Retold source (d.push ⟨s, p⟩) (e.push ⟨s', p'⟩) := by
  refine ⟨?_, h.closing, h.error⟩
  rw [tokens_push, tokens_push, htoken, h.tokens]

/-- A segment that is no mark may stand on one side alone. -/
theorem retold_push_right_iff {s : Segment} {p : Position} (hs : s.token? p.line = none) :
    Retold source d (e.push ⟨s, p⟩) ↔ Retold source d e := by
  have htokens : (e.push ⟨s, p⟩).tokens = e.tokens := by
    rw [tokens_push, hs]
    rfl
  constructor
  · intro h
    exact ⟨htokens ▸ h.tokens, h.closing, h.error⟩
  · intro h
    exact ⟨htokens.trans h.tokens, h.closing, h.error⟩

/-- A segment that ends in the same place with returns behind it. -/
theorem Retold.segment {s : Segment} {rest : List Char} {p q : Position} (hshape : s.WellFormed)
    (hend : s.EndsAt (withReturns rest)) (hnewline : '\n' ∉ s.text) (hline : q.line = p.line)
    (h : Retold source d (ofText (q.advance (withReturns s.text)) (withReturns rest))) :
    Retold source (d.push ⟨s, p⟩) (ofText q (withReturns s.text ++ withReturns rest)) := by
  rw [Text.withReturns_of_not_mem hnewline] at h ⊢
  rw [ofText_segment_append q hshape hend]
  exact h.push (by rw [hline])

/-- A newline read as a stray or behind a hash, with the return in front of it. -/
theorem Retold.newline {s : Segment} {rest : List Char} {p q : Position} (s' : Segment)
    (hs : s.token? p.line = none) (hs' : s'.token? q.line = none) (hshape : s'.WellFormed)
    (hend : ∀ behind, s'.EndsAt behind)
    (htext : withReturns s.text = s'.text ++ (Segment.stray '\n').text)
    (h : Retold source d (ofText (q.advance (withReturns s.text)) (withReturns rest))) :
    Retold source (d.push ⟨s, p⟩) (ofText q (withReturns s.text ++ withReturns rest)) := by
  have hstray : (Segment.stray '\n').WellFormed := by decide
  rw [htext] at h ⊢
  rw [List.append_assoc, ofText_segment_append q hshape (hend _),
    ofText_segment_append _ hstray trivial, retold_push_right_iff hs']
  rw [Position.advance_append] at h
  exact h.push hs.symm

/-- A comment takes the return of its line along. -/
theorem Retold.comment {body rest : List Char} {p q : Position}
    (hshape : (Segment.comment body).WellFormed)
    (h : Retold source d
      (ofText (q.advance (Segment.comment body).text) (withReturns ('\n' :: rest)))) :
    Retold source (d.push ⟨.comment body, p⟩)
      (ofText q ((Segment.comment body).text ++ withReturns ('\n' :: rest))) := by
  have hreturn : (Segment.stray '\r').WellFormed := by decide
  have hlonger : (Segment.comment (body ++ ['\r'])).WellFormed := by
    intro hmem
    rcases List.mem_append.mp hmem with hmem | hmem
    · exact hshape hmem
    · exact absurd hmem (by decide)
  have htext : (Segment.comment body).text ++ withReturns ('\n' :: rest) =
      (Segment.comment (body ++ ['\r'])).text ++ '\n' :: withReturns rest := by
    simp [Segment.text]
  have hplace : q.advance (Segment.comment (body ++ ['\r'])).text =
      (q.advance (Segment.comment body).text).advance (Segment.stray '\r').text := by
    rw [← Position.advance_append]
    rfl
  have hstray : withReturns ('\n' :: rest) =
      (Segment.stray '\r').text ++ '\n' :: withReturns rest := rfl
  rw [htext, ofText_segment_append q hlonger (.inr rfl), hplace]
  rw [hstray, ofText_segment_append _ hreturn trivial, retold_push_right_iff rfl] at h
  exact h.push rfl

/-- Behind `before`, a text with carriage returns tells what the text itself does. -/
theorem ofText_withReturns (before text : List Char) :
    Retold (before ++ text) (ofText (Position.origin.advance before) text)
      (ofText (Position.origin.advance (withReturns before)) (withReturns text)) := by
  have hline := Position.origin.line_advance_withReturns before
  induction text using item_induction generalizing before with
  | nil =>
    rw [Text.withReturns_nil, ofText_nil, ofText_nil]
    refine ⟨rfl, ?_, .none⟩
    simp only [closing, hline]
  | segment s rest hshape hend ih =>
    have hrest := ih (before ++ s.text) (Position.origin.line_advance_withReturns _)
    rw [List.append_assoc, Position.advance_append, Text.withReturns_append,
      Position.advance_append] at hrest
    rw [ofText_segment_append _ hshape hend, Text.withReturns_append]
    cases s with
    | mark m =>
      exact hrest.segment hshape (hend.withReturns (.inl (by simp))) m.newline_not_mem_spelling hline
    | comment body =>
      have hbody : '\n' ∉ (Segment.comment body).text := by
        intro hmem
        rcases List.mem_cons.mp hmem with hmem | hmem
        · exact absurd hmem (by decide)
        · exact hshape hmem
      rcases hend with rfl | hhead
      · exact hrest.segment hshape (.inl rfl) hbody hline
      · obtain ⟨behind, rfl⟩ := List.head?_eq_some_iff.mp hhead
        rw [Text.withReturns_of_not_mem hbody] at hrest ⊢
        exact hrest.comment hshape
    | droppedPair c =>
      by_cases hc : c = '\n'
      · subst hc
        exact hrest.newline (.droppedPair '\r') rfl rfl (by decide) (fun _ => trivial) rfl
      · exact hrest.segment hshape trivial (by simp [Segment.text, Ne.symm hc]) hline
    | loneHash => exact hrest.segment hshape (hend.withReturns (.inl (by simp))) (by decide) hline
    | stray c =>
      by_cases hc : c = '\n'
      · subst hc
        exact hrest.newline (.stray '\r') rfl rfl (by decide) (fun _ => trivial) rfl
      · exact hrest.segment hshape trivial (by simp [Segment.text, Ne.symm hc]) hline
  | fragment f rest hend =>
    rw [Text.withReturns_append, Text.withReturns_of_not_mem f.newline_not_mem_text,
      ofText_fragment_append _ hend, ofText_fragment_append _ hend.withReturns]
    exact ⟨rfl, rfl, .some ⟨error_withReturns f rest, before, _, rfl, rfl, rfl⟩⟩

theorem Retold.fault_eq_none_iff (h : Retold source d e) : e.fault = none ↔ d.fault = none := by
  have herror := h.error
  rw [← error?_eq_none_iff, ← error?_eq_none_iff]
  generalize d.error? = x at herror ⊢
  generalize e.error? = y at herror ⊢
  cases herror <;> simp

end Division

/-! ## Listings -/

/-- A source with a carriage return in front of each newline has the same
listing. If it has none, the error is on the same line and of the same kind, but
names the return where the newline was the next character, and its offset counts
the returns in front of it. -/
theorem tokensOf_withReturns (source : String) :
    (∀ tokens, tokensOf source = .ok tokens ↔
      tokensOf (String.ofList (withReturns source.toList)) = .ok tokens) ∧
    ∀ e, tokensOf source = .error e → ∃ e' before behind,
      tokensOf (String.ofList (withReturns source.toList)) = .error e' ∧
      source.toList = before ++ behind ∧ Text.byteSize before = e.position.offset ∧
      e'.value = e.value.atReturn ∧ e'.position.line = e.position.line ∧
      e'.position.offset = e.position.offset + before.count '\n' := by
  have hretold : Division.Retold source.toList (Division.ofText .origin source.toList)
      (Division.ofText .origin (withReturns source.toList)) :=
    Division.ofText_withReturns [] source.toList
  refine ⟨fun tokens => ?_, fun e he => ?_⟩
  · rw [tokensOf_eq_ok_iff, tokensOf_eq_ok_iff, String.toList_ofList, hretold.fault_eq_none_iff,
      hretold.tokens, hretold.closing]
  · have herror := hretold.error
    rw [tokensOf_eq_error_iff.mp he] at herror
    generalize hreturns : (Division.ofText .origin (withReturns source.toList)).error? = x at herror
    cases herror with
    | @some _ e' hmoved =>
      obtain ⟨before, behind, hsource, hplace, hplace'⟩ := hmoved.position
      refine ⟨e', before, behind, ?_, hsource, ?_, hmoved.value, ?_, ?_⟩
      · rw [tokensOf_eq_error_iff, String.toList_ofList, hreturns]
      · rw [hplace, Position.offset_origin_advance]
      · rw [hplace, hplace', Position.line_advance_withReturns]
      · rw [hplace, hplace', Position.offset_origin_advance, Position.offset_origin_advance,
          Text.byteSize_withReturns]

/-- A comment takes one return along and a hash the next; the marker sees the third. -/
theorem tokensOf_withReturns_behind_hash :
    tokensOf "!é\n#\n^#@\n" = .error ⟨.expectedHash '@' (Text.describe (some '\n')), ⟨3, 7⟩⟩ ∧
    ∃ e before behind, tokensOf "!é\r\n#\r\n^#@\r\n" = .error e ∧
      "!é\n#\n^#@\n".toList = before ++ behind ∧ Text.byteSize before = 7 ∧
      e.value = .expectedHash '@' (Text.describe (some '\r')) ∧ e.position.line = 3 ∧
      e.position.offset = 7 + before.count '\n' := by
  have herror : tokensOf "!é\n#\n^#@\n" =
      .error ⟨.expectedHash '@' (Text.describe (some '\n')), ⟨3, 7⟩⟩ := by
    decide +kernel
  have hreturns : String.ofList (withReturns "!é\n#\n^#@\n".toList) = "!é\r\n#\r\n^#@\r\n" := by
    decide
  obtain ⟨e, before, behind, he, hsource, hbytes, hvalue, hline, hoffset⟩ :=
    (tokensOf_withReturns "!é\n#\n^#@\n").2 _ herror
  rw [hreturns] at he
  exact ⟨herror, e, before, behind, he, hsource, hbytes, hvalue, hline, hoffset⟩

end FilterList
