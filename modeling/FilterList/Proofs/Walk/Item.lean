import FilterList.Division.Findings
import FilterList.Proofs.Position
import FilterList.Proofs.Segment.Boundary
import FilterList.Proofs.Walk.Cursor

/-!
# An item byte by byte

A step of a walk sees one character at a time, and goes as far as it must to know
what is in front of it. It ends behind the item that fits there, on the line that
the item leads to, and finds what is to be told about it. `Reads` says so of one
move; moves are taken apart from the left, each over a character it has seen or
on the spot.

Results:
* `Reads.of_past`, `Reads.of_eq`: a move over one character or on the spot.
* `skipLine_eq`: a comment is skipped up to the newline.
* `dropped_reads_droppedPair`, `tryMarkers_reads_mark`, `tryMarkers_reads_fragment`:
  what may stand behind a hash.
* `behind_reads`, `item_reads`: the item in front is read, whichever it is.
-/
namespace FilterList

/-- What is found in an item at `p`, in front of the character `next`. -/
def Item.finding (o : Options) (p : Position) (next : Option Char) : Item → Finding
  | .segment (.mark m) => .token (Token.ofMark m p.line)
  | .segment s =>
    (s.warning?.filter o.reports).elim .nothing fun kind => .warning ⟨kind, p⟩
  | .fragment f => .error ⟨f.error next, p⟩

/-- A segment that deserves a warning is told as the options want it. -/
theorem Item.finding_of_warning? {s : Segment} {kind : WarningKind} (h : s.warning? = some kind)
    (o : Options) (p : Position) (next : Option Char) :
    Item.finding o p next (.segment s) =
      if o.reports kind then .warning ⟨kind, p⟩ else .nothing := by
  have hfinding : Item.finding o p next (.segment s) =
      (s.warning?.filter o.reports).elim .nothing fun kind => .warning ⟨kind, p⟩ := by
    cases s with
    | mark m => simp [Segment.warning?] at h
    | comment body => rfl
    | droppedPair c => rfl
    | loneHash => rfl
    | stray c => rfl
  rw [hfinding, h]
  cases hreports : o.reports kind <;> simp [Option.filter, hreports]

namespace Move

variable {α β : Type} {o : Options} {t t' : Trail} {read taken rest : List Char} {i : Item}

/-- The move reads the item `i` to its end, in front of `rest`. -/
def Reads (m : Move Finding) (o : Options) (t : Trail) (read : List Char) (i : Item)
    (rest : List Char) : Prop :=
  ∃ t', m t = .ok (i.finding o t.here.position rest.head?, t') ∧
    t.LeadsTo t' read i.text rest (t.here.position.advance i.text).line

/-! ## One character -/

theorem bind_of_ok {m : Move α} {f : α → Move β} {a : α} (h : m t = .ok (a, t')) :
    (m >>= f) t = f a t' := by
  simp [bind, StateT.bind, h, Except.bind]

theorem peek_eq (h : t.here.Stands read taken rest) : peek t = .ok (rest.head?, t) := by
  rw [peek, h.peek]
  rfl

theorem lexeme_eq (h : t.here.Stands read taken rest) :
    lexeme t = .ok (String.ofList taken, t) := by
  rw [lexeme, h.lexeme]
  rfl

theorem advance_cons {d : Char} (h : t.here.Stands read taken (d :: rest)) :
    advance t = .ok (some d, t.past d) :=
  bind_of_ok (peek_eq h)

theorem advance_nil (h : t.here.Stands read taken []) : advance t = .ok (none, t) :=
  bind_of_ok (peek_eq h)

theorem accept_eq {d : Char} (h : t.here.Stands read taken rest) :
    accept d t = if rest.head? = some d then .ok (true, t.past d) else .ok (false, t) := by
  unfold accept
  rw [bind_of_ok (peek_eq h)]
  split <;> rfl

theorem accept_cons {d : Char} (h : t.here.Stands read taken (d :: rest)) :
    accept d t = .ok (true, t.past d) := by
  rw [accept_eq h]
  exact if_pos rfl

theorem accept_of_head?_ne {d : Char} (h : t.here.Stands read taken rest)
    (hne : rest.head? ≠ some d) : accept d t = .ok (false, t) := by
  rw [accept_eq h]
  exact if_neg hne

/-! ## Taking a move apart -/

theorem Reads.of_eq {m m' : Move Finding} (heq : m t = m' t) (h : m'.Reads o t read i rest) :
    m.Reads o t read i rest := by
  obtain ⟨t', hmove, hleads⟩ := h
  exact ⟨t', heq.trans hmove, hleads⟩

/-- A move that has gone over the character in front goes on behind it. -/
theorem Reads.of_past {m m' : Move Finding} {d : Char} {ahead : List Char}
    (hstands : t.here.Stands read taken (d :: ahead)) (heq : m t = m' (t.past d))
    (h : m'.Reads o (t.past d) read i rest) : m.Reads o t read i rest := by
  obtain ⟨t', hmove, hleads⟩ := h
  have hpast := (Trail.leadsTo_refl hstands).past
  exact ⟨t', heq.trans hmove, hpast.trans hleads⟩

/-- A move over an item without a newline stays on its line. -/
theorem reads_of_not_mem {m : Move Finding} (hitem : '\n' ∉ i.text)
    (hmove : m t = .ok (i.finding o t.here.position rest.head?, t'))
    (hleads : t.LeadsTo t' read i.text rest t.here.line) : m.Reads o t read i rest := by
  have hline : (t.here.position.advance i.text).line = t.here.line :=
    Position.line_advance_of_not_mem hitem
  refine ⟨t', hmove, ?_⟩
  rwa [hline]

/-! ## Marks and fragments -/

theorem token_reads {m : Mark} (h : t.here.Stands read m.spelling rest) :
    (token m).Reads o t read (.segment (.mark m)) rest :=
  reads_of_not_mem m.newline_not_mem_spelling (bind_of_ok (lexeme_eq h)) (Trail.leadsTo_refl h)

theorem fail_reads {f : Fragment} {kind : ErrorKind} (h : t.here.Stands read f.text rest)
    (hkind : kind = f.error rest.head?) : (fail kind).Reads o t read (.fragment f) rest := by
  subst hkind
  exact reads_of_not_mem f.newline_not_mem_text rfl (Trail.leadsTo_refl h)

/-! ## Bars and at signs -/

theorem bar_reads_domainAnchor (h : t.here.Stands read ['|'] ('|' :: rest)) :
    bar.Reads o t read (.segment (.mark .domainAnchor)) rest :=
  Reads.of_past h (bind_of_ok (accept_cons h)) (token_reads h.past)

theorem bar_reads_anchor (h : t.here.Stands read ['|'] rest) (hend : rest.head? ≠ some '|') :
    bar.Reads o t read (.segment (.mark .anchor)) rest :=
  Reads.of_eq (bind_of_ok (accept_of_head?_ne h hend)) (token_reads h)

theorem atSign_reads_exemption (h : t.here.Stands read ['@'] ('@' :: rest)) :
    atSign.Reads o t read (.segment (.mark .exemption)) rest :=
  Reads.of_past h (bind_of_ok (accept_cons h)) (token_reads h.past)

theorem atSign_reads_loneAt (h : t.here.Stands read ['@'] rest) (hend : rest.head? ≠ some '@') :
    atSign.Reads o t read (.fragment .loneAt) rest := by
  have hlexeme : (do fail (.loneAt (← lexeme)) : Move Finding) t = fail (.loneAt "@") t :=
    bind_of_ok (lexeme_eq h)
  refine Reads.of_eq ((bind_of_ok (accept_of_head?_ne h hend)).trans hlexeme) ?_
  exact fail_reads h rfl

/-! ## Comments -/

theorem skipLine_of_stop {next : Option Char} (h : t.here.peek = .ok next)
    (hnext : next = none ∨ next = some '\n') : skipLine t = .ok ((), t) := by
  rw [skipLine]
  split
  · next e he => rw [h] at he; cases he
  · rfl
  · next c hc =>
    obtain rfl : next = some c := Except.ok.inj (h.symm.trans hc)
    rcases hnext with hnone | hnewline
    · cases hnone
    · exact if_pos (Option.some.inj hnewline)

theorem skipLine_of_ne {c : Char} (h : t.here.peek = .ok (some c)) (hc : c ≠ '\n') :
    skipLine t = skipLine (t.past c) := by
  conv => lhs; rw [skipLine]
  split
  · next e he => rw [h] at he; cases he
  · next he => rw [h] at he; cases he
  · next d hd =>
    obtain rfl : c = d := Option.some.inj (Except.ok.inj (h.symm.trans hd))
    exact if_neg hc

/-- Skipping takes the body of a comment, up to the newline. -/
theorem skipLine_eq {body behind : List Char} (h : t.here.Stands read taken (body ++ behind))
    (hbody : '\n' ∉ body) (hend : behind = [] ∨ behind.head? = some '\n') :
    ∃ t', skipLine t = .ok ((), t') ∧ t.LeadsTo t' read (taken ++ body) behind t.here.line := by
  induction body generalizing t taken with
  | nil =>
    have hnext : behind.head? = none ∨ behind.head? = some '\n' := by
      rcases hend with rfl | hend
      · exact Or.inl rfl
      · exact Or.inr hend
    rw [List.append_nil]
    exact ⟨t, skipLine_of_stop h.peek hnext, Trail.leadsTo_refl h⟩
  | cons c body ih =>
    obtain ⟨hc, hbody⟩ : '\n' ≠ c ∧ '\n' ∉ body := by simpa using hbody
    have hstands : (t.past c).here.Stands read (taken ++ [c]) (body ++ behind) := h.past
    have hpast := (Trail.leadsTo_refl h).past
    obtain ⟨t', hskip, hleads⟩ := ih hstands hbody
    rw [List.append_assoc] at hleads
    exact ⟨t', (skipLine_of_ne h.peek (Ne.symm hc)).trans hskip, hpast.trans hleads⟩

theorem comment_reads {body : List Char} (h : t.here.Stands read ['!'] (body ++ rest))
    (hshape : (Segment.comment body).WellFormed) (hend : (Segment.comment body).EndsAt rest) :
    Reads (do skipLine; return .nothing) o t read (.segment (.comment body)) rest := by
  obtain ⟨t', hskip, hleads⟩ := skipLine_eq h hshape hend
  have hnewline : '\n' ∉ '!' :: body := by
    intro hmem
    rcases List.mem_cons.mp hmem with hbang | hmem
    · cases hbang
    · exact hshape hmem
  exact reads_of_not_mem hnewline (bind_of_ok hskip) hleads

/-! ## Segments that deserve a warning -/

/-- What is told of a hash is told before the character behind it is dropped. -/
theorem unknownHash_eq (h : t.here.Stands read taken rest) :
    unknownHash o t = .ok (if o.reports (.unknownHashSequence (Text.describe rest.head?)) then
        .warning ⟨.unknownHashSequence (Text.describe rest.head?), t.here.position⟩
        else .nothing, t) := by
  show (if o.reportHashes then _ else _ : Move Finding) t = .ok (if o.reportHashes then _ else _, t)
  cases o.reportHashes with
  | false => rfl
  | true => exact bind_of_ok (peek_eq h)

theorem dropped_reads_droppedPair {c : Char} (h : t.here.Stands read ['#'] (c :: rest)) :
    (dropped o).Reads o t read (.segment (.droppedPair c)) rest := by
  have hpast := (Trail.leadsTo_refl h).past
  have hwarn : unknownHash o t =
      .ok (Item.finding o t.here.position rest.head? (.segment (.droppedPair c)), t) := by
    rw [Item.finding_of_warning? rfl]
    exact unknownHash_eq h
  have hdropped : dropped o t = _ := (bind_of_ok hwarn).trans (bind_of_ok (advance_cons h))
  by_cases hc : c = '\n'
  · subst hc
    exact ⟨_, hdropped, hpast.newLine⟩
  · have hnewline : '\n' ∉ ['#', c] := by simp [Ne.symm hc]
    refine reads_of_not_mem hnewline (hdropped.trans ?_) hpast
    rw [if_neg (by simpa using hc)]
    rfl

theorem dropped_reads_loneHash (h : t.here.Stands read ['#'] []) :
    (dropped o).Reads o t read (.segment .loneHash) [] := by
  have hwarn : unknownHash o t =
      .ok (Item.finding o t.here.position none (.segment .loneHash), t) := by
    rw [Item.finding_of_warning? rfl]
    exact unknownHash_eq h
  have hdropped : dropped o t = _ := (bind_of_ok hwarn).trans (bind_of_ok (advance_nil h))
  exact reads_of_not_mem (by decide) hdropped (Trail.leadsTo_refl h)

theorem blank_eq {c : Char} (hc : c ∈ Options.blanks) :
    blank o c t = .ok (if o.reports (.unexpectedCharacter c) then
        .warning ⟨.unexpectedCharacter c, t.here.position⟩ else .nothing, t) := by
  have hreports : o.reports (.unexpectedCharacter c) = !o.skipBlanks := by
    simp [Options.reports, hc]
  rw [hreports, blank]
  cases o.skipBlanks <;> rfl

/-- A stray character that is not a newline is told on the spot. -/
theorem behind_eq_of_stray {c : Char} (hc : c ∉ Segment.starters) (hnewline : c ≠ '\n') :
    behind o c t = .ok (if o.reports (.unexpectedCharacter c) then
        .warning ⟨.unexpectedCharacter c, t.here.position⟩ else .nothing, t) := by
  by_cases hblank : c ∈ Options.blanks
  · have hbehind : behind o c = blank o c := by
      simp only [Options.blanks, List.mem_cons, List.not_mem_nil, or_false] at hblank
      rcases hblank with rfl | rfl | rfl | rfl
      · rfl
      · rfl
      · rfl
      · exact absurd rfl hnewline
    rw [hbehind]
    exact blank_eq hblank
  · have hreports : o.reports (.unexpectedCharacter c) = true := by
      simp [Options.reports, hblank]
    simp only [Segment.starters, List.mem_cons, List.not_mem_nil, or_false, not_or] at hc
    simp only [Options.blanks, List.mem_cons, List.not_mem_nil, or_false, not_or] at hblank
    have hsingle : Mark.single? c = none := by
      simp [Mark.single?, Mark.singles, List.lookup_eq_none_iff, hc]
    rw [hreports]
    unfold behind
    rw [hsingle]
    split <;> simp_all [warn]

theorem behind_reads_stray {c : Char} (hc : c ∉ Segment.starters) (h : t.here.Stands read [c] rest) :
    (behind o c).Reads o t read (.segment (.stray c)) rest := by
  have hfinding := Item.finding_of_warning? (s := .stray c) rfl o t.here.position rest.head?
  by_cases hnewline : c = '\n'
  · subst hnewline
    refine ⟨_, ?_, (Trail.leadsTo_refl h).newLine⟩
    rw [hfinding]
    exact bind_of_ok (blank_eq (by decide))
  · have hitem : '\n' ∉ [c] := by simpa using Ne.symm hnewline
    refine reads_of_not_mem hitem ?_ (Trail.leadsTo_refl h)
    rw [hfinding]
    exact behind_eq_of_stray hc hnewline

/-! ## Hashes -/

section Hash

variable {otherwise : Move Finding} {marker : Char} {m : Mark} {others : List (Char × Mark)}

theorem tryMarkers_skip (h : t.here.Stands read taken rest) (hne : rest.head? ≠ some marker) :
    tryMarkers otherwise ((marker, m) :: others) t = tryMarkers otherwise others t :=
  bind_of_ok (accept_of_head?_ne h hne)

theorem tryMarkers_reads_mark (h : t.here.Stands read ['#'] (marker :: '#' :: rest))
    (hspelling : m.spelling = ['#', marker, '#']) :
    (tryMarkers otherwise ((marker, m) :: others)).Reads o t read (.segment (.mark m)) rest := by
  have hmarker : (t.past marker).here.Stands read ['#', marker] ('#' :: rest) := h.past
  refine Reads.of_past h (bind_of_ok (accept_cons h)) ?_
  refine Reads.of_past hmarker (bind_of_ok (accept_cons hmarker)) (token_reads ?_)
  rw [hspelling]
  exact hmarker.past

theorem tryMarkers_reads_fragment {f : Fragment} (h : t.here.Stands read ['#'] (marker :: rest))
    (hend : rest.head? ≠ some '#') (htext : f.text = ['#', marker])
    (herror : ∀ next, f.error next = .expectedHash marker (Text.describe next)) :
    (tryMarkers otherwise ((marker, m) :: others)).Reads o t read (.fragment f) rest := by
  have hmarker : (t.past marker).here.Stands read ['#', marker] rest := h.past
  have hpeek : tryMarkers otherwise ((marker, m) :: others) t =
      fail (.expectedHash marker (Text.describe rest.head?)) (t.past marker) :=
    (bind_of_ok (accept_cons h)).trans
      ((bind_of_ok (accept_of_head?_ne hmarker hend)).trans (bind_of_ok (peek_eq hmarker)))
  refine Reads.of_past h hpeek (fail_reads ?_ (herror _).symm)
  rw [htext]
  exact hmarker

end Hash

/-- Behind a hash without a second one the markers are tried. -/
theorem hash_eq_tryMarkers (h : t.here.Stands read ['#'] rest) (hne : rest.head? ≠ some '#') :
    hash o t = tryMarkers (dropped o) hashMarkers t :=
  bind_of_ok (accept_of_head?_ne h hne)

/-- Behind a hash that continues no mark the next character is dropped. -/
theorem hash_eq_dropped (h : t.here.Stands read ['#'] rest)
    (hrest : ∀ c ∈ Segment.continuers, rest.head? ≠ some c) : hash o t = dropped o t := by
  have hhash := hash_eq_tryMarkers (o := o) h (hrest '#' (by decide))
  have hat := hrest '@' (by decide)
  have hquestion := hrest '?' (by decide)
  exact hhash.trans ((tryMarkers_skip h hat).trans (tryMarkers_skip h hquestion))

/-! ## Whole items -/

theorem behind_reads_mark {m : Mark} {c : Char} {ahead : List Char}
    (htext : m.spelling = c :: ahead) (hend : (Segment.mark m).EndsAt rest)
    (h : t.here.Stands read [c] (ahead ++ rest)) :
    (behind o c).Reads o t read (.segment (.mark m)) rest := by
  cases m <;> obtain ⟨rfl, rfl⟩ := List.cons.inj htext
  case anchor => exact bar_reads_anchor h hend
  case domainAnchor => exact bar_reads_domainAnchor h
  case exemption => exact atSign_reads_exemption h
  case cssSeparator => exact Reads.of_past h (bind_of_ok (accept_cons h)) (token_reads h.past)
  case exemptCssSeparator =>
    exact Reads.of_eq (hash_eq_tryMarkers h (by simp)) (tryMarkers_reads_mark h rfl)
  case hidingCssSeparator =>
    refine Reads.of_eq ((hash_eq_tryMarkers h (by simp)).trans (tryMarkers_skip h (by simp))) ?_
    exact tryMarkers_reads_mark h rfl
  -- the other marks are one character
  all_goals exact token_reads h

theorem behind_reads_fragment {f : Fragment} {c : Char} {ahead : List Char}
    (htext : f.text = c :: ahead) (hend : f.EndsAt rest)
    (h : t.here.Stands read [c] (ahead ++ rest)) :
    (behind o c).Reads o t read (.fragment f) rest := by
  cases f <;> obtain ⟨rfl, rfl⟩ := List.cons.inj htext
  case loneAt => exact atSign_reads_loneAt h hend
  case hashAt =>
    refine Reads.of_eq (hash_eq_tryMarkers h (by simp)) ?_
    exact tryMarkers_reads_fragment h hend rfl fun _ => rfl
  case hashQuestion =>
    refine Reads.of_eq ((hash_eq_tryMarkers h (by simp)).trans (tryMarkers_skip h (by simp))) ?_
    exact tryMarkers_reads_fragment h hend rfl fun _ => rfl

/-- Behind its first character an item is read to its end. -/
theorem behind_reads {c : Char} {ahead : List Char} (htext : i.text = c :: ahead)
    (hfits : i.Fits rest) (h : t.here.Stands read [c] (ahead ++ rest)) :
    (behind o c).Reads o t read i rest := by
  cases i with
  | fragment f => exact behind_reads_fragment htext hfits h
  | segment s =>
    obtain ⟨hshape, hend⟩ := hfits
    cases s with
    | mark m => exact behind_reads_mark htext hend h
    | comment body =>
      obtain ⟨rfl, rfl⟩ := List.cons.inj htext
      exact comment_reads h hshape hend
    | droppedPair d =>
      obtain ⟨rfl, rfl⟩ := List.cons.inj htext
      have hcontinuers : ∀ c ∈ Segment.continuers, (d :: rest).head? ≠ some c := by
        intro c hc hd
        obtain rfl : d = c := Option.some.inj hd
        exact hshape hc
      exact Reads.of_eq (hash_eq_dropped h hcontinuers) (dropped_reads_droppedPair h)
    | loneHash =>
      obtain ⟨rfl, rfl⟩ := List.cons.inj htext
      obtain rfl : rest = [] := hend
      exact Reads.of_eq (hash_eq_dropped h (by simp)) (dropped_reads_loneHash h)
    | stray d =>
      obtain ⟨rfl, rfl⟩ := List.cons.inj htext
      exact behind_reads_stray hshape h

/-- The item in front of the cursor is read, whichever it is. -/
theorem item_reads (hfits : i.Fits rest) (h : t.here.Stands read [] (i.text ++ rest)) :
    (item o).Reads o t read i rest := by
  obtain ⟨c, ahead, htext⟩ := List.exists_cons_of_ne_nil i.text_ne_nil
  rw [htext] at h
  refine Reads.of_past h (bind_of_ok (advance_cons h)) ?_
  exact behind_reads htext hfits h.past

end Move

end FilterList
