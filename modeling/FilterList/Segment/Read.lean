import FilterList.Segment.Basic

/-!
# Reading one item

`Item.read` takes the item at the start of a non-empty text and the text
behind it. A second bar always joins the first, a comment always runs to the
end of its line, and a hash takes the next character along unless that
character begins one of the three hash marks.

Results:
* `text_read`: the item and what is behind it make up the text.
* `length_read_le`: an item takes at least one character.
-/
namespace FilterList.Item

/-- The item at a bar; `rest` is the text behind it. -/
def readBar : List Char → Item × List Char
  | '|' :: rest => (.segment (.mark .domainAnchor), rest)
  | rest => (.segment (.mark .anchor), rest)

/-- The item at an at sign. -/
def readAt : List Char → Item × List Char
  | '@' :: rest => (.segment (.mark .exemption), rest)
  | rest => (.fragment .loneAt, rest)

/-- The comment at an exclamation mark; the newline stays behind it. -/
def readComment (rest : List Char) : Item × List Char :=
  (.segment (.comment (rest.takeWhile (· ≠ '\n'))), rest.dropWhile (· ≠ '\n'))

/-- The item at a hash. -/
def readHash : List Char → Item × List Char
  | '#' :: rest => (.segment (.mark .cssSeparator), rest)
  | '@' :: '#' :: rest => (.segment (.mark .exemptCssSeparator), rest)
  | '@' :: rest => (.fragment .hashAt, rest)
  | '?' :: '#' :: rest => (.segment (.mark .hidingCssSeparator), rest)
  | '?' :: rest => (.fragment .hashQuestion, rest)
  | c :: rest => (.segment (.droppedPair c), rest)
  | [] => (.segment .loneHash, [])

/-- The item at the start of `c :: rest`, and the text behind it. -/
def read (c : Char) (rest : List Char) : Item × List Char :=
  match Mark.single? c with
  | some m => (.segment (.mark m), rest)
  | none =>
    match c with
    | '|' => readBar rest
    | '@' => readAt rest
    | '!' => readComment rest
    | '#' => readHash rest
    | _ => (.segment (.stray c), rest)

/-! ## Nothing is lost -/

theorem text_readBar (rest : List Char) :
    (readBar rest).1.text ++ (readBar rest).2 = '|' :: rest := by
  unfold readBar; split <;> rfl

theorem text_readAt (rest : List Char) :
    (readAt rest).1.text ++ (readAt rest).2 = '@' :: rest := by
  unfold readAt; split <;> rfl

theorem text_readComment (rest : List Char) :
    (readComment rest).1.text ++ (readComment rest).2 = '!' :: rest := by
  simp [readComment, text, Segment.text]

theorem text_readHash (rest : List Char) :
    (readHash rest).1.text ++ (readHash rest).2 = '#' :: rest := by
  unfold readHash; split <;> rfl

/-- The item read and the text behind it make up the text. -/
theorem text_read (c : Char) (rest : List Char) :
    (read c rest).1.text ++ (read c rest).2 = c :: rest := by
  unfold read
  split
  · next m h => simp [text, Segment.text, Mark.spelling_of_single? h]
  · split
    · exact text_readBar rest
    · exact text_readAt rest
    · exact text_readComment rest
    · exact text_readHash rest
    · rfl

theorem text_ne_nil (i : Item) : i.text ≠ [] := by
  cases i with
  | segment s => exact s.text_ne_nil
  | fragment f => exact f.text_ne_nil

/-- An item takes at least one character. -/
theorem length_read_le (c : Char) (rest : List Char) : (read c rest).2.length ≤ rest.length := by
  have htext := congrArg List.length (text_read c rest)
  have hpos := List.length_pos_iff.mpr (text_ne_nil (read c rest).1)
  simp at htext; omega

end FilterList.Item
