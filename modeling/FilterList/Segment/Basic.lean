import FilterList.Mark

/-!
# Segments of filter text

Filter text falls into segments: marks, comments, hashes that open nothing
(alone at the end of the text or with the character they take along) and
stray characters. Three beginnings of a mark that does not follow, `@`, `#@`
and `#?`, are fragments; no segment starts like them, so text is read up to
the first fragment.
-/
namespace FilterList

/-- A piece of filter text that can be read over. -/
inductive Segment where
  | mark (m : Mark)
  | comment (body : List Char)  -- `!` and the text up to the newline
  | droppedPair (c : Char)      -- `#` and a character that continues no mark
  | loneHash                    -- `#` as the last character of the text
  | stray (c : Char)            -- a character that starts nothing
  deriving DecidableEq, Repr

/-- The source text of a segment. -/
def Segment.text : Segment → List Char
  | mark m => m.spelling
  | comment body => '!' :: body
  | droppedPair c => ['#', c]
  | loneHash => ['#']
  | stray c => [c]

/-- The beginning of a mark that breaks off. -/
inductive Fragment where
  | loneAt        -- `@` without a second one
  | hashAt        -- `#@` without `#`
  | hashQuestion  -- `#?` without `#`
  deriving DecidableEq, Repr

/-- The source text of a fragment. -/
def Fragment.text : Fragment → List Char
  | loneAt => ['@']
  | hashAt => ['#', '@']
  | hashQuestion => ['#', '?']

/-- What is read at one place of the text. -/
inductive Item where
  | segment (s : Segment)
  | fragment (f : Fragment)
  deriving DecidableEq, Repr

/-- The source text of an item. -/
def Item.text : Item → List Char
  | segment s => s.text
  | fragment f => f.text

theorem Segment.text_ne_nil (s : Segment) : s.text ≠ [] := by
  cases s <;> simp [text, Mark.spelling_ne_nil]

theorem Fragment.text_ne_nil (f : Fragment) : f.text ≠ [] := by
  cases f <;> simp [text]

theorem Fragment.newline_not_mem_text (f : Fragment) : '\n' ∉ f.text := by
  cases f <;> decide

end FilterList
