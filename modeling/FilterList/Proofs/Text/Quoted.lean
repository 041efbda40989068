import FilterList.Proofs.Text.Hexadecimal
import FilterList.Text.Quoted

/-!
# Reading quoted characters back

`Written` and `Describes` are the rules for messages about the next character,
one for the form between the quotes and one for the message as a whole. Which
characters may stand for themselves is a table that both of them take. A message
can be read back whatever the table is, and even by a reader with another one: the
three kinds of forms differ in length, and within a kind the character is known
from itself, from the table of letters, or from its digits.

Results:
* `written_iff`, `describes_iff`: what is written is what the rules say, which
  leave no choice once it is known what shows.
* `Written.unique`, `Describes.unique`: a form is about one character, a message
  about one character or about the end of the input.
* `Written.cases_of_mem`, `Describes.cases_of_mem`: what characters a message is
  made of.
* `describeBy_injective`, `not_mem_describeBy`: a message tells what is next, and
  has no line break.
* `describeBy_unambiguous`, `describe_unambiguous`: the rules, the unambiguity and
  the single line of a message, with every table and with the one in use.
-/
namespace FilterList.Text

variable {shows shows' : Char → Bool}

/-! ## Written forms -/

/-- The characters with a short escape. -/
def shortEscaped : List Char :=
  shortEscapes.map Prod.fst

/-- Whether `c` is the plain space or one of the letters, digits and signs
behind it up to the tilde. -/
def isPrintable (c : Char) : Bool :=
  0x20 ≤ c.toNat && c.toNat < 0x7F

/-- The rules for the form of a character, when those with `shows` may stand
for themselves. -/
inductive Written (shows : Char → Bool) (c : Char) : List Char → Prop where
  | short {letter : Char} : (c, letter) ∈ shortEscapes → Written shows c ['\\', letter]
  | itself : c ∉ shortEscaped → shows c = true → Written shows c [c]
  | code {digits : List Char} :
    c ∉ shortEscaped → shows c = false → HexNumeral digits c.toNat →
      Written shows c (['\\', 'u', '\x7b'] ++ digits ++ ['\x7d'])

theorem lookup_shortEscapes_eq_none_iff {c : Char} :
    shortEscapes.lookup c = none ↔ c ∉ shortEscaped := by
  simp only [List.lookup_eq_none_iff, bne_iff_ne, shortEscaped, List.mem_map, not_exists, not_and]
  exact ⟨fun h p hp heq => h p hp heq.symm, fun h p hp heq => h p hp heq.symm⟩

theorem written_escape (c : Char) : Written shows c (escape shows c) := by
  unfold escape
  split
  · next letter hlookup =>
    obtain ⟨before, behind, htable, -⟩ := List.lookup_eq_some_iff.mp hlookup
    exact .short (by simp [htable])
  · next hlookup =>
    have hlong : c ∉ shortEscaped := lookup_shortEscapes_eq_none_iff.mp hlookup
    split
    · next hshows => exact .itself hlong hshows
    · next hshows =>
      exact .code hlong (Bool.eq_false_iff.mpr hshows) (hexNumeral_toDigits c.toNat)

/-- The rules leave no choice between two forms of a character. -/
theorem written_iff {c : Char} {form : List Char} :
    Written shows c form ↔ form = escape shows c := by
  constructor
  · intro h
    cases h with
    | @short letter hletter =>
      have hall : ∀ p ∈ shortEscapes, shortEscapes.lookup p.1 = some p.2 := by decide
      have hlookup : shortEscapes.lookup c = some letter := hall (c, letter) hletter
      simp [escape, hlookup]
    | itself hlong hshows => simp [escape, lookup_shortEscapes_eq_none_iff.mpr hlong, hshows]
    | code hlong hshows hdigits =>
      rw [hdigits.eq_toDigits]
      simp [escape, lookup_shortEscapes_eq_none_iff.mpr hlong, hshows, hexDigits]
  · rintro rfl
    exact written_escape c

/-- No letter stands for two characters. -/
theorem eq_of_mem_shortEscapes {c d letter : Char} (hc : (c, letter) ∈ shortEscapes)
    (hd : (d, letter) ∈ shortEscapes) : c = d :=
  (by decide : ∀ p ∈ shortEscapes, ∀ q ∈ shortEscapes, p.2 = q.2 → p.1 = q.1) _ hc _ hd rfl

/-- A form is about one character, whatever shows. -/
theorem Written.unique {c d : Char} {form form' : List Char}
    (hc : Written shows c form) (hd : Written shows' d form') (h : form = form') : c = d := by
  cases hc with
  | @short k hk =>
    cases hd with
    | @short l hl =>
      obtain rfl : k = l := by simpa using h
      exact eq_of_mem_shortEscapes hk hl
    | itself => simp at h
    | code => simp at h
  | itself =>
    cases hd with
    | short => simp at h
    | itself => simpa using h
    | code => simp at h
  | @code digits _ _ hdigits =>
    cases hd with
    | short => simp at h
    | itself => simp at h
    | @code digits' _ _ hdigits' =>
      obtain rfl : digits = digits' := by simpa using h
      exact Char.toNat_inj.mp (hdigits.value.symm.trans hdigits'.value)

theorem isPrintable_of_mem {text : List Char} (htext : text.all isPrintable = true)
    {x : Char} (hx : x ∈ text) : isPrintable x = true :=
  List.all_eq_true.mp htext x hx

/-- A form has only printable characters, the character itself apart. -/
theorem Written.cases_of_mem {c x : Char} {form : List Char}
    (h : Written shows c form) (hx : x ∈ form) :
    isPrintable x = true ∨ (shows x = true ∧ x ∉ shortEscaped) := by
  cases h with
  | short hletter =>
    have hletters : (shortEscapes.all fun p => ['\\', p.2].all isPrintable) = true := by
      decide
    exact Or.inl (isPrintable_of_mem (List.all_eq_true.mp hletters _ hletter) hx)
  | itself hlong hshows =>
    obtain rfl := List.mem_singleton.mp hx
    exact Or.inr ⟨hshows, hlong⟩
  | code _ _ hdigits =>
    left
    rcases List.mem_append.mp hx with hx | hclose
    · rcases List.mem_append.mp hx with hopen | hdigit
      · exact isPrintable_of_mem (by decide) hopen
      · have halphabet : hexAlphabet.all isPrintable = true := by decide
        exact isPrintable_of_mem halphabet (hdigits.lowercase x hdigit)
    · exact isPrintable_of_mem (by decide) hclose

/-! ## Messages -/

/-- The rules for what a message says of the next character of the input. -/
inductive Describes (shows : Char → Bool) : String → Option Char → Prop where
  | endOfInput : Describes shows "end of input" none
  | character {c : Char} {form : List Char} :
    Written shows c form → Describes shows (String.ofList (['\x27'] ++ form ++ ['\x27'])) (some c)

theorem describes_describeBy (next : Option Char) : Describes shows (describeBy shows next) next := by
  cases next with
  | none => exact .endOfInput
  | some c => exact .character (written_escape c)

/-- What is said of the next character is what the rules say of it. -/
theorem describes_iff {text : String} {next : Option Char} :
    Describes shows text next ↔ text = describeBy shows next := by
  constructor
  · intro h
    cases h with
    | endOfInput => rfl
    | character hform => rw [written_iff.mp hform]; rfl
  · rintro rfl
    exact describes_describeBy next

/-- No character is between the quotes of the words for the end of the input. -/
theorem ofList_quotes_ne_endOfInput (form : List Char) :
    String.ofList (['\x27'] ++ form ++ ['\x27']) ≠ "end of input" := by
  intro h
  have hhead := congrArg (fun s : String => s.toList.head?) h
  simp [String.toList_ofList] at hhead

/-- A message is about one character, or about the end of the input, whatever shows. -/
theorem Describes.unique {text text' : String} {next next' : Option Char}
    (hnext : Describes shows text next) (hnext' : Describes shows' text' next')
    (h : text = text') : next = next' := by
  cases hnext with
  | endOfInput =>
    cases hnext' with
    | endOfInput => rfl
    | character => exact absurd h.symm (ofList_quotes_ne_endOfInput _)
  | character hc =>
    cases hnext' with
    | endOfInput => exact absurd h (ofList_quotes_ne_endOfInput _)
    | character hd =>
      obtain ⟨hfront, -⟩ := List.append_singleton_inj.mp (String.ofList_injective h)
      exact congrArg some (hc.unique hd (List.append_cancel_left hfront))

/-- A message has only printable characters, the one it is about apart. -/
theorem Describes.cases_of_mem {text : String} {next : Option Char} {x : Char}
    (h : Describes shows text next) (hx : x ∈ text.toList) :
    isPrintable x = true ∨ (shows x = true ∧ x ∉ shortEscaped) := by
  cases h with
  | endOfInput => exact Or.inl (isPrintable_of_mem (by decide) hx)
  | character hform =>
    rw [String.toList_ofList, List.mem_append, List.mem_append] at hx
    rcases hx with (hopen | hform') | hclose
    · exact Or.inl (isPrintable_of_mem (by decide) hopen)
    · exact hform.cases_of_mem hform'
    · exact Or.inl (isPrintable_of_mem (by decide) hclose)

/-- What is said of the next character is said of no other one. -/
theorem describeBy_injective {next next' : Option Char}
    (h : describeBy shows next = describeBy shows next') : next = next' :=
  (describes_describeBy next).unique (describes_describeBy next') h

/-- What has a short escape and is not printable is in no message. -/
theorem not_mem_describeBy {x : Char} (hprintable : isPrintable x = false)
    (hshort : x ∈ shortEscaped) (next : Option Char) : x ∉ (describeBy shows next).toList := by
  intro hx
  rcases (describes_describeBy next).cases_of_mem hx with hx | ⟨-, hlong⟩
  · rw [hprintable] at hx
    cases hx
  · exact hlong hshort

theorem describe_injective {next next' : Option Char} (h : describe next = describe next') :
    next = next' :=
  describeBy_injective h

theorem describe_ne_endOfInput (c : Char) : describe (some c) ≠ "end of input" :=
  ofList_quotes_ne_endOfInput _

theorem newline_not_mem_describe (next : Option Char) : '\n' ∉ (describe next).toList :=
  not_mem_describeBy (by decide) (by decide) next

/-- The rules say one thing of the next character and of the end of the input,
different things of different ones, and nothing with a line break in it. -/
theorem describeBy_unambiguous (shows : Char → Bool) :
    (∀ text next, Describes shows text next ↔ text = describeBy shows next) ∧
      (∀ next next', describeBy shows next = describeBy shows next' ↔ next = next') ∧
      ∀ next, '\n' ∉ (describeBy shows next).toList ∧ '\r' ∉ (describeBy shows next).toList := by
  refine ⟨fun text next => describes_iff, ?_, ?_⟩
  · intro next next'
    exact ⟨describeBy_injective, congrArg (describeBy shows)⟩
  · intro next
    exact ⟨not_mem_describeBy (by decide) (by decide) next,
      not_mem_describeBy (by decide) (by decide) next⟩

/-- So it is with the table that messages are written with, and with every other. -/
theorem describe_unambiguous :
    (∀ text next, Describes Unicode.isVisible text next ↔ text = describe next) ∧
      (∀ next next', describe next = describe next' ↔ next = next') ∧
      (∀ next, '\n' ∉ (describe next).toList ∧ '\r' ∉ (describe next).toList) ∧
      ∀ shows,
        (∀ text next, Describes shows text next ↔ text = describeBy shows next) ∧
        (∀ next next', describeBy shows next = describeBy shows next' ↔ next = next') ∧
        ∀ next, '\n' ∉ (describeBy shows next).toList ∧ '\r' ∉ (describeBy shows next).toList := by
  obtain ⟨hrules, hinjective, hline⟩ := describeBy_unambiguous Unicode.isVisible
  exact ⟨hrules, hinjective, hline, describeBy_unambiguous⟩

example :
    [some '\n', some 'n', some '\\', some '\x07', none].map describe =
      ["'\\n'", "'n'", "'\\\\'", "'\\u\x7b7\x7d'", "end of input"] := by
  decide +kernel

end FilterList.Text
