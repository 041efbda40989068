import FilterList.Proofs.Reading.Run
import FilterList.Proofs.Text.Quoted

/-!
# Nothing is lost

A listing accounts for its source: the tokens and the warnings, each in order
and each for a piece of its own, share the text out among them, and only the
comments are left over. Tokens do not say where they stand. The warnings do, so
an account is read from its offset on: the next piece belongs to the next
warning if that one stands here, and to the next token otherwise.

Results:
* `Covers.unique`: a warning says which text it is about.
* `account_ofText`: a division without a fragment accounts for its text.
* `Account.unique`: without comments an account has one text only.
* `source_eq_of_listing_eq`: two sources without comments that have the same
  listing are the same.
-/
namespace FilterList

/-- The text that a warning is about: the character, or the hash with what it
takes along. -/
def WarningKind.Covers : WarningKind → List Char → Prop
  | unexpectedCharacter c, text => text = [c]
  | unknownHashSequence found, text =>
    ∃ next : Option Char, text = '#' :: next.toList ∧ found = Text.describe next

theorem WarningKind.Covers.unique {kind : WarningKind} {text text' : List Char}
    (h : kind.Covers text) (h' : kind.Covers text') : text = text' := by
  cases kind with
  | unexpectedCharacter c => exact h.trans h'.symm
  | unknownHashSequence found =>
    obtain ⟨next, rfl, hnext⟩ := h
    obtain ⟨next', rfl, hnext'⟩ := h'
    rw [Text.describe_injective (hnext.symm.trans hnext')]

/-- The text at `offset` falls into the lexemes of the tokens, the texts of the
warnings, which stand where they say, and comments. -/
inductive Account : Nat → List Token → List Warning → List Char → Prop where
  | nil {offset : Nat} : Account offset [] [] []
  | token {offset : Nat} {t : Token} {tokens : List Token} {warnings : List Warning}
    {behind : List Char} :
    t.lexeme.toList ≠ [] →
    Account (offset + Text.byteSize t.lexeme.toList) tokens warnings behind →
      Account offset (t :: tokens) warnings (t.lexeme.toList ++ behind)
  | warning {offset : Nat} {w : Warning} {tokens : List Token} {warnings : List Warning}
    {text behind : List Char} :
    w.value.Covers text → w.position.offset = offset →
    Account (offset + Text.byteSize text) tokens warnings behind →
      Account offset tokens (w :: warnings) (text ++ behind)
  | comment {offset : Nat} {tokens : List Token} {warnings : List Warning}
    {body behind : List Char} :
    '\n' ∉ body → behind = [] ∨ behind.head? = some '\n' →
    Account (offset + Text.byteSize ('!' :: body)) tokens warnings behind →
      Account offset tokens warnings ('!' :: body ++ behind)

/-- The tokens of the listing, but for the one of the end, and the warnings
account for the source. -/
def Listing.Accounts (listing : Listing) (source : String) : Prop :=
  ∃ (tokens : List Token) (line : UInt32), listing.tokens = tokens ++ [Token.endOfInput line] ∧
    Account 0 tokens listing.warnings source.toList

/-! ## A division accounts for its text -/

theorem Segment.covers_of_warning? {s : Segment} {kind : WarningKind}
    (h : s.warning? = some kind) : kind.Covers s.text := by
  cases s with
  | mark m => simp [warning?] at h
  | comment body => simp [warning?] at h
  | droppedPair c =>
    obtain rfl := Option.some.inj h
    exact ⟨some c, rfl, rfl⟩
  | loneHash =>
    obtain rfl := Option.some.inj h
    exact ⟨none, rfl, rfl⟩
  | stray c =>
    obtain rfl := Option.some.inj h
    rfl

/-- The token of a mark accounts for the mark. -/
theorem Account.of_mark {offset : Nat} {tokens : List Token} {warnings : List Warning}
    {behind : List Char} (m : Mark) (line : UInt32)
    (h : Account (offset + Text.byteSize m.spelling) tokens warnings behind) :
    Account offset (Token.ofMark m line :: tokens) warnings (m.spelling ++ behind) := by
  have hlexeme : (Token.ofMark m line).lexeme.toList = m.spelling := String.toList_ofList
  rw [← hlexeme] at h ⊢
  exact .token (by rw [hlexeme]; exact m.spelling_ne_nil) h

/-- Without a fragment the tokens and the warnings account for the text. -/
theorem account_ofText {start : Position} {text : List Char}
    (h : (Division.ofText start text).fault = none) :
    Account start.offset (Division.ofText start text).tokens (Division.ofText start text).warnings
      text := by
  induction text using Division.item_induction generalizing start with
  | nil => rw [Division.ofText_nil]; exact .nil
  | segment s rest hshape hend ih =>
    rw [Division.ofText_segment_append start hshape hend] at h ⊢
    have hrest := ih h
    rw [Position.offset_advance] at hrest
    rw [Division.tokens_push, Division.warnings_push]
    cases s with
    | mark m => exact .of_mark m start.line hrest
    | comment body => exact .comment hshape hend hrest
    | droppedPair c => exact .warning (Segment.covers_of_warning? rfl) rfl hrest
    | loneHash => exact .warning (Segment.covers_of_warning? rfl) rfl hrest
    | stray c => exact .warning (Segment.covers_of_warning? rfl) rfl hrest
  | fragment f rest hend => simp [Division.ofText_fragment_append start hend] at h

/-! ## An account has one text -/

/-- No warning stands in front of the text. -/
theorem Account.le_offset {offset : Nat} {tokens : List Token} {warnings : List Warning}
    {text : List Char} (h : Account offset tokens warnings text) :
    ∀ w ∈ warnings, offset ≤ w.position.offset := by
  induction h with
  | nil => simp
  | token _ _ ih => intro w hw; have := ih w hw; omega
  | warning _ hoffset _ ih =>
    intro w hw
    rcases List.mem_cons.mp hw with rfl | hw
    · omega
    · have := ih w hw; omega
  | comment _ _ _ ih => intro w hw; have := ih w hw; omega

/-- A warning that stands here is not the next one behind a token. -/
theorem Account.offset_ne {offset : Nat} {t : Token} {tokens : List Token} {w : Warning}
    {warnings : List Warning} {behind : List Char} (hlexeme : t.lexeme.toList ≠ [])
    (h : Account (offset + Text.byteSize t.lexeme.toList) tokens (w :: warnings) behind) :
    w.position.offset ≠ offset := by
  have hpos := List.length_pos_iff.mpr hlexeme
  have hsize := Text.length_le_byteSize t.lexeme.toList
  have hle := h.le_offset w List.mem_cons_self
  omega

/-- Without comments an account has one text only. -/
theorem Account.unique {offset : Nat} {tokens : List Token} {warnings : List Warning}
    {a b : List Char} (ha : Account offset tokens warnings a)
    (hb : Account offset tokens warnings b) (hbang : '!' ∉ a) (hbang' : '!' ∉ b) : a = b := by
  induction ha generalizing b with
  | nil =>
    cases hb with
    | nil => rfl
    | comment _ _ _ => simp at hbang'
  | token hlexeme hbehind ih =>
    cases hb with
    | token _ hbehind' =>
      have hrest := ih hbehind' (fun h => hbang (List.mem_append_right _ h))
        (fun h => hbang' (List.mem_append_right _ h))
      rw [hrest]
    | warning _ hoffset _ => exact absurd hoffset (Account.offset_ne hlexeme hbehind)
    | comment _ _ _ => simp at hbang'
  | warning hcovers hoffset hbehind ih =>
    cases hb with
    | token hlexeme hbehind' => exact absurd hoffset (Account.offset_ne hlexeme hbehind')
    | warning hcovers' _ hbehind' =>
      obtain rfl := hcovers.unique hcovers'
      have hrest := ih hbehind' (fun h => hbang (List.mem_append_right _ h))
        (fun h => hbang' (List.mem_append_right _ h))
      rw [hrest]
    | comment _ _ _ => simp at hbang'
  | comment _ _ _ _ => simp at hbang

/-! ## Listings -/

/-- A listing accounts for its source. -/
theorem accounts_ofSource {source : String} {listing : Listing}
    (h : Listing.ofSource source = .ok listing) : listing.Accounts source := by
  obtain ⟨hfault, htokens, hwarnings⟩ := listing_eq_ok_iff.mp h
  rw [Options.select_default] at hwarnings
  rw [Division.closing, hfault] at htokens
  refine ⟨_, _, htokens, ?_⟩
  rw [show listing.warnings = _ from hwarnings]
  exact account_ofText hfault

/-- A listing accounts for the whole source, comments apart, and so a source
without comments is known from its listing. -/
theorem source_eq_of_listing_eq {a b : String} {listing listing' : Listing}
    (ha : Listing.ofSource a = .ok listing) (hb : Listing.ofSource b = .ok listing') :
    listing.Accounts a ∧
    ('!' ∉ a.toList → '!' ∉ b.toList → listing.tokens = listing'.tokens →
      listing.warnings = listing'.warnings → a = b) := by
  refine ⟨accounts_ofSource ha, fun hbang hbang' htokens hwarnings => ?_⟩
  obtain ⟨tokens, line, hlist, haccount⟩ := accounts_ofSource ha
  obtain ⟨tokens', line', hlist', haccount'⟩ := accounts_ofSource hb
  have hsame : tokens = tokens' := by
    rw [hlist, hlist'] at htokens
    exact (List.append_singleton_inj.mp htokens).1
  rw [← hsame, ← hwarnings] at haccount'
  exact String.toList_injective (haccount.unique haccount' hbang hbang')

/-- One source in two spellings: a bar, a stray of two bytes, a hash that takes
the newline along, and a mark on the second line. -/
theorem source_eq_of_listing_eq_dropped_newline :
    ∃ listing, Listing.ofSource "|é#\n##" = .ok listing ∧
      Listing.ofSource (String.ofList ['|', 'é', '#', '\n', '#', '#']) = .ok listing ∧
      '!' ∉ "|é#\n##".toList ∧ '!' ∉ (String.ofList ['|', 'é', '#', '\n', '#', '#']).toList ∧
      listing.Accounts "|é#\n##" ∧
      "|é#\n##" = String.ofList ['|', 'é', '#', '\n', '#', '#'] := by
  have hlisting : Listing.ofSource "|é#\n##" =
      .ok ⟨[Token.ofMark .anchor 1, Token.ofMark .cssSeparator 2, Token.endOfInput 2],
        [⟨.unexpectedCharacter 'é', ⟨1, 1⟩⟩, ⟨.unknownHashSequence "'\\n'", ⟨1, 3⟩⟩]⟩ := by
    decide +kernel
  have hspelled : String.ofList ['|', 'é', '#', '\n', '#', '#'] = "|é#\n##" := by decide
  have hbang : '!' ∉ "|é#\n##".toList := by decide
  rw [hspelled]
  obtain ⟨haccounts, hunique⟩ := source_eq_of_listing_eq hlisting hlisting
  exact ⟨_, hlisting, hlisting, hbang, hbang, haccounts, hunique hbang hbang rfl rfl⟩

end FilterList
