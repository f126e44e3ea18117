import SearchQuery.Proofs.Spacing.Carried
import SearchQuery.Proofs.Spacing.Words
import SearchQuery.Proofs.Token.Partition
set_option autoImplicit false

/-!
# Words with blanks between them

A text is woven from words with a gap before each. Where every word is the text of a token that
stands by itself, the scan of the text takes these tokens again, at their new places.
-/

namespace SearchQuery

open Lexer

/-- A token that is cut from its own text when nothing or a blank follows. -/
structure Token.Stands (token : Token) : Prop where
  begins : ∃ first rest, token.text.toList = first :: rest ∧ Text.isBlank first = false
  cut : ∀ after, Clear after →
    Lexer.cut (token.text.toList ++ after) = .ok ⟨token.kind, token.text.toList, after⟩

/-- Two points right behind a single wildcard. -/
structure Token.Pins (wildcard dots : Token) : Prop where
  text : wildcard.text = "*" ∨ wildcard.text = "?"
  kind : dots.kind = .dotDot
  start : dots.start = wildcard.stop

/-- Tokens that stand by themselves, apart from wildcards with two points right behind them. -/
inductive Standing : List Token → Prop where
  | nil : Standing []
  | cons {token : Token} {tokens : List Token} :
      token.Stands → (∀ dots ∈ tokens.head?, ¬ token.Pins dots) → Standing tokens →
      Standing (token :: tokens)
  | pinned {wildcard dots : Token} {tokens : List Token} :
      wildcard.kind = .wildWord → wildcard.Pins dots → Standing (dots :: tokens) →
      Standing (wildcard :: dots :: tokens)

theorem Standing.stands {tokens : List Token} (standing : Standing tokens)
    (bounded : tokens.IsChain fun first second =>
      second.kind = .dotDot → first.kind ∈ TokenKind.rangeBounds) :
    ∀ token ∈ tokens, token.Stands := by
  induction standing with
  | nil => simp
  | cons stands _ _ ih => exact List.forall_mem_cons.mpr ⟨stands, ih bounded.tail⟩
  | pinned wild pins _ ih =>
      have bound := (List.isChain_cons_cons.mp bounded).1 pins.kind
      rw [wild] at bound
      simp [TokenKind.rangeBounds] at bound

namespace Lexer

theorem stands_token {character : Char} {rest : List Char} {piece : Piece}
    (dark : Text.isBlank character = false) (taken : Lexer.cut (character :: rest) = .ok piece)
    (free : ¬ piece.Pinned) (offset : Nat) : (piece.token offset).Stands := by
  have text := piece.toList_text_token offset
  constructor
  case begins =>
    obtain ⟨first, word, same⟩ := List.exists_cons_of_ne_nil (full_of_cut dark taken).text_ne_nil
    have whole := append_of_cut taken
    rw [same, List.cons_append] at whole
    obtain ⟨rfl, _⟩ := List.cons.inj whole
    exact ⟨first, word, text.trans same, dark⟩
  case cut =>
    intro after clear
    rw [text]
    exact (cut_again dark taken clear).resolve_right free

theorem Scans.points {offset : Nat} {more : List Char} {tokens : List Token}
    {outcome : Except (LexFault × Nat) (List Token)}
    (scans : Scans offset ('.' :: '.' :: more) outcome) (accepted : outcome = .ok tokens) :
    ∃ dots later, tokens = dots :: later ∧ dots.kind = .dotDot ∧ dots.start = offset := by
  cases scans with
  | blank white _ => cases white
  | fault _ failed => cases failed
  | @token _ _ _ piece later _ taken _ =>
      cases later with
      | error fault => cases accepted
      | ok later =>
          cases accepted
          cases taken
          exact ⟨_, later, rfl, rfl, rfl⟩

theorem Cuts.points {characters : List Char} {piece : Piece} (cuts : Cuts characters piece)
    (dots : piece.kind = .dotDot) : ∃ more, characters = '.' :: '.' :: more := by
  cases cuts with
  | phrase | uri | ampAmp | barBar | star | questionMark => cases dots
  | dotDot => exact ⟨_, rfl⟩
  | symbol symbol =>
      unfold symbol? at symbol
      split at symbol <;> cases symbol <;> cases dots
  | word _ taken =>
      have isWord := isWord_classify piece.text
      rw [← kind_of_wordPiece taken, dots] at isWord
      cases isWord

theorem Scans.begins_with_points {offset : Nat} {characters : List Char} {dots : Token}
    {later : List Token} {outcome : Except (LexFault × Nat) (List Token)}
    (scans : Scans offset characters outcome) (accepted : outcome = .ok (dots :: later))
    (kind : dots.kind = .dotDot) (start : dots.start = offset) :
    ∃ more, characters = '.' :: '.' :: more := by
  cases scans with
  | done => cases accepted
  | @blank _ character _ _ _ scans =>
      subst accepted
      obtain ⟨front, _, placed⟩ := scans.layout.placed dots List.mem_cons_self
      have size := character.utf8Size_pos
      have further := placed.start
      omega
  | fault => cases accepted
  | @token _ _ _ _ outcome _ taken _ =>
      cases outcome with
      | error fault => cases accepted
      | ok others =>
          cases accepted
          exact (cuts_of_cut taken).points kind

/-- A wildcard right before two points was cut as a word. -/
theorem Piece.pinned_of_pins {character : Char} {rest more : List Char} {piece : Piece}
    {dots : Token} {offset : Nat} (taken : Lexer.cut (character :: rest) = .ok piece)
    (points : piece.rest = '.' :: '.' :: more) (pins : (piece.token offset).Pins dots) :
    piece.Pinned := by
  have text := piece.toList_text_token offset
  have whole := append_of_cut taken
  rcases pins.text with wildcard | wildcard
  · rw [wildcard] at text
    rw [← text, points] at whole
    rw [← whole] at taken
    cases taken
    exact ⟨rfl, .inl rfl, more, rfl⟩
  · rw [wildcard] at text
    rw [← text, points] at whole
    rw [← whole] at taken
    cases taken
    exact ⟨rfl, .inr rfl, more, rfl⟩

theorem Scans.standing {offset : Nat} {characters : List Char} {tokens : List Token}
    (scans : Scans offset characters (.ok tokens)) : Standing tokens := by
  induction scans using Scans.accepted_induction with
  | done => exact .nil
  | blank _ _ ih => exact ih
  | @token offset character rest piece others dark taken later ih =>
      by_cases pinned : piece.Pinned
      · have text : (piece.token offset).text = "*" ∨ (piece.token offset).text = "?" :=
          pinned.text.imp (congrArg String.ofList) (congrArg String.ofList)
        obtain ⟨more, points⟩ := pinned.points
        rw [points] at later
        obtain ⟨dots, others, rfl, kind, start⟩ := later.points rfl
        exact .pinned pinned.kind ⟨text, kind, start⟩ ih
      · refine .cons (stands_token dark taken pinned offset) (fun dots head pins => ?_) ih
        -- With two points behind it, a wildcard would have been a word.
        obtain ⟨others, rfl⟩ := List.head?_eq_some_iff.mp head
        obtain ⟨more, points⟩ := later.begins_with_points rfl pins.kind pins.start
        exact pinned (Piece.pinned_of_pins taken points pins)

/-!
## The woven text
-/

/-- Blanks change nothing but the places of what follows. -/
theorem Scans.behind_blanks {gap : List Char} (blank : ∀ character ∈ gap, Text.isBlank character)
    {offset : Nat} {rest : List Char} {outcome : Except (LexFault × Nat) (List Token)}
    (scans : Scans (offset + Text.utf8Length gap) rest outcome) :
    Scans offset (gap ++ rest) outcome := by
  induction gap generalizing offset with
  | nil => exact scans
  | cons character gap ih =>
      obtain ⟨white, others⟩ := List.forall_mem_cons.mp blank
      refine .blank white (ih others ?_)
      rwa [Text.utf8Length_cons, ← Nat.add_assoc] at scans

end Lexer

/-- The token at another place. -/
def Token.movedTo (token : Token) (offset : Nat) : Token :=
  ⟨token.kind, token.text, offset, offset + Text.utf8Length token.text.toList⟩

theorem Token.Stands.scans {token : Token} (stands : token.Stands) {offset : Nat}
    {rest : List Char} {later : List Token} (clear : Clear rest)
    (scans : Scans (offset + Text.utf8Length token.text.toList) rest (.ok later)) :
    Scans offset (token.text.toList ++ rest) (.ok (token.movedTo offset :: later)) := by
  obtain ⟨first, word, text, dark⟩ := stands.begins
  have taken := stands.cut rest clear
  have moved : token.movedTo offset =
      Piece.token ⟨token.kind, token.text.toList, rest⟩ offset := by
    simp only [movedTo, Piece.token, String.ofList_toList]
  rw [moved]
  rw [text] at taken scans ⊢
  exact .token dark taken scans

namespace Text

/-- Words with a gap before each, and a gap at the end. -/
def weave (trailing : String) : List String → List String → String
  | gap :: gaps, word :: words => gap ++ (word ++ weave trailing gaps words)
  | _, _ => trailing

def Blank (gap : String) : Prop :=
  ∀ character ∈ gap.toList, isBlank character = true

theorem blank_ofList {characters : List Char} (blank : characters.all isBlank = true) :
    Blank (String.ofList characters) := by
  rw [Blank, String.toList_ofList]
  exact List.all_eq_true.mp blank

theorem Blank.clear {gap : String} (blank : Blank gap) : Clear gap.toList := by
  rw [Blank] at blank
  cases characters : gap.toList with
  | nil => exact .atEnd
  | cons first rest =>
      rw [characters] at blank
      exact .blank (blank first List.mem_cons_self)

variable {trailing : String}

theorem clear_weave (trailingBlank : Blank trailing) {gaps : List String}
    (blank : ∀ gap ∈ gaps, Blank gap) (filled : ∀ gap ∈ gaps, gap ≠ "") (words : List String) :
    Clear (weave trailing gaps words).toList := by
  cases gaps with
  | nil => exact trailingBlank.clear
  | cons gap gaps =>
      cases words with
      | nil => exact trailingBlank.clear
      | cons word words =>
          have gapBlank := blank gap List.mem_cons_self
          have gapFilled := filled gap List.mem_cons_self
          obtain ⟨first, rest, characters⟩ : ∃ first rest, gap.toList = first :: rest :=
            List.exists_cons_of_ne_nil fun none => gapFilled (String.toList_eq_nil_iff.mp none)
          rw [weave, String.toList_append, characters, List.cons_append]
          rw [Blank, characters] at gapBlank
          exact .blank (gapBlank first List.mem_cons_self)

/-- The tokens of a woven text are those that its words stand for. A gap that is filled keeps them
apart, and only the first one may be empty. -/
theorem scans_weave (trailingBlank : Blank trailing) {tokens : List Token}
    (stands : ∀ token ∈ tokens, token.Stands) {gaps : List String}
    (length : gaps.length = tokens.length) (blank : ∀ gap ∈ gaps, Blank gap)
    (filled : ∀ gap ∈ gaps.tail, gap ≠ "") (offset : Nat) :
    ∃ moved, Scans offset (weave trailing gaps (tokens.map Token.text)).toList (.ok moved) ∧
      Spread tokens moved ∧
      ∀ first ∈ moved.head?, (∀ gap ∈ gaps, gap ≠ "") → offset < first.start := by
  induction tokens generalizing gaps offset with
  | nil =>
      obtain rfl := List.length_eq_zero_iff.mp length
      refine ⟨[], ?_, ⟨.nil, .nil⟩, nofun⟩
      have scans : Scans offset (trailing.toList ++ []) (.ok []) :=
        Scans.behind_blanks trailingBlank .done
      rwa [List.append_nil] at scans
  | cons token tokens ih =>
      obtain ⟨gap, gaps, rfl⟩ := List.exists_cons_of_length_eq_add_one length
      obtain ⟨tokenStands, othersStand⟩ := List.forall_mem_cons.mp stands
      obtain ⟨gapBlank, othersBlank⟩ := List.forall_mem_cons.mp blank
      have laterFilled : ∀ gap ∈ gaps, gap ≠ "" := filled
      obtain ⟨moved, scans, spread, behind⟩ := ih othersStand (Nat.succ.inj length) othersBlank
        (fun gap member => laterFilled gap (List.mem_of_mem_tail member))
        (offset + utf8Length gap.toList + utf8Length token.text.toList)
      have clear := clear_weave trailingBlank othersBlank laterFilled (tokens.map Token.text)
      refine ⟨token.movedTo (offset + utf8Length gap.toList) :: moved, ?scans, ⟨?alike, ?apart⟩,
        ?behind⟩
      case scans =>
        rw [List.map_cons, weave, String.toList_append, String.toList_append]
        exact (tokenStands.scans clear scans).behind_blanks gapBlank
      case alike => exact .cons ⟨rfl, rfl⟩ spread.alike
      case apart =>
        refine List.isChain_cons.mpr ⟨fun first member => ?_, spread.apart⟩
        exact Nat.ne_of_gt (behind first member laterFilled)
      case behind =>
        rintro first member gapsFilled
        cases member
        have positive : 0 < utf8Length gap.toList := by
          refine utf8Length_pos fun none => gapsFilled gap List.mem_cons_self ?_
          exact String.toList_eq_nil_iff.mp none
        exact Nat.lt_add_of_pos_right positive

end Text

end SearchQuery
