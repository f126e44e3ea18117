import SearchQuery.Proofs.Spacing.Text
set_option autoImplicit false

/-!
# Tokens on their own

The tokens of a query are cut again from their own texts, from each text alone as from all of them
with spaces between. They have the same kinds then, with one exception: right before two points a
single wildcard is a word, and by itself it is not.
-/

namespace SearchQuery

open Lexer

/-- The token that is cut from the text of a token when nothing or a blank follows. -/
def Token.alone (token : Token) : Token :=
  if token.text = "*" then { token with kind := .star }
  else if token.text = "?" then { token with kind := .questionMark }
  else token

@[simp] theorem Token.alone_text (token : Token) : token.alone.text = token.text := by
  unfold alone
  split
  · rfl
  · split <;> rfl

theorem Token.Stands.alone_eq {token : Token} (stands : token.Stands) : token.alone = token := by
  have taken := stands.cut [] .atEnd
  unfold alone
  split
  case isTrue text =>
    rw [text] at taken
    have kind : TokenKind.star = token.kind := congrArg Piece.kind (Except.ok.inj taken)
    rw [kind]
  case isFalse =>
    split
    case isTrue text =>
      rw [text] at taken
      have kind : TokenKind.questionMark = token.kind := congrArg Piece.kind (Except.ok.inj taken)
      rw [kind]
    case isFalse => rfl

namespace Token.Pins

variable {wildcard dots : Token}

theorem stands_alone (pins : wildcard.Pins dots) : wildcard.alone.Stands := by
  rcases pins.text with text | text
  · have alone : wildcard.alone = { wildcard with kind := .star } := if_pos text
    rw [alone]
    refine ⟨⟨'*', [], congrArg String.toList text, rfl⟩, fun after clear => ?_⟩
    rw [text]
    exact (Cuts.star clear.wordGoesOn_eq_false).cut_eq
  · have alone : wildcard.alone = { wildcard with kind := .questionMark } := by
      simp [Token.alone, text]
    rw [alone]
    refine ⟨⟨'?', [], congrArg String.toList text, rfl⟩, fun after clear => ?_⟩
    rw [text]
    exact (Cuts.questionMark clear.wordGoesOn_eq_false).cut_eq

theorem alone_kind_ne (pins : wildcard.Pins dots) (wild : wildcard.kind = .wildWord) :
    wildcard.alone.kind ≠ wildcard.kind := by
  rw [wild]
  rcases pins.text with text | text <;> simp [Token.alone, text]

end Token.Pins

namespace Standing

theorem tail {token : Token} {tokens : List Token} (standing : Standing (token :: tokens)) :
    Standing tokens := by
  cases standing with
  | cons _ _ later | pinned _ _ later => exact later

theorem of_append {before after : List Token} (standing : Standing (before ++ after)) :
    Standing after := by
  induction before with
  | nil => exact standing
  | cons _ _ ih => exact ih standing.tail

theorem stands_alone {tokens : List Token} (standing : Standing tokens) :
    ∀ token ∈ tokens, token.alone.Stands := by
  induction standing with
  | nil => simp
  | cons stands _ _ ih =>
      refine List.forall_mem_cons.mpr ⟨?_, ih⟩
      rwa [stands.alone_eq]
  | pinned _ pins _ ih => exact List.forall_mem_cons.mpr ⟨pins.stands_alone, ih⟩

theorem alone_kind_eq_iff {token : Token} {tokens : List Token}
    (standing : Standing (token :: tokens)) :
    token.alone.kind = token.kind ↔ ∀ dots ∈ tokens.head?, ¬ token.Pins dots := by
  cases standing with
  | cons stands free _ => exact iff_of_true (congrArg Token.kind stands.alone_eq) free
  | pinned wild pins _ =>
      exact iff_of_false (pins.alone_kind_ne wild) fun free => free _ rfl pins

theorem map_alone_kind_eq_iff {tokens : List Token} (standing : Standing tokens) :
    tokens.map (fun token => token.alone.kind) = tokens.map Token.kind ↔
      tokens.IsChain fun first second => ¬ first.Pins second := by
  induction tokens with
  | nil => exact iff_of_true rfl .nil
  | cons token tokens ih =>
      rw [List.map_cons, List.map_cons, List.cons.injEq, standing.alone_kind_eq_iff,
        ih standing.tail, List.isChain_cons]

end Standing

theorem Token.Stands.tokenize_text {token : Token} (stands : token.Stands) :
    tokenize token.text = .ok [token.movedTo 0] := by
  have scans : Scans 0 (token.text.toList ++ []) (.ok [token.movedTo 0]) :=
    stands.scans .atEnd .done
  rw [List.append_nil] at scans
  exact tokenize_eq_ok_iff.mpr scans

namespace Text

theorem weave_spaces (words : List String) (word : String) :
    weave "" ("" :: words.map fun _ => " ") (word :: words) = " ".intercalate (word :: words) := by
  induction words generalizing word with
  | nil => simp [weave]
  | cons next words ih =>
      rw [String.intercalate_cons_cons, ← ih next]
      simp [weave, String.append_assoc]

theorem tokenize_intercalate {tokens : List Token} (stands : ∀ token ∈ tokens, token.Stands) :
    ∃ again, tokenize (" ".intercalate (tokens.map Token.text)) = .ok again ∧
      Alike tokens again := by
  cases tokens with
  | nil =>
      rw [List.map_nil, String.intercalate_nil]
      exact ⟨[], tokenize_eq_ok_iff.mpr .done, .nil⟩
  | cons token tokens =>
      have none : Blank "" := blank_ofList (rfl : [].all isBlank = true)
      have space : Blank " " := blank_ofList (rfl : [' '].all isBlank = true)
      have length : ("" :: (tokens.map Token.text).map fun _ => " ").length =
          (token :: tokens).length := by simp
      obtain ⟨again, scans, spread, _⟩ :=
        scans_weave none stands length (by simp [none, space]) (by simp) 0
      rw [List.map_cons, weave_spaces, ← List.map_cons] at scans
      exact ⟨again, tokenize_eq_ok_iff.mpr scans, spread.alike⟩

end Text

/-- The text of a token of a query is one token of the same text, and the texts of all of them with
spaces between are as many. The kind is the same unless the token is a single wildcard and two
points stand right behind it. -/
theorem tokenize_alone {query : String} {tokens : List Token} (cut : tokenize query = .ok tokens) :
    (∀ before token after, tokens = before ++ token :: after →
      ∃ alone, tokenize token.text = .ok [alone] ∧ alone.text = token.text ∧
        (alone.kind = token.kind ↔ ∀ dots ∈ after.head?, ¬ token.Pins dots)) ∧
    ∃ again, tokenize (" ".intercalate (tokens.map Token.text)) = .ok again ∧
      again.map Token.text = tokens.map Token.text ∧
      (again.map Token.kind = tokens.map Token.kind ↔
        tokens.IsChain fun first second => ¬ first.Pins second) := by
  have standing := (tokenize_eq_ok_iff.mp cut).standing
  constructor
  · rintro before token after rfl
    have stands := standing.stands_alone token (by simp)
    have single := stands.tokenize_text
    rw [Token.alone_text] at single
    exact ⟨_, single, token.alone_text, standing.of_append.alone_kind_eq_iff⟩
  · have stands : ∀ token ∈ tokens.map Token.alone, token.Stands := by
      simpa using standing.stands_alone
    obtain ⟨again, cutAgain, alike⟩ := Text.tokenize_intercalate stands
    have texts := alike.map_eq fun _ _ like => like.text
    have kinds := alike.map_eq fun _ _ like => like.kind
    rw [List.map_map] at texts kinds cutAgain
    have sameTexts : Token.text ∘ Token.alone = Token.text := funext Token.alone_text
    rw [sameTexts] at texts cutAgain
    refine ⟨again, cutAgain, texts, ?_⟩
    rw [kinds]
    exact standing.map_alone_kind_eq_iff

/-- A range that begins with a wildcard. Drawn apart, it begins with no word. -/
theorem tokenize_alone_of_wild_range :
    let tokens : List Token :=
      [⟨.id, "x", 0, 1⟩, ⟨.colon, ":", 1, 2⟩, ⟨.wildWord, "?", 2, 3⟩, ⟨.dotDot, "..", 3, 5⟩,
        ⟨.prefixWord, "é*", 5, 8⟩, ⟨.star, "*", 9, 10⟩]
    tokenize "x:?..é* *" = .ok tokens ∧
      (∃ alone, tokenize "é*" = .ok [alone] ∧ alone.text = "é*" ∧ alone.kind = .prefixWord) ∧
      ∃ again, tokenize "x : ? .. é* *" = .ok again ∧
        again.map Token.text = tokens.map Token.text ∧
        again.map Token.kind ≠ tokens.map Token.kind := by
  intro tokens
  have characters : "x:?..é* *".toList = ['x', ':', '?', '.', '.', 'é', '*', ' ', '*'] :=
    String.toList_ofList
  have cut : tokenize "x:?..é* *" = .ok tokens := by
    rw [tokenize, characters]
    rfl
  obtain ⟨single, again, cutAgain, texts, kinds⟩ := tokenize_alone cut
  obtain ⟨alone, cutAlone, text, kind⟩ := single (tokens.take 4) ⟨.prefixWord, "é*", 5, 8⟩
    [⟨.star, "*", 9, 10⟩] rfl
  have free : ∀ dots ∈ [Token.mk .star "*" 9 10].head?,
      ¬ Token.Pins ⟨.prefixWord, "é*", 5, 8⟩ dots := by
    rintro dots head pins
    cases head
    cases pins.kind
  refine ⟨cut, ⟨alone, cutAlone, text, kind.mpr free⟩, again, cutAgain, texts, fun same => ?_⟩
  have pinned : Token.Pins ⟨.wildWord, "?", 2, 3⟩ ⟨.dotDot, "..", 3, 5⟩ := ⟨.inr rfl, rfl, rfl⟩
  have chain := (kinds.mp same).drop 2
  exact (List.isChain_cons_cons.mp chain).1 pinned

/-- A star is a word before two points, and none by itself. -/
theorem star_before_points :
    tokenize "*.." = .ok [⟨.wildWord, "*", 0, 1⟩, ⟨.dotDot, "..", 1, 3⟩] ∧
      tokenize "*" = .ok [⟨.star, "*", 0, 1⟩] :=
  ⟨rfl, rfl⟩

end SearchQuery
