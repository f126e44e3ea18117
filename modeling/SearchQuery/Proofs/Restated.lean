import SearchQuery.Proofs.Spacing.Carried
import SearchQuery.Proofs.Written.Tests
set_option autoImplicit false

/-!
# Restated tokens

A token list is restated by tokens that are alike, and by keywords in place of symbols. A symbol is
always an operator and a keyword is one only before an operand, so what the grammar finds ahead may
differ. It does not differ where an operand is read behind the symbol, provided that no other word
of the list could be taken for an operator or for the beginning of a proximity.
-/

namespace SearchQuery

open Reading Grammar

/-- The keyword that says what a symbol says. -/
def TokenKind.keyword? : TokenKind → Option TokenKind
  | barBar => some .or
  | ampAmp => some .and
  | exclamation => some .not
  | _ => none

/-- The kinds of the symbols that a keyword can stand for. -/
def TokenKind.symbols : List TokenKind :=
  [barBar, ampAmp, exclamation]

inductive Token.Restated (first second : Token) : Prop where
  | like : first.Like second → Restated first second
  | keyword : first.kind.keyword? = some second.kind → Restated first second

/-- The second list says what the first one says. -/
structure Restated (left right : List Token) : Prop where
  tokens : List.Forall₂ Token.Restated left right
  unambiguous : Alike left right ∨ ∀ token ∈ left, token.kind ∉ [TokenKind.and, .or, .star]
  unstacked : ∀ count, stackedSuffixAhead (right.drop count) = true →
    stackedSuffixAhead (left.drop count) = true

theorem TokenKind.eq_of_keyword? {symbol keyword : TokenKind}
    (restated : symbol.keyword? = some keyword) :
    symbol = .barBar ∧ keyword = .or ∨ symbol = .ampAmp ∧ keyword = .and ∨
      symbol = .exclamation ∧ keyword = .not := by
  cases symbol <;> simp_all [keyword?]

theorem TokenKind.mem_operators_of_keyword? {symbol keyword : TokenKind}
    (restated : symbol.keyword? = some keyword) :
    symbol ∈ symbols ∧ symbol ∈ operators ∧ keyword ∈ operators := by
  obtain ⟨rfl, rfl⟩ | ⟨rfl, rfl⟩ | ⟨rfl, rfl⟩ := eq_of_keyword? restated <;> decide

theorem Token.Restated.akin {first second : Token} (restated : first.Restated second) :
    first.Akin second := by
  cases restated with
  | like same => exact .inl same
  | keyword same => exact .inr (TokenKind.mem_operators_of_keyword? same).2

theorem Token.Restated.like_of_ordinary {first second : Token} (restated : first.Restated second)
    (ordinary : first.kind ∉ TokenKind.symbols) : first.Like second := by
  cases restated with
  | like same => exact same
  | keyword same => exact absurd (TokenKind.mem_operators_of_keyword? same).1 ordinary

namespace Restated

theorem tail {first second : Token} {left right : List Token}
    (restated : Restated (first :: left) (second :: right)) : Restated left right := by
  constructor
  · exact (List.forall₂_cons.mp restated.tokens).2
  · apply restated.unambiguous.imp
    · intro alike
      exact (List.forall₂_cons.mp alike).2
    · intro plain
      exact (List.forall_mem_cons.mp plain).2
  · intro count stacked
    exact restated.unstacked (count + 1) stacked

theorem hereditary : Hereditary TokenKind.symbols Restated where
  operators := by decide
  akin restated := restated.tokens.imp fun _ _ same => same.akin
  like restated := (List.forall₂_cons.mp restated.tokens).1.like_of_ordinary
  tail := tail

variable {left right : List Token}

theorem akin (restated : Restated left right) : Akin left right :=
  hereditary.akin restated

theorem stackedSuffixAhead_eq_false (restated : Restated left right)
    (unstacked : stackedSuffixAhead left = false) : stackedSuffixAhead right = false := by
  cases stacked : stackedSuffixAhead right with
  | false => rfl
  | true =>
      rw [← unstacked]
      exact (restated.unstacked 0 stacked).symm

theorem signAhead_eq (restated : Restated left right) : signAhead left = signAhead right := by
  cases restated.tokens with
  | nil => rfl
  | cons same _ =>
      cases same with
      | like same => simp only [signAhead, same.kind]
      | keyword same =>
          obtain ⟨first, second⟩ | ⟨first, second⟩ | ⟨first, second⟩ :=
            TokenKind.eq_of_keyword? same <;> simp [signAhead, first, second]

/-- A keyword begins an operand, as a sign or as a word. -/
theorem nextIn_operandStarts (restated : Restated left right) {scope : Scope}
    (starts : nextIn (operandStarts scope) left = true) :
    nextIn (operandStarts scope) right = true := by
  cases restated.tokens with
  | nil => exact starts
  | cons same _ =>
      cases same with
      | like same => simpa only [nextIn, same.kind] using starts
      | keyword same =>
          have words : ∀ kind ∈ TokenKind.operators, kind ∈ TokenKind.words →
              kind ∈ operandStarts scope := by
            cases scope <;> decide
          obtain ⟨_, second⟩ | ⟨_, second⟩ | ⟨_, second⟩ := TokenKind.eq_of_keyword? same <;>
            simp only [nextIn, second, List.contains_eq_mem, decide_eq_true_eq] <;>
            exact words _ (by decide) (by decide)

/-- No test begins with a symbol. -/
theorem testShape?_eq_some (restated : Restated left right) {scope : Scope} {shape : TestShape}
    (shaped : testShape? scope left = some shape) : testShape? scope right = some shape := by
  cases restated.tokens with
  | nil => exact shaped
  | cons same later =>
      cases same with
      | like same =>
          have dots := restated.tail.akin.nextIs_eq
            (show TokenKind.dotDot ∉ TokenKind.operators by decide)
          rw [← shaped]
          simp only [testShape?, same.kind, dots]
      | keyword same =>
          obtain ⟨first, _⟩ | ⟨first, _⟩ | ⟨first, _⟩ := TokenKind.eq_of_keyword? same <;>
            simp [testShape?, first, TokenKind.isWord, TokenKind.words, TokenKind.isRangeBound,
              TokenKind.rangeBounds] at shaped

theorem valueShape?_eq (restated : Restated left right)
    (ordinary : nextIn TokenKind.symbols left = false) : valueShape? left = valueShape? right := by
  cases restated.tokens with
  | nil => rfl
  | cons same later =>
      have dots := restated.tail.akin.nextIs_eq
        (show TokenKind.dotDot ∉ TokenKind.operators by decide)
      have like := same.like_of_ordinary (by simpa [nextIn] using ordinary)
      simp only [valueShape?, like.kind, dots]

theorem mayBeginProximity_eq (restated : Restated left right) :
    mayBeginProximity left = mayBeginProximity right := by
  cases restated.unambiguous with
  | inl alike => exact alike.mayBeginProximity_eq
  | inr plain =>
      have starless {tokens : List Token} (absent : nextIs .star tokens.tail = false) :
          mayBeginProximity tokens = false := by
        rcases tokens with _ | ⟨word, _ | ⟨star, rest⟩⟩
        · rfl
        · rfl
        · simpa [mayBeginProximity, nextIs] using fun _ => absent
      have absent : nextIs .star left.tail = false := by
        rcases left with _ | ⟨word, _ | ⟨star, rest⟩⟩
        · rfl
        · rfl
        · have other := plain star (by simp)
          simp_all [nextIs]
      have same : nextIs .star left.tail = nextIs .star right.tail := by
        cases restated.tokens with
        | nil => rfl
        | cons _ _ => exact restated.tail.akin.nextIs_eq (by decide)
      rw [starless absent, starless (same ▸ absent)]

theorem linkAhead?_eq_none (restated : Restated left right) {scope : Scope}
    (unlinked : linkAhead? scope left = none) : linkAhead? scope right = none := by
  cases restated.tokens with
  | nil => rfl
  | @cons first second _ _ same later =>
      cases same with
      | like same =>
          have starts : first.kind ∉ operandStarts scope := by
            simp only [linkAhead?] at unlinked
            grind
          have words : TokenKind.and ∈ operandStarts scope ∧ TokenKind.or ∈ operandStarts scope := by
            cases scope <;> decide
          simp only [linkAhead?] at unlinked ⊢
          rw [same.kind] at unlinked starts
          grind
      | keyword same =>
          have starts : TokenKind.exclamation ∈ operandStarts scope := by cases scope <;> decide
          obtain ⟨kind, _⟩ | ⟨kind, _⟩ | ⟨kind, _⟩ := TokenKind.eq_of_keyword? same <;>
            simp [linkAhead?, kind, starts] at unlinked

/-- A keyword links operands like its symbol if an operand can begin behind it. -/
theorem linkAhead?_eq_some (restated : Restated left right) {scope : Scope} {link : Link}
    {next : List Token} (linked : linkAhead? scope left = some link)
    (taken : (takeLink link).run right = .ok ((), next))
    (starts : nextIn (operandStarts scope) next = true) : linkAhead? scope right = some link := by
  cases restated.unambiguous with
  | inl alike => rw [← alike.linkAhead?_eq, linked]
  | inr plain =>
      cases restated.tokens with
      | nil => exact linked
      | @cons first second _ _ same later =>
          obtain ⟨unambiguous, _⟩ := List.forall_mem_cons.mp plain
          have words : TokenKind.and ∈ operandStarts scope ∧ TokenKind.not ∈ operandStarts scope ∧
              TokenKind.exclamation ∈ operandStarts scope := by
            cases scope <;> decide
          cases same with
          | like same =>
              rw [← linked]
              simp only [List.mem_cons, List.not_mem_nil, or_false, not_or, same.kind]
                at unambiguous
              simp [linkAhead?, same.kind, unambiguous]
          | keyword same =>
              obtain ⟨kind, other⟩ | ⟨kind, other⟩ | ⟨kind, other⟩ := TokenKind.eq_of_keyword? same
              · simp [linkAhead?, kind] at linked
                subst linked
                obtain ⟨_, split⟩ := run_advance_eq_ok_iff.mp taken
                obtain ⟨_, rfl⟩ := List.cons.inj split
                simp [linkAhead?, other, starts]
              · simp [linkAhead?, kind] at linked
                subst linked
                obtain ⟨_, split⟩ := run_advance_eq_ok_iff.mp taken
                obtain ⟨_, rfl⟩ := List.cons.inj split
                simp [linkAhead?, other, starts]
              · simp [linkAhead?, kind, words] at linked
                simp [linkAhead?, other, words, linked]

end Restated

/-- Words near each other have a star behind the first. -/
theorem Grammar.isOk_run_proximity_of_starless {tokens : List Token}
    (starless : ∀ token ∈ tokens, token.kind ≠ .star) :
    (Grammar.proximity.run tokens).isOk = false := by
  apply isOk_eq_false
  intro test rest accepted
  obtain ⟨taken, rfl, written⟩ := proximity_written accepted
  obtain ⟨_, star, _, rfl, _, kind⟩ := written.exists_cons
  exact starless star (by simp) kind

end SearchQuery
