import SearchQuery.Proofs.Reading
set_option autoImplicit false

/-!
# Alternatives of items

The restricted language said without a loop: alternatives with one divider between two of them, each
of one item or more. Whether `OR` divides is decided by the token after it, so what is written is
said of the tokens that are ahead and those that are left, and not of the tokens between alone.

An item without a minus never begins at a divider. Hence tokens are divided in one way only.
-/

namespace SearchQuery.Restricted

def StartsItem (token : Token) : Prop :=
  token.kind.isWord = true ∨ token.kind = .phrase ∨ token.kind = .minus

/-- A divider is next: the symbol, or the keyword directly before the start of an item. -/
inductive Divides : List Token → Prop where
  | symbol {token : Token} {rest : List Token} : token.kind = .barBar → Divides (token :: rest)
  | keyword {token next : Token} {rest : List Token} :
      token.kind = .or → StartsItem next → Divides (token :: next :: rest)

/-- What an item searches for. -/
inductive Sought where
  | word (word : PlainWord)
  | phrase (text : PhraseText)

inductive Sought.IsOf : Sought → Token → Prop where
  | word {word : PlainWord} {token : Token} : word.IsOf token → IsOf (.word word) token
  | phrase {text : PhraseText} {token : Token} : text.IsOf token → IsOf (.phrase text) token

structure Item where
  excluded : Bool
  sought : Sought

/-- An item is written with the tokens ahead up to those that are left. -/
inductive Item.Written : Item → List Token → List Token → Prop where
  | plain {sought : Sought} {token : Token} {rest : List Token} :
      sought.IsOf token → ¬ Divides (token :: rest) →
      Written ⟨false, sought⟩ (token :: rest) rest
  | excluded {sought : Sought} {minus token : Token} {rest : List Token} :
      minus.kind = .minus → sought.IsOf token →
      Written ⟨true, sought⟩ (minus :: token :: rest) rest

/-- Alternatives are written with the tokens ahead up to those that are left. -/
inductive Written : List (List Item) → List Token → List Token → Prop where
  | single {item : Item} {tokens rest : List Token} :
      item.Written tokens rest → Written [[item]] tokens rest
  | beside {item : Item} {items : List Item} {others : List (List Item)}
      {tokens between rest : List Token} :
      item.Written tokens between → Written (items :: others) between rest →
      Written ((item :: items) :: others) tokens rest
  | divided {item : Item} {others : List (List Item)} {divider : Token}
      {tokens between rest : List Token} :
      item.Written tokens (divider :: between) → Divides (divider :: between) →
      Written others between rest → Written ([item] :: others) tokens rest

/-- What is read so far is nothing, alternatives, or alternatives and a divider. -/
inductive Begun (tokens : List Token) : List Token → Prop where
  | nothing : Begun tokens tokens
  | items {alternatives : List (List Item)} {rest : List Token} :
      Written alternatives tokens rest → Begun tokens rest
  | divided {alternatives : List (List Item)} {divider : Token} {rest : List Token} :
      Written alternatives tokens (divider :: rest) → Divides (divider :: rest) →
      Begun tokens rest

/-- What is read so far may go on to alternatives: it is as above, and a minus may follow. -/
inductive Viable (tokens : List Token) : List Token → Prop where
  | plain {rest : List Token} : Begun tokens rest → Viable tokens rest
  | signed {minus : Token} {rest : List Token} :
      minus.kind = .minus → Begun tokens (minus :: rest) → Viable tokens rest

/-!
## What can be next
-/

theorem Sought.IsOf.kind {sought : Sought} {token : Token} (same : sought.IsOf token) :
    token.kind.isWord = true ∨ token.kind = .phrase := by
  cases same with
  | word same => exact .inl (by simpa [TokenKind.isWord] using same.kind_mem)
  | phrase same => exact .inr same.kind_eq

theorem Sought.exists_isOf {token : Token}
    (kind : token.kind.isWord = true ∨ token.kind = .phrase) :
    ∃ sought : Sought, sought.IsOf token := by
  rcases kind with word | phrase
  · have member : token.kind ∈ TokenKind.words := by simpa [TokenKind.isWord] using word
    exact ⟨.word ⟨token.kind, token.text, member⟩, .word ⟨rfl, rfl⟩⟩
  · exact ⟨.phrase ⟨token.kind, token.text, by simp [phrase]⟩, .phrase ⟨rfl, rfl⟩⟩

theorem Sought.IsOf.unique {first second : Sought} {token : Token} (left : first.IsOf token)
    (right : second.IsOf token) : first = second := by
  have apart : ¬ TokenKind.phrase ∈ TokenKind.words := by decide
  cases left with
  | word left =>
      cases right with
      | word right => rw [left.unique right]
      | phrase right => exact absurd (right.kind_eq ▸ left.kind_mem) apart
  | phrase left =>
      cases right with
      | word right => exact absurd (left.kind_eq ▸ right.kind_mem) apart
      | phrase right => rw [left.unique right]

theorem Divides.kind {token : Token} {rest : List Token} (divides : Divides (token :: rest)) :
    token.kind = .barBar ∨ token.kind = .or := by
  cases divides with
  | symbol kind => exact .inl kind
  | keyword kind _ => exact .inr kind

theorem not_divides_of_minus {minus : Token} {rest : List Token} (kind : minus.kind = .minus) :
    ¬ Divides (minus :: rest) := by
  intro divides
  rcases divides.kind with other | other <;> rw [kind] at other <;> cases other

variable {item other : Item} {tokens rest between : List Token}
  {alternatives others : List (List Item)}

theorem Item.Written.not_divides (written : item.Written tokens rest) : ¬ Divides tokens := by
  cases written with
  | plain _ apart => exact apart
  | excluded minus _ => exact not_divides_of_minus minus

/-- There is one way to read an item. -/
theorem Item.Written.unique (left : item.Written tokens rest)
    (right : other.Written tokens between) : item = other ∧ rest = between := by
  have apart : ∀ {sought : Sought} {token : Token}, sought.IsOf token → token.kind ≠ .minus := by
    intro sought token same minus
    rcases same.kind with kind | kind <;> rw [minus] at kind <;> cases kind
  cases left with
  | plain left _ =>
      cases right with
      | plain right _ => exact ⟨by rw [left.unique right], rfl⟩
      | excluded minus _ => exact absurd minus (apart left)
  | excluded minus left =>
      cases right with
      | plain right _ => exact absurd minus (apart right)
      | excluded _ right => exact ⟨by rw [left.unique right], rfl⟩

theorem Item.Written.suffix (written : item.Written tokens rest) :
    rest <:+ tokens ∧ rest.length < tokens.length := by
  cases written with
  | @plain _ token rest _ _ => exact ⟨List.suffix_cons token rest, by simp⟩
  | @excluded _ minus token rest _ _ =>
      exact ⟨List.suffix_append [minus, token] rest, by simp only [List.length_cons]; omega⟩

/-!
## Alternatives
-/

theorem Written.not_divides (written : Written alternatives tokens rest) : ¬ Divides tokens := by
  cases written with
  | single itemWritten | beside itemWritten _ | divided itemWritten _ _ =>
      exact itemWritten.not_divides

theorem Written.filled (written : Written alternatives tokens rest) :
    ∀ items ∈ alternatives, items ≠ [] := by
  induction written with
  | single _ => simp
  | beside _ _ ih => exact List.forall_mem_cons.mpr ⟨by simp, (List.forall_mem_cons.mp ih).2⟩
  | divided _ _ _ ih => exact List.forall_mem_cons.mpr ⟨by simp, ih⟩

theorem Written.suffix (written : Written alternatives tokens rest) :
    rest <:+ tokens ∧ rest.length < tokens.length := by
  induction written with
  | single itemWritten => exact itemWritten.suffix
  | beside itemWritten _ ih =>
      obtain ⟨front, shorter⟩ := itemWritten.suffix
      exact ⟨ih.1.trans front, Nat.lt_trans ih.2 shorter⟩
  | @divided _ _ divider _ between _ itemWritten _ _ ih =>
      obtain ⟨front, shorter⟩ := itemWritten.suffix
      rw [List.length_cons] at shorter
      exact ⟨ih.1.trans ((List.suffix_cons divider between).trans front), by omega⟩

/-- What is written after a first item that is known: nothing, or alternatives that begin with the
next token, or alternatives behind a divider. -/
theorem Written.after_item (itemWritten : item.Written tokens between)
    (written : Written alternatives tokens rest) :
    (alternatives = [[item]] ∧ rest = between) ∨
    (∃ items others, alternatives = (item :: items) :: others ∧
      Written (items :: others) between rest) ∨
    (∃ divider later others, between = divider :: later ∧ Divides between ∧
      alternatives = [item] :: others ∧ Written others later rest) := by
  cases written with
  | single other =>
      obtain ⟨rfl, rfl⟩ := itemWritten.unique other
      exact .inl ⟨rfl, rfl⟩
  | beside other later =>
      obtain ⟨rfl, rfl⟩ := itemWritten.unique other
      exact .inr (.inl ⟨_, _, rfl, later⟩)
  | divided other divides later =>
      obtain ⟨rfl, rfl⟩ := itemWritten.unique other
      exact .inr (.inr ⟨_, _, _, rfl, divides, rfl, later⟩)

/-- Tokens are divided into alternatives in one way. -/
theorem Written.unique (written : Written alternatives tokens rest)
    (right : Written others tokens rest) : alternatives = others := by
  induction written generalizing others with
  | @single item tokens rest itemWritten =>
      rcases right.after_item itemWritten with
        ⟨rfl, _⟩ | ⟨_, _, _, later⟩ | ⟨_, _, _, rfl, _, _, later⟩
      · rfl
      · exact absurd later.suffix.2 (Nat.lt_irrefl _)
      · have shorter := later.suffix.2
        rw [List.length_cons] at shorter
        omega
  | beside itemWritten later ih =>
      rcases right.after_item itemWritten with
        ⟨_, rfl⟩ | ⟨_, _, rfl, other⟩ | ⟨_, _, _, rfl, divides, _, _⟩
      · exact absurd later.suffix.2 (Nat.lt_irrefl _)
      · obtain ⟨rfl, rfl⟩ := List.cons.inj (ih other)
        rfl
      · exact absurd divides later.not_divides
  | divided itemWritten divides later ih =>
      rcases right.after_item itemWritten with
        ⟨_, rfl⟩ | ⟨_, _, _, other⟩ | ⟨_, _, _, same, _, rfl, other⟩
      · have shorter := later.suffix.2
        rw [List.length_cons] at shorter
        omega
      · exact absurd divides other.not_divides
      · cases same
        rw [ih other]

/-!
## Viable beginnings
-/

theorem Begun.suffix (begun : Begun tokens rest) : rest <:+ tokens := by
  cases begun with
  | nothing => exact List.suffix_rfl
  | items written => exact written.suffix.1
  | divided written _ => exact (List.suffix_cons _ _).trans written.suffix.1

theorem Viable.suffix (viable : Viable tokens rest) : rest <:+ tokens := by
  cases viable with
  | plain begun => exact begun.suffix
  | signed _ begun => exact (List.suffix_cons _ _).trans begun.suffix

end SearchQuery.Restricted
