import SearchQuery.Proofs.Accepted.Tests
import SearchQuery.Proofs.Restricted.Trees
set_option autoImplicit false

/-!
# Where alternatives are refused

How far tokens can be the beginning of alternatives. An item that can be read leaves the question
to what is behind it, and where no item can be read no beginning goes further, a minus apart.
Nothing is said here about the loop that finds this out.
-/

namespace SearchQuery.Restricted

open Grammar

/-!
## What is behind an item
-/

/-- What is behind an item goes on: to an item that is adjacent, or behind a divider. -/
inductive Onward : List Token → Link → List Token → Prop where
  | beside {tokens : List Token} :
      tokens ≠ [] → ¬ Divides tokens → Onward tokens .adjacent tokens
  | divided {divider : Token} {rest : List Token} :
      Divides (divider :: rest) → Onward (divider :: rest) .or rest

/-- The rule that finds out that nothing can be read, and the cause that it gives. -/
inductive Blames : ParseFault → Rule → Prop where
  | unviable : Blames .noViableAlternative .cmisTest
  | empty : Blames .emptyRequiredRepetition .cmisConjunction

/-- Where tokens are refused: no alternatives are written with them, and no beginning of them that
is viable goes further. -/
structure Rejected (tokens : List Token) (failure : Failure) : Prop where
  unwritten : ∀ alternatives, ¬ Written alternatives tokens []
  viable : Viable tokens failure.ahead
  longest : ∀ rest, Viable tokens rest → failure.ahead.length ≤ rest.length
  blamed : ∃ rule, failure.rules.getLast? = some rule ∧ Blames failure.cause rule

section

variable {item : Item} {alternatives : List (List Item)} {link : Link}
  {tokens between next rest : List Token}

theorem Onward.length_le (onward : Onward between link next) : next.length ≤ between.length := by
  cases onward with
  | beside _ _ => exact Nat.le_refl _
  | divided _ => exact Nat.le_succ _

theorem Onward.between_ne_nil (onward : Onward between link next) : between ≠ [] := by
  cases onward with
  | beside filled _ => exact filled
  | divided _ => exact List.cons_ne_nil _ _

/-- An item joins the alternatives behind it. -/
theorem Onward.join (onward : Onward between link next) (itemWritten : item.Written tokens between)
    (written : Written alternatives next rest) (first : Link) :
    ∃ joined, Written joined tokens rest ∧
      operandsOf first joined = item.operand first :: operandsOf link alternatives := by
  cases onward with
  | beside _ _ =>
      obtain ⟨items, others, rfl⟩ : ∃ items others, alternatives = items :: others := by
        cases written <;> exact ⟨_, _, rfl⟩
      exact ⟨(item :: items) :: others, .beside itemWritten written, rfl⟩
  | divided divides => exact ⟨[item] :: alternatives, .divided itemWritten divides written, rfl⟩

/-- Whatever is written with an item and more goes on behind the item. -/
theorem Onward.split (onward : Onward between link next) (itemWritten : item.Written tokens between)
    (written : Written alternatives tokens rest) :
    rest = between ∨ ∃ others, Written others next rest := by
  rcases written.after_item itemWritten with
    ⟨_, same⟩ | ⟨items, others, _, later⟩ | ⟨_, _, others, split, divides, _, later⟩
  · exact .inl same
  · cases onward with
    | beside _ _ => exact .inr ⟨_, later⟩
    | divided divides => exact absurd divides later.not_divides
  · cases onward with
    | beside _ apart => exact absurd divides apart
    | divided _ =>
        cases split
        exact .inr ⟨others, later⟩

theorem Onward.begun (onward : Onward between link next) (itemWritten : item.Written tokens between)
    (begun : Begun next rest) : Begun tokens rest := by
  cases begun with
  | nothing =>
      cases onward with
      | beside _ _ => exact .items (.single itemWritten)
      | divided divides => exact .divided (.single itemWritten) divides
  | items written =>
      obtain ⟨_, joined, _⟩ := onward.join itemWritten written .opening
      exact .items joined
  | divided written divides =>
      obtain ⟨_, joined, _⟩ := onward.join itemWritten written .opening
      exact .divided joined divides

theorem Onward.viable (onward : Onward between link next)
    (itemWritten : item.Written tokens between) (viable : Viable next rest) :
    Viable tokens rest := by
  cases viable with
  | plain begun => exact .plain (onward.begun itemWritten begun)
  | signed minus begun => exact .signed minus (onward.begun itemWritten begun)

theorem Onward.begun_cases (onward : Onward between link next)
    (itemWritten : item.Written tokens between) (begun : Begun tokens rest) :
    rest = tokens ∨ (rest = between ∧ Divides between) ∨ Begun next rest := by
  cases begun with
  | nothing => exact .inl rfl
  | items written =>
      rcases onward.split itemWritten written with rfl | ⟨others, later⟩
      · cases onward with
        | beside _ _ => exact .inr (.inr .nothing)
        | divided divides => exact .inr (.inl ⟨rfl, divides⟩)
      · exact .inr (.inr (.items later))
  | divided written divides =>
      rcases onward.split itemWritten written with rfl | ⟨others, later⟩
      · cases onward with
        | beside _ apart => exact absurd divides apart
        | divided _ => exact .inr (.inr .nothing)
      · exact .inr (.inr (.divided later divides))

theorem Onward.viable_cases (onward : Onward between link next)
    (itemWritten : item.Written tokens between) (viable : Viable tokens rest) :
    next.length ≤ rest.length ∨ Viable next rest := by
  have shorter := itemWritten.suffix.2
  have shortest := onward.length_le
  cases viable with
  | plain begun =>
      rcases onward.begun_cases itemWritten begun with rfl | ⟨rfl, _⟩ | begun
      · exact .inl (by omega)
      · exact .inl shortest
      · exact .inr (.plain begun)
  | signed minus begun =>
      rcases onward.begun_cases itemWritten begun with rfl | ⟨rfl, divides⟩ | begun
      · rw [List.length_cons] at shorter
        exact .inl (by omega)
      · exact absurd divides (not_divides_of_minus minus)
      · exact .inr (.signed minus begun)

theorem Onward.rejected {failure : Failure} (onward : Onward between link next)
    (itemWritten : item.Written tokens between) (rejected : Rejected next failure) :
    Rejected tokens failure where
  unwritten := by
    intro alternatives written
    rcases onward.split itemWritten written with same | ⟨others, later⟩
    · exact onward.between_ne_nil same.symm
    · exact rejected.unwritten others later
  viable := onward.viable itemWritten rejected.viable
  longest := by
    intro rest viable
    rcases onward.viable_cases itemWritten viable with further | viable
    · exact Nat.le_trans rejected.viable.suffix.length_le further
    · exact rejected.longest rest viable
  blamed := rejected.blamed

end

/-!
## Where no item can be read
-/

/-- No item can be read here. -/
def Unsought (tokens : List Token) : Prop :=
  ∀ token rest, tokens = token :: rest → ∀ sought : Sought, ¬ sought.IsOf token

theorem unsought_or_sought (tokens : List Token) :
    Unsought tokens ∨
      ∃ token rest, tokens = token :: rest ∧ ∃ sought : Sought, sought.IsOf token := by
  cases tokens with
  | nil =>
      refine .inl fun token rest same => ?_
      cases same
  | cons token rest =>
      by_cases found : ∃ sought : Sought, sought.IsOf token
      · exact .inr ⟨token, rest, rfl, found⟩
      · refine .inl fun first after split sought same => ?_
        cases split
        exact found ⟨sought, same⟩

/-- One item is read, or no item can be read here or behind a minus. -/
theorem item_cases {tokens : List Token} (apart : ¬ Divides tokens) :
    (∃ (item : Item) (rest : List Token), item.Written tokens rest) ∨
    (∃ minus rest, minus.kind = .minus ∧ tokens = minus :: rest ∧ Unsought rest) ∨
    (nextIs .minus tokens = false ∧ Unsought tokens) := by
  by_cases signed : nextIs .minus tokens = true
  · obtain ⟨minus, rest, kind, rfl⟩ := nextIs_eq_true_iff.mp signed
    rcases unsought_or_sought rest with unsought | ⟨token, after, rfl, sought, same⟩
    · exact .inr (.inl ⟨minus, rest, kind, rfl, unsought⟩)
    · exact .inl ⟨_, after, .excluded kind same⟩
  · rcases unsought_or_sought tokens with unsought | ⟨token, after, rfl, sought, same⟩
    · exact .inr (.inr ⟨by simpa using signed, unsought⟩)
    · exact .inl ⟨_, after, .plain same apart⟩

/-- No item is written with the tokens ahead. -/
def Stuck (tokens : List Token) : Prop :=
  ∀ (item : Item) (rest : List Token), ¬ item.Written tokens rest

namespace Stuck

variable {tokens rest : List Token}

theorem of_divides (divides : Divides tokens) : Stuck tokens :=
  fun _ _ written => written.not_divides divides

theorem of_nil : Stuck [] := by
  intro item rest written
  cases written

theorem of_unsought (unsought : Unsought tokens) (unsigned : nextIs .minus tokens = false) :
    Stuck tokens := by
  intro item rest written
  cases written with
  | plain same _ => exact unsought _ _ rfl _ same
  | excluded kind _ => simp [nextIs, kind] at unsigned

theorem of_minus {minus : Token} (kind : minus.kind = .minus) (unsought : Unsought rest) :
    Stuck (minus :: rest) := by
  intro item after written
  cases written with
  | plain same _ => rcases same.kind with other | other <;> rw [kind] at other <;> cases other
  | excluded _ same => exact unsought _ _ rfl _ same

theorem unwritten (stuck : Stuck tokens) (alternatives : List (List Item)) :
    ¬ Written alternatives tokens rest := by
  intro written
  cases written with
  | single itemWritten | beside itemWritten _ | divided itemWritten _ _ =>
      exact stuck _ _ itemWritten

theorem begun_iff (stuck : Stuck tokens) : Begun tokens rest ↔ rest = tokens := by
  constructor
  · intro begun
    cases begun with
    | nothing => rfl
    | items written => exact absurd written (stuck.unwritten _)
    | divided written _ => exact absurd written (stuck.unwritten _)
  · rintro rfl
    exact .nothing

end Stuck

/-- Tokens are refused at once if no item can be read and none is begun. -/
theorem Rejected.of_stuck {tokens : List Token} {failure : Failure} (stuck : Stuck tokens)
    (unsigned : nextIs .minus tokens = false) (here : failure.ahead = tokens)
    (blamed : ∃ rule, failure.rules.getLast? = some rule ∧ Blames failure.cause rule) :
    Rejected tokens failure where
  unwritten := fun alternatives => stuck.unwritten alternatives
  viable := .plain (stuck.begun_iff.mpr here)
  longest := by
    intro rest viable
    cases viable with
    | plain begun => exact Nat.le_of_eq (by rw [here, stuck.begun_iff.mp begun])
    | signed kind begun =>
        rw [← stuck.begun_iff.mp begun] at unsigned
        simp [nextIs, kind] at unsigned
  blamed := blamed

/-- Behind a minus, tokens are refused if nothing can be excluded. -/
theorem Rejected.of_minus {minus : Token} {rest : List Token} {failure : Failure}
    (kind : minus.kind = .minus) (unsought : Unsought rest) (behind : failure.ahead = rest)
    (blamed : ∃ rule, failure.rules.getLast? = some rule ∧ Blames failure.cause rule) :
    Rejected (minus :: rest) failure where
  unwritten := fun alternatives => (Stuck.of_minus kind unsought).unwritten alternatives
  viable := behind ▸ .signed kind .nothing
  longest := by
    have stuck := Stuck.of_minus kind unsought
    intro after viable
    rw [behind]
    cases viable with
    | plain begun =>
        rw [stuck.begun_iff.mp begun]
        exact Nat.le_succ _
    | signed _ begun =>
        cases stuck.begun_iff.mp begun
        exact Nat.le_refl _
  blamed := blamed

theorem Rejected.within {tokens : List Token} {failure : Failure}
    (rejected : Rejected tokens failure) (rule : Rule) :
    Rejected tokens { failure with rules := rule :: failure.rules } where
  unwritten := rejected.unwritten
  viable := rejected.viable
  longest := rejected.longest
  blamed := by
    obtain ⟨innermost, last, blames⟩ := rejected.blamed
    refine ⟨innermost, ?_, blames⟩
    rw [List.getLast?_cons, last]
    rfl

end SearchQuery.Restricted
