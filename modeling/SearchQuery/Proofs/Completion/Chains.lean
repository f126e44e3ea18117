import Mathlib.Data.List.Chain
import SearchQuery.Proofs.Completion.Parentheses
import SearchQuery.Proofs.Written.Tests
set_option autoImplicit false

/-!
# Chains of words near each other

Whether a proximity begins somewhere may depend on tokens arbitrarily far ahead, because the steps
of a proximity are as many as they are. What can change the answer when tokens are cut off and
others put in their place is told here by the last tokens before the cut.
-/

namespace SearchQuery

open Reading Grammar

/-!
## When a proximity begins
-/

namespace Grammar

theorem nextIs_of_run_proximitySteps {limit : Nat} {tokens rest : List Token}
    {steps : List (Option WholeNumber × PlainWord)}
    (accepted : (proximitySteps limit).run tokens = .ok (steps, rest))
    (enough : tokens.length < limit) : nextIs .star rest = false := by
  induction limit generalizing tokens steps with
  | zero => exact absurd enough (Nat.not_lt_zero _)
  | succ limit ih =>
      simp only [proximitySteps, run_bind_eq_ok_iff, run_take_eq_ok_iff, run_takeOneOf_eq_ok_iff,
        run_look] at accepted
      obtain ⟨_, _, ⟨star, _, rfl⟩, _, _, measured, _, after, ⟨token, _, rfl⟩, decided⟩ := accepted
      obtain ⟨between, rfl, _⟩ := distance_written measured
      split at decided
      · simp only [run_bind_eq_ok_iff, run_pure_eq_ok_iff] at decided
        obtain ⟨_, _, laterRead, _, rfl⟩ := decided
        refine ih laterRead ?_
        simp only [List.length_cons, List.length_append] at enough
        omega
      · next noStar =>
          obtain ⟨_, rfl⟩ := run_pure_eq_ok_iff.mp decided
          simpa using noStar

theorem nextIs_of_run_proximity {tokens rest : List Token} {test : Test}
    (accepted : proximity.run tokens = .ok (test, rest)) : nextIs .star rest = false := by
  simp only [proximity, run_within_eq_ok_iff, run_bind_eq_ok_iff, run_takeOneOf_eq_ok_iff,
    run_pure_eq_ok_iff, run_look] at accepted
  obtain ⟨_, _, ⟨token, _, rfl⟩, _, _, stepsRead, _, rfl⟩ := accepted
  exact nextIs_of_run_proximitySteps stepsRead (Nat.lt_succ_self _)

/-- A proximity begins here: its words come next, and no star after them. -/
def BeginsProximity (tokens : List Token) : Prop :=
  ∃ test taken rest, tokens = taken ++ rest ∧ Test.ProximityWritten test taken ∧
    nextIs .star rest = false

theorem isOk_run_proximity_iff {tokens : List Token} :
    (proximity.run tokens).isOk = true ↔ BeginsProximity tokens := by
  constructor
  · intro accepted
    cases read : proximity.run tokens with
    | error failure =>
        rw [read] at accepted
        cases accepted
    | ok result =>
        obtain ⟨test, rest⟩ := result
        obtain ⟨taken, split, written⟩ := proximity_written read
        exact ⟨test, taken, rest, split, written, nextIs_of_run_proximity read⟩
  · rintro ⟨test, taken, rest, rfl, written, noStar⟩
    rw [written.run_proximity noStar]
    rfl

/-- The look at the first two tokens only saves a trial. -/
theorem run_proximityAhead_eq (tokens : List Token) :
    proximityAhead.run tokens = .ok ((proximity.run tokens).isOk, tokens) := by
  cases found : (proximity.run tokens).isOk with
  | true =>
      obtain ⟨test, taken, rest, rfl, written, noStar⟩ := isOk_run_proximity_iff.mp found
      exact written.run_proximityAhead noStar
  | false =>
      rw [proximityAhead, run_look]
      split
      · rw [run_wouldSucceed, found]
      · rfl

end Grammar

/-!
## Neighbours in a proximity
-/

namespace Test

/-- What may stand next to each other in a proximity: one of the two is a star or closes a
distance, or the number of a distance follows its parenthesis. -/
def Neighbours (first second : Token) : Prop :=
  first.kind ∈ [TokenKind.star, .rparen] ∨ second.kind ∈ [TokenKind.star, .rparen] ∨
    first.kind = .lparen ∧ second.kind = .integer

theorem StepsWritten.isChain {steps : List (Option WholeNumber × PlainWord)} {tokens : List Token}
    (written : StepsWritten steps tokens) (word : Token) :
    (word :: tokens).IsChain Neighbours := by
  induction written generalizing word with
  | nil => exact .singleton word
  | cons star distance _ _ ih =>
      cases distance with
      | absent => simp [Neighbours, star, ih]
      | unspecified opens closes => simp [Neighbours, star, opens, closes, ih]
      | limited opens number closes =>
          simp [Neighbours, star, opens, number.kind_eq, closes, ih]

theorem ProximityWritten.neighbours {test : Test} {tokens front rest : List Token}
    {first second : Token} (written : ProximityWritten test tokens)
    (split : tokens = front ++ first :: second :: rest) : Neighbours first second := by
  have chain : tokens.IsChain Neighbours := by
    cases written with
    | mk _ steps _ => exact steps.isChain _
  rw [split] at chain
  exact (List.isChain_append_cons_cons.mp chain).2.1

/-- A proximity ends with a word, and before it with a star or what closes a distance. -/
def EndsStep (tokens : List Token) : Prop :=
  ∃ front joint word, tokens = front ++ [joint, word] ∧
    joint.kind ∈ [TokenKind.star, .rparen] ∧ word.kind ∈ TokenKind.words

theorem EndsStep.append_left {tokens : List Token} (ends : EndsStep tokens) (front : List Token) :
    EndsStep (front ++ tokens) := by
  obtain ⟨inner, joint, word, rfl, kind, isWord⟩ := ends
  exact ⟨front ++ inner, joint, word, by simp, kind, isWord⟩

theorem StepsWritten.endsStep {steps : List (Option WholeNumber × PlainWord)}
    {tokens : List Token} (written : StepsWritten steps tokens) (nonempty : steps ≠ []) :
    EndsStep tokens := by
  induction written with
  | nil => exact absurd rfl nonempty
  | @cons _ _ _ star token between _ starKind distance word later ih =>
      cases later with
      | nil =>
          cases distance with
          | absent => exact ⟨[], star, token, rfl, by simp [starKind], word.kind_mem⟩
          | unspecified _ closes => exact ⟨[_, _], _, token, rfl, by simp [closes], word.kind_mem⟩
          | limited _ _ closes =>
              exact ⟨[_, _, _], _, token, rfl, by simp [closes], word.kind_mem⟩
      | cons =>
          rw [List.append_cons]
          exact (ih (by simp)).append_left _

theorem ProximityWritten.endsStep {test : Test} {tokens : List Token}
    (written : ProximityWritten test tokens) : EndsStep tokens := by
  cases written with
  | @mk _ _ token _ _ steps nonempty => exact (steps.endsStep nonempty).append_left [token]

theorem DistanceWritten.opened_before {limit : Option WholeNumber} {between front rest : List Token}
    {closing : Token} (written : DistanceWritten limit between)
    (split : between = front ++ closing :: rest) (closes : closing.kind = .rparen) :
    opened front = 1 := by
  cases written with
  | absent => simp at split
  | unspecified opens =>
      rcases front with _ | ⟨first, _ | ⟨second, front⟩⟩
      · obtain ⟨rfl, _⟩ := List.cons.inj split
        simp [opens] at closes
      · obtain ⟨rfl, _⟩ := List.cons.inj split
        simp [Token.opens_of_lparen opens]
      · simp at split
  | limited opens number =>
      rcases front with _ | ⟨first, _ | ⟨second, _ | ⟨third, front⟩⟩⟩
      · obtain ⟨rfl, _⟩ := List.cons.inj split
        simp [opens] at closes
      · obtain ⟨_, rfl, _⟩ : _ ∧ _ ∧ _ := by simpa using split
        simp [number.kind_eq] at closes
      · obtain ⟨rfl, rfl, _⟩ : _ ∧ _ ∧ _ := by simpa using split
        simp [Token.opens_of_lparen opens, number.opens (by decide)]
      · simp at split

/-- In a proximity, a parenthesis is closed only where it is the only one that is open. -/
theorem StepsWritten.opened_before {steps : List (Option WholeNumber × PlainWord)}
    {tokens front rest : List Token} {closing : Token} (written : StepsWritten steps tokens)
    (split : tokens = front ++ closing :: rest) (closes : closing.kind = .rparen) :
    opened front = 1 := by
  induction written generalizing front with
  | nil => simp at split
  | @cons _ _ _ star token between later starKind distance word _ ih =>
      have isWord : token ≠ closing := by
        rintro rfl
        have member := word.kind_mem
        rw [closes] at member
        exact absurd member (by decide)
      cases front with
      | nil =>
          obtain ⟨rfl, _⟩ := List.cons.inj split
          simp [starKind] at closes
      | cons first front =>
          obtain ⟨rfl, behindStar⟩ := List.cons.inj split
          have starOpens := Token.opens_eq_zero_of_kind starKind (by decide)
          obtain ⟨behind, rfl, tail⟩ | ⟨inner, rfl, tail⟩ :=
            List.append_eq_append_iff.mp behindStar
          · cases behind with
            | nil => exact absurd (List.cons.inj tail).1 isWord
            | cons _ behind =>
                obtain ⟨rfl, laterSplit⟩ := List.cons.inj tail
                simp [starOpens, distance.opened_eq, word.opens (by decide), ih laterSplit]
          · cases inner with
            | nil => exact absurd (List.cons.inj tail).1.symm isWord
            | cons _ inner =>
                obtain ⟨rfl, _⟩ := List.cons.inj tail
                simp [starOpens, distance.opened_before rfl closes]

theorem ProximityWritten.opened_before {test : Test} {tokens front rest : List Token}
    {closing : Token} (written : ProximityWritten test tokens)
    (split : tokens = front ++ closing :: rest) (closes : closing.kind = .rparen) :
    opened front = 1 := by
  cases written with
  | mk first steps _ =>
      cases front with
      | nil =>
          obtain ⟨rfl, _⟩ := List.cons.inj split
          exact absurd first.kind_mem (by rw [closes]; decide)
      | cons _ front =>
          obtain ⟨rfl, behindFirst⟩ := List.cons.inj split
          simp [first.opens (by decide), steps.opened_before behindFirst closes]

end Test

/-!
## Cutting a chain off
-/

/-- Tokens that only close parentheses. -/
def Closing (tokens : List Token) : Prop :=
  ∀ token ∈ tokens, token.kind = .rparen

/-- Where tokens are cut off and others are put in their place: no chain of steps is interrupted
before a star, none goes on behind the cut, what is put there begins none, and no tilde finds a
number there. -/
structure Cut (front ahead core : List Token) : Prop where
  noStep : nextIs .star ahead = true → ∀ outer, ¬ Test.EndsStep (outer ++ front)
  joint : core ≠ [] → ∀ before last, front = before ++ [last] →
    last.kind ∉ [TokenKind.star, .rparen] ∧
      (last.kind = .lparen → nextIs .integer core = false)
  begun : nextIn [.star, .rparen] core = false
  loose : ∀ tilde, front = [tilde] → tilde.kind = .tilde → nextIn TokenKind.numbers core = false

namespace Cut

variable {front ahead core : List Token}

theorem append_left (cut : Cut front ahead core) (filled : front ≠ []) (outer : List Token) :
    Cut (outer ++ front) ahead core := by
  obtain ⟨inner, final, split⟩ := (List.eq_nil_or_concat front).resolve_left filled
  rw [List.concat_eq_append] at split
  constructor
  · intro star further
    rw [← List.append_assoc]
    exact cut.noStep star (further ++ outer)
  · intro some before last whole
    rw [split, ← List.append_assoc] at whole
    obtain ⟨_, same⟩ := List.append_inj' whole rfl
    cases same
    exact cut.joint some inner _ split
  · exact cut.begun
  · intro token whole
    rcases outer with _ | ⟨first, outer⟩
    · exact cut.loose token whole
    · simp [filled] at whole

theorem of_noStar (noStar : nextIs .star ahead = false) (front : List Token) :
    Cut front ahead [] := by
  constructor
  · intro star
    rw [noStar] at star
    cases star
  · intro filled
    exact absurd rfl filled
  · rfl
  · intro _ _ _
    rfl

/-- Only a word before the cut could end a step. -/
theorem behind_mark {mark : Token} (noJoint : mark.kind ∉ [TokenKind.star, .rparen])
    (noWord : nextIs .star ahead = true → mark.kind ∉ TokenKind.words)
    (opening : mark.kind = .lparen → nextIs .integer core = false)
    (begun : nextIn [.star, .rparen] core = false) {before : List Token}
    (loose : before = [] → mark.kind = .tilde → nextIn TokenKind.numbers core = false) :
    Cut (before ++ [mark]) ahead core := by
  constructor
  · rintro star outer ⟨inner, joint, word, split, _, isWord⟩
    rw [← List.append_assoc, List.append_cons inner] at split
    obtain ⟨_, same⟩ := List.append_inj' split rfl
    cases same
    exact noWord star isWord
  · intro _ before last split
    obtain ⟨_, same⟩ := List.append_inj' split rfl
    cases same
    exact ⟨noJoint, opening⟩
  · exact begun
  · intro token split
    cases before with
    | nil =>
        cases split
        exact loose rfl
    | cons first before => simp at split

/-- Tokens of which none is a joint belong to no chain, except for the first one. -/
theorem of_kinds {kinds : List TokenKind} (member : ∀ token ∈ front, token.kind ∈ kinds)
    (apart : ∀ kind ∈ kinds, kind ∉ [TokenKind.star, .rparen]) (filled : front ≠ [])
    (single : ∀ token, front = [token] → token.kind ∉ TokenKind.words)
    (begun : nextIn (.star :: .rparen :: TokenKind.numbers) core = false) :
    Cut front ahead core := by
  constructor
  · rintro _ outer ⟨inner, joint, word, split, kind, isWord⟩
    obtain ⟨before, last, rfl⟩ := (List.eq_nil_or_concat front).resolve_left filled
    rw [List.concat_eq_append] at split member single
    rw [← List.append_assoc, List.append_cons inner] at split
    obtain ⟨lastJoint, same⟩ := List.append_inj' split rfl
    cases same
    rcases List.eq_nil_or_concat before with rfl | ⟨before, next, rfl⟩
    · exact single word rfl isWord
    · rw [List.concat_eq_append, ← List.append_assoc] at lastJoint
      obtain ⟨_, same⟩ := List.append_inj' lastJoint rfl
      cases same
      exact apart _ (member joint (by simp)) kind
  · intro _ before last split
    refine ⟨apart _ (member last (by simp [split])), fun _ => ?_⟩
    exact nextIs_eq_false_of_nextIn begun (by decide)
  · exact nextIn_eq_false_of_subset begun (by decide)
  · intro _ _ _
    exact nextIn_eq_false_of_subset begun (by decide)

end Cut

namespace Grammar

variable {front ahead core closers : List Token}

/-- A proximity that begins before a cut would begin there without it. -/
theorem BeginsProximity.of_cut (cut : Cut front ahead core) (closing : Closing closers)
    (nonempty : front ≠ []) (begins : BeginsProximity (front ++ (core ++ closers))) :
    BeginsProximity (front ++ ahead) := by
  obtain ⟨test, taken, rest, split, written, noStar⟩ := begins
  -- The proximity ends at the cut, beyond it, or before it.
  obtain ⟨behind, rfl, tail⟩ | ⟨inner, rfl, tail⟩ := List.append_eq_append_iff.mp split
  · cases behind with
    | nil =>
        rw [List.append_nil] at written
        refine ⟨test, front, ahead, rfl, written, ?_⟩
        cases star : nextIs .star ahead with
        | false => rfl
        | true => exact absurd written.endsStep (cut.noStep star [])
    | cons next behind =>
        exfalso
        cases core with
        | nil =>
            -- Only closing parentheses are left, and the last word would be one of them.
            obtain ⟨before, joint, word, ending, _, isWord⟩ := written.endsStep
            have last : word ∈ next :: behind := by
              have ends : (front ++ next :: behind).getLast? = some word := by
                rw [ending]
                simp
              rw [List.getLast?_append_of_ne_nil _ (by simp)] at ends
              exact List.mem_of_getLast? ends
            have closed := closing word (by
              rw [List.nil_append] at tail
              rw [tail]
              exact List.mem_append_left _ last)
            rw [closed] at isWord
            exact absurd isWord (by decide)
        | cons first core =>
            obtain ⟨rfl, _⟩ := List.cons.inj tail
            obtain ⟨before, last, rfl⟩ := (List.eq_nil_or_concat front).resolve_left nonempty
            obtain ⟨noJoint, noNumber⟩ := cut.joint (by simp) before last List.concat_eq_append
            have begun := cut.begun
            rw [List.concat_eq_append] at written
            rcases written.neighbours (List.append_assoc _ _ _) with kind | kind | ⟨kind, number⟩
            · exact noJoint kind
            · simp [nextIn, kind] at begun
            · have noNumber := noNumber kind
              simp [nextIs, number] at noNumber
  · cases inner with
    | nil =>
        rw [List.append_nil] at cut ⊢
        refine ⟨test, taken, ahead, rfl, written, ?_⟩
        cases star : nextIs .star ahead with
        | false => rfl
        | true => exact absurd written.endsStep (cut.noStep star [])
    | cons next inner =>
        subst tail
        exact ⟨test, taken, next :: inner ++ ahead, by simp, written, noStar⟩

/-- What stands behind a closing parenthesis does not matter before it. -/
theorem BeginsProximity.of_closing {closing : Token} {old new : List Token}
    (closes : closing.kind = .rparen) (closed : opened front = 0)
    (begins : BeginsProximity (front ++ closing :: new)) :
    BeginsProximity (front ++ closing :: old) := by
  have noStar (rest : List Token) : nextIs .star (closing :: rest) = false := by
    simp [nextIs, closes]
  obtain ⟨test, taken, rest, split, written, star⟩ := begins
  obtain ⟨behind, rfl, tail⟩ | ⟨inner, rfl, tail⟩ := List.append_eq_append_iff.mp split
  · cases behind with
    | nil =>
        rw [List.append_nil] at written
        exact ⟨test, front, _, rfl, written, noStar old⟩
    | cons next behind =>
        obtain ⟨rfl, _⟩ := List.cons.inj tail
        rw [written.opened_before rfl closes] at closed
        cases closed
  · cases inner with
    | nil =>
        rw [List.append_nil]
        exact ⟨test, taken, _, rfl, written, noStar old⟩
    | cons next inner =>
        subst tail
        exact ⟨test, taken, next :: inner ++ closing :: old, by simp, written, star⟩

end Grammar

end SearchQuery
