import SearchQuery.Proofs.Completion.Swaps
import SearchQuery.Proofs.Reading.Stops
set_option autoImplicit false

/-!
# Tests can be completed

Wherever the reading of a test stops, what it has taken so far begins some test: a few tokens go on
from there, and parentheses that are still open are closed. For most tests this is a matter of their
written form. A group is completed as the operands in it are, of which that much is assumed here.
-/

namespace SearchQuery

open Reading Grammar

/-- A token of a kind, where its text and its place do not matter. -/
def Token.ofKind (kind : TokenKind) : Token :=
  ⟨kind, "", 0, 0⟩

@[simp]
theorem Token.kind_ofKind (kind : TokenKind) : (Token.ofKind kind).kind = kind := rfl

theorem Token.ofKind_isOf (kind : TokenKind) {kinds : List TokenKind} (member : kind ∈ kinds) :
    Leaf.IsOf ⟨kind, "", member⟩ (Token.ofKind kind) :=
  ⟨rfl, rfl⟩

/-- A name, with which every part of a query can begin. -/
def Token.anyName : Token :=
  .ofKind .id

theorem Token.anyName_isOf {kinds : List TokenKind} (member : .id ∈ kinds) :
    Leaf.IsOf ⟨.id, "", member⟩ Token.anyName :=
  ⟨rfl, rfl⟩

/-- What goes on from the tokens that have been taken. Where none have been, it is a start, and the
tokens ahead are given up. -/
inductive Carried (start ahead : List Token) : List Token → List Token → Prop where
  | anew : nextIs .star ahead = false → Carried start ahead [] start
  | cut {front core : List Token} : front ≠ [] → Cut front ahead core →
      Carried start ahead front core

/-- A reading that stops can be completed: if other tokens go on from those that it has taken, it
succeeds, and leaves no more than parentheses that are closed behind it. -/
def CompletedAt {α : Type} (reading : Reading α) (start tokens ahead : List Token) : Prop :=
  ∃ front core closers, tokens = front ++ ahead ∧ Carried start ahead front core ∧
    Closing closers ∧ ∀ after, Closing after →
      ∃ value, reading.run (front ++ (core ++ (closers ++ after))) = .ok (value, after)

theorem Closing.append {first second : List Token} (left : Closing first)
    (right : Closing second) : Closing (first ++ second) := by
  intro token member
  rcases List.mem_append.mp member with inFirst | inSecond
  · exact left token inFirst
  · exact right token inSecond

theorem closing_nil : Closing [] := nofun

theorem closing_ofKind : Closing [.ofKind .rparen] := by
  simp [Closing]

/-!
## Cuts in tests
-/

/-- An operand may be cut off behind a sign or an opening parenthesis, and so may what follows the
part that it began. -/
theorem Carried.cut_behind {front ahead core : List Token}
    (carried : Carried [Token.anyName] ahead front core) {mark : Token}
    (noJoint : mark.kind ∉ [TokenKind.star, .rparen]) (before : List Token) :
    Cut (before ++ mark :: front) ahead core := by
  cases carried with
  | anew noStar =>
      refine Cut.behind_mark noJoint ?_ (fun _ => rfl) rfl (fun _ _ => rfl)
      intro star
      rw [noStar] at star
      cases star
  | cut filled cut =>
      rw [List.append_cons]
      exact cut.append_left filled _

namespace Test

def fieldKinds : List TokenKind :=
  [.id, .atSign, .uri, .colon, .comma]

end Test

theorem FieldReference.Bare.kind_mem {field : FieldReference} {tokens : List Token}
    (written : field.Bare tokens) : ∀ token ∈ tokens, token.kind ∈ Test.fieldKinds := by
  cases written with
  | plain name => simp [name.kind_eq, Test.fieldKinds]
  | word word colon name => simp [word.kind_eq, colon, name.kind_eq, Test.fieldKinds]
  | nameSpace uri name => simp [uri.kind_eq, name.kind_eq, Test.fieldKinds]

theorem FieldReference.Written.kind_mem {field : FieldReference} {tokens : List Token}
    (written : field.Written tokens) : ∀ token ∈ tokens, token.kind ∈ Test.fieldKinds := by
  cases written with
  | bare written => exact written.kind_mem
  | marked mark written =>
      rw [List.forall_mem_cons]
      exact ⟨by simp [mark, Test.fieldKinds], written.kind_mem⟩

theorem QualifierWritten.kind_mem {scope : Scope} {field : Option FieldReference}
    {tokens : List Token} (written : QualifierWritten scope field tokens) :
    ∀ token ∈ tokens, token.kind ∈ Test.fieldKinds := by
  cases written with
  | absent => simp
  | present qualifying =>
      cases qualifying with
      | mk written colon =>
          rw [List.forall_mem_append]
          exact ⟨written.kind_mem, by simp [colon, Test.fieldKinds]⟩

theorem Test.FieldsWritten.kind_mem {fields : List FieldReference} {tokens : List Token}
    (written : Test.FieldsWritten fields tokens) :
    ∀ token ∈ tokens, token.kind ∈ Test.fieldKinds := by
  induction written with
  | nil => simp
  | cons field _ ih =>
      rw [List.forall_mem_append]
      exact ⟨field.kind_mem, ih⟩
  | comma field comma _ ih =>
      rw [List.forall_mem_append, List.forall_mem_cons]
      exact ⟨field.kind_mem, by simp [comma, Test.fieldKinds], ih⟩

/-- Behind a mark and fields, or behind a field alone, a name may stand. -/
theorem cut_of_fields {front ahead : List Token} (filled : front ≠ [])
    (kinds : ∀ token ∈ front, token.kind ∈ [TokenKind.equals, .tilde, .percent, .lparen] ++
      Test.fieldKinds)
    (single : ∀ token, front = [token] → token.kind ∉ TokenKind.words)
    {core : List Token} (named : core = [Token.anyName] ∨ core = []) : Cut front ahead core := by
  refine Cut.of_kinds kinds (by decide) filled single ?_
  rcases named with rfl | rfl <;> rfl

/-!
## Parts of tests
-/

namespace Grammar

variable {tokens ahead : List Token}

/-- A suffix is cut off and goes on, whatever stands before it. -/
def SuffixCut (kinds : List TokenKind) (tokens ahead : List Token) : Prop :=
  ∃ front core, tokens = front ++ ahead ∧
    (∃ read : Option (Leaf kinds), SuffixWritten .tilde read (front ++ core)) ∧
    ∀ before, before ≠ [] → Cut (before ++ front) ahead core

/-- A word or phrase is loosened by a number, if one is missing, and by no other one behind it. -/
theorem suffixCut_of_stops_loosening {rule : Rule} {kinds : List TokenKind}
    {number : Reading (Leaf kinds)} (whole : .integer ∈ kinds)
    (leaf : number.Writes fun leaf taken => ∃ token, leaf.IsOf token ∧ taken = [token])
    (atOnce : ∀ {tokens ahead : List Token}, Stops number tokens ahead → tokens = ahead)
    (stops : Stops (look fun tokens =>
        if numericSuffixAhead tokens then
          within rule do
            advance
            let number ← number
            if stackedSuffixAhead tokens then
              fail .noViableAlternative []
            else
              return some number
        else
          return none) tokens ahead) :
    SuffixCut kinds tokens ahead := by
  rw [stops_look_iff] at stops
  split at stops
  · next suffix =>
      obtain ⟨tilde, after, mark, rfl⟩ := numericSuffixAhead_eq_true suffix
      simp only [stops_within_iff, stops_bind_iff, stops_advance_iff, run_advance_eq_ok_iff,
        reduceCtorEq, false_and, false_or] at stops
      obtain ⟨_, _, ⟨_, split⟩, missing | ⟨_, _, taken, stacked⟩⟩ := stops
      · cases split
        obtain rfl := atOnce missing
        refine ⟨[tilde], [.ofKind .integer], rfl,
          ⟨_, .present mark (Token.ofKind_isOf .integer whole)⟩, fun before filled => ?_⟩
        exact Cut.behind_mark (by simp [mark]) (by simp [mark, TokenKind.words]) (by simp [mark])
          rfl (fun empty => absurd empty filled)
      · cases split
        obtain ⟨_, rfl, token, same, rfl⟩ := leaf taken
        split at stacked
        · next again =>
            obtain rfl := stops_fail_iff.mp stacked
            refine ⟨[tilde, token], [], rfl, ⟨_, .present mark same⟩, fun before _ => ?_⟩
            apply Cut.of_noStar
            cases h : nextIs .star _ with
            | false => rfl
            | true =>
                obtain ⟨star, rest, kind, rfl⟩ := nextIs_eq_true_iff.mp h
                have noTilde : nextIs .tilde (star :: rest) = false := by simp [nextIs, kind]
                simp [SuffixWritten.stackedSuffixAhead_eq_false noTilde] at again
        · exact absurd stacked (not_stops_pure _)
  · exact absurd stops (not_stops_pure _)

theorem suffixCut_of_stops_fuzziness (stops : Stops fuzziness tokens ahead) :
    SuffixCut TokenKind.numbers tokens ahead :=
  suffixCut_of_stops_loosening (by decide) takeOneOf_written
    (fun stops => (stops_takeOneOf_iff.mp stops).1) stops

theorem suffixCut_of_stops_slop (stops : Stops slop tokens ahead) :
    SuffixCut [.integer] tokens ahead :=
  suffixCut_of_stops_loosening (by decide) take_written (fun stops => (stops_take_iff.mp stops).1)
    stops

theorem not_stops_skip {kind : TokenKind} : ¬ Stops (skip kind) tokens ahead := by
  rw [skip, stops_look_iff]
  split
  · next next =>
      obtain ⟨_, _, _, rfl⟩ := nextIs_eq_true_iff.mp next
      simp [stops_advance_iff]
  · exact not_stops_pure _

/-- A field in a template is a mark or a namespace that awaits its name. -/
theorem exists_of_stops_anyFieldReference (stops : Stops anyFieldReference tokens ahead) :
    ∃ front, tokens = front ++ ahead ∧ (∀ token ∈ front, token.kind ∈ [TokenKind.atSign, .uri]) ∧
      ∃ field : FieldReference, field.Written (front ++ [.anyName]) := by
  have name := Token.anyName_isOf (List.mem_singleton_self TokenKind.id)
  simp only [anyFieldReference, stops_bind_iff, not_stops_wouldSucceed, false_or,
    run_wouldSucceed_eq_ok_iff] at stops
  obtain ⟨qualified, _, ⟨found, rfl⟩, stops⟩ := stops
  cases qualified with
  | true =>
      obtain ⟨failure, rejected, _⟩ := stops
      rw [rejected] at found
      cases found
  | false =>
      simp only [fieldReference, stops_within_iff, stops_bind_iff, not_stops_skip, false_or] at stops
      obtain ⟨_, between, skipped, stops⟩ := stops
      have bare : ∃ front, between = front ++ ahead ∧ (∀ token ∈ front, token.kind = .uri) ∧
          ∃ field : FieldReference, field.Bare (front ++ [.anyName]) := by
        simp only [stops_look_iff, Bool.false_eq_true, if_false] at stops
        split at stops
        · next ahead =>
            simp only [stops_bind_iff, stops_take_iff, run_take_eq_ok_iff, not_stops_pure, and_false,
              exists_false, or_false] at stops
            obtain ⟨rfl, missing⟩ | ⟨_, _, ⟨uri, uriSame, rfl⟩, rfl, _⟩ := stops
            · rw [ahead] at missing
              cases missing
            · exact ⟨[uri], rfl, by simp [uriSame.kind_eq], _, .nameSpace uriSame name⟩
        · simp only [stops_bind_iff, stops_take_iff, not_stops_pure, and_false, exists_false,
            or_false] at stops
          obtain ⟨rfl, _⟩ := stops
          exact ⟨[], rfl, by simp, _, .plain name⟩
      obtain ⟨front, rfl, kinds, field, written⟩ := bare
      rcases skip_accepted skipped with rfl | ⟨mark, kind, rfl⟩
      · exact ⟨front, rfl, fun token member => by simp [kinds token member], field, .bare written⟩
      · refine ⟨mark :: front, rfl, ?_, field, .marked kind written⟩
        rw [List.forall_mem_cons]
        exact ⟨by simp [kind], fun token member => by simp [kinds token member]⟩

theorem exists_of_stops_templateFields {limit : Nat} (stops : Stops (templateFields limit) tokens ahead) :
    ∃ front, tokens = front ++ ahead ∧ (∀ token ∈ front, token.kind ∈ Test.fieldKinds) ∧
      ∃ fields, fields ≠ [] ∧ Test.FieldsWritten fields (front ++ [.anyName]) := by
  induction limit generalizing tokens with
  | zero => exact absurd stops (not_stops_pure _)
  | succ limit ih =>
      simp only [templateFields, stops_bind_iff, not_stops_skip, false_or] at stops
      rcases stops with stops | ⟨field, between, named, _, rest, skipped, stops⟩
      · obtain ⟨front, rfl, kinds, field, written⟩ := exists_of_stops_anyFieldReference stops
        have subset : ∀ kind ∈ [TokenKind.atSign, .uri], kind ∈ Test.fieldKinds := by decide
        refine ⟨front, rfl, fun token member => subset _ (kinds token member), [field], by simp, ?_⟩
        simpa using Test.FieldsWritten.cons written .nil
      · rw [stops_look_iff] at stops
        split at stops
        · exact absurd stops (not_stops_pure _)
        · rw [stops_bind_pure_iff] at stops
          obtain ⟨front, rfl, kinds, fields, _, written⟩ := ih stops
          obtain ⟨taken, rfl, fieldWritten⟩ := anyFieldReference_written named
          rcases skip_accepted skipped with rfl | ⟨comma, kind, rfl⟩
          · refine ⟨taken ++ front, by simp, ?_, field :: fields, by simp, ?_⟩
            · rw [List.forall_mem_append]
              exact ⟨fieldWritten.kind_mem, kinds⟩
            · rw [List.append_assoc]
              exact .cons fieldWritten written
          · refine ⟨taken ++ comma :: front, by simp, ?_, field :: fields, by simp, ?_⟩
            · rw [List.forall_mem_append, List.forall_mem_cons]
              exact ⟨fieldWritten.kind_mem, by simp [kind, Test.fieldKinds], kinds⟩
            · rw [List.append_assoc]
              exact .comma fieldWritten kind written

/-- A range is ahead: either its bracket, or its first bound and the two points. -/
inductive RangeAhead : List Token → Prop where
  | bracket {lower : Closure} {opening : Token} {rest : List Token} :
      opening.kind = lower.opening → RangeAhead (opening :: rest)
  | points {low dots : Token} {rest : List Token} :
      low.kind ∈ TokenKind.rangeBounds → dots.kind = .dotDot → RangeAhead (low :: dots :: rest)

/-- The bounds of a range and what stands between and around them. -/
def rangeKinds : List TokenKind :=
  [.lsquare, .lt, .upTo, .dotDot] ++ TokenKind.rangeBounds

theorem exists_of_stops_range (ranges : RangeAhead tokens) (stops : Stops range tokens ahead) :
    ∃ front core test, tokens = front ++ ahead ∧ front ≠ [] ∧ Cut front ahead core ∧
      Test.RangeWritten test (front ++ core) := by
  have name := Token.anyName_isOf (show TokenKind.id ∈ TokenKind.rangeBounds by decide)
  have kinds : ∀ kind ∈ TokenKind.rangeBounds, kind ∈ rangeKinds := by decide
  have apart : ∀ kind ∈ rangeKinds, kind ∉ [TokenKind.star, .rparen] := by decide
  simp only [range, stops_within_iff, stops_look_iff] at stops
  cases ranges with
  | @bracket lower opening rest opens =>
      have bracket : opening.kind ∈ rangeKinds ∧ opening.kind ∉ TokenKind.words := by
        rw [opens]
        cases lower <;> decide
      have cut {inner core : List Token} (member : ∀ token ∈ inner, token.kind ∈ rangeKinds)
          (begun : nextIn (.star :: .rparen :: TokenKind.numbers) core = false) :
          Cut (opening :: inner) ahead core := by
        refine Cut.of_kinds (List.forall_mem_cons.mpr ⟨bracket.1, member⟩) apart (by simp) ?_ begun
        intro token split
        obtain ⟨rfl, _⟩ := List.cons.inj split
        exact bracket.2
      have between {leaf : Leaf [.upTo]} {upTo : Token} (same : leaf.IsOf upTo) :
          upTo.kind ∈ rangeKinds := by
        rw [same.kind_eq]
        decide
      have closes : (Token.ofKind .rsquare).kind = Closure.inclusive.closing := rfl
      rw [if_pos (by cases lower <;> simp [nextIn, opens, Closure.opening])] at stops
      simp only [stops_bind_iff, stops_advance_iff, run_advance_eq_ok_iff, stops_takeOneOf_iff,
        run_takeOneOf_eq_ok_iff, stops_take_iff, run_take_eq_ok_iff, not_stops_pure, reduceCtorEq,
        false_and, false_or, and_false, exists_false, or_false] at stops
      obtain ⟨_, _, ⟨_, split⟩, ⟨rfl, _⟩ | ⟨low, _, ⟨first, lowSame, rfl⟩, ⟨rfl, _⟩ |
        ⟨_, _, ⟨upTo, upToSame, rfl⟩, ⟨rfl, _⟩ | ⟨high, _, ⟨second, highSame, rfl⟩, rfl, _⟩⟩⟩⟩ :=
          stops
      · cases split
        exact ⟨[opening], [.anyName, .ofKind .upTo, .anyName, .ofKind .rsquare], _, rfl, by simp,
          cut (by simp) rfl, .bracketed opens name rfl name closes⟩
      · cases split
        exact ⟨[opening, first], [.ofKind .upTo, .anyName, .ofKind .rsquare], _, rfl, by simp,
          cut (by simp [kinds _ lowSame.kind_mem]) rfl, .bracketed opens lowSame rfl name closes⟩
      · cases split
        refine ⟨[opening, first, upTo], [.anyName, .ofKind .rsquare], _, rfl, by simp, cut ?_ rfl,
          .bracketed opens lowSame upToSame.kind_eq name closes⟩
        simp [kinds _ lowSame.kind_mem, between upToSame]
      · cases split
        refine ⟨[opening, first, upTo, second], [.ofKind .rsquare], _, rfl, by simp, cut ?_ rfl,
          .bracketed opens lowSame upToSame.kind_eq highSame closes⟩
        simp [kinds _ lowSame.kind_mem, between upToSame, kinds _ highSame.kind_mem]
  | @points low dots rest bound dotted =>
      have unbracketed : nextIn [.lsquare, .lt] (low :: dots :: rest) = false :=
        nextIn_eq_false _ bound (by decide) _
      rw [if_neg (by simp [unbracketed])] at stops
      simp only [stops_bind_iff, stops_takeOneOf_iff, run_takeOneOf_eq_ok_iff, stops_take_iff,
        run_take_eq_ok_iff, not_stops_pure, and_false, exists_false, or_false] at stops
      obtain ⟨rfl, missing⟩ | ⟨_, _, ⟨first, lowSame, split⟩, ⟨rfl, missing⟩ |
        ⟨_, _, ⟨second, dotsSame, rfl⟩, rfl, _⟩⟩ := stops
      · simp [nextIn, bound] at missing
      · cases split
        simp [nextIs, dotted] at missing
      · cases split
        have dotsKind : dots.kind ∈ rangeKinds := by rw [dotted]; decide
        refine ⟨[low, dots], [.anyName], _, rfl, by simp, ?_, .dotted lowSame dotted name⟩
        refine Cut.of_kinds ?_ apart (by simp) (by simp) rfl
        simp [kinds _ bound, dotsKind]

theorem rangeAhead_of_next {token : Token} {rest : List Token}
    (next : token.kind ∈ [TokenKind.lsquare, .lt] ∨
      token.kind ∈ TokenKind.rangeBounds ∧ nextIs .dotDot rest = true) :
    RangeAhead (token :: rest) := by
  rcases next with bracket | ⟨bound, points⟩
  · have opens : ∃ lower : Closure, token.kind = lower.opening := by
      simp only [List.mem_cons, List.not_mem_nil, or_false] at bracket
      rcases bracket with kind | kind
      · exact ⟨.inclusive, kind⟩
      · exact ⟨.exclusive, kind⟩
    obtain ⟨lower, opens⟩ := opens
    exact .bracket opens
  · obtain ⟨dots, rest, dotted, rfl⟩ := nextIs_eq_true_iff.mp points
    exact .points bound dotted

theorem rangeAhead_of_testShape? {scope : Scope} (shape : testShape? scope tokens = some .range) :
    RangeAhead tokens := by
  cases tokens with
  | nil => cases shape
  | cons token rest =>
      apply rangeAhead_of_next
      simp only [testShape?, TokenKind.isWord, TokenKind.isRangeBound] at shape
      grind [TokenKind.words, TokenKind.rangeBounds]

theorem rangeAhead_of_valueShape? (shape : valueShape? tokens = some .range) :
    RangeAhead tokens := by
  cases tokens with
  | nil => cases shape
  | cons token rest =>
      apply rangeAhead_of_next
      simp only [valueShape?, TokenKind.isRangeBound] at shape
      grind

theorem nextIs_of_testShape? {scope : Scope} {shape : TestShape}
    (shaped : testShape? scope tokens = some shape) {mark : TokenKind}
    (marks : (shape, mark) ∈ [(TestShape.phrase, TokenKind.phrase), (.exact, .equals),
      (.synonym, .tilde), (.group, .lparen), (.template, .percent)]) :
    nextIs mark tokens = true := by
  cases tokens with
  | nil => cases shaped
  | cons token rest =>
      simp only [testShape?] at shaped
      rw [nextIs, beq_iff_eq]
      grind

theorem not_stops_fieldQualifier {qualified : Bool} {rest : List Token}
    (found : fieldQualifierForm.run tokens = .ok (some qualified, rest)) :
    ¬ Stops (fieldQualifier qualified) tokens ahead := by
  have read : ((fieldQualifier qualified).run tokens).isOk = true := by
    rw [run_fieldQualifierForm] at found
    grind
  rintro ⟨failure, rejected, _⟩
  rw [rejected] at read
  cases read

theorem not_stops_optionalFieldQualifier {scope : Scope} :
    ¬ Stops (optionalFieldQualifier scope) tokens ahead := by
  cases scope with
  | fieldGroup => exact not_stops_pure _
  | query =>
      simp only [optionalFieldQualifier, stops_bind_iff]
      rintro (stops | ⟨form, rest, found, stops⟩)
      · exact not_stops_of_ok (run_fieldQualifierForm tokens) stops
      · obtain rfl := fieldQualifierForm_accepted found
        cases form with
        | none => exact not_stops_pure _ stops
        | some qualified =>
            simp only [stops_bind_iff, not_stops_fieldQualifier found, not_stops_pure, and_false,
              exists_false, or_self] at stops

end Grammar

/-!
## Tests as they are written
-/

namespace Test

/-- What has been taken of a test begins the written form of a test. -/
def BegunAt (scope : Scope) (tokens ahead : List Token) : Prop :=
  ∃ front core closers, ∃ test : Test, tokens = front ++ ahead ∧ front ≠ [] ∧
    Cut front ahead core ∧ Closing closers ∧ test.Written scope (front ++ (core ++ closers))

variable {scope : Scope} {tokens ahead : List Token}

theorem BegunAt.completedAt (begun : BegunAt scope tokens ahead)
    (operands : Scope → Reading (List Operand)) :
    CompletedAt (Grammar.test scope operands) [.anyName] tokens ahead := by
  obtain ⟨front, core, closers, test, split, filled, cut, closing, written⟩ := begun
  refine ⟨front, core, closers, split, .cut filled cut, closing, fun after ends => ?_⟩
  have read : (Grammar.test scope operands).run (front ++ (core ++ closers) ++ after) =
      .ok (.test test, after) := written.run_test ends.ended.settled
  exact ⟨.test test, by simpa using read⟩

/-- Where no test begins, a name does instead. -/
theorem completedAt_anew (noStar : nextIs .star ahead = false)
    (operands : Scope → Reading (List Operand)) :
    CompletedAt (Grammar.test scope operands) [.anyName] ahead ahead := by
  have written : Test.Written scope _ ([] ++ Token.anyName :: []) :=
    .term .absent (Token.anyName_isOf (by decide)) .absent
  refine ⟨[], [.anyName], [], rfl, .anew noStar, closing_nil, fun after ends => ?_⟩
  exact ⟨_, written.run_test ends.ended.settled⟩

theorem begunAt_of_suffixCut {kinds : List TokenKind} {before behind : List Token}
    (filled : before ≠ []) (stopped : SuffixCut kinds behind ahead)
    (written : ∀ (read : Option (Leaf kinds)) suffix, SuffixWritten .tilde read suffix →
      ∃ test : Test, test.Written scope (before ++ suffix)) :
    BegunAt scope (before ++ behind) ahead := by
  obtain ⟨front, core, rfl, ⟨read, suffix⟩, cut⟩ := stopped
  obtain ⟨test, testWritten⟩ := written read _ suffix
  exact ⟨before ++ front, core, [], test, by simp, by simp [filled], cut before filled,
    closing_nil, by simpa using testWritten⟩

section

variable {field : Option FieldReference} {qualifier rest : List Token} {token : Token}

theorem begunAt_of_stops_fuzziness {word : TermWord}
    (written : QualifierWritten scope field qualifier) (same : word.IsOf token)
    (stops : Stops fuzziness rest ahead) : BegunAt scope (qualifier ++ token :: rest) ahead := by
  rw [List.append_cons]
  refine begunAt_of_suffixCut (by simp) (suffixCut_of_stops_fuzziness stops)
    fun fuzziness suffix suffixWritten => ⟨.term word field fuzziness, ?_⟩
  simpa using Test.Written.term written same suffixWritten

theorem begunAt_of_stops_slop {text : PhraseText} (written : QualifierWritten scope field qualifier)
    (same : text.IsOf token) (stops : Stops slop rest ahead) :
    BegunAt scope (qualifier ++ token :: rest) ahead := by
  rw [List.append_cons]
  refine begunAt_of_suffixCut (by simp) (suffixCut_of_stops_slop stops)
    fun slop suffix suffixWritten => ⟨.phrase text field slop, ?_⟩
  simpa using Test.Written.phrase written same suffixWritten

end

/-- Behind its mark and its field, a test goes on with a name. -/
theorem begunAt_of_qualifier {field : Option FieldReference} {mark : Token}
    {qualifier : List Token} (marks : mark.kind ∈ [TokenKind.equals, .tilde])
    (written : QualifierWritten scope field qualifier)
    (named : ∃ test : Test, test.Written scope (mark :: qualifier ++ [.anyName])) :
    BegunAt scope (mark :: (qualifier ++ ahead)) ahead := by
  obtain ⟨test, testWritten⟩ := named
  have subset : ∀ kind ∈ [TokenKind.equals, .tilde],
      kind ∈ [TokenKind.equals, .tilde, .percent, .lparen] ++ fieldKinds := by decide
  have wordless : ∀ kind ∈ [TokenKind.equals, .tilde], kind ∉ TokenKind.words := by decide
  refine ⟨mark :: qualifier, [.anyName], [], test, rfl, by simp, ?_, closing_nil, testWritten⟩
  refine cut_of_fields (by simp) ?_ ?_ (.inl rfl)
  · rw [List.forall_mem_cons]
    exact ⟨subset _ marks, fun token member => List.mem_append_right _ (written.kind_mem _ member)⟩
  · intro token split
    obtain ⟨rfl, _⟩ := List.cons.inj split
    exact wordless _ marks

theorem begunAt_of_stops_exactTest (marked : nextIs .equals tokens = true)
    (stops : Stops (exactTest scope) tokens ahead) : BegunAt scope tokens ahead := by
  obtain ⟨equals, rest, mark, rfl⟩ := nextIs_eq_true_iff.mp marked
  simp only [exactTest, stops_within_iff, stops_bind_iff, stops_take_iff, run_take_eq_ok_iff,
    not_stops_optionalFieldQualifier, false_or, stops_look_iff] at stops
  obtain ⟨rfl, missing⟩ | ⟨_, _, ⟨_, _, split⟩, field, between, qualified, stops⟩ := stops
  · simp [nextIs, mark] at missing
  cases split
  obtain ⟨qualifier, rfl, qualifierWritten⟩ := optionalFieldQualifier_written qualified
  split at stops
  · next phrase =>
      obtain ⟨token, rest, kind, rfl⟩ := nextIs_eq_true_iff.mp phrase
      simp only [stops_bind_iff, stops_take_iff, run_take_eq_ok_iff, not_stops_pure, and_false,
        exists_false, or_false] at stops
      obtain ⟨rfl, missing⟩ | ⟨text, _, ⟨_, same, split⟩, stops⟩ := stops
      · simp [nextIs, kind] at missing
      · cases split
        rw [← List.cons_append, List.append_cons]
        refine begunAt_of_suffixCut (by simp) (suffixCut_of_stops_slop stops)
          fun slop suffix written => ⟨.exactPhrase text field slop, ?_⟩
        simpa using Test.Written.exactPhrase mark qualifierWritten same written
  · simp only [stops_bind_iff, stops_takeOneOf_iff, run_takeOneOf_eq_ok_iff, not_stops_pure,
      and_false, exists_false, or_false] at stops
    obtain ⟨rfl, _⟩ | ⟨word, _, ⟨token, same, rfl⟩, stops⟩ := stops
    · exact begunAt_of_qualifier (by simp [mark]) qualifierWritten
        ⟨_, .exactTerm mark qualifierWritten (Token.anyName_isOf (by decide)) .absent⟩
    · rw [← List.cons_append, List.append_cons]
      refine begunAt_of_suffixCut (by simp) (suffixCut_of_stops_fuzziness stops)
        fun fuzziness suffix written => ⟨.exactTerm word field fuzziness, ?_⟩
      simpa using Test.Written.exactTerm mark qualifierWritten same written

theorem begunAt_of_stops_synonym (marked : nextIs .tilde tokens = true)
    (stops : Stops (Grammar.synonym scope) tokens ahead) : BegunAt scope tokens ahead := by
  obtain ⟨tilde, rest, mark, rfl⟩ := nextIs_eq_true_iff.mp marked
  simp only [Grammar.synonym, stops_within_iff, stops_bind_iff, stops_take_iff, run_take_eq_ok_iff,
    not_stops_optionalFieldQualifier, false_or, stops_takeOneOf_iff, run_takeOneOf_eq_ok_iff,
    not_stops_pure, and_false, exists_false, or_false] at stops
  obtain ⟨rfl, missing⟩ | ⟨_, _, ⟨_, _, split⟩, field, _, qualified, stops⟩ := stops
  · simp [nextIs, mark] at missing
  cases split
  obtain ⟨qualifier, rfl, qualifierWritten⟩ := optionalFieldQualifier_written qualified
  obtain ⟨rfl, _⟩ | ⟨word, _, ⟨token, same, rfl⟩, stops⟩ := stops
  · exact begunAt_of_qualifier (by simp [mark]) qualifierWritten
      ⟨_, .synonym mark qualifierWritten (Token.anyName_isOf (by decide)) .absent⟩
  · rw [← List.cons_append, List.append_cons]
    refine begunAt_of_suffixCut (by simp) (suffixCut_of_stops_fuzziness stops)
      fun fuzziness suffix written => ⟨.synonym word field fuzziness, ?_⟩
    simpa using Test.Written.synonym mark qualifierWritten same written

/-- The fields of a template in parentheses, which are closed behind them. -/
theorem begunAt_of_fields {percent opening : Token} {fields : List FieldReference}
    {front core : List Token} (mark : percent.kind = .percent) (opens : opening.kind = .lparen)
    (kinds : ∀ token ∈ front, token.kind ∈ fieldKinds) (named : core = [.anyName] ∨ core = [])
    (nonempty : fields ≠ []) (written : FieldsWritten fields (front ++ core)) :
    BegunAt .query (percent :: opening :: (front ++ ahead)) ahead := by
  refine ⟨percent :: opening :: front, core, [.ofKind .rparen], .template fields, rfl, by simp, ?_,
    closing_ofKind, ?_⟩
  · refine cut_of_fields (by simp) ?_ (by simp) named
    rw [List.forall_mem_cons, List.forall_mem_cons]
    exact ⟨by simp [mark], by simp [opens],
      fun token inside => List.mem_append_right _ (kinds token inside)⟩
  · simpa using Test.Written.templates mark opens written nonempty (Token.kind_ofKind .rparen)

theorem begunAt_of_stops_template (marked : nextIs .percent tokens = true)
    (stops : Stops Grammar.template tokens ahead) : BegunAt .query tokens ahead := by
  obtain ⟨percent, rest, mark, rfl⟩ := nextIs_eq_true_iff.mp marked
  simp only [Grammar.template, stops_within_iff, stops_bind_iff, stops_take_iff, run_take_eq_ok_iff,
    stops_look_iff] at stops
  obtain ⟨rfl, missing⟩ | ⟨_, _, ⟨_, _, split⟩, stops⟩ := stops
  · simp [nextIs, mark] at missing
  cases split
  split at stops
  · next opened =>
      obtain ⟨opening, inside, opens, rfl⟩ := nextIs_eq_true_iff.mp opened
      simp only [stops_bind_iff, stops_advance_iff, run_advance_eq_ok_iff, reduceCtorEq, false_and,
        false_or, stops_look_iff] at stops
      obtain ⟨_, _, ⟨_, split⟩, stops⟩ := stops
      cases split
      split at stops
      · obtain rfl := stops_fail_iff.mp stops
        have name := Token.anyName_isOf (List.mem_singleton_self TokenKind.id)
        exact begunAt_of_fields mark opens (List.forall_mem_nil _) (.inl rfl) (by simp)
          (show FieldsWritten [_] ([Token.anyName] ++ []) from .cons (.bare (.plain name)) .nil)
      · simp only [stops_bind_iff, stops_take_iff, not_stops_pure, and_false, exists_false,
          or_false] at stops
        obtain stops | ⟨fields, _, fieldsRead, rfl, _⟩ := stops
        · obtain ⟨front, rfl, kinds, fields, nonempty, written⟩ :=
            exists_of_stops_templateFields stops
          exact begunAt_of_fields mark opens kinds (.inl rfl) nonempty written
        · obtain ⟨taken, rfl, written, nonempty⟩ := templateFields_written fieldsRead
          exact begunAt_of_fields mark opens written.kind_mem (.inr rfl)
            (nonempty (Nat.succ_ne_zero _)) (by simpa using written)
  · rw [stops_bind_pure_iff] at stops
    obtain ⟨front, rfl, kinds, field, written⟩ := exists_of_stops_anyFieldReference stops
    have subset : ∀ kind ∈ [TokenKind.atSign, .uri],
        kind ∈ [TokenKind.equals, .tilde, .percent, .lparen] ++ fieldKinds := by decide
    refine ⟨percent :: front, [.anyName], [], .template [field], rfl, by simp, ?_, closing_nil,
      .template mark written⟩
    refine cut_of_fields (by simp) ?_ ?_ (.inl rfl)
    · rw [List.forall_mem_cons]
      exact ⟨by simp [mark], fun token inside => subset _ (kinds token inside)⟩
    · intro token split
      obtain ⟨rfl, _⟩ := List.cons.inj split
      simp [mark, TokenKind.words]

end Test

end SearchQuery
