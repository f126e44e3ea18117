import SearchQuery.Proofs.Single
set_option autoImplicit false

/-!
# Ranges and proximities in a field

A range or a proximity after a field is the field group that has it as its only operand. Written in
parentheses it is read as the same field group, unless it begins with the word `NOT`: inside the
parentheses that word signs an operand, and only after the field it is a word.
-/

namespace SearchQuery

open Reading Grammar

def Operand.sign : Operand → Sign
  | .mk _ sign _ _ => sign

variable {settings : Settings} {field : FieldReference} {test : Test}
  {qualifier tokens : List Token}

/-- What the rules of ranges and proximities take as a whole. -/
theorem Test.SpanWritten.of_run (taken : Grammar.range.run tokens = .ok (test, []) ∨
    Grammar.proximity.run tokens = .ok (test, [])) : test.SpanWritten tokens := by
  rcases taken with read | read
  · obtain ⟨taken, rfl, written⟩ := range_written read
    rw [List.append_nil]
    exact .range written
  · obtain ⟨taken, rfl, written⟩ := proximity_written read
    rw [List.append_nil]
    exact .proximity written

theorem Test.SpanWritten.beginsWithNot_eq (written : test.SpanWritten tokens) :
    test.beginsWithNot = nextIs .not tokens := by
  cases written with
  | range written =>
      cases written with
      | dotted lowSame _ _ => exact (nextIs_eq_false _ lowSame.kind_mem (by decide) _).symm
      | @bracketed lower _ _ _ _ _ _ _ _ opens _ _ _ _ =>
          cases lower <;> simp [beginsWithNot, nextIs, opens, Closure.opening]
  | proximity written =>
      cases written with
      | mk firstSame _ _ => rw [beginsWithNot, nextIs, firstSame.kind]

/-- The sign of an operand is the sign that is ahead. -/
theorem Grammar.sign_eq_signAhead {levels : Nat} {scope : Scope} {link : Link} {read : Operand}
    {rest : List Token} (accepted : (operand levels scope link).run tokens = .ok (read, rest)) :
    read.sign = signAhead tokens := by
  cases levels with
  | zero =>
      rw [operand, run_within_eq_ok_iff] at accepted
      exact absurd accepted run_fail_ne_ok
  | succ levels =>
      simp only [operand, run_within_eq_ok_iff, run_bind_eq_ok_iff, run_pure_eq_ok_iff] at accepted
      obtain ⟨sign, _, signRead, _, _, _, _, _, _, rfl, rfl⟩ := accepted
      rw [Grammar.sign, run_look] at signRead
      split at signRead
      · next none =>
          obtain ⟨rfl, _⟩ := run_pure_eq_ok_iff.mp signRead
          rw [none, Operand.sign]
      · simp only [run_bind_eq_ok_iff, run_pure_eq_ok_iff] at signRead
        obtain ⟨_, _, _, same, _⟩ := signRead
        exact same.symm

theorem Grammar.exists_first {scope : Scope} {operand : Link → Reading Operand}
    {read : List Operand} {rest : List Token}
    (accepted : (operands scope operand).run tokens = .ok (read, rest)) :
    ∃ first later between, read = first :: later ∧
      (operand .opening).run tokens = .ok (first, between) := by
  simp only [operands, run_within_eq_ok_iff, run_bind_eq_ok_iff, run_pure_eq_ok_iff,
    run_look] at accepted
  obtain ⟨first, between, ⟨_, _, required, firstRead⟩, later, _, _, rfl, _⟩ := accepted
  obtain rfl := requireOperand_accepted required
  exact ⟨first, later, between, rfl, firstRead⟩

/-- The tree of a single test in a field. -/
def Settings.soleInField (settings : Settings) (field : FieldReference) (test : Test) : Node :=
  Node.branch .fieldGroup [field.toNode, settings.sole .fieldGroup (test.toNode .fieldGroup)]

/-- In a field, a single test has the same tree in both dialects. -/
theorem Settings.groupTree_ofTest (settings : Settings) (test : Test) :
    settings.groupTree .fieldGroup [.ofTest test] =
      settings.sole .fieldGroup (test.toNode .fieldGroup) := by
  rw [groupTree, Operand.ofTest, Operand.linkedNodes_single, Body.toNode, sole, conjoins,
    Arrangement.ofSettings]
  cases settings.fieldConjunction <;> rfl

theorem Body.toNode_fieldSpan (settings : Settings) (scope : Scope) (field : FieldReference)
    (test : Test) :
    Body.toNode (Arrangement.ofSettings settings) scope (.fieldGroup field [.ofTest test]) =
      settings.soleInField field test := by
  rw [Body.toNode_fieldGroup, settings.groupTree_ofTest, Settings.soleInField]

theorem parseTokens_span (full : settings.mode.dialect = .full)
    (qualifying : field.Qualifying qualifier) (written : test.SpanWritten tokens) :
    parseTokens settings (qualifier ++ tokens) =
      .ok (settings.sole .query (settings.soleInField field test)) := by
  have unnamed := written.nameAhead_eq_false []
  have value : (fieldValue field fun inner => operands inner (operand innerLevels inner)).run
      (tokens ++ []) = .ok (.fieldGroup field [.ofTest test], []) := written.run_fieldValue rfl
  rw [List.append_nil] at unnamed value
  exact (parseTokens_qualified_iff full qualifying unnamed).mpr
    ⟨_, value, by rw [Body.toNode_fieldSpan]⟩

theorem Test.SpanWritten.tokens_ne_nil (written : test.SpanWritten tokens) : tokens ≠ [] :=
  (show test.Written .fieldGroup tokens from .span written).tokens_ne_nil

/-- In parentheses, a range or a proximity is the only operand exactly if it does not begin with the
word `NOT`. -/
theorem parseTokens_grouped_span_iff (full : settings.mode.dialect = .full)
    (qualifying : field.Qualifying qualifier) (written : test.SpanWritten tokens)
    {opening closing : Token} (opens : opening.kind = .lparen) (closes : closing.kind = .rparen) :
    parseTokens settings (qualifier ++ opening :: (tokens ++ [closing])) =
        .ok (settings.sole .query (settings.soleInField field test)) ↔
      nextIs .not tokens = false := by
  rw [Settings.soleInField, parseTokens_fieldGroup_iff full qualifying _ opens]
  constructor
  · rintro ⟨inner, read, same⟩
    obtain ⟨link, held, rfl, _⟩ := Operand.eq_of_junction_sole same
    simp only [innerGroup, group, run_within_eq_ok_iff, run_bind_eq_ok_iff, run_take_eq_ok_iff,
      run_pure_eq_ok_iff] at read
    obtain ⟨_, _, ⟨_, _, split⟩, _, _, innerRead, _, _, _, rfl, _⟩ := read
    obtain ⟨_, rfl⟩ := List.cons.inj split
    obtain ⟨first, later, between, same, firstRead⟩ := Grammar.exists_first innerRead
    obtain ⟨rfl, _⟩ := List.cons.inj same
    have unsigned := Grammar.sign_eq_signAhead firstRead
    obtain ⟨token, others, rfl⟩ := List.exists_cons_of_ne_nil written.tokens_ne_nil
    rw [nextIs, beq_eq_false_iff_ne]
    intro kind
    simp [signAhead, kind, Operand.sign] at unsigned
  · intro unsigned
    rw [← written.beginsWithNot_eq] at unsigned
    have bodyWritten : Part.Written .fieldGroup (.body (.test test)) tokens := .test (.span written)
    have operandWritten : Part.Written .fieldGroup (.operand (.ofTest test)) tokens := by
      simpa [Operand.ofTest] using bodyWritten.operand .absent .absent
    have groupWritten : Part.Written .fieldGroup (.operands [.ofTest test]) tokens := by
      simpa using Part.Written.operands rfl operandWritten .done
    have explicit : Part.Explicit innerLevels (.operands [.ofTest test]) :=
      .operands (.operand (fun _ => unsigned) .test) .done
    exact ⟨[.ofTest test], Part.ReadBack.group opens closes (groupWritten.readBack explicit) [],
      settings.groupTree_ofTest test⟩

/-- A range or a proximity that follows a field has the tree of the field group with the test as its
only operand. That is the tree of the same tokens in parentheses exactly if they do not begin with
the word `NOT`. -/
theorem parseTokens_fieldSpan (full : settings.mode.dialect = .full)
    (qualifying : field.Qualifying qualifier)
    (taken : Grammar.range.run tokens = .ok (test, []) ∨
      Grammar.proximity.run tokens = .ok (test, []))
    {opening closing : Token} (opens : opening.kind = .lparen) (closes : closing.kind = .rparen) :
    parseTokens settings (qualifier ++ tokens) =
        .ok (settings.sole .query (settings.soleInField field test)) ∧
      ((∀ tree, parseTokens settings (qualifier ++ tokens) = .ok tree ↔
          parseTokens settings (qualifier ++ opening :: (tokens ++ [closing])) = .ok tree) ↔
        nextIs .not tokens = false) := by
  have written := Test.SpanWritten.of_run taken
  have grouped := parseTokens_grouped_span_iff full qualifying written opens closes
  have accepted := parseTokens_span full qualifying written
  refine ⟨accepted, fun agree => grouped.mp ((agree _).mp accepted), fun unsigned tree => ?_⟩
  rw [accepted, grouped.mpr unsigned]

/-- The words `a * b` after `body :`, where adjacent operands of field groups are disjoined. -/
theorem fieldSpan_of_two_words :
    let settings : Settings := { fieldConjunction := false }
    let qualifier : List Token := [⟨.id, "body", 0, 4⟩, ⟨.colon, ":", 4, 5⟩]
    let tokens : List Token := [⟨.id, "a", 6, 7⟩, ⟨.star, "*", 8, 9⟩, ⟨.id, "b", 10, 11⟩]
    let opening : Token := ⟨.lparen, "(", 5, 6⟩
    let closing : Token := ⟨.rparen, ")", 11, 12⟩
    let field : FieldReference := ⟨none, ⟨.id, "body", by decide⟩⟩
    let test : Test := .proximity ⟨.id, "a", by decide⟩ [(none, ⟨.id, "b", by decide⟩)]
    parseTokens settings (qualifier ++ tokens) =
        .ok (settings.sole .query (settings.soleInField field test)) ∧
      ∀ tree, parseTokens settings (qualifier ++ tokens) = .ok tree ↔
        parseTokens settings (qualifier ++ opening :: (tokens ++ [closing])) = .ok tree := by
  intro settings qualifier tokens opening closing field test
  have colon : (⟨.colon, ":", 4, 5⟩ : Token).kind = .colon := rfl
  have qualifying : field.Qualifying qualifier := .mk (.bare (.plain ⟨rfl, rfl⟩)) colon
  have opens : opening.kind = .lparen := rfl
  have closes : closing.kind = .rparen := rfl
  have full : settings.mode.dialect = .full := rfl
  have taken : Grammar.proximity.run tokens = .ok (test, []) := rfl
  obtain ⟨accepted, agree⟩ := parseTokens_fieldSpan full qualifying (.inr taken) opens closes
  exact ⟨accepted, agree.mpr rfl⟩

/-- The words `NOT * a` are a proximity after `f :`, and in parentheses they are a negated star and
the word `a`. -/
theorem fieldSpan_regrouped_of_not :
    let qualifier : List Token := [⟨.id, "f", 0, 1⟩, ⟨.colon, ":", 1, 2⟩]
    let tokens : List Token := [⟨.not, "NOT", 3, 6⟩, ⟨.star, "*", 7, 8⟩, ⟨.id, "a", 9, 10⟩]
    (∃ test, Grammar.proximity.run tokens = .ok (test, [])) ∧
      ¬ ∀ tree, parseTokens .standard (qualifier ++ tokens) = .ok tree ↔
        parseTokens .standard
          (qualifier ++ ⟨.lparen, "(", 2, 3⟩ :: (tokens ++ [⟨.rparen, ")", 10, 11⟩])) =
            .ok tree := by
  intro qualifier tokens
  refine ⟨⟨_, rfl⟩, fun agree => ?_⟩
  have other := (agree _).mp rfl
  cases other

end SearchQuery
