import SearchQuery.Proofs.Accepted
import SearchQuery.Proofs.Written.Tests
set_option autoImplicit false

/-!
# Written queries are accepted

A query whose operands are connected by operators only is read as it is written. Two things are
asked for besides: operands do not nest deeper than the grammar has levels, and no operand without a
sign begins with the word `NOT`, which would sign it.
-/

namespace SearchQuery

open Reading Grammar

/-- Whether the first token of a test is the word `NOT`. -/
def Test.beginsWithNot : Test → Bool
  | term word none _ => word.kind == .not
  | proximity first _ => first.kind == .not
  | _ => false

def Body.beginsWithNot : Body → Bool
  | .test single => single.beginsWithNot
  | _ => false

/-- Operators connect the operands of a part, and it is read as written by a grammar that has so
many levels. -/
inductive Part.Explicit : Nat → Part → Prop where
  | operand {levels : Nat} {link : Link} {sign : Sign} {body : Body} {boost : Option Number} :
      (sign = .none → body.beginsWithNot = false) → Explicit levels (.body body) →
      Explicit (levels + 1) (.operand (.mk link sign body boost))
  | test {levels : Nat} {test : Test} : Explicit levels (.body (.test test))
  | group {levels : Nat} {operands : List Operand} :
      Explicit levels (.operands operands) → Explicit levels (.body (.group operands))
  | fieldGroup {levels : Nat} {field : FieldReference} {operands : List Operand} :
      Explicit levels (.operands operands) → Explicit levels (.body (.fieldGroup field operands))
  | operands {levels : Nat} {first : Operand} {later : List Operand} :
      Explicit levels (.operand first) → Explicit levels (.later later) →
      Explicit levels (.operands (first :: later))
  | done {levels : Nat} : Explicit levels (.later [])
  | later {levels : Nat} {next : Operand} {later : List Operand} :
      next.link ≠ .adjacent → Explicit levels (.operand next) → Explicit levels (.later later) →
      Explicit levels (.later (next :: later))

/-!
## How parts begin
-/

theorem FieldReference.Qualifying.begins {field : FieldReference} {tokens : List Token}
    (qualifying : field.Qualifying tokens) :
    ∃ first rest, tokens = first :: rest ∧ first.kind ∈ testStarts .query ∧ first.kind ≠ .not := by
  obtain ⟨first, second, rest, rfl, kind, _⟩ := qualifying.exists_cons
  refine ⟨first, second :: rest, rfl, ?_⟩
  simp only [List.mem_cons, List.not_mem_nil, or_false] at kind
  rcases kind with kind | kind | kind <;> rw [kind] <;> decide

theorem Test.Written.begins {scope : Scope} {test : Test} {tokens : List Token}
    (written : test.Written scope tokens) :
    ∃ first rest, tokens = first :: rest ∧ first.kind ∈ testStarts scope ∧
      (first.kind = .not → test.beginsWithNot = true) := by
  have words {kind : TokenKind} (member : kind ∈ TokenKind.termWords) :
      kind ∈ testStarts scope := by
    cases scope <;> exact List.mem_append_left _ member
  cases written with
  | term qualifierWritten wordSame _ =>
      cases qualifierWritten with
      | absent =>
          exact ⟨_, _, rfl, words wordSame.kind_mem, fun kind => by
            simp [beginsWithNot, wordSame.kind, kind]⟩
      | present qualifying =>
          obtain ⟨first, rest, rfl, starts, other⟩ := qualifying.begins
          exact ⟨first, _, rfl, starts, fun kind => absurd kind other⟩
  | phrase qualifierWritten textSame _ =>
      cases qualifierWritten with
      | absent =>
          refine ⟨_, _, rfl, ?_, by simp [textSame.kind_eq]⟩
          rw [textSame.kind_eq]
          cases scope <;> decide
      | present qualifying =>
          obtain ⟨first, rest, rfl, starts, other⟩ := qualifying.begins
          exact ⟨first, _, rfl, starts, fun kind => absurd kind other⟩
  | exactTerm mark _ _ _ | exactPhrase mark _ _ _ | synonym mark _ _ _ =>
      refine ⟨_, _, rfl, ?_, by simp [mark]⟩
      rw [mark]
      cases scope <;> decide
  | span written =>
      cases written with
      | range written =>
          cases written with
          | dotted lowSame _ _ =>
              have bounds : ∀ kind ∈ TokenKind.rangeBounds,
                  kind ∈ testStarts scope ∧ kind ≠ .not := by
                cases scope <;> decide
              obtain ⟨starts, other⟩ := bounds _ lowSame.kind_mem
              exact ⟨_, _, rfl, starts, fun kind => absurd kind other⟩
          | @bracketed lower _ _ _ _ _ _ _ _ opens _ _ _ _ =>
              refine ⟨_, _, rfl, ?_, ?_⟩ <;> rw [opens] <;> cases lower <;>
                simp [testStarts, Closure.opening] <;> cases scope <;> decide
      | proximity written =>
          cases written with
          | mk firstSame _ _ =>
              exact ⟨_, _, rfl, words (List.mem_append_left _ firstSame.kind_mem), fun kind => by
                simp [beginsWithNot, firstSame.kind, kind]⟩
  | template mark _ | templates mark _ _ _ _ =>
      refine ⟨_, _, rfl, ?_, by simp [mark]⟩
      rw [mark]
      decide

theorem Part.Written.begins {scope : Scope} {body : Body} {tokens : List Token}
    (written : Part.Written scope (.body body) tokens) :
    ∃ first rest, tokens = first :: rest ∧ first.kind ∈ testStarts scope ∧
      (first.kind = .not → body.beginsWithNot = true) := by
  cases written with
  | test written => exact written.begins
  | group opens _ _ =>
      refine ⟨_, _, rfl, ?_, by simp [opens]⟩
      rw [opens]
      cases scope <;> decide
  | fieldGroup qualifying _ _ _ | fieldSpan qualifying _ =>
      obtain ⟨first, rest, rfl, starts, other⟩ := qualifying.begins
      exact ⟨first, _, rfl, starts, fun kind => absurd kind other⟩

theorem Sign.mem_signs {sign : Sign} {kind : TokenKind} (member : kind ∈ sign.kinds) :
    kind ∈ signs := by
  have subset : ∀ kind ∈ sign.kinds, kind ∈ signs := by
    cases sign <;> decide
  exact subset kind member

theorem Sign.signAhead_eq {sign : Sign} {token : Token} (member : token.kind ∈ sign.kinds)
    (rest : List Token) : signAhead (token :: rest) = sign := by
  rw [signAhead]
  cases sign with
  | none => cases member
  | negation =>
      simp only [Sign.kinds, List.mem_cons, List.not_mem_nil, or_false] at member
      rcases member with kind | kind <;> rw [kind]
  | mandatory | optional | exclude => rw [List.mem_singleton.mp member]

theorem Part.Written.nextIn_operandStarts {scope : Scope} {operand : Operand} {tokens : List Token}
    (written : Part.Written scope (.operand operand) tokens) (rest : List Token) :
    nextIn (operandStarts scope) (tokens ++ rest) = true := by
  cases written with
  | operand signWritten bodyWritten _ =>
      rw [nextIn_eq_true_iff]
      cases signWritten with
      | absent =>
          obtain ⟨first, others, rfl, starts, _⟩ := bodyWritten.begins
          exact ⟨first, _, List.mem_append_right _ starts, rfl⟩
      | present member => exact ⟨_, _, List.mem_append_left _ (Sign.mem_signs member), rfl⟩

/-- The sign of an operand is the sign that is written, unless a word `NOT` is taken for one. -/
theorem Sign.Written.run_sign {scope : Scope} {sign : Sign} {body : Body}
    {front tokens : List Token} (written : sign.Written front)
    (bodyWritten : Part.Written scope (.body body) tokens)
    (unsigned : sign = .none → body.beginsWithNot = false) (rest : List Token) :
    Grammar.sign.run (front ++ (tokens ++ rest)) = .ok (sign, tokens ++ rest) := by
  rw [Grammar.sign, run_look]
  cases written with
  | absent =>
      obtain ⟨first, others, rfl, starts, begins⟩ := bodyWritten.begins
      have other : first.kind ≠ .not := by
        intro kind
        rw [begins kind] at unsigned
        cases unsigned rfl
      have none : signAhead (first :: others ++ rest) = .none := by
        have signless : ∀ kind ∈ testStarts scope, kind ≠ .not →
            kind ∉ [TokenKind.exclamation, .plus, .bar, .minus] := by
          cases scope <;> decide
        have apart := signless _ starts other
        simp only [List.cons_append, signAhead]
        split <;> simp_all
      rw [List.nil_append, none]
      rfl
  | present member =>
      rw [List.cons_append, Sign.signAhead_eq member]
      cases sign with
      | none => cases member
      | negation | mandatory | optional | exclude => rfl

/-!
## How parts end
-/

namespace Grammar

/-- Operands end here: nothing is left, or what encloses them is closed. -/
inductive Ended : List Token → Prop where
  | all : Ended []
  | closed {closing : Token} {rest : List Token} : closing.kind = .rparen → Ended (closing :: rest)

variable {rest : List Token}

theorem Ended.settled (ended : Ended rest) : Settled rest := by
  cases ended with
  | all => rfl
  | closed closes => simp [Settled, nextIn, closes]

theorem Ended.noCaret (ended : Ended rest) : nextIs .caret rest = false := by
  cases ended with
  | all => rfl
  | closed closes => simp [nextIs, closes]

theorem Ended.linkAhead?_eq_none (ended : Ended rest) (scope : Scope) :
    linkAhead? scope rest = none := by
  cases ended with
  | all => rfl
  | closed closes =>
      have other : TokenKind.rparen ∉ operandStarts scope := by cases scope <;> decide
      simp [linkAhead?, closes, other]

end Grammar

namespace Link

theorem Written.eq_nil_or_operator {link : Link} {tokens : List Token}
    (written : link.Written tokens) :
    tokens = [] ∨ ∃ operator : Token, operator.kind ∈ link.kinds ∧ tokens = [operator] := by
  cases written with
  | adjacent => exact .inl rfl
  | operator member => exact .inr ⟨_, member, rfl⟩

theorem Written.exists_operator {link : Link} {tokens : List Token} (written : link.Written tokens)
    (connected : link ≠ .adjacent) :
    ∃ operator : Token, operator.kind ∈ link.kinds ∧ tokens = [operator] := by
  cases written with
  | adjacent => exact absurd rfl connected
  | operator member => exact ⟨_, member, rfl⟩

variable {link : Link} {operator : Token} {rest : List Token}

theorem settled_of_operator (member : operator.kind ∈ link.kinds) :
    Settled (operator :: rest) ∧ nextIs .caret (operator :: rest) = false := by
  cases link with
  | opening | adjacent => cases member
  | and | or =>
      simp only [Link.kinds, List.mem_cons, List.not_mem_nil, or_false] at member
      rcases member with kind | kind <;> simp [Settled, nextIn, nextIs, kind]

/-- An operator connects whatever operand follows it, a keyword included. -/
theorem linkAhead?_of_operator (scope : Scope) (member : operator.kind ∈ link.kinds)
    (follows : nextIn (operandStarts scope) rest = true) :
    linkAhead? scope (operator :: rest) = some link := by
  cases link with
  | opening | adjacent => cases member
  | and | or =>
      simp only [Link.kinds, List.mem_cons, List.not_mem_nil, or_false] at member
      rcases member with kind | kind <;> simp [linkAhead?, kind, follows]

theorem run_takeLink (member : operator.kind ∈ link.kinds) :
    (takeLink link).run (operator :: rest) = .ok ((), rest) := by
  cases link with
  | opening | adjacent => cases member
  | and | or => rfl

theorem Written.run_takeLink {tokens : List Token} (written : link.Written tokens)
    (rest : List Token) : (takeLink link).run (tokens ++ rest) = .ok ((), rest) := by
  cases written with
  | adjacent => rfl
  | operator member => exact Link.run_takeLink member

end Link

/-- No operand is written with no tokens. -/
theorem Part.Written.length_later_le {scope : Scope} {later : List Operand} {tokens : List Token}
    (written : Part.Written scope (.later later) tokens) : later.length ≤ tokens.length := by
  induction later generalizing tokens with
  | nil => exact Nat.zero_le _
  | cons next later ih =>
      cases written with
      | later _ nextWritten laterWritten =>
          have some := List.length_pos_iff.mpr nextWritten.tokens_ne_nil
          have others := ih laterWritten
          simp only [List.length_cons, List.length_append]
          omega

theorem Part.Written.settled {scope : Scope} {levels : Nat} {later : List Operand}
    {tokens rest : List Token} (written : Part.Written scope (.later later) tokens)
    (explicit : Part.Explicit levels (.later later)) (ended : Ended rest) :
    Settled (tokens ++ rest) ∧ nextIs .caret (tokens ++ rest) = false := by
  cases written with
  | done => exact ⟨ended.settled, ended.noCaret⟩
  | later linkWritten _ _ =>
      cases explicit with
      | later connected _ _ =>
          obtain ⟨operator, member, rfl⟩ := linkWritten.exists_operator connected
          exact Link.settled_of_operator member

/-!
## Parts are read back
-/

/-- A part is read from its tokens, and no more than these are taken, where nothing carries it
on. -/
def Part.ReadBack (levels : Nat) (scope : Scope) (tokens : List Token) : Part → Prop
  | .operand read => ∀ ⦃rest : List Token⦄, Settled rest → nextIs .caret rest = false →
      (Grammar.operand levels scope read.link).run (tokens ++ rest) = .ok (read, rest)
  | .body read => ∀ ⦃rest : List Token⦄, Settled rest →
      (Grammar.test scope fun inner => Grammar.operands inner (Grammar.operand levels inner)).run
        (tokens ++ rest) = .ok (read, rest)
  | .operands read => ∀ ⦃rest : List Token⦄, Ended rest →
      (Grammar.operands scope (Grammar.operand levels scope)).run (tokens ++ rest) =
        .ok (read, rest)
  | .later read => ∀ ⦃rest : List Token⦄, Ended rest → ∀ ⦃limit : Nat⦄, read.length ≤ limit →
      (laterOperands scope (Grammar.operand levels scope) limit).run (tokens ++ rest) =
        .ok (read, rest)

namespace Part.ReadBack

variable {levels : Nat} {scope : Scope}

theorem operand {link : Link} {sign : Sign} {body : Body} {boost : Option Number}
    {front tokens suffix : List Token} (signWritten : sign.Written front)
    (bodyWritten : Part.Written scope (.body body) tokens)
    (suffixWritten : SuffixWritten .caret boost suffix)
    (unsigned : sign = .none → body.beginsWithNot = false)
    (bodyBack : Part.ReadBack levels scope tokens (.body body)) :
    Part.ReadBack (levels + 1) scope (front ++ tokens ++ suffix)
      (.operand (.mk link sign body boost)) := by
  intro rest settled noCaret
  have suffixSettled : Settled (suffix ++ rest) := by
    cases suffixWritten with
    | absent => exact settled
    | present caret _ => simp [Settled, nextIn, caret]
  simp only [Operand.link, Grammar.operand, run_within_eq_ok_iff, run_bind_eq_ok_iff,
    run_pure_eq_ok_iff, List.append_assoc]
  exact ⟨sign, _, signWritten.run_sign bodyWritten unsigned _, body, _, bodyBack suffixSettled,
    boost, _, suffixWritten.run_boost noCaret, rfl, rfl⟩

theorem group {operands : List Operand} {opening closing : Token} {tokens : List Token}
    (opens : opening.kind = .lparen) (closes : closing.kind = .rparen)
    (inner : Part.ReadBack levels scope tokens (.operands operands)) (rest : List Token) :
    (Grammar.group scope (Grammar.operands scope (Grammar.operand levels scope))).run
      (opening :: (tokens ++ closing :: rest)) = .ok (operands, rest) := by
  simp only [Grammar.group, run_within_eq_ok_iff, run_bind_eq_ok_iff, run_take_eq_ok_iff,
    run_pure_eq_ok_iff]
  exact ⟨_, _, ⟨_, Token.leaf_isOf _ opens, rfl⟩, operands, _, inner (.closed closes), _, _,
    ⟨_, Token.leaf_isOf _ closes, rfl⟩, rfl, rfl⟩

theorem bodyGroup {operands : List Operand} {opening closing : Token} {tokens : List Token}
    (opens : opening.kind = .lparen) (closes : closing.kind = .rparen)
    (inner : Part.ReadBack levels scope tokens (.operands operands)) :
    Part.ReadBack levels scope (opening :: tokens ++ [closing]) (.body (.group operands)) := by
  intro rest _
  rw [List.append_assoc, List.cons_append, List.singleton_append, run_test_of_group_iff opens]
  exact ⟨operands, group opens closes inner rest, rfl⟩

theorem fieldGroup {field : FieldReference} {operands : List Operand} {opening closing : Token}
    {qualifier tokens : List Token} (qualifying : field.Qualifying qualifier)
    (opens : opening.kind = .lparen) (closes : closing.kind = .rparen)
    (inner : Part.ReadBack levels .fieldGroup tokens (.operands operands)) :
    Part.ReadBack levels .query (qualifier ++ (opening :: tokens ++ [closing]))
      (.body (.fieldGroup field operands)) := by
  intro rest _
  rw [List.append_assoc, List.append_assoc, List.cons_append, List.singleton_append,
    run_test_of_qualified_iff qualifying (nameAhead_of_group opens),
    run_fieldValue_of_group_iff opens]
  exact ⟨operands, group opens closes inner rest, rfl⟩

theorem fieldSpan {field : FieldReference} {test : Test} {qualifier tokens : List Token}
    (qualifying : field.Qualifying qualifier) (written : test.SpanWritten tokens) :
    Part.ReadBack levels .query (qualifier ++ tokens)
      (.body (.fieldGroup field [.ofTest test])) := by
  intro rest settled
  rw [List.append_assoc]
  exact (run_test_of_qualified_iff qualifying (written.nameAhead_eq_false rest)).mpr
    (written.run_fieldValue (settled.nextIs_eq_false (by decide)))

theorem operands {first : Operand} {later : List Operand} {tokens others : List Token}
    (opens : first.link = .opening) (firstWritten : Part.Written scope (.operand first) tokens)
    (laterWritten : Part.Written scope (.later later) others)
    (explicit : Part.Explicit levels (.later later))
    (firstBack : Part.ReadBack levels scope tokens (.operand first))
    (laterBack : Part.ReadBack levels scope others (.later later)) :
    Part.ReadBack levels scope (tokens ++ others) (.operands (first :: later)) := by
  intro rest ended
  have enough : later.length ≤ (others ++ rest).length := by
    rw [List.length_append]
    exact Nat.le_add_right_of_le laterWritten.length_later_le
  obtain ⟨settled, noCaret⟩ := laterWritten.settled explicit ended
  have required := run_requireOperand_of_next (firstWritten.nextIn_operandStarts (others ++ rest))
  have firstRead := firstBack settled noCaret
  rw [opens] at firstRead
  rw [List.append_assoc]
  simp only [Grammar.operands, run_within_eq_ok_iff, run_bind_eq_ok_iff, run_pure_eq_ok_iff,
    run_look]
  exact ⟨first, _, ⟨(), _, required, firstRead⟩, later, _, laterBack ended enough, rfl, rfl⟩

theorem later {next : Operand} {later : List Operand} {operator : Token}
    {tokens others : List Token} (member : operator.kind ∈ next.link.kinds)
    (nextWritten : Part.Written scope (.operand next) tokens)
    (laterWritten : Part.Written scope (.later later) others)
    (explicit : Part.Explicit levels (.later later))
    (nextBack : Part.ReadBack levels scope tokens (.operand next))
    (laterBack : Part.ReadBack levels scope others (.later later)) :
    Part.ReadBack levels scope ([operator] ++ tokens ++ others) (.later (next :: later)) := by
  intro rest ended limit enough
  obtain ⟨limit, rfl⟩ := Nat.exists_eq_add_of_lt enough
  rw [List.length_cons] at enough
  obtain ⟨settled, noCaret⟩ := laterWritten.settled explicit ended
  have starts := nextWritten.nextIn_operandStarts (others ++ rest)
  rw [List.append_assoc, List.append_assoc]
  exact run_laterOperands_of_link (Link.linkAhead?_of_operator scope member starts)
    (Link.run_takeLink member) starts (nextBack settled noCaret) (laterBack ended (by omega))

end Part.ReadBack

/-- What is written for explicit operands is read as these operands, and nothing else is. -/
theorem Part.Written.readBack {scope : Scope} {part : Part} {tokens : List Token}
    (written : Part.Written scope part tokens) {levels : Nat} (explicit : part.Explicit levels) :
    part.ReadBack levels scope tokens := by
  induction written generalizing levels with
  | operand signWritten bodyWritten suffixWritten ih =>
      cases explicit with
      | operand unsigned explicit =>
          exact .operand signWritten bodyWritten suffixWritten unsigned (ih explicit)
  | test written =>
      intro rest settled
      exact written.run_test settled
  | group opens _ closes ih =>
      cases explicit with
      | group explicit => exact .bodyGroup opens closes (ih explicit)
  | fieldGroup qualifying opens _ closes ih =>
      cases explicit with
      | fieldGroup explicit => exact .fieldGroup qualifying opens closes (ih explicit)
  | fieldSpan qualifying written => exact .fieldSpan qualifying written
  | operands opens firstWritten laterWritten firstIH laterIH =>
      cases explicit with
      | operands firstExplicit laterExplicit =>
          exact .operands opens firstWritten laterWritten laterExplicit (firstIH firstExplicit)
            (laterIH laterExplicit)
  | @done scope =>
      intro rest ended limit _
      exact run_laterOperands_of_unlinked (ended.linkAhead?_eq_none scope) limit
  | later linkWritten nextWritten laterWritten nextIH laterIH =>
      cases explicit with
      | later connected nextExplicit laterExplicit =>
          obtain ⟨operator, member, rfl⟩ := linkWritten.exists_operator connected
          exact .later member nextWritten laterWritten laterExplicit (nextIH nextExplicit)
            (laterIH laterExplicit)

/-- Explicit operands are read exactly from the tokens that they are written with. -/
theorem readTokens_eq_ok_iff_written {mode : Mode} (full : mode.dialect = .full)
    {operands : List Operand} (explicit : Part.Explicit maxLevels (.operands operands))
    (tokens : List Token) :
    readTokens mode tokens = .ok operands ↔ Part.Written .query (.operands operands) tokens := by
  refine ⟨readTokens_written, fun written => ?_⟩
  have read := written.readBack explicit .all
  have accepted : Grammar.query.run tokens = .ok (operands, []) := by
    simp only [Grammar.query, run_within_eq_ok_iff, run_bind_eq_ok_iff, run_atEnd_eq_ok_iff,
      run_pure_eq_ok_iff]
    exact ⟨operands, [], by simpa using read, (), [], ⟨rfl, rfl⟩, rfl, rfl⟩
  rw [readTokens, readTokensAs, if_pos rfl, full, readQuery, accepted]

end SearchQuery
