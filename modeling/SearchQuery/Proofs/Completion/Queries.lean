import SearchQuery.Proofs.Completion.Bodies
import SearchQuery.Proofs.Completion.Links
set_option autoImplicit false

/-!
# Queries can be completed

What has been taken of operands when a reading of them stops is completed at its last operand: that
one goes on, or it is dropped if it has hardly begun, and the operands before it are read again as
before. An operand nests as deep as there are levels, and so parentheses must not be deeper.
-/

namespace SearchQuery

open Reading Grammar

variable {levels : Nat} {scope : Scope}

/-!
## Single operands
-/

theorem Closing.nextIn_operandStarts {tokens : List Token} (closing : Closing tokens) :
    nextIn (operandStarts scope) tokens = false :=
  nextIn_eq_false_of_unlinked (closing.ended.linkAhead?_eq_none scope)

theorem run_operand_of_word {link : Link} {token : Token} {after : List Token}
    (word : token.kind ∈ TokenKind.termWords) (noNot : token.kind ≠ .not) (ends : Closing after) :
    ∃ read, (operand (levels + 1) scope link).run (token :: after) = .ok (read, after) := by
  have written : Test.Written scope (.term ⟨token.kind, token.text, word⟩ none none) [token] :=
    .term .absent ⟨rfl, rfl⟩ .absent
  have bodyBack : Part.ReadBack levels scope [token] (.body (.test _)) :=
    fun _ settled => written.run_test settled
  have unsigned : (.none : Sign) = .none →
      (Body.test (.term ⟨token.kind, token.text, word⟩ none none)).beginsWithNot = false := by
    intro _
    simpa [Body.beginsWithNot, Test.beginsWithNot] using noNot
  have back : Part.ReadBack (levels + 1) scope [token] (.operand (.mk link .none _ none)) :=
    .operand .absent (.test written) .absent unsigned bodyBack
  exact ⟨_, back ends.ended.settled ends.ended.noCaret⟩

theorem run_operand_of_anyName (link : Link) {after : List Token} (ends : Closing after) :
    ∃ read, (operand (levels + 1) scope link).run (.anyName :: after) = .ok (read, after) :=
  run_operand_of_word (by decide) (by decide) ends

theorem not_stops_sign {tokens ahead : List Token} : ¬ Stops sign tokens ahead := by
  rw [sign, stops_look_iff]
  split
  · exact not_stops_pure _
  · next written =>
      cases tokens with
      | nil => simp [signAhead] at written
      | cons token rest =>
          rw [stops_bind_iff, stops_advance_iff]
          simp

theorem exists_of_stops_boost {tokens ahead : List Token} (stops : Stops boost tokens ahead) :
    ∃ caret : Token, caret.kind = .caret ∧ tokens = caret :: ahead := by
  rw [boost, stops_look_iff] at stops
  split at stops
  · next next =>
      obtain ⟨caret, rest, kind, rfl⟩ := nextIs_eq_true_iff.mp next
      simp only [stops_within_iff, stops_bind_iff, stops_advance_iff, run_advance_eq_ok_iff,
        reduceCtorEq, false_and, false_or, stops_takeOneOf_iff, not_stops_pure, and_false,
        exists_false, or_false] at stops
      obtain ⟨_, _, ⟨_, split⟩, rfl, _⟩ := stops
      cases split
      exact ⟨caret, kind, rfl⟩
  · exact absurd stops (not_stops_pure _)

theorem run_operand_of_parts {link : Link} {sign : Sign} {body : Body} {boost : Option Number}
    {tokens unsigned behind rest : List Token}
    (signRead : Grammar.sign.run tokens = .ok (sign, unsigned))
    (bodyRead : (test scope fun inner => operands inner (operand levels inner)).run unsigned =
      .ok (body, behind))
    (boostRead : Grammar.boost.run behind = .ok (boost, rest)) :
    (operand (levels + 1) scope link).run tokens = .ok (.mk link sign body boost, rest) := by
  simp only [operand, run_within_eq_ok_iff, run_bind_eq_ok_iff, run_pure_eq_ok_iff]
  exact ⟨sign, _, signRead, body, _, bodyRead, boost, _, boostRead, rfl, rfl⟩

theorem Sign.Written.run_sign_of_anyName {sign : Sign} {front : List Token}
    (written : sign.Written front) (rest : List Token) :
    Grammar.sign.run (front ++ .anyName :: rest) = .ok (sign, .anyName :: rest) := by
  have name : Test.Written .query (.term _ .none .none) [Token.anyName] :=
    .term .absent (Token.anyName_isOf (by decide)) .absent
  exact written.run_sign (.test name) (fun _ => rfl) rest

theorem Carried.behind_sign {sign : Sign} {front taken ahead core : List Token}
    (carried : Carried [.anyName] ahead taken core) (written : sign.Written front) :
    Carried [.anyName] ahead (front ++ taken) core := by
  cases written with
  | absent => exact carried
  | present member =>
      have apart : ∀ kind ∈ signs, kind ∉ [TokenKind.star, .rparen] := by decide
      exact .cut (by simp) (carried.cut_behind (apart _ (Sign.mem_signs member)) [])

theorem completedAt_of_stops_boost (endable : ∀ scope, Endable (operands scope (operand levels scope)))
    {link : Link} {sign : Sign} {body : Body} {front taken ahead : List Token} {caret : Token}
    (mark : caret.kind = .caret)
    (signRead : Grammar.sign.run (front ++ (taken ++ caret :: ahead)) =
      .ok (sign, taken ++ caret :: ahead))
    (bodyRead : (test scope fun inner => operands inner (operand levels inner)).run
      (taken ++ caret :: ahead) = .ok (body, caret :: ahead))
    (bodyWritten : Part.Written scope (.body body) taken) :
    CompletedAt (operand (levels + 1) scope link) [.anyName]
      (front ++ (taken ++ caret :: ahead)) ahead := by
  have cut (before : List Token) : Cut (before ++ [caret]) ahead [.ofKind .integer] :=
    Cut.behind_mark (by simp [mark]) (by simp [mark, TokenKind.words]) (by simp [mark]) rfl
      (by simp [mark])
  refine ⟨front ++ taken ++ [caret], [.ofKind .integer], [], by simp, .cut (by simp) (cut _),
    closing_nil, fun after ends => ?_⟩
  have swapped : Swapped ([caret] ++ ahead) ([caret] ++ ([.ofKind .integer] ++ after)) :=
    swapped_of_cut (cut []) (by simp) ends (by simp [nextIn, mark])
  have bodyAgain := run_test_swapped (fun _ => operands_written operand_written) endable swapped
    bodyRead
  have factor := Token.ofKind_isOf .integer (show .integer ∈ TokenKind.numbers by decide)
  have boostWritten := SuffixWritten.present mark factor
  obtain ⟨first, rest, rfl, _⟩ := bodyWritten.begins
  refine ⟨.mk link sign body _,
    run_operand_of_parts ?_ bodyAgain (boostWritten.run_boost ends.ended.noCaret)⟩
  simpa using run_sign_swapped signRead

/-- An operand that stops can be completed: where its sign has been taken, where its test stops, and
behind the caret of its boost. -/
theorem completedAt_of_stops_operand
    (completable : ∀ scope, Completable levels scope (operands scope (operand levels scope)))
    {link : Link} {tokens ahead : List Token} (shallow : Shallow (levels + 1) tokens)
    (stops : Stops (operand (levels + 1) scope link) tokens ahead) :
    CompletedAt (operand (levels + 1) scope link) [.anyName] tokens ahead := by
  have writes : ∀ scope, WritesOperands scope (operands scope (operand levels scope)) :=
    fun _ => operands_written operand_written
  simp only [operand, stops_within_iff, stops_bind_iff, not_stops_sign, false_or, not_stops_pure,
    and_false, exists_false, or_false] at stops
  obtain ⟨sign, rest, signRead, stops⟩ := stops
  obtain ⟨front, rfl, signWritten⟩ := sign_written signRead
  obtain stops | ⟨body, _, bodyRead, stops⟩ := stops
  · obtain ⟨taken, core, closers, rfl, carried, closing, completed⟩ :=
      completedAt_of_stops_test completable writes (shallow.behind signWritten.opened_eq) stops
    refine ⟨front ++ taken, core, closers, by simp, carried.behind_sign signWritten, closing,
      fun after ends => ?_⟩
    obtain ⟨body, bodyRead⟩ := completed after ends
    have noBoost := SuffixWritten.absent.run_boost ends.ended.noCaret
    refine ⟨.mk link sign body none, run_operand_of_parts ?_ bodyRead noBoost⟩
    rw [List.append_assoc]
    cases carried with
    | anew _ => exact signWritten.run_sign_of_anyName _
    | cut filled _ =>
        obtain ⟨first, taken, rfl⟩ := List.exists_cons_of_ne_nil filled
        exact run_sign_swapped signRead
  · obtain ⟨caret, mark, rfl⟩ := exists_of_stops_boost stops
    obtain ⟨taken, rfl, bodyWritten⟩ := test_written writes bodyRead
    exact completedAt_of_stops_boost (fun scope => (completable scope).endable) mark signRead bodyRead
      bodyWritten

/-!
## Lists of operands
-/

theorem completedAt_of_stops_requireOperand {link : Link} {tokens ahead : List Token}
    (stops : Stops (requireOperand (operandStarts scope)) tokens ahead) :
    CompletedAt (operand (levels + 1) scope link) [.anyName] tokens ahead := by
  rw [requireOperand, stops_look_iff] at stops
  split at stops
  · exact absurd stops (not_stops_pure _)
  · next missing =>
      obtain rfl := stops_fail_iff.mp stops
      have noStar : nextIs .star tokens = false :=
        nextIs_eq_false_of_nextIn (Bool.eq_false_iff.mpr missing) (by cases scope <;> decide)
      exact ⟨[], [.anyName], [], rfl, .anew noStar, closing_nil,
        fun after ends => run_operand_of_anyName link ends⟩

/-- Operands of a number of levels that stop can be completed. -/
def Completes (levels : Nat) (scope : Scope) : Prop :=
  ∀ ⦃link : Link⦄ ⦃tokens ahead : List Token⦄, Shallow levels tokens →
    Stops (operand levels scope link) tokens ahead →
    CompletedAt (operand levels scope link) [.anyName] tokens ahead

/-- Later operands that stop can be completed, with any limit that is high enough. Where the next
one has not begun, it is dropped. -/
def LaterCompletedAt (operand : Link → Reading Operand) (scope : Scope)
    (tokens ahead : List Token) : Prop :=
  ∃ front core closers, tokens = front ++ ahead ∧ Carried [] ahead front core ∧ Closing closers ∧
    ∀ after, Closing after → ∀ limit, (front ++ (core ++ (closers ++ after))).length ≤ limit →
      ∃ read, (laterOperands scope operand limit).run (front ++ (core ++ (closers ++ after))) =
        .ok (read, after)

theorem not_stops_takeLink {link : Link} {tokens ahead : List Token}
    (linked : linkAhead? scope tokens = some link) : ¬ Stops (takeLink link) tokens ahead := by
  cases tokens with
  | nil => cases linked
  | cons token rest =>
      cases link with
      | opening | adjacent => exact not_stops_pure _
      | and | or => simp [takeLink, stops_advance_iff]

theorem run_laterOperands_of_last {operand : Link → Reading Operand}
    (writes : WritesOperand scope operand) {link : Link} {operator next after : List Token}
    (linked : linkAhead? scope (operator ++ next) = some link) (linkWritten : link.Written operator)
    (accepted : ∃ read, (operand link).run next = .ok (read, after)) (ends : Closing after)
    {limit : Nat} (enough : (operator ++ next).length ≤ limit) :
    ∃ read, (laterOperands scope operand limit).run (operator ++ next) = .ok (read, after) := by
  obtain ⟨read, accepted⟩ := accepted
  obtain ⟨taken, rfl, _, written⟩ := writes link accepted
  have positive := List.length_pos_iff.mpr written.tokens_ne_nil
  simp only [List.length_append] at enough
  obtain ⟨limit, rfl⟩ := Nat.exists_eq_add_of_lt (show 0 < limit by omega)
  exact ⟨[read], run_laterOperands_of_link linked (linkWritten.run_takeLink _)
    (written.nextIn_operandStarts _) accepted
    (run_laterOperands_of_unlinked (ends.ended.linkAhead?_eq_none scope) _)⟩

theorem laterCompletedAt_of_operator {operand : Link → Reading Operand}
    (writes : WritesOperand scope operand) {link : Link} {operator : Token}
    {next ahead : List Token} (member : operator.kind ∈ link.kinds)
    (completed : CompletedAt (operand link) [.anyName] next ahead) :
    LaterCompletedAt operand scope (operator :: next) ahead := by
  obtain ⟨front, core, closers, rfl, carried, closing, completed⟩ := completed
  have noJoint : operator.kind ∉ [TokenKind.star, .rparen] := by
    have apart : ∀ kind ∈ link.kinds, kind ∉ [TokenKind.star, .rparen] := by cases link <;> decide
    exact apart _ member
  refine ⟨operator :: front, core, closers, rfl, .cut (by simp) (carried.cut_behind noJoint []),
    closing, fun after ends limit enough => ?_⟩
  obtain ⟨read, accepted⟩ := completed after ends
  obtain ⟨taken, split, _, written⟩ := writes link accepted
  have starts := written.nextIn_operandStarts after
  rw [← split] at starts
  exact run_laterOperands_of_last writes (Link.linkAhead?_of_operator scope member starts)
    (.operator member) ⟨read, accepted⟩ ends enough

theorem laterCompletedAt_of_adjacent {next ahead : List Token}
    (linked : linkAhead? scope next = some .adjacent)
    (completed : CompletedAt (operand (levels + 1) scope .adjacent) [.anyName] next ahead) :
    LaterCompletedAt (operand (levels + 1) scope) scope next ahead := by
  obtain ⟨front, core, closers, rfl, carried, closing, completed⟩ := completed
  cases carried with
  | anew noStar =>
      refine ⟨[], [], [], rfl, .anew noStar, closing_nil, fun after ends limit _ => ⟨[], ?_⟩⟩
      exact run_laterOperands_of_unlinked (ends.ended.linkAhead?_eq_none scope) limit
  | cut filled cut =>
      -- Before a name, a keyword that was taken for a word would be an operator.
      by_cases keyword : ∃ token, front = [token] ∧ token.kind ∈ [TokenKind.and, .or]
      · obtain ⟨token, rfl, keyword⟩ := keyword
        have noOperand := nextIn_eq_false_of_adjacent keyword linked
        have noStar : nextIs .star ahead = false :=
          nextIs_eq_false_of_nextIn noOperand (by cases scope <;> decide)
        have word : token.kind ∈ TokenKind.termWords ∧ token.kind ≠ .not := by
          have apart : ∀ kind ∈ [TokenKind.and, .or], kind ∈ TokenKind.termWords ∧ kind ≠ .not := by
            decide
          exact apart _ keyword
        refine ⟨[token], [], [], rfl, .cut filled (.of_noStar noStar _), closing_nil,
          fun after ends limit enough => ?_⟩
        have relinked := Link.Written.adjacent.linkAhead?_eq filled linked
          fun _ _ _ => ends.nextIn_operandStarts
        exact run_laterOperands_of_last operand_written relinked .adjacent
          (run_operand_of_word word.1 word.2 ends) ends enough
      · refine ⟨front, core, closers, rfl, .cut filled cut, closing,
          fun after ends limit enough => ?_⟩
        have relinked : linkAhead? scope ([] ++ (front ++ (core ++ (closers ++ after)))) =
            some .adjacent :=
          Link.Written.adjacent.linkAhead?_eq filled linked fun token single kind =>
            absurd ⟨token, single, kind⟩ keyword
        exact run_laterOperands_of_last operand_written relinked .adjacent (completed after ends) ends
          enough

theorem Carried.append_left {front ahead core : List Token} (carried : Carried [] ahead front core)
    (before : List Token) : Cut (before ++ front) ahead core := by
  cases carried with
  | anew noStar => exact .of_noStar noStar _
  | cut filled cut => exact cut.append_left filled before

theorem Carried.swappedBehind {front ahead core closers : List Token}
    (carried : Carried [] ahead front core) (closing : Closing closers) {link : Link}
    (linked : linkAhead? scope (front ++ ahead) = some link) :
    SwappedBehind (front ++ ahead) (front ++ (core ++ closers)) := by
  cases carried with
  | anew noStar => exact swappedBehind_of_ended noStar closing.ended
  | cut filled cut =>
      have unlike := nextIn_eq_false_of_nextIn (nextIn_laterStarts_of_linkAhead? linked)
        (laterStarts_apart scope)
      rw [nextIn_append_of_ne_nil filled] at unlike
      refine ⟨swapped_of_cut cut filled closing (nextIn_eq_false_of_subset unlike (by decide)), ?_⟩
      rw [nextIs_append_of_ne_nil filled]
      exact nextIs_eq_false_of_nextIn unlike (by decide)

theorem completedAt_of_stops_conjunct (completes : Completes (levels + 1) scope) {link : Link}
    {tokens ahead : List Token} (shallow : Shallow (levels + 1) tokens)
    (stops : Stops (do
      if link ≠ .and then
        requireOperand (operandStarts scope)
      operand (levels + 1) scope link) tokens ahead) :
    CompletedAt (operand (levels + 1) scope link) [.anyName] tokens ahead := by
  split at stops
  · rw [stops_bind_iff] at stops
    obtain stops | ⟨_, _, required, stops⟩ := stops
    · exact completedAt_of_stops_requireOperand stops
    · obtain rfl := requireOperand_accepted required
      exact completes shallow stops
  · exact completes shallow stops

theorem exists_link_of_stops {operand : Link → Reading Operand} {limit : Nat}
    {tokens ahead : List Token} (stops : Stops (laterOperands scope operand limit) tokens ahead) :
    ∃ link, linkAhead? scope tokens = some link := by
  cases linked : linkAhead? scope tokens with
  | some link => exact ⟨link, rfl⟩
  | none => exact absurd stops (not_stops_of_ok (run_laterOperands_of_unlinked linked limit))

/-- Later operands go on where the last of them does, and the one before them is read again. -/
theorem laterCompletedAt_behind {link : Link} {operator front between ahead : List Token}
    {first : Operand} (linked : linkAhead? scope (operator ++ (front ++ between)) = some link)
    (linkWritten : link.Written operator)
    (firstRead : (operand levels scope link).run (front ++ between) = .ok (first, between))
    (firstWritten : Part.Written scope (.operand first) front)
    (relinked : ∃ next, linkAhead? scope between = some next)
    (later : LaterCompletedAt (operand levels scope) scope between ahead) :
    LaterCompletedAt (operand levels scope) scope (operator ++ (front ++ between)) ahead := by
  obtain ⟨others, core, closers, rfl, carried, closing, completed⟩ := later
  obtain ⟨_, relinked⟩ := relinked
  have filled := firstWritten.tokens_ne_nil
  refine ⟨operator ++ (front ++ others), core, closers, by simp, .cut (by simp [filled]) ?cut,
    closing, fun after ends limit enough => ?_⟩
  case cut =>
    rw [← List.append_assoc]
    exact carried.append_left _
  have behind := carried.swappedBehind (closing.append ends) relinked
  have linkedAgain : linkAhead? scope
      (operator ++ (front ++ others ++ (core ++ (closers ++ after)))) = some link := by
    rw [← List.append_assoc front] at linked
    refine linkWritten.linkAhead?_eq (by simp [filled]) linked fun token single _ => ?_
    -- A single token is the first operand, and no later one has begun.
    cases carried with
    | anew _ => exact (closing.append ends).nextIn_operandStarts
    | cut some _ => simp [List.append_eq_singleton_iff, filled, some] at single
  simp only [List.length_append, List.append_assoc] at enough linkedAgain ⊢
  have positive := List.length_pos_iff.mpr filled
  obtain ⟨limit, rfl⟩ := Nat.exists_eq_add_of_lt (show 0 < limit by omega)
  obtain ⟨read, laterRead⟩ := completed after ends (0 + limit) (by
    simp only [List.length_append]
    omega)
  exact ⟨first :: read, run_laterOperands_of_link linkedAgain (linkWritten.run_takeLink _)
    (firstWritten.nextIn_operandStarts _) (operand_swaps behind firstRead) laterRead⟩

theorem laterCompletedAt_of_stops (completes : Completes (levels + 1) scope) {limit : Nat}
    {tokens ahead : List Token} (shallow : Shallow (levels + 1) tokens)
    (stops : Stops (laterOperands scope (operand (levels + 1) scope) limit) tokens ahead) :
    LaterCompletedAt (operand (levels + 1) scope) scope tokens ahead := by
  induction limit generalizing tokens with
  | zero => exact absurd stops (not_stops_pure _)
  | succ limit ih =>
      rw [laterOperands, stops_look_iff] at stops
      cases linked : linkAhead? scope tokens with
      | none =>
          rw [linked] at stops
          exact absurd stops (not_stops_pure _)
      | some link =>
          simp only [linked, stops_bind_iff, stops_within_iff, not_stops_takeLink linked, false_or,
            not_stops_pure, and_false, exists_false, or_false] at stops
          obtain ⟨_, next, taken, stops⟩ := stops
          obtain ⟨operator, rfl, linkWritten⟩ := takeLink_written linked taken
          have shallowNext := shallow.behind linkWritten.opened_eq
          obtain stops | ⟨first, between, firstRead, stops⟩ := stops
          · have completed := completedAt_of_stops_conjunct completes shallowNext stops
            cases linkWritten with
            | adjacent => exact laterCompletedAt_of_adjacent linked completed
            | operator member => exact laterCompletedAt_of_operator operand_written member completed
          · have firstRead := conjunct_accepted ((run_within_eq_ok_iff _ _ _ _).mp firstRead)
            obtain ⟨front, rfl, _, firstWritten⟩ := operand_written link firstRead
            exact laterCompletedAt_behind linked linkWritten firstRead firstWritten
              (exists_link_of_stops stops) (ih (shallowNext.behind firstWritten.opened_eq) stops)

/-!
## Whole queries
-/

theorem completedAt_of_stops_operands (completes : Completes (levels + 1) scope)
    {tokens ahead : List Token} (shallow : Shallow (levels + 1) tokens)
    (stops : Stops (operands scope (operand (levels + 1) scope)) tokens ahead) :
    CompletedAt (operands scope (operand (levels + 1) scope)) [.anyName] tokens ahead := by
  have first {tokens after : List Token} (ends : Closing after)
      (accepted : ∃ read, (operand (levels + 1) scope .opening).run tokens = .ok (read, after)) :
      ∃ read, (operands scope (operand (levels + 1) scope)).run tokens = .ok (read, after) := by
    obtain ⟨read, accepted⟩ := accepted
    obtain ⟨taken, rfl, _, written⟩ := operand_written .opening accepted
    exact ⟨[read], run_operands_of_opening (written.nextIn_operandStarts _) accepted
      (run_laterOperands_of_unlinked (ends.ended.linkAhead?_eq_none scope) _)⟩
  simp only [operands, stops_within_iff, stops_bind_iff, stops_look_iff, run_within_eq_ok_iff,
    run_bind_eq_ok_iff, not_stops_pure, and_false, exists_false, or_false] at stops
  obtain (stops | ⟨_, _, required, stops⟩) | ⟨read, between, ⟨_, _, required, accepted⟩, stops⟩ :=
    stops
  · have missing : CompletedAt (operand (levels + 1) scope .opening) [.anyName] tokens ahead :=
      completedAt_of_stops_requireOperand stops
    obtain ⟨front, core, closers, split, carried, closing, completed⟩ := missing
    exact ⟨front, core, closers, split, carried, closing,
      fun after ends => first ends (completed after ends)⟩
  · obtain rfl := requireOperand_accepted required
    obtain ⟨front, core, closers, split, carried, closing, completed⟩ := completes shallow stops
    exact ⟨front, core, closers, split, carried, closing,
      fun after ends => first ends (completed after ends)⟩
  · obtain rfl := requireOperand_accepted required
    obtain ⟨front, rfl, _, written⟩ := operand_written .opening accepted
    obtain ⟨others, core, closers, rfl, carried, closing, completed⟩ :=
      laterCompletedAt_of_stops completes (shallow.behind written.opened_eq) stops
    obtain ⟨_, linked⟩ := exists_link_of_stops stops
    refine ⟨front ++ others, core, closers, by simp,
      .cut (by simp [written.tokens_ne_nil]) (carried.append_left _), closing,
      fun after ends => ?_⟩
    have behind := carried.swappedBehind (closing.append ends) linked
    obtain ⟨later, laterRead⟩ := completed after ends _ (Nat.le_refl _)
    rw [List.append_assoc]
    exact ⟨read :: later, run_operands_of_opening (written.nextIn_operandStarts _)
      (operand_swaps behind accepted) laterRead⟩

theorem completes_operand : Completes levels scope := by
  induction levels generalizing scope with
  | zero => exact fun _ tokens _ shallow _ => absurd shallow (not_shallow_zero tokens)
  | succ levels ih =>
      intro link tokens ahead shallow stops
      -- Operands in parentheses have one level less, and parentheses are less deep there by one.
      refine completedAt_of_stops_operand (fun inner => ?_) shallow stops
      refine ⟨operands_endable operand_written operand_swaps, fun tokens ahead shallow stops => ?_⟩
      cases levels with
      | zero => exact absurd shallow (not_shallow_zero tokens)
      | succ levels => exact completedAt_of_stops_operands ih shallow stops

/-- A query goes on from every place where its reading may stop. -/
theorem exists_of_stops_query {tokens ahead : List Token} (shallow : Shallow maxLevels tokens)
    (stops : Stops query tokens ahead) :
    ∃ front extension read, tokens = front ++ ahead ∧
      query.run (front ++ extension) = .ok (read, []) := by
  have whole {tokens : List Token} {read : List Operand}
      (accepted : (operands .query (operand maxLevels .query)).run tokens = .ok (read, [])) :
      query.run tokens = .ok (read, []) := by
    simp only [query, run_within_eq_ok_iff, run_bind_eq_ok_iff, run_atEnd_eq_ok_iff,
      run_pure_eq_ok_iff]
    exact ⟨read, [], accepted, (), [], ⟨rfl, rfl⟩, rfl, rfl⟩
  simp only [query, stops_within_iff, stops_bind_iff, stops_atEnd_iff, not_stops_pure, and_false,
    exists_false, or_false] at stops
  obtain stops | ⟨read, _, accepted, rfl, _⟩ := stops
  · obtain ⟨front, core, closers, rfl, _, _, completed⟩ :=
      completedAt_of_stops_operands completes_operand shallow stops
    obtain ⟨read, accepted⟩ := completed [] closing_nil
    exact ⟨front, core ++ (closers ++ []), read, rfl, whole accepted⟩
  · obtain ⟨front, rfl, _⟩ := operands_written operand_written accepted
    have endable : Endable (operands .query (operand maxLevels .query)) :=
      operands_endable operand_written operand_swaps
    exact ⟨front, [], read, rfl, whole (endable.again .all accepted)⟩

end SearchQuery
