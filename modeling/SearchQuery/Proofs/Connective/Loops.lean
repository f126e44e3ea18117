import SearchQuery.Proofs.Accepted
import SearchQuery.Proofs.Connective.Layered
import SearchQuery.Proofs.Connective.Runs
import SearchQuery.Proofs.Reading.Laws
set_option autoImplicit false

/-!
# One loop for two

The two nested loops of the layered grammar do what the single loop of `Grammar` does: they take the
same operands in the same order, fail with the same failures, and put an operand into a conjunction
of its own exactly where the arrangement breaks at its link.
-/

namespace SearchQuery.Layered

open Reading Grammar

/-!
## Loops with enough rounds
-/

section

variable {α : Type}

/-- Every round of a loop takes a token, and no round begins at the end. -/
structure Steady (ahead? : List Token → Option (Reading α)) : Prop where
  ended : ahead? [] = none
  advances : ∀ {tokens : List Token} {item : Reading α}, ahead? tokens = some item → Advances item

variable {ahead? : List Token → Option (Reading α)}

theorem run_many_of_none {tokens : List Token} (last : ahead? tokens = none) (limit : Nat) :
    (many ahead? limit).run tokens = .ok ([], tokens) := by
  cases limit with
  | zero => rfl
  | succ limit =>
      rw [many, run_look, last]
      rfl

theorem run_many_of_some {tokens : List Token} {item : Reading α}
    (next : ahead? tokens = some item) (limit : Nat) :
    (many ahead? (limit + 1)).run tokens =
      (do
        let first ← item
        let rest ← many ahead? limit
        return first :: rest : Reading (List α)).run tokens := by
  rw [many, run_look, next]

theorem Steady.length_le (steady : Steady ahead?) {limit : Nat} {tokens rest : List Token}
    {items : List α} (accepted : (many ahead? limit).run tokens = .ok (items, rest)) :
    rest.length ≤ tokens.length := by
  induction limit generalizing tokens items with
  | zero =>
      obtain ⟨_, rfl⟩ := run_pure_eq_ok_iff.mp accepted
      exact Nat.le_refl _
  | succ limit ih =>
      cases next : ahead? tokens with
      | none =>
          rw [run_many_of_none next] at accepted
          cases accepted
          exact Nat.le_refl _
      | some item =>
          rw [run_many_of_some next] at accepted
          simp only [run_bind_eq_ok_iff, run_pure_eq_ok_iff] at accepted
          obtain ⟨_, _, first, _, _, later, _, rfl⟩ := accepted
          exact Nat.le_trans (ih later) (Nat.le_of_lt (steady.advances next first))

/-- With as many rounds as there are tokens, or more, a loop ends by itself. -/
theorem Steady.run_many_eq (steady : Steady ahead?) {limit other : Nat} {tokens : List Token}
    (enough : tokens.length ≤ limit) (otherEnough : tokens.length ≤ other) :
    (many ahead? limit).run tokens = (many ahead? other).run tokens := by
  -- Both loops are followed round by round, and the tokens run out before the rounds do.
  induction limit generalizing tokens other with
  | zero =>
      obtain rfl := List.length_eq_zero_iff.mp (Nat.le_zero.mp enough)
      rw [run_many_of_none steady.ended, run_many_of_none steady.ended]
  | succ limit ih =>
      cases other with
      | zero =>
          obtain rfl := List.length_eq_zero_iff.mp (Nat.le_zero.mp otherEnough)
          rw [run_many_of_none steady.ended, run_many_of_none steady.ended]
      | succ other =>
          cases next : ahead? tokens with
          | none => rw [run_many_of_none next, run_many_of_none next]
          | some item =>
              rw [run_many_of_some next, run_many_of_some next, run_bind, run_bind]
              cases first : item.run tokens with
              | error failure => rfl
              | ok read =>
                  have shorter := steady.advances next first
                  have same := @ih other read.2 (by omega) (by omega)
                  dsimp only
                  rw [run_bind, run_bind, same]

theorem run_manyHere_of_none {tokens : List Token} (last : ahead? tokens = none) :
    (manyHere ahead?).run tokens = (Pure.pure [] : Reading (List α)).run tokens := by
  rw [manyHere, run_look, run_many_of_none last]
  rfl

theorem Steady.run_manyHere_of_some (steady : Steady ahead?) {tokens : List Token}
    {item : Reading α} (next : ahead? tokens = some item) :
    (manyHere ahead?).run tokens =
      (do
        let first ← item
        let rest ← manyHere ahead?
        return first :: rest : Reading (List α)).run tokens := by
  rw [manyHere, run_look, steady.run_many_eq (Nat.le_refl _) (Nat.le_succ _),
    run_many_of_some next, run_bind, run_bind]
  cases first : item.run tokens with
  | error failure => rfl
  | ok read =>
      have shorter := steady.advances next first
      dsimp only
      rw [run_bind, run_bind, steady.run_many_eq (Nat.le_of_lt shorter) (Nat.le_refl _)]
      rfl

end

/-!
## The decision of each round
-/

/-- The operators decide about a link first, and an operand without an operator is adjacent. -/
theorem linkAhead?_eq (scope : Scope) (tokens : List Token) :
    linkAhead? scope tokens =
      if conjoinsAhead scope tokens then some .and
      else if disjoinsAhead scope tokens then some .or
      else if nextIn (operandStarts scope) tokens then some .adjacent
      else none := by
  cases tokens with
  | nil => rfl
  | cons token rest =>
      simp only [linkAhead?, conjoinsAhead, disjoinsAhead, nextIn, Bool.or_eq_true,
        Bool.and_eq_true, beq_iff_eq, List.contains_iff_mem]
      grind

/-- An operand behind its link. Only after an operator that conjoins, no operand is required before
it is read. -/
def linked {α : Type} (scope : Scope) (link : Link) (operand : Reading α) : Reading α := do
  takeLink link
  within (.conjunction scope) do
    if link ≠ .and then
      requireOperand (operandStarts scope)
    operand

section

variable {α : Type} (scope : Scope) (operand : Reading α)

theorem linked_and :
    linked scope .and operand =
      (do
        advance
        within (.conjunction scope) operand) := rfl

theorem linked_or :
    linked scope .or operand =
      (do
        advance
        within (.conjunction scope) do
          requireOperand (operandStarts scope)
          operand) := rfl

theorem linked_adjacent :
    linked scope .adjacent operand =
      within (.conjunction scope) (do requireOperand (operandStarts scope); operand) := rfl

end

section

variable (scope : Scope) (operand : Link → Reading Operand)

def laterAhead? (tokens : List Token) : Option (Reading Operand) :=
  (linkAhead? scope tokens).map fun link => linked scope link (operand link)

theorem laterOperands_eq_many (limit : Nat) :
    laterOperands scope operand limit = many (laterAhead? scope operand) limit := by
  induction limit with
  | zero => rfl
  | succ limit ih =>
      rw [laterOperands, many, ih]
      congr 1
      funext tokens
      rw [laterAhead?]
      cases linkAhead? scope tokens with
      | none => rfl
      | some link =>
          simp only [Option.map_some, linked, bind_assoc]

end

/-!
## The two loops
-/

section

variable (conjoins : Bool) (scope : Scope) {operand : Reading Node}

theorem steady_conjunctAhead? (advances : operand.Advances) :
    Steady (conjunctAhead? conjoins scope operand) where
  ended := by simp [conjunctAhead?, conjoinsAhead, nextIn]
  advances := by
    intro tokens item next
    unfold conjunctAhead? at next
    split at next
    · cases next
      exact advances.behind_advance
    · split at next
      · cases next
        exact advances
      · cases next

theorem advances_conjunction (advances : operand.Advances) :
    (conjunction conjoins scope operand).Advances := by
  intro tokens rest node accepted
  simp only [conjunction, manyHere, run_within_eq_ok_iff, run_bind_eq_ok_iff, run_look,
    run_pure_eq_ok_iff] at accepted
  obtain ⟨_, _, required, _, _, first, _, _, later, _, rfl⟩ := accepted
  obtain rfl := requireOperand_accepted required
  have steady := steady_conjunctAhead? conjoins scope advances
  exact Nat.lt_of_le_of_lt (steady.length_le later) (advances first)

theorem steady_alternativeAhead? (advances : operand.Advances) :
    Steady (alternativeAhead? conjoins scope operand) where
  ended := by simp [alternativeAhead?, disjoinsAhead, nextIn]
  advances := by
    intro tokens item next
    unfold alternativeAhead? at next
    split at next
    · cases next
      exact (advances_conjunction conjoins scope advances).behind_advance
    · split at next
      · cases next
        exact advances_conjunction conjoins scope advances
      · cases next

end

def arrangement (conjoins : Bool) : Arrangement :=
  if conjoins then .conjoining else .disjoining

/-- What both loops read after an operand: the operands that follow in its conjunction, and the
conjunctions after it. -/
def layers (conjoins : Bool) (scope : Scope) (operand : Reading Node) :
    Reading (List Node × List Node) := do
  let conjuncts ← within (.conjunction scope) (manyHere (conjunctAhead? conjoins scope operand))
  let others ← manyHere (alternativeAhead? conjoins scope operand)
  return (conjuncts, others)

/-- An operand before what both loops have read after it. -/
def attach (breaks : Bool) (scope : Scope) (next : Node) (later : List Node × List Node) :
    List Node × List Node :=
  if breaks then ([], Node.branch (.form scope .conjunction) (next :: later.1) :: later.2)
  else (next :: later.1, later.2)

section

variable {conjoins : Bool} {scope : Scope} {operand : Reading Node} {tokens : List Token}

theorem run_layers_of_none (last : linkAhead? scope tokens = none) :
    (layers conjoins scope operand).run tokens =
      (Pure.pure ([], []) : Reading (List Node × List Node)).run tokens := by
  have noConjunct : conjunctAhead? conjoins scope operand tokens = none := by
    grind [linkAhead?_eq, conjunctAhead?]
  have noOther : alternativeAhead? conjoins scope operand tokens = none := by
    grind [linkAhead?_eq, alternativeAhead?]
  rw [layers, run_bind_congr (run_within_congr (run_manyHere_of_none noConjunct) _), within_pure,
    pure_bind, run_bind_congr (run_manyHere_of_none noOther), pure_bind]

theorem run_requireOperand {tokens : List Token} {kinds : List TokenKind}
    (starts : nextIn kinds tokens = true) :
    (requireOperand kinds).run tokens = (Pure.pure () : Reading Unit).run tokens := by
  rw [requireOperand, run_look, if_pos starts]

theorem run_within_advance (rule : Rule) {tokens : List Token} (filled : tokens ≠ []) :
    (within rule advance).run tokens = advance.run tokens := by
  cases tokens with
  | nil => exact absurd rfl filled
  | cons token rest => rfl

/-- One round of the single loop, on nodes: an operand behind its link, then whatever follows. -/
def round (conjoins : Bool) (scope : Scope) (operand : Reading Node) (link : Link) :
    Reading (List Node × List Node) := do
  let next ← linked scope link operand
  let later ← layers conjoins scope operand
  return attach ((arrangement conjoins).breaksAt link) scope next later

theorem run_layers_of_conjoinsAhead (advances : operand.Advances) (filled : tokens ≠ [])
    (conjoinsNext : conjoinsAhead scope tokens = true) :
    (layers conjoins scope operand).run tokens =
      (round conjoins scope operand .and).run tokens := by
  have steady := steady_conjunctAhead? conjoins scope advances
  have next : conjunctAhead? conjoins scope operand tokens = some (do advance; operand) := by
    rw [conjunctAhead?, if_pos conjoinsNext]
  rw [layers, run_bind_congr (run_within_congr (steady.run_manyHere_of_some next) _)]
  simp only [round, layers, linked_and, within_bind, within_pure, bind_assoc, pure_bind]
  exact run_bind_congr (run_within_advance _ filled) _

/-- Where the inner loop ends, the outer loop begins. -/
theorem run_layers_of_alternativeAhead (advances : operand.Advances) {item : Reading Node}
    (noConjunct : conjunctAhead? conjoins scope operand tokens = none)
    (next : alternativeAhead? conjoins scope operand tokens = some item) :
    (layers conjoins scope operand).run tokens =
      (do
        let first ← item
        let rest ← manyHere (alternativeAhead? conjoins scope operand)
        return ([], first :: rest) : Reading (List Node × List Node)).run tokens := by
  have steady := steady_alternativeAhead? conjoins scope advances
  rw [layers, run_bind_congr (run_within_congr (run_manyHere_of_none noConjunct) _), within_pure,
    pure_bind, run_bind_congr (steady.run_manyHere_of_some next)]
  simp only [bind_assoc, pure_bind]

theorem run_layers_of_disjoinsAhead (advances : operand.Advances)
    (noConjunction : ¬ conjoinsAhead scope tokens = true)
    (disjoinsNext : disjoinsAhead scope tokens = true) :
    (layers conjoins scope operand).run tokens =
      (round conjoins scope operand .or).run tokens := by
  have noConjunct : conjunctAhead? conjoins scope operand tokens = none := by
    simp [conjunctAhead?, noConjunction, disjoinsNext]
  have next : alternativeAhead? conjoins scope operand tokens =
      some (do advance; conjunction conjoins scope operand) := by
    rw [alternativeAhead?, if_pos disjoinsNext]
  rw [run_layers_of_alternativeAhead advances noConjunct next]
  simp only [round, linked_or, layers, conjunction, within_bind, within_pure, bind_assoc, pure_bind]
  rfl

/-- An operand without an operator is met by the loop that the connective gives it to. -/
theorem run_layers_of_operandAhead (advances : operand.Advances)
    (noConjunction : ¬ conjoinsAhead scope tokens = true)
    (noDisjunction : ¬ disjoinsAhead scope tokens = true)
    (startsNext : nextIn (operandStarts scope) tokens = true) :
    (layers conjoins scope operand).run tokens =
      (round conjoins scope operand .adjacent).run tokens := by
  cases conjoins with
  | true =>
      have steady := steady_conjunctAhead? true scope advances
      have next : conjunctAhead? true scope operand tokens = some operand := by
        simp [conjunctAhead?, noConjunction, noDisjunction, startsNext]
      have required := run_within_congr (run_requireOperand startsNext) (.conjunction scope)
      rw [layers, run_bind_congr (run_within_congr (steady.run_manyHere_of_some next) _)]
      simp only [round, layers, linked_adjacent, within_bind, within_pure, bind_assoc, pure_bind]
      rw [run_bind_congr required]
      rfl
  | false =>
      have noConjunct : conjunctAhead? false scope operand tokens = none := by
        simp [conjunctAhead?, noConjunction]
      have next : alternativeAhead? false scope operand tokens =
          some (conjunction false scope operand) := by
        simp [alternativeAhead?, noDisjunction, startsNext]
      rw [run_layers_of_alternativeAhead advances noConjunct next]
      simp only [round, linked_adjacent, layers, conjunction, within_bind, within_pure, bind_assoc,
        pure_bind]
      rfl

theorem run_layers_of_some (advances : operand.Advances) {link : Link}
    (ahead : linkAhead? scope tokens = some link) :
    (layers conjoins scope operand).run tokens =
      (round conjoins scope operand link).run tokens := by
  have filled : tokens ≠ [] := by
    rintro rfl
    cases ahead
  rw [linkAhead?_eq] at ahead
  split at ahead
  · next conjoinsNext =>
      cases ahead
      exact run_layers_of_conjoinsAhead advances filled conjoinsNext
  · next noConjunction =>
      split at ahead
      · next disjoinsNext =>
          cases ahead
          exact run_layers_of_disjoinsAhead advances noConjunction disjoinsNext
      · next noDisjunction =>
          split at ahead
          · next startsNext =>
              cases ahead
              exact run_layers_of_operandAhead advances noConjunction noDisjunction startsNext
          · cases ahead

/-- An operand is read before the loops begin. -/
theorem disjunction_eq (conjoins : Bool) (scope : Scope) (operand : Reading Node) :
    disjunction conjoins scope operand =
      within (.disjunction scope) do
        let first ← within (.conjunction scope) do
          requireOperand (operandStarts scope)
          operand
        let later ← layers conjoins scope operand
        return alternatives conjoins scope
          (Node.branch (.form scope .conjunction) (first :: later.1) :: later.2) := by
  simp only [disjunction, conjunction, layers, within_bind, within_pure, bind_assoc, pure_bind]

end

/-!
## Both loops and the single loop
-/

/-- What both loops read after an operand, from the operands that follow it. -/
def layersOf (arrangement : Arrangement) (scope : Scope) (items : List (Link × Node)) :
    List Node × List Node :=
  ((arrangement.following items).1,
    (arrangement.following items).2.map (Node.branch (.form scope .conjunction)))

theorem layersOf_cons (arrangement : Arrangement) (scope : Scope) (link : Link) (next : Node)
    (items : List (Link × Node)) :
    layersOf arrangement scope ((link, next) :: items) =
      attach (arrangement.breaksAt link) scope next (layersOf arrangement scope items) := by
  rw [layersOf, Arrangement.following, attach]
  split <;> rfl

theorem junction_cons (conjoins : Bool) (scope : Scope) (first : Link × Node)
    (items : List (Link × Node)) :
    (arrangement conjoins).junction scope (first :: items) =
      alternatives conjoins scope
        (Node.branch (.form scope .conjunction)
            (first.2 :: (layersOf (arrangement conjoins) scope items).1) ::
          (layersOf (arrangement conjoins) scope items).2) := by
  rw [Arrangement.junction, Arrangement.runs_cons, layersOf]
  cases conjoins with
  | true => cases ((arrangement true).following items).2 <;> rfl
  | false => cases ((arrangement false).following items).2 <;> rfl

theorem linked_yields {α β : Type} {change : α → β} {image : Reading β} {source : Reading α}
    (scope : Scope) (link : Link) (yields : image.Yields change source) :
    (linked scope link image).Yields change (linked scope link source) := by
  refine .after _ fun _ => .within _ ?_
  by_cases conjoined : link ≠ .and
  · rw [if_pos conjoined, if_pos conjoined]
    exact .after _ fun _ => yields
  · rw [if_neg conjoined, if_neg conjoined]
    exact yields

/-- A reading of nodes mirrors a reading of operands in an arrangement. -/
structure Mirrors (arrangement : Scope → Arrangement) (scope : Scope) (single : Reading Node)
    (operand : Link → Reading Operand) : Prop where
  yields : ∀ link, single.Yields (Operand.toNode arrangement scope) (operand link)
  writes : WritesOperand scope operand

section

variable {arranged : Scope → Arrangement} {scope : Scope} {single : Reading Node}
  {operand : Link → Reading Operand}

theorem Mirrors.advances (mirrors : Mirrors arranged scope single operand) (link : Link) :
    (operand link).Advances := by
  intro tokens rest read accepted
  obtain ⟨taken, rfl, _, written⟩ := mirrors.writes link accepted
  have filled := List.length_pos_iff.mpr written.tokens_ne_nil
  rw [List.length_append]
  omega

theorem length_le_of_run_takeLink {link : Link} {tokens rest : List Token} {result : Unit}
    (accepted : (takeLink link).run tokens = .ok (result, rest)) : rest.length ≤ tokens.length := by
  cases link with
  | opening | adjacent =>
      obtain ⟨_, rfl⟩ := run_pure_eq_ok_iff.mp accepted
      exact Nat.le_refl _
  | and | or =>
      obtain ⟨_, rfl⟩ := run_advance_eq_ok_iff.mp accepted
      exact Nat.le_succ _

/-- What is read behind a link is an operand that has this link, and takes a token. -/
theorem Mirrors.linked (mirrors : Mirrors arranged scope single operand) {link : Link}
    {tokens rest : List Token} {read : Operand}
    (accepted : (linked scope link (operand link)).run tokens = .ok (read, rest)) :
    read.link = link ∧ rest.length < tokens.length := by
  simp only [Layered.linked, run_bind_eq_ok_iff, run_within_eq_ok_iff] at accepted
  obtain ⟨_, between, taken, accepted⟩ := accepted
  have operandRead : (operand link).run between = .ok (read, rest) := by
    split at accepted
    · obtain ⟨_, _, required, accepted⟩ := run_bind_eq_ok_iff.mp accepted
      obtain rfl := requireOperand_accepted required
      exact accepted
    · exact accepted
  obtain ⟨_, _, linkSame, _⟩ := mirrors.writes link operandRead
  exact ⟨linkSame,
    Nat.lt_of_lt_of_le (mirrors.advances link operandRead) (length_le_of_run_takeLink taken)⟩

theorem Mirrors.steady_laterAhead? (mirrors : Mirrors arranged scope single operand) :
    Steady (laterAhead? scope operand) where
  ended := rfl
  advances := by
    intro tokens item next tokens rest read accepted
    obtain ⟨link, _, rfl⟩ := Option.map_eq_some_iff.mp next
    exact (mirrors.linked accepted).2

theorem Mirrors.layers (mirrors : Mirrors arranged scope single operand) {conjoins : Bool}
    (same : arranged scope = arrangement conjoins) :
    (layers conjoins scope single).Yields
      (fun later => layersOf (arranged scope) scope (Operand.linkedNodes arranged scope later))
      (manyHere (laterAhead? scope operand)) := by
  have advances := (mirrors.yields .opening).advances (mirrors.advances .opening)
  intro tokens
  -- Each round takes a token, so what follows it is read from fewer tokens.
  induction count : tokens.length using Nat.strongRecOn generalizing tokens with
  | ind count ih =>
      subst count
      cases ahead : linkAhead? scope tokens with
      | none =>
          have last : laterAhead? scope operand tokens = none := by rw [laterAhead?, ahead]; rfl
          rw [run_layers_of_none ahead, run_manyHere_of_none last]
          rfl
      | some link =>
          have next : laterAhead? scope operand tokens =
              some (Layered.linked scope link (operand link)) := by rw [laterAhead?, ahead]; rfl
          have mirrored := linked_yields scope link (mirrors.yields link)
          rw [run_layers_of_some advances ahead, round,
            mirrors.steady_laterAhead?.run_manyHere_of_some next, run_bind, run_bind,
            mirrored tokens]
          cases first : (Layered.linked scope link (operand link)).run tokens with
          | error failure => rfl
          | ok read =>
              obtain ⟨next, rest⟩ := read
              obtain ⟨rfl, shorter⟩ := mirrors.linked first
              dsimp only [Except.map]
              rw [run_bind, run_bind, ih rest.length shorter rest rfl]
              cases (manyHere (laterAhead? scope operand)).run rest with
              | error failure => rfl
              | ok read =>
                  dsimp only [Except.map]
                  rw [run_pure, run_pure]
                  dsimp only
                  rw [Operand.linkedNodes_cons, layersOf_cons, same]

/-- The nested loops build the tree of the operands that the single loop reads. -/
theorem Mirrors.disjunction (mirrors : Mirrors arranged scope single operand) {conjoins : Bool}
    (same : arranged scope = arrangement conjoins) :
    (disjunction conjoins scope single).Yields
      (fun all => (arranged scope).junction scope (Operand.linkedNodes arranged scope all))
      (operands scope operand) := by
  rw [disjunction_eq, operands]
  refine .within _ (.bind (.within _ (.after _ fun _ => mirrors.yields .opening)) fun first => ?_)
  simp only [laterOperands_eq_many]
  refine .bind (mirrors.layers same) fun later => ?_
  rw [same, ← junction_cons conjoins scope (first.link, first.toNode arranged scope),
    ← Operand.linkedNodes_cons]
  exact .pure _ _

end

end SearchQuery.Layered
