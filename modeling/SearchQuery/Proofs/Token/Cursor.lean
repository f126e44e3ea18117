import SearchQuery.Token.Cursor
set_option autoImplicit false

/-!
# Runs of a cursor

A cursor is used by operations in any order, and each mark that was taken can be returned to, any
number of times. In every run the cursor stays within its tokens, only a bump moves it on, and the
way back leads to where the mark was taken. Looking ahead shows the token at the sum of index and
distance as long as the sum is a machine word. From there on it comes back to the front of the list,
where every token has been taken before.
-/

namespace SearchQuery.Cursor

inductive Operation where
  | peek (distance : UInt64)
  | peekKind (distance : UInt64)
  | checkAt (distance : UInt64) (kind : TokenKind)
  | bump
  | mark
  | rewind (number : Nat)
deriving DecidableEq, Repr

inductive Answer where
  | token (found : Option Token)
  | kind (found : Option TokenKind)
  | truth (holds : Bool)
  | marked (number : Nat)
  | rewound
deriving DecidableEq, Repr

/-- A cursor in use and the marks that were taken, the earliest first. A mark is known by its
number. -/
structure Session where
  cursor : Cursor
  marks : List Mark
deriving DecidableEq, Repr

namespace Session

def start (tokens : List Token) : Session :=
  ⟨.start tokens, []⟩

/-- Carries out an operation. There is no return to a mark that was not taken. -/
def step (session : Session) : Operation → Option (Answer × Session)
  | .peek distance => some (.token (session.cursor.peek distance), session)
  | .peekKind distance => some (.kind (session.cursor.peekKind distance), session)
  | .checkAt distance kind => some (.truth (session.cursor.checkAt distance kind), session)
  | .bump =>
      let (token, cursor) := session.cursor.bump
      some (.token token, { session with cursor })
  | .mark =>
      some (.marked session.marks.length,
        { session with marks := session.marks ++ [session.cursor.mark] })
  | .rewind number =>
      session.marks[number]?.map fun mark =>
        (.rewound, { session with cursor := session.cursor.rewind mark })

/-- The session after operations. -/
def after (session : Session) : List Operation → Option Session
  | [] => some session
  | operation :: rest => (session.step operation).bind fun result => result.2.after rest

/-- A session over a token list. Neither the cursor nor a mark is behind the end. -/
structure Over (session : Session) (list : List Token) : Prop where
  tokens : session.cursor.tokens = list
  index_le : session.cursor.index ≤ list.length
  marks_le : ∀ mark ∈ session.marks, mark.index ≤ list.length

/-- What a cursor over a token list can be relied on for. A peek is no exception only as long as
index and distance make up a machine word. -/
structure Reliable (session : Session) (list : List Token) : Prop where
  inside : session.cursor.index ≤ list.length
  atEnd_iff : session.cursor.atEnd = true ↔ session.cursor.index = list.length
  answers : ∀ operation, session.step operation = none ↔
    ∃ number, operation = .rewind number ∧ session.marks.length ≤ number
  bump : session.step .bump = some (.token list[session.cursor.index]?,
    { session with
      cursor := ⟨list, if session.cursor.index = list.length then session.cursor.index
        else session.cursor.index + 1⟩ })
  mark : session.step .mark = some (.marked session.marks.length,
    { session with marks := session.marks ++ [session.cursor.mark] })
  rewind : ∀ operations later,
    Session.after ⟨session.cursor, session.marks ++ [session.cursor.mark]⟩ operations =
        some later →
      later.step (.rewind session.marks.length) =
        some (.rewound, { later with cursor := session.cursor })
  peek : ∀ distance, session.step (.peek distance) =
    some (.token (session.cursor.peek distance), session)
  peekKind : ∀ distance, session.step (.peekKind distance) =
    some (.kind ((session.cursor.peek distance).map Token.kind), session)
  checkAt : ∀ distance kind, session.step (.checkAt distance kind) =
    some (.truth ((session.cursor.peek distance).map Token.kind == some kind), session)
  ahead : ∀ distance, session.cursor.index + distance.toNat < UInt64.size →
    session.cursor.peek distance = list[session.cursor.index + distance.toNat]?
  around : list.length ≤ UInt64.size → ∀ distance,
    UInt64.size ≤ session.cursor.index + distance.toNat →
    list[session.cursor.index + distance.toNat]? = none ∧
      ∃ place token, place + UInt64.size = session.cursor.index + distance.toNat ∧
        place < session.cursor.index ∧ list[place]? = some token ∧
        session.cursor.peek distance = some token

end Session

/-!
## Single operations
-/

theorem bump_eq {cursor : Cursor} (inside : cursor.index ≤ cursor.tokens.length) :
    cursor.bump = (cursor.tokens[cursor.index]?,
      ⟨cursor.tokens,
        if cursor.index = cursor.tokens.length then cursor.index else cursor.index + 1⟩) := by
  rw [bump]
  split
  · next token found =>
      obtain ⟨below, _⟩ := List.getElem?_eq_some_iff.mp found
      rw [if_neg (Nat.ne_of_lt below), found]
  · next missing =>
      have last := List.getElem?_eq_none_iff.mp missing
      rw [if_pos (Nat.le_antisymm inside last), missing]

/-- The sum of index and distance is taken modulo the number of machine words. -/
theorem peek_eq (cursor : Cursor) (distance : UInt64) :
    cursor.peek distance = cursor.tokens[(cursor.index + distance.toNat) % UInt64.size]? := by
  rw [peek, UInt64.toNat_add, UInt64.toNat_ofNat', UInt64.size, Nat.mod_add_mod]

theorem atEnd_iff {cursor : Cursor} (inside : cursor.index ≤ cursor.tokens.length) :
    cursor.atEnd = true ↔ cursor.index = cursor.tokens.length := by
  rw [atEnd, decide_eq_true_iff]
  omega

namespace Session

variable {list : List Token} {session next : Session}

theorem start_over (list : List Token) : (start list).Over list :=
  ⟨rfl, Nat.zero_le _, nofun⟩

theorem step_eq_none_iff (session : Session) (operation : Operation) :
    session.step operation = none ↔
      ∃ number, operation = .rewind number ∧ session.marks.length ≤ number := by
  cases operation <;> simp [step]

theorem Over.step_bump (placed : session.Over list) :
    session.step .bump = some (.token list[session.cursor.index]?,
      { session with
        cursor := ⟨list, if session.cursor.index = list.length then session.cursor.index
          else session.cursor.index + 1⟩ }) := by
  obtain ⟨rfl, inside, _⟩ := placed
  rw [step, bump_eq inside]

/-- An operation leaves the session over its tokens and takes no mark away. -/
theorem Over.step (placed : session.Over list) {operation : Operation} {answer : Answer}
    (stepped : session.step operation = some (answer, next)) :
    next.Over list ∧ session.marks <+: next.marks := by
  cases operation with
  | peek | peekKind | checkAt =>
      cases stepped
      exact ⟨placed, List.prefix_rfl⟩
  | bump =>
      rw [placed.step_bump] at stepped
      cases stepped
      refine ⟨⟨rfl, ?_, placed.marks_le⟩, List.prefix_rfl⟩
      have inside := placed.index_le
      dsimp only
      split <;> omega
  | mark =>
      cases stepped
      refine ⟨⟨placed.tokens, placed.index_le, ?_⟩, List.prefix_append ..⟩
      intro mark member
      rcases List.mem_append.mp member with earlier | last
      · exact placed.marks_le mark earlier
      · rw [List.mem_singleton.mp last]
        exact placed.index_le
  | rewind number =>
      obtain ⟨mark, taken, same⟩ := Option.map_eq_some_iff.mp stepped
      cases same
      exact ⟨⟨placed.tokens, placed.marks_le mark (List.mem_of_getElem? taken), placed.marks_le⟩,
        List.prefix_rfl⟩

theorem Over.after (placed : session.Over list) {operations : List Operation}
    (ran : session.after operations = some next) :
    next.Over list ∧ session.marks <+: next.marks := by
  induction operations generalizing session with
  | nil =>
      cases ran
      exact ⟨placed, List.prefix_rfl⟩
  | cons operation rest ih =>
      obtain ⟨⟨answer, between⟩, stepped, ran⟩ := Option.bind_eq_some_iff.mp ran
      obtain ⟨stepOver, kept⟩ := placed.step stepped
      obtain ⟨nextOver, keptAfter⟩ := ih stepOver ran
      exact ⟨nextOver, kept.trans keptAfter⟩

/-- A mark that was taken anywhere leads back there, whatever has been done since. -/
theorem Over.step_rewind (placed : session.Over list) {operations : List Operation}
    {later : Session}
    (ran : Session.after ⟨session.cursor, session.marks ++ [session.cursor.mark]⟩ operations =
      some later) :
    later.step (.rewind session.marks.length) =
      some (.rewound, { later with cursor := session.cursor }) := by
  have stepped : session.step .mark =
      some (.marked session.marks.length,
        ⟨session.cursor, session.marks ++ [session.cursor.mark]⟩) := rfl
  obtain ⟨marked, _⟩ := placed.step stepped
  obtain ⟨laterOver, ⟨others, kept⟩⟩ := marked.after ran
  have found : later.marks[session.marks.length]? = some session.cursor.mark := by
    rw [← kept]
    simp
  rw [Session.step, found, Option.map_some, rewind, mark, laterOver.tokens, ← placed.tokens]

theorem Over.peek_around (placed : session.Over list) (counted : list.length ≤ UInt64.size)
    {distance : UInt64} (beyond : UInt64.size ≤ session.cursor.index + distance.toNat) :
    list[session.cursor.index + distance.toNat]? = none ∧
      ∃ place token, place + UInt64.size = session.cursor.index + distance.toNat ∧
        place < session.cursor.index ∧ list[place]? = some token ∧
        session.cursor.peek distance = some token := by
  have word : distance.toNat < UInt64.size := distance.toNat_lt_size
  have inside := placed.index_le
  refine ⟨List.getElem?_eq_none (by omega), ?_⟩
  obtain ⟨place, sum⟩ := Nat.exists_eq_add_of_le' beyond
  have below : place < list.length := by omega
  refine ⟨place, list[place], sum.symm, by omega, List.getElem?_eq_getElem below, ?_⟩
  rw [peek_eq, placed.tokens, sum, Nat.add_mod_right, Nat.mod_eq_of_lt (by omega),
    List.getElem?_eq_getElem below]

theorem Over.reliable (placed : session.Over list) : session.Reliable list where
  inside := placed.index_le
  atEnd_iff := by
    obtain ⟨rfl, inside, _⟩ := placed
    exact Cursor.atEnd_iff inside
  answers := session.step_eq_none_iff
  bump := placed.step_bump
  mark := rfl
  rewind := fun _ _ => placed.step_rewind
  peek := fun _ => rfl
  peekKind := fun _ => rfl
  checkAt := fun _ _ => rfl
  ahead := by
    intro distance inside
    rw [peek_eq, placed.tokens, Nat.mod_eq_of_lt inside]
  around := fun counted _ => placed.peek_around counted

end Session

end SearchQuery.Cursor
