import SearchQuery.Grammar.Test
import SearchQuery.Proofs.Accepted.Tests
set_option autoImplicit false

/-!
# Written fields and suffixes are accepted

The converse of what `Accepted.Tests` says of the parts of tests: a written form is read as what it
is written for, and no more than its own tokens is taken. Each statement names what must not follow,
because the grammar would go on there.
-/

namespace SearchQuery

/-- The leaf of a token of one kind. -/
def Token.leaf (token : Token) {kind : TokenKind} (same : token.kind = kind) : Leaf [kind] :=
  ⟨token.kind, token.text, by simp [same]⟩

theorem Token.leaf_isOf (token : Token) {kind : TokenKind} (same : token.kind = kind) :
    (token.leaf same).IsOf token :=
  ⟨rfl, rfl⟩

theorem Reading.isOk_eq_false {α : Type} {reading : Reading α} {tokens : List Token}
    (unread : ∀ value rest, reading.run tokens ≠ .ok (value, rest)) :
    (reading.run tokens).isOk = false := by
  cases run : reading.run tokens with
  | ok read => exact absurd run (unread read.1 read.2)
  | error failure => rfl

namespace Grammar

open Reading

theorem numericSuffixAhead_eq_false {tokens : List Token} (noTilde : nextIs .tilde tokens = false) :
    numericSuffixAhead tokens = false := by
  cases ahead : numericSuffixAhead tokens with
  | false => rfl
  | true =>
      obtain ⟨tilde, rest, kind, rfl⟩ := numericSuffixAhead_eq_true ahead
      simp [nextIs, kind] at noTilde

theorem run_skip_of_next {kind : TokenKind} {token : Token} {rest : List Token}
    (same : token.kind = kind) : (skip kind).run (token :: rest) = .ok ((), rest) := by
  rw [skip, run_look, if_pos (by simp [nextIs, same])]
  rfl

theorem run_skip_of_other {kind : TokenKind} {tokens : List Token}
    (other : nextIs kind tokens = false) : (skip kind).run tokens = .ok ((), tokens) := by
  rw [skip, run_look, other]
  rfl

end Grammar

open Reading Grammar

/-!
## Fields
-/

namespace FieldReference

/-- Whether a field is read by asking for a qualifying word, or by asking for none. A namespace is
found either way. -/
def isReadAs (field : FieldReference) (qualified : Bool) : Bool :=
  match field.qualifier with
  | none => !qualified
  | some (.word _) => qualified
  | some (.nameSpace _) => true

theorem Bare.nextIs_atSign {field : FieldReference} {tokens : List Token}
    (written : field.Bare tokens) (rest : List Token) :
    nextIs .atSign (tokens ++ rest) = false := by
  cases written with
  | plain nameSame => simp [nextIs, nameSame.kind_eq]
  | word wordSame _ _ => simp [nextIs, wordSame.kind_eq]
  | nameSpace uriSame _ => simp [nextIs, uriSame.kind_eq]

theorem Bare.run_fieldReference {field : FieldReference} {tokens : List Token}
    (written : field.Bare tokens) {qualified : Bool} (form : field.isReadAs qualified = true)
    (rest : List Token) : (fieldReference qualified).run (tokens ++ rest) = .ok (field, rest) := by
  simp only [fieldReference, run_within_eq_ok_iff, run_bind_eq_ok_iff, run_look]
  refine ⟨(), tokens ++ rest, run_skip_of_other (written.nextIs_atSign rest), ?_⟩
  cases written with
  | plain nameSame =>
      rw [if_neg (by simp [nextIs, nameSame.kind_eq]), if_neg (by simpa [isReadAs] using form)]
      simp only [run_bind_eq_ok_iff, run_take_eq_ok_iff, run_pure_eq_ok_iff]
      exact ⟨_, _, ⟨_, nameSame, rfl⟩, rfl, rfl⟩
  | word wordSame colon nameSame =>
      rw [if_neg (by simp [nextIs, wordSame.kind_eq]), if_pos (by simpa [isReadAs] using form)]
      simp only [run_bind_eq_ok_iff, run_take_eq_ok_iff, run_pure_eq_ok_iff]
      exact ⟨_, _, ⟨_, wordSame, rfl⟩, _, _, ⟨_, Token.leaf_isOf _ colon, rfl⟩, _, _,
        ⟨_, nameSame, rfl⟩, rfl, rfl⟩
  | nameSpace uriSame nameSame =>
      rw [if_pos (by simp [nextIs, uriSame.kind_eq])]
      simp only [run_bind_eq_ok_iff, run_take_eq_ok_iff, run_pure_eq_ok_iff]
      exact ⟨_, _, ⟨_, uriSame, rfl⟩, _, _, ⟨_, nameSame, rfl⟩, rfl, rfl⟩

theorem Written.run_fieldReference {field : FieldReference} {tokens : List Token}
    (written : field.Written tokens) {qualified : Bool} (form : field.isReadAs qualified = true)
    (rest : List Token) : (fieldReference qualified).run (tokens ++ rest) = .ok (field, rest) := by
  cases written with
  | bare written => exact written.run_fieldReference form rest
  | marked mark written =>
      have unmarked := written.run_fieldReference form rest
      simp only [fieldReference, run_within_eq_ok_iff, run_bind_eq_ok_iff] at unmarked ⊢
      obtain ⟨_, _, skipped, named⟩ := unmarked
      rw [run_skip_of_other (written.nextIs_atSign rest)] at skipped
      cases skipped
      exact ⟨(), _, run_skip_of_next mark, named⟩

theorem Qualifying.run_fieldQualifier {field : FieldReference} {tokens : List Token}
    (qualifying : field.Qualifying tokens) {qualified : Bool}
    (form : field.isReadAs qualified = true) (rest : List Token) :
    (fieldQualifier qualified).run (tokens ++ rest) = .ok (field, rest) := by
  cases qualifying with
  | mk written colon =>
      simp only [fieldQualifier, run_bind_eq_ok_iff, run_take_eq_ok_iff, run_pure_eq_ok_iff]
      refine ⟨field, _, ?_, _, _, ⟨_, Token.leaf_isOf _ colon, rfl⟩, rfl, rfl⟩
      rw [List.append_assoc]
      exact written.run_fieldReference form _

/-- With no qualifying word in front of it, a name is read as one that qualifies only where a name
follows it. -/
theorem Written.exists_of_qualified {field other : FieldReference}
    {tokens rest after : List Token} (written : field.Written tokens)
    (unqualified : field.isReadAs true = false)
    (accepted : (fieldReference true).run (tokens ++ rest) = .ok (other, after)) :
    ∃ colon name, colon.kind = .colon ∧ name.kind = .id ∧ rest = colon :: name :: after := by
  have bare {tokens : List Token} (written : field.Bare tokens)
      (accepted : (fieldReference true).run (tokens ++ rest) = .ok (other, after)) :
      ∃ colon name, colon.kind = .colon ∧ name.kind = .id ∧ rest = colon :: name :: after := by
    simp only [fieldReference, run_within_eq_ok_iff, run_bind_eq_ok_iff, run_look] at accepted
    obtain ⟨_, _, skipped, named⟩ := accepted
    rw [run_skip_of_other (written.nextIs_atSign rest)] at skipped
    cases skipped
    cases written with
    | plain nameSame =>
        rw [if_neg (by simp [nextIs, nameSame.kind_eq]), if_pos trivial] at named
        simp only [run_bind_eq_ok_iff, run_take_eq_ok_iff, run_pure_eq_ok_iff] at named
        obtain ⟨_, _, ⟨_, _, split⟩, _, _, ⟨colon, colonSame, rfl⟩, _, _, ⟨name, nameSame, rfl⟩, _,
          rfl⟩ := named
        cases split
        exact ⟨colon, name, colonSame.kind_eq, nameSame.kind_eq, rfl⟩
    | word _ _ _ => simp [isReadAs] at unqualified
    | nameSpace _ _ => simp [isReadAs] at unqualified
  cases written with
  | bare written => exact bare written accepted
  | marked mark written =>
      refine bare written ?_
      simp only [fieldReference, run_within_eq_ok_iff, run_bind_eq_ok_iff] at accepted ⊢
      obtain ⟨_, _, skipped, named⟩ := accepted
      rw [List.cons_append, run_skip_of_next mark] at skipped
      cases skipped
      exact ⟨(), _, run_skip_of_other (written.nextIs_atSign rest), named⟩

end FieldReference

/-- Whether a name and a colon come next, which a name and a colon before them would qualify. -/
def Grammar.nameAhead : List Token → Bool
  | name :: colon :: _ => name.kind == .id && colon.kind == .colon
  | _ => false

theorem Grammar.nameAhead_eq_false {token : Token} {rest : List Token}
    (noColon : nextIs .colon rest = false) : nameAhead (token :: rest) = false := by
  cases rest with
  | nil => rfl
  | cons next rest =>
      rw [nextIs] at noColon
      rw [nameAhead, noColon, Bool.and_false]

/-- The reading with a qualifying word is preferred. -/
theorem Grammar.run_fieldQualifierForm (tokens : List Token) :
    fieldQualifierForm.run tokens =
      .ok (if ((fieldQualifier true).run tokens).isOk then some true
        else if ((fieldQualifier false).run tokens).isOk then some false
        else none, tokens) := by
  simp only [fieldQualifierForm, run_bind, run_wouldSucceed]
  cases ((fieldQualifier true).run tokens).isOk with
  | true => rfl
  | false =>
      rw [if_neg (by simp), run_bind, run_wouldSucceed]
      cases ((fieldQualifier false).run tokens).isOk <;> rfl

namespace FieldReference

theorem Written.run_anyFieldReference {field : FieldReference} {tokens : List Token}
    (written : field.Written tokens) {rest : List Token} (noColon : nextIs .colon rest = false) :
    anyFieldReference.run (tokens ++ rest) = .ok (field, rest) := by
  simp only [anyFieldReference, run_bind_eq_ok_iff, run_wouldSucceed_eq_ok_iff]
  cases form : field.isReadAs true with
  | true =>
      have read := written.run_fieldReference form rest
      exact ⟨true, _, ⟨by rw [read]; rfl, rfl⟩, read⟩
  | false =>
      refine ⟨false, _, ⟨?_, rfl⟩, written.run_fieldReference ?_ rest⟩
      · refine isOk_eq_false fun other after accepted => ?_
        obtain ⟨colon, name, kind, _, rfl⟩ := written.exists_of_qualified form accepted
        simp [nextIs, kind] at noColon
      · obtain ⟨qualifier, name⟩ := field
        rcases qualifier with _ | _ | _ <;> simp_all [isReadAs]

/-- A field and its colon are found, and some reading takes them. -/
theorem Qualifying.exists_form {field : FieldReference} {tokens : List Token}
    (qualifying : field.Qualifying tokens) {rest : List Token} (unnamed : nameAhead rest = false) :
    ∃ qualified, field.isReadAs qualified = true ∧
      fieldQualifierForm.run (tokens ++ rest) = .ok (some qualified, tokens ++ rest) := by
  cases form : field.isReadAs true with
  | true =>
      refine ⟨true, form, ?_⟩
      rw [run_fieldQualifierForm, qualifying.run_fieldQualifier form rest]
      rfl
  | false =>
      have plain : field.isReadAs false = true := by
        obtain ⟨qualifier, name⟩ := field
        rcases qualifier with _ | _ | _ <;> simp_all [isReadAs]
      have unread : ((fieldQualifier true).run (tokens ++ rest)).isOk = false := by
        refine isOk_eq_false fun other after accepted => ?_
        simp only [fieldQualifier, run_bind_eq_ok_iff, run_take_eq_ok_iff] at accepted
        obtain ⟨_, _, named, _, _, ⟨second, secondSame, rfl⟩, _⟩ := accepted
        cases qualifying with
        | mk written _ =>
            rw [List.append_assoc] at named
            obtain ⟨_, name, _, kind, split⟩ := written.exists_of_qualified form named
            obtain ⟨_, rfl⟩ := List.cons.inj split
            simp [nameAhead, kind, secondSame.kind_eq] at unnamed
      refine ⟨false, plain, ?_⟩
      rw [run_fieldQualifierForm, unread, qualifying.run_fieldQualifier plain rest]
      rfl

/-- What a field begins with. -/
theorem Qualifying.exists_cons {field : FieldReference} {tokens : List Token}
    (qualifying : field.Qualifying tokens) :
    ∃ first second rest, tokens = first :: second :: rest ∧
      first.kind ∈ [TokenKind.id, .atSign, .uri] ∧
      (first.kind = .id → second.kind = .colon) := by
  cases qualifying with
  | mk written colon =>
      cases written with
      | bare written =>
          cases written with
          | plain nameSame => exact ⟨_, _, _, rfl, by simp [nameSame.kind_eq], fun _ => colon⟩
          | word wordSame colon _ =>
              exact ⟨_, _, _, rfl, by simp [wordSame.kind_eq], fun _ => colon⟩
          | nameSpace uriSame _ =>
              exact ⟨_, _, _, rfl, by simp [uriSame.kind_eq], by simp [uriSame.kind_eq]⟩
      | marked mark written =>
          cases written with
          | plain _ | word _ _ _ | nameSpace _ _ =>
              exact ⟨_, _, _, rfl, by simp [mark], by simp [mark]⟩

end FieldReference

/-- No field is found where neither a mark nor a namespace is next, nor a name and a colon. -/
theorem Grammar.run_fieldQualifierForm_of_absent {tokens : List Token}
    (unmarked : nextIn [.atSign, .uri] tokens = false) (unnamed : nameAhead tokens = false) :
    fieldQualifierForm.run tokens = .ok (none, tokens) := by
  have unread (qualified : Bool) : ((fieldQualifier qualified).run tokens).isOk = false := by
    refine isOk_eq_false fun field after accepted => ?_
    obtain ⟨taken, rfl, qualifying⟩ := fieldQualifier_written accepted
    obtain ⟨first, second, rest, rfl, kind, colon⟩ := qualifying.exists_cons
    simp only [List.mem_cons, List.not_mem_nil, or_false] at kind
    rcases kind with kind | kind | kind
    · simp [nameAhead, kind, colon kind] at unnamed
    · simp [nextIn, kind] at unmarked
    · simp [nextIn, kind] at unmarked
  rw [run_fieldQualifierForm, unread true, unread false]
  rfl

theorem QualifierWritten.run_optionalFieldQualifier {scope : Scope} {field : Option FieldReference}
    {tokens rest : List Token} (written : QualifierWritten scope field tokens)
    (unmarked : nextIn [.atSign, .uri] rest = false) (unnamed : nameAhead rest = false) :
    (optionalFieldQualifier scope).run (tokens ++ rest) = .ok (field, rest) := by
  cases written with
  | absent =>
      cases scope with
      | fieldGroup => rfl
      | query =>
          simp only [optionalFieldQualifier, run_bind_eq_ok_iff]
          exact ⟨none, rest, run_fieldQualifierForm_of_absent unmarked unnamed, rfl⟩
  | present qualifying =>
      obtain ⟨qualified, form, found⟩ := qualifying.exists_form unnamed
      simp only [optionalFieldQualifier, run_bind_eq_ok_iff]
      refine ⟨some qualified, _, found, ?_⟩
      simp only [run_bind_eq_ok_iff, run_pure_eq_ok_iff]
      exact ⟨_, _, qualifying.run_fieldQualifier form rest, rfl, rfl⟩

/-!
## Suffixes
-/

namespace SuffixWritten

theorem stackedSuffixAhead_eq_false {first number : Token} {rest : List Token}
    (noTilde : nextIs .tilde rest = false) :
    stackedSuffixAhead (first :: number :: rest) = false := by
  cases rest with
  | nil => rfl
  | cons next rest =>
      rw [stackedSuffixAhead, numericSuffixAhead_eq_false noTilde, Bool.and_false]

/-- A word or phrase is loosened no further than by its suffix. -/
structure Unloosened (suffix rest : List Token) : Prop where
  absent : suffix = [] → numericSuffixAhead rest = false
  unstacked : ∀ tilde number, suffix = [tilde, number] →
    stackedSuffixAhead (tilde :: number :: rest) = false

theorem unloosened_of_noTilde {suffix rest : List Token} (noTilde : nextIs .tilde rest = false) :
    Unloosened suffix rest := by
  constructor
  · intro _
    exact numericSuffixAhead_eq_false noTilde
  · intro tilde number _
    exact stackedSuffixAhead_eq_false noTilde

/-- The number after `~` is taken, whatever numbers are asked for there. -/
theorem run_loosening_iff {rule : Rule} {kinds : List TokenKind} {number : Reading (Leaf kinds)}
    (numeric : ∀ kind ∈ kinds, kind.isNumber = true)
    (takes : ∀ {leaf : Leaf kinds} {token : Token} {rest : List Token}, leaf.IsOf token →
      number.run (token :: rest) = .ok (leaf, rest))
    {read : Option (Leaf kinds)} {suffix rest : List Token}
    (written : SuffixWritten .tilde read suffix) :
    (look fun tokens =>
      if numericSuffixAhead tokens then
        within rule do
          advance
          let number ← number
          if stackedSuffixAhead tokens then
            fail .noViableAlternative []
          else
            return some number
      else
        return none).run (suffix ++ rest) = .ok (read, rest) ↔ Unloosened suffix rest := by
  rw [run_look]
  cases written with
  | absent =>
      rw [List.nil_append]
      constructor
      · intro accepted
        refine ⟨fun _ => ?_, fun _ _ split => nomatch split⟩
        cases ahead : numericSuffixAhead rest with
        | false => rfl
        | true =>
            rw [if_pos ahead] at accepted
            simp only [run_within_eq_ok_iff, run_bind_eq_ok_iff] at accepted
            obtain ⟨_, _, _, _, _, _, decided⟩ := accepted
            split at decided
            · exact absurd decided run_fail_ne_ok
            · exact nomatch (run_pure_eq_ok_iff.mp decided).1
      · intro unloosened
        rw [if_neg (by simp [unloosened.absent rfl])]
        rfl
  | @present _ sign token tilde same =>
      have ahead : numericSuffixAhead ([sign, token] ++ rest) = true := by
        simp [numericSuffixAhead, tilde, numeric _ same.kind_mem]
      rw [if_pos ahead]
      simp only [run_within_eq_ok_iff, run_bind_eq_ok_iff, run_advance_eq_ok_iff]
      constructor
      · rintro ⟨_, _, ⟨_, split⟩, _, _, taken, decided⟩
        cases split
        rw [List.append_eq, List.singleton_append, takes same] at taken
        cases taken
        refine ⟨nofun, fun _ _ split => ?_⟩
        cases split
        split at decided
        · exact absurd decided run_fail_ne_ok
        · next unstacked => simpa using unstacked
      · intro unloosened
        refine ⟨(), _, ⟨sign, rfl⟩, _, _, takes same, ?_⟩
        rw [if_neg (by simpa using unloosened.unstacked sign token rfl)]
        rfl

theorem run_fuzziness_iff {read : Option Number} {suffix rest : List Token}
    (written : SuffixWritten .tilde read suffix) :
    fuzziness.run (suffix ++ rest) = .ok (read, rest) ↔ Unloosened suffix rest :=
  written.run_loosening_iff (by decide) fun same => run_takeOneOf_eq_ok_iff.mpr ⟨_, same, rfl⟩

theorem run_slop_iff {read : Option WholeNumber} {suffix rest : List Token}
    (written : SuffixWritten .tilde read suffix) :
    slop.run (suffix ++ rest) = .ok (read, rest) ↔ Unloosened suffix rest :=
  written.run_loosening_iff (by decide) fun same => run_take_eq_ok_iff.mpr ⟨_, same, rfl⟩

theorem run_fuzziness {read : Option Number} {suffix rest : List Token}
    (written : SuffixWritten .tilde read suffix) (noTilde : nextIs .tilde rest = false) :
    fuzziness.run (suffix ++ rest) = .ok (read, rest) :=
  written.run_fuzziness_iff.mpr (unloosened_of_noTilde noTilde)

theorem run_slop {read : Option WholeNumber} {suffix rest : List Token}
    (written : SuffixWritten .tilde read suffix) (noTilde : nextIs .tilde rest = false) :
    slop.run (suffix ++ rest) = .ok (read, rest) :=
  written.run_slop_iff.mpr (unloosened_of_noTilde noTilde)

theorem run_boost {read : Option Number} {suffix rest : List Token}
    (written : SuffixWritten .caret read suffix) (noCaret : nextIs .caret rest = false) :
    boost.run (suffix ++ rest) = .ok (read, rest) := by
  rw [boost, run_look]
  cases written with
  | absent => rw [if_neg (by simpa using noCaret)]; rfl
  | present caret same =>
      rw [if_pos (by simpa [nextIs] using caret)]
      simp only [run_within_eq_ok_iff, run_bind_eq_ok_iff, run_advance_eq_ok_iff,
        run_takeOneOf_eq_ok_iff, run_pure_eq_ok_iff]
      exact ⟨(), _, ⟨_, rfl⟩, _, _, ⟨_, same, rfl⟩, rfl, rfl⟩

/-- A suffix hides nothing that would matter after a word: what comes next is its mark, or what
came after it. -/
theorem nextIs_append {mark kind : TokenKind} {kinds : List TokenKind}
    {read : Option (Leaf kinds)} {suffix rest : List Token}
    (written : SuffixWritten mark read suffix) (other : mark ≠ kind) (absent : nextIs kind rest = false) :
    nextIs kind (suffix ++ rest) = false := by
  cases written with
  | absent => exact absent
  | present same _ => simpa [nextIs, same] using other

end SuffixWritten

end SearchQuery
