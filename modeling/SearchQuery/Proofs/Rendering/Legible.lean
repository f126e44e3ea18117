import SearchQuery.Proofs.Spacing.Text
import SearchQuery.Tree.Rendering
set_option autoImplicit false

/-!
# Legible trees

An s-expression shows texts as they are and no kinds of tokens. It can be read back for two reasons.
A text that is a token by itself is cut again before a blank and before a closing parenthesis, which
are all that an s-expression puts behind one. And the label of a node says which of its children are
tokens, so a text is never taken for a label.
-/

namespace SearchQuery

open Lexer

namespace Lexer

/-- What stands behind a token in an s-expression. -/
inductive Parted : List Char → Prop where
  | clear {after : List Char} : Clear after → Parted after
  | closing {rest : List Char} : Parted (')' :: rest)

namespace Parted

theorem stops {character : Char} {rest : List Char} (parted : Parted (character :: rest)) :
    continuesWord character = false := by
  cases parted with
  | clear clear => exact clear.wordGoesOn_eq_false
  | closing => rfl

theorem takeWhile_append {run after : List Char} (parted : Parted after)
    (spelled : run.all continuesWord = true) : (run ++ after).takeWhile continuesWord = run := by
  rw [List.takeWhile_append_of_pos (List.all_eq_true.mp spelled)]
  cases after with
  | nil => exact List.append_nil run
  | cons first rest => rw [List.takeWhile_cons_of_neg (by simp [parted.stops]), List.append_nil]

end Parted

theorem BeginsWord.append_closing {first : Char} {word rest : List Char}
    (begins : BeginsWord first word) : BeginsWord first (word ++ ')' :: rest) := by
  refine ⟨begins.noBracket, begins.noSymbol, ?single, fun wildcard => ?wild⟩
  case single =>
    intro more points
    obtain ⟨rfl, second⟩ := List.cons.inj points
    cases word with
    | nil => cases second
    | cons next word =>
        obtain ⟨rfl, _⟩ := List.cons.inj second
        exact begins.single word rfl
  case wild =>
    have goesOn := begins.wild wildcard
    cases word with
    | nil => cases goesOn
    | cons next word => exact goesOn

/-- A token that is all of a text is cut again before a closing parenthesis. -/
theorem cut_before_closing {first : Char} {characters : List Char} {kind : TokenKind}
    (taken : cut (first :: characters) = .ok ⟨kind, first :: characters, []⟩) (rest : List Char) :
    cut (first :: characters ++ ')' :: rest) = .ok ⟨kind, first :: characters, ')' :: rest⟩ := by
  cases cuts_of_cut taken with
  | phrase closed => exact (Cuts.phrase (closePhrase_again closed (')' :: rest))).cut_eq
  | uri closed => exact (Cuts.uri (closeUri_again closed (')' :: rest))).cut_eq
  | ampAmp | barBar | dotDot => rfl
  | star _ => exact (Cuts.star rfl).cut_eq
  | questionMark _ => exact (Cuts.questionMark rfl).cut_eq
  | symbol symbol _ =>
      refine (Cuts.symbol symbol fun doubling doubled => ?_).cut_eq
      obtain rfl := Option.some.inj doubled
      simp at doubling
  | word begins word =>
      unfold wordPiece at word
      split at word
      · next read =>
          cases word
          have again : cutWord (first :: characters ++ ')' :: rest) =
              .ok (first :: characters, ')' :: rest) :=
            cutWord_behind read (.delimiter (by decide)) nofun
          refine (Cuts.word begins.append_closing ?_).cut_eq
          rw [← List.cons_append, wordPiece, again]
      · cases word

end Lexer

namespace Token.Stands

variable {token other : Token} {after later : List Char}

theorem cut_parted (stands : token.Stands) (parted : Parted after) :
    Lexer.cut (token.text.toList ++ after) = .ok ⟨token.kind, token.text.toList, after⟩ := by
  cases parted with
  | clear clear => exact stands.cut after clear
  | closing =>
      obtain ⟨first, word, text, _⟩ := stands.begins
      have alone := stands.cut [] .atEnd
      rw [List.append_nil, text] at alone
      rw [text]
      exact cut_before_closing alone _

/-- The characters of a token and of what follows it tell where the token ends, and its kind. -/
theorem unique (stands : token.Stands) (otherStands : other.Stands) (parted : Parted after)
    (laterParted : Parted later)
    (same : token.text.toList ++ after = other.text.toList ++ later) :
    token.kind = other.kind ∧ token.text = other.text ∧ after = later := by
  have taken := stands.cut_parted parted
  rw [same, otherStands.cut_parted laterParted] at taken
  obtain ⟨kind, text, rest⟩ := Piece.mk.inj (Except.ok.inj taken)
  exact ⟨kind.symm, String.toList_inj.mp text.symm, rest.symm⟩

end Token.Stands

/-!
## Labels
-/

theorem Text.all_toList_ofList {check : Char → Bool} {characters : List Char}
    (all : characters.all check = true) : (String.ofList characters).toList.all check = true := by
  rwa [String.toList_ofList]

theorem Form.all_continuesWord_name (form : Form) : form.name.toList.all continuesWord = true := by
  cases form <;> exact Text.all_toList_ofList rfl

namespace NodeKind

def isToken : NodeKind → Bool
  | token _ => true
  | _ => false

/-- A label is spelled with characters that a word goes on with. -/
theorem all_continuesWord_name {kind : NodeKind} (label : kind.isToken = false) :
    kind.name.toList.all continuesWord = true := by
  cases kind with
  | form scope role =>
      cases scope with
      | query => exact role.all_continuesWord_name
      | fieldGroup =>
          rw [name, String.toList_append, List.all_append, role.all_continuesWord_name,
            Bool.and_true]
          split <;> exact Text.all_toList_ofList rfl
  | token kind => cases label
  | _ => exact Text.all_toList_ofList rfl

variable {kind other : NodeKind} {after later : List Char}

/-- A label alone is not printed as a label with children. -/
theorem name_ne_opening (label : kind.isToken = false) (parted : Parted after) {rest : List Char} :
    kind.name.toList ++ after ≠ '(' :: rest := by
  intro same
  have spelled := all_continuesWord_name label
  cases characters : kind.name.toList with
  | nil =>
      rw [characters, List.nil_append] at same
      subst same
      cases parted with
      | clear clear =>
          cases clear with
          | blank white => exact absurd white (by decide)
  | cons first word =>
      rw [characters] at same spelled
      obtain ⟨rfl, _⟩ := List.cons.inj same
      cases spelled

theorem name_unique (label : kind.isToken = false) (otherLabel : other.isToken = false)
    (parted : Parted after) (laterParted : Parted later)
    (same : kind.name.toList ++ after = other.name.toList ++ later) :
    kind = other ∧ after = later := by
  have run := parted.takeWhile_append (all_continuesWord_name label)
  rw [same, laterParted.takeWhile_append (all_continuesWord_name otherLabel)] at run
  obtain rfl := name_injective (String.toList_inj.mp run)
  exact ⟨rfl, List.append_cancel_left same⟩

end NodeKind

/-!
## Nodes
-/

/-- Whether the child at an index is a token. -/
def Form.holdsTokenAt : Form → Nat → Bool
  | term, index | exactTerm, index | exactPhrase, index | phrase, index | synonym, index =>
      index == 0
  | range, index => index == 1 || index == 2
  | proximity, index => index % 2 == 0
  | _, _ => false

def NodeKind.holdsTokenAt : NodeKind → Nat → Bool
  | form _ role, index => role.holdsTokenAt index
  | fieldRef, index | qualifierWord, index | nameSpace, index | boost, index | fuzzy, index
  | distance, index => index == 0
  | _, _ => false

namespace Node

/-- The children at some indices are tokens, and no others are. -/
def TokensAt (indices : Nat → Bool) (children : List Node) : Prop :=
  ∀ index child, children[index]? = some child → child.kind.isToken = indices index

/-- Leaves stand by themselves as tokens, and every label tells which children are leaves. -/
inductive Legible : Node → Prop where
  | leaf {token : Token} : token.Stands → Legible (.leaf token.kind token.text)
  | branch {kind : NodeKind} {children : List Node} :
      kind.isToken = false → TokensAt kind.holdsTokenAt children →
      (∀ child ∈ children, Legible child) → Legible (.branch kind children)

/-- No other node of the same sort is printed as this one, whatever follows them. -/
def Distinct (node : Node) : Prop :=
  ∀ other : Node, other.Legible → node.kind.isToken = other.kind.isToken →
    ∀ after later, Parted after → Parted later →
      node.sexpr.toList ++ after = other.sexpr.toList ++ later → node = other ∧ after = later

theorem tokensAt_nil (indices : Nat → Bool) : TokensAt indices [] := by
  intro index child found
  cases found

theorem tokensAt_cons_iff {indices : Nat → Bool} {first : Node} {rest : List Node} :
    TokensAt indices (first :: rest) ↔
      first.kind.isToken = indices 0 ∧ TokensAt (fun index => indices (index + 1)) rest := by
  constructor
  · intro tokens
    exact ⟨tokens 0 first rfl, fun index child found => tokens (index + 1) child found⟩
  · intro both index child found
    cases index with
    | zero =>
        obtain rfl := Option.some.inj found
        exact both.1
    | succ index => exact both.2 index child found

theorem toList_sexprs_cons (first : Node) (rest : List Node) :
    (sexprs (first :: rest)).toList = ' ' :: (first.sexpr.toList ++ (sexprs rest).toList) := by
  simp [sexprs]

theorem toList_sexpr_branch_cons (kind : NodeKind) (first : Node) (rest : List Node) :
    (branch kind (first :: rest)).sexpr.toList =
      '(' :: (kind.name.toList ++ ((sexprs (first :: rest)).toList ++ [')'])) := by
  simp [branch, sexpr]

theorem parted_sexprs (children : List Node) (rest : List Char) :
    Parted ((sexprs children).toList ++ ')' :: rest) := by
  cases children with
  | nil => exact .closing
  | cons first others =>
      rw [toList_sexprs_cons]
      exact .clear (.blank (by decide))

theorem children_unique {children others : List Node} {indices : Nat → Bool}
    (distinct : ∀ child ∈ children, child.Distinct) (legible : ∀ child ∈ others, child.Legible)
    (tokens : TokensAt indices children) (otherTokens : TokensAt indices others)
    {after later : List Char}
    (same : (sexprs children).toList ++ ')' :: after = (sexprs others).toList ++ ')' :: later) :
    children = others ∧ after = later := by
  induction children generalizing others indices with
  | nil =>
      cases others with
      | nil => exact ⟨rfl, (List.cons.inj same).2⟩
      | cons other others =>
          -- One list of children is at its end where the other goes on with a blank.
          rw [toList_sexprs_cons] at same
          cases (List.cons.inj same).1
  | cons child children ih =>
      cases others with
      | nil =>
          rw [toList_sexprs_cons] at same
          cases (List.cons.inj same).1
      | cons other others =>
          obtain ⟨childDistinct, childrenDistinct⟩ := List.forall_mem_cons.mp distinct
          obtain ⟨otherLegible, othersLegible⟩ := List.forall_mem_cons.mp legible
          obtain ⟨childSort, childrenTokens⟩ := tokensAt_cons_iff.mp tokens
          obtain ⟨otherSort, othersTokens⟩ := tokensAt_cons_iff.mp otherTokens
          rw [toList_sexprs_cons, toList_sexprs_cons] at same
          simp only [List.cons_append, List.append_assoc] at same
          obtain ⟨rfl, behind⟩ :=
            childDistinct other otherLegible (childSort.trans otherSort.symm) _ _
              (parted_sexprs children after) (parted_sexprs others later) (List.cons.inj same).2
          obtain ⟨rfl, rest⟩ := ih childrenDistinct othersLegible childrenTokens othersTokens behind
          exact ⟨rfl, rest⟩

/-- Where a legible node ends, and which one it is, can be told from its s-expression. -/
theorem Legible.distinct {node : Node} (legible : node.Legible) : node.Distinct := by
  induction legible with
  | @leaf token stands =>
      intro other otherLegible sorts after later parted laterParted same
      cases otherLegible with
      | branch label _ _ =>
          have clash : true = false := sorts.trans label
          cases clash
      | @leaf other otherStands =>
          obtain ⟨kind, text, rest⟩ := stands.unique otherStands parted laterParted same
          rw [kind, text]
          exact ⟨rfl, rest⟩
  | @branch kind children label tokens _ ih =>
      intro other otherLegible sorts after later parted laterParted same
      cases otherLegible with
      | leaf _ =>
          have clash : true = false := sorts.symm.trans label
          cases clash
      | @branch otherKind others otherLabel otherTokens othersLegible =>
          match children, others with
          | [], [] =>
              obtain ⟨rfl, rest⟩ := NodeKind.name_unique label otherLabel parted laterParted same
              exact ⟨rfl, rest⟩
          | [], first :: others =>
              rw [toList_sexpr_branch_cons] at same
              exact absurd same (NodeKind.name_ne_opening label parted)
          | first :: children, [] =>
              rw [toList_sexpr_branch_cons] at same
              exact absurd same.symm (NodeKind.name_ne_opening otherLabel laterParted)
          | first :: children, second :: others =>
              rw [toList_sexpr_branch_cons, toList_sexpr_branch_cons] at same
              simp only [List.cons_append, List.append_assoc, List.nil_append] at same
              obtain ⟨rfl, behind⟩ := NodeKind.name_unique label otherLabel
                (parted_sexprs _ after) (parted_sexprs _ later) (List.cons.inj same).2
              obtain ⟨childrenSame, rest⟩ :=
                children_unique ih othersLegible tokens otherTokens behind
              rw [childrenSame]
              exact ⟨rfl, rest⟩

end Node

end SearchQuery
