import SearchQuery.Grammar.Operands
import SearchQuery.Proofs.Tree.Shape
set_option autoImplicit false

/-!
# Spellings of trees

A tree of a query is spelled with operators only: `&&` between the operands of a conjunction and
`||` between the alternatives of a disjunction, parentheses around a junction that is operated on,
and brackets around a range. A spelling says nothing about places, so tokens that spell a tree may
stand anywhere.
-/

namespace SearchQuery

/-- The kind and the text of a token. -/
abbrev Lexeme := TokenKind × String

def Token.lexeme (token : Token) : Lexeme :=
  (token.kind, token.text)

/-- The label of a node and its spelling. -/
structure Spelled where
  kind : NodeKind
  lexemes : List Lexeme

namespace Spelled

/-- What an operand applies to, in parentheses if it is a junction. -/
def enclosed (body : Spelled) : List Lexeme :=
  match body.kind with
  | .form _ .disjunction | .form _ .conjunction =>
      (.lparen, "(") :: body.lexemes ++ [(.rparen, ")")]
  | _ => body.lexemes

/-- A word or phrase behind its field and a colon, and before the number that loosens it. -/
def qualified (word : Spelled) (qualifiers : List Spelled) : List Lexeme :=
  (qualifiers.filter (·.kind == .fieldRef)).flatMap (fun field => field.lexemes ++ [(.colon, ":")])
    ++ word.lexemes ++ (qualifiers.filter (·.kind == .fuzzy)).flatMap lexemes

def rangeOpening (lower : Spelled) : Lexeme :=
  if lower.kind = .inclusive then (.lsquare, "[") else (.lt, "<")

def rangeClosing (upper : Spelled) : Lexeme :=
  if upper.kind = .inclusive then (.rsquare, "]") else (.gt, ">")

end Spelled

namespace Form

/-- The sign before an operand. -/
def mark : Form → List Lexeme
  | negation => [(.exclamation, "!")]
  | mandatory => [(.plus, "+")]
  | optional => [(.bar, "|")]
  | exclude => [(.minus, "-")]
  | _ => []

def spell : Form → List Spelled → List Lexeme
  | disjunction, alternatives => [(.barBar, "||")].intercalate (alternatives.map Spelled.lexemes)
  | conjunction, operands => [(.ampAmp, "&&")].intercalate (operands.map Spelled.lexemes)
  | term, word :: rest | phrase, word :: rest => word.qualified rest
  | exactTerm, word :: rest | exactPhrase, word :: rest => (.equals, "=") :: word.qualified rest
  | synonym, word :: rest => (.tilde, "~") :: word.qualified rest
  | range, [lower, low, high, upper] =>
      lower.rangeOpening :: low.lexemes ++ (.upTo, "TO") :: high.lexemes ++ [upper.rangeClosing]
  | proximity, parts => parts.flatMap Spelled.lexemes
  | role, body :: boost => role.mark ++ body.enclosed ++ boost.flatMap Spelled.lexemes
  | _, [] => []

end Form

/-- The spelling of a node with a label, from what its children are spelled with. -/
def NodeKind.spell : NodeKind → List Spelled → List Lexeme
  | form _ role, children => role.spell children
  | fieldGroup, [field, body] =>
      field.lexemes ++ (.colon, ":") :: (.lparen, "(") :: body.lexemes ++ [(.rparen, ")")]
  | template, [field] => (.percent, "%") :: field.lexemes
  | template, fields =>
      (.percent, "%") :: (.lparen, "(") ::
        [(.comma, ",")].intercalate (fields.map Spelled.lexemes) ++ [(.rparen, ")")]
  | fieldRef, [name, qualifier] => qualifier.lexemes ++ name.lexemes
  | qualifierWord, [word] => word.lexemes ++ [(.colon, ":")]
  | boost, [number] => (.caret, "^") :: number.lexemes
  | fuzzy, [number] => (.tilde, "~") :: number.lexemes
  | distance, [] => [(.star, "*")]
  | distance, [limit] => (.star, "*") :: (.lparen, "(") :: limit.lexemes ++ [(.rparen, ")")]
  | _, children => children.flatMap Spelled.lexemes

namespace Node

mutual
/-- The kinds and texts of the tokens that a tree is spelled with. -/
def spelling : Node → List Lexeme
  | mk (.token kind) _ literal => [(kind, literal.getD "")]
  | mk kind children _ => kind.spell (spelled children)

def spelled : List Node → List Spelled
  | [] => []
  | node :: rest => ⟨node.kind, node.spelling⟩ :: spelled rest
end

mutual
/-- The greatest number of operands on a way from the root to a leaf. -/
def nesting : Node → Nat
  | mk (.form _ role) children _ =>
      if role.isSigned then nestingAll children + 1 else nestingAll children
  | mk _ children _ => nestingAll children

def nestingAll : List Node → Nat
  | [] => 0
  | node :: rest => max node.nesting (nestingAll rest)
end

/-- Whether the spelling of a test begins with the word `NOT`: as its word, with no field in front,
or as the first of several words near each other. -/
def beginsWithNot : Node → Bool
  | mk (.form _ .term) (word :: qualifiers) _ =>
      word.kind == .token .not && qualifiers.all fun qualifier => qualifier.kind != .fieldRef
  | mk (.form _ .proximity) (word :: _) _ => word.kind == .token .not
  | _ => false

/-- A conjunction stands outside a disjunction only where adjacent operands are conjoined. -/
def isGrouped (settings : Settings) (node : Node) : Bool :=
  node.children.all fun child =>
    match child.kind with
    | .form scope .conjunction =>
        node.kind == .form scope .disjunction || settings.conjoins scope
    | _ => true

/-- An operand without a sign does not begin with the word `NOT`. -/
def isUnsigned (node : Node) : Bool :=
  match node.kind with
  | .form _ .default => node.children.all fun child => !child.beginsWithNot
  | _ => true

/-- Whether a node may stand in the tree of a query. -/
def isSpellable (settings : Settings) (node : Node) : Bool :=
  node.isShaped settings && node.isGrouped settings && node.isUnsigned

/-- Every node of a tree may stand in the tree of a query. -/
abbrev Spellable (settings : Settings) : Node → Prop :=
  Everywhere fun node => node.isSpellable settings = true

/-- The trees that a query may have. -/
structure IsQuery (settings : Settings) (tree : Node) : Prop where
  root : tree.kind.isJunction .query = true
  grouped : tree.kind = .form .query .conjunction → settings.conjoins .query = true
  spellable : tree.Spellable settings
  nesting_le : tree.nesting ≤ Grammar.maxLevels

namespace Spellable

variable {settings : Settings} {node child : Node}

theorem shaped (spellable : node.Spellable settings) : node.Shaped settings := by
  refine spellable.imp fun node here => ?_
  simp only [isSpellable, Bool.and_eq_true] at here
  exact here.1.1

theorem conjoins (spellable : node.Spellable settings) (member : child ∈ node.children)
    {scope : Scope} (kind : child.kind = .form scope .conjunction)
    (alone : node.kind ≠ .form scope .disjunction) : settings.conjoins scope = true := by
  have here := spellable.here
  simp only [isSpellable, isGrouped, Bool.and_eq_true, List.all_eq_true] at here
  have grouped := here.1.2 child member
  simpa [kind, alone] using grouped

theorem beginsWithNot (spellable : node.Spellable settings) {scope : Scope}
    (kind : node.kind = .form scope .default) (member : child ∈ node.children) :
    child.beginsWithNot = false := by
  have here := spellable.here
  simp only [isSpellable, isUnsigned, kind, Bool.and_eq_true, List.all_eq_true,
    Bool.not_eq_true'] at here
  exact here.2 child member

end Spellable

theorem spelled_eq_map (nodes : List Node) :
    spelled nodes = nodes.map fun node => ⟨node.kind, node.spelling⟩ := by
  induction nodes with
  | nil => rfl
  | cons node rest ih => rw [spelled, ih, List.map_cons]

theorem spelling_branch {kind : NodeKind} (children : List Node)
    (untexted : ∀ token, kind ≠ .token token) :
    (branch kind children).spelling = kind.spell (spelled children) := by
  rw [branch, spelling]
  exact untexted

theorem nesting_le_of_mem {nodes : List Node} {node : Node} (member : node ∈ nodes) :
    node.nesting ≤ nestingAll nodes := by
  induction nodes with
  | nil => cases member
  | cons first rest ih =>
      rw [nestingAll]
      rcases List.mem_cons.mp member with rfl | member
      · exact Nat.le_max_left _ _
      · exact Nat.le_trans (ih member) (Nat.le_max_right _ _)

end Node

end SearchQuery
