import SearchQuery.Tree
import SearchQuery.Json
set_option autoImplicit false

/-!
# Renderings of trees

Three renderings: an outline with one node per line, an s-expression on a single line, and a JSON
value. The s-expression shows the text of a node in place of its label and children.
-/

namespace SearchQuery.Node

mutual
/-- The outline of a node at some depth, every line closed. -/
def outlineAt (depth : Nat) : Node → String
  | mk kind children literal =>
      Json.margin depth ++ kind.name ++ (literal.map (" " ++ ·)).getD "" ++ "\n" ++
        outlinesAt (depth + 1) children

/-- The outlines of nodes at some depth. -/
def outlinesAt (depth : Nat) : List Node → String
  | [] => ""
  | node :: rest => outlineAt depth node ++ outlinesAt depth rest
end

/-- One node per line, two blanks per level. -/
def outline (node : Node) : String :=
  node.outlineAt 0

mutual
def sexpr : Node → String
  | mk _ _ (some text) => text
  | mk kind [] none => kind.name
  | mk kind (first :: rest) none => "(" ++ kind.name ++ sexprs (first :: rest) ++ ")"

/-- The s-expressions of nodes, a blank before each. -/
def sexprs : List Node → String
  | [] => ""
  | node :: rest => " " ++ sexpr node ++ sexprs rest
end

mutual
/-- The data form of a node. Children and text are left out when there are none. -/
def toJson : Node → Json
  | mk kind children literal =>
      .object ([("kind", .string kind.name)] ++
        (if children.isEmpty then [] else [("children", .array (toJsons children))]) ++
        Json.member? "literal" (literal.map .string))

def toJsons : List Node → List Json
  | [] => []
  | node :: rest => toJson node :: toJsons rest
end

end SearchQuery.Node

namespace SearchQuery.Token

def toJson (token : Token) : Json :=
  .object [("kind", .string token.kind.label), ("text", .string token.text),
    ("start", .ofNat token.start), ("end", .ofNat token.stop)]

end SearchQuery.Token
