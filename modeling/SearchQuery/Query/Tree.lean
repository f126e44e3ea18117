import SearchQuery.Query
import SearchQuery.Settings
import SearchQuery.Tree
set_option autoImplicit false

/-!
# From operands to trees

An *arrangement* says where a list of operands breaks into conjunctions and whether a single
conjunction stands alone. It is all that the connective settings decide. Everything else about the
tree of a query is read off its operands.
-/

namespace SearchQuery

/-- Where operands break into conjunctions, and whether a lone conjunction needs no disjunction
around it. -/
structure Arrangement where
  breaksWhereAdjacent : Bool
  bareWhenSingle : Bool
deriving DecidableEq, Repr

namespace Arrangement

def conjoining : Arrangement := ⟨false, true⟩

def disjoining : Arrangement := ⟨true, false⟩

/-- Adjacent operands are conjoined, and there is a disjunction always. -/
def alternatives : Arrangement := ⟨false, false⟩

/-- Whether a link starts another conjunction. -/
def breaksAt (arrangement : Arrangement) : Link → Bool
  | .or => true
  | .adjacent => arrangement.breaksWhereAdjacent
  | .opening | .and => false

/-- The runs of items between breaks. The link of the first item breaks nothing. -/
def runs {α : Type} (arrangement : Arrangement) : List (Link × α) → List (List α)
  | [] => []
  | [(_, item)] => [[item]]
  | (_, item) :: (link, next) :: rest =>
      match runs arrangement ((link, next) :: rest) with
      | [] => [[item]]
      | run :: others =>
          if arrangement.breaksAt link then [item] :: run :: others else (item :: run) :: others

/-- Breaking items into runs keeps every item and their order. -/
theorem flatten_runs {α : Type} (arrangement : Arrangement) (items : List (Link × α)) :
    (arrangement.runs items).flatten = items.map Prod.snd := by
  fun_induction runs arrangement items with
  | case1 => rfl
  | case2 => rfl
  | case3 _ item link next rest empty ih => simp_all
  | case4 _ item link next rest run others found _ ih => simp_all
  | case5 _ item link next rest run others found _ ih => simp_all

/-- The tree of operands whose trees are given. -/
def junction (arrangement : Arrangement) (scope : Scope) (items : List (Link × Node)) : Node :=
  let conjunctions := (arrangement.runs items).map (Node.branch (.form scope .conjunction))
  match arrangement.bareWhenSingle, conjunctions with
  | true, [conjunction] => conjunction
  | _, _ => Node.branch (.form scope .disjunction) conjunctions

/-- The arrangement in a scope. The dialect of CMIS has one for the query and no field groups. -/
def ofSettings (settings : Settings) : Scope → Arrangement
  | .query =>
      match settings.mode with
      | .cmis => alternatives
      | .defaultConjunction => conjoining
      | .defaultDisjunction => disjoining
  | .fieldGroup => if settings.fieldConjunction then conjoining else disjoining

end Arrangement

def Leaf.toNode {kinds : List TokenKind} (leaf : Leaf kinds) : Node :=
  Node.leaf leaf.kind leaf.text

def Qualifier.toNode : Qualifier → Node
  | word name => Node.branch .qualifierWord [name.toNode]
  | nameSpace uri => Node.branch .nameSpace [uri.toNode]

/-- The node of a field reference: the name, then its qualifier. -/
def FieldReference.toNode (field : FieldReference) : Node :=
  Node.branch .fieldRef (field.name.toNode :: field.qualifier.toList.map Qualifier.toNode)

def Closure.toNode : Closure → Node
  | inclusive => Node.marker .inclusive
  | exclusive => Node.marker .exclusive

namespace Test

/-- The children after the word or phrase of a test: its field, then the number that loosens it. -/
def qualifiers {kinds : List TokenKind} (field : Option FieldReference)
    (loosening : Option (Leaf kinds)) : List Node :=
  field.toList.map FieldReference.toNode ++
    loosening.toList.map fun number => Node.branch .fuzzy [number.toNode]

/-- The nodes of a step of a proximity: how far, then the next word. -/
def stepNodes (step : Option WholeNumber × PlainWord) : List Node :=
  [Node.branch .distance (step.1.toList.map Leaf.toNode), step.2.toNode]

def toNode (scope : Scope) : Test → Node
  | term word field fuzziness =>
      Node.branch (.form scope .term) (word.toNode :: qualifiers field fuzziness)
  | exactTerm word field fuzziness =>
      Node.branch (.form scope .exactTerm) (word.toNode :: qualifiers field fuzziness)
  | synonym word field fuzziness =>
      Node.branch (.form scope .synonym) (word.toNode :: qualifiers field fuzziness)
  | phrase text field slop =>
      Node.branch (.form scope .phrase) (text.toNode :: qualifiers field slop)
  | exactPhrase text field slop =>
      Node.branch (.form scope .exactPhrase) (text.toNode :: qualifiers field slop)
  | range lower low high upper =>
      Node.branch (.form scope .range) [lower.toNode, low.toNode, high.toNode, upper.toNode]
  | proximity first steps =>
      Node.branch (.form scope .proximity) (first.toNode :: steps.flatMap stepNodes)
  | template fields => Node.branch .template (fields.map FieldReference.toNode)

end Test

def Sign.form : Sign → Form
  | none => .default
  | negation => .negation
  | mandatory => .mandatory
  | optional => .optional
  | exclude => .exclude

mutual
def Operand.toNode (arrangement : Scope → Arrangement) (scope : Scope) : Operand → Node
  | .mk _ sign body boost =>
      Node.branch (.form scope sign.form)
        (Body.toNode arrangement scope body ::
          boost.toList.map fun factor => Node.branch .boost [factor.toNode])

/-- The node of what an operand applies to. Parentheses leave no node of their own. -/
def Body.toNode (arrangement : Scope → Arrangement) (scope : Scope) : Body → Node
  | .test test => test.toNode scope
  | .group operands =>
      (arrangement scope).junction scope (Operand.linkedNodes arrangement scope operands)
  | .fieldGroup field operands =>
      Node.branch .fieldGroup
        [field.toNode,
          (arrangement .fieldGroup).junction .fieldGroup
            (Operand.linkedNodes arrangement .fieldGroup operands)]

def Operand.linkedNodes (arrangement : Scope → Arrangement) (scope : Scope) :
    List Operand → List (Link × Node)
  | [] => []
  | .mk link sign body boost :: rest =>
      (link, Operand.toNode arrangement scope (.mk link sign body boost)) ::
        Operand.linkedNodes arrangement scope rest
end

def queryTree (settings : Settings) (operands : List Operand) : Node :=
  let arrangement := Arrangement.ofSettings settings
  (arrangement .query).junction .query (Operand.linkedNodes arrangement .query operands)

end SearchQuery
