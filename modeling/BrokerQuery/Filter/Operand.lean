import BrokerQuery.Filter.Basic
import BrokerQuery.Filter.Error
import BrokerQuery.Number.Layout
import BrokerQuery.Number.Whole
/-
  What a dimension can be tested against.

  An operand is a scalar, another filter, or a list of operands nested in any way; only its leaves
  from left to right matter (`leaves`).  Numbers, truth values and characters become scalars by
  their text.  The three tests are

    1. `isIn`: one scalar gives a test, several give the "or" of their tests in order, repeats
       kept; no leaf at all is an error, and so is a leaf that is a filter;
    2. `equals`, which on a list is `isIn`;
    3. `notEquals`, the negation of `equals`.

  A test that already has a value gets the new one.
-/

namespace BrokerQuery

/-- The operand of a test. -/
inductive Operand
  | scalar (s : String)
  | expression (f : Filter)
  | list (items : List Operand)

/-- An operand that is no list. -/
inductive Leaf
  | scalar (s : String)
  | expression (f : Filter)

namespace Operand

mutual
/-- The leaves of an operand from left to right. -/
def leaves : Operand → List Leaf
  | .scalar s => [.scalar s]
  | .expression f => [.expression f]
  | .list items => leavesAll items

/-- The leaves of several operands, one after the other. -/
def leavesAll : List Operand → List Leaf
  | [] => []
  | v :: vs => leaves v ++ leavesAll vs
end

def ofBool (b : Bool) : Operand := .scalar (if b then "true" else "false")

def ofInt (n : Int) : Operand := .scalar (Whole.text n)

def ofNumber (x : Binary64) : Operand := .scalar (Layout.label.write x)

def ofChar (c : Char) : Operand := .scalar (String.singleton c)

def ofPredicate (p : Predicate) : Operand := .expression (.test p)

def ofStrings (ss : List String) : Operand := .list (ss.map .scalar)

def ofPair (a b : Operand) : Operand := .list [a, b]

end Operand

namespace Leaf

/-- The leaf as an operand again. -/
def operand : Leaf → Operand
  | .scalar s => .scalar s
  | .expression f => .expression f

/-- The text of a leaf that is no filter. -/
def scalar? : Leaf → Option String
  | .scalar s => some s
  | .expression _ => none

/-- Whether a leaf is a filter. -/
def isExpression : Leaf → Bool
  | .scalar _ => false
  | .expression _ => true

end Leaf

namespace Predicate

/-- A test of a dimension, to be completed. -/
def on (dimension : String) : Predicate := ⟨dimension, none⟩

/-- The test with its value. -/
def bind (p : Predicate) (value : String) : Filter := .test { p with value := some value }

/-- The test against a single leaf. -/
def equalsLeaf (p : Predicate) : Leaf → Except FilterError Filter
  | .scalar s => .ok (p.bind s)
  | .expression _ => .error (.nestedExpression p.dimension)

/-- The value of the dimension is one of the leaves. -/
def isIn (p : Predicate) (v : Operand) : Except FilterError Filter :=
  match v.leaves with
  | [] => .error (.emptyOperand p.dimension)
  | [leaf] => p.equalsLeaf leaf
  | leaves =>
    if leaves.any Leaf.isExpression then .error (.nestedExpression p.dimension)
    else .ok (.node .or (leaves.filterMap fun leaf => leaf.scalar?.map p.bind))

/-- The value of the dimension is the operand, or one of a list. -/
def equals (p : Predicate) : Operand → Except FilterError Filter
  | .scalar s => p.equalsLeaf (.scalar s)
  | .expression f => p.equalsLeaf (.expression f)
  | .list items => p.isIn (.list items)

/-- The value of the dimension is neither the operand nor one of a list. -/
def notEquals (p : Predicate) (v : Operand) : Except FilterError Filter :=
  (p.equals v).map Filter.not

end Predicate
end BrokerQuery
