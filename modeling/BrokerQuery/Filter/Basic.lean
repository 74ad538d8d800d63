/-
  Filters: which rows a query keeps.

  A filter tests dimensions of a row for equality and joins tests with "and", "or" and "not".  An
  operator is a connective with its children, so the tree alone admits operators that mean nothing,
  such as a "not" of nothing.  Filters are put together by `and`, `or` and `not`, which keep the
  tree flat where they can:

    1. `and` on a conjunction appends to it and otherwise makes a conjunction of two; `or` likewise
       on a disjunction (both are `combine`);
    2. `not` on a negation gives its operand back.

  Only the left operand is ever flattened, so the order of the tests is the order of the calls.
-/

namespace BrokerQuery

/-- A test of one dimension; without a value it is a test still to be completed. -/
structure Predicate where
  dimension : String
  value : Option String := none
deriving DecidableEq

/-- What an operator makes of its children. -/
inductive Connective
  | and
  | or
  | not
deriving DecidableEq

/-- The broker's name of a connective. -/
def Connective.name : Connective → String
  | .and => "and"
  | .or => "or"
  | .not => "not"

/-- A filter expression. -/
inductive Filter
  | test (p : Predicate)
  | node (op : Connective) (children : List Filter)

namespace Filter

/-- The connective of an operator; a test has none. -/
def connective? : Filter → Option Connective
  | .test _ => none
  | .node op _ => some op

/-- The children of an operator; a test has none. -/
def children : Filter → List Filter
  | .test _ => []
  | .node _ children => children

/-- Two filters under a connective; an operator with that connective on the left is extended. -/
def combine (op : Connective) (a b : Filter) : Filter :=
  if a.connective? = some op then .node op (a.children ++ [b]) else .node op [a, b]

/-- Both filters hold. -/
def and (a b : Filter) : Filter := combine .and a b

/-- One of the filters holds. -/
def or (a b : Filter) : Filter := combine .or a b

/-- The filter does not hold; the operand of a "not" is its first child. -/
def not : Filter → Filter
  | .node .not (operand :: _) => operand
  | a => .node .not [a]

instance : AndOp Filter := ⟨Filter.and⟩
instance : OrOp Filter := ⟨Filter.or⟩
instance : Complement Filter := ⟨Filter.not⟩

/-- The filters joined by "and", from the left; `none` for no filter at all. -/
def all? : List Filter → Option Filter
  | [] => none
  | f :: fs => some (fs.foldl Filter.and f)

/-! ## Equality

Two filters are equal when they are the same tree.  The check follows the tree; lists of children
are compared item by item. -/

mutual
/-- Whether two filters are the same tree. -/
def same : Filter → Filter → Bool
  | .test p, .test q => p == q
  | .node op as, .node op' bs => op == op' && sameAll as bs
  | _, _ => false

/-- Whether two lists hold the same trees. -/
def sameAll : List Filter → List Filter → Bool
  | [], [] => true
  | a :: as, b :: bs => same a b && sameAll as bs
  | _, _ => false
end

mutual
/-- Comparing filters node by node decides equality. -/
theorem same_iff : ∀ a b : Filter, same a b = true ↔ a = b
  | .test p, .test q => by simp [same]
  | .node op as, .node op' bs => by simp [same, sameAll_iff as bs]
  | .test _, .node _ _ | .node _ _, .test _ => by simp [same]

theorem sameAll_iff : ∀ as bs : List Filter, sameAll as bs = true ↔ as = bs
  | [], [] => by simp [sameAll]
  | a :: as, b :: bs => by simp [sameAll, same_iff a b, sameAll_iff as bs]
  | [], _ :: _ | _ :: _, [] => by simp [sameAll]
end

instance : DecidableEq Filter := fun a b => decidable_of_iff _ (same_iff a b)

end Filter
end BrokerQuery
