import BrokerQuery.Json.Reader
import BrokerQuery.Json.Writer
/-
  Rows of a result.

  A row is an object.  Rows of groups carry their values in the field `event`, rows of rankings and
  time series in the field `result`; `get` looks into both before it looks at the row itself.
-/

namespace BrokerQuery

/-- A row of a result. -/
structure Row where
  fields : List (String × Json)

namespace Row

/-- The row that an object is. -/
def ofJson? (v : Json) : Option Row := v.fields?.map Row.mk

/-- The rows that an array holds. -/
def ofJsonAll? (v : Json) : Option (List Row) := v.rows?.map (·.map Row.mk)

/-- The row as a value. -/
def toJson (r : Row) : Json := .object r.fields

/-- The row on one line. -/
def text (r : Row) : String := r.toJson.compact

/-- The time of a row, if it is a text. -/
def timestamp (r : Row) : Option String := (Json.lookup "timestamp" r.fields).bind Json.string?

/-- The fields inside a field, if that is an object. -/
def inner (r : Row) (name : String) : List (String × Json) :=
  ((Json.lookup name r.fields).bind Json.fields?).getD []

/-- The value of a field: the one of the event, else that of the result, else that of the row. -/
def get (r : Row) (field : String) : Option Json :=
  (Json.lookup field (r.inner "event")).or <|
    (Json.lookup field (r.inner "result")).or (Json.lookup field r.fields)

end Row
end BrokerQuery
