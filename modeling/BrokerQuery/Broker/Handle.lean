import BrokerQuery.Broker.Client
/-
  Handles of data sources.

  A handle belongs to one data source of one broker and knows its metadata from the first fetch
  that succeeds on.  A fetch that fails is not remembered.  Queries go through a handle to its own
  data source, whatever source they were built on, and leave its metadata alone.
-/

namespace BrokerQuery

/-- A data source of a broker. -/
structure Handle where
  name : String
  client : Client
  /-- The metadata of the first fetch that succeeded. -/
  known : Option Metadata := none

namespace Handle

/-- The handle of a data source, which may be named with its service. -/
def ofSource (source : String) (client : Client) : Handle where
  name := Text.lastPiece '/' source
  client := client

/-- The metadata, which is fetched unless it is known, and the handle that knows it. -/
def metadata (h : Handle) : Session (Except ClientError Metadata × Handle) :=
  match h.known with
  | some m => .done (.ok m, h)
  | none => do
    match ← h.client.metadata h.name with
    | .ok m => return (.ok m, { h with known := some m })
    | .error e => return (.error e, h)

/-- The dimensions of the data source. -/
def dimensions (h : Handle) : Session (Except ClientError (List String) × Handle) := do
  let (m, h) ← h.metadata
  return (m.map Metadata.dimensions, h)

/-- The metrics of the data source. -/
def metrics (h : Handle) : Session (Except ClientError (List String) × Handle) := do
  let (m, h) ← h.metadata
  return (m.map Metadata.metrics, h)

/-- The rows of a query on the data source. -/
def query (h : Handle) (q : Query) : Session (Except ClientError (List Row)) :=
  h.client.send (q.onSource h.name)

end Handle
end BrokerQuery
