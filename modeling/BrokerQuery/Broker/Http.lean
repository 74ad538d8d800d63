import BrokerQuery.Broker.Session
import BrokerQuery.Text.Blank
import BrokerQuery.Text.Utf8
/-
  Requests and answers as HTTP/1.1 writes them.

  `message` is the text of a request; the connection ends with its answer.  `readAnswer` reads the
  bytes of an answer: a status line, fields, an empty line and the body, whose end is told by a
  count, by chunks, or by the end of the connection.  Bytes that are no answer, or only a part of
  one, are as good as none.
-/

namespace BrokerQuery.Http

/-! ## Requests -/

/-- A field in front of the body. -/
def fieldLine (name value : String) : String := name ++ ": " ++ value ++ "\r\n"

/-- The port that a request goes to. -/
def port (u : Url.BrokerUrl) : Nat := u.port.getD (if u.secure then 443 else 80)

/-- The name that a request goes to, and its port where the URL has one. -/
def authority (u : Url.BrokerUrl) : String :=
  String.ofList u.host.chars ++ match u.port with
    | some n => ":" ++ toString n
    | none => ""

/-- The text of a request. -/
def message (r : Request) : String :=
  let body := r.body
  r.method.name ++ " " ++ r.target ++ " HTTP/1.1\r\n" ++
    fieldLine "host" (authority r.url) ++
    fieldLine "user-agent" Request.userAgent ++
    fieldLine "accept" "*/*" ++
    fieldLine "connection" "close" ++
    (match r.contentType with
      | some t => fieldLine "content-type" t ++ fieldLine "content-length" (toString body.utf8ByteSize)
      | none => "") ++
    "\r\n" ++ body

/-! ## Answers -/

/-- The bytes up to the first line break, and those after it. -/
def readLine (bytes : List Nat) : Option (List Nat × List Nat) :=
  match bytes.dropWhile (· ≠ 10) with
  | _ :: rest =>
    let line := bytes.takeWhile (· ≠ 10)
    some (if line.getLast? = some 13 then line.dropLast else line, rest)
  | [] => none

/-- The lines up to an empty one, and the bytes after it; `room` bounds their number. -/
def readHead : Nat → List Nat → Option (List (List Nat) × List Nat)
  | 0, _ => none
  | room + 1, bytes => do
    let (line, rest) ← readLine bytes
    if line = [] then return ([], rest)
    else
      let (lines, rest) ← readHead room rest
      return (line :: lines, rest)

/-- The status of the first line of an answer, as in `HTTP/1.1 200 OK`. -/
def readStatus (line : List Nat) : Option Nat :=
  match Text.pieces ' ' (line.map Char.ofNat) with
  | _ :: status :: _ =>
    if status.length = 3 ∧ status.all Char.isDigit then some (Numeral.value status) else none
  | _ => none

/-- The name of a field in small letters, and its value. -/
def readField (line : List Nat) : Option (String × String) :=
  (Text.cut? ':' (line.map Char.ofNat)).map fun (name, value) =>
    (String.ofList (name.map Char.toLower), String.ofList (Text.trimChars value))

/-- The number at the start of a chunk, in hexadecimal digits. -/
def chunkSize (line : List Nat) : Option Nat :=
  let digits := (line.map Char.ofNat).map Url.hexValue? |>.takeWhile Option.isSome
  if digits = [] then none else some (digits.foldl (fun n d => n * 16 + d.getD 0) 0)

/-- A body cut into chunks, of which the last one is empty; `room` bounds their number. -/
def readChunks : Nat → List Nat → Option (List Nat)
  | 0, _ => none
  | room + 1, bytes => do
    let (line, rest) ← readLine bytes
    let size ← chunkSize line
    if size = 0 then return []
    else if rest.length < size then none
    else return rest.take size ++ (← readChunks room (rest.drop (size + 2)))

/-- The body of an answer with these fields. -/
def readBody (fields : List (String × String)) (bytes : List Nat) : Option (List Nat) :=
  match fields.lookup "transfer-encoding", (fields.lookup "content-length").bind (·.toNat?) with
  | some "chunked", _ => readChunks (bytes.length + 1) bytes
  | _, some size => if bytes.length < size then none else some (bytes.take size)
  | _, none => some bytes

/-- The answer that some bytes are. -/
def readAnswer (bytes : List Nat) : Outcome :=
  let answer := do
    let (lines, rest) ← readHead (bytes.length + 1) bytes
    let status ← readStatus (← lines.head?)
    let fields := lines.tail.filterMap readField
    let body ← if Outcome.hasBody status then readBody fields rest else some []
    return Outcome.received status (Text.decodeUtf8 body)
  answer.getD .silence

end BrokerQuery.Http
