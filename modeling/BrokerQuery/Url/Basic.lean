import BrokerQuery.Url.Host
/-
  URLs of a broker.

  A broker is reached over `http` or `https`.  Its URL is read as browsers read URLs: space around
  it and line breaks in it do not count, a backslash is a slash, capitals of scheme and host are
  folded, the port of the scheme is left out, dots in the path are resolved, and what may not stand
  in a part is percent encoded.  `BrokerUrl.read` says why a text is none.

  `withPath` gives the same broker another path; its text is read by the same rules, except that a
  question mark and a number sign are characters like any other.
-/

namespace BrokerQuery.Url

/-- The URL of a broker. -/
structure BrokerUrl where
  secure : Bool
  user : List Char
  password : List Char
  host : Host
  port : Option Nat
  /-- The segments of the path, each of them after a slash. -/
  path : List (List Char)
  query : Option (List Char)
  fragment : Option (List Char)
deriving DecidableEq

/-! ## Paths -/

/-- Whether a segment is a dot, which may be percent encoded. -/
def isSingleDot (cs : List Char) : Bool :=
  [".", "%2e"].contains (String.ofList (cs.map Char.toLower))

/-- Whether a segment is two dots, each of which may be percent encoded. -/
def isDoubleDot (cs : List Char) : Bool :=
  ["..", ".%2e", "%2e.", "%2e%2e"].contains (String.ofList (cs.map Char.toLower))

/-- Whether a segment names a drive; such a segment is never left by two dots. -/
def isDrive : List Char → Bool
  | [letter, mark] => letter.isAlpha && (mark == ':' || mark == '|')
  | _ => false

/-- The segments without their last one. -/
def leaveFolder : List (List Char) → List (List Char)
  | [] => []
  | s :: before => if isDrive s then s :: before else before

/-- Resolves the dots of a path; `before` are the segments so far, the last one first. -/
def resolveDots (before : List (List Char)) : List (List Char) → List (List Char)
  | [] => before.reverse
  | [s] =>
    if isDoubleDot s then ([] :: leaveFolder before).reverse
    else if isSingleDot s then ([] :: before).reverse
    else (s :: before).reverse
  | s :: rest =>
    if isDoubleDot s then resolveDots (leaveFolder before) rest
    else if isSingleDot s then resolveDots before rest
    else resolveDots (s :: before) rest

/-- The segments of a path as it is written: a first slash is not needed, a backslash is a
slash. -/
def readPath (cs : List Char) : List (List Char) :=
  let slashed := cs.map fun c => if c = '\\' then '/' else c
  let inner := if slashed.head? = some '/' then slashed.drop 1 else slashed
  resolveDots [] ((Text.pieces '/' inner).map (percentEncode inPathSet))

/-- The text of a path. -/
def pathChars (path : List (List Char)) : List Char := path.flatMap ('/' :: ·)

/-! ## Reading -/

/-- Characters that are dropped wherever they stand. -/
def isBreak (c : Char) : Bool := c == '\t' || c == '\n' || c == '\r'

/-- Whether a character is dropped at the ends. -/
def isPadding (c : Char) : Bool := c.toNat ≤ 0x20

/-- The text without what does not count. -/
def clean (cs : List Char) : List Char :=
  ((cs.dropWhile isPadding).reverse.dropWhile isPadding).reverse.filter (!isBreak ·)

/-- The scheme in small letters, and what follows its colon. -/
def readScheme (cs : List Char) : Option (List Char × List Char) :=
  match cs with
  | [] => none
  | c :: _ =>
    if c.isAlpha then
      match Text.cut? ':' cs with
      | some (scheme, rest) =>
        if scheme.all fun c => c.isAlphanum || c == '+' || c == '-' || c == '.' then
          some (scheme.map Char.toLower, rest)
        else none
      | none => none
    else none

/-- Whether a character ends the authority. -/
def endsAuthority (special : Bool) (c : Char) : Bool :=
  c == '/' || c == '?' || c == '#' || (special && c == '\\')

/-- User and password, and what follows the last at-sign of the authority. -/
def readUser (special : Bool) (cs : List Char) :
    Except UrlError (List Char × List Char × List Char) :=
  let authority := cs.takeWhile (!endsAuthority special ·)
  let rest := cs.dropWhile (!endsAuthority special ·)
  if '@' ∈ authority then
    let hostPart := (authority.reverse.takeWhile (· ≠ '@')).reverse
    let userPart := authority.take (authority.length - hostPart.length - 1)
    if userPart.isEmpty && hostPart.isEmpty && !rest.isEmpty then .error .emptyHost
    else
      let (user, password) := match Text.cut? ':' userPart with
        | some parts => parts
        | none => (userPart, [])
      .ok (percentEncode inUserSet user, percentEncode inUserSet password, hostPart ++ rest)
  else .ok ([], [], cs)

/-- The characters up to a colon outside brackets or the end of the authority, and the rest. -/
def spanHost (special : Bool) (inside : Bool) : List Char → List Char × List Char
  | [] => ([], [])
  | c :: cs =>
    if (c = ':' && !inside) || endsAuthority special c then ([], c :: cs)
    else
      let inside := if c = '[' then true else if c = ']' then false else inside
      let (host, rest) := spanHost special inside cs
      (c :: host, rest)

/-- The digits of a port; it ends with the authority. -/
def readPort (n : Nat) : List Char → Except UrlError (Nat × List Char)
  | [] => .ok (n, [])
  | c :: cs =>
    if c.isDigit then
      let m := n * 10 + Numeral.digit c
      if 65535 < m then .error .invalidPort else readPort m cs
    else if endsAuthority true c then .ok (n, c :: cs)
    else .error .invalidPort

/-- The parts of a URL after `//`. -/
structure Authority where
  user : List Char
  password : List Char
  host : Host
  port : Option Nat
  rest : List Char

/-- The port after a host, if there is one. -/
def readPortPart (cs : List Char) : Except UrlError (Option Nat × List Char) :=
  match cs with
  | ':' :: more => (readPort 0 more).map fun (n, rest) =>
      (if more.length = rest.length then none else some n, rest)
  | cs => .ok (none, cs)

/-- Reads user, password, host and port. -/
def readAuthority (special : Bool) (cs : List Char) : Except UrlError Authority := do
  let (user, password, cs) ← readUser special cs
  let (hostText, rest) := spanHost special false cs
  if special && hostText.isEmpty then .error .emptyHost
  else
    let host ← if special then Host.read hostText else Host.readOpaque hostText
    if host = .domain [] ∧ rest.head? = some ':' then .error .emptyHost
    else
      let (port, rest) ← readPortPart rest
      if host = .domain [] ∧ (user ≠ [] ∨ password ≠ []) then .error .emptyHost
      else .ok ⟨user, password, host, port, rest⟩

/-- Path, query and fragment of a URL. -/
def readTail (cs : List Char) : List (List Char) × Option (List Char) × Option (List Char) :=
  let beforeFragment := cs.takeWhile (· ≠ '#')
  let fragment := match cs.dropWhile (· ≠ '#') with
    | _ :: f => some (percentEncode inFragmentSet f)
    | [] => none
  let query := match beforeFragment.dropWhile (· ≠ '?') with
    | _ :: q => some (percentEncode inQuerySet q)
    | [] => none
  (readPath (beforeFragment.takeWhile (· ≠ '?')), query, fragment)

/-- The schemes that need a host but that no broker speaks. -/
def otherHosted : List String := ["ws", "wss", "ftp"]

/-- Checks the host of a URL of a local file. -/
def checkFile (cs : List Char) : Except UrlError Unit :=
  match cs with
  | a :: b :: rest =>
    if (a = '/' ∨ a = '\\') ∧ (b = '/' ∨ b = '\\') then
      let host := rest.takeWhile (!endsAuthority true ·)
      if host.isEmpty || isDrive host then .ok () else (Host.read host).map fun _ => ()
    else .ok ()
  | _ => .ok ()

namespace BrokerUrl

/-- The URL of a broker from what follows its scheme; any number of slashes may come first. -/
def ofRest (secure : Bool) (cs : List Char) : Except UrlError BrokerUrl := do
  let a ← readAuthority true (cs.dropWhile fun c => c == '/' || c == '\\')
  let (path, query, fragment) := readTail a.rest
  let port := if a.port = some (if secure then 443 else 80) then none else a.port
  return ⟨secure, a.user, a.password, a.host, port, path, query, fragment⟩

/-- The URL of a broker that a text writes, or what is wrong with it.  A foreign scheme is found
out last: its URL may be wrong in its own way. -/
def read (s : String) : Except UrlError BrokerUrl :=
  match readScheme (clean s.toList) with
  | none => .error .relative
  | some (scheme, rest) =>
    let name := String.ofList scheme
    if name = "http" then ofRest false rest
    else if name = "https" then ofRest true rest
    else if name ∈ otherHosted then do
      let _ ← readAuthority true (rest.dropWhile fun c => c == '/' || c == '\\')
      .error .otherScheme
    else if name = "file" then do
      checkFile rest
      .error .otherScheme
    else match rest with
      | '/' :: '/' :: more => do
        let _ ← readAuthority false more
        .error .otherScheme
      | _ => .error .otherScheme

/-! ## Writing -/

/-- The path as it is sent. -/
def pathText (u : BrokerUrl) : List Char := pathChars u.path

/-- User and password in front of the host. -/
def userChars (u : BrokerUrl) : List Char :=
  u.user ++ (if u.password.isEmpty then [] else ':' :: u.password) ++
    if u.user.isEmpty && u.password.isEmpty then [] else ['@']

/-- A part that is written after a mark if it is there. -/
def optionalChars (mark : Char) : Option (List Char) → List Char
  | some cs => mark :: cs
  | none => []

/-- The text of a URL. -/
def text (u : BrokerUrl) : String :=
  String.ofList <|
    (if u.secure then "https://".toList else "http://".toList) ++ u.userChars ++ u.host.chars ++
      optionalChars ':' (u.port.map (Nat.toDigits 10)) ++ u.pathText ++
      optionalChars '?' u.query ++ optionalChars '#' u.fragment

/-- What a request to the URL asks for: path and query. -/
def target (u : BrokerUrl) : String :=
  String.ofList (u.pathText ++ optionalChars '?' u.query)

/-- The same broker with another path and no query. -/
def withPath (u : BrokerUrl) (path : List Char) : BrokerUrl :=
  { u with path := readPath (path.filter (!isBreak ·)), query := none }

end BrokerUrl
end BrokerQuery.Url
