import BrokerQuery.Number.Whole
import BrokerQuery.Text.Split
import BrokerQuery.Url.Percent
import BrokerQuery.Url.Punycode
/-
  Hosts of a URL.

  A host is a domain name, or an address of four or of sixteen bytes.  Reading one decodes percent
  signs, folds capitals, brings other scripts into the letters of ASCII, and takes anything whose
  last part is a number for an address.  Writing an address of sixteen bytes leaves out its longest
  run of zeros.
-/

namespace BrokerQuery.Url

/-- Why a text is no URL of a broker. -/
inductive UrlError
  /-- There is no scheme. -/
  | relative
  | emptyHost
  | invalidDomain
  | invalidCharacter
  | invalidPort
  | invalidAddress4
  | invalidAddress6
  /-- The scheme is none that a broker speaks. -/
  | otherScheme
deriving DecidableEq

/-- The error in words; a foreign scheme has none of its own. -/
def UrlError.message : UrlError → String
  | .relative => "relative URL without a base"
  | .emptyHost => "empty host"
  | .invalidDomain => "invalid international domain name"
  | .invalidCharacter => "invalid domain character"
  | .invalidPort => "invalid port number"
  | .invalidAddress4 => "invalid IPv4 address"
  | .invalidAddress6 => "invalid IPv6 address"
  | .otherScheme => ""

/-- A host. -/
inductive Host
  | domain (name : List Char)
  | address4 (n : Nat)
  /-- Eight groups of sixteen bits. -/
  | address6 (groups : List Nat)
deriving DecidableEq

namespace Host

/-! ## Domain names -/

/-- Characters that are dropped from a domain name. -/
def isIgnored (n : Nat) : Bool :=
  n == 0xAD || n == 0x200B || n == 0x2060 || n == 0xFEFF || (0xFE00 ≤ n && n ≤ 0xFE0F)

/-- The code point that a character of a domain name is folded to: capitals of the Latin, Greek
and Cyrillic scripts to small letters, full-width forms and full stops to ASCII. -/
def fold (n : Nat) : Nat :=
  if 0x41 ≤ n ∧ n ≤ 0x5A then n + 0x20
  else if n = 0x3002 ∨ n = 0xFF0E ∨ n = 0xFF61 then 0x2E
  else if 0xFF21 ≤ n ∧ n ≤ 0xFF3A then n - 0xFEC0
  else if 0xFF01 ≤ n ∧ n ≤ 0xFF5E then n - 0xFEE0
  else if n = 0xA0 ∨ n = 0x3000 then 0x20
  else if 0xC0 ≤ n ∧ n ≤ 0xDE ∧ n ≠ 0xD7 then n + 0x20
  else if (0x100 ≤ n ∧ n ≤ 0x12F ∨ 0x132 ≤ n ∧ n ≤ 0x137 ∨ 0x14A ≤ n ∧ n ≤ 0x177 ∨
      0x460 ≤ n ∧ n ≤ 0x481 ∨ 0x48A ≤ n ∧ n ≤ 0x4BF ∨ 0x4D0 ≤ n ∧ n ≤ 0x52F ∨
      0x1E00 ≤ n ∧ n ≤ 0x1E95 ∨ 0x1EA0 ≤ n ∧ n ≤ 0x1EFF) ∧ n % 2 = 0 then n + 1
  else if (0x139 ≤ n ∧ n ≤ 0x148 ∨ 0x179 ≤ n ∧ n ≤ 0x17E) ∧ n % 2 = 1 then n + 1
  else if n = 0x178 then 0xFF
  else if 0x391 ≤ n ∧ n ≤ 0x3AB ∧ n ≠ 0x3A2 then n + 0x20
  else if 0x400 ≤ n ∧ n ≤ 0x40F then n + 0x50
  else if 0x410 ≤ n ∧ n ≤ 0x42F then n + 0x20
  else if 0x531 ≤ n ∧ n ≤ 0x556 then n + 0x30
  else n

/-- The characters of a domain name, folded. -/
def foldAll (cs : List Char) : List Char :=
  (cs.filter (!isIgnored ·.toNat)).map fun c => Char.ofNat (fold c.toNat)

/-- Whether a character cannot be in a domain name. -/
def isForbidden (c : Char) : Bool :=
  c.toNat ≤ 0x20 || (0x7F ≤ c.toNat && c.toNat ≤ 0x9F) || c == Text.replacement ||
    "#%/:<>?@[\\]^|".toList.contains c

/-- A label in the letters of ASCII.  One that carries the mark of such a label must decode to a
folded label that needs it. -/
def asciiLabel? (label : List Char) : Option (List Char) :=
  if "xn--".toList.isPrefixOf label then
    match Punycode.decode? (label.drop 4) with
    | some cs =>
      if cs.any (0x80 ≤ ·.toNat) && foldAll cs = cs && !cs.any isForbidden then some label else none
    | none => none
  else if label.all (·.toNat < 0x80) then some label
  else some ("xn--".toList ++ Punycode.encode label)

/-- A domain name in the letters of ASCII. -/
def asciiDomain? (cs : List Char) : Option (List Char) :=
  let folded := foldAll cs
  if folded.any isForbidden then none
  else ((Text.pieces '.' folded).mapM asciiLabel?).map ['.'].intercalate

/-! ## Addresses of four bytes -/

/-- The value of digits in a base, if they all are digits of it. -/
def valueIn? (base : Nat) (cs : List Char) : Option Nat :=
  cs.foldlM (fun n c => do
    let d ← hexValue? c
    if d < base then return n * base + d else none) 0

/-- A part of an address: hexadecimal after `0x`, octal after `0`, else decimal. -/
def part? : List Char → Option Nat
  | [] => none
  | '0' :: 'x' :: cs => valueIn? 16 cs
  | '0' :: 'X' :: cs => valueIn? 16 cs
  | '0' :: c :: cs => valueIn? 8 (c :: cs)
  | cs => valueIn? 10 cs

/-- The parts between the points, without an empty one at the end. -/
def parts (cs : List Char) : List (List Char) :=
  let ps := Text.pieces '.' cs
  if ps.getLast? = some [] then ps.dropLast else ps

/-- Whether the last part is a number, so that the whole must be an address. -/
def endsInNumber (cs : List Char) : Bool :=
  match (parts cs).getLast? with
  | some last => !last.isEmpty && (last.all Char.isDigit || (part? last).isSome)
  | none => false

/-- The address that parts make: the last one fills the bytes that the others leave. -/
def address4? (cs : List Char) : Option Nat := do
  let numbers ← (parts cs).mapM part?
  if 4 < numbers.length then none
  else match numbers.reverse with
    | [] => none
    | last :: rest =>
      if last < Nat.pow 256 (4 - rest.length) ∧ rest.all (· ≤ 255) then
        some (rest.reverse.zipIdx.foldl (fun sum (n, i) => sum + n * Nat.pow 256 (3 - i)) last)
      else none

/-! ## Addresses of sixteen bytes -/

/-- A byte in decimal without leading zeros, and the rest. -/
def byte? (cs : List Char) : Option (Nat × List Char) :=
  let (ds, rest) := Numeral.spanDigits cs
  if ds.isEmpty || (1 < ds.length && ds.head? = some '0') || 255 < Numeral.value ds then none
  else some (Numeral.value ds, rest)

/-- Four bytes with points between them, as two groups; nothing may follow. -/
def bytes4? (cs : List Char) : Option (List Nat) := do
  let (a, cs) ← byte? cs
  let (b, cs) ← point? cs
  let (c, cs) ← point? cs
  let (d, cs) ← point? cs
  if cs.isEmpty then return [a * 256 + b, c * 256 + d] else none
where
  /-- A point and a byte. -/
  point? : List Char → Option (Nat × List Char)
    | '.' :: cs => byte? cs
    | _ => none

/-- The groups of an address, and where a run of zeros is left out; a run counts as one group. -/
def groups? (groups : List Nat) (gap : Option Nat) (cs : List Char) :
    Nat → Option (List Nat × Option Nat)
  | 0 => none
  | fuel + 1 =>
    if cs.isEmpty then some (groups, gap)
    else if groups.length = 8 then none
    else if cs.head? = some ':' then
      if gap.isSome then none
      else groups? (groups ++ [0]) (some (groups.length + 1)) (cs.drop 1) fuel
    else
      let ds := (cs.take 4).takeWhile fun c => (hexValue? c).isSome
      let rest := cs.drop ds.length
      match valueIn? 16 ds, rest with
      | some v, [] => some (groups ++ [v], gap)
      | some v, ':' :: more =>
        if more.isEmpty then none else groups? (groups ++ [v]) gap more fuel
      | some _, '.' :: _ =>
        if ds.isEmpty || 6 < groups.length then none
        else (bytes4? cs).map fun two => (groups ++ two, gap)
      | _, _ => none

/-- An address of sixteen bytes, without its brackets. -/
def address6? (cs : List Char) : Option (List Nat) := do
  let (groups, gap) ← match cs with
    | ':' :: ':' :: rest => groups? [0] (some 1) rest (cs.length + 1)
    | ':' :: _ => none
    | _ => groups? [] none cs (cs.length + 1)
  match gap with
  | some k =>
    if groups.length ≤ 8 then
      some (groups.take k ++ List.replicate (8 - groups.length) 0 ++ groups.drop k)
    else none
  | none => if groups.length = 8 then some groups else none

/-! ## Any host -/

/-- An address in brackets. -/
def bracketed (cs : List Char) : Except UrlError Host :=
  if cs.getLast? = some ']' then
    match address6? (cs.drop 1).dropLast with
    | some groups => .ok (.address6 groups)
    | none => .error .invalidAddress6
  else .error .invalidAddress6

/-- The host of a URL whose scheme is known. -/
def read (cs : List Char) : Except UrlError Host :=
  if cs.head? = some '[' then bracketed cs
  else match asciiDomain? (Text.decodeUtf8 (percentDecode cs)).toList with
    | none => .error .invalidDomain
    | some [] => .error .emptyHost
    | some name =>
      if endsInNumber name then
        match address4? name with
        | some n => .ok (.address4 n)
        | none => .error .invalidAddress4
      else .ok (.domain name)

/-- The host of a URL whose scheme is not known: any text without delimiters. -/
def readOpaque (cs : List Char) : Except UrlError Host :=
  if cs.head? = some '[' then bracketed cs
  else if cs.any ("\x00\t\n\r #/:<>?@[\\]^|".toList.contains ·) then .error .invalidCharacter
  else .ok (.domain (percentEncode isControl cs))

/-- The first longest run of zeros, as its place and length. -/
def zeroRun (groups : List Nat) : Nat × Nat :=
  (groups.zipIdx.map fun (_, i) => (i, ((groups.drop i).takeWhile (· = 0)).length)).foldl
    (fun best run => if best.2 < run.2 then run else best) (0, 0)

/-- Groups with colons between them. -/
def groupChars (groups : List Nat) : List Char :=
  [':'].intercalate (groups.map (Nat.toDigits 16))

/-- The text of a host. -/
def chars : Host → List Char
  | .domain name => name
  | .address4 n =>
    ['.'].intercalate ([16777216, 65536, 256, 1].map fun unit => Nat.toDigits 10 (n / unit % 256))
  | .address6 groups =>
    let (place, length) := zeroRun groups
    '[' :: (if 2 ≤ length then
        groupChars (groups.take place) ++ ':' :: ':' :: groupChars (groups.drop (place + length))
      else groupChars groups) ++ [']']

end Host
end BrokerQuery.Url
