/-
  Letters and digits of the scripts in use.
-/

namespace BrokerQuery.Text

/-- The blocks of letters and numbers outside ASCII: first and last code point. -/
def letterBlocks : List (Nat × Nat) :=
  [(0xAA, 0xAA), (0xB2, 0xB3), (0xB5, 0xB5), (0xB9, 0xBA), (0xBC, 0xBE), (0xC0, 0xD6), (0xD8, 0xF6),
    (0xF8, 0x2C1), (0x2C6, 0x2D1), (0x2E0, 0x2E4), (0x345, 0x345), (0x370, 0x374), (0x376, 0x377),
    (0x37A, 0x37D), (0x37F, 0x37F), (0x386, 0x386), (0x388, 0x3F5), (0x3F7, 0x481), (0x48A, 0x556),
    (0x559, 0x559), (0x560, 0x588), (0x5D0, 0x5EA), (0x5EF, 0x5F2), (0x620, 0x657),
    (0x660, 0x669), (0x66E, 0x6D3), (0x6EE, 0x6FC), (0x904, 0x939), (0x958, 0x963), (0x966, 0x96F),
    (0xE01, 0xE3A), (0xE40, 0xE46), (0xE50, 0xE59), (0x10A0, 0x10FA), (0x10FC, 0x1248),
    (0x1E00, 0x1F15), (0x1F18, 0x1FBC), (0x2070, 0x2071), (0x2074, 0x2079), (0x207F, 0x2089),
    (0x2150, 0x2189), (0x2460, 0x249B), (0x24B6, 0x24FF), (0x2C00, 0x2CE4), (0x2D00, 0x2D6F),
    (0x3005, 0x3007), (0x3021, 0x3029), (0x3041, 0x3096), (0x309D, 0x309F), (0x30A1, 0x30FA),
    (0x30FC, 0x30FF), (0x3105, 0x318E), (0x31F0, 0x31FF), (0x3400, 0x4DBF), (0x4E00, 0xA48C),
    (0xAC00, 0xD7A3), (0xF900, 0xFAD9), (0xFF10, 0xFF19), (0xFF21, 0xFF3A), (0xFF41, 0xFF5A),
    (0xFF66, 0xFFBE), (0x1D400, 0x1D7FF), (0x20000, 0x323AF)]

/-- Whether a character is a letter or a digit. -/
def isLetterOrDigit (c : Char) : Bool :=
  c.isAlphanum || letterBlocks.any fun (first, last) => first ≤ c.toNat && c.toNat ≤ last

end BrokerQuery.Text
