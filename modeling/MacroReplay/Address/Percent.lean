import MacroReplay.Text.Ascii

/-!
# Percent-encoding

A character that an address may not hold as it is becomes one `%` with two hexadecimal digits for each
byte of its encoding. Which characters these are depends on the part of the address.
-/

namespace MacroReplay.Address

def isControl (c : Char) : Bool :=
  c.toNat < 0x20 || c.toNat == 0x7F

/-- The characters encoded everywhere: control characters and all that is not ASCII. -/
def encodedEverywhere (c : Char) : Bool :=
  isControl c || 0x7F < c.toNat

def encodedInFragment (c : Char) : Bool :=
  encodedEverywhere c || " \"<>\x60".toList.contains c

def encodedInPath (c : Char) : Bool :=
  encodedInFragment c || "#?\x7b\x7d".toList.contains c

def encodedInCredentials (c : Char) : Bool :=
  encodedInPath c || "/:;=@[\\]^|".toList.contains c

def encodedInQuery (c : Char) : Bool :=
  encodedEverywhere c || " \"#<>".toList.contains c

/-- The characters encoded in a query of one of the well-known schemes. -/
def encodedInSpecialQuery (c : Char) : Bool :=
  encodedInQuery c || c == '\x27'

def hexByte (b : UInt8) : List Char :=
  [(Nat.digitChar (b.toNat / 16)).toUpper, (Nat.digitChar (b.toNat % 16)).toUpper]

/-- A character, byte by byte. -/
def percentEncodeChar (c : Char) : List Char :=
  (String.utf8EncodeChar c).flatMap fun b => '%' :: hexByte b

def percentEncode (encoded : Char → Bool) (cs : List Char) : List Char :=
  cs.flatMap fun c => if encoded c then percentEncodeChar c else [c]

def hexValue? (c : Char) : Option Nat :=
  if Text.isDigit c then some (c.toNat - '0'.toNat)
  else if 'a' ≤ c ∧ c ≤ 'f' then some (c.toNat - 'a'.toNat + 10)
  else if 'A' ≤ c ∧ c ≤ 'F' then some (c.toNat - 'A'.toNat + 10)
  else none

/-- The bytes that a text stands for; a `%` that is not followed by two hexadecimal digits stands for
itself. -/
def percentDecode : List Char → List UInt8
  | [] => []
  | '%' :: a :: b :: rest =>
      match hexValue? a, hexValue? b with
      | some x, some y => UInt8.ofNat (16 * x + y) :: percentDecode rest
      | _, _ => 37 :: percentDecode (a :: b :: rest)
  | c :: rest => String.utf8EncodeChar c ++ percentDecode rest

end MacroReplay.Address
