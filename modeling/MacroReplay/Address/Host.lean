import MacroReplay.Address.Domain
import MacroReplay.Address.Percent
import MacroReplay.Text.Split

/-!
# Hosts of addresses

A host is a domain name, a number address of four or eight parts, or a name that only some scheme
understands.
-/

namespace MacroReplay.Address

inductive Error where
  | emptyHost
  | invalidDomain
  | invalidPort
  | invalidIpv4
  | invalidIpv6
  | invalidHostCharacter
  /-- The text has no scheme. -/
  | relative
  deriving DecidableEq, Repr

def Error.message : Error → String
  | .emptyHost => "empty host"
  | .invalidDomain => "invalid international domain name"
  | .invalidPort => "invalid port number"
  | .invalidIpv4 => "invalid IPv4 address"
  | .invalidIpv6 => "invalid IPv6 address"
  | .invalidHostCharacter => "invalid domain character"
  | .relative => "relative URL without a base"

inductive Host where
  /-- A name, in the form in which it is written. -/
  | name (text : List Char)
  | ipv4 (n : Nat)
  /-- Eight numbers of 16 bits. -/
  | ipv6 (parts : List Nat)
  deriving DecidableEq, Repr

/-! ## Addresses of four parts -/

def digitsIn (base : Nat) (cs : List Char) : Option Nat :=
  cs.foldl (fun n? c => do
    let n ← n?
    let d ← hexValue? c
    if d < base then some (n * base + d) else none) (some 0)

/-- The number that a part writes: hexadecimal behind `0x`, octal behind another leading zero, else
decimal. -/
def ipv4Number (cs : List Char) : Option Nat :=
  match cs with
  | [] => none
  | '0' :: 'x' :: digits => digitsIn 16 digits
  | '0' :: 'X' :: digits => digitsIn 16 digits
  | '0' :: d :: digits => digitsIn 8 (d :: digits)
  | digits => digitsIn 10 digits

/-- The parts of a name between its dots; a dot at the end does not begin another. -/
def dottedParts (cs : List Char) : List (List Char) :=
  let parts := Text.splitAt (· == '.') cs
  if parts.getLast? = some [] then parts.dropLast else parts

/-- Whether the last part of a name is a number, so that the whole has to be a number address. -/
def endsInNumber (cs : List Char) : Bool :=
  match (dottedParts cs).getLast? with
  | none => false
  | some last => (!last.isEmpty && last.all Text.isDigit) || (ipv4Number last).isSome

/-- The value of the parts of a number address: every part but the last is one byte. -/
def ipv4Value : (place : Nat) → List Nat → Option Nat
  | _, [] => none
  | place, [last] => if last < Nat.pow 256 (4 - place) then some last else none
  | place, part :: rest =>
      if 255 < part then none
      else (ipv4Value (place + 1) rest).map fun n => part * Nat.pow 256 (3 - place) + n

def parseIpv4 (cs : List Char) : Except Error Host :=
  let parts := dottedParts cs
  if 4 < parts.length then .error .invalidIpv4
  else
    match (parts.mapM ipv4Number).bind (ipv4Value 0) with
    | some n => .ok (.ipv4 n)
    | none => .error .invalidIpv4

def renderIpv4 (n : Nat) : String :=
  ".".intercalate
    ([n / 16777216, n / 65536 % 256, n / 256 % 256, n % 256].map fun part => toString part)

/-! ## Addresses of eight parts -/

/-- The number that one to four hexadecimal digits write. -/
def ipv6Part? (cs : List Char) : Option Nat :=
  if cs.isEmpty || 4 < cs.length then none else digitsIn 16 cs

/-- The byte that decimal digits without leading zeros write. -/
def decimalByte? (cs : List Char) : Option Nat :=
  match cs with
  | [] => none
  | ['0'] => some 0
  | '0' :: _ => none
  | cs => if cs.all Text.isDigit then (digitsIn 10 cs).filter (· < 256) else none

/-- The two parts that four bytes with dots between them write. -/
def ipv6Tail? (cs : List Char) : Option (List Nat) :=
  match (Text.splitAt (· == '.') cs).mapM decimalByte? with
  | some [a, b, c, d] => some [a * 256 + b, c * 256 + d]
  | _ => none

/-- The parts of one side of `::`; only the very last may be written with dots. -/
def ipv6Side? (isLast : Bool) : List (List Char) → Option (List Nat)
  | [] => some []
  | [last] =>
      match ipv6Part? last with
      | some n => some [n]
      | none => if isLast then ipv6Tail? last else none
  | part :: rest => do
      let n ← ipv6Part? part
      let ns ← ipv6Side? isLast rest
      some (n :: ns)

/-- The parts written on one side of `::`; an empty side has none. -/
def ipv6Parts? (isLast : Bool) (cs : List Char) : Option (List Nat) :=
  if cs.isEmpty then some [] else ipv6Side? isLast (Text.splitAt (· == ':') cs)

/-- The eight parts that a text writes; `::` stands for one or more zeros. -/
def parseIpv6 (cs : List Char) : Except Error Host :=
  let parts? : Option (List Nat) :=
    match Text.cutAtText [':', ':'] cs with
    | none => (ipv6Parts? true cs).filter (·.length = 8)
    | some (before, after) => do
        let front ← ipv6Parts? false before
        let back ← ipv6Parts? true after
        if front.length + back.length < 8 then
          some (front ++ List.replicate (8 - front.length - back.length) 0 ++ back)
        else none
  match parts? with
  | some parts => .ok (.ipv6 parts)
  | none => .error .invalidIpv6

def zerosAtFront (parts : List Nat) : Nat :=
  (parts.takeWhile (· == 0)).length

/-- The longest run of at least two zeros, the first of those of equal length: its place and length. -/
def longestZeros : (place : Nat) → List Nat → Option (Nat × Nat)
  | _, [] => none
  | place, part :: rest =>
      let here := zerosAtFront (part :: rest)
      match longestZeros (place + 1) rest with
      | some (later, length) =>
          if length ≤ here then some (place, here) else some (later, length)
      | none => if 2 ≤ here then some (place, here) else none

def renderParts (parts : List Nat) : String :=
  ":".intercalate (parts.map fun n => String.ofList (Nat.toDigits 16 n))

def renderIpv6 (parts : List Nat) : String :=
  match longestZeros 0 parts with
  | none => renderParts parts
  | some (place, length) =>
      renderParts (parts.take place) ++ "::" ++ renderParts (parts.drop (place + length))

/-! ## Hosts -/

def Host.render : Host → String
  | .name text => String.ofList text
  | .ipv4 n => renderIpv4 n
  | .ipv6 parts => "[" ++ renderIpv6 parts ++ "]"

/-- The host in brackets that a text writes, if it begins with one. -/
def bracketed? (cs : List Char) : Option (Except Error Host) :=
  match cs with
  | '[' :: rest =>
      some (if rest.getLast? = some ']' then parseIpv6 rest.dropLast else .error .invalidIpv6)
  | _ => none

/-- The host of an address of a well-known scheme. -/
def parseHost (cs : List Char) : Except Error Host :=
  match bracketed? cs with
  | some result => result
  | none =>
      match Domain.toAscii? (percentDecode cs) with
      | none => .error .invalidDomain
      | some domain =>
          if domain.isEmpty then .error .emptyHost
          else if endsInNumber domain then parseIpv4 domain
          else .ok (.name domain)

def isForbiddenInHost (c : Char) : Bool :=
  "\x00\t\n\r #/:<>?@[\\]^|".toList.contains c

/-- The host of an address of any other scheme. -/
def parseOpaqueHost (cs : List Char) : Except Error Host :=
  match bracketed? cs with
  | some result => result
  | none =>
      if cs.any isForbiddenInHost then .error .invalidHostCharacter
      else .ok (.name (percentEncode encodedEverywhere cs))

end MacroReplay.Address
