import MacroReplay.Address.Domain.Label

/-!
# Domain names

The ASCII form of a domain name: every character mapped, the whole in composed form, and every label
with characters outside ASCII in its written form.
-/

namespace MacroReplay.Address.Domain

def isForbidden (c : Char) : Bool :=
  c.toNat ≤ 0x20 || c.toNat == 0x7F || "%#/:<>?@[\\]^|".toList.contains c

def labels (cs : List Char) : List (List Char) :=
  Text.splitAt (· == '.') cs

def joinLabels (labels : List (List Char)) : List Char :=
  List.intercalate ['.'] labels

/-- Whether a domain name is in ASCII, with no label in the written form of another. -/
def isPlain (cs : List Char) : Bool :=
  isAscii cs && !((labels cs).any writtenMark.isPrefixOf)

def writeLabels? (ls : List (List Char)) : Option (List Char) := do
  let ls ← ls.mapM label?
  if ls.any hasRightToLeft && !ls.all followsDirection then none
  else some (joinLabels (ls.map writeLabel))

/-- The ASCII form of a domain name in which every character was mapped. -/
def writeMapped? (cs : List Char) : Option (List Char) :=
  if cs.any isForbidden then none
  else if isPlain cs then some cs
  else writeLabels? (labels cs)

/-- The ASCII form of the domain name that bytes encode. -/
def toAscii? (bytes : List UInt8) : Option (List Char) := do
  let text ← String.fromUTF8? ⟨bytes.toArray⟩
  if isAscii text.toList then writeMapped? (text.toList.map Char.toLower)
  else
    let images ← text.toList.mapM image?
    writeMapped? (Unicode.normalForm images.flatten)

end MacroReplay.Address.Domain
