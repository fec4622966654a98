import MacroReplay.Text.Split

/-!
# Names in letters and digits

A name with characters outside ASCII is written with letters, digits and hyphens: first its own ASCII
characters, then, behind a hyphen, what it takes to insert the others, least first. Each insertion is a
number that counts the places and characters passed over, in digits of base 36 whose weights adapt to
the numbers before.
-/

namespace MacroReplay.Address.Domain.Punycode

def digitChar (d : Nat) : Char :=
  if d < 26 then Char.ofNat (0x61 + d) else Char.ofNat (0x30 + d - 26)

def digit? (c : Char) : Option Nat :=
  let n := c.toLower.toNat
  if 0x61 ≤ n ∧ n ≤ 0x7A then some (n - 0x61)
  else if 0x30 ≤ n ∧ n ≤ 0x39 then some (n - 0x30 + 26)
  else none

/-- The least digit that does not end a number at a place. -/
def threshold (place bias : Nat) : Nat :=
  if place ≤ bias then 1 else if bias + 26 ≤ place then 26 else place - bias

theorem one_le_threshold (place bias : Nat) : 1 ≤ threshold place bias := by
  unfold threshold
  split
  · omega
  · split <;> omega

/-- Scales a number down, and counts the places that this takes. -/
def scaleDown (delta places : Nat) : Nat × Nat :=
  if 455 < delta then scaleDown (delta / 35) (places + 36) else (delta, places)
termination_by delta
decreasing_by omega

/-- The bias for the next number. -/
def adapt (delta count : Nat) (isFirst : Bool) : Nat :=
  let delta := if isFirst then delta / 700 else delta / 2
  let (delta, places) := scaleDown (delta + delta / count) 0
  places + 36 * delta / (delta + 38)

/-! ## Writing -/

def writeNumber (bias place n : Nat) : List Char :=
  let t := threshold place bias
  if n < t then [digitChar n]
  else digitChar (t + (n - t) % (36 - t)) :: writeNumber bias (place + 36) ((n - t) / (36 - t))
termination_by n
decreasing_by
  have h := one_le_threshold place bias
  have : (n - threshold place bias) / (36 - threshold place bias) ≤ n - threshold place bias :=
    Nat.div_le_self _ _
  omega

structure Written where
  text : List Char
  delta : Nat
  bias : Nat
  /-- The number of characters written. -/
  count : Nat

/-- Looks at a character of the name when characters with number `m` are inserted. -/
def Written.see (basic m : Nat) (w : Written) (c : Char) : Written :=
  if c.toNat < m then { w with delta := w.delta + 1 }
  else if c.toNat = m then
    { text := w.text ++ writeNumber w.bias 36 w.delta
      delta := 0
      bias := adapt w.delta (w.count + 1) (w.count == basic)
      count := w.count + 1 }
  else w

/-- Inserts the characters of some numbers, given the least number that was not yet looked at. -/
def insertAll (name : List Char) (basic : Nat) : (numbers : List Nat) → Nat → Written → Written
  | [], _, w => w
  | m :: numbers, next, w =>
      let w := { w with delta := w.delta + (m - next) * (w.count + 1) }
      let w := name.foldl (Written.see basic m) w
      insertAll name basic numbers (m + 1) { w with delta := w.delta + 1 }

def encode (name : List Char) : List Char :=
  let basic := name.filter (·.toNat < 0x80)
  let others := ((name.filter (0x80 ≤ ·.toNat)).map Char.toNat).mergeSort.eraseDups
  let start := if basic.isEmpty then [] else basic ++ ['-']
  (insertAll name basic.length others 0x80 ⟨start, 0, 72, basic.length⟩).text

/-! ## Reading -/

/-- A number in digits, added to a total with a weight, from a place on; and what follows it. -/
def readNumber (bias : Nat) : (place total weight : Nat) → List Char → Option (Nat × List Char)
  | _, _, _, [] => none
  | place, total, weight, c :: cs =>
      match digit? c with
      | none => none
      | some d =>
          let t := threshold place bias
          if d < t then some (total + d * weight, cs)
          else readNumber bias (place + 36) (total + d * weight) (weight * (36 - t)) cs

/-- Reads insertions up to the end, given the name so far, and the number and the place of the next
character. -/
def readAll (fuel : Nat) (name : List Char) (next place bias : Nat) (isFirst : Bool)
    (cs : List Char) : Option (List Char) :=
  match fuel, cs with
  | _, [] => some name
  | 0, _ => none
  | fuel + 1, cs => do
      let (delta, rest) ← readNumber bias 36 0 1 cs
      let size := name.length + 1
      let next := next + (place + delta) / size
      let place := (place + delta) % size
      if ¬ next.isValidChar then none
      let name := name.take place ++ Char.ofNat next :: name.drop place
      readAll fuel name next (place + 1) (adapt delta size isFirst) false rest

def decode (cs : List Char) : Option (List Char) :=
  match Text.cutAtLast (· == '-') cs with
  | some (c :: basic, digits) => readAll digits.length (c :: basic) 0x80 0 72 true digits
  | _ => readAll cs.length [] 0x80 0 72 true cs

end MacroReplay.Address.Domain.Punycode
