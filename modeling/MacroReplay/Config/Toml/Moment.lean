import MacroReplay.Calendar.Date
import MacroReplay.Text.Ascii

/-!
# Dates and times in TOML

A moment is a date, a time of day, or both, and then it may say how far its clock is from that of
Greenwich. As a setting it is a text in one canonical form.

- `Moment.read` reads a moment at the front of a text
- `Moment.render` writes it
-/

namespace MacroReplay.Config.Toml

structure Day where
  year : Nat
  month : Nat
  day : Nat
  deriving DecidableEq, Repr

/-- A time of day. The fraction of its second is given by decimal digits. -/
structure Clock where
  hour : Nat
  minute : Nat
  second : Nat
  fraction : List Char
  deriving DecidableEq, Repr

/-- How far a clock is from that of Greenwich. -/
inductive Zone where
  | greenwich
  /-- So many minutes ahead. -/
  | ahead (minutes : Int)
  deriving DecidableEq, Repr

inductive Moment where
  | day (d : Day)
  | clock (t : Clock)
  | both (d : Day) (t : Clock) (z : Option Zone)
  deriving DecidableEq, Repr

/-! ## Reading -/

/-- The value of exactly so many digits within bounds, and what follows. -/
def readField (width least greatest : Nat) (cs : List Char) : Option (Nat × List Char) :=
  let digits := cs.take width
  let n := Text.digitsValue digits
  if digits.length = width && digits.all Text.isDigit && least ≤ n && n ≤ greatest then
    some (n, cs.drop width)
  else none

def afterMark (mark : Char) : List Char → Option (List Char)
  | c :: rest => if c == mark then some rest else none
  | [] => none

def Day.read (cs : List Char) : Option (Day × List Char) := do
  let (year, rest) ← readField 4 0 9999 cs
  let rest ← afterMark '-' rest
  let (month, rest) ← readField 2 1 12 rest
  let rest ← afterMark '-' rest
  let (day, rest) ← readField 2 1 (Calendar.daysInMonth year month) rest
  some (⟨year, month, day⟩, rest)

/-- The fraction of a second, of which nine digits count, and what follows. -/
def readSecondFraction (cs : List Char) : List Char × List Char :=
  match cs with
  | '.' :: rest =>
      let digits := rest.takeWhile Text.isDigit
      if digits.isEmpty then ([], cs) else (digits.take 9, rest.drop digits.length)
  | cs => ([], cs)

def Clock.read (cs : List Char) : Option (Clock × List Char) := do
  let (hour, rest) ← readField 2 0 23 cs
  let rest ← afterMark ':' rest
  let (minute, rest) ← readField 2 0 59 rest
  let rest ← afterMark ':' rest
  let (second, rest) ← readField 2 0 60 rest
  let (fraction, rest) := readSecondFraction rest
  some (⟨hour, minute, second, fraction⟩, rest)

/-- Hours and minutes as minutes, and what follows. -/
def readShift (cs : List Char) : Option (Int × List Char) := do
  let (hours, rest) ← readField 2 0 23 cs
  let rest ← afterMark ':' rest
  let (minutes, rest) ← readField 2 0 59 rest
  some (hours * 60 + minutes, rest)

def Zone.read (cs : List Char) : Option (Zone × List Char) :=
  match cs with
  | 'Z' :: rest => some (.greenwich, rest)
  | 'z' :: rest => some (.greenwich, rest)
  | '+' :: rest => (readShift rest).map fun (minutes, rest) => (.ahead minutes, rest)
  | '-' :: rest => (readShift rest).map fun (minutes, rest) => (.ahead (-minutes), rest)
  | _ => none

def isDayEnd (c : Char) : Bool :=
  c == 'T' || c == 't' || c == ' '

/-- The time that follows a day. -/
def readAfterDay (cs : List Char) : Option (Clock × List Char) :=
  match cs with
  | c :: rest => if isDayEnd c then Clock.read rest else none
  | [] => none

def Moment.read (cs : List Char) : Option (Moment × List Char) :=
  match Day.read cs with
  | none => (Clock.read cs).map fun (t, rest) => (.clock t, rest)
  | some (d, rest) =>
      match readAfterDay rest with
      | none => some (.day d, rest)
      | some (t, rest) =>
          match Zone.read rest with
          | none => some (.both d t none, rest)
          | some (z, rest) => some (.both d t (some z), rest)

/-! ## Writing -/

def padded (width n : Nat) : List Char :=
  let digits := Nat.toDigits 10 n
  List.replicate (width - digits.length) '0' ++ digits

def Day.render (d : Day) : List Char :=
  padded 4 d.year ++ '-' :: padded 2 d.month ++ '-' :: padded 2 d.day

/-- The text of a time of day. Zeros at the end of the fraction are left out. -/
def Clock.render (t : Clock) : List Char :=
  let fraction := (t.fraction.reverse.dropWhile (· == '0')).reverse
  padded 2 t.hour ++ ':' :: padded 2 t.minute ++ ':' :: padded 2 t.second ++
    (if fraction.isEmpty then [] else '.' :: fraction)

def Zone.render : Zone → List Char
  | .greenwich => ['Z']
  | .ahead minutes =>
      let size := minutes.natAbs
      (if minutes < 0 then '-' else '+') :: padded 2 (size / 60) ++ ':' :: padded 2 (size % 60)

def Moment.render : Moment → String
  | .day d => String.ofList d.render
  | .clock t => String.ofList t.render
  | .both d t z => String.ofList (d.render ++ 'T' :: t.render ++ (z.map Zone.render).getD [])

end MacroReplay.Config.Toml
