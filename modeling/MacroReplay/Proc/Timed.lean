import MacroReplay.Calendar.Date
import MacroReplay.Duration
import MacroReplay.Proc.Basic

/-!
# Timed processes

A timed process over an interface can also read the clock, pause, ask whether a stop was requested,
and bound a call: by a time limit, and by the request to stop. A call or pause that heeds the stop
request is not begun once the stop was requested, and ends as soon as it is.
-/

namespace MacroReplay

/-- A fault inside a collaborator, with its text if it has one. -/
structure Fault where
  text : Option String
  deriving DecidableEq, Repr

inductive Outcome (ρ : Type) where
  /-- With a reply. -/
  | replied (r : ρ)
  /-- At its time limit. -/
  | expired
  /-- At the request to stop. -/
  | stopped
  /-- With a fault. -/
  | faulted (f : Fault)

structure Ending (ρ : Type) where
  took : Duration
  outcome : Outcome ρ

structure Rest where
  took : Duration
  /-- Whether the request to stop ended it. -/
  stopped : Bool
  deriving DecidableEq, Repr

structure Reading where
  /-- The time since some fixed moment. -/
  elapsed : Duration
  /-- Milliseconds since the start of 1970. -/
  epochMs : Int
  /-- The local date and time of day. -/
  date : Calendar.DateTime
  deriving DecidableEq, Repr

/-- Whether the clock can show the moment that is so far ahead: it counts its seconds in 63 bits. -/
def Reading.reaches (r : Reading) (ahead : Duration) : Bool :=
  (r.elapsed + ahead).wholeSeconds < Nat.pow 2 63

inductive Timed.Call (ι : Interface) where
  | clock
  | stopRequested
  | pause (d : Duration)
  | ask (c : ι.Call) (limit : Option Duration) (heedsStop : Bool)

abbrev Timed (ι : Interface) : Interface where
  Call := Timed.Call ι
  Reply
    | .clock => Reading
    | .stopRequested => Bool
    | .pause _ => Rest
    | .ask c _ _ => Ending (ι.Reply c)

namespace Timed

variable {ι : Interface}

def clock : Proc (Timed ι) Reading :=
  .call Call.clock .done

def stopRequested : Proc (Timed ι) Bool :=
  .call Call.stopRequested .done

/-- Pauses, unless a stop is requested. -/
def pause (d : Duration) : Proc (Timed ι) Rest :=
  .call (Call.pause d) .done

/-- Makes a call that ends at a time limit, if there is one, or when a stop is requested. -/
def ask (c : ι.Call) (limit : Option Duration) : Proc (Timed ι) (Ending (ι.Reply c)) :=
  .call (Call.ask c limit true) .done

/-- Makes a call and waits for its end, come what may. -/
def await (c : ι.Call) : Proc (Timed ι) (Ending (ι.Reply c)) :=
  .call (Call.ask c none false) .done

end Timed
end MacroReplay
