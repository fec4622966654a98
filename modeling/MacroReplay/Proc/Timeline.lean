import MacroReplay.Proc.Timed

/-!
# Timelines

A timed process played on a virtual clock that counts milliseconds. A world decides what becomes of
each call: how long it takes, what it replies and what it leaves behind. Nothing else takes time. A
timer ends at the first millisecond that is not before its end, and a call that ends exactly at its
limit is in time.

- `Timeline.turn` is how a call turns out if nobody requests a stop meanwhile
- `Timeline.proceed` plays a process up to a horizon
- `Timeline.resume` goes on with one that waited
-/

namespace MacroReplay

structure Answer (σ ρ : Type) where
  /-- The world while the call is under way. -/
  begun : σ
  /-- The milliseconds it takes; a call may never end. -/
  takes : Option Nat
  /-- The world when the call has ended. -/
  finished : σ
  /-- Whether a stop is requested when the call ends. -/
  raisesStop : Bool
  result : Except Fault ρ

structure World (ι : Interface) (σ : Type) where
  /-- What becomes of a call made at a moment. -/
  answer : σ → (now : Nat) → (c : ι.Call) → Answer σ (ι.Reply c)
  /-- What the clock shows at a moment. -/
  reading : (now : Nat) → Reading

structure Scene (σ : Type) where
  now : Nat
  stopRequested : Bool
  world : σ

namespace Timeline

variable {ι : Interface} {σ α : Type}

structure Turn (σ ρ : Type) where
  moment : Nat
  reply : ρ
  /-- The world from then on. -/
  world : σ
  raisesStop : Bool

/-- How a call turns out: the world while it is under way, and its end if it has one. -/
structure Course (σ ρ : Type) where
  begun : σ
  ends : Option (Turn σ ρ)

/-- A timer that is set further ahead than a clock can count is set thirty years ahead. -/
def timerMillis (d : Duration) : Nat :=
  if Nat.pow 2 63 ≤ d.wholeSeconds then 30 * 365 * 86400 * 1000 else d.toMillisUp

def atOnce {ρ : Type} (s : Scene σ) (reply : ρ) : Course σ ρ :=
  { begun := s.world, ends := some ⟨s.now, reply, s.world, false⟩ }

def outcomeOf {ρ : Type} : Except Fault ρ → Outcome ρ
  | .ok r => .replied r
  | .error f => .faulted f

def boundedEnd {ρ : Type} (now : Nat) (limit : Option Duration) (a : Answer σ ρ) :
    Option (Turn σ (Ending ρ)) :=
  let inTime (took : Nat) : Turn σ (Ending ρ) :=
    { moment := now + took, reply := ⟨.ofMillis took, outcomeOf a.result⟩,
      world := a.finished, raisesStop := a.raisesStop }
  let tooLate (took : Nat) : Turn σ (Ending ρ) :=
    { moment := now + took, reply := ⟨.ofMillis took, .expired⟩, world := a.begun,
      raisesStop := false }
  match a.takes, limit.map timerMillis with
  | some took, none => some (inTime took)
  | some took, some most => some (if took ≤ most then inTime took else tooLate most)
  | none, some most => some (tooLate most)
  | none, none => none

/-- How a call turns out if nobody requests a stop while it is under way. -/
def turn (w : World ι σ) (s : Scene σ) : (c : Timed.Call ι) → Course σ ((Timed ι).Reply c)
  | .clock => atOnce s (w.reading s.now)
  | .stopRequested => atOnce s s.stopRequested
  | .pause d =>
      if s.stopRequested then atOnce s ⟨.zero, true⟩
      else
        let took := timerMillis d
        { begun := s.world, ends := some ⟨s.now + took, ⟨.ofMillis took, false⟩, s.world, false⟩ }
  | .ask c limit heedsStop =>
      if heedsStop && s.stopRequested then atOnce s ⟨.zero, .stopped⟩
      else
        let a := w.answer s.world s.now c
        { begun := a.begun, ends := boundedEnd s.now limit a }

/-- The reply to a call that the request to stop ends after some milliseconds; a call that does not
heed the request has none. -/
def interruption (took : Nat) : (c : Timed.Call ι) → Option ((Timed ι).Reply c)
  | .clock => none
  | .stopRequested => none
  | .pause _ => some ⟨.ofMillis took, true⟩
  | .ask _ _ true => some ⟨.ofMillis took, .stopped⟩
  | .ask _ _ false => none

/-- A process that waits for the end of a call. -/
structure Waiting (ι : Interface) (σ α : Type) where
  call : Timed.Call ι
  next : (Timed ι).Reply call → Proc (Timed ι) α
  /-- When the call was made. -/
  since : Nat
  /-- Its end if nobody requests a stop. -/
  ends : Option (Turn σ ((Timed ι).Reply call))

inductive Status (ι : Interface) (σ α : Type) where
  | finished (a : α) (s : Scene σ)
  | waiting (p : Waiting ι σ α) (s : Scene σ)

/-- The moments before a horizon; without one, all of them. -/
def isBefore (moment : Nat) : Option Nat → Bool
  | none => true
  | some horizon => moment < horizon

def Turn.scene {ρ : Type} (t : Turn σ ρ) (stopRequested : Bool) : Scene σ :=
  { now := t.moment, stopRequested := stopRequested || t.raisesStop, world := t.world }

/-- The end of a call, if it comes before the horizon. -/
def dueBefore {ρ : Type} (horizon : Option Nat) (ends : Option (Turn σ ρ)) : Option (Turn σ ρ) :=
  ends.filter fun t => isBefore t.moment horizon

/-- Plays a process until it ends or waits for something that does not come before the horizon. -/
def proceed (w : World ι σ) (horizon : Option Nat) :
    Proc (Timed ι) α → Scene σ → Status ι σ α
  | .done a, s => .finished a s
  | .call c next, s =>
      let course := turn w s c
      match dueBefore horizon course.ends with
      | some t => proceed w horizon (next t.reply) (t.scene s.stopRequested)
      | none => .waiting ⟨c, next, s.now, course.ends⟩ { s with world := course.begun }

/-- Goes on with a process that waited, up to a horizon. If a stop was requested meanwhile, a call that
heeds it ends now. -/
def resume (w : World ι σ) (horizon : Option Nat) (p : Waiting ι σ α) (s : Scene σ) :
    Status ι σ α :=
  match (if s.stopRequested then interruption (s.now - p.since) p.call else none) with
  | some reply =>
      if isBefore s.now horizon then proceed w horizon (p.next reply) s else .waiting p s
  | none =>
      match dueBefore horizon p.ends with
      | some t => proceed w horizon (p.next t.reply) (t.scene s.stopRequested)
      | none => .waiting p s

end Timeline
end MacroReplay
