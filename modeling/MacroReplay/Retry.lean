import MacroReplay.Command.Result
import MacroReplay.Proc.Timed
import MacroReplay.Variable.Store

/-!
# Retried lookups

A lookup whose failure may pass is tried again until it succeeds, fails for good, or its time budget
is used up. The first attempt is always made. An attempt may take what is left of the budget, or one
interval if that is longer; the pause before the next one is an interval, or what is left of the
budget if that is shorter.
-/

namespace MacroReplay

structure Pacing where
  /-- The pause between attempts. -/
  preferred : Duration
  /-- The shortest pause between attempts. -/
  least : Duration
  deriving DecidableEq, Repr

/-- The time that a retried lookup may take, and the pause between its attempts. -/
structure Budget where
  timeout : Duration
  interval : Duration
  deriving DecidableEq, Repr

namespace Pacing

/-- The pace of two pauses; the shortest is never longer than the preferred one. -/
def ofPauses (preferred least : Duration) : Pacing :=
  ⟨preferred, min least preferred⟩

/-- The pause between attempts when steps of some seconds are asked for. -/
def interval (p : Pacing) (step : Number) : Duration :=
  max (min p.preferred (Duration.ofSeconds step)) p.least

/-- The budget of as many seconds as a variable holds, in steps of `!TIMEOUT_STEP` seconds. -/
def budget (p : Pacing) (s : Store) (name : String) : Budget :=
  { timeout := Duration.ofSeconds ((s.numberOf name).getD (Number.zero false))
    interval := p.interval ((s.numberOf "!TIMEOUT_STEP").getD (Number.zero false)) }

def tagBudget (p : Pacing) (s : Store) : Budget :=
  p.budget s "!TIMEOUT_TAG"

end Pacing

namespace Retry

variable {ι : Interface}

/-- The result of a lookup that used up its budget: the last message, if there was one. -/
def timedOut (last : Option String) : CommandResult :=
  .failure .timeout (last.getD "Element not found")

def remember (last : Option String) (r : CommandResult) : Option String :=
  if r.text.isEmpty then last else r.message

/-- The attempts that a budget has room for, a pause between two of them being a nanosecond at least.
Without an interval a budget has room for any number, and the bound is this model's own, so that `retry`
has an end: lookups that take no time and keep failing go on for ever then, and the timeout that
`attempt` reports after 4294967295 of them is the outcome of no real run. -/
def attemptLimit (b : Budget) : Nat :=
  if b.interval.nanoseconds = 0 then 4294967295
  else b.timeout.nanoseconds + 1

/-- Makes at most `attempts` attempts, some time after the first one began. `judge` says what a reply
means. -/
def attempt (b : Budget) (c : ι.Call) (judge : ι.Reply c → CommandResult) :
    (attempts : Nat) → (elapsed : Duration) → (last : Option String) →
      Proc (Timed ι) (Except Fault CommandResult)
  | 0, _, last => .done (.ok (timedOut last))
  | attempts + 1, elapsed, last =>
      (Timed.ask c (some (max (b.timeout - elapsed) b.interval))).bind fun ending =>
        match ending.outcome with
        | .stopped => .done (.ok (.ofError .stopped))
        | .expired => .done (.ok (timedOut last))
        | .faulted f => .done (.error f)
        | .replied reply =>
            let result := judge reply
            if result.success || !result.code.isRetryable then .done (.ok result)
            else
              let last := remember last result
              let elapsed := elapsed + ending.took
              let remaining := b.timeout - elapsed
              if remaining.nanoseconds = 0 then .done (.ok (timedOut last))
              else
                (Timed.pause (min b.interval remaining)).bind fun rest =>
                  if rest.stopped then .done (.ok (.ofError .stopped))
                  else attempt b c judge attempts (elapsed + rest.took) last

end Retry

/-- Makes a call until its reply is judged a success or a failure for good, within a budget. -/
def retry {ι : Interface} (b : Budget) (c : ι.Call) (judge : ι.Reply c → CommandResult) :
    Proc (Timed ι) (Except Fault CommandResult) :=
  Retry.attempt b c judge (Retry.attemptLimit b) .zero none

end MacroReplay
