import MacroReplay.Proc.Basic

/-!
# Cleanup hooks

Hooks run once when a run ends, in the order of their registration, whatever the outcome. A hook that
fails does not keep the next one from running.
-/

namespace MacroReplay

inductive HookReport where
  | succeeded
  | failed
  | faulted
  deriving DecidableEq, Repr

/-- Hooks by name, and whether they ran since the last reset. -/
structure Cleanup (η : Type) where
  hooks : List (String × η)
  ran : Bool

namespace Cleanup

variable {η μ : Type} {ι : Interface}

def empty : Cleanup η := ⟨[], false⟩

def contains (c : Cleanup η) (name : String) : Bool :=
  c.hooks.any (·.1 == name)

/-- Registers a hook, unless there is one of this name already. -/
def register (c : Cleanup η) (name : String) (hook : η) : Cleanup η :=
  if c.contains name then c else { c with hooks := c.hooks ++ [(name, hook)] }

def find? (c : Cleanup η) (name : String) : Option η :=
  (c.hooks.find? (·.1 == name)).map (·.2)

def names (c : Cleanup η) : List String :=
  c.hooks.map (·.1)

def reset (c : Cleanup η) : Cleanup η :=
  { c with ran := false }

/-- Runs hooks one after another; ends with the number of failures. -/
def invokeAll (invoke : String → η → μ → Proc ι (HookReport × μ)) :
    List (String × η) → μ → (failures : Nat) → Proc ι (Nat × μ)
  | [], m, failures => .done (failures, m)
  | (name, hook) :: hooks, m, failures =>
      (invoke name hook m).bind fun (report, m) =>
        invokeAll invoke hooks m (if report = .succeeded then failures else failures + 1)

/-- Runs all hooks, unless they ran since the last reset. -/
def runAll (c : Cleanup η) (invoke : String → η → μ → Proc ι (HookReport × μ)) (m : μ) :
    Proc ι (Nat × μ × Cleanup η) :=
  if c.ran then .done (0, m, c)
  else
    (invokeAll invoke c.hooks m 0).bind fun (failures, m) =>
      .done (failures, m, { c with ran := true })

end Cleanup
end MacroReplay
