import MacroReplay.Handler.Assign
import MacroReplay.Handler.Wait

/-!
# Built-in commands
-/

namespace MacroReplay.Registry

variable {ι : Interface} {μ : Type}

/-- The registry of the commands that need nothing but the variables and the clock. -/
def builtin : Registry ι μ :=
  ((empty.register "SET" Assign.setHandler).register "ADD" Assign.addHandler).register "WAIT"
    Wait.handler

end MacroReplay.Registry
