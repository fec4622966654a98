import MacroReplay.Files.Basic
import MacroReplay.Files.Path

/-!
# Profiles in files
-/

namespace MacroReplay.Profile

/-- The path of a target; a relative one is below the folder for profiles, if there is one. -/
def resolve (folder : Option String) (target : String) : String :=
  match folder with
  | some folder => Path.join folder target
  | none => target

/-- Writes a profile at the end of the file of its target. -/
def store (folder : Option String) (target contents : String) : Proc Files Bool :=
  Files.append (resolve folder target) contents

end MacroReplay.Profile
