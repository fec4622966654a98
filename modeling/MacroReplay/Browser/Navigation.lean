import MacroReplay.Address.Parse
import MacroReplay.Browser.Command

/-!
# Navigation commands

`URL`, `BACK`, `REFRESH`, `TAB` and `FRAME`.
-/

namespace MacroReplay.Browser

variable {χ : Interface}

/-- The time that a page may take to load; without one there is no limit. -/
def pageLimit (s : Store) : Option Duration :=
  ((s.numberOf "!TIMEOUT_PAGE").filter Number.isPositive).map Duration.ofSeconds

/-- Ends a navigation: `!URLCURRENT` becomes the address that the browser shows, or `fallback` if it
does not say. -/
def recordUrl (ctx : Context Backup) (fallback : String) : Doing χ :=
  awaited ctx .currentUrl fun reply =>
    let current : String := match reply with
      | .ok url => url
      | .error _ => fallback
    match ctx.memory.vars.set "!URLCURRENT" (.text current) with
    | .ok (_, vars) => ctx.finishWith vars .ok
    | .error e => ctx.fail (.variable e)

def gotoTarget (i : Invocation) : Except CommandError String := do
  let target ← i.required "GOTO"
  match Address.normalize target with
  | .ok url => .ok url
  | .error e => .error (.invalidParameter "GOTO" ("'" ++ target ++ "': " ++ e.message))

def urlHandler : BrowserHandler χ := fun ctx =>
  ctx.withValue (gotoTarget ctx.invocation) fun url =>
    let limit := pageLimit ctx.memory.vars
    let waitComplete := ctx.memory.vars.isYes "!WAITPAGECOMPLETE"
    bounded ctx limit (.navigate url (limit.getD .zero) waitComplete) fun _ => recordUrl ctx url

def backHandler : BrowserHandler χ := fun ctx =>
  bounded ctx (pageLimit ctx.memory.vars) .back fun _ => recordUrl ctx ""

def refreshHandler : BrowserHandler χ := fun ctx =>
  bounded ctx (pageLimit ctx.memory.vars) .refresh fun _ => ctx.finish .ok

def tabAction (i : Invocation) : Except CommandError TabAction :=
  match i.param? "T" with
  | some written =>
      match (Text.readNat? 4294967295 (Text.trim written)).filter (0 < ·) with
      | some n => .ok (.select n)
      | none => .error (.invalidParameter "T" ("'" ++ written ++ "' is not a tab number"))
  | none =>
      if i.hasFlag "CLOSEALLOTHERS" then .ok .closeAllOthers
      else if i.hasFlag "CLOSE" then .ok .close
      else if i.hasFlag "OPEN" then .ok .openNew
      else .error (.missingParameter "T")

def tabHandler : BrowserHandler χ := fun ctx =>
  ctx.withValue (tabAction ctx.invocation) fun action =>
    bounded ctx none (.tab action) fun _ => ctx.finish .ok

def frameTarget (i : Invocation) : Except CommandError FrameTarget :=
  match i.param? "F", i.param? "NAME" with
  | some written, _ =>
      match Text.readNat? 4294967295 (Text.trim written) with
      | some n => .ok (.index n)
      | none => .error (.invalidParameter "F" ("'" ++ written ++ "' is not a frame number"))
  | none, some name => .ok (.name name)
  | none, none => .error (.missingParameter "F")

def frameResult : Except BridgeError Unit → CommandResult
  | .ok _ => .ok
  | .error e => .ofError e.toCommandError

def frameHandler : BrowserHandler χ := fun ctx =>
  ctx.withValue (frameTarget ctx.invocation) fun target =>
    lookedUp ctx (.selectFrame target) frameResult ctx.finish

end MacroReplay.Browser
