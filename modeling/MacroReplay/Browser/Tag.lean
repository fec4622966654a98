import MacroReplay.Browser.Command

/-!
# The tag command

`TAG` locates an element, within the budget of lookups, and clicks it, fills it or reads from it.
-/

namespace MacroReplay.Browser

variable {χ : Interface}

/-- The text that a `CONTENT=` stands for: `EVAL(...)` is computed, `<SP>` is a space and `<BR>` a line
break. -/
def contentText (written : String) : String :=
  Text.replace "<BR>" "\n" (Text.replace "<SP>" " " (argumentValue written).render)

/-- The element that `TAG` asks for by kind and attributes. -/
def tagQuery (i : Invocation) : Except CommandError Query := do
  let pos ← i.required "POS"
  match Position.parse? pos with
  | none => .error (.invalidParameter "POS" ("'" ++ pos ++ "' is not a position"))
  | some position =>
      let kind ← i.required "TYPE"
      let (element, inputType) := Query.parseType kind
      let attr := (i.param? "ATTR").getD "*"
      match Query.parseAttributes? attr with
      | none => .error (.invalidParameter "ATTR" ("'" ++ attr ++ "' is not NAME:VALUE[&&...]"))
      | some attributes => .ok ⟨position, element, inputType, attributes⟩

def tagLocator (i : Invocation) : Except CommandError Locator :=
  match i.param? "XPATH", i.param? "SELECTOR" with
  | some path, _ => .ok (.xpath path)
  | none, some pattern => .ok (.selector pattern)
  | none, none => (tagQuery i).map .tag

def tagAction (i : Invocation) : Except CommandError TagAction :=
  match i.param? "CONTENT", i.param? "EXTRACT" with
  | some _, some _ => .error (.invalidParameter "CONTENT" "cannot be combined with EXTRACT")
  | some content, none => .ok (.fill (contentText content))
  | none, some kind => .ok (.extract (.parse kind))
  | none, none => .ok .click

def tagRequest (i : Invocation) : Except CommandError (Locator × TagAction) := do
  let locator ← tagLocator i
  let action ← tagAction i
  .ok (locator, action)

def tagResult : Except BridgeError (Option String) → CommandResult
  | .ok (some text) => .withOutput text
  | .ok none => .ok
  | .error e => .ofError e.toCommandError

def extractedText? (action : TagAction) (r : CommandResult) : Option String :=
  match action with
  | .extract _ => if r.success then r.output else none
  | _ => none

def tagHandler : BrowserHandler χ := fun ctx =>
  ctx.withValue (tagRequest ctx.invocation) fun (locator, action) =>
    lookedUp ctx (.tag locator action) tagResult fun result =>
      match extractedText? action result with
      | none => ctx.finish result
      | some text =>
          match ctx.memory.vars.set "!EXTRACT" (.text text) with
          | .ok (_, vars) => ctx.finishWith vars result
          | .error e => ctx.fail (.variable e)

end MacroReplay.Browser
