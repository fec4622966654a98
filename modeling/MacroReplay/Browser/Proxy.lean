import MacroReplay.Browser.Command
import MacroReplay.Engine

/-!
# The proxy command

`PROXY` changes the proxy of the browser. Before the first change of a run the settings are saved, and
when the run ends they are put back.
-/

namespace MacroReplay.Browser

variable {χ : Interface}

namespace Backup

/-- Saves settings, unless some are saved already. -/
def save (b : Backup) (p : ProxySettings) : Backup :=
  match b with
  | some saved => some saved
  | none => some p

end Backup

def directWord : String := "__NONE__"

/-- The hosts of a `BYPASS=`, with commas between them; none for a blank text or `null`. -/
def parseBypass (written : Option String) : List String :=
  let list := Text.trim (written.getD "")
  if list.isEmpty || Text.sameLetters list "null" then []
  else ((Text.splitAt (· == ',') list.toList).map fun host => String.ofList (Text.trimChars host)).filter
    (!·.isEmpty)

/-- Whether an address is a host and a port, a scheme aside. -/
def isHostPort (address : List Char) : Bool :=
  let rest := match Text.cutAtText "://".toList address with
    | some (_, rest) => rest
    | none => address
  match Text.cutAtLast (· == ':') rest with
  | some (host, port) => !host.isEmpty && (Text.readNat? 65535 (String.ofList port)).isSome
  | none => false

/-- The settings that `ADDRESS=` and `BYPASS=` write. -/
def parseProxy (address : String) (bypass : Option String) : Except CommandError ProxySettings :=
  let address := Text.trim address
  if address.isEmpty || Text.sameLetters address directWord then .ok ⟨none, parseBypass bypass⟩
  else if isHostPort address.toList then .ok ⟨some address, parseBypass bypass⟩
  else .error (.invalidParameter "ADDRESS" ("'" ++ address ++ "' is not host:port"))

def proxyRequest (i : Invocation) : Except CommandError ProxySettings := do
  let address ← i.required "ADDRESS"
  parseProxy address (i.param? "BYPASS")

def changeProxy (ctx : Context Backup) (settings : ProxySettings) : Doing χ :=
  awaited ctx (.applyProxy settings) fun reply =>
    match reply with
    | .ok _ => ctx.finish .ok
    | .error e => ctx.fail e.toCommandError

def proxyHandler : BrowserHandler χ := fun ctx =>
  ctx.withValue (proxyRequest ctx.invocation) fun settings =>
    match ctx.memory.shared with
    | some _ => changeProxy ctx settings
    | none =>
        awaited ctx .proxySettings fun reply =>
          match reply with
          | .ok current =>
              let memory := { ctx.memory with shared := Backup.save ctx.memory.shared current }
              changeProxy { ctx with memory := memory } settings
          | .error e => ctx.fail e.toCommandError

/-- The hook that puts the saved settings back. -/
def restoreProxy : Hook (Host χ) Backup := fun backup =>
  match backup with
  | none => .done (.succeeded, none)
  | some saved =>
      (Timed.await (ι := Host χ) (Sum.inl (.applyProxy saved))).bind fun ending =>
        match ending.outcome with
        | .replied (.ok _) => .done (.succeeded, none)
        | .replied (.error _) => .done (.failed, none)
        | .faulted _ => .done (.faulted, none)
        | .expired => .done (.failed, none)
        | .stopped => .done (.failed, none)

end MacroReplay.Browser
