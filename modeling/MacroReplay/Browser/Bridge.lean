import MacroReplay.Browser.Locator
import MacroReplay.Command.Result
import MacroReplay.Proc.Timed

/-!
# The bridge to a browser

The calls that the browser commands make. A host is a browser together with whatever else there is to
call.
-/

namespace MacroReplay.Browser

inductive BridgeError where
  | notFound (message : String)
  | notVisible (message : String)
  | timeout (message : String)
  | navigation (message : String)
  | unavailable (message : String)
  | protocol (message : String)
  deriving DecidableEq, Repr

namespace BridgeError

def message : BridgeError → String
  | .notFound message => "Element not found: " ++ message
  | .notVisible message => "Element not visible: " ++ message
  | .timeout message => "Bridge timeout: " ++ message
  | .navigation message => "Navigation failed: " ++ message
  | .unavailable message => "Bridge unavailable: " ++ message
  | .protocol message => message

def toCommandError (e : BridgeError) : CommandError :=
  match e with
  | .notFound _ => .elementNotFound e.message
  | .notVisible _ => .elementNotVisible e.message
  | .timeout _ => .timeout e.message
  | _ => .bridge e.message

end BridgeError

inductive Call where
  | navigate (url : String) (timeout : Duration) (waitComplete : Bool)
  | currentUrl
  | tag (l : Locator) (a : TagAction)
  | selectFrame (t : FrameTarget)
  | tab (a : TabAction)
  | refresh
  | back
  | proxySettings
  | applyProxy (p : ProxySettings)
  deriving DecidableEq, Repr

/-- What a call gives if it does not fail. -/
abbrev Call.Value : Call → Type
  | .currentUrl => String
  | .tag _ _ => Option String
  | .proxySettings => ProxySettings
  | _ => Unit

abbrev Bridge : Interface where
  Call := Call
  Reply c := Except BridgeError c.Value

/-- A browser, and whatever else there is to call. -/
abbrev Host (χ : Interface) : Interface :=
  Bridge.sum χ

end MacroReplay.Browser
