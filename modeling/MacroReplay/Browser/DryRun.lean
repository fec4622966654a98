import MacroReplay.Browser.Bridge
import MacroReplay.Text.Quoted

/-!
# Dry runs

A stand-in for a browser: it notes every action, finds every element, and reads the text of the locator
from it.
-/

namespace MacroReplay.Browser

def ExtractKind.describe : ExtractKind → String
  | .text => "Text"
  | .html => "Html"
  | .href => "Href"
  | .title => "Title"
  | .alt => "Alt"
  | .attribute name => "Attribute(" ++ Text.quoted name ++ ")"

def FrameTarget.describe : FrameTarget → String
  | .index n => "Index(" ++ toString n ++ ")"
  | .name text => "Name(" ++ Text.quoted text ++ ")"

def TabAction.describe : TabAction → String
  | .select n => "Select(" ++ toString n ++ ")"
  | .openNew => "Open"
  | .close => "Close"
  | .closeAllOthers => "CloseAllOthers"

structure DryRun where
  /-- The addresses visited, last first. -/
  history : List String
  proxy : ProxySettings
  /-- The actions so far, last first. -/
  actions : List String
  deriving DecidableEq, Repr

namespace DryRun

def start : DryRun := ⟨[], .direct, []⟩

def note (s : DryRun) (action : String) : DryRun :=
  { s with actions := action :: s.actions }

def blankPage : String := "about:blank"

def navigateNote (url : String) (timeout : Duration) (waitComplete : Bool) : String :=
  "navigate " ++ url ++ " (timeout " ++ toString timeout.wholeSeconds ++ "s, wait_complete " ++
    toString waitComplete ++ ")"

/-- What is done with an element, and what is read from it. -/
def onElement (s : DryRun) (l : Locator) : TagAction → Option String × DryRun
  | .click => (none, s.note ("click " ++ l.describe))
  | .fill content => (none, s.note ("fill " ++ l.describe ++ " with " ++ Text.quoted content))
  | .extract kind =>
      (some l.describe, s.note ("extract " ++ kind.describe ++ " from " ++ l.describe))

/-- What a call gives, and the state after it. -/
def answer (s : DryRun) : (c : Call) → c.Value × DryRun
  | .navigate url timeout waitComplete =>
      ((), { s.note (navigateNote url timeout waitComplete) with history := url :: s.history })
  | .currentUrl => (s.history.head?.getD blankPage, s)
  | .tag l a => s.onElement l a
  | .selectFrame target => ((), s.note ("frame " ++ target.describe))
  | .tab action => ((), s.note ("tab " ++ action.describe))
  | .refresh => ((), s.note "refresh")
  | .back => ((), { s.note "back" with history := s.history.drop 1 })
  | .proxySettings => (s.proxy, s)
  | .applyProxy p => ((), { s.note ("proxy " ++ p.describe) with proxy := p })

end DryRun
end MacroReplay.Browser
