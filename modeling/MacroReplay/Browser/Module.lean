import MacroReplay.Browser.Navigation
import MacroReplay.Browser.Proxy
import MacroReplay.Browser.Tag

/-!
# The browser commands together
-/

namespace MacroReplay.Browser

variable {χ : Interface}

def restoreHookName : String := "browser.proxy-restore"

def handlers : List (String × BrowserHandler χ) :=
  [("URL", urlHandler), ("BACK", backHandler), ("REFRESH", refreshHandler), ("TAB", tabHandler),
    ("FRAME", frameHandler), ("TAG", tagHandler), ("PROXY", proxyHandler)]

/-- An engine with the browser commands beside its own. -/
def install (e : Engine (Host χ) Backup) : Engine (Host χ) Backup :=
  { e with
    registry := handlers.foldl (fun r (name, h) => r.register name h) e.registry
    cleanup := e.cleanup.register restoreHookName restoreProxy }

end MacroReplay.Browser
