import MacroReplay.ErrorCode
import MacroReplay.Variable.Rule

/-!
# Results of commands

A command succeeds or fails with a code. `CommandError` lists the causes of failure, `CommandResult`
is what a run sees of them.
-/

namespace MacroReplay

inductive CommandError where
  | missingParameter (name : String)
  | invalidParameter (name reason : String)
  | variable (e : Variable.Error)
  | elementNotFound (message : String)
  | elementNotVisible (message : String)
  | timeout (message : String)
  | datasource (message : String)
  | datasourceEnd
  | download (message : String)
  | fileWrite (message : String)
  | stopped
  | bridge (message : String)
  | internal (message : String)
  deriving DecidableEq, Repr

namespace CommandError

def message : CommandError → String
  | .missingParameter name => "Missing parameter: " ++ name
  | .invalidParameter name reason => "Invalid parameter " ++ name ++ ": " ++ reason
  | .variable e => e.message
  | .elementNotFound message => message
  | .elementNotVisible message => message
  | .timeout message => message
  | .datasource message => "Datasource error: " ++ message
  | .datasourceEnd => "End of datasource reached"
  | .download message => "Download failed: " ++ message
  | .fileWrite message => "File write failed: " ++ message
  | .stopped => "Macro stopped"
  | .bridge message => message
  | .internal message => message

def code : CommandError → ErrorCode
  | .missingParameter _ => .missingParameter
  | .invalidParameter _ _ => .invalidParameter
  | .variable _ => .invalidParameter
  | .elementNotFound _ => .elementNotFound
  | .elementNotVisible _ => .elementNotVisible
  | .timeout _ => .timeout
  | .datasource _ => .datasourceError
  | .datasourceEnd => .datasourceEnd
  | .download _ => .downloadError
  | .fileWrite _ => .fileWriteError
  | .stopped => .stopped
  | .bridge _ => .scriptError
  | .internal _ => .scriptError

end CommandError

structure CommandResult where
  success : Bool
  code : ErrorCode
  message : Option String
  output : Option String
  deriving DecidableEq, Repr

namespace CommandResult

def ok : CommandResult := ⟨true, .ok, none, none⟩

def withOutput (output : String) : CommandResult := ⟨true, .ok, none, some output⟩

def failure (code : ErrorCode) (message : String) : CommandResult := ⟨false, code, some message, none⟩

def ofError (e : CommandError) : CommandResult := failure e.code e.message

def text (r : CommandResult) : String := r.message.getD ""

end CommandResult
end MacroReplay
