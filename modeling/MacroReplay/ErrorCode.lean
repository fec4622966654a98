/-!
# Result codes

Every command and every run ends with one of these codes. Their numbers are a contract with clients
and recorded scripts.
-/

namespace MacroReplay

inductive ErrorCode where
  | ok
  | stopped
  | syntaxError
  | missingParameter
  | invalidParameter
  | elementNotFound
  | elementNotVisible
  | timeout
  | downloadError
  | downloadTimeout
  | downloadFolderAccess
  | fileWriteError
  | datasourceError
  | datasourceEnd
  | scriptError
  deriving DecidableEq, Repr

namespace ErrorCode

def all : List ErrorCode :=
  [.ok, .stopped, .syntaxError, .missingParameter, .invalidParameter, .elementNotFound,
    .elementNotVisible, .timeout, .downloadError, .downloadTimeout, .downloadFolderAccess,
    .fileWriteError, .datasourceError, .datasourceEnd, .scriptError]

def value : ErrorCode → Int
  | .ok => 1
  | .stopped => -101
  | .syntaxError => -910
  | .missingParameter => -911
  | .invalidParameter => -912
  | .elementNotFound => -921
  | .elementNotVisible => -922
  | .timeout => -930
  | .downloadError => -940
  | .downloadTimeout => -941
  | .downloadFolderAccess => -942
  | .fileWriteError => -950
  | .datasourceError => -960
  | .datasourceEnd => -961
  | .scriptError => -1001

def ofValue? (n : Int) : Option ErrorCode :=
  all.find? fun code => code.value == n

def name : ErrorCode → String
  | .ok => "OK"
  | .stopped => "STOPPED"
  | .syntaxError => "SYNTAX_ERROR"
  | .missingParameter => "MISSING_PARAMETER"
  | .invalidParameter => "INVALID_PARAMETER"
  | .elementNotFound => "ELEMENT_NOT_FOUND"
  | .elementNotVisible => "ELEMENT_NOT_VISIBLE"
  | .timeout => "TIMEOUT"
  | .downloadError => "DOWNLOAD_ERROR"
  | .downloadTimeout => "DOWNLOAD_TIMEOUT"
  | .downloadFolderAccess => "DOWNLOAD_FOLDER_ACCESS"
  | .fileWriteError => "FILE_WRITE_ERROR"
  | .datasourceError => "DATASOURCE_ERROR"
  | .datasourceEnd => "DATASOURCE_END"
  | .scriptError => "SCRIPT_ERROR"

/-- A code as it is shown: its name and its number. -/
def describe (code : ErrorCode) : String :=
  code.name ++ " (" ++ toString code.value ++ ")"

def unknownMessage (n : Int) : String :=
  "unknown error code " ++ toString n

/-- A lookup that failed with such a code may succeed at a later attempt. -/
def isRetryable : ErrorCode → Bool
  | .elementNotFound => true
  | .elementNotVisible => true
  | _ => false

end ErrorCode
end MacroReplay
