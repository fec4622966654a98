import MacroReplay.Proc.Basic

/-!
# Files

The calls that a program makes on files, and why they fail.
-/

namespace MacroReplay

inductive FileError where
  | notFound
  | notFolder
  | isFolder
  | notText
  | other (message : String)
  deriving DecidableEq, Repr

def FileError.message : FileError → String
  | .notFound => "No such file or directory (os error 2)"
  | .notFolder => "Not a directory (os error 20)"
  | .isFolder => "Is a directory (os error 21)"
  | .notText => "stream did not contain valid UTF-8"
  | .other message => message

inductive Files.Call where
  /-- Reads a file. -/
  | load (path : String)
  /-- Asks whether there is a file. -/
  | isFile (path : String)
  /-- Writes at the end of a file; the file and the folders on the way to it are made if need be. -/
  | append (path contents : String)
  deriving DecidableEq, Repr

abbrev Files : Interface where
  Call := Files.Call
  Reply
    | .load _ => Except FileError (List UInt8)
    | .isFile _ => Bool
    | .append _ _ => Bool

namespace Files

def load (path : String) : Proc Files (Except FileError (List UInt8)) :=
  .call (Call.load path) .done

def isFile (path : String) : Proc Files Bool :=
  .call (Call.isFile path) .done

def append (path contents : String) : Proc Files Bool :=
  .call (Call.append path contents) .done

def loadText (path : String) : Proc Files (Except FileError String) :=
  (load path).bind fun
    | .error e => .done (.error e)
    | .ok bytes =>
        match String.fromUTF8? ⟨bytes.toArray⟩ with
        | some text => .done (.ok text)
        | none => .done (.error .notText)

def failed (message : String) : (c : Call) → Files.Reply c
  | .load _ => .error (.other message)
  | .isFile _ => false
  | .append _ _ => false

end Files
end MacroReplay
