import MacroReplay.Text.Split

/-!
# Paths

A path is a list of names with slashes between them. It is absolute if it begins with a slash.
-/

namespace MacroReplay.Path

def isAbsolute (path : String) : Bool :=
  path.toList.head? == some '/'

/-- Whether a path ends with a slash, as only that of a folder may. -/
def endsInSlash (path : String) : Bool :=
  path.toList.getLast? == some '/'

/-- A path below another; an absolute one stays as it is. -/
def join (base path : String) : String :=
  if isAbsolute path || base.isEmpty then path
  else if endsInSlash base then base ++ path
  else base ++ "/" ++ path

def parts (path : String) : List String :=
  ((Text.splitAt (· == '/') path.toList).map String.ofList).filter fun name =>
    !name.isEmpty && name != "."

def fileName? (path : String) : Option String :=
  (parts path).getLast?.filter (· != "..")

/-- What remains of a path, from its end, once slashes and single dots behind its last name are gone. -/
def dropIdleEnd : List Char → List Char
  | '/' :: rest => dropIdleEnd rest
  | '.' :: '/' :: rest => dropIdleEnd rest
  | rest => rest

/-- A path whose last name has an ending more; there is none if it has no last name. -/
def withEnding? (path ending : String) : Option String :=
  if (fileName? path).isNone then none
  else some (String.ofList (dropIdleEnd path.toList.reverse).reverse ++ ending)

/-- A name cut at its last dot; a name whose only dot is its first character is not cut. -/
def cutName (name : String) : String × Option String :=
  match Text.cutAtLast (· == '.') name.toList with
  | some (c :: stem, extension) => (String.ofList (c :: stem), some (String.ofList extension))
  | _ => (name, none)

def stem? (path : String) : Option String :=
  (fileName? path).map fun name => (cutName name).1

/-- What follows the last dot of the last name of a path. -/
def extension? (path : String) : Option String :=
  (fileName? path).bind fun name => (cutName name).2

end MacroReplay.Path
