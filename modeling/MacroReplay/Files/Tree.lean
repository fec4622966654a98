import MacroReplay.Files.Basic
import MacroReplay.Files.Path

/-!
# Trees of files

Files held in memory, by the names on the way to each. A tree answers the calls on files the way a
file system does; paths are below the top of the tree.
-/

namespace MacroReplay

structure FileTree where
  /-- The contents of each file, by its names. -/
  files : List (List String × String)
  /-- The folders made so far, beside those on the way to a file. -/
  folders : List (List String)
  deriving DecidableEq, Repr

namespace FileTree

def empty : FileTree := ⟨[], []⟩

def ofFiles (files : List (String × String)) : FileTree :=
  { files := files.map fun (path, contents) => (Path.parts path, contents), folders := [] }

def find? (t : FileTree) (place : List String) : Option String :=
  (t.files.find? fun (names, _) => names == place).map Prod.snd

def isFolder (t : FileTree) (place : List String) : Bool :=
  place.isEmpty || t.folders.contains place ||
    t.files.any fun (names, _) => place.isPrefixOf names && names != place

/-- A name further down; two dots lead up. -/
def enter (place : List String) (name : String) : List String :=
  if name = ".." then place.dropLast else place ++ [name]

def walk (t : FileTree) (place : List String) : List String → Except FileError (List String)
  | [] => .ok place
  | name :: names =>
      if t.isFolder place then walk t (enter place name) names
      else if (t.find? place).isSome then .error .notFolder
      else .error .notFound

/-- Where a path leads to. Absolute paths are outside the tree. -/
def place (t : FileTree) (path : String) : Except FileError (List String) :=
  if Path.isAbsolute path then .error .notFound else t.walk [] (Path.parts path)

def load (t : FileTree) (path : String) : Except FileError String := do
  let place ← t.place path
  match t.find? place with
  | some contents => if Path.endsInSlash path then .error .notFolder else .ok contents
  | none => if t.isFolder place then .error .isFolder else .error .notFound

/-- Makes the folders that names lead to from a folder. -/
def makeFolders (t : FileTree) (place : List String) :
    List String → Option (FileTree × List String)
  | [] => some (t, place)
  | name :: names =>
      let next := enter place name
      if t.isFolder next then t.makeFolders next names
      else if (t.find? next).isSome then none
      else makeFolders { t with folders := next :: t.folders } next names

def put (t : FileTree) (place : List String) (contents : String) : FileTree :=
  match t.find? place with
  | none => { t with files := t.files ++ [(place, contents)] }
  | some _ =>
      { t with
        files := t.files.map fun (names, old) =>
          if names == place then (names, old ++ contents) else (names, old) }

/-- Writes at the end of the file at a path, unless a file stands where a folder is needed or the
other way round. -/
def append (t : FileTree) (path contents : String) : Option FileTree :=
  if Path.isAbsolute path || Path.endsInSlash path then none
  else do
    let names := Path.parts path
    let name ← names.getLast?
    let (t, folder) ← t.makeFolders [] names.dropLast
    let place := enter folder name
    if t.isFolder place then none else some (t.put place contents)

def answer (t : FileTree) : (c : Files.Call) → Files.Reply c × FileTree
  | .load path => ((t.load path).map fun contents => contents.toUTF8.toList, t)
  | .isFile path => ((t.load path).toOption.isSome, t)
  | .append path contents =>
      match t.append path contents with
      | some after => (true, after)
      | none => (false, t)

end FileTree
end MacroReplay
