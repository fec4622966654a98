import MacroReplay.Address.Host
import MacroReplay.Text.Blank

/-!
# Addresses of pages

Reading and writing of addresses. The well-known schemes `http`, `https`, `ws`, `wss` and `ftp` have a
host and a path of segments, `file` has a path and perhaps a host, and of any other scheme it depends
on what follows the scheme. In a path `.` and `..` are resolved, except that nothing is taken away
from behind a drive letter such as `C:`.
-/

namespace MacroReplay.Address

/-! ## Schemes -/

inductive SchemeKind where
  | web
  | file
  | other
  deriving DecidableEq, Repr

def SchemeKind.isSpecial (k : SchemeKind) : Bool :=
  k != .other

/-- The port of a scheme if the address does not name one. -/
def defaultPort? (scheme : String) : Option Nat :=
  match scheme with
  | "http" => some 80
  | "ws" => some 80
  | "https" => some 443
  | "wss" => some 443
  | "ftp" => some 21
  | _ => none

def schemeKind (scheme : String) : SchemeKind :=
  if scheme == "file" then .file
  else if (defaultPort? scheme).isSome then .web
  else .other

def isSchemeChar (c : Char) : Bool :=
  Text.isLetter c || Text.isDigit c || c == '+' || c == '-' || c == '.'

/-- The scheme at the front of a text, in lower case, and what follows its colon. -/
def scheme? (cs : List Char) : Option (String × List Char) :=
  match Text.cutAt (· == ':') cs with
  | some (c :: scheme, rest) =>
      if Text.isLetter c && scheme.all isSchemeChar then
        some (String.ofList ((c :: scheme).map Char.toLower), rest)
      else none
  | _ => none

/-! ## Parts of an address -/

inductive Path where
  /-- A text without structure. -/
  | opaqueText (text : List Char)
  | segments (segs : List (List Char))
  deriving DecidableEq, Repr

structure Url where
  scheme : String
  /-- What stands before the `@`, in the form in which it is written. -/
  credentials : List Char
  /-- The host; an address without one has no `//`. -/
  host : Option Host
  port : Option Nat
  path : Path
  query : Option (List Char)
  fragment : Option (List Char)
  deriving DecidableEq, Repr

def Path.render : Path → List Char
  | .opaqueText text => text
  | .segments segs => segs.flatMap fun seg => '/' :: seg

/-- The text of an address. A path that would look like a host is kept apart by `/.`. -/
def Url.render (u : Url) : String :=
  let path := u.path.render
  let authority := match u.host with
    | some host =>
        let port := match u.port with
          | some n => ":" ++ toString n
          | none => ""
        "//" ++ String.ofList u.credentials ++ host.render ++ port
    | none => if ['/', '/'].isPrefixOf path then "/." else ""
  let query := match u.query with
    | some text => "?" ++ String.ofList text
    | none => ""
  let fragment := match u.fragment with
    | some text => "#" ++ String.ofList text
    | none => ""
  u.scheme ++ ":" ++ authority ++ String.ofList path ++ query ++ fragment

/-! ## Query and fragment -/

/-- The parts of a text before its query or fragment, its query and its fragment, as written. -/
def cutQuery (cs : List Char) : List Char × Option (List Char) × Option (List Char) :=
  let (body, fragment) := match Text.cutAt (· == '#') cs with
    | some (body, fragment) => (body, some fragment)
    | none => (cs, none)
  match Text.cutAt (· == '?') body with
  | some (body, query) => (body, some query, fragment)
  | none => (body, none, fragment)

/-- An address with the query and the fragment as written put into their form. -/
def Url.withQuery (u : Url) (kind : SchemeKind) (query fragment : Option (List Char)) : Url :=
  let inQuery := if kind.isSpecial then encodedInSpecialQuery else encodedInQuery
  { u with
    query := query.map (percentEncode inQuery)
    fragment := fragment.map (percentEncode encodedInFragment) }

/-! ## Paths -/

/-- A segment that stands for the same place. -/
def isSingleDot (seg : List Char) : Bool :=
  [".", "%2e"].contains (String.ofList (seg.map Char.toLower))

/-- A segment that stands for the place above. -/
def isDoubleDot (seg : List Char) : Bool :=
  ["..", ".%2e", "%2e.", "%2e%2e"].contains (String.ofList (seg.map Char.toLower))

/-- A drive letter: a letter and a colon, or a bar in its place. -/
def isDriveLetter : List Char → Bool
  | [c, d] => Text.isLetter c && (d == ':' || d == '|')
  | _ => false

/-- Segments, last first, without the last one; a drive letter stays. -/
def shorten : List (List Char) → List (List Char)
  | [] => []
  | last :: before => if isDriveLetter last then last :: before else before

/-- A segment as it is kept behind `before`: at the front of a file path the bar of a drive letter
becomes a colon. -/
def keptSegment (kind : SchemeKind) (before : List (List Char)) (seg : List Char) : List Char :=
  match seg with
  | [c, '|'] => if kind == .file && before.isEmpty && Text.isLetter c then [c, ':'] else seg
  | seg => seg

/-- Adds segments to those before them, last first. -/
def resolveSegments (kind : SchemeKind) (before : List (List Char)) :
    List (List Char) → List (List Char)
  | [] => before
  | seg :: rest =>
      let isLast := rest.isEmpty
      let encoded := percentEncode encodedInPath seg
      let after :=
        if isDoubleDot encoded then
          let shorter := shorten before
          if isLast then [] :: shorter else shorter
        else if isSingleDot encoded then if isLast then [] :: before else before
        else keptSegment kind before encoded :: before
      resolveSegments kind after rest

def isSlash (kind : SchemeKind) (c : Char) : Bool :=
  c == '/' || (c == '\\' && kind.isSpecial)

def parsePath (kind : SchemeKind) (cs : List Char) : List (List Char) :=
  (resolveSegments kind [] (Text.splitAt (isSlash kind) cs)).reverse

def dropSlash (kind : SchemeKind) (cs : List Char) : List Char :=
  match cs with
  | c :: rest => if isSlash kind c then rest else c :: rest
  | [] => []

/-- Segments of which the first is empty only if it is the only one. -/
def dropEmptyFront (segs : List (List Char)) : List (List Char) :=
  match segs.dropWhile (·.isEmpty) with
  | [] => [[]]
  | segs => segs

/-! ## Hosts and what surrounds them -/

/-- The authority at the front of a text, which ends before the path, and the rest. -/
def cutAuthority (kind : SchemeKind) (cs : List Char) : List Char × List Char :=
  (cs.takeWhile (!isSlash kind ·), cs.dropWhile (!isSlash kind ·))

/-- The credentials of an authority, and the rest of it. -/
def cutCredentials (cs : List Char) : Option (List Char) × List Char :=
  match Text.cutAtLast (· == '@') cs with
  | some (credentials, rest) => (some credentials, rest)
  | none => (none, cs)

/-- The form of credentials: name, password behind a colon unless it is empty, and `@` if there is
anything. -/
def credentialsText (written : List Char) : List Char :=
  let encode := percentEncode encodedInCredentials
  let text := match Text.cutAt (· == ':') written with
    | some (name, []) => encode name
    | some (name, password) => encode name ++ ':' :: encode password
    | none => encode written
  if text.isEmpty then [] else text ++ ['@']

/-- The host of an authority, and its port behind a colon outside brackets. -/
def cutPort (inBrackets : Bool) : List Char → List Char × Option (List Char)
  | [] => ([], none)
  | c :: cs =>
      if c == ':' && !inBrackets then ([], some cs)
      else
        let inBrackets := if c == '[' then true else if c == ']' then false else inBrackets
        let (host, port) := cutPort inBrackets cs
        (c :: host, port)

/-- The port that a text writes; without digits, or with the port of the scheme, there is none. -/
def parsePort (scheme : String) (cs : List Char) : Except Error (Option Nat) :=
  if cs.isEmpty then .ok none
  else if !cs.all Text.isDigit then .error .invalidPort
  else
    let n := Text.digitsValue cs
    if 65535 < n then .error .invalidPort
    else if defaultPort? scheme = some n then .ok none
    else .ok (some n)

/-- The host and the port of an authority, and what stands behind the port: a backslash ends it. -/
def parseHostPort (scheme : String) (cs : List Char) :
    Except Error (Host × Option Nat × List Char) := do
  let (written, port?) := cutPort false cs
  let special := (schemeKind scheme).isSpecial
  if special && written.isEmpty then .error .emptyHost
  else
    let host ← if special then parseHost written else parseOpaqueHost written
    match port? with
    | none => .ok (host, none, [])
    | some behind =>
        if written.isEmpty then .error .emptyHost
        else
          let port ← parsePort scheme (behind.takeWhile (· != '\\'))
          .ok (host, port, behind.dropWhile (· != '\\'))

/-! ## Whole addresses -/

/-- The address of a scheme that has a host, from behind the two slashes. `isMore` says whether a query
or a fragment follows. -/
def parseHosted (scheme : String) (cs : List Char) (isMore : Bool) : Except Error Url := do
  let kind := schemeKind scheme
  let (authority, rest) := cutAuthority kind cs
  let (credentials?, hostPort) := cutCredentials authority
  let credentials := credentialsText (credentials?.getD [])
  if credentials? = some [] ∧ hostPort = [] ∧ (isMore ∨ rest ≠ []) then .error .emptyHost
  else
    let (host, port, extra) ← parseHostPort scheme hostPort
    if host = .name [] ∧ credentials ≠ [] then .error .emptyHost
    else
      let path := if extra.isEmpty then dropSlash kind rest else extra ++ rest
      let segs := if kind == .other && rest.isEmpty && extra.isEmpty then [] else parsePath kind path
      .ok ⟨scheme, credentials, some host, port, .segments segs, none, none⟩

/-- The address of a file with a host and the path that a text writes. A path that begins with a drive
letter has no host. -/
def fileUrl (host : Host) (path : List Char) : Url :=
  let segs := parsePath .file path
  let host := if segs.head?.any isDriveLetter then .name [] else host
  ⟨"file", [], some host, none, .segments (dropEmptyFront segs), none, none⟩

/-- The host of a file that a text writes; the own machine has no name. -/
def parseFileHost (cs : List Char) : Except Error Host :=
  if cs.isEmpty then .ok (.name [])
  else do
    let host ← parseHost cs
    .ok (if host = .name "localhost".toList then .name [] else host)

/-- The address of a file, from behind the scheme. What stands in the place of a host may be a drive
letter. Where the host is left out, the slash behind its place is part of the path. -/
def parseFile (cs : List Char) : Except Error Url :=
  match cs with
  | a :: b :: rest =>
      if isSlash .file a && isSlash .file b then
        let (written, path) := cutAuthority .file rest
        if isDriveLetter written then .ok (fileUrl (.name []) rest)
        else do
          let host ← parseFileHost written
          .ok (fileUrl host (if host = .name [] then path else dropSlash .file path))
      else .ok (fileUrl (.name []) (dropSlash .file cs))
  | cs => .ok (fileUrl (.name []) (dropSlash .file cs))

/-- The address of a scheme that is not well known, from behind the scheme. -/
def parseOther (scheme : String) (cs : List Char) (isMore : Bool) : Except Error Url :=
  match cs with
  | '/' :: '/' :: rest => parseHosted scheme rest isMore
  | '/' :: rest => .ok ⟨scheme, [], none, none, .segments (parsePath .other rest), none, none⟩
  | cs => .ok ⟨scheme, [], none, none, .opaqueText (percentEncode encodedEverywhere cs), none, none⟩

def isTrimmed (c : Char) : Bool :=
  c.toNat ≤ 0x20

def isDropped (c : Char) : Bool :=
  c == '\t' || c == '\n' || c == '\r'

def cleaned (cs : List Char) : List Char :=
  (((cs.dropWhile isTrimmed).reverse.dropWhile isTrimmed).reverse).filter (!isDropped ·)

def parse (text : String) : Except Error Url :=
  match scheme? (cleaned text.toList) with
  | none => .error .relative
  | some (scheme, rest) => do
      let kind := schemeKind scheme
      let (body, query, fragment) := cutQuery rest
      let isMore := query.isSome || fragment.isSome
      let url ← match kind with
        | .file => parseFile body
        | .web => parseHosted scheme (body.dropWhile (isSlash .web)) isMore
        | .other => parseOther scheme body isMore
      .ok (url.withQuery kind query fragment)

/-- The address of a page that a user writes: without a scheme it is that of a web page. -/
def normalize (target : String) : Except Error String :=
  let target := Text.trim target
  match parse target with
  | .ok url => .ok url.render
  | .error .relative => (parse ("http://" ++ target)).map Url.render
  | .error e => .error e

end MacroReplay.Address
