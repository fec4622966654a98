import MacroReplay.Number.Text

/-!
# Tokens of the expression language

`tokenize` cuts an expression into numbers, quoted texts, names, operators, parentheses and commas.
A number is the longest run of digits and points, with an exponent if digits follow its mark. Inside a
quoted text a backslash takes the next character as it is.
-/

namespace MacroReplay.Expression

inductive Operator where
  | plus
  | minus
  | times
  | over
  | modulo
  | power
  deriving DecidableEq, Repr

def Operator.sign : Operator → Char
  | .plus => '+'
  | .minus => '-'
  | .times => '*'
  | .over => '/'
  | .modulo => '%'
  | .power => '^'

def Operator.ofSign? : Char → Option Operator
  | '+' => some .plus
  | '-' => some .minus
  | '*' => some .times
  | '/' => some .over
  | '%' => some .modulo
  | '^' => some .power
  | _ => none

inductive Token where
  | number (n : Number)
  | text (s : String)
  | name (s : String)
  | operator (o : Operator)
  | opening
  | closing
  | comma
  deriving DecidableEq

def Token.describe : Token → String
  | .number n => n.render
  | .text s => "'" ++ s ++ "'"
  | .name s => s
  | .operator o => String.singleton o.sign
  | .opening => "("
  | .closing => ")"
  | .comma => ","

inductive Error where
  | unexpectedChar (c : Char)
  | unterminatedText
  | malformedNumber (written : String)
  | unexpectedToken (t : Token)
  | unexpectedEnd
  | unknownFunction (name : String)
  | tooDeep (levels : Nat)
  | arity (name : String) (expected got : Nat)
  deriving DecidableEq

def Error.message : Error → String
  | .unexpectedChar c => "Unexpected character '" ++ String.singleton c ++ "'"
  | .unterminatedText => "Unterminated string literal"
  | .malformedNumber written => "Unexpected token " ++ written
  | .unexpectedToken t => "Unexpected token " ++ t.describe
  | .unexpectedEnd => "Unexpected end of expression"
  | .unknownFunction name => "Unknown function '" ++ name ++ "'"
  | .tooDeep levels => "Expression nested deeper than " ++ toString levels ++ " levels"
  | .arity name expected got =>
      "Function '" ++ name ++ "' expects " ++ toString expected ++ " argument(s), got " ++
        toString got

/-! ## Scanning -/

def isNumeric (c : Char) : Bool :=
  Text.isDigit c || c == '.'

def isNameStart (c : Char) : Bool :=
  Text.isLetter c || c == '_'

def isNameChar (c : Char) : Bool :=
  isNameStart c || Text.isDigit c || c == '.'

/-- The sign at the front of an exponent, and the rest. -/
def spanSign : List Char → List Char × List Char
  | '+' :: cs => (['+'], cs)
  | '-' :: cs => (['-'], cs)
  | cs => ([], cs)

/-- An exponent at the front, and the rest: its mark, an optional sign and at least one digit. -/
def spanExponent (cs : List Char) : List Char × List Char :=
  match cs with
  | [] => ([], [])
  | c :: tail =>
      if c == 'e' || c == 'E' then
        let (sign, digits) := spanSign tail
        if (digits.takeWhile Text.isDigit).isEmpty then ([], cs)
        else (c :: sign ++ digits.takeWhile Text.isDigit, digits.dropWhile Text.isDigit)
      else ([], cs)

/-- The contents of a quoted text behind its opening quote, and what follows the closing one. -/
def spanQuoted (quote : Char) : List Char → Option (List Char × List Char)
  | [] => none
  | ['\\'] => none
  | '\\' :: c :: cs => (spanQuoted quote cs).map fun (a, b) => (c :: a, b)
  | c :: cs =>
      if c == quote then some ([], cs) else (spanQuoted quote cs).map fun (a, b) => (c :: a, b)

theorem length_dropWhile_le (p : Char → Bool) (cs : List Char) :
    (cs.dropWhile p).length ≤ cs.length := by
  induction cs with
  | nil => simp
  | cons c cs ih =>
      simp only [List.dropWhile_cons]
      split
      · simp only [List.length_cons]; omega
      · simp

theorem length_spanSign_le (cs : List Char) : (spanSign cs).2.length ≤ cs.length := by
  unfold spanSign
  split <;> simp

theorem length_spanExponent_le (cs : List Char) : (spanExponent cs).2.length ≤ cs.length := by
  cases cs with
  | nil => simp [spanExponent]
  | cons c tail =>
      simp only [spanExponent]
      split
      · split
        · simp
        · have h := length_spanSign_le tail
          have h' := length_dropWhile_le Text.isDigit (spanSign tail).2
          simp only [List.length_cons]
          omega
      · simp

theorem length_afterNumber_le (cs : List Char) :
    (spanExponent (cs.dropWhile isNumeric)).2.length ≤ cs.length := by
  have h := length_spanExponent_le (cs.dropWhile isNumeric)
  have h' := length_dropWhile_le isNumeric cs
  omega

theorem length_spanQuoted_le (quote : Char) (cs : List Char) :
    ∀ body rest, spanQuoted quote cs = some (body, rest) → rest.length ≤ cs.length := by
  fun_induction spanQuoted quote cs with
  | case1 => simp
  | case2 => simp
  | case3 c cs ih =>
      intro body rest h
      simp only [Option.map_eq_some_iff] at h
      obtain ⟨⟨a, b⟩, hspan, heq⟩ := h
      have hle := ih a b hspan
      cases heq
      simp only [List.length_cons]
      omega
  | case4 c cs _ _ _ =>
      intro body rest h
      simp only [Option.some.injEq, Prod.mk.injEq] at h
      simp [← h.2]
  | case5 c cs _ _ _ ih =>
      intro body rest h
      simp only [Option.map_eq_some_iff] at h
      obtain ⟨⟨a, b⟩, hspan, heq⟩ := h
      have hle := ih a b hspan
      cases heq
      simp only [List.length_cons]
      omega

/-- The tokens that are a single character. -/
def single? (c : Char) : Option Token :=
  match c with
  | '(' => some .opening
  | ')' => some .closing
  | ',' => some .comma
  | c => (Operator.ofSign? c).map .operator

/-- The tokens of a list of characters, or the first thing in it that is none. -/
def tokenize : List Char → Except Error (List Token)
  | [] => .ok []
  | c :: cs =>
      if Text.isBlank c then tokenize cs
      else if isNumeric c then
        let written := c :: cs.takeWhile isNumeric ++ (spanExponent (cs.dropWhile isNumeric)).1
        match Number.readUnsigned false written with
        | none => .error (.malformedNumber (String.ofList written))
        | some n =>
            have := length_afterNumber_le cs
            (tokenize (spanExponent (cs.dropWhile isNumeric)).2).map (.number n :: ·)
      else if c == '"' || c == '\x27' then
        match h : spanQuoted c cs with
        | none => .error .unterminatedText
        | some (body, rest) =>
            have := length_spanQuoted_le c cs body rest h
            (tokenize rest).map (.text (String.ofList body) :: ·)
      else if isNameStart c then
        have := length_dropWhile_le isNameChar cs
        (tokenize (cs.dropWhile isNameChar)).map
          (.name (String.ofList (c :: cs.takeWhile isNameChar)) :: ·)
      else
        match single? c with
        | some t => (tokenize cs).map (t :: ·)
        | none => .error (.unexpectedChar c)
termination_by cs => cs.length
decreasing_by
  all_goals simp only [List.length_cons]
  all_goals omega

end MacroReplay.Expression
