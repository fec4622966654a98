import MacroReplay.Expression.Token
import MacroReplay.Expression.Tree
import MacroReplay.Text.Split

/-!
# The grammar of expressions

    expression := product (('+' | '-') product)*
    product    := operand (('*' | '/' | '%') operand)*
    operand    := ('-' | '+') operand | primary ('^' operand)?
    primary    := NUMBER | TEXT | NAME '(' arguments? ')' | '(' expression ')'

Every rule takes the tokens from the front of a list and gives a tree with the tokens that are left,
which are fewer. Operands nest at most `levelLimit` deep; the rules for the levels below are handed to
each rule as the parser of its operands.
-/

namespace MacroReplay.Expression

/-- How deep operands may nest. -/
def levelLimit : Nat := 256

/-- A tree read from the front of `ts`, and the tokens left. -/
structure Parsed (ts : List Token) where
  tree : Tree
  rest : List Token
  shorter : rest.length < ts.length

/-- A tree continued with tokens from the front of `ts`, possibly none. -/
structure Continued (ts : List Token) where
  tree : Tree
  rest : List Token
  notLonger : rest.length ≤ ts.length

structure Arguments (ts : List Token) where
  trees : List Tree
  rest : List Token
  shorter : rest.length < ts.length

abbrev Rule := (ts : List Token) → Except Error (Parsed ts)

def sumOperator? : Token → Option Binary
  | .operator .plus => some .add
  | .operator .minus => some .sub
  | _ => none

def productOperator? : Token → Option Binary
  | .operator .times => some .mul
  | .operator .over => some .div
  | .operator .modulo => some .rem
  | _ => none

/-- As many `(operator operand)` as follow, grouped to the left. -/
def chain (operator? : Token → Option Binary) (operand : Rule) (left : Tree) :
    (ts : List Token) → Except Error (Continued ts)
  | [] => .ok ⟨left, [], Nat.le_refl _⟩
  | t :: ts =>
      match operator? t with
      | none => .ok ⟨left, t :: ts, Nat.le_refl _⟩
      | some op =>
          match operand ts with
          | .error e => .error e
          | .ok right =>
              have := right.shorter
              match chain operator? operand (.binary op left right.tree) right.rest with
              | .error e => .error e
              | .ok more =>
                  .ok ⟨more.tree, more.rest, by
                    have := more.notLonger
                    simp only [List.length_cons]
                    omega⟩
termination_by ts => ts.length

/-- An operand followed by a chain of operators and operands. -/
def chained (operator? : Token → Option Binary) (operand : Rule) : Rule := fun ts =>
  match operand ts with
  | .error e => .error e
  | .ok first =>
      match chain operator? operand first.tree first.rest with
      | .error e => .error e
      | .ok all =>
          .ok ⟨all.tree, all.rest, Nat.lt_of_le_of_lt all.notLonger first.shorter⟩

def product (operand : Rule) : Rule :=
  chained productOperator? operand

def expression (operand : Rule) : Rule :=
  chained sumOperator? (product operand)

/-- The error for a token where another one has to stand. -/
def unexpected : List Token → Error
  | [] => .unexpectedEnd
  | t :: _ => .unexpectedToken t

def arguments (argument : Rule) (ts : List Token) : Except Error (Arguments ts) :=
  match argument ts with
  | .error e => .error e
  | .ok first =>
      match h : first.rest with
      | .comma :: rest =>
          have shorter : rest.length < ts.length := by
            have := first.shorter
            rw [h, List.length_cons] at this
            omega
          match arguments argument rest with
          | .error e => .error e
          | .ok more =>
              .ok ⟨first.tree :: more.trees, more.rest, Nat.lt_trans more.shorter shorter⟩
      | _ => .ok ⟨[first.tree], first.rest, first.shorter⟩
termination_by ts.length

/-! ## Functions -/

/-- The name of a function without the prefix it may be written with, in lower case. -/
def bareName (name : String) : String :=
  let cs := name.toList
  if "Math.".toList.isPrefixOf cs || "math.".toList.isPrefixOf cs then
    Text.lower (String.ofList (cs.drop 5))
  else Text.lower name

def Function.ofName? : String → Option Function
  | "floor" => some .floor
  | "ceil" => some .ceil
  | "round" => some .round
  | "abs" => some .abs
  | "sqrt" => some .sqrt
  | _ => none

def call (name : String) (args : List Tree) : Except Error Tree :=
  let bare := bareName name
  if bare = "concat" then .ok (Tree.joinAll args)
  else
    match Function.ofName? bare, args with
    | none, _ => .error (.unknownFunction name)
    | some f, [arg] => .ok (.apply f arg)
    | some _, args => .error (.arity bare 1 args.length)

/-! ## Operands -/

/-- The tokens behind a closing parenthesis. -/
def closed (ts : List Token) : Except Error { rest : List Token // rest.length < ts.length } :=
  match ts with
  | .closing :: rest => .ok ⟨rest, by simp⟩
  | ts => .error (unexpected ts)

/-- A call behind the name and its opening parenthesis. -/
def callBody (operand : Rule) (name : String) (ts : List Token) : Except Error (Parsed ts) :=
  match ts with
  | .closing :: rest => (call name []).map fun tree => ⟨tree, rest, by simp⟩
  | ts =>
      match arguments (expression operand) ts with
      | .error e => .error e
      | .ok args =>
          match closed args.rest with
          | .error e => .error e
          | .ok rest =>
              (call name args.trees).map fun tree =>
                ⟨tree, rest.val, Nat.lt_trans rest.property args.shorter⟩

/-- A number, a text, a call or an expression in parentheses. -/
def primary (operand : Rule) : Rule
  | [] => .error .unexpectedEnd
  | .number n :: ts => .ok ⟨.number n, ts, by simp⟩
  | .text s :: ts => .ok ⟨.text s, ts, by simp⟩
  | .opening :: ts =>
      match expression operand ts with
      | .error e => .error e
      | .ok inner =>
          (closed inner.rest).map fun rest =>
            ⟨inner.tree, rest.val, Nat.lt_succ_of_lt (Nat.lt_trans rest.property inner.shorter)⟩
  | .name s :: .opening :: ts =>
      (callBody operand s ts).map fun body =>
        ⟨body.tree, body.rest, Nat.lt_succ_of_lt (Nat.lt_succ_of_lt body.shorter)⟩
  | .name _ :: ts => .error (unexpected ts)
  | t :: _ => .error (.unexpectedToken t)

/-- The exponent behind a primary, if there is one. -/
def raised (operand : Rule) {ts : List Token} (base : Parsed ts) : Except Error (Parsed ts) :=
  match h : base.rest with
  | .operator .power :: rest =>
      (operand rest).map fun r =>
        ⟨.binary .pow base.tree r.tree, r.rest, by
          have := base.shorter
          have := r.shorter
          rw [h, List.length_cons] at *
          omega⟩
  | _ => .ok base

/-- An operand that may nest `levels` deep: signs bind looser than the power, and the exponent of a
power is an operand again. -/
def operand : (levels : Nat) → Rule
  | 0, _ => .error (.tooDeep levelLimit)
  | levels + 1, .operator .minus :: ts =>
      (operand levels ts).map fun r => ⟨.negative r.tree, r.rest, Nat.lt_succ_of_lt r.shorter⟩
  | levels + 1, .operator .plus :: ts =>
      (operand levels ts).map fun r => ⟨.positive r.tree, r.rest, Nat.lt_succ_of_lt r.shorter⟩
  | levels + 1, ts =>
      match primary (operand levels) ts with
      | .error e => .error e
      | .ok base => raised (operand levels) base

def parse (ts : List Token) : Except Error Tree :=
  match expression (operand levelLimit) ts with
  | .error e => .error e
  | .ok r =>
      match r.rest with
      | [] => .ok r.tree
      | t :: _ => .error (.unexpectedToken t)

/-! ## Evaluation -/

/-- The value of an expression under an interpretation of arithmetic, or why it has none. -/
def evaluateWith? (arith : Arithmetic) (text : String) : Except Error Value :=
  match tokenize text.toList with
  | .error e => .error e
  | .ok ts => (parse ts).map (Tree.value arith)

def evaluate? (text : String) : Except Error Value :=
  evaluateWith? Number.binary64 text

/-- The value of an expression; an expression that has none is worth the empty text. -/
def evaluate (text : String) : Value :=
  match evaluate? text with
  | .ok v => v
  | .error _ => Value.empty

/-- The expression inside `EVAL(…)`, if a whole text is one, in any letter case and with blanks
around. One pair of quotes around the expression is taken off, with the backslashes before that quote
inside. -/
def argument? (text : String) : Option String :=
  let cs := Text.trimChars text.toList
  if (cs.take 5).map Char.toUpper = "EVAL(".toList ∧ cs.getLast? = some ')' then
    let inner := Text.trimChars ((cs.drop 5).dropLast)
    match inner with
    | [] => none
    | quote :: tail =>
        if (quote = '"' ∨ quote = '\x27') ∧ tail.getLast? = some quote then
          some (String.ofList (Text.replaceChars ['\\', quote] [quote] tail.dropLast))
        else some (String.ofList inner)
  else none

end MacroReplay.Expression
