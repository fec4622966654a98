import MacroReplay.Proofs.Expression.Rules

/-!
# The parser with its calls in progress

The rules of the grammar call each other. Here the calls in progress are written down, as frames on a
stack, together with the tokens that are left and a counter of the operands that are being read. The
routines are those of the grammar, with `operand` cut in two: `operand` guards and counts the level, and
`signed` reads what stands on it.

* `step` — one call, one return, or one turn of a loop;
* `Runs` — several steps, in which one call is in progress all the time;
* `computes` — each routine comes back to the frames and the counter that it was called with, and gives
  what its rule gives on the tokens.
-/

namespace MacroReplay.Expression.Machine

open MacroReplay.Expression.Derivation (Additive)

/-! ## States -/

inductive Routine where
  | expression
  | product
  | operand
  | signed
  | power
  | primary
  deriving DecidableEq

/-- The two rules that are chains of operators. -/
inductive Link where
  | sum
  | product

def Link.operator? : Link → Token → Option Binary
  | .sum => sumOperator?
  | .product => productOperator?

def Link.whole : Link → Routine
  | .sum => .expression
  | .product => .product

/-- The routine for what stands between the operators. -/
def Link.part : Link → Routine
  | .sum => .product
  | .product => .operand

/-- A call in progress, with what it keeps while another one is made. -/
inductive Frame where
  | first (link : Link)
  | right (link : Link) (left : Tree) (op : Binary)
  | level
  | sign (sign : Additive)
  | unsigned
  | base
  | exponent (base : Tree)
  | group
  | argument (name : String) (before : List Tree)

def Frame.routine : Frame → Routine
  | .first link => link.whole
  | .right link _ _ => link.whole
  | .level => .operand
  | .sign _ => .signed
  | .unsigned => .signed
  | .base => .power
  | .exponent _ => .power
  | .group => .primary
  | .argument _ _ => .primary

def Frame.callee : Frame → Routine
  | .first link => link.part
  | .right link _ _ => link.part
  | .level => .signed
  | .sign _ => .operand
  | .unsigned => .power
  | .base => .primary
  | .exponent _ => .operand
  | .group => .expression
  | .argument _ _ => .expression

/-- What the call has added to the counter. -/
def Frame.levels : Frame → Nat
  | .level => 1
  | _ => 0

inductive Control where
  | call (routine : Routine)
  | give (result : Except Error Tree)

structure State where
  control : Control
  frames : List Frame
  rest : List Token
  depth : Nat

/-! ## Steps -/

/-- The head of the loop of a chain, with the tree of what was read so far. -/
def follow (link : Link) (left : Tree) (frames : List Frame) (ts : List Token) (depth : Nat) :
    State :=
  match ts with
  | [] => ⟨.give (.ok left), frames, [], depth⟩
  | t :: ts =>
      match link.operator? t with
      | none => ⟨.give (.ok left), frames, t :: ts, depth⟩
      | some op => ⟨.call link.part, .right link left op :: frames, ts, depth⟩

/-- A closing parenthesis has to follow; another token is taken too. -/
def close (result : Except Error Tree) (frames : List Frame) (ts : List Token) (depth : Nat) :
    State :=
  match ts with
  | .closing :: ts => ⟨.give result, frames, ts, depth⟩
  | ts => ⟨.give (.error (unexpected ts)), frames, ts.tail, depth⟩

def enterPrimary (frames : List Frame) (ts : List Token) (depth : Nat) : State :=
  match ts with
  | [] => ⟨.give (.error .unexpectedEnd), frames, [], depth⟩
  | .number n :: ts => ⟨.give (.ok (.number n)), frames, ts, depth⟩
  | .text s :: ts => ⟨.give (.ok (.text s)), frames, ts, depth⟩
  | .opening :: ts => ⟨.call .expression, .group :: frames, ts, depth⟩
  | .name s :: .opening :: .closing :: ts => ⟨.give (call s []), frames, ts, depth⟩
  | .name s :: .opening :: ts => ⟨.call .expression, .argument s [] :: frames, ts, depth⟩
  | .name _ :: ts => ⟨.give (.error (unexpected ts)), frames, ts.tail, depth⟩
  | t :: ts => ⟨.give (.error (.unexpectedToken t)), frames, ts, depth⟩

def enter (frames : List Frame) (ts : List Token) (depth : Nat) : Routine → State
  | .expression => ⟨.call .product, .first .sum :: frames, ts, depth⟩
  | .product => ⟨.call .operand, .first .product :: frames, ts, depth⟩
  | .operand =>
      if levelLimit ≤ depth then ⟨.give (.error (.tooDeep levelLimit)), frames, ts, depth⟩
      else ⟨.call .signed, .level :: frames, ts, depth + 1⟩
  | .signed =>
      match ts with
      | .operator .minus :: ts => ⟨.call .operand, .sign .minus :: frames, ts, depth⟩
      | .operator .plus :: ts => ⟨.call .operand, .sign .plus :: frames, ts, depth⟩
      | ts => ⟨.call .power, .unsigned :: frames, ts, depth⟩
  | .power => ⟨.call .primary, .base :: frames, ts, depth⟩
  | .primary => enterPrimary frames ts depth

/-- The rest of a call that was given a tree. -/
def resume (frames : List Frame) (ts : List Token) (depth : Nat) (e : Tree) : Frame → State
  | .first link => follow link e frames ts depth
  | .right link left op => follow link (.binary op left e) frames ts depth
  | .level => ⟨.give (.ok e), frames, ts, depth - 1⟩
  | .sign sign => ⟨.give (.ok (sign.signedTree e)), frames, ts, depth⟩
  | .unsigned => ⟨.give (.ok e), frames, ts, depth⟩
  | .base =>
      match ts with
      | .operator .power :: ts => ⟨.call .operand, .exponent e :: frames, ts, depth⟩
      | ts => ⟨.give (.ok e), frames, ts, depth⟩
  | .exponent base => ⟨.give (.ok (.binary .pow base e)), frames, ts, depth⟩
  | .group => close (.ok e) frames ts depth
  | .argument name before =>
      match ts with
      | .comma :: ts => ⟨.call .expression, .argument name (before ++ [e]) :: frames, ts, depth⟩
      | ts => close (call name (before ++ [e])) frames ts depth

/-- One step; none is left once the first call has come back. An error ends the calls one by one. -/
def step : State → Option State
  | ⟨.call routine, frames, ts, depth⟩ => some (enter frames ts depth routine)
  | ⟨.give _, [], _, _⟩ => none
  | ⟨.give (.ok e), frame :: frames, ts, depth⟩ => some (resume frames ts depth e frame)
  | ⟨.give (.error e), frame :: frames, ts, depth⟩ =>
      some ⟨.give (.error e), frames, ts, depth - frame.levels⟩

def start (ts : List Token) : State :=
  ⟨.call .expression, [], ts, 0⟩

/-! ## Rules -/

def powered (operand : Rule) : Rule := fun ts =>
  (primary operand ts).bind fun base => raised operand base

/-- The rule of a routine, with so many levels left. -/
def Routine.rule (levels : Nat) : Routine → Rule
  | .expression => Expression.expression (Expression.operand levels)
  | .product => Expression.product (Expression.operand levels)
  | .operand => Expression.operand levels
  | .signed => Expression.operand (levels + 1)
  | .power => powered (Expression.operand levels)
  | .primary => Expression.primary (Expression.operand levels)

/-! ## Runs of one call -/

/-- A call that was made on top of these frames is still in progress. -/
def Inside (frames : List Frame) (s : State) : Prop :=
  frames <:+ s.frames ∧ (s.frames = frames → ∃ routine, s.control = .call routine)

/-- The steps lead from one state to another, and the call on top of the frames is in progress in every
state that they leave. -/
inductive Runs (frames : List Frame) : State → State → Prop where
  | done (s : State) : Runs frames s s
  | step {s s' s'' : State} (inside : Inside frames s) (next : step s = some s')
      (more : Runs frames s' s'') : Runs frames s s''

variable {frames : List Frame} {frame : Frame} {ts : List Token} {depth levels : Nat}
  {rule : Rule} {s s' s'' : State} {result : Except Error (Tree × List Token)}

/-- Runs on top of the same frames can be put together. -/
theorem Runs.trans (h : Runs frames s s') (h' : Runs frames s' s'') : Runs frames s s'' := by
  induction h with
  | done s => exact h'
  | step inside next more ih => exact .step inside next (ih h')

/-- A call on top of more frames is a call on top of fewer. -/
theorem Inside.of_cons (h : Inside (frame :: frames) s) : Inside frames s := by
  refine ⟨(List.suffix_cons frame frames).trans h.1, fun heq => ?_⟩
  have hlength := h.1.length_le
  rw [heq, List.length_cons] at hlength
  omega

/-- A run on top of more frames is one on top of fewer. -/
theorem Runs.of_cons (h : Runs (frame :: frames) s s') : Runs frames s s' := by
  induction h with
  | done s => exact .done s
  | step inside next more ih => exact .step inside.of_cons next ih

/-- The first step of a call begins its routine. -/
theorem runs_enter (frames : List Frame) (ts : List Token) (depth : Nat) (routine : Routine) :
    Runs frames ⟨.call routine, frames, ts, depth⟩ (enter frames ts depth routine) :=
  .step ⟨List.suffix_refl _, fun _ => ⟨routine, rfl⟩⟩ rfl (.done _)

theorem inside_cons (control : Control) : Inside frames ⟨control, frame :: frames, ts, depth⟩ :=
  ⟨List.suffix_cons _ _, fun h => absurd h (List.cons_ne_self _ _)⟩

/-- The call comes back to its frames and its depth: with a tree and the tokens behind it, or with an
error. -/
def Finishes (frames : List Frame) (depth : Nat) (s : State) :
    Except Error (Tree × List Token) → Prop
  | .ok (e, rest) => Runs frames s ⟨.give (.ok e), frames, rest, depth⟩
  | .error err => ∃ rest, Runs frames s ⟨.give (.error err), frames, rest, depth⟩

/-- What finishes later finishes. -/
theorem Finishes.of_runs (h : Runs frames s s') (h' : Finishes frames depth s' result) :
    Finishes frames depth s result := by
  cases result with
  | ok read => exact h.trans h'
  | error err =>
      obtain ⟨rest, h'⟩ := h'
      exact ⟨rest, h.trans h'⟩

/-- Wherever it is called at this depth, the routine finishes with what the rule gives. -/
def Computes (routine : Routine) (depth : Nat) (rule : Rule) : Prop :=
  ∀ frames ts, Finishes frames depth ⟨.call routine, frames, ts, depth⟩
    ((rule ts).map fun r => (r.tree, r.rest))

/-- A call that waits for a routine: it goes on with a tree, and passes an error on. -/
theorem finishes_frame (frame : Frame) (h : Computes frame.callee depth rule)
    (herror : ∀ err, rule ts = .error err → result = .error err)
    (hok : ∀ r, rule ts = .ok r → Finishes frames (depth - frame.levels)
      (resume frames r.rest depth r.tree frame) result) :
    Finishes frames (depth - frame.levels) ⟨.call frame.callee, frame :: frames, ts, depth⟩
      result := by
  have hcall := h (frame :: frames) ts
  cases hrule : rule ts with
  | error err =>
      rw [hrule] at hcall
      obtain ⟨rest, hcall⟩ := hcall
      rw [herror err hrule]
      exact ⟨rest, hcall.of_cons.trans (.step (inside_cons _) rfl (.done _))⟩
  | ok r =>
      rw [hrule] at hcall
      exact .of_runs (hcall.of_cons.trans (.step (inside_cons _) rfl (.done _))) (hok r hrule)

/-- A call that gives the tree that it waits for. -/
theorem finishes_passing (frame : Frame) (h : Computes frame.callee depth rule)
    (hpass : ∀ e rest, resume frames rest depth e frame =
      ⟨.give (.ok e), frames, rest, depth - frame.levels⟩) :
    Finishes frames (depth - frame.levels) ⟨.call frame.callee, frame :: frames, ts, depth⟩
      ((rule ts).map fun r => (r.tree, r.rest)) := by
  refine finishes_frame frame h ?_ ?_
  · intro err herr
    rw [herr]
    rfl
  · intro r hr
    rw [hr, hpass]
    exact .done _

/-! ## Chains -/

/-- The loop of a chain. The induction is on the tokens: an operand takes at least one of them. -/
theorem finishes_follow (link : Link) (h : Computes link.part depth rule) (left : Tree)
    (ts : List Token) :
    Finishes frames depth (follow link left frames ts depth)
      ((chain link.operator? rule left ts).map fun r => (r.tree, r.rest)) := by
  induction hlength : ts.length using Nat.strongRecOn generalizing ts left with
  | ind n ih =>
      cases ts with
      | nil =>
          rw [chain]
          exact .done _
      | cons t ts =>
          cases hop : link.operator? t with
          | none =>
              simp only [chain, follow, hop]
              exact .done _
          | some op =>
              simp only [follow, hop]
              -- The right operand is computed under a frame that remembers the left one.
              refine finishes_frame (.right link left op) h ?_ ?_
              · intro err herr
                simp [chain, hop, herr, Except.map]
              · intro right hright
                have hless : right.rest.length < n := by
                  have := right.shorter
                  rw [← hlength, List.length_cons]
                  omega
                have hmore := ih _ hless (.binary op left right.tree) right.rest rfl
                simp only [chain, hop, hright]
                cases hchain : chain link.operator? rule (.binary op left right.tree) right.rest <;>
                  rwa [hchain] at hmore

/-- The loop of a chain computes the rule of the chain, if its part computes the rule of the part. -/
theorem computes_chained (link : Link) (h : Computes link.part depth rule) :
    Computes link.whole depth (chained link.operator? rule) := by
  intro frames ts
  have henter : enter frames ts depth link.whole =
      ⟨.call link.part, .first link :: frames, ts, depth⟩ := by
    cases link <;> rfl
  refine .of_runs (runs_enter frames ts depth link.whole) ?_
  rw [henter]
  refine finishes_frame (.first link) h ?_ ?_
  · intro err herr
    simp [chained, herr, Except.map]
  · intro first hfirst
    have hmore : Finishes frames depth (follow link first.tree frames first.rest depth) _ :=
      finishes_follow link h first.tree first.rest
    simp only [chained, hfirst]
    cases hchain : chain link.operator? rule first.tree first.rest <;> rwa [hchain] at hmore

/-! ## Primaries -/

/-- The closing parenthesis is checked as the rule checks it. -/
theorem finishes_close (result : Except Error Tree) (ts : List Token) :
    Finishes frames depth (close result frames ts depth)
      ((closed ts).bind fun behind => result.map fun e => (e, behind.val)) := by
  unfold closed
  split
  · cases result with
    | error err => exact ⟨_, .done _⟩
    | ok e => exact .done _
  · next hother =>
    rw [close.eq_2 _ _ _ _ hother]
    exact ⟨_, .done _⟩

/-- The loop over the arguments of a call, behind those before. -/
theorem finishes_arguments (h : Computes .expression depth rule) (name : String)
    (before : List Tree) (ts : List Token) :
    Finishes frames depth ⟨.call .expression, .argument name before :: frames, ts, depth⟩
      ((arguments rule ts).bind fun args => (closed args.rest).bind fun behind =>
        (call name (before ++ args.trees)).map fun e => (e, behind.val)) := by
  induction hlength : ts.length using Nat.strongRecOn generalizing ts before with
  | ind n ih =>
      -- Each argument is computed under a frame that remembers those before it.
      refine finishes_frame (.argument name before) h ?_ ?_
      · intro err herr
        rw [arguments, herr]
        rfl
      · rintro ⟨first, rest, hlt⟩ hfirst
        rw [arguments, hfirst]
        dsimp only [resume]
        split
        · next rest =>
          have hless : rest.length < n := by
            rw [List.length_cons] at hlt
            omega
          have hmore := ih _ hless (before ++ [first]) rest rfl
          dsimp only
          cases hargs : arguments rule rest with
          | error err => rwa [hargs] at hmore
          | ok args =>
              simp only [hargs, List.append_assoc] at hmore
              exact hmore
        · next hother =>
          split
          · exact absurd rfl (hother _)
          · exact finishes_close _ _

/-- The routine for primaries computes their rule. -/
theorem computes_primary (h : Computes .expression depth (expression rule)) :
    Computes .primary depth (primary rule) := by
  intro frames ts
  refine .of_runs (runs_enter frames ts depth .primary) ?_
  dsimp only [enter]
  unfold enterPrimary
  split
  · exact ⟨_, .done _⟩
  · exact .done _
  · exact .done _
  · next ts =>
    -- A group: what stands inside is an expression, and then a parenthesis closes it.
    refine finishes_frame .group h ?_ ?_
    · intro err herr
      rw [primary, herr]
      rfl
    · intro inner hinner
      have hclose : Finishes frames depth (close (.ok inner.tree) frames inner.rest depth) _ :=
        finishes_close (.ok inner.tree) inner.rest
      rw [primary, hinner]
      dsimp only
      cases hclosed : closed inner.rest <;> rwa [hclosed] at hclose
  · next name ts =>
    rw [primary, callBody]
    cases call name [] with
    | error err => exact ⟨_, .done _⟩
    | ok e => exact .done _
  · next name ts hother =>
    -- A call with arguments, which the loop over them has finished.
    have hcall : Finishes frames depth
        ⟨.call .expression, .argument name [] :: frames, ts, depth⟩ _ :=
      finishes_arguments h name [] ts
    simp only [List.nil_append] at hcall
    rw [← callBody_eq_bind hother] at hcall
    rw [primary]
    cases hbody : callBody rule name ts <;> rwa [hbody] at hcall
  · next name ts hcall hopening =>
    rw [primary.eq_6 _ _ _ hopening]
    exact ⟨_, .done _⟩
  · next t ts hnumber htext hopening _ _ hname =>
    rw [primary.eq_7 _ _ _ hnumber htext hopening (fun s _ hs _ => hname s hs) hname]
    exact ⟨_, .done _⟩

/-! ## Operands -/

/-- So does the one for powers. -/
theorem computes_power (hoperand : Computes .operand depth rule)
    (hprimary : Computes .primary depth (primary rule)) :
    Computes .power depth (powered rule) := by
  intro frames ts
  refine .of_runs (runs_enter frames ts depth .power) ?_
  refine finishes_frame .base hprimary ?_ ?_
  · intro err herr
    rw [powered, herr]
    rfl
  · rintro ⟨base, rest, hlt⟩ hbase
    rw [powered, hbase]
    dsimp only [resume, Except.bind, raised]
    split
    · next rest =>
      refine finishes_frame (.exponent base) hoperand ?_ ?_
      · intro err herr
        dsimp only
        rw [herr]
        rfl
      · intro exponent hexponent
        dsimp only
        rw [hexponent]
        exact .done _
    · next hother =>
      split
      · exact absurd rfl (hother _)
      · exact .done _

/-- So does the one for signed operands, which takes one level off. -/
theorem computes_signed (hoperand : Computes .operand depth (operand levels))
    (hpower : Computes .power depth (powered (operand levels))) :
    Computes .signed depth (operand (levels + 1)) := by
  intro frames ts
  have hsign (sign : Additive) (ts : List Token) :
      Finishes frames depth ⟨.call .operand, .sign sign :: frames, ts, depth⟩
        ((operand (levels + 1) (sign.token :: ts)).map fun r => (r.tree, r.rest)) := by
    refine finishes_frame (.sign sign) hoperand ?_ ?_
    · intro err herr
      cases sign <;> rw [Additive.token, operand, herr] <;> rfl
    · intro r hr
      cases sign <;> rw [Additive.token, operand, hr] <;> exact .done _
  refine .of_runs (runs_enter frames ts depth .signed) ?_
  dsimp only [enter]
  split
  · next ts => exact hsign .minus ts
  · next ts => exact hsign .plus ts
  · next hminus hplus =>
    have hoperand : operand (levels + 1) ts = powered (operand levels) ts := by
      refine (operand.eq_4 ts levels hminus hplus).trans ?_
      unfold powered
      cases primary (operand levels) ts <;> rfl
    rw [hoperand]
    exact finishes_passing .unsigned hpower fun _ _ => rfl

/-- At any depth all routines compute their rules once `operand` does. -/
theorem computes_of_operand (h : Computes .operand depth (operand levels)) (routine : Routine) :
    Computes routine depth (routine.rule levels) := by
  have hproduct : Computes .product depth (product (operand levels)) := computes_chained .product h
  have hexpression : Computes .expression depth (expression (operand levels)) :=
    computes_chained .sum hproduct
  have hprimary := computes_primary hexpression
  have hpower := computes_power h hprimary
  cases routine with
  | expression => exact hexpression
  | product => exact hproduct
  | operand => exact h
  | signed => exact computes_signed h hpower
  | power => exact hpower
  | primary => exact hprimary

/-- The counter and the levels that are left make up the limit. The induction is on those levels. -/
theorem computes_operand (h : depth + levels = levelLimit) :
    Computes .operand depth (operand levels) := by
  induction levels generalizing depth with
  | zero =>
      intro frames ts
      refine .of_runs (runs_enter frames ts depth .operand) ?_
      have hfull : levelLimit ≤ depth := Nat.le_of_eq h.symm
      rw [enter, if_pos hfull]
      exact ⟨_, .done _⟩
  | succ levels ih =>
      intro frames ts
      have hsigned : Computes .signed (depth + 1) (operand (levels + 1)) :=
        computes_of_operand (ih (Nat.succ_add_eq_add_succ depth levels ▸ h)) .signed
      refine .of_runs (runs_enter frames ts depth .operand) ?_
      rw [enter, if_neg (by omega)]
      exact finishes_passing .level hsigned fun _ _ => rfl

/-- Every routine comes back to the frames and the depth of its call, with what its rule gives. -/
theorem computes (h : depth + levels = levelLimit) (routine : Routine) :
    Computes routine depth (routine.rule levels) :=
  computes_of_operand (computes_operand h) routine

end MacroReplay.Expression.Machine
