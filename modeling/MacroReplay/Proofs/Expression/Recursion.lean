import MacroReplay.Proofs.Expression.Joining
import MacroReplay.Proofs.Expression.Machine

/-!
# Bounded recursion of the parser

Whatever the tokens are, the parser ends, and the calls in progress at any time are bounded by a
constant: `operand` counts the levels, and no more than six calls are in progress for each of them.

* `Move`, `move_of_step` — what a step can do, from which all the invariants follow;
* `Stacked` — the order in which the routines wait for each other;
* `Reachable.counted`, `Reachable.length_frames_le` — the counter and the number of calls;
* `Reachable.nested_of_tooDeep` — where an error for the depth comes from;
* `recursion_bounded` — all of this, with what holds of each call and of chains and arguments.
-/

namespace MacroReplay.Expression.Machine

/-! ## What a step does -/

/-- The four kinds of steps: a call is made, a call is answered at once, a call in progress comes back,
or it makes another call. The tokens are taken from the front only, only `operand` moves the counter, and
an error for the depth comes from `operand` at the limit. -/
inductive Move : State → State → Prop where
  | calls {frames ts rest depth} (frame : Frame) (hrest : rest <:+ ts)
      (hlimit : depth ≤ levelLimit → depth + frame.levels ≤ levelLimit) :
      Move ⟨.call frame.routine, frames, ts, depth⟩
        ⟨.call frame.callee, frame :: frames, rest, depth + frame.levels⟩
  | answers {routine result frames ts rest depth} (hrest : rest <:+ ts)
      (hdeep : ∀ n, result = .error (.tooDeep n) → routine = .operand ∧ levelLimit ≤ depth) :
      Move ⟨.call routine, frames, ts, depth⟩ ⟨.give result, frames, rest, depth⟩
  | returns {result result' frame frames ts rest depth} (hrest : rest <:+ ts)
      (hdeep : ∀ n, result' = .error (.tooDeep n) → result = .error (.tooDeep n)) :
      Move ⟨.give result, frame :: frames, ts, depth⟩
        ⟨.give result', frames, rest, depth - frame.levels⟩
  | repeats {result frame frames ts rest depth} (frame' : Frame) (hrest : rest <:+ ts)
      (hroutine : frame'.routine = frame.routine) (hlevels : frame.levels = 0)
      (hlevels' : frame'.levels = 0) :
      Move ⟨.give result, frame :: frames, ts, depth⟩
        ⟨.call frame'.callee, frame' :: frames, rest, depth⟩

variable {frames : List Frame} {frame : Frame} {ts rest : List Token} {depth n : Nat}
  {routine : Routine} {result : Except Error Tree} {s s' : State}

/-- The error for the depth is not one of calling a function. -/
theorem call_ne_tooDeep (name : String) (args : List Tree) :
    call name args ≠ .error (.tooDeep n) := by
  unfold call
  dsimp only
  split
  · simp
  · split <;> simp

/-- Nor is it one of a token out of place. -/
theorem unexpected_ne_tooDeep (ts : List Token) : unexpected ts ≠ .tooDeep n := by
  cases ts <;> simp [unexpected]

/-- A call other than one of `operand` comes back. -/
theorem Move.gives {result' : Except Error Tree} (hrest : rest <:+ ts)
    (hdeep : ∀ n, result' ≠ .error (.tooDeep n)) (hlevels : frame.levels = 0) :
    Move ⟨.give result, frame :: frames, ts, depth⟩ ⟨.give result', frames, rest, depth⟩ := by
  have hmove : Move ⟨.give result, frame :: frames, ts, depth⟩
      ⟨.give result', frames, rest, depth - frame.levels⟩ :=
    .returns hrest fun n h => absurd h (hdeep n)
  rwa [hlevels] at hmove

/-- The loop of a chain is left, or goes on with the next part. -/
theorem Move.follow (link : Link) (left : Tree) (hroutine : frame.routine = link.whole)
    (hlevels : frame.levels = 0) :
    Move ⟨.give result, frame :: frames, ts, depth⟩ (follow link left frames ts depth) := by
  unfold Machine.follow
  split
  · exact .gives (List.suffix_refl _) (by simp) hlevels
  · next t ts =>
    split
    · exact .gives (List.suffix_refl _) (by simp) hlevels
    · next op hop =>
      exact .repeats (.right link left op) (List.suffix_cons t ts) hroutine.symm hlevels rfl

/-- A closing parenthesis takes one token and no level. -/
theorem Move.close {result' : Except Error Tree} (hdeep : ∀ n, result' ≠ .error (.tooDeep n))
    (hlevels : frame.levels = 0) :
    Move ⟨.give result, frame :: frames, ts, depth⟩ (close result' frames ts depth) := by
  unfold Machine.close
  split
  · next ts => exact .gives (List.suffix_cons _ ts) hdeep hlevels
  · exact .gives (List.tail_suffix _) (by simp [unexpected_ne_tooDeep]) hlevels

/-- A call that was given a tree comes back or makes another call. -/
theorem move_resume (e : Tree) (frame : Frame) :
    Move ⟨.give (.ok e), frame :: frames, ts, depth⟩ (resume frames ts depth e frame) := by
  cases frame with
  | first link => exact .follow link e rfl rfl
  | right link left op => exact .follow link (.binary op left e) rfl rfl
  | level => exact .returns (List.suffix_refl _) (by simp)
  | sign sign => exact .gives (List.suffix_refl _) (by simp) rfl
  | unsigned => exact .gives (List.suffix_refl _) (by simp) rfl
  | base =>
      dsimp only [resume]
      split
      · next ts => exact .repeats (.exponent e) (List.suffix_cons _ ts) rfl rfl rfl
      · exact .gives (List.suffix_refl _) (by simp) rfl
  | exponent base => exact .gives (List.suffix_refl _) (by simp) rfl
  | group => exact .close (by simp) rfl
  | argument name before =>
      dsimp only [resume]
      split
      · next ts =>
        exact .repeats (.argument name (before ++ [e])) (List.suffix_cons _ ts) rfl rfl rfl
      · exact .close (fun n => call_ne_tooDeep _ _) rfl

theorem move_enterPrimary :
    Move ⟨.call .primary, frames, ts, depth⟩ (enterPrimary frames ts depth) := by
  have hanswers {result : Except Error Tree} {rest : List Token} (hrest : rest <:+ ts)
      (hdeep : ∀ n, result ≠ .error (.tooDeep n)) :
      Move ⟨.call .primary, frames, ts, depth⟩ ⟨.give result, frames, rest, depth⟩ :=
    .answers hrest fun n h => absurd h (hdeep n)
  unfold enterPrimary
  split
  · exact hanswers (List.suffix_refl _) (by simp)
  · next n ts => exact hanswers (List.suffix_cons _ ts) (by simp)
  · next s ts => exact hanswers (List.suffix_cons _ ts) (by simp)
  · next ts => exact .calls .group (List.suffix_cons _ ts) id
  · next name ts => exact hanswers (List.suffix_append [_, _, _] ts) fun n => call_ne_tooDeep _ _
  · next name ts _ => exact .calls (.argument name []) (List.suffix_append [_, _] ts) id
  · next name ts _ _ =>
    exact hanswers ((List.tail_suffix ts).trans (List.suffix_cons _ ts))
      (by simp [unexpected_ne_tooDeep])
  · next t ts _ _ _ _ _ _ => exact hanswers (List.suffix_cons _ ts) (by simp)

/-- The begin of a call answers it or makes another one. -/
theorem move_enter (routine : Routine) :
    Move ⟨.call routine, frames, ts, depth⟩ (enter frames ts depth routine) := by
  cases routine with
  | expression => exact .calls (.first .sum) (List.suffix_refl _) id
  | product => exact .calls (.first .product) (List.suffix_refl _) id
  | operand =>
      dsimp only [enter]
      split
      · next hfull => exact .answers (List.suffix_refl _) fun _ _ => ⟨rfl, hfull⟩
      · next hroom => exact .calls .level (List.suffix_refl _) fun _ => Nat.lt_of_not_le hroom
  | signed =>
      dsimp only [enter]
      split
      · next ts => exact .calls (.sign .minus) (List.suffix_cons _ ts) id
      · next ts => exact .calls (.sign .plus) (List.suffix_cons _ ts) id
      · exact .calls .unsigned (List.suffix_refl _) id
  | power => exact .calls .base (List.suffix_refl _) id
  | primary => exact move_enterPrimary

/-- Every step is a move. -/
theorem move_of_step (h : step s = some s') : Move s s' := by
  unfold step at h
  split at h
  · cases h
    exact move_enter _
  · cases h
  · cases h
    exact move_resume _ _
  · cases h
    exact .returns (List.suffix_refl _) fun _ => id

/-! ## The calls in progress -/

/-- Each call waits for the one above it, and the first is one of `expression`. The routine is the one
that the topmost frame waits for. -/
inductive Stacked : Routine → List Frame → Prop where
  | empty : Stacked .expression []
  | push {frames : List Frame} (frame : Frame) (below : Stacked frame.routine frames) :
      Stacked frame.callee (frame :: frames)

def operands (frames : List Frame) : Nat :=
  frames.countP fun frame => frame.routine = .operand

/-- A sign, an exponent, a parenthesis or a call of a function is being read. -/
def Frame.nests : Frame → Bool
  | .sign _ => true
  | .exponent _ => true
  | .group => true
  | .argument _ _ => true
  | _ => false

def nested (frames : List Frame) : Nat :=
  frames.countP Frame.nests

/-- Only `operand` adds to the counter, and it adds one. -/
theorem Frame.levels_eq (frame : Frame) :
    frame.levels = if frame.routine = .operand then 1 else 0 := by
  cases frame with
  | first link => cases link <;> rfl
  | right link left op => cases link <;> rfl
  | _ => rfl

theorem operands_cons (frame : Frame) (frames : List Frame) :
    operands (frame :: frames) = operands frames + frame.levels := by
  simp [operands, List.countP_cons, frame.levels_eq]

theorem nested_cons (frame : Frame) (frames : List Frame) :
    nested (frame :: frames) = nested frames + if frame.nests then 1 else 0 := by
  simp [nested, List.countP_cons]

/-- Without its topmost frame a stack waits for the routine of that frame. -/
theorem Stacked.of_cons (h : Stacked routine (frame :: frames)) : Stacked frame.routine frames := by
  cases h with
  | push _ below => exact below

/-- How many calls lie between one of `operand` and the routine, at most. -/
def Routine.rank : Routine → Nat
  | .signed => 0
  | .power => 1
  | .primary => 2
  | .expression => 3
  | .product => 4
  | .operand => 5

/-- The routine belongs to an operand whose call is in progress. -/
def Routine.inOperand : Routine → Nat
  | .signed => 1
  | .power => 1
  | .primary => 1
  | _ => 0

/-- There are at most six calls for every one of `operand`. -/
theorem Stacked.length_le (h : Stacked routine frames) :
    frames.length + 3 ≤ 6 * operands frames + routine.rank := by
  induction h with
  | empty => decide
  | push frame below ih =>
      -- A call goes up in rank by one at least, except from `operand` down to what it reads.
      have hrank : frame.routine.rank + 1 ≤ 6 * frame.levels + frame.callee.rank := by
        cases frame with
        | first link => cases link <;> decide
        | right link left op => cases link <;> exact Nat.le_refl _
        | _ => simp [Frame.routine, Frame.callee, Frame.levels, Routine.rank]
      rw [operands_cons, List.length_cons]
      omega

/-- Between two calls of `operand` lies a sign, an exponent, a parenthesis or a call of a function. -/
theorem Stacked.nested_eq (h : Stacked routine frames) :
    nested frames + routine.inOperand = operands frames := by
  induction h with
  | empty => rfl
  | push frame below ih =>
      have hnests : (if frame.nests then 1 else 0) + frame.callee.inOperand =
          frame.routine.inOperand + frame.levels := by
        cases frame with
        | first link => cases link <;> rfl
        | right link left op => cases link <;> rfl
        | _ => rfl
      rw [operands_cons, nested_cons]
      omega

/-! ## Reachable states -/

inductive Reachable (ts : List Token) : State → Prop where
  | start : Reachable ts (start ts)
  | step {s s' : State} (before : Reachable ts s) (next : step s = some s') : Reachable ts s'

/-- What a run leads to is reachable. -/
theorem Reachable.runs (h : Reachable ts s) (hruns : Runs frames s s') : Reachable ts s' := by
  induction hruns with
  | done s => exact h
  | step inside next more ih => exact ih (h.step next)

/-- What holds of every state: each call waits for the one above, and the counter is the number of the
calls of `operand`, within the limit. -/
structure State.Counted (s : State) : Prop where
  stacked : ∃ routine, Stacked routine s.frames ∧
    ∀ routine', s.control = .call routine' → routine' = routine
  depth_eq : s.depth = operands s.frames
  depth_le : s.depth ≤ levelLimit

/-- One move keeps the stack in order and the counter right. -/
theorem Move.counted (h : Move s s') (hs : s.Counted) : s'.Counted := by
  obtain ⟨⟨routine, hstacked, hcontrol⟩, hdepth, hlimit⟩ := hs
  cases h with
  | calls frame hrest hroom =>
      obtain rfl := hcontrol _ rfl
      refine ⟨⟨_, .push frame hstacked, fun _ h => (Control.call.inj h).symm⟩, ?_, hroom hlimit⟩
      rw [operands_cons, ← hdepth]
  | answers hrest hdeep =>
      exact ⟨⟨routine, hstacked, fun _ h => by cases h⟩, hdepth, hlimit⟩
  | returns hrest hdeep =>
      rw [operands_cons] at hdepth
      exact ⟨⟨_, hstacked.of_cons, fun _ h => by cases h⟩,
        Nat.sub_eq_of_eq_add hdepth, Nat.le_trans (Nat.sub_le _ _) hlimit⟩
  | repeats frame' hrest hroutine hlevels hlevels' =>
      -- The routine that repeats its call is the one that the frames below wait for.
      have hbelow : Stacked frame'.routine _ := hroutine ▸ hstacked.of_cons
      rw [operands_cons, hlevels] at hdepth
      refine ⟨⟨_, .push frame' hbelow, fun _ h => (Control.call.inj h).symm⟩, ?_, hlimit⟩
      rw [operands_cons, hlevels', hdepth]

/-- So they are in every state of the run. -/
theorem Reachable.counted (h : Reachable ts s) : s.Counted := by
  induction h with
  | start => exact ⟨⟨_, .empty, fun _ h => (Control.call.inj h).symm⟩, rfl, Nat.zero_le _⟩
  | step before next ih => exact (move_of_step next).counted ih

/-- Six frames for each of 256 levels and two more are the most there can be. -/
theorem Reachable.length_frames_le (h : Reachable ts s) : s.frames.length ≤ 1538 := by
  obtain ⟨⟨routine, hstacked, -⟩, hdepth, hlimit⟩ := h.counted
  have hlength := hstacked.length_le
  have hrank : routine.rank ≤ 5 := by cases routine <;> decide
  rw [levelLimit] at hlimit
  omega

/-- No move goes back in the tokens. -/
theorem Move.rest_suffix (h : Move s s') : s'.rest <:+ s.rest := by
  cases h with
  | calls frame hrest hlimit => exact hrest
  | answers hrest hdeep => exact hrest
  | returns hrest hdeep => exact hrest
  | repeats frame' hrest hroutine hlevels hlevels' => exact hrest

/-- Nor does any run. -/
theorem Runs.rest_suffix (h : Runs frames s s') : s'.rest <:+ s.rest := by
  induction h with
  | done s => exact List.suffix_refl _
  | step inside next more ih => exact ih.trans (move_of_step next).rest_suffix

/-- An error for the depth goes back to a call of `operand` with as many signs, exponents, parentheses
and calls of functions around it as the limit allows. -/
theorem Reachable.nested_of_tooDeep (h : Reachable ts s)
    (hdeep : s.control = .give (.error (.tooDeep n))) :
    ∃ s₀, Reachable ts s₀ ∧ s₀.control = .call .operand ∧ nested s₀.frames = levelLimit := by
  induction h with
  | start => cases hdeep
  | @step s s' before next ih =>
      cases move_of_step next with
      | calls frame hrest hlimit => cases hdeep
      | repeats frame' hrest hroutine hlevels hlevels' => cases hdeep
      -- An error is passed on unchanged, so it was there before.
      | returns hrest hsame => exact ih (congrArg Control.give (hsame n (Control.give.inj hdeep)))
      | answers hrest horigin =>
          obtain ⟨rfl, hfull⟩ := horigin n (Control.give.inj hdeep)
          obtain ⟨⟨routine, hstacked, hcontrol⟩, hdepth, hlimit⟩ := before.counted
          obtain rfl := hcontrol _ rfl
          refine ⟨_, before, rfl, ?_⟩
          calc nested _ = operands _ := hstacked.nested_eq
            _ = _ := hdepth.symm
            _ = levelLimit := Nat.le_antisymm hlimit hfull

/-! ## Calls and whole runs -/

/-- The call comes back to its frames and its depth, without having gone back in the tokens. It gives an
error of its rule, or a tree that the rule reads from at least one token. -/
def Returns (routine : Routine) (frames : List Frame) (ts : List Token) (depth : Nat) : Prop :=
  ∃ result rest,
    Runs frames ⟨.call routine, frames, ts, depth⟩ ⟨.give result, frames, rest, depth⟩ ∧
      rest <:+ ts ∧
      ((∃ err, result = .error err ∧ routine.rule (levelLimit - depth) ts = .error err) ∨
        ∃ e, result = .ok e ∧ rest.length < ts.length ∧
          Reads (routine.rule (levelLimit - depth)) ts e rest)

/-- Every call within the limit comes back to where it was made, with the counter as it was. -/
theorem returns_of_le (h : depth ≤ levelLimit) (routine : Routine) (frames : List Frame)
    (ts : List Token) : Returns routine frames ts depth := by
  have hcall := computes (Nat.add_sub_of_le h) routine frames ts
  cases hrule : routine.rule (levelLimit - depth) ts with
  | error err =>
      rw [hrule] at hcall
      obtain ⟨rest, hruns⟩ := hcall
      exact ⟨.error err, rest, hruns, hruns.rest_suffix, .inl ⟨err, rfl, hrule⟩⟩
  | ok r =>
      rw [hrule] at hcall
      exact ⟨.ok r.tree, r.rest, hcall, Runs.rest_suffix hcall,
        .inr ⟨r.tree, rfl, r.shorter, r.shorter, hrule⟩⟩

/-- What comes of the tokens once the first call is back. -/
def outcome : Except Error Tree → List Token → Except Error Tree
  | .error err, _ => .error err
  | .ok e, [] => .ok e
  | .ok _, t :: _ => .error (.unexpectedToken t)

/-- The first call comes back, and what it comes back with is what the parser says. -/
theorem exists_outcome (ts : List Token) :
    ∃ result rest, Reachable ts ⟨.give result, [], rest, 0⟩ ∧ parse ts = outcome result rest := by
  obtain ⟨result, rest, hruns, -, hresult⟩ :=
    returns_of_le (Nat.zero_le levelLimit) .expression [] ts
  refine ⟨result, rest, Reachable.start.runs hruns, ?_⟩
  unfold parse
  obtain ⟨err, rfl, herr⟩ | ⟨e, rfl, -, hlt, he⟩ := hresult
  · have hexpression : expression (operand levelLimit) ts = .error err := herr
    rw [hexpression]
    rfl
  · have hexpression : expression (operand levelLimit) ts = .ok ⟨e, rest, hlt⟩ := he
    rw [hexpression]
    cases rest <;> rfl

/-- The parser refuses for the depth only what nests as deep as the limit. -/
theorem nested_of_parse_tooDeep (h : parse ts = .error (.tooDeep n)) :
    ∃ s, Reachable ts s ∧ s.control = .call .operand ∧ nested s.frames = levelLimit := by
  obtain ⟨result, rest, hreachable, hparse⟩ := exists_outcome ts
  rw [h] at hparse
  have hresult : result = .error (.tooDeep n) := by
    unfold outcome at hparse
    split at hparse <;> simp_all
  exact hreachable.nested_of_tooDeep (congrArg Control.give hresult)

/-- An evaluation is a scan, a run of the machine and the value of the tree. -/
theorem evaluateWith?_eq_outcome (arith : Arithmetic) (text : String) :
    (∃ err, tokenize text.toList = .error err ∧ evaluateWith? arith text = .error err) ∨
      ∃ ts result rest, tokenize text.toList = .ok ts ∧ Reachable ts ⟨.give result, [], rest, 0⟩ ∧
        evaluateWith? arith text = (outcome result rest).map (Tree.value arith) := by
  unfold evaluateWith?
  cases htokens : tokenize text.toList with
  | error err => exact .inl ⟨err, rfl, rfl⟩
  | ok ts =>
      obtain ⟨result, rest, hreachable, hparse⟩ := exists_outcome ts
      refine .inr ⟨ts, result, rest, rfl, hreachable, ?_⟩
      rw [← hparse]

/-- The recursion of the parser is bounded. In every state of a run the counter is the number of the
calls of `operand` in progress, and not above 256; no more than 1538 calls wait for another one; and no
step goes back in the tokens. Every call returns, with the counter as it was. So evaluation ends. It
fails for the depth only where 256 signs, exponents, parentheses and calls of functions stand around an
operand; chains of operators and lists of arguments may have any length. -/
theorem recursion_bounded :
    -- every state
    (∀ ts s, Reachable ts s →
      s.depth = operands s.frames ∧ s.depth ≤ 256 ∧ s.frames.length ≤ 1538 ∧
        ∀ s', step s = some s' → s'.rest <:+ s.rest) ∧
    -- every call
    (∀ routine frames ts depth, depth ≤ 256 → Returns routine frames ts depth) ∧
    -- every text
    (∀ arith text,
      (∃ err, tokenize text.toList = .error err ∧ evaluateWith? arith text = .error err) ∨
        ∃ ts result rest, tokenize text.toList = .ok ts ∧
          Reachable ts ⟨.give result, [], rest, 0⟩ ∧
          evaluateWith? arith text = (outcome result rest).map (Tree.value arith)) ∧
    -- the depth: what makes it, and that chains and arguments do not
    (∀ ts n, parse ts = .error (.tooDeep n) →
      ∃ s, Reachable ts s ∧ s.control = .call .operand ∧ nested s.frames = 256) ∧
    (∀ first more, Accepted first → (∀ link ∈ more, link.1 ≠ .power ∧ Accepted link.2) →
      Accepted (linked first more)) ∧
    ∀ name args, (∀ arg ∈ args, Accepted arg ∧ Accepted (.opening :: (arg ++ [.closing]))) →
      ∃ es, es.length = args.length ∧ parse (callOf name args) = call name es ∧
        ∀ n, call name es ≠ .error (.tooDeep n) := by
  refine ⟨fun ts s h => ?_, fun routine frames ts depth h => returns_of_le h routine frames ts,
    evaluateWith?_eq_outcome, fun ts n => nested_of_parse_tooDeep,
    fun first more => accepted_linked, fun name args h => ?_⟩
  · exact ⟨h.counted.depth_eq, h.counted.depth_le, h.length_frames_le,
      fun s' hs' => (move_of_step hs').rest_suffix⟩
  · obtain ⟨es, hlength, hparse⟩ := parse_callOf name h
    exact ⟨es, hlength, hparse, fun n => call_ne_tooDeep name es⟩

/-- Signs alone use up the levels. -/
theorem operand_signs (levels : Nat) (ts : List Token) :
    operand levels (List.replicate levels (.operator .minus) ++ ts) =
      .error (.tooDeep levelLimit) := by
  induction levels with
  | zero => rfl
  | succ levels ih =>
      rw [List.replicate_succ, List.cons_append, operand, ih]
      rfl

def loneZero : List Token :=
  [.number (.zero false)]

/-- A number is accepted, alone and in parentheses. -/
theorem accepted_loneZero : Accepted loneZero ∧ Accepted (.opening :: (loneZero ++ [.closing])) := by
  constructor
  · exact accepted_iff.2 ⟨.of (.of (.plain (.number (.zero false))) .none) .none, rfl, by decide⟩
  · exact accepted_iff.2 ⟨.of (.of (.plain (.group
      (.of (.of (.plain (.number (.zero false))) .none) .none))) .none) .none, rfl, by decide⟩

/-- 256 signs are too deep, and a thousand terms or arguments are not. -/
theorem recursion_bounded_thousand :
    (Reachable loneZero (start loneZero) ∧ (start loneZero).frames.length ≤ 1538) ∧
    (255 ≤ 256 ∧ Returns .operand [.exponent (.number .half)] loneZero 255) ∧
    (parse (List.replicate 256 (.operator .minus) ++ loneZero) = .error (.tooDeep 256) ∧
      ∃ s, Reachable (List.replicate 256 (.operator .minus) ++ loneZero) s ∧
        s.control = .call .operand ∧ nested s.frames = 256) ∧
    (Accepted loneZero ∧ Accepted (linked loneZero (List.replicate 1000 (.plus, loneZero)))) ∧
    Accepted (.opening :: (loneZero ++ [.closing])) ∧
    ∃ es, es.length = (List.replicate 1000 loneZero).length ∧
      parse (callOf "concat" (List.replicate 1000 loneZero)) = call "concat" es ∧
        ∀ n, call "concat" es ≠ .error (.tooDeep n) := by
  obtain ⟨hstates, hcalls, -, hdeep, hchains, harguments⟩ := recursion_bounded
  have hlone := accepted_loneZero
  have hparse : parse (List.replicate 256 (.operator .minus) ++ loneZero) =
      .error (.tooDeep 256) := by
    have hoperand : operand levelLimit (List.replicate 256 (.operator .minus) ++ loneZero) = _ :=
      operand_signs 256 loneZero
    simp only [parse, expression, product, chained, hoperand]
    rfl
  refine ⟨⟨.start, (hstates _ _ .start).2.2.1⟩, ⟨by decide, hcalls _ _ _ _ (by decide)⟩,
    ⟨hparse, hdeep _ _ hparse⟩, ⟨hlone.1, hchains _ _ hlone.1 ?_⟩, hlone.2, harguments _ _ ?_⟩
  · intro link hlink
    rw [List.eq_of_mem_replicate hlink]
    exact ⟨by decide, hlone.1⟩
  · intro arg harg
    rw [List.eq_of_mem_replicate harg]
    exact hlone

end MacroReplay.Expression.Machine
