import Mathlib.Logic.Function.Basic
import MacroReplay.Proofs.Proc.Suspension
import MacroReplay.Session

/-!
# The clients of a session

Any number of clients use one session. A client makes a request, and is told the outcome at once or after
some time: a run goes on inside the request that began it, and whoever leaves looks from time to time
whether the run has ended. Wherever a client is suspended, any other may have its turn.

* `Session.Action` — a turn: a client makes a request, a client that waited goes on, or time passes;
* `Session.Clients.step` — what a turn does, in terms of what the session does;
* `Session.Transcript` — all that was asked, done and told in any sequence of turns;
* `Session.current` — the run in flight, as the transcript has it.
-/

namespace MacroReplay
namespace Session

inductive Request where
  /-- A run; the session keeps its result or not. -/
  | run (kept : Bool) (script : Script) (loops : Option Nat)
  | stop
  | setVariable (name : String) (v : Value)
  | getVariable (name : String)
  | exit

/-- To play a script is to run it and keep its result. -/
abbrev Request.play (script : Script) (loops : Option Nat) : Request :=
  .run true script loops

/-- To execute a script is to run it for its result. -/
abbrev Request.execute (script : Script) (loops : Option Nat) : Request :=
  .run false script loops

inductive Response where
  | status (n : Int)
  | result (r : RunResult)
  | assigned (a : Assignment)
  | value (v : Option Value)
  | done
  | refused (e : SessionError)
  /-- Nothing: its request ended in a fault. -/
  | faulted (f : Fault)

def answer (kept : Bool) (r : RunResult) : Response :=
  if kept then .status (status r) else .result r

/-- What a client is told when another run is in flight. -/
def refusal (kept : Bool) : Response :=
  if kept then .status statusAlreadyRunning else .refused .alreadyRunning

/-- What a client is told that wanted to leave. -/
def farewell : Except SessionError Unit → Response
  | .ok () => .done
  | .error e => .refused e

/-- What becomes of a client that wanted to leave, a fault included. -/
def departure : Except Fault (Except SessionError Unit) → Response
  | .ok outcome => farewell outcome
  | .error f => .faulted f

inductive Activity where
  | free
  /-- Its run is in flight. -/
  | playing
  /-- It asked to leave at the moment `began`. -/
  | leaving (began : Nat)

inductive Action (κ : Type) where
  | request (c : κ) (r : Request)
  /-- A client that waited goes on. -/
  | wake (c : κ)
  | pass (ms : Nat)

inductive Entry (ι : Interface) (μ κ : Type) where
  | asked (c : κ) (r : Request)
  | begun (c : κ) (kept : Bool) (script : Script) (loops : Option Nat) (m : Memory μ)
  /-- A call of the run in flight, with its reply. -/
  | called (event : Event (Timed ι))
  /-- A collaborator requests a stop. -/
  | raised
  | ended (c : κ) (r : RunResult) (left : Memory μ)
  | told (c : κ) (r : Response)

structure Clients (ι : Interface) (μ σ κ : Type) where
  session : Session ι μ σ
  activity : κ → Activity

/-! ## Turns -/

namespace Clients

variable {ι : Interface} {μ σ κ : Type} [DecidableEq κ]

/-- Clients that have not asked for anything. -/
def opened (session : Session ι μ σ) : Clients ι μ σ κ :=
  ⟨session, fun _ => .free⟩

/-- A turn of which this is the first entry. -/
def entering (entry : Entry ι μ κ) (out : List (Entry ι μ κ) × Clients ι μ σ κ) :
    List (Entry ι μ κ) × Clients ι μ σ κ :=
  (entry :: out.1, out.2)

/-- The run of a client has come so far; the client is told when it has ended. -/
def landing (s : Clients ι μ σ κ) (c : κ) (kept : Bool) :
    Timeline.Status ι σ (RunResult × Memory μ) → List (Entry ι μ κ) × Clients ι μ σ κ
  | .waiting p scene =>
      ([], ⟨s.session.arrive kept (.waiting p scene), Function.update s.activity c .playing⟩)
  | .finished (r, left) scene =>
      ([.ended c r left, .told c (answer kept r)],
        ⟨s.session.arrive kept (.finished (r, left) scene), Function.update s.activity c .free⟩)

/-- The run of a client goes on as `p` up to its next suspension point. -/
def carryOn (s : Clients ι μ σ κ) (c : κ) (kept : Bool) (p : Proc (Timed ι) (RunResult × Memory μ))
    (scene : Scene σ) : List (Entry ι μ κ) × Clients ι μ σ κ :=
  let settled := Timeline.settle s.session.world p scene
  (settled.1.map .called ++ (s.landing c kept settled.2).1, (s.landing c kept settled.2).2)

def begin (s : Clients ι μ σ κ) (c : κ) (kept : Bool) (script : Script) (loops : Option Nat) :
    List (Entry ι μ κ) × Clients ι μ σ κ :=
  match s.session.phase with
  | .running _ => ([.told c (refusal kept)], s)
  | .idle m =>
      entering (.begun c kept script loops m)
        (s.carryOn c kept (s.session.engine.run script loops m)
          { s.session.scene with stopRequested := false })

/-- The run of a client goes on if the call that it waits for is over. -/
def advance (s : Clients ι μ σ κ) (c : κ) : List (Entry ι μ κ) × Clients ι μ σ κ :=
  match s.session.phase with
  | .idle _ => ([], s)
  | .running f =>
      match f.waiting.end? s.session.scene with
      | none => ([], s)
      | some t =>
          let out := s.carryOn c f.kept (f.waiting.next t.reply)
            (t.scene s.session.scene.stopRequested)
          entering (.called ⟨f.waiting.call, t.reply⟩)
            (if t.raisesStop then entering .raised out else out)

def look (s : Clients ι μ σ κ) (c : κ) (began : Nat) : List (Entry ι μ κ) × Clients ι μ σ κ :=
  match s.session.look began with
  | none => ([], { s with activity := Function.update s.activity c (.leaving began) })
  | some (outcome, session) =>
      ([.told c (farewell outcome)], ⟨session, Function.update s.activity c .free⟩)

/-- A client asks to leave: it stops the run in flight, reckons its deadline and looks for the first
time. -/
def depart (s : Clients ι μ σ κ) (c : κ) : List (Entry ι μ κ) × Clients ι μ σ κ :=
  let stopped := { s with session := s.session.stop }
  if stopped.session.hasDeadline then stopped.look c s.session.scene.now
  else ([.told c (departure (.error clockOverflow))], stopped)

def serve (s : Clients ι μ σ κ) (c : κ) : Request → List (Entry ι μ κ) × Clients ι μ σ κ
  | .run kept script loops => s.begin c kept script loops
  | .stop => ([.told c .done], { s with session := s.session.stop })
  | .setVariable name v =>
      match s.session.setVariable name v with
      | .ok (a, session) => ([.told c (.assigned a)], { s with session := session })
      | .error e => ([.told c (.refused e)], s)
  | .getVariable name =>
      match s.session.getVariable name with
      | .ok v => ([.told c (.value v)], s)
      | .error e => ([.told c (.refused e)], s)
  | .exit => s.depart c

/-- Time may pass up to the end of the call that a run waits for. -/
def mayPass (s : Clients ι μ σ κ) (ms : Nat) : Bool :=
  match s.session.phase with
  | .idle _ => true
  | .running f =>
      match f.waiting.end? s.session.scene with
      | none => true
      | some t => s.session.scene.now + ms ≤ t.moment

/-- A turn; one that is not possible changes nothing. -/
def step (s : Clients ι μ σ κ) : Action κ → List (Entry ι μ κ) × Clients ι μ σ κ
  | .request c r =>
      match s.activity c with
      | .free => entering (.asked c r) (s.serve c r)
      | _ => ([], s)
  | .wake c =>
      match s.activity c with
      | .free => ([], s)
      | .playing => s.advance c
      | .leaving began => s.look c began
  | .pass ms =>
      if s.mayPass ms then
        let scene := { s.session.scene with now := s.session.scene.now + ms }
        ([], { s with session := { s.session with scene := scene } })
      else ([], s)

end Clients

/-! ## Transcripts -/

/-- What happened, and what it has come to. -/
structure Transcript (ι : Interface) (μ σ κ : Type) where
  log : List (Entry ι μ κ)
  clients : Clients ι μ σ κ

namespace Transcript

variable {ι : Interface} {μ σ κ : Type} [DecidableEq κ]

def extend (log : List (Entry ι μ κ)) (out : List (Entry ι μ κ) × Clients ι μ σ κ) :
    Transcript ι μ σ κ :=
  ⟨log ++ out.1, out.2⟩

def add (t : Transcript ι μ σ κ) (a : Action κ) : Transcript ι μ σ κ :=
  extend t.log (t.clients.step a)

def addAll (t : Transcript ι μ σ κ) (actions : List (Action κ)) : Transcript ι μ σ κ :=
  actions.foldl add t

/-- The transcript of a sequence of turns of clients that share this session. -/
def of (session : Session ι μ σ) (actions : List (Action κ)) : Transcript ι μ σ κ :=
  addAll ⟨[], .opened session⟩ actions

end Transcript

/-! ## The run in flight -/

/-- A run in flight. -/
structure Ticket (ι : Interface) (μ κ : Type) where
  client : κ
  kept : Bool
  script : Script
  loops : Option Nat
  /-- The memory that the run began with. -/
  memory : Memory μ
  /-- The calls that it made so far. -/
  calls : History (Timed ι)
  /-- Whether it was asked to stop since it began. -/
  stopAsked : Bool

section Current

variable {ι : Interface} {μ κ : Type}

/-- The run in flight after an entry. -/
def note : Option (Ticket ι μ κ) → Entry ι μ κ → Option (Ticket ι μ κ)
  | _, .begun c kept script loops m => some ⟨c, kept, script, loops, m, [], false⟩
  | o, .called event => o.map fun t => { t with calls := t.calls ++ [event] }
  | o, .raised => o.map fun t => { t with stopAsked := true }
  | o, .asked _ .stop => o.map fun t => { t with stopAsked := true }
  | o, .asked _ .exit => o.map fun t => { t with stopAsked := true }
  | o, .asked _ _ => o
  | _, .ended _ _ _ => none
  | o, .told _ _ => o

def current (log : List (Entry ι μ κ)) : Option (Ticket ι μ κ) :=
  log.foldl note none

end Current

end Session
end MacroReplay
