/-!
# Processes

A process is what a program does at its boundary: it ends with a result, or makes a call and goes on
with the reply. Calls are data, so a statement about a process can range over every way in which its
surroundings may reply.

- `Interface` says which calls there are and what replies to each
- `Proc` is a process over an interface; every one ends after finitely many calls
- `Proc.bindCalls` replaces every call by a process over another interface
- `Proc.play` answers every call from a state
-/

namespace MacroReplay

/-- The calls that a process may make, with the type of the reply to each. -/
structure Interface where
  Call : Type
  Reply : Call → Type

abbrev Interface.sum (ι κ : Interface) : Interface where
  Call := ι.Call ⊕ κ.Call
  Reply
    | .inl c => ι.Reply c
    | .inr c => κ.Reply c

abbrev Interface.empty : Interface where
  Call := Empty
  Reply := fun c => nomatch c

inductive Proc (ι : Interface) (α : Type) where
  | done (a : α)
  | call (c : ι.Call) (next : ι.Reply c → Proc ι α)

namespace Proc

variable {ι κ : Interface} {α β : Type}

/-- A process followed by another that may use its result. -/
def bind : Proc ι α → (α → Proc ι β) → Proc ι β
  | .done a, f => f a
  | .call c next, f => .call c fun reply => (next reply).bind f

instance : Monad (Proc ι) where
  pure := .done
  bind := bind

def perform (c : ι.Call) : Proc ι (ι.Reply c) :=
  .call c .done

/-- A process with every call replaced by a process over another interface. -/
def bindCalls (f : (c : ι.Call) → Proc κ (ι.Reply c)) : Proc ι α → Proc κ α
  | .done a => .done a
  | .call c next => (f c).bind fun reply => (next reply).bindCalls f

/-- The result of a process whose calls are answered from a state, and the state at its end. -/
def play {σ : Type} (answer : σ → (c : ι.Call) → ι.Reply c × σ) : Proc ι α → σ → α × σ
  | .done a, s => (a, s)
  | .call c next, s =>
      let (reply, s) := answer s c
      (next reply).play answer s

@[simp]
theorem done_bind (a : α) (f : α → Proc ι β) : (Proc.done a).bind f = f a := rfl

@[simp]
theorem call_bind (c : ι.Call) (next : ι.Reply c → Proc ι α) (f : α → Proc ι β) :
    (Proc.call c next).bind f = .call c fun reply => (next reply).bind f := rfl

theorem bind_done (p : Proc ι α) : p.bind .done = p := by
  induction p with
  | done a => rfl
  | call c next ih => simp [ih]

theorem bind_assoc {γ : Type} (p : Proc ι α) (f : α → Proc ι β) (g : β → Proc ι γ) :
    (p.bind f).bind g = p.bind fun a => (f a).bind g := by
  induction p with
  | done a => rfl
  | call c next ih => simp [ih]

end Proc
end MacroReplay
