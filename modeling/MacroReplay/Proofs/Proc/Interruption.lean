import MacroReplay.Proofs.Proc.Contract
import MacroReplay.Proofs.Proc.Suspension

/-!
# Requests to stop that find a process waiting

A process that waits in a pause or in a call that heeds the request is told of it at once. One that waits
in a bare call is not: it goes on as if nobody had requested anything.

* `Proc.Prompt` — once it is told of a stop the process ends without waiting again, and behind a bare
  call it takes no notice of one;
* `Timeline.InFlight` — a process waits at the moment of the request;
* `Proc.Prompt.resume_of_heeding`, `Proc.Prompt.resume_of_bare` — what becomes of the two kinds of waits.
-/

namespace MacroReplay

/-- The call waits for its end, come what may. -/
def Timed.Call.isBare {ι : Interface} : Timed.Call ι → Bool
  | .ask _ _ heedsStop => !heedsStop
  | _ => false

/-! ## Processes that answer to a stop -/

namespace Proc

variable {ι : Interface} {α β : Type}

/-- The process reads the clock at most, and what it ends with satisfies `Q`. -/
abbrev EndsAtOnce (Q : α → Prop) (p : Proc (Timed ι) α) : Prop :=
  p.Obeys (fun c : Timed.Call ι => c = .clock) Q

abbrev Heedless (p : Proc (Timed ι) α) : Prop :=
  p.Obeys (fun c : Timed.Call ι => c = .clock ∨ c.isBare = true) fun _ => True

/-- Wherever the process waits: told of a stop it ends at once, and what it ends with satisfies `Q`. Its
bare calls satisfy `B`, and behind them it cannot be told of a stop any more. -/
def Prompt (B : Timed.Call ι → Prop) (Q : α → Prop) : Proc (Timed ι) α → Prop
  | .done _ => True
  | .call c next =>
      (∀ took reply, Timeline.interruption took c = some reply → (next reply).EndsAtOnce Q) ∧
      (c.isBare = true → B c ∧ ∀ reply, (next reply).Heedless) ∧
      ∀ reply, (next reply).Prompt B Q

variable {B : Timed.Call ι → Prop}

/-- A process that only reads the clock has no call that a stop could end. -/
theorem EndsAtOnce.heedless {R : α → Prop} {p : Proc (Timed ι) α} (hp : p.EndsAtOnce R) :
    p.Heedless :=
  hp.mono (fun _ hc => .inl hc) fun _ _ => trivial

/-- A process that only reads the clock has nothing to be told in. -/
theorem EndsAtOnce.prompt {R Q : α → Prop} {p : Proc (Timed ι) α} (hp : p.EndsAtOnce R) :
    p.Prompt B Q := by
  induction p with
  | done a => trivial
  | call c next ih =>
      -- Nobody waits for the clock, so it is neither interrupted nor bare.
      obtain ⟨rfl, hnext⟩ := hp
      exact ⟨nofun, nofun, fun reply => ih reply (hnext reply)⟩

/-- A prompt process may be followed by one that ends at once. -/
theorem Prompt.bind {Q : α → Prop} {R : β → Prop} {p : Proc (Timed ι) α}
    {f : α → Proc (Timed ι) β}
    (hp : p.Prompt B Q) (hf : ∀ a, (f a).EndsAtOnce fun b => Q a → R b) : (p.bind f).Prompt B R := by
  induction p with
  | done a => exact (hf a).prompt
  | call c next ih =>
      obtain ⟨hstopped, hbare, hnext⟩ := hp
      refine ⟨?_, ?_, fun reply => ih reply (hnext reply)⟩
      -- Told of a stop, the first process ends at once with `Q`, and the second one behind it with `R`.
      · intro took reply hreply
        apply Obeys.bind
        refine (hstopped took reply hreply).mono (fun _ hc => hc) ?_
        intro a ha
        exact (hf a).mono (fun _ hc => hc) fun b hb => hb ha
      · intro hc
        refine ⟨(hbare hc).1, fun reply => ?_⟩
        apply Obeys.bind
        refine ((hbare hc).2 reply).mono (fun _ hc => hc) ?_
        intro a _
        exact (hf a).heedless

end Proc

/-! ## On a timeline -/

namespace Timeline

variable {ι : Interface} {σ α : Type} {w : World ι σ}

def Status.withStop : Status ι σ α → Status ι σ α
  | .finished a s => .finished a { s with stopRequested := true }
  | .waiting p s => .waiting p { s with stopRequested := true }

/-- A call that ends before the horizon is followed by the rest of the process. -/
theorem proceed_of_due {horizon : Option Nat} {c : Timed.Call ι}
    {next : (Timed ι).Reply c → Proc (Timed ι) α} {s : Scene σ} {t : Turn σ ((Timed ι).Reply c)}
    (hdue : dueBefore horizon (turn w s c).ends = some t) :
    proceed w horizon (.call c next) s =
      proceed w horizon (next t.reply) (t.scene s.stopRequested) := by
  simp only [proceed, hdue]

/-- A call that does not end before the horizon leaves the process waiting. -/
theorem proceed_of_pending {horizon : Option Nat} {c : Timed.Call ι}
    {next : (Timed ι).Reply c → Proc (Timed ι) α} {s : Scene σ}
    (hdue : dueBefore horizon (turn w s c).ends = none) :
    proceed w horizon (.call c next) s =
      .waiting ⟨c, next, s.now, (turn w s c).ends⟩ { s with world := (turn w s c).begun } := by
  simp only [proceed, hdue]

/-- A process that only reads the clock ends in the scene that it began in. -/
theorem proceed_of_endsAtOnce {Q : α → Prop} {p : Proc (Timed ι) α} (hp : p.EndsAtOnce Q)
    (s : Scene σ) : ∃ a, proceed w none p s = .finished a s ∧ Q a := by
  induction p with
  | done a => exact ⟨a, rfl, hp⟩
  | call c next ih =>
      obtain ⟨rfl, hnext⟩ := hp
      rw [proceed_of_atOnce rfl rfl]
      exact ih _ (hnext _)

/-- Bare calls and the clock take the course that they take without a stop. -/
theorem turn_withStop {c : Timed.Call ι} (hc : c = .clock ∨ c.isBare = true) (s : Scene σ) :
    turn w { s with stopRequested := true } c = turn w s c := by
  rcases hc with rfl | hc
  · rfl
  · cases c with
    | clock | stopRequested | pause => cases hc
    | ask c limit heedsStop =>
        cases heedsStop with
        | true => cases hc
        | false => rfl

/-- Once a stop was requested, it makes no difference whether the call raises one. -/
theorem Turn.scene_true {ρ : Type} (t : Turn σ ρ) (stop : Bool) :
    t.scene true = { t.scene stop with stopRequested := true } := by
  simp [Turn.scene]

/-- A process that cannot be told of a stop does the same with and without one. -/
theorem proceed_of_heedless {horizon : Option Nat} {p : Proc (Timed ι) α} (hp : p.Heedless)
    (s : Scene σ) :
    proceed w horizon p { s with stopRequested := true } = (proceed w horizon p s).withStop := by
  induction p generalizing s with
  | done a => rfl
  | call c next ih =>
      obtain ⟨hc, hnext⟩ := hp
      rw [proceed, proceed, turn_withStop hc]
      cases dueBefore horizon (turn w s c).ends with
      | none => rfl
      | some t =>
          show proceed w horizon (next t.reply) (t.scene true) = _
          rw [t.scene_true s.stopRequested]
          exact ih t.reply (hnext t.reply) (t.scene s.stopRequested)

/-- No call ends before it began. -/
theorem now_le_of_turn {s : Scene σ} {c : Timed.Call ι} {t : Turn σ ((Timed ι).Reply c)}
    (hends : (turn w s c).ends = some t) : s.now ≤ t.moment := by
  cases c with
  | clock | stopRequested =>
      cases hends
      exact Nat.le_refl _
  | pause d =>
      simp only [turn] at hends
      split at hends
      · cases hends
        exact Nat.le_refl _
      · cases hends
        exact Nat.le_add_right _ _
  | ask c limit heedsStop =>
      simp only [turn] at hends
      split at hends
      · cases hends
        exact Nat.le_refl _
      · simp only [boundedEnd] at hends
        split at hends
        · cases hends
          exact Nat.le_add_right _ _
        · cases hends
          split <;> exact Nat.le_add_right _ _
        · cases hends
          exact Nat.le_add_right _ _
        · cases hends

/-- Time does not run backwards. -/
theorem now_le_proceed (w : World ι σ) (horizon : Option Nat) (p : Proc (Timed ι) α) (s : Scene σ) :
    s.now ≤ (proceed w horizon p s).scene.now := by
  induction p generalizing s with
  | done a => exact Nat.le_refl _
  | call c next ih =>
      rw [proceed]
      split
      next t hdue =>
        calc
          s.now ≤ t.moment := now_le_of_turn (isBefore_of_dueBefore hdue).1
          _ ≤ _ := ih t.reply (t.scene s.stopRequested)
      next => exact Nat.le_refl _

/-- At a moment the process waits for the end of a call, which comes later, and no stop was requested so
far. -/
structure InFlight (w : World ι σ) (p : Proc (Timed ι) α) (s : Scene σ) (moment : Nat)
    (q : Waiting ι σ α) (s' : Scene σ) : Prop where
  reached : ∃ horizon, proceed w horizon p s = .waiting q s'
  calm : s'.stopRequested = false
  begun : s'.now ≤ moment
  pending : ∀ t, q.ends = some t → moment < t.moment

/-- A process that waits in a call which the stop ends goes on with the reply that tells so. -/
theorem resume_of_interruption {q : Waiting ι σ α} {s : Scene σ} {moment : Nat}
    {reply : (Timed ι).Reply q.call} (hreply : interruption (moment - q.since) q.call = some reply) :
    resume w none q { s with now := moment, stopRequested := true } =
      proceed w none (q.next reply) { s with now := moment, stopRequested := true } := by
  simp [resume, hreply, isBefore]

end Timeline

namespace Proc.Prompt

open Timeline

variable {ι : Interface} {σ α : Type} {w : World ι σ} {B : Timed.Call ι → Prop} {Q : α → Prop}
  {p : Proc (Timed ι) α} {s s' : Scene σ} {moment : Nat} {q : Waiting ι σ α}

/-- What is left of a prompt process when it waits is prompt. The end that it waits for was settled in
the scene in which the call was made. -/
theorem of_waiting {horizon : Option Nat} (hp : p.Prompt B Q)
    (hwaits : proceed w horizon p s = .waiting q s') :
    (Proc.call q.call q.next).Prompt B Q ∧
      ∃ s₀, q.ends = (turn w s₀ q.call).ends ∧ s₀.now = s'.now := by
  induction p generalizing s with
  | done a => cases hwaits
  | call c next ih =>
      rw [proceed] at hwaits
      split at hwaits
      next t _ => exact ih t.reply (hp.2.2 t.reply) hwaits
      next =>
        cases hwaits
        exact ⟨hp, s, rfl, rfl⟩

/-- A process that waits in a pause or a call that heeds the stop ends at the moment of the request. -/
theorem resume_of_heeding (hp : p.Prompt B Q) (hflight : InFlight w p s moment q s')
    (hheeds : q.call.isBare = false) :
    ∃ a, resume w none q { s' with now := moment, stopRequested := true } =
        .finished a { s' with now := moment, stopRequested := true } ∧ Q a := by
  obtain ⟨horizon, hwaits⟩ := hflight.reached
  obtain ⟨⟨hstopped, -, -⟩, s₀, hends, hnow⟩ := hp.of_waiting hwaits
  -- The clock and the question for a stop are answered at once, so nobody waits for them.
  have hreply : ∃ reply, interruption (moment - q.since) q.call = some reply := by
    have hatOnce : ∀ reply world, q.ends = some ⟨s₀.now, reply, world, false⟩ → False := by
      intro reply world hq
      have hlate : moment < s₀.now := hflight.pending _ hq
      have hbegun := hflight.begun
      omega
    obtain ⟨call, next, since, ends⟩ := q
    cases call with
    | clock => exact (hatOnce _ _ hends).elim
    | stopRequested => exact (hatOnce _ _ hends).elim
    | pause d => exact ⟨_, rfl⟩
    | ask c limit heedsStop =>
        cases heedsStop with
        | true => exact ⟨_, rfl⟩
        | false => cases hheeds
  obtain ⟨reply, hreply⟩ := hreply
  rw [resume_of_interruption hreply]
  exact proceed_of_endsAtOnce (hstopped _ reply hreply) _

/-- A process that waits in a bare call goes on as if no stop had been requested, and ends later. -/
theorem resume_of_bare (hp : p.Prompt B Q) (hflight : InFlight w p s moment q s')
    (hbare : q.call.isBare = true) :
    B q.call ∧
      resume w none q { s' with now := moment, stopRequested := true } =
        (resume w none q { s' with now := moment }).withStop ∧
      ∀ a scene, resume w none q { s' with now := moment, stopRequested := true } =
        .finished a scene → moment < scene.now := by
  obtain ⟨horizon, hwaits⟩ := hflight.reached
  obtain ⟨⟨-, hcall, -⟩, -⟩ := hp.of_waiting hwaits
  obtain ⟨hloose, hheedless⟩ := hcall hbare
  -- With a stop or without one, the call ends as it was to end when it was made.
  have hnone : ∀ took, interruption took q.call = none := by
    intro took
    obtain ⟨call, next, since, ends⟩ := q
    cases call with
    | clock | stopRequested | pause => cases hbare
    | ask c limit heedsStop =>
        cases heedsStop with
        | true => cases hbare
        | false => rfl
  have hpending : q.ends = none → ∀ stop,
      resume w none q { s' with now := moment, stopRequested := stop } =
        .waiting q { s' with now := moment, stopRequested := stop } := by
    intro hq stop
    simp [resume, hnone, hq, dueBefore, Option.filter]
  have hdue : ∀ t, q.ends = some t → ∀ stop,
      resume w none q { s' with now := moment, stopRequested := stop } =
        proceed w none (q.next t.reply) (t.scene stop) := by
    intro t hq stop
    simp [resume, hnone, hq, dueBefore, Option.filter, isBefore]
  refine ⟨hloose, ?_, ?_⟩
  · have hcalm : ({ s' with now := moment } : Scene σ) =
        { s' with now := moment, stopRequested := false } := by rw [hflight.calm]
    rw [hcalm]
    cases hq : q.ends with
    | none =>
        rw [hpending hq, hpending hq]
        rfl
    | some t =>
        rw [hdue t hq, hdue t hq, t.scene_true false]
        exact proceed_of_heedless (hheedless t.reply) (t.scene false)
  · intro a scene hfinished
    cases hq : q.ends with
    | none =>
        rw [hpending hq] at hfinished
        cases hfinished
    | some t =>
        rw [hdue t hq] at hfinished
        have hlater : (t.scene true).now ≤ scene.now := by
          have hnow := now_le_proceed w none (q.next t.reply) (t.scene true)
          rwa [hfinished] at hnow
        exact Nat.lt_of_lt_of_le (hflight.pending t hq) hlater

end Proc.Prompt
end MacroReplay
