import MacroReplay.Proc.Timeline
import MacroReplay.Proofs.Proc.History

/-!
# Suspension points

A timed process reads the clock and asks for the stop request without giving anybody else a turn. It is
suspended while it pauses or waits for a collaborator, and there alone something can come in between.
This module cuts the course of a process at these points.

* `Proc.Reaches` — what is left of a process behind some calls;
* `Timeline.settle` — a process played to its next suspension point;
* `Timeline.Waiting.end?` — how the call that a process is suspended in turns out, as things stand;
* `Timeline.proceed_eq`, `Timeline.resume_eq` — a process played up to a horizon goes from one suspension
  point to the next.
-/

namespace MacroReplay

namespace Proc

variable {ι : Interface} {α : Type}

/-- `p.Reaches h q` means that `p` may make the calls of `h` with these replies and has then to go on as
`q`. -/
inductive Reaches : Proc ι α → History ι → Proc ι α → Prop where
  | refl (p : Proc ι α) : Reaches p [] p
  | call {c : ι.Call} {next : ι.Reply c → Proc ι α} {h : History ι} {q : Proc ι α}
      (reply : ι.Reply c) : Reaches (next reply) h q → Reaches (.call c next) (⟨c, reply⟩ :: h) q

/-- What is reached in two parts is reached by both histories in a row. -/
theorem Reaches.trans {p q r : Proc ι α} {h h' : History ι} (hp : p.Reaches h q)
    (hq : q.Reaches h' r) : p.Reaches (h ++ h') r := by
  induction hp with
  | refl => exact hq
  | call reply _ ih => exact .call reply (ih hq)

/-- To reach an end is to run to it. -/
theorem reaches_done_iff {p : Proc ι α} {h : History ι} {a : α} :
    p.Reaches h (.done a) ↔ p.Runs h a := by
  constructor
  · intro hreach
    generalize hq : Proc.done a = q at hreach
    induction hreach with
    | refl =>
        subst hq
        exact .done a
    | call reply _ ih => exact .call reply (ih hq)
  · intro hrun
    induction hrun with
    | done a => exact .refl _
    | call reply _ ih => exact .call reply ih

end Proc

namespace Timeline

variable {ι : Interface} {σ α : Type}

/-! ## From one suspension point to the next -/

def Status.scene : Status ι σ α → Scene σ
  | .finished _ s => s
  | .waiting _ s => s

def Status.rest : Status ι σ α → Proc (Timed ι) α
  | .finished a _ => .done a
  | .waiting p _ => .call p.call p.next

/-- Plays a process until it ends or is suspended; tells the calls that were made on the way. -/
def settle (w : World ι σ) : Proc (Timed ι) α → Scene σ → History (Timed ι) × Status ι σ α
  | .done a, s => ([], .finished a s)
  | .call .clock next, s =>
      let (h, status) := settle w (next (w.reading s.now)) s
      (⟨.clock, w.reading s.now⟩ :: h, status)
  | .call .stopRequested next, s =>
      let (h, status) := settle w (next s.stopRequested) s
      (⟨.stopRequested, s.stopRequested⟩ :: h, status)
  | .call (.pause d) next, s =>
      let course := turn w s (.pause d)
      ([], .waiting ⟨.pause d, next, s.now, course.ends⟩ { s with world := course.begun })
  | .call (.ask c limit heedsStop) next, s =>
      let course := turn w s (.ask c limit heedsStop)
      ([], .waiting ⟨.ask c limit heedsStop, next, s.now, course.ends⟩
        { s with world := course.begun })

/-- The end of the call that a process is suspended in, as things stand: if a stop is requested and the
call heeds it, then now. -/
def Waiting.end? (p : Waiting ι σ α) (s : Scene σ) : Option (Turn σ ((Timed ι).Reply p.call)) :=
  match (if s.stopRequested then interruption (s.now - p.since) p.call else none) with
  | some reply => some ⟨s.now, reply, s.world, false⟩
  | none => p.ends

/-- The calls made on the way lead from the process to where it is suspended. -/
theorem reaches_settle (w : World ι σ) (p : Proc (Timed ι) α) (s : Scene σ) :
    p.Reaches (settle w p s).1 (settle w p s).2.rest := by
  induction p with
  | done a => exact .refl _
  | call c next ih =>
      cases c with
      | clock =>
          exact Proc.Reaches.call (ι := Timed ι) (c := .clock) (w.reading s.now) (ih _)
      | stopRequested =>
          exact Proc.Reaches.call (ι := Timed ι) (c := .stopRequested) s.stopRequested (ih _)
      | pause | ask => exact .refl _

/-- Nobody requests a stop on the way. -/
theorem stopRequested_settle (w : World ι σ) (p : Proc (Timed ι) α) (s : Scene σ) :
    (settle w p s).2.scene.stopRequested = s.stopRequested := by
  induction p with
  | done a => rfl
  | call c next ih =>
      cases c with
      | clock | stopRequested => exact ih _
      | pause | ask => rfl

/-! ## What a process is told of a stop -/

/-- The reply tells the process that a stop was requested. -/
def tellsStop : Event (Timed ι) → Prop
  | ⟨.clock, _⟩ => False
  | ⟨.stopRequested, answer⟩ => answer = true
  | ⟨.pause _, rest⟩ => rest.stopped = true
  | ⟨.ask _ _ _, ending⟩ => ending.outcome = .stopped

/-- A call tells of a stop only if one was requested when it began. -/
theorem stopRequested_of_turn_tellsStop {w : World ι σ} {s : Scene σ} {c : Timed.Call ι}
    {t : Turn σ ((Timed ι).Reply c)} (hends : (turn w s c).ends = some t)
    (htells : tellsStop ⟨c, t.reply⟩) : s.stopRequested = true := by
  refine Decidable.byContradiction fun hcalm => ?_
  cases c with
  | clock => exact htells
  | stopRequested =>
      cases hends
      exact hcalm htells
  | pause d =>
      rw [turn, if_neg hcalm] at hends
      cases hends
      nomatch htells
  | ask c limit heedsStop =>
      rw [turn, if_neg (by simp [hcalm])] at hends
      -- Without a stop a call ends with a reply or a fault in time, or at its limit.
      have hanswer : ∀ answer : Except Fault (ι.Reply c), outcomeOf answer ≠ .stopped := by
        intro answer
        cases answer <;> nofun
      simp only [boundedEnd] at hends
      split at hends
      · cases hends
        exact hanswer _ htells
      · split at hends
        · cases hends
          exact hanswer _ htells
        · cases hends
          nomatch htells
      · cases hends
        nomatch htells
      · nomatch hends

/-- No call on the way tells of a stop that was not requested. -/
theorem stopRequested_of_settle_tellsStop {w : World ι σ} {p : Proc (Timed ι) α} {s : Scene σ} :
    ∀ event ∈ (settle w p s).1, tellsStop event → s.stopRequested = true := by
  induction p with
  | done a => nofun
  | call c next ih =>
      cases c with
      | clock =>
          intro event hmem htells
          rcases List.mem_cons.1 hmem with rfl | hmem
          · nomatch htells
          · exact ih _ event hmem htells
      | stopRequested =>
          intro event hmem htells
          rcases List.mem_cons.1 hmem with rfl | hmem
          · exact htells
          · exact ih _ event hmem htells
      | pause | ask => nofun

/-- The course of the call, set when it began, does not end with a stop unless one was requested then. -/
def Waiting.Warranted (p : Waiting ι σ α) (stopRequested : Bool) : Prop :=
  ∀ t, p.ends = some t → tellsStop ⟨p.call, t.reply⟩ → stopRequested = true

/-- A process that was just suspended waits in a call whose course was set under the present stop. -/
theorem warranted_settle {w : World ι σ} {p : Proc (Timed ι) α} {s s' : Scene σ}
    {q : Waiting ι σ α} (hsettle : (settle w p s).2 = .waiting q s') :
    q.Warranted s.stopRequested := by
  induction p with
  | done a => nomatch hsettle
  | call c next ih =>
      cases c with
      | clock | stopRequested => exact ih _ hsettle
      | pause | ask =>
          cases hsettle
          intro t hends htells
          exact stopRequested_of_turn_tellsStop hends htells

/-- The call that a process is suspended in does not tell of a stop that was not requested. -/
theorem Waiting.Warranted.end? {p : Waiting ι σ α} {s : Scene σ} (hp : p.Warranted s.stopRequested)
    {t : Turn σ ((Timed ι).Reply p.call)} (hend : p.end? s = some t)
    (htells : tellsStop ⟨p.call, t.reply⟩) : s.stopRequested = true := by
  refine Decidable.byContradiction fun hcalm => ?_
  rw [Waiting.end?, if_neg hcalm] at hend
  exact hcalm (hp t hend htells)

/-! ## Up to a horizon -/

/-- A suspended process goes on if its call ends before the horizon, and waits on otherwise. -/
theorem resume_eq (w : World ι σ) (horizon : Option Nat) (p : Waiting ι σ α) (s : Scene σ) :
    resume w horizon p s =
      match dueBefore horizon (p.end? s) with
      | some t => proceed w horizon (p.next t.reply) (t.scene s.stopRequested)
      | none => .waiting p s := by
  unfold resume Waiting.end?
  generalize (if s.stopRequested then interruption (s.now - p.since) p.call else none) = stopped
  cases stopped with
  | none => rfl
  | some reply =>
      cases hbefore : isBefore s.now horizon <;>
        simp [dueBefore, Option.filter, Turn.scene, hbefore]

/-- A call that is made while a stop is requested turns out as one that is interrupted at once. -/
theorem end?_begun (w : World ι σ) (c : Timed.Call ι) (next : (Timed ι).Reply c → Proc (Timed ι) α)
    (s : Scene σ) :
    Waiting.end? ⟨c, next, s.now, (turn w s c).ends⟩ { s with world := (turn w s c).begun } =
      (turn w s c).ends := by
  unfold Waiting.end?
  cases hstop : s.stopRequested with
  | false => rfl
  | true =>
      -- A call that heeds the stop was not begun, and is interrupted after no time.
      cases c with
      | clock | stopRequested => rfl
      | pause d => simp [interruption, turn, hstop, atOnce, Duration.ofMillis, Duration.zero]
      | ask c limit heedsStop =>
          cases heedsStop with
          | false => rfl
          | true => simp [interruption, turn, hstop, atOnce, Duration.ofMillis, Duration.zero]

/-- A call that takes no time is answered before any horizon that lies ahead. -/
theorem proceed_of_atOnce {w : World ι σ} {horizon : Option Nat} {c : Timed.Call ι}
    {next : (Timed ι).Reply c → Proc (Timed ι) α} {s : Scene σ} {reply : (Timed ι).Reply c}
    (hnow : isBefore s.now horizon = true) (hturn : turn w s c = atOnce s reply) :
    proceed w horizon (.call c next) s = proceed w horizon (next reply) s := by
  have hdue : dueBefore horizon (turn w s c).ends = some ⟨s.now, reply, s.world, false⟩ := by
    simp [hturn, atOnce, dueBefore, Option.filter, hnow]
  have hscene : Turn.scene ⟨s.now, reply, s.world, false⟩ s.stopRequested = s := by
    simp [Turn.scene]
  simp only [proceed, hdue, hscene]

/-- To play a process up to a horizon is to settle it and resume it from there. -/
theorem proceed_eq (w : World ι σ) {horizon : Option Nat} (p : Proc (Timed ι) α) {s : Scene σ}
    (hnow : isBefore s.now horizon = true) :
    proceed w horizon p s =
      match (settle w p s).2 with
      | .finished a s' => .finished a s'
      | .waiting q s' => resume w horizon q s' := by
  induction p with
  | done a => rfl
  | call c next ih =>
      cases c with
      -- The clock and the stop request are answered at once, and now is before the horizon.
      | clock =>
          rw [proceed_of_atOnce hnow rfl]
          exact ih _
      | stopRequested =>
          rw [proceed_of_atOnce hnow rfl]
          exact ih _
      | pause d =>
          simp only [settle, resume_eq, end?_begun, proceed]
          cases dueBefore horizon (turn w s (.pause d)).ends <;> rfl
      | ask c limit heedsStop =>
          simp only [settle, resume_eq, end?_begun, proceed]
          cases dueBefore horizon (turn w s (.ask c limit heedsStop)).ends <;> rfl

/-- What is due before a horizon is an end, and it lies before the horizon. -/
theorem isBefore_of_dueBefore {ρ : Type} {horizon : Option Nat} {ends : Option (Turn σ ρ)}
    {t : Turn σ ρ} (hdue : dueBefore horizon ends = some t) :
    ends = some t ∧ isBefore t.moment horizon = true := by
  simpa [dueBefore, Option.filter_eq_some_iff] using hdue

/-- A process that is played up to a horizon stands before it. -/
theorem isBefore_proceed (w : World ι σ) {horizon : Option Nat} (p : Proc (Timed ι) α) {s : Scene σ}
    (hnow : isBefore s.now horizon = true) :
    isBefore (proceed w horizon p s).scene.now horizon = true := by
  induction p generalizing s with
  | done a => exact hnow
  | call c next ih =>
      rw [proceed]
      split
      next t hdue => exact ih t.reply (isBefore_of_dueBefore hdue).2
      next => exact hnow

/-- A process that is left waiting has nothing to do before the horizon. -/
theorem end?_of_proceed_waiting {w : World ι σ} {horizon : Option Nat} {p : Proc (Timed ι) α}
    {s s' : Scene σ} {q : Waiting ι σ α} (hwaits : proceed w horizon p s = .waiting q s') :
    dueBefore horizon (q.end? s') = none := by
  induction p generalizing s with
  | done a => nomatch hwaits
  | call c next ih =>
      rw [proceed] at hwaits
      split at hwaits
      next t _ => exact ih t.reply hwaits
      next hdue =>
        cases hwaits
        rw [end?_begun]
        exact hdue

/-- A process that waits at a horizon waits in a call that ends no earlier. -/
theorem end?_of_resume_waiting {w : World ι σ} {horizon : Option Nat} {p q : Waiting ι σ α}
    {s s' : Scene σ} (hwaits : resume w horizon p s = .waiting q s') :
    dueBefore horizon (q.end? s') = none := by
  rw [resume_eq] at hwaits
  split at hwaits
  next t _ => exact end?_of_proceed_waiting hwaits
  next hdue =>
    cases hwaits
    exact hdue

/-- The end of the call that a process waits in lies at the horizon or behind it. -/
theorem moment_of_resume_waiting {w : World ι σ} {horizon : Nat} {p q : Waiting ι σ α}
    {s s' : Scene σ} (hwaits : resume w (some horizon) p s = .waiting q s')
    {t : Turn σ ((Timed ι).Reply q.call)} (hend : q.end? s' = some t) : horizon ≤ t.moment := by
  have hdue := end?_of_resume_waiting hwaits
  rw [hend] at hdue
  simpa [dueBefore, Option.filter, isBefore] using hdue

/-- The clock does not pass the horizon. -/
theorem now_resume_le {w : World ι σ} {horizon : Nat} (p : Waiting ι σ α) {s : Scene σ}
    (hnow : s.now ≤ horizon) : (resume w (some horizon) p s).scene.now ≤ horizon := by
  rw [resume_eq]
  split
  next t hdue =>
    have hbefore := isBefore_proceed w (p.next t.reply) (s := t.scene s.stopRequested)
      (isBefore_of_dueBefore hdue).2
    have hlt : (proceed w (some horizon) (p.next t.reply)
        (t.scene s.stopRequested)).scene.now < horizon := by
      simpa [isBefore] using hbefore
    exact Nat.le_of_lt hlt
  next => exact hnow

end Timeline

/-! ## Collaborators that answer -/

/-- Whatever a collaborator is asked, it answers after some time. -/
def World.Answers {ι : Interface} {σ : Type} (w : World ι σ) : Prop :=
  ∀ world now c, (w.answer world now c).takes.isSome = true

namespace World.Answers

open Timeline

variable {ι : Interface} {σ α : Type} {w : World ι σ}

/-- Every call ends. -/
theorem ends_turn (hw : w.Answers) (s : Scene σ) (c : Timed.Call ι) :
    (turn w s c).ends.isSome = true := by
  cases c with
  | clock | stopRequested => rfl
  | pause d =>
      unfold turn
      split <;> rfl
  | ask c limit heedsStop =>
      obtain ⟨took, htakes⟩ := Option.isSome_iff_exists.1 (hw s.world s.now c)
      simp only [turn]
      split
      · rfl
      · cases limit <;> simp [boundedEnd, htakes]

/-- A process that is played without a horizon comes to its end. -/
theorem exists_finished (hw : w.Answers) (p : Proc (Timed ι) α) (s : Scene σ) :
    ∃ a s', proceed w none p s = .finished a s' := by
  induction p generalizing s with
  | done a => exact ⟨a, s, rfl⟩
  | call c next ih =>
      obtain ⟨t, hends⟩ := Option.isSome_iff_exists.1 (hw.ends_turn s c)
      have hdue : dueBefore none (turn w s c).ends = some t := by
        rw [hends]
        rfl
      simp only [proceed, hdue]
      exact ih t.reply _

/-- A suspended process whose call ends comes to an end, if no horizon is set. -/
theorem exists_finished_resume (hw : w.Answers) {p : Waiting ι σ α} (hends : p.ends.isSome = true)
    (s : Scene σ) : ∃ a s', resume w none p s = .finished a s' := by
  have hend : (p.end? s).isSome = true := by
    unfold Waiting.end?
    split
    · rfl
    · exact hends
  obtain ⟨t, ht⟩ := Option.isSome_iff_exists.1 hend
  rw [resume_eq, ht]
  exact hw.exists_finished _ _

/-- The call that a process is suspended in ends. -/
theorem ends_settle (hw : w.Answers) {p : Proc (Timed ι) α} {s s' : Scene σ}
    {q : Waiting ι σ α} (hsettle : (settle w p s).2 = .waiting q s') : q.ends.isSome = true := by
  induction p with
  | done a => nomatch hsettle
  | call c next ih =>
      cases c with
      | clock | stopRequested => exact ih _ hsettle
      | pause | ask =>
          cases hsettle
          exact hw.ends_turn _ _

end World.Answers
end MacroReplay
