import MacroReplay.Proofs.Browser.Promptness
import MacroReplay.Proofs.Handler.Atomicity
import MacroReplay.Proofs.Proc.Horizon
import MacroReplay.Proofs.Retry.Budget

/-!
# Stops during retried lookups

A retried lookup during which a stop is requested. It looks at the request in four places: before and
during an attempt, and before and during a pause. Its run is compared with the run in which nobody
requests a stop: up to the moment of the request they are the same.

* `Retry.exists_finished` — without a stop the lookup comes to its end;
* `Retry.stoppedAt_of_waiting` — a lookup that waits when the stop is requested ends there;
* `Retry.stoppedAt_retry` — a stop at any moment, before the lookup, during it or behind it.
-/

namespace MacroReplay
namespace Retry

open Timeline

variable {ι : Interface} {σ : Type} {w : World ι σ} {b : Budget} {c : ι.Call}
  {judge : ι.Reply c → CommandResult}

def stopped : Except Fault CommandResult :=
  .ok (.failure .stopped "Macro stopped")

/-- Told of a stop, in an attempt or between two of them, the lookup ends as stopped. -/
theorem prompt_retry {B : Timed.Call ι → Prop} : (retry b c judge).Prompt B (· = stopped) :=
  prompt_attempt _ _ _

/-- A lookup waits in pauses and in calls that heed a stop, and nowhere else. -/
theorem interruption_of_waiting {horizon : Option Nat} {s s' : Scene σ}
    {q : Waiting ι σ (Except Fault CommandResult)}
    (hwaits : proceed w horizon (retry b c judge) s = .waiting q s') (took : Nat) :
    ∃ reply, interruption took q.call = some reply := by
  have hobeys : (retry b c judge).Obeys (fun call => ∃ reply, interruption took call = some reply)
      fun out => ∀ r, out = .ok r → True :=
    obeys_retry (fun _ => ⟨_, rfl⟩) (fun _ => ⟨_, rfl⟩) (judges_anything judge)
  exact hobeys.of_waiting hwaits

/-- A lookup begins with an attempt. -/
theorem exists_retry_eq (b : Budget) (c : ι.Call) (judge : ι.Reply c → CommandResult) :
    ∃ left, retry b c judge = attempt b c judge (left + 1) .zero none := by
  by_cases hnone : b.interval.nanoseconds = 0
  · exact ⟨4294967294, by rw [retry, attemptLimit, if_pos hnone]⟩
  · exact ⟨b.timeout.nanoseconds, by rw [retry, attemptLimit, if_neg hnone]⟩

/-- A lookup that finds a stop requested makes no attempt. -/
theorem proceed_retry_of_stopRequested {s : Scene σ} (hstop : s.stopRequested = true) :
    proceed w none (retry b c judge) s = .finished stopped s := by
  obtain ⟨left, hfirst⟩ := exists_retry_eq b c judge
  have hturn : turn w s (.ask c (some (max (b.timeout - .zero) b.interval)) true) =
      atOnce s ⟨.zero, .stopped⟩ := by
    simp [turn, hstop]
  rw [hfirst]
  exact (proceed_of_atOnce rfl hturn).trans rfl

/-- Without a stop a lookup comes to its end, whatever its attempts take and however they turn out. -/
theorem exists_finished {s : Scene σ} (hinterval : Duration.zero < b.interval)
    (hcalm : ∀ x now, (w.answer x now c).raisesStop = false) (hstop : s.stopRequested = false) :
    ∃ final s', proceed w none (retry b c judge) s = .finished final s' := by
  have hsome : 0 < b.interval.nanoseconds := hinterval
  have hattempts : Attempts w b c judge (retry b c judge) s.now none 0 s := by
    rw [retry, attemptLimit, if_neg (Nat.pos_iff_ne_zero.1 hsome)]
    exact attempt_tries hcalm hsome hstop (Nat.add_zero s.now).symm (Nat.sub_le ..)
  obtain ⟨log, attempts, final, ended, s', hcompletes, -⟩ := hattempts
  exact ⟨final, s', hcompletes.finishes⟩

/-- A lookup that waits at the moment of the request ends there. -/
theorem stoppedAt_of_waiting {moment : Nat} {s s' : Scene σ}
    {q : Waiting ι σ (Except Fault CommandResult)}
    (hwaits : proceed w (some moment) (retry b c judge) s = .waiting q s') :
    stoppedAt w moment (retry b c judge) s = .finished stopped ⟨moment, true, s'.world⟩ := by
  obtain ⟨reply, hreply⟩ := interruption_of_waiting hwaits (moment - q.since)
  obtain ⟨⟨hprompt, -, -⟩, -⟩ := (prompt_retry (B := fun _ => True)).of_waiting hwaits
  obtain ⟨final, hfinal, rfl⟩ := proceed_of_endsAtOnce (w := w) (hprompt _ reply hreply)
    { s' with now := moment, stopRequested := true }
  rw [stoppedAt, hwaits]
  exact (resume_of_interruption hreply).trans hfinal

/-- A retried lookup and a stop that is requested at some moment, compared with the same lookup when no
stop is requested. A stop from before the lookup ends it at once, without an attempt. A stop from after
its end changes nothing. A stop in between ends it at that moment, and up to then it made the attempts
that it makes without a stop. The surroundings keep a diary of the moments at which the
attempts began. -/
theorem stoppedAt_retry (w : World ι σ) (b : Budget) (c : ι.Call)
    (judge : ι.Reply c → CommandResult) (s : Scene σ) (hinterval : Duration.zero < b.interval)
    (hcalm : ∀ x now, (w.answer x now c).raisesStop = false) :
    (s.stopRequested = true →
      proceed w.diary none (retry b c judge) s.withDiary = .finished stopped s.withDiary) ∧
    (s.stopRequested = false →
      ∃ final s', proceed w.diary none (retry b c judge) s.withDiary = .finished final s' ∧
        ∀ moment, s.now ≤ moment →
          (s'.now < moment →
            stoppedAt w.diary moment (retry b c judge) s.withDiary = .finished final s') ∧
          (moment ≤ s'.now → ∃ world,
            stoppedAt w.diary moment (retry b c judge) s.withDiary =
              .finished stopped ⟨moment, true, world⟩ ∧
            (s.now < moment → world.asked = s'.world.asked.filter (· < moment)))) := by
  refine ⟨fun hstop => proceed_retry_of_stopRequested (s := s.withDiary) hstop, ?_⟩
  intro hstop
  have hfinishes : ∃ final s', proceed w.diary none (retry b c judge) s.withDiary =
      .finished final s' :=
    exists_finished hinterval (fun d => hcalm d.world) hstop
  obtain ⟨final, s', hends⟩ := hfinishes
  refine ⟨final, s', hends, ?_⟩
  intro moment hmoment
  cases hplayed : proceed w.diary (some moment) (retry b c judge) s.withDiary with
  | finished a s₁ =>
      -- Played up to the moment, the lookup was over before it.
      cases (finished_of_horizon hplayed).symm.trans hends
      have hover : s'.now < moment := by
        obtain ⟨left, hfirst⟩ := exists_retry_eq b c judge
        rw [hfirst] at hplayed
        exact now_lt_of_finished_call hplayed
      refine ⟨fun _ => ?_, fun hlate => absurd hover (Nat.not_lt.2 hlate)⟩
      rw [stoppedAt, hplayed]
  | waiting q s₁ =>
      have hlate : moment ≤ s'.now := le_now_of_waiting hplayed hends
      refine ⟨fun hover => absurd hover (Nat.not_lt.2 hlate), fun _ => ?_⟩
      exact ⟨s₁.world, stoppedAt_of_waiting hplayed,
        fun hlater => asked_of_waiting rfl hlater hplayed hends⟩

/-- The first attempt fails after 30 milliseconds, and the second one begins at 70 and is given up at
110. -/
theorem proceed_retry_stalling :
    proceed stalling.diary none (retry ⟨.ofMillis 100, .ofMillis 40⟩ () id)
        (Scene.withDiary ⟨0, false, 0⟩) =
      .finished (.ok (.failure .timeout "missing")) ⟨110, false, ⟨2, [0, 70]⟩⟩ := by
  have hfirst : (turn stalling.diary ⟨0, false, ⟨0, []⟩⟩
      (.ask () (some (.ofMillis 100)) true)).ends =
        some ⟨30, ⟨.ofMillis 30, .replied (.failure .elementNotFound "missing")⟩, ⟨1, [0]⟩,
          false⟩ := rfl
  have hpause : (turn stalling.diary ⟨30, false, ⟨1, [0]⟩⟩ (.pause (.ofMillis 40))).ends =
      some ⟨70, ⟨.ofMillis 40, false⟩, ⟨1, [0]⟩, false⟩ := rfl
  have hsecond : (turn stalling.diary ⟨70, false, ⟨1, [0]⟩⟩
      (.ask () (some (.ofMillis 40)) true)).ends =
        some ⟨110, ⟨.ofMillis 40, .expired⟩, ⟨2, [0, 70]⟩, false⟩ := rfl
  have hlimit : attemptLimit ⟨.ofMillis 100, .ofMillis 40⟩ = 99999999 + 1 + 1 := by decide
  rw [retry, hlimit]
  refine (proceed_of_due ((dueBefore_none _).trans hfirst)).trans ?_
  refine (proceed_of_due (w := stalling.diary) (s := ⟨30, false, ⟨1, [0]⟩⟩)
    ((dueBefore_none _).trans hpause)).trans ?_
  exact proceed_of_due (w := stalling.diary) (s := ⟨70, false, ⟨1, [0]⟩⟩)
    ((dueBefore_none _).trans hsecond)

/-- A stop at 50 finds the lookup in its pause, one at 80 in the second attempt, and one at 120 comes too
late. -/
theorem stoppedAt_retry_stalling :
    Duration.zero < Duration.ofMillis 40 ∧
      (∀ made now, (stalling.answer made now ()).raisesStop = false) ∧
      (∃ world, stoppedAt stalling.diary 50 (retry ⟨.ofMillis 100, .ofMillis 40⟩ () id)
          (Scene.withDiary ⟨0, false, 0⟩) = .finished stopped ⟨50, true, world⟩ ∧
        world.asked = [0]) ∧
      (∃ world, stoppedAt stalling.diary 80 (retry ⟨.ofMillis 100, .ofMillis 40⟩ () id)
          (Scene.withDiary ⟨0, false, 0⟩) = .finished stopped ⟨80, true, world⟩ ∧
        world.asked = [0, 70]) ∧
      stoppedAt stalling.diary 120 (retry ⟨.ofMillis 100, .ofMillis 40⟩ () id)
          (Scene.withDiary ⟨0, false, 0⟩) =
        .finished (.ok (.failure .timeout "missing")) ⟨110, false, ⟨2, [0, 70]⟩⟩ := by
  have hinterval : Duration.zero < Duration.ofMillis 40 := by decide
  have hcalm : ∀ made now, (stalling.answer made now ()).raisesStop = false := by
    intro made now
    by_cases hfirst : made = 0 <;> simp [stalling, hfirst]
  obtain ⟨final, s', hends, hstops⟩ := (stoppedAt_retry stalling ⟨.ofMillis 100, .ofMillis 40⟩ ()
    id ⟨0, false, 0⟩ hinterval hcalm).2 rfl
  cases hends.symm.trans proceed_retry_stalling
  refine ⟨hinterval, hcalm, ?_, ?_, ?_⟩
  · obtain ⟨world, hstopped, hasked⟩ := (hstops 50 (by decide)).2 (by decide)
    exact ⟨world, hstopped, hasked (by decide)⟩
  · obtain ⟨world, hstopped, hasked⟩ := (hstops 80 (by decide)).2 (by decide)
    exact ⟨world, hstopped, hasked (by decide)⟩
  · exact (hstops 120 (by decide)).1 (by decide)

end Retry
end MacroReplay
