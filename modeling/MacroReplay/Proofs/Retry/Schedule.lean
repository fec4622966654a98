import Mathlib.Algebra.Order.Floor.Div
import MacroReplay.Proofs.Proc.Horizon
import MacroReplay.Proofs.Retry.Budget

/-!
# The schedule of retried lookups

A retried lookup whose attempts take no time, so that all its time passes in the pauses between them. The
surroundings reply from a tape: to the attempt with number `n` they give the reply with number `n`.

* `World.ofTape` — surroundings that reply at once;
* `Retry.proceed_attempt_of_again` — one attempt and the pause behind it;
* `Retry.proceed_attempt_scheduled` — the attempts as far as they fail, by induction on their number;
* `Retry.retry_onSchedule` — when the attempts are made, how many there are, and what the lookup comes
  to.
-/

namespace MacroReplay

theorem Duration.toMillisUp_min (d d' : Duration) :
    (min d d').toMillisUp = min d.toMillisUp d'.toMillisUp := by
  show (min d.nanoseconds d'.nanoseconds + 999999) / 1000000 =
    min ((d.nanoseconds + 999999) / 1000000) ((d'.nanoseconds + 999999) / 1000000)
  omega

/-- Surroundings that answer every call at once. They count the calls, and the number of a call decides
on the reply. -/
def World.ofTape {ι : Interface} (tape : Nat → (c : ι.Call) → ι.Reply c)
    (reading : Nat → Reading) : World ι Nat where
  answer made _ c := ⟨made + 1, some 0, made + 1, false, .ok (tape made c)⟩
  reading := reading

namespace Retry

open Timeline

variable {ι : Interface}

/-! ## One attempt -/

section Attempt

variable {tape : Nat → (c : ι.Call) → ι.Reply c} {reading : Nat → Reading} {b : Budget} {c : ι.Call}
  {judge : ι.Reply c → CommandResult} {left elapsed now made : Nat} {last : Option String}
  {asked : List Nat}

/-- An attempt that takes no time, and what follows it. -/
theorem proceed_attempt_ofTape :
    proceed (World.ofTape tape reading).diary none
        (attempt b c judge (left + 1) (.ofMillis elapsed) last) ⟨now, false, ⟨made, asked⟩⟩ =
      proceed (World.ofTape tape reading).diary none
        (if (judge (tape made c)).success || !(judge (tape made c)).code.isRetryable then
          .done (.ok (judge (tape made c)))
        else if (b.timeout - .ofMillis elapsed).nanoseconds = 0 then
          .done (.ok (timedOut (remember last (judge (tape made c)))))
        else
          .call (.pause (min b.interval (b.timeout - .ofMillis elapsed))) fun rest =>
            if rest.stopped then .done (.ok (.ofError .stopped))
            else attempt b c judge left (.ofMillis elapsed + rest.took)
              (remember last (judge (tape made c))))
        ⟨now, false, ⟨made + 1, asked ++ [now]⟩⟩ := by
  have hends : (turn (World.ofTape tape reading).diary ⟨now, false, ⟨made, asked⟩⟩
      (.ask c (some (limitAfter b elapsed)) true)).ends =
        some ⟨now, ⟨.ofMillis 0, .replied (tape made c)⟩, ⟨made + 1, asked ++ [now]⟩, false⟩ := by
    simp [turn, boundedEnd, World.diary, World.ofTape, outcomeOf]
  have hadd : Duration.ofMillis elapsed + Duration.ofMillis 0 = Duration.ofMillis elapsed :=
    Duration.ofMillis_add elapsed 0
  refine (proceed_of_due ((dueBefore_none _).trans hends)).trans ?_
  conv_rhs => rw [← hadd]
  rfl

/-- An attempt that succeeds, or fails for good, is the last one. -/
theorem proceed_attempt_of_concluded (hgood : ¬ MayPass (judge (tape made c))) :
    proceed (World.ofTape tape reading).diary none
        (attempt b c judge (left + 1) (.ofMillis elapsed) last) ⟨now, false, ⟨made, asked⟩⟩ =
      .finished (.ok (judge (tape made c))) ⟨now, false, ⟨made + 1, asked ++ [now]⟩⟩ := by
  have hconcludes : ((judge (tape made c)).success || !(judge (tape made c)).code.isRetryable) =
      true := by
    rw [← Bool.not_eq_false]
    exact fun hretries => hgood (mayPass_iff.2 hretries)
  rw [proceed_attempt_ofTape, if_pos hconcludes, proceed]

/-- An attempt that fails when the time is used up is the last one. -/
theorem proceed_attempt_of_exhausted (hmay : MayPass (judge (tape made c)))
    (hover : b.timeout.toMillisUp ≤ elapsed) :
    proceed (World.ofTape tape reading).diary none
        (attempt b c judge (left + 1) (.ofMillis elapsed) last) ⟨now, false, ⟨made, asked⟩⟩ =
      .finished (.ok (timedOut (remember last (judge (tape made c)))))
        ⟨now, false, ⟨made + 1, asked ++ [now]⟩⟩ := by
  have hretries := Bool.eq_false_iff.1 (mayPass_iff.1 hmay)
  have hnone := (Duration.sub_ofMillis_eq_zero_iff b.timeout elapsed).2 hover
  rw [proceed_attempt_ofTape, if_neg hretries, if_pos hnone, proceed]

/-- The milliseconds of the pause behind an attempt. -/
def pauseAfter (b : Budget) (elapsed : Nat) : Nat :=
  timerMillis (min b.interval (b.timeout - .ofMillis elapsed))

/-- An attempt that fails while time is left is followed by a pause and the next one. -/
theorem proceed_attempt_of_again (hmay : MayPass (judge (tape made c)))
    (hleft : elapsed < b.timeout.toMillisUp) :
    proceed (World.ofTape tape reading).diary none
        (attempt b c judge (left + 1) (.ofMillis elapsed) last) ⟨now, false, ⟨made, asked⟩⟩ =
      proceed (World.ofTape tape reading).diary none
        (attempt b c judge left (.ofMillis (elapsed + pauseAfter b elapsed))
          (remember last (judge (tape made c))))
        ⟨now + pauseAfter b elapsed, false, ⟨made + 1, asked ++ [now]⟩⟩ := by
  have hretries := Bool.eq_false_iff.1 (mayPass_iff.1 hmay)
  have hsome : (b.timeout - Duration.ofMillis elapsed).nanoseconds ≠ 0 := fun hnone =>
    absurd ((Duration.sub_ofMillis_eq_zero_iff ..).1 hnone) (Nat.not_le.2 hleft)
  have hpause := pause_ends (World.ofTape tape reading).diary
    (s := ⟨now, false, ⟨made + 1, asked ++ [now]⟩⟩)
    (min b.interval (b.timeout - .ofMillis elapsed)) rfl
  rw [proceed_attempt_ofTape, if_neg hretries, if_neg hsome,
    proceed_of_due ((dueBefore_none _).trans hpause), ← Duration.ofMillis_add]
  rfl

/-- A pause takes an interval, or what is left of the timeout. -/
theorem pauseAfter_eq (hsettable : Timeline.IsSettable (min b.interval b.timeout)) :
    pauseAfter b elapsed = min b.interval.toMillisUp (b.timeout.toMillisUp - elapsed) := by
  have hpause : Timeline.IsSettable (min b.interval (b.timeout - .ofMillis elapsed)) := by
    have hmost : min b.interval.nanoseconds b.timeout.nanoseconds / 1000000000 <
        9223372036854775808 := hsettable
    show min b.interval.nanoseconds (b.timeout.nanoseconds - elapsed * 1000000) / 1000000000 <
      9223372036854775808
    omega
  rw [pauseAfter, timerMillis_eq hpause, Duration.toMillisUp_min, Duration.toMillisUp_sub_ofMillis]

end Attempt

/-! ## All attempts -/

/-- The pauses that a budget has room for: the last one may be shorter than the others. -/
def pauses (b : Budget) : Nat :=
  b.timeout.toMillisUp ⌈/⌉ b.interval.toMillisUp

/-- The milliseconds from the first attempt to the one with this number. -/
def startOf (b : Budget) (number : Nat) : Nat :=
  min (number * b.interval.toMillisUp) b.timeout.toMillisUp

def starts (b : Budget) (began count : Nat) : List Nat :=
  (List.range count).map fun number => began + startOf b number

def lastText (results : Nat → CommandResult) : (count : Nat) → Option String
  | 0 => none
  | count + 1 => remember (lastText results count) (results count)

theorem starts_succ (b : Budget) (began count : Nat) :
    starts b began (count + 1) = starts b began count ++ [began + startOf b count] := by
  simp [starts, List.range_succ]

section Schedule

variable {b : Budget}

theorem toMillisUp_pos {d : Duration} (hsome : Duration.zero < d) : 0 < d.toMillisUp := by
  have hns : 0 < d.nanoseconds := hsome
  show 0 < (d.nanoseconds + 999999) / 1000000
  omega

/-- An attempt with another pause behind it comes before the timeout. -/
theorem startOf_of_lt (hinterval : Duration.zero < b.interval) {number : Nat}
    (hroom : number < pauses b) :
    startOf b number = number * b.interval.toMillisUp ∧
      number * b.interval.toMillisUp < b.timeout.toMillisUp := by
  have hbefore : number * b.interval.toMillisUp < b.timeout.toMillisUp := by
    rw [Nat.mul_comm, ← Nat.not_le, ← ceilDiv_le_iff_le_mul (toMillisUp_pos hinterval)]
    exact Nat.not_le.2 hroom
  exact ⟨Nat.min_eq_left (Nat.le_of_lt hbefore), hbefore⟩

/-- The last attempt comes at the timeout. -/
theorem startOf_pauses (hinterval : Duration.zero < b.interval) :
    startOf b (pauses b) = b.timeout.toMillisUp := by
  have hover : b.timeout.toMillisUp ≤ pauses b * b.interval.toMillisUp := by
    rw [Nat.mul_comm]
    exact (ceilDiv_le_iff_le_mul (toMillisUp_pos hinterval)).1 (Nat.le_refl _)
  exact Nat.min_eq_right hover

/-- A budget has room for no more pauses than it has nanoseconds. -/
theorem pauses_le (hinterval : Duration.zero < b.interval) : pauses b ≤ b.timeout.nanoseconds := by
  have hone : 1 ≤ b.interval.toMillisUp := toMillisUp_pos hinterval
  have hmillis : b.timeout.toMillisUp ≤ b.timeout.nanoseconds := by
    show (b.timeout.nanoseconds + 999999) / 1000000 ≤ b.timeout.nanoseconds
    omega
  calc pauses b
      ≤ b.timeout.toMillisUp := (ceilDiv_le_iff_le_mul hone).2 (Nat.le_mul_of_pos_left _ hone)
    _ ≤ b.timeout.nanoseconds := hmillis

variable {tape : Nat → (c : ι.Call) → ι.Reply c} {reading : Nat → Reading} {c : ι.Call}
  {judge : ι.Reply c → CommandResult}

def sceneOf (b : Budget) (began number : Nat) : Scene (Diary Nat) :=
  ⟨began + startOf b number, false, ⟨number, starts b began number⟩⟩

/-- As long as the attempts fail and pauses are left, one follows another on schedule. -/
theorem proceed_attempt_scheduled (hinterval : Duration.zero < b.interval)
    (hsettable : Timeline.IsSettable (min b.interval b.timeout)) (began left : Nat) {failures : Nat}
    (hroom : failures ≤ pauses b) (hmay : ∀ number < failures, MayPass (judge (tape number c))) :
    proceed (World.ofTape tape reading).diary none
        (attempt b c judge (left + failures) .zero none) ⟨began, false, ⟨0, []⟩⟩ =
      proceed (World.ofTape tape reading).diary none
        (attempt b c judge left (.ofMillis (startOf b failures))
          (lastText (fun number => judge (tape number c)) failures))
        (sceneOf b began failures) := by
  induction failures generalizing left with
  | zero =>
      have hfirst : startOf b 0 = 0 := by simp [startOf]
      rw [sceneOf, hfirst]
      rfl
  | succ failures ih =>
      have hshorter : ∀ number < failures, MayPass (judge (tape number c)) :=
        fun number hlt => hmay number (Nat.lt_succ_of_lt hlt)
      obtain ⟨hstart, hbefore⟩ := startOf_of_lt hinterval hroom
      -- The pause behind the last failure leads to the next attempt, or to the timeout if that is
      -- nearer.
      have hnext : startOf b failures + pauseAfter b (startOf b failures) =
          startOf b (failures + 1) := by
        rw [pauseAfter_eq hsettable, hstart, startOf, Nat.succ_mul]
        omega
      calc proceed (World.ofTape tape reading).diary none
            (attempt b c judge (left + (failures + 1)) .zero none) ⟨began, false, ⟨0, []⟩⟩
          = proceed (World.ofTape tape reading).diary none
              (attempt b c judge (left + 1) (.ofMillis (startOf b failures))
                (lastText (fun number => judge (tape number c)) failures))
              (sceneOf b began failures) := by
            rw [← ih (left + 1) (Nat.le_of_succ_le hroom) hshorter, Nat.add_assoc,
              Nat.add_comm 1]
        _ = _ := by
            rw [sceneOf, proceed_attempt_of_again (hmay failures (Nat.lt_succ_self _)) (by omega),
              Nat.add_assoc, hnext, sceneOf, starts_succ]
            rfl

/-- With an interval there is at most one attempt for each nanosecond of the timeout, and one more. -/
theorem attemptLimit_eq (hinterval : Duration.zero < b.interval) :
    attemptLimit b = b.timeout.nanoseconds + 1 :=
  if_neg (Nat.pos_iff_ne_zero.1 hinterval)

/-- The first result that is no failure which may pass is the result of the lookup. -/
theorem proceed_retry_of_concluded (hinterval : Duration.zero < b.interval)
    (hsettable : Timeline.IsSettable (min b.interval b.timeout)) (began : Nat) {failures : Nat}
    (hroom : failures ≤ pauses b) (hmay : ∀ number < failures, MayPass (judge (tape number c)))
    (hgood : ¬ MayPass (judge (tape failures c))) :
    proceed (World.ofTape tape reading).diary none (retry b c judge) ⟨began, false, ⟨0, []⟩⟩ =
      .finished (.ok (judge (tape failures c)))
        ⟨began + startOf b failures, false, ⟨failures + 1, starts b began (failures + 1)⟩⟩ := by
  have henough : failures + 1 ≤ attemptLimit b := by
    have hmost := pauses_le hinterval
    rw [attemptLimit_eq hinterval]
    omega
  obtain ⟨left, hlimit⟩ := Nat.exists_eq_add_of_le' henough
  rw [retry, hlimit, ← Nat.add_assoc, Nat.add_right_comm,
    proceed_attempt_scheduled hinterval hsettable began (left + 1) hroom hmay, sceneOf,
    proceed_attempt_of_concluded hgood, starts_succ]

variable (tape reading)

/-- A lookup that fails with every attempt on its schedule has used up its budget. -/
theorem proceed_retry_of_exhausted (hinterval : Duration.zero < b.interval)
    (hsettable : Timeline.IsSettable (min b.interval b.timeout)) (began : Nat)
    (hmay : ∀ number ≤ pauses b, MayPass (judge (tape number c))) :
    proceed (World.ofTape tape reading).diary none (retry b c judge) ⟨began, false, ⟨0, []⟩⟩ =
      .finished (.ok (timedOut (lastText (fun number => judge (tape number c)) (pauses b + 1))))
        ⟨began + b.timeout.toMillisUp, false, ⟨pauses b + 1, starts b began (pauses b + 1)⟩⟩ := by
  have henough : pauses b + 1 ≤ attemptLimit b := by
    have hmost := pauses_le hinterval
    rw [attemptLimit_eq hinterval]
    omega
  obtain ⟨left, hlimit⟩ := Nat.exists_eq_add_of_le' henough
  rw [retry, hlimit, ← Nat.add_assoc, Nat.add_right_comm,
    proceed_attempt_scheduled hinterval hsettable began (left + 1) (Nat.le_refl _)
      (fun number hlt => hmay number (Nat.le_of_lt hlt)), sceneOf,
    proceed_attempt_of_exhausted (hmay (pauses b) (Nat.le_refl _))
      (Nat.le_of_eq (startOf_pauses hinterval).symm), starts_succ, startOf_pauses hinterval, lastText]

end Schedule

/-- The schedule of a lookup whose attempts take no time, in the milliseconds of the clock. The attempt
with number `i`, counted from 0, begins `min (i * interval) timeout` after the first one, and there is
room for `⌈timeout / interval⌉` attempts behind the first one. If one of these succeeds, or fails for
good, its result is the result, and none is made behind it. If they all fail, the last one is made at
the timeout, and the lookup ends there. -/
theorem retry_onSchedule (b : Budget) (c : ι.Call) (judge : ι.Reply c → CommandResult)
    (tape : Nat → (c : ι.Call) → ι.Reply c) (reading : Nat → Reading) (began : Nat)
    (hinterval : Duration.zero < b.interval)
    (hsettable : Timeline.IsSettable (min b.interval b.timeout)) :
    (∀ failures ≤ pauses b, (∀ number < failures, MayPass (judge (tape number c))) →
      ¬ MayPass (judge (tape failures c)) →
      proceed (World.ofTape tape reading).diary none (retry b c judge) ⟨began, false, ⟨0, []⟩⟩ =
        .finished (.ok (judge (tape failures c)))
          ⟨began + startOf b failures, false, ⟨failures + 1, starts b began (failures + 1)⟩⟩) ∧
    ((∀ number ≤ pauses b, MayPass (judge (tape number c))) →
      proceed (World.ofTape tape reading).diary none (retry b c judge) ⟨began, false, ⟨0, []⟩⟩ =
          .finished
            (.ok (.failure .timeout ((lastText (fun number => judge (tape number c))
              (pauses b + 1)).getD "Element not found")))
            ⟨began + b.timeout.toMillisUp, false, ⟨pauses b + 1, starts b began (pauses b + 1)⟩⟩ ∧
      (starts b began (pauses b + 1)).getLast? = some (began + b.timeout.toMillisUp)) := by
  refine ⟨?_, ?_⟩
  · intro failures hroom hmay hgood
    exact proceed_retry_of_concluded hinterval hsettable began hroom hmay hgood
  · intro hmay
    refine ⟨proceed_retry_of_exhausted tape reading hinterval hsettable began hmay, ?_⟩
    rw [starts_succ, startOf_pauses hinterval, List.getLast?_concat]

/-- A lookup that fails as often as this, and then succeeds. -/
def failing (failures : Nat) : Nat → Unit → CommandResult :=
  fun number _ => if number < failures then .failure .elementNotFound "missing" else .ok

/-- Each of the failures is one that may pass. -/
theorem mayPass_failing {failures number : Nat} (hlt : number < failures) :
    MayPass (failing failures number ()) := by
  simp [failing, hlt, MayPass, CommandResult.failure]

/-- Pauses of 30 milliseconds within 100: a lookup that fails four times succeeds with its last attempt,
when the time is used up, and one that fails five times does not. -/
theorem retry_onSchedule_hundred :
    Duration.zero < Duration.ofMillis 30 ∧
      Timeline.IsSettable (min (.ofMillis 30) (.ofMillis 100)) ∧
      proceed (World.ofTape (ι := Lookup) (failing 4) stalling.reading).diary none
          (retry ⟨.ofMillis 100, .ofMillis 30⟩ () id) ⟨0, false, ⟨0, []⟩⟩ =
        .finished (.ok .ok) ⟨100, false, ⟨5, [0, 30, 60, 90, 100]⟩⟩ ∧
      proceed (World.ofTape (ι := Lookup) (failing 5) stalling.reading).diary none
          (retry ⟨.ofMillis 100, .ofMillis 30⟩ () id) ⟨0, false, ⟨0, []⟩⟩ =
        .finished (.ok (.failure .timeout "missing")) ⟨100, false, ⟨5, [0, 30, 60, 90, 100]⟩⟩ := by
  have hinterval : Duration.zero < Duration.ofMillis 30 := by decide
  have hsettable : Timeline.IsSettable (min (.ofMillis 30) (.ofMillis 100)) := by decide
  have hschedule (failures : Nat) := retry_onSchedule (ι := Lookup)
    ⟨.ofMillis 100, .ofMillis 30⟩ () id (failing failures) stalling.reading 0 hinterval hsettable
  have hpauses : pauses ⟨.ofMillis 100, .ofMillis 30⟩ = 4 := by decide
  have hstarts : starts ⟨.ofMillis 100, .ofMillis 30⟩ 0 (4 + 1) = [0, 30, 60, 90, 100] := by decide
  refine ⟨hinterval, hsettable, ?_, ?_⟩
  · have hlast : 0 + startOf ⟨.ofMillis 100, .ofMillis 30⟩ 4 = 100 := by decide
    have hfinds : failing 4 4 () = .ok := by decide
    have hends := (hschedule 4).1 4 (by decide) (fun number hlt => mayPass_failing hlt)
      (by simp [hfinds, MayPass, CommandResult.ok])
    simp only [id_eq, hlast, hstarts, hfinds] at hends
    exact hends
  · have htext : lastText (fun number => failing 5 number ()) 5 = some "missing" := by decide
    have hmay : ∀ number ≤ pauses ⟨.ofMillis 100, .ofMillis 30⟩,
        MayPass (failing 5 number ()) := by
      rw [hpauses]
      exact fun number hle => mayPass_failing (Nat.lt_succ_of_le hle)
    have hends := ((hschedule 5).2 hmay).1
    simp only [id_eq, hpauses, hstarts, htext] at hends
    exact hends

end Retry
end MacroReplay
