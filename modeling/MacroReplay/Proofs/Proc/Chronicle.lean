import MacroReplay.Proc.Timeline
import MacroReplay.Proofs.Proc.History

/-!
# Chronicles of timed processes

A chronicle lists the calls that a timed process makes on a timeline, each with the moment at which it
was made and with its reply.

* `Timeline.chronicle` — the chronicle of a process that is played without a horizon;
* `Timeline.Completes` — the process comes to its end, with this chronicle, result and scene;
* `Timeline.timerMillis_le`, `Timeline.timerMillis_pos` — what a timer makes of a duration;
* `Timeline.ask_ends`, `Timeline.pause_ends` — the ends of bounded calls and of pauses.
-/

namespace MacroReplay

namespace Duration

/-- Whole milliseconds can be subtracted before or after rounding up. -/
theorem toMillisUp_sub_ofMillis (d : Duration) (ms : Nat) :
    (d - ofMillis ms).toMillisUp = d.toMillisUp - ms := by
  show (d.nanoseconds - ms * 1000000 + 999999) / 1000000 = (d.nanoseconds + 999999) / 1000000 - ms
  omega

theorem toMillisUp_ofMillis (ms : Nat) : (ofMillis ms).toMillisUp = ms := by
  show (ms * 1000000 + 999999) / 1000000 = ms
  omega

theorem toMillisUp_max (d d' : Duration) :
    (max d d').toMillisUp = max d.toMillisUp d'.toMillisUp := by
  show (max d.nanoseconds d'.nanoseconds + 999999) / 1000000 =
    max ((d.nanoseconds + 999999) / 1000000) ((d'.nanoseconds + 999999) / 1000000)
  omega

theorem toMillisUp_min_le (d d' : Duration) : (min d d').toMillisUp ≤ d'.toMillisUp := by
  show (min d.nanoseconds d'.nanoseconds + 999999) / 1000000 ≤ (d'.nanoseconds + 999999) / 1000000
  omega

theorem ofMillis_add (ms ms' : Nat) : ofMillis ms + ofMillis ms' = ofMillis (ms + ms') := by
  show Duration.mk (ms * 1000000 + ms' * 1000000) = ⟨(ms + ms') * 1000000⟩
  rw [Nat.add_mul]

/-- Nothing is left of a duration once as many milliseconds as it fills have passed. -/
theorem sub_ofMillis_eq_zero_iff (d : Duration) (ms : Nat) :
    (d - ofMillis ms).nanoseconds = 0 ↔ d.toMillisUp ≤ ms := by
  show d.nanoseconds - ms * 1000000 = 0 ↔ (d.nanoseconds + 999999) / 1000000 ≤ ms
  omega

/-- While something is left of a duration, less of it is left with each millisecond that passes. -/
theorem sub_ofMillis_lt {d : Duration} {ms ms' ms'' : Nat}
    (hleft : (d - ofMillis ms').nanoseconds ≠ 0) (hle : ms ≤ ms') (hlt : ms' < ms'') :
    (d - ofMillis ms'').nanoseconds < (d - ofMillis ms).nanoseconds := by
  have hleft' : d.nanoseconds - ms' * 1000000 ≠ 0 := hleft
  show d.nanoseconds - ms'' * 1000000 < d.nanoseconds - ms * 1000000
  omega

end Duration

namespace Timeline

variable {ι : Interface} {σ α ρ : Type}

/-! ## Timers -/

/-- The durations that a timer can be set to; a longer one ends it too early. -/
def IsSettable (d : Duration) : Prop :=
  d.wholeSeconds < Nat.pow 2 63

instance (d : Duration) : Decidable (IsSettable d) :=
  inferInstanceAs (Decidable (d.wholeSeconds < Nat.pow 2 63))

/-- A duration that a timer can be set to is waited for in full. -/
theorem timerMillis_eq {d : Duration} (h : IsSettable d) : timerMillis d = d.toMillisUp :=
  if_neg (Nat.not_le.2 h)

/-- A timer never waits longer than it is asked to, rounded up. -/
theorem timerMillis_le (d : Duration) : timerMillis d ≤ d.toMillisUp := by
  by_cases hfar : Nat.pow 2 63 ≤ d.wholeSeconds
  · have hns : 9223372036854775808 ≤ d.nanoseconds / 1000000000 := hfar
    rw [timerMillis, if_pos hfar]
    show 30 * 365 * 86400 * 1000 ≤ (d.nanoseconds + 999999) / 1000000
    omega
  · exact Nat.le_of_eq (timerMillis_eq (Nat.lt_of_not_le hfar))

/-- A timer that is set to some time waits at least a millisecond. -/
theorem timerMillis_pos {d : Duration} (h : 0 < d.nanoseconds) : 0 < timerMillis d := by
  unfold timerMillis
  split
  · decide
  · show 0 < (d.nanoseconds + 999999) / 1000000
    omega

/-! ## Chronicles -/

/-- Calls with their replies, and the moments at which they were made. -/
abbrev Chronicle (ι : Interface) := List (Nat × Event (Timed ι))

/-- The calls of a process that is played without a horizon; one that never ends is left out. -/
def chronicle (w : World ι σ) : Proc (Timed ι) α → Scene σ → Chronicle ι
  | .done _, _ => []
  | .call c next, s =>
      match (turn w s c).ends with
      | some t => (s.now, ⟨c, t.reply⟩) :: chronicle w (next t.reply) (t.scene s.stopRequested)
      | none => []

structure Completes (w : World ι σ) (p : Proc (Timed ι) α) (s : Scene σ) (log : Chronicle ι)
    (a : α) (s' : Scene σ) : Prop where
  finishes : proceed w none p s = .finished a s'
  chronicle_eq : chronicle w p s = log

theorem completes_done (w : World ι σ) (a : α) (s : Scene σ) :
    Completes w (.done a) s [] a s :=
  ⟨rfl, rfl⟩

/-- A completed call, and then what is left of the process. -/
theorem Completes.call {w : World ι σ} {c : Timed.Call ι}
    {next : (Timed ι).Reply c → Proc (Timed ι) α} {s s' : Scene σ}
    {t : Turn σ ((Timed ι).Reply c)} {log : Chronicle ι} {a : α}
    (hends : (turn w s c).ends = some t)
    (hnext : Completes w (next t.reply) (t.scene s.stopRequested) log a s') :
    Completes w (.call c next) s ((s.now, ⟨c, t.reply⟩) :: log) a s' := by
  have hdue : dueBefore none (turn w s c).ends = some t := by
    rw [hends]
    rfl
  refine ⟨?_, ?_⟩
  · simp only [proceed, hdue]
    exact hnext.finishes
  · simp only [chronicle, hends]
    rw [hnext.chronicle_eq]

/-! ## The ends of calls -/

/-- How a call with a time limit may end after some milliseconds when no stop is requested. -/
inductive Bounded (most took : Nat) : Outcome ρ → Prop where
  | replied (r : ρ) : took ≤ most → Bounded most took (.replied r)
  | faulted (f : Fault) : took ≤ most → Bounded most took (.faulted f)
  | expired : took = most → Bounded most took .expired

/-- A bounded call ends at its limit at the latest. -/
theorem ask_ends {w : World ι σ} {s : Scene σ} {c : ι.Call} (limit : Duration)
    (hstop : s.stopRequested = false) (hcalm : (w.answer s.world s.now c).raisesStop = false) :
    ∃ took outcome world,
      (turn w s (.ask c (some limit) true)).ends =
        some ⟨s.now + took, ⟨.ofMillis took, outcome⟩, world, false⟩ ∧
      Bounded (timerMillis limit) took outcome := by
  let a := w.answer s.world s.now c
  have hends : (turn w s (.ask c (some limit) true)).ends = boundedEnd s.now (some limit) a := by
    simp [turn, hstop, a]
  rw [hends]
  unfold boundedEnd
  cases htakes : a.takes with
  | none => exact ⟨_, _, _, rfl, .expired rfl⟩
  | some took =>
      by_cases hmost : took ≤ timerMillis limit
      · refine ⟨took, outcomeOf a.result, a.finished, ?_, ?_⟩
        · simp [hmost, show a.raisesStop = false from hcalm]
        · cases a.result with
          | ok r => exact .replied r hmost
          | error f => exact .faulted f hmost
      · exact ⟨timerMillis limit, .expired, a.begun, by simp [hmost], .expired rfl⟩

/-- Without a stop a pause ends when its timer does. -/
theorem pause_ends (w : World ι σ) {s : Scene σ} (d : Duration) (hstop : s.stopRequested = false) :
    (turn w s (.pause d)).ends =
      some ⟨s.now + timerMillis d, ⟨.ofMillis (timerMillis d), false⟩, s.world, false⟩ := by
  simp [turn, hstop]

end Timeline
end MacroReplay
