import MacroReplay.Proofs.Proc.Chronicle
import MacroReplay.Retry

/-!
# The budget of retried lookups

A retried lookup on a timeline on which nobody requests a stop. Attempts may take any time, or never
end, and turn out in any way. Moments are counted in the milliseconds of the clock, and so are the times
of the budget: the last millisecond of a time that ends inside it counts as a whole one.

* `Tries` — what the attempts of a lookup can come to, one constructor for each way in which one ends;
* `attempt_tries` — the lookup does that, by induction on the attempts that are left;
* `keepsBudget_of_tries` — what follows for the times and the result of the lookup;
* `retry_keepsBudget` — the same of the whole lookup.
-/

namespace MacroReplay
namespace Retry

open Timeline

variable {ι : Interface} {σ ρ : Type}

/-! ## Attempts -/

/-- A failure that may pass: the element is not there, or not visible. -/
def MayPass (r : CommandResult) : Prop :=
  r.success = false ∧ (r.code = .elementNotFound ∨ r.code = .elementNotVisible)

/-- The failures that may pass are those after which the lookup goes on. -/
theorem mayPass_iff {r : CommandResult} :
    MayPass r ↔ (r.success || !r.code.isRetryable) = false := by
  have hcode : r.code.isRetryable = true ↔
      r.code = .elementNotFound ∨ r.code = .elementNotVisible := by
    cases r.code <;> simp [ErrorCode.isRetryable]
  simp [MayPass, hcode]

/-- An attempt: when it was made, what it was allowed to take, and how it ended. -/
structure Attempt (ρ : Type) where
  start : Nat
  limit : Duration
  ending : Ending ρ

def Attempt.entry (c : ι.Call) (a : Attempt (ι.Reply c)) : Nat × Event (Timed ι) :=
  (a.start, ⟨.ask c (some a.limit) true, a.ending⟩)

def isAsk : Nat × Event (Timed ι) → Bool
  | (_, ⟨.ask _ _ _, _⟩) => true
  | _ => false

/-- What an attempt may take, some milliseconds after the first one began. -/
def limitAfter (b : Budget) (elapsed : Nat) : Duration :=
  max (b.timeout - .ofMillis elapsed) b.interval

/-- An attempt that is made some milliseconds after the first one began. -/
def attemptAfter (b : Budget) (began elapsed took : Nat) (outcome : Outcome ρ) : Attempt ρ :=
  ⟨began + elapsed, limitAfter b elapsed, ⟨.ofMillis took, outcome⟩⟩

/-- What a lookup can come to from an attempt on: the last message before it, the milliseconds before it,
the attempts, the result, and the milliseconds at the end. -/
inductive Tries (b : Budget) (judge : ρ → CommandResult) (began : Nat) :
    Option String → Nat → List (Attempt ρ) → Except Fault CommandResult → Nat → Prop where
  /-- The attempt succeeds, or fails for good. -/
  | concluded {last : Option String} {elapsed took : Nat} {reply : ρ} :
      took ≤ timerMillis (limitAfter b elapsed) → ¬ MayPass (judge reply) →
      Tries b judge began last elapsed [attemptAfter b began elapsed took (.replied reply)]
        (.ok (judge reply)) (elapsed + took)
  | faulted {last : Option String} {elapsed took : Nat} {f : Fault} :
      took ≤ timerMillis (limitAfter b elapsed) →
      Tries b judge began last elapsed [attemptAfter b began elapsed took (.faulted f)]
        (.error f) (elapsed + took)
  /-- The attempt does not end within its limit. -/
  | expired {last : Option String} {elapsed took : Nat} :
      took = timerMillis (limitAfter b elapsed) →
      Tries b judge began last elapsed [attemptAfter b began elapsed took .expired]
        (.ok (timedOut last)) (elapsed + took)
  /-- The attempt fails, and no time is left for another one. -/
  | exhausted {last : Option String} {elapsed took : Nat} {reply : ρ} :
      took ≤ timerMillis (limitAfter b elapsed) → MayPass (judge reply) →
      b.timeout.toMillisUp ≤ elapsed + took →
      Tries b judge began last elapsed [attemptAfter b began elapsed took (.replied reply)]
        (.ok (timedOut (remember last (judge reply)))) (elapsed + took)
  /-- The attempt fails, and the next one is made after a pause, while there is time. -/
  | again {last : Option String} {elapsed took pause : Nat} {reply : ρ}
      {attempts : List (Attempt ρ)} {final : Except Fault CommandResult} {ended : Nat} :
      MayPass (judge reply) → elapsed + took + pause ≤ b.timeout.toMillisUp →
      Tries b judge began (remember last (judge reply)) (elapsed + took + pause) attempts final
        ended →
      Tries b judge began last elapsed
        (attemptAfter b began elapsed took (.replied reply) :: attempts) final ended

/-! ## What a lookup does -/

section Timeline

variable {w : World ι σ} {b : Budget} {c : ι.Call} {judge : ι.Reply c → CommandResult}

/-- The lookup comes to its end, and this is what its attempts come to. -/
def Attempts (w : World ι σ) (b : Budget) (c : ι.Call) (judge : ι.Reply c → CommandResult)
    (p : Proc (Timed ι) (Except Fault CommandResult)) (began : Nat) (last : Option String)
    (elapsed : Nat) (s : Scene σ) : Prop :=
  ∃ log attempts final ended s', Completes w p s log final s' ∧
    log.filter isAsk = List.map (Attempt.entry c) attempts ∧ s'.now = began + ended ∧
    Tries b judge began last elapsed attempts final ended

/-- The pause before the next attempt takes time, but no more than what is left. -/
theorem pause_bounds {elapsed : Nat} (hinterval : 0 < b.interval.nanoseconds)
    (hleft : (b.timeout - Duration.ofMillis elapsed).nanoseconds ≠ 0) :
    0 < timerMillis (min b.interval (b.timeout - .ofMillis elapsed)) ∧
      elapsed + timerMillis (min b.interval (b.timeout - .ofMillis elapsed)) ≤
        b.timeout.toMillisUp := by
  have hsome : 0 < (min b.interval (b.timeout - Duration.ofMillis elapsed)).nanoseconds := by
    show 0 < min b.interval.nanoseconds (b.timeout - Duration.ofMillis elapsed).nanoseconds
    omega
  have hmost : timerMillis (min b.interval (b.timeout - .ofMillis elapsed)) ≤
      b.timeout.toMillisUp - elapsed := by
    calc timerMillis (min b.interval (b.timeout - .ofMillis elapsed))
        ≤ (min b.interval (b.timeout - .ofMillis elapsed)).toMillisUp := timerMillis_le _
      _ ≤ (b.timeout - .ofMillis elapsed).toMillisUp := Duration.toMillisUp_min_le ..
      _ = b.timeout.toMillisUp - elapsed := Duration.toMillisUp_sub_ofMillis ..
  have hbefore : ¬ b.timeout.toMillisUp ≤ elapsed :=
    fun hover => hleft ((Duration.sub_ofMillis_eq_zero_iff ..).2 hover)
  exact ⟨timerMillis_pos hsome, by omega⟩

section Step

variable {began elapsed took : Nat} {last : Option String} {s : Scene σ}
  {outcome : Outcome (ι.Reply c)} {world : σ}
  {next : Ending (ι.Reply c) → Proc (Timed ι) (Except Fault CommandResult)}

/-- An attempt behind which the lookup ends. -/
theorem Attempts.ends {final : Except Fault CommandResult}
    (hends : (turn w s (.ask c (some (limitAfter b elapsed)) true)).ends =
      some ⟨s.now + took, ⟨.ofMillis took, outcome⟩, world, false⟩)
    (hnow : s.now = began + elapsed) (hdone : next ⟨.ofMillis took, outcome⟩ = .done final)
    (htries : Tries b judge began last elapsed [attemptAfter b began elapsed took outcome] final
      (elapsed + took)) :
    Attempts w b c judge (.call (.ask c (some (limitAfter b elapsed)) true) next) began last
      elapsed s := by
  let after : Scene σ := ⟨s.now + took, s.stopRequested || false, world⟩
  have hlast : Completes w (next ⟨.ofMillis took, outcome⟩) after [] final after := by
    rw [hdone]
    exact completes_done ..
  refine ⟨_, _, final, elapsed + took, after, Completes.call hends hlast, ?_, ?_, htries⟩
  · rw [hnow]
    rfl
  · show s.now + took = began + (elapsed + took)
    rw [hnow, Nat.add_assoc]

/-- An attempt behind which the lookup goes on after a pause. -/
theorem Attempts.goesOn {pause : Duration} {reply : ι.Reply c}
    {rest : Proc (Timed ι) (Except Fault CommandResult)}
    (afterPause : Rest → Proc (Timed ι) (Except Fault CommandResult))
    (hends : (turn w s (.ask c (some (limitAfter b elapsed)) true)).ends =
      some ⟨s.now + took, ⟨.ofMillis took, .replied reply⟩, world, false⟩)
    (hstop : s.stopRequested = false) (hnow : s.now = began + elapsed)
    (hpauses : next ⟨.ofMillis took, .replied reply⟩ = .call (.pause pause) afterPause)
    (hrest : afterPause ⟨.ofMillis (timerMillis pause), false⟩ = rest)
    (hmay : MayPass (judge reply))
    (hintime : elapsed + took + timerMillis pause ≤ b.timeout.toMillisUp)
    (hothers : Attempts w b c judge rest began (remember last (judge reply))
      (elapsed + took + timerMillis pause)
      ⟨s.now + took + timerMillis pause, false, world⟩) :
    Attempts w b c judge (.call (.ask c (some (limitAfter b elapsed)) true) next) began last
      elapsed s := by
  rcases hothers with ⟨log, attempts, final, ended, s', hcompletes, hasks, hended, htries⟩
  let after : Scene σ := ⟨s.now + took, s.stopRequested || false, world⟩
  have hafter : after.stopRequested = false := by simp [after, hstop]
  -- The pause completes without a stop, and the other attempts follow it.
  have hpaused : Completes w (next ⟨.ofMillis took, .replied reply⟩) after
      ((after.now, ⟨.pause pause, ⟨.ofMillis (timerMillis pause), false⟩⟩) :: log) final s' := by
    rw [hpauses]
    refine Completes.call (pause_ends w pause hafter) ?_
    rw [hrest, hafter]
    exact hcompletes
  refine ⟨_, attemptAfter b began elapsed took (.replied reply) :: attempts, final, ended, s',
    Completes.call hends hpaused, ?_, hended, .again hmay hintime htries⟩
  rw [List.map_cons, ← hasks, hnow]
  rfl

end Step

/-- One attempt: it ends the lookup, or it is followed by a pause and the next one, when less time is
left. -/
theorem attempt_succ_tries {began elapsed left : Nat} {last : Option String} {s : Scene σ}
    (hcalm : ∀ x now, (w.answer x now c).raisesStop = false)
    (hinterval : 0 < b.interval.nanoseconds) (hstop : s.stopRequested = false)
    (hnow : s.now = began + elapsed)
    (hnext : ∀ (later : Nat) (last' : Option String) (s' : Scene σ), s'.stopRequested = false →
      s'.now = began + later → (b.timeout - Duration.ofMillis later).nanoseconds <
        (b.timeout - Duration.ofMillis elapsed).nanoseconds →
      Attempts w b c judge (attempt b c judge left (.ofMillis later) last') began last' later s') :
    Attempts w b c judge (attempt b c judge (left + 1) (.ofMillis elapsed) last) began last
      elapsed s := by
  rcases ask_ends (limitAfter b elapsed) hstop (hcalm s.world s.now) with
    ⟨took, outcome, world, hends, hbounded⟩
  cases hbounded with
  | expired hmost => exact Attempts.ends hends hnow rfl (.expired hmost)
  | faulted f hmost => exact Attempts.ends hends hnow rfl (.faulted hmost)
  | replied reply hmost =>
      by_cases hmay : MayPass (judge reply)
      · have hretries : ¬ ((judge reply).success || !(judge reply).code.isRetryable) = true :=
          Bool.eq_false_iff.1 (mayPass_iff.1 hmay)
        -- The result may pass, so what is left of the budget decides.
        by_cases hleft : (b.timeout - Duration.ofMillis (elapsed + took)).nanoseconds = 0
        · have hover := (Duration.sub_ofMillis_eq_zero_iff ..).1 hleft
          refine Attempts.ends hends hnow ?_ (.exhausted hmost hmay hover)
          rw [← Duration.ofMillis_add] at hleft
          exact (if_neg hretries).trans (if_pos hleft)
        · rcases pause_bounds hinterval hleft with ⟨hpause, hintime⟩
          refine Attempts.goesOn
            (fun rest =>
              if rest.stopped then .done (.ok (.ofError .stopped))
              else attempt b c judge left (.ofMillis (elapsed + took) + rest.took)
                (remember last (judge reply)))
            hends hstop hnow ?_ rfl hmay hintime ?_
          · rw [← Duration.ofMillis_add] at hleft ⊢
            exact (if_neg hretries).trans (if_neg hleft)
          · rw [if_neg Bool.false_ne_true, Duration.ofMillis_add]
            refine hnext _ _ _ rfl ?_ (Duration.sub_ofMillis_lt hleft ?_ ?_)
            · show s.now + took + _ = _
              omega
            · omega
            · omega
      · have hconcludes : ((judge reply).success || !(judge reply).code.isRetryable) = true := by
          rw [← Bool.not_eq_false]
          exact fun hretries => hmay (mayPass_iff.2 hretries)
        refine Attempts.ends hends hnow ?_ (.concluded hmost hmay)
        exact if_pos hconcludes

/-- A lookup on a timeline without stops. Each pause takes some of the nanoseconds that are left, so they
bound the attempts to come. -/
theorem attempt_tries {began left elapsed : Nat} {last : Option String} {s : Scene σ}
    (hcalm : ∀ x now, (w.answer x now c).raisesStop = false)
    (hinterval : 0 < b.interval.nanoseconds) (hstop : s.stopRequested = false)
    (hnow : s.now = began + elapsed)
    (hleft : (b.timeout - Duration.ofMillis elapsed).nanoseconds ≤ left) :
    Attempts w b c judge (attempt b c judge (left + 1) (.ofMillis elapsed) last) began last
      elapsed s := by
  induction left generalizing elapsed last s with
  | zero =>
      -- Nothing is left, so no attempt follows: it would have to find less than that.
      refine attempt_succ_tries hcalm hinterval hstop hnow ?_
      intro later last' s' _ _ hless
      omega
  | succ left ih =>
      refine attempt_succ_tries hcalm hinterval hstop hnow ?_
      intro later last' s' hstop' hnow' hless
      exact ih hstop' hnow' (by omega)

end Timeline

/-! ## What that comes to -/

/-- The budget has times that a timer can be set to. -/
def IsSettable (b : Budget) : Prop :=
  Timeline.IsSettable b.timeout ∧ Timeline.IsSettable b.interval

def saying? (r : CommandResult) : Option String :=
  if r.text.isEmpty then none else some r.text

def Attempt.saying? (judge : ρ → CommandResult) (a : Attempt ρ) : Option String :=
  match a.ending.outcome with
  | .replied reply => Retry.saying? (judge reply)
  | _ => none

def lastSaying (judge : ρ → CommandResult) (attempts : List (Attempt ρ)) : Option String :=
  (attempts.filterMap (Attempt.saying? judge)).getLast?

def Attempt.Fails (judge : ρ → CommandResult) (a : Attempt ρ) : Prop :=
  ∃ reply, a.ending.outcome = .replied reply ∧ MayPass (judge reply)

/-- The result of a lookup after its last attempt: the last thing said, the attempt, the result, and
the milliseconds at the end. -/
inductive Conclusion (b : Budget) (judge : ρ → CommandResult) (said : Option String)
    (a : Attempt ρ) : Except Fault CommandResult → Nat → Prop where
  | result {reply : ρ} {ended : Nat} :
      a.ending.outcome = .replied reply → ¬ MayPass (judge reply) →
      Conclusion b judge said a (.ok (judge reply)) ended
  | fault {f : Fault} {ended : Nat} :
      a.ending.outcome = .faulted f → Conclusion b judge said a (.error f) ended
  | timeout {ended : Nat} :
      a.ending.outcome = .expired ∨ a.Fails judge →
      (IsSettable b → b.timeout.toMillisUp ≤ ended) →
      Conclusion b judge said a (.ok (.failure .timeout (said.getD "Element not found"))) ended

/-- A result without a message leaves the last one in place. -/
theorem remember_eq (last : Option String) (r : CommandResult) :
    remember last r = (saying? r).or last := by
  cases hmessage : r.message with
  | none => simp [remember, saying?, CommandResult.text, hmessage]
  | some message =>
      by_cases hempty : message.isEmpty = true <;>
        simp [remember, saying?, CommandResult.text, hmessage, hempty]

/-- Later attempts have the last word. -/
theorem lastSaying_cons (judge : ρ → CommandResult) (a : Attempt ρ) (attempts : List (Attempt ρ)) :
    lastSaying judge (a :: attempts) = (lastSaying judge attempts).or (a.saying? judge) := by
  unfold lastSaying
  rw [List.filterMap_cons]
  cases hsaying : a.saying? judge with
  | none => simp
  | some text => simp [List.getLast?_cons, Option.or_some]

/-- An attempt may take what is left of the budget, or one interval if that is longer. -/
theorem timerMillis_limitAfter_le (b : Budget) (elapsed : Nat) :
    timerMillis (limitAfter b elapsed) ≤
      max (b.timeout.toMillisUp - elapsed) b.interval.toMillisUp := by
  calc timerMillis (limitAfter b elapsed)
      ≤ (limitAfter b elapsed).toMillisUp := timerMillis_le _
    _ = max (b.timeout.toMillisUp - elapsed) b.interval.toMillisUp := by
        rw [limitAfter, Duration.toMillisUp_max, Duration.toMillisUp_sub_ofMillis]

/-- An attempt that uses up its limit uses up the budget. -/
theorem le_timerMillis_limitAfter {b : Budget} (hb : IsSettable b) (elapsed : Nat) :
    b.timeout.toMillisUp ≤ elapsed + timerMillis (limitAfter b elapsed) := by
  have hlimit : Timeline.IsSettable (limitAfter b elapsed) := by
    have htimeout : b.timeout.nanoseconds / 1000000000 < 9223372036854775808 := hb.1
    have hinterval : b.interval.nanoseconds / 1000000000 < 9223372036854775808 := hb.2
    show max (b.timeout.nanoseconds - elapsed * 1000000) b.interval.nanoseconds / 1000000000 <
      9223372036854775808
    omega
  rw [timerMillis_eq hlimit, limitAfter, Duration.toMillisUp_max,
    Duration.toMillisUp_sub_ofMillis]
  omega

namespace Tries

variable {b : Budget} {judge : ρ → CommandResult} {began elapsed ended : Nat}
  {last : Option String} {attempts : List (Attempt ρ)} {final : Except Fault CommandResult}

/-- The first attempt is made at once. -/
theorem first (h : Tries b judge began last elapsed attempts final ended) :
    attempts.head?.map Attempt.start = some (began + elapsed) := by
  cases h <;> rfl

/-- Every attempt begins within the budget. -/
theorem inTime (h : Tries b judge began last elapsed attempts final ended)
    (helapsed : elapsed ≤ b.timeout.toMillisUp) :
    ∀ a ∈ attempts, a.start ≤ began + b.timeout.toMillisUp ∧
      a.limit = limitAfter b (a.start - began) := by
  have hthis (elapsed took : Nat) (outcome : Outcome ρ) (hle : elapsed ≤ b.timeout.toMillisUp) :
      (attemptAfter b began elapsed took outcome).start ≤ began + b.timeout.toMillisUp ∧
        (attemptAfter b began elapsed took outcome).limit =
          limitAfter b ((attemptAfter b began elapsed took outcome).start - began) := by
    simp [attemptAfter, hle]
  induction h with
  | concluded | faulted | expired | exhausted =>
      intro a ha
      rw [List.mem_singleton.1 ha]
      exact hthis _ _ _ helapsed
  | again _ hlater _ ih =>
      intro a ha
      rcases List.mem_cons.1 ha with rfl | ha
      · exact hthis _ _ _ helapsed
      · exact ih hlater a ha

/-- The lookup ends one interval after its budget at the latest. -/
theorem ended_le (h : Tries b judge began last elapsed attempts final ended)
    (helapsed : elapsed ≤ b.timeout.toMillisUp) :
    ended ≤ b.timeout.toMillisUp + b.interval.toMillisUp := by
  induction h with
  | @concluded _ elapsed _ _ hmost _ | @faulted _ elapsed _ _ hmost | @expired _ elapsed _ hmost
  | @exhausted _ elapsed _ _ hmost _ _ =>
      -- Past the timeout an attempt may take an interval; before it, what is left if that is more.
      have hlimit := timerMillis_limitAfter_le b elapsed
      omega
  | again _ hlater _ ih => exact ih hlater

/-- Every attempt but the last one failed in a way that may pass. -/
theorem retried (h : Tries b judge began last elapsed attempts final ended) :
    ∀ a ∈ attempts.dropLast, a.Fails judge := by
  induction h with
  | concluded | faulted | expired | exhausted =>
      intro a ha
      simp at ha
  | @again _ _ _ _ reply attempts _ _ hmay _ hlater ih =>
      intro a ha
      cases attempts with
      | nil => simp at ha
      | cons next attempts =>
          rw [List.dropLast_cons_cons] at ha
          rcases List.mem_cons.1 ha with rfl | ha
          · exact ⟨reply, rfl, hmay⟩
          · exact ih a ha

/-- The last attempt, and all that was said so far, decide on the result. -/
theorem conclusion (h : Tries b judge began last elapsed attempts final ended) :
    ∃ a, attempts.getLast? = some a ∧
      Conclusion b judge ((lastSaying judge attempts).or last) a final ended := by
  induction h with
  | concluded _ hgood => exact ⟨_, rfl, .result rfl hgood⟩
  | faulted => exact ⟨_, rfl, .fault rfl⟩
  | @expired last elapsed took hmost =>
      refine ⟨_, rfl, .timeout (.inl rfl) fun hb => ?_⟩
      rw [hmost]
      exact le_timerMillis_limitAfter hb elapsed
  | @exhausted last elapsed took reply _ hmay hover =>
      have hfails : (attemptAfter b began elapsed took (.replied reply)).Fails judge :=
        ⟨reply, rfl, hmay⟩
      have hsaid : lastSaying judge [attemptAfter b began elapsed took (.replied reply)] =
          saying? (judge reply) := by
        rw [lastSaying_cons]
        rfl
      refine ⟨attemptAfter b began elapsed took (.replied reply), rfl, ?_⟩
      rw [remember_eq, hsaid]
      exact .timeout (.inr hfails) fun _ => hover
  | @again last _ _ _ reply attempts _ _ hmay _ _ ih =>
      -- The attempts to come remember what this one said, so both count it once.
      rcases ih with ⟨a, hlast, hconclusion⟩
      refine ⟨a, by simp [List.getLast?_cons, hlast], ?_⟩
      rw [lastSaying_cons, Option.or_assoc]
      rw [remember_eq] at hconclusion
      exact hconclusion

end Tries

/-- A lookup keeps its budget, from the moment it began to the moment it ended: its attempts and its
result. For a time of whole milliseconds `toMillisUp` is their number. -/
structure KeepsBudget (b : Budget) (judge : ρ → CommandResult) (began : Nat)
    (attempts : List (Attempt ρ)) (final : Except Fault CommandResult) (ended : Nat) : Prop where
  /-- The first attempt is made at once. -/
  first : attempts.head?.map Attempt.start = some began
  /-- No attempt is made after the timeout. -/
  inTime : ∀ a ∈ attempts, a.start ≤ began + b.timeout.toMillisUp
  /-- An attempt may take what is left of the timeout, and an interval at least. -/
  limited : ∀ a ∈ attempts, a.limit = limitAfter b (a.start - began)
  /-- Every attempt but the last one failed in a way that may pass. -/
  retried : ∀ a ∈ attempts.dropLast, a.Fails judge
  /-- The lookup ends one interval after the timeout at the latest. -/
  returned : ended ≤ began + b.timeout.toMillisUp + b.interval.toMillisUp
  /-- The last attempt decides on the result. -/
  concluded : ∃ a, attempts.getLast? = some a ∧
    Conclusion b judge (lastSaying judge attempts) a final (ended - began)
  /-- No failure that may pass is the result. -/
  settled : ∀ r, final = .ok r → ¬ MayPass r

/-- The lookup never ends with a failure that may pass. -/
theorem Conclusion.not_mayPass {b : Budget} {judge : ρ → CommandResult} {said : Option String}
    {a : Attempt ρ} {final : Except Fault CommandResult} {ended : Nat}
    (h : Conclusion b judge said a final ended) : ∀ r, final = .ok r → ¬ MayPass r := by
  rintro r rfl
  cases h with
  | result _ hgood => exact hgood
  | timeout => simp [MayPass, CommandResult.failure]

/-- A lookup with some interval keeps its budget when no stop is requested: whatever its attempts take,
and however they turn out, it comes to its end. -/
theorem retry_keepsBudget {w : World ι σ} {b : Budget} {c : ι.Call}
    (judge : ι.Reply c → CommandResult) {s : Scene σ} (hinterval : Duration.zero < b.interval)
    (hstop : s.stopRequested = false)
    (hcalm : ∀ x now, (w.answer x now c).raisesStop = false) :
    ∃ attempts final s', proceed w none (retry b c judge) s = .finished final s' ∧
      (chronicle w (retry b c judge) s).filter isAsk = attempts.map (Attempt.entry c) ∧
      KeepsBudget b judge s.now attempts final s'.now := by
  have hsome : 0 < b.interval.nanoseconds := hinterval
  have hattempts : Attempts w b c judge (retry b c judge) s.now none 0 s := by
    rw [retry, attemptLimit, if_neg (Nat.pos_iff_ne_zero.1 hsome)]
    exact attempt_tries hcalm hsome hstop (Nat.add_zero s.now).symm (Nat.sub_le ..)
  rcases hattempts with
    ⟨log, attempts, final, ended, s', hcompletes, hasks, hended, htries⟩
  rw [hcompletes.chronicle_eq]
  refine ⟨attempts, final, s', hcompletes.finishes, hasks, ?_⟩
  -- The last attempt decides on the result; there was nothing to remember before the first.
  rcases htries.conclusion with ⟨a, hlast, hconclusion⟩
  rw [Option.or_none] at hconclusion
  have hends : s'.now - s.now = ended := by omega
  have hlate := htries.ended_le (Nat.zero_le _)
  exact {
    first := htries.first
    inTime := fun a ha => (htries.inTime (Nat.zero_le _) a ha).1
    limited := fun a ha => (htries.inTime (Nat.zero_le _) a ha).2
    retried := htries.retried
    returned := by omega
    concluded := ⟨a, hlast, hends ▸ hconclusion⟩
    settled := hconclusion.not_mayPass }

/-- One lookup, that replies with its result. -/
abbrev Lookup : Interface := ⟨Unit, fun _ => CommandResult⟩

/-- The first attempt fails after 30 milliseconds, and the second one never ends. -/
def stalling : World Lookup Nat where
  answer made _ _ :=
    if made = 0 then ⟨1, some 30, 1, false, .ok (.failure .elementNotFound "missing")⟩
    else ⟨made + 1, none, made + 1, false, .ok .ok⟩
  reading now := ⟨.ofMillis now, now, ⟨1970, 1, 1, 0, 0, 0⟩⟩

/-- The second attempt begins 30 milliseconds before the timeout, and may take an interval. -/
theorem retry_keepsBudget_stalling :
    Duration.zero < Duration.ofMillis 40 ∧ IsSettable ⟨.ofMillis 100, .ofMillis 40⟩ ∧
      (∀ made now, (stalling.answer made now ()).raisesStop = false) ∧
      ∃ attempts final s',
        proceed stalling none (retry ⟨.ofMillis 100, .ofMillis 40⟩ () id) ⟨0, false, 0⟩ =
          .finished final s' ∧
        (chronicle stalling (retry ⟨.ofMillis 100, .ofMillis 40⟩ () id) ⟨0, false, 0⟩).filter isAsk =
          attempts.map (Attempt.entry ()) ∧
        KeepsBudget ⟨.ofMillis 100, .ofMillis 40⟩ id 0 attempts final s'.now := by
  have hinterval : Duration.zero < Duration.ofMillis 40 := by decide
  have hcalm : ∀ made now, (stalling.answer made now ()).raisesStop = false := by
    intro made now
    by_cases hfirst : made = 0 <;> simp [stalling, hfirst]
  have hsettable : IsSettable ⟨.ofMillis 100, .ofMillis 40⟩ := ⟨by decide, by decide⟩
  exact ⟨hinterval, hsettable, hcalm, retry_keepsBudget id hinterval rfl hcalm⟩

end Retry
end MacroReplay
