import MacroReplay.Browser.Navigation
import MacroReplay.Browser.Tag
import MacroReplay.Config.Load
import MacroReplay.Proofs.Retry.Schedule
import MacroReplay.Proofs.Variable.Counter

/-!
# Lookups that make progress

The pause between the attempts of a lookup comes from three places: from the settings of the engine,
which are checked when they are loaded, from the pace that is made of them, and from `!TIMEOUT_STEP`. It
lies between the two pauses of the settings. While it takes some time, a lookup that keeps failing ends
with its budget. If it takes none, such a lookup never gets past the moment at which it began.

* `Duration.ofSeconds_of_toInt?` — whole seconds are as many milliseconds;
* `tagBudget_eq` — the budget of a lookup in a store that was reached by requests;
* `proceed_seeking` — a lookup in a page that keeps failing, with some pause;
* `proceed_attempt_of_noPause` — the same without a pause;
* `paced_tagBudget` — which settings and variables make the difference;
* `noPause_accepted` — settings that are accepted and allow no pause.
-/

namespace MacroReplay

/-! ## Times -/

namespace Duration

theorem min_ofMillis (ms ms' : Nat) : min (ofMillis ms) (ofMillis ms') = ofMillis (min ms ms') := by
  show Duration.mk (min (ms * 1000000) (ms' * 1000000)) = ⟨min ms ms' * 1000000⟩
  rw [Nat.mul_min_mul_right]

theorem max_ofMillis (ms ms' : Nat) : max (ofMillis ms) (ofMillis ms') = ofMillis (max ms ms') := by
  show Duration.mk (max (ms * 1000000) (ms' * 1000000)) = ⟨max ms ms' * 1000000⟩
  rw [Nat.mul_max_mul_right]

theorem ofMillis_le_iff {ms ms' : Nat} : ofMillis ms ≤ ofMillis ms' ↔ ms ≤ ms' := by
  show ms * 1000000 ≤ ms' * 1000000 ↔ ms ≤ ms'
  omega

theorem zero_lt_ofMillis_iff {ms : Nat} : zero < ofMillis ms ↔ 0 < ms := by
  show 0 < ms * 1000000 ↔ 0 < ms
  omega

/-- Where a number equals an integer, its seconds are not rounded. -/
theorem seconds_of_toInt? {mantissa k : Nat} {exponent : Int}
    {hcanonical : Number.Canonical mantissa exponent}
    (hk : (Number.finite false mantissa exponent hcanonical).toInt? = some (k : Int)) :
    Number.divideToEven (mantissa * Nat.pow 2 exponent.toNat * 1000000000)
      (Nat.pow 2 (-exponent).toNat) = k * 1000000000 := by
  by_cases hwhole : 0 ≤ exponent
  · have hshift : (-exponent).toNat = 0 := by omega
    have hsize : mantissa * Nat.pow 2 exponent.toNat = k := by
      simp only [Number.toInt?, if_pos hwhole, Option.map_some, Bool.false_eq_true, if_false,
        Option.some.injEq] at hk
      exact Int.ofNat_inj.1 hk
    rw [hsize, hshift]
    exact Number.divideToEven_one _
  · have hshift : exponent.toNat = 0 := by omega
    by_cases hexact : mantissa % Nat.pow 2 (-exponent).toNat = 0
    · have hsize : mantissa / Nat.pow 2 (-exponent).toNat = k := by
        simp only [Number.toInt?, if_neg hwhole, if_pos hexact, Option.map_some,
          Bool.false_eq_true, if_false, Option.some.injEq] at hk
        exact Int.ofNat_inj.1 hk
      -- Here the number of seconds is a quotient without remainder, so that nothing is rounded.
      have hmantissa : mantissa = k * Nat.pow 2 (-exponent).toNat := by
        rw [← hsize, Nat.div_mul_cancel (Nat.dvd_of_mod_eq_zero hexact)]
      have hproduct : k * Nat.pow 2 (-exponent).toNat * Nat.pow 2 0 * 1000000000 =
          k * 1000000000 * Nat.pow 2 (-exponent).toNat := by
        rw [show Nat.pow 2 0 = 1 from rfl, Nat.mul_one, Nat.mul_right_comm]
      rw [hshift, hmantissa, hproduct]
      exact Number.divideToEven_mul _ (Nat.two_pow_pos _)
    · simp only [Number.toInt?, if_neg hwhole, if_neg hexact, Option.map_none, reduceCtorEq] at hk

/-- A number that equals an integer is as many seconds. -/
theorem ofSeconds_of_toInt? {n : Number} {k : Nat} (hk : n.toInt? = some (k : Int))
    (hmost : k ≤ Variable.greatestInteger) : ofSeconds n = ofMillis (k * 1000) := by
  cases n with
  | nan => nomatch hk
  | infinite negative => nomatch hk
  | finite negative mantissa exponent hcanonical =>
      cases negative with
      | true =>
          -- The only integer here that is not negative is zero.
          have hnone : k = 0 := by
            simp only [Number.toInt?, Option.map_eq_some_iff, if_true] at hk
            obtain ⟨size, -, hsize⟩ := hk
            omega
          rw [hnone]
          rfl
      | false =>
          have hrange : ¬ longest.nanoseconds < k * 1000000000 := by
            have hlongest : 4294967295 * 1000000000 ≤ longest.nanoseconds := by decide
            have hk' : k ≤ 4294967295 := hmost
            omega
          rw [ofSeconds, if_neg Bool.false_ne_true]
          simp only [seconds_of_toInt? hk, if_neg hrange]
          rw [ofMillis, Nat.mul_assoc]

end Duration

/-! ## The budget of a lookup -/

/-- The milliseconds between attempts under these settings, when steps of some seconds are asked for. -/
def EngineSettings.pauseMs (settings : EngineSettings) (step : Nat) : Nat :=
  max (min settings.retryIntervalMs (step * 1000)) settings.minRetryIntervalMs

/-- A valid configuration does not cross its two retry intervals. -/
theorem Config.minRetryIntervalMs_le_of_validate {c : Config} (hvalid : c.validate = .ok ()) :
    c.engine.minRetryIntervalMs ≤ c.engine.retryIntervalMs := by
  unfold validate at hvalid
  split at hvalid
  · nomatch hvalid
  · split at hvalid
    · nomatch hvalid
    · omega

/-- The two variables that the budget of a lookup is read from, in a store that was reached
by requests. -/
theorem tagBudget_eq {settings : EngineSettings} {s : Store} {tag step : Number}
    {tagSeconds stepSeconds : Nat}
    (hcrossed : settings.minRetryIntervalMs ≤ settings.retryIntervalMs)
    (htag : s.numberOf "!TIMEOUT_TAG" = some tag) (htag' : tag.toInt? = some (tagSeconds : Int))
    (htagMost : tagSeconds ≤ Variable.greatestInteger)
    (hstep : s.numberOf "!TIMEOUT_STEP" = some step) (hstep' : step.toInt? = some (stepSeconds : Int))
    (hstepMost : stepSeconds ≤ Variable.greatestInteger) :
    settings.pacing.tagBudget s =
      ⟨.ofMillis (tagSeconds * 1000), .ofMillis (settings.pauseMs stepSeconds)⟩ := by
  rw [Pacing.tagBudget, Pacing.budget, htag, hstep, Option.getD_some, Option.getD_some,
    Duration.ofSeconds_of_toInt? htag' htagMost, EngineSettings.pacing, Pacing.ofPauses,
    Pacing.interval, Duration.ofSeconds_of_toInt? hstep' hstepMost, Duration.min_ofMillis,
    Duration.min_ofMillis, Duration.max_ofMillis, Nat.min_eq_left hcrossed, EngineSettings.pauseMs]

namespace Retry

open Timeline

/-! ## Lookups in a page -/

section Seeking

open Browser

variable {χ : Interface}

/-- The commands that look something up in the page, and the call that they retry, if their parameters
are in order. -/
inductive Seeks (ctx : Context Backup) : BrowserHandler χ → Browser.Call → Prop where
  | frame {target : FrameTarget} : frameTarget ctx.invocation = .ok target →
      Seeks ctx frameHandler (.selectFrame target)
  | tag {locator : Locator} {action : TagAction} :
      tagRequest ctx.invocation = .ok (locator, action) →
      Seeks ctx tagHandler (.tag locator action)

def IsMissing (e : BridgeError) : Prop :=
  ∃ message, e = .notFound message ∨ e = .notVisible message

/-- The call fails each time, because what it looks for is missing. -/
def Elusive (tape : Nat → (c : (Host χ).Call) → (Host χ).Reply c) (call : Browser.Call) : Prop :=
  ∀ number, ∃ e, IsMissing e ∧ tape number (.inl call) = .error e

/-- A missing element may still appear. -/
theorem IsMissing.mayPass {e : BridgeError} (he : IsMissing e) :
    MayPass (.ofError e.toCommandError) := by
  rcases he with ⟨message, rfl | rfl⟩
  · exact ⟨rfl, .inl rfl⟩
  · exact ⟨rfl, .inr rfl⟩

def overdue (b : Budget) (began : Nat) : Scene (Diary Nat) :=
  ⟨began + b.timeout.toMillisUp, false, ⟨pauses b + 1, starts b began (pauses b + 1)⟩⟩

variable {tape : Nat → (c : (Host χ).Call) → (Host χ).Reply c} (reading : Nat → Reading)

/-- A call that fails each time is retried until the budget is used up. -/
theorem proceed_lookedUp {ctx : Context Backup} {call : Browser.Call}
    {judge : Except BridgeError call.Value → CommandResult} {next : CommandResult → Doing χ}
    (hmay : ∀ number, MayPass (judge (tape number (.inl call))))
    (hinterval : Duration.zero < (ctx.pacing.tagBudget ctx.memory.vars).interval)
    (hsettable : Timeline.IsSettable (min (ctx.pacing.tagBudget ctx.memory.vars).interval
      (ctx.pacing.tagBudget ctx.memory.vars).timeout)) (began : Nat) :
    ∃ message, proceed (World.ofTape tape reading).diary none (lookedUp ctx call judge next)
        ⟨began, false, ⟨0, []⟩⟩ =
      proceed (World.ofTape tape reading).diary none (next (.failure .timeout message))
        (overdue (ctx.pacing.tagBudget ctx.memory.vars) began) := by
  have hends := proceed_retry_of_exhausted tape reading hinterval hsettable began
    fun number _ => hmay number
  exact ⟨_, proceed_bind_of_finished hends⟩

/-- A lookup in a page that fails each time ends with its budget, after the attempts that the budget has
room for. -/
theorem proceed_seeking {ctx : Context Backup} {handler : BrowserHandler χ} {call : Browser.Call}
    {b : Budget} (hbudget : ctx.pacing.tagBudget ctx.memory.vars = b)
    (hseeks : Seeks ctx handler call) (helusive : Elusive tape call)
    (hinterval : Duration.zero < b.interval)
    (hsettable : Timeline.IsSettable (min b.interval b.timeout)) (began : Nat) :
    ∃ message,
      proceed (World.ofTape tape reading).diary none (handler ctx) ⟨began, false, ⟨0, []⟩⟩ =
        .finished (.finished (.failure .timeout message), ctx.memory) (overdue b began) := by
  subst hbudget
  cases hseeks with
  | @frame target hparameters =>
      have hmay : ∀ number, MayPass (frameResult (tape number (.inl (.selectFrame target)))) := by
        intro number
        obtain ⟨e, he, hreply⟩ := helusive number
        rw [hreply]
        exact he.mayPass
      rw [frameHandler, hparameters]
      exact proceed_lookedUp reading hmay hinterval hsettable began
  | @tag locator action hparameters =>
      have hmay : ∀ number, MayPass (tagResult (tape number (.inl (.tag locator action)))) := by
        intro number
        obtain ⟨e, he, hreply⟩ := helusive number
        rw [hreply]
        exact he.mayPass
      -- No text is read from an element that was not found.
      have hnone : ∀ message, extractedText? action (.failure .timeout message) = none := by
        intro message
        cases action <;> rfl
      rw [tagHandler, hparameters]
      obtain ⟨message, hends⟩ := proceed_lookedUp reading hmay hinterval hsettable began
      refine ⟨message, hends.trans ?_⟩
      rw [hnone]
      rfl

end Seeking

/-! ## Without a pause -/

section NoPause

variable {ι : Interface} {tape : Nat → (c : ι.Call) → ι.Reply c} {b : Budget} {c : ι.Call}
  {judge : ι.Reply c → CommandResult}

/-- Without an interval the attempts follow one another at once. -/
theorem pauseAfter_of_noPause (hnone : b.interval = .zero) (elapsed : Nat) :
    pauseAfter b elapsed = 0 := by
  have hpause : min b.interval (b.timeout - .ofMillis elapsed) = Duration.ofMillis 0 := by
    rw [hnone]
    show Duration.mk (min 0 _) = ⟨0⟩
    rw [Nat.zero_min]
  rw [pauseAfter, hpause]
  rfl

/-- Without a pause no time passes between attempts that take none. -/
theorem proceed_attempt_of_noPause (reading : Nat → Reading) (hnone : b.interval = .zero)
    (hleft : 0 < b.timeout.toMillisUp) (began left failures : Nat)
    (hmay : ∀ number, MayPass (judge (tape number c))) :
    proceed (World.ofTape tape reading).diary none
        (attempt b c judge (left + failures) (.ofMillis 0) none) ⟨began, false, ⟨0, []⟩⟩ =
      proceed (World.ofTape tape reading).diary none
        (attempt b c judge left (.ofMillis 0) (lastText (fun number => judge (tape number c)) failures))
        ⟨began, false, ⟨failures, List.replicate failures began⟩⟩ := by
  induction failures generalizing left with
  | zero => rfl
  | succ failures ih =>
      rw [← Nat.add_assoc, Nat.add_right_comm, ih (left + 1),
        proceed_attempt_of_again (hmay failures) hleft, pauseAfter_of_noPause hnone,
        List.replicate_succ']
      rfl

end NoPause

/-! ## Which lookups make progress -/

/-- The budget of lookups under settings of an engine, with a timeout of `tag` seconds and in steps of
`step` seconds. -/
structure Paced (settings : EngineSettings) (tag step : Nat) (b : Budget) : Prop where
  timeout : b.timeout = .ofMillis (tag * 1000)
  /-- The pause lies between the two pauses of the settings. -/
  least : .ofMillis settings.minRetryIntervalMs ≤ b.interval
  most : b.interval ≤ .ofMillis settings.retryIntervalMs
  /-- There is none if the settings allow that and the steps, or the preferred pause, take no time. -/
  some_iff : Duration.zero < b.interval ↔
    0 < settings.minRetryIntervalMs ∨ 0 < settings.retryIntervalMs ∧ 0 < step
  /-- With a pause, a lookup in a page that keeps failing at once ends at its timeout, after as many
  attempts as the budget has room for. -/
  ends : Duration.zero < b.interval → ∀ (χ : Interface) (ctx : Context Browser.Backup)
    (handler : Browser.BrowserHandler χ) (call : Browser.Call)
    (tape : Nat → (c : (Browser.Host χ).Call) → (Browser.Host χ).Reply c) (reading : Nat → Reading)
    (began : Nat), ctx.pacing.tagBudget ctx.memory.vars = b → Seeks ctx handler call →
    Elusive tape call →
    ∃ message,
      proceed (World.ofTape tape reading).diary none (handler ctx) ⟨began, false, ⟨0, []⟩⟩ =
        .finished (.finished (.failure .timeout message), ctx.memory)
          ⟨began + tag * 1000, false, ⟨pauses b + 1, starts b began (pauses b + 1)⟩⟩
  /-- Without one, and with some time left, it makes all the attempts that it may make at the moment at
  which it began. -/
  stalls : b.interval = .zero → 0 < tag → ∀ (ι : Interface) (c : ι.Call)
    (judge : ι.Reply c → CommandResult) (tape : Nat → (c : ι.Call) → ι.Reply c)
    (reading : Nat → Reading) (began attempts : Nat),
    (∀ number, MayPass (judge (tape number c))) →
    ∃ final, proceed (World.ofTape tape reading).diary none (attempt b c judge attempts .zero none)
        ⟨began, false, ⟨0, []⟩⟩ =
      .finished final ⟨began, false, ⟨attempts, List.replicate attempts began⟩⟩

/-- The budget that the settings give, for a timeout that a variable can hold. -/
theorem paced_of_eq {settings : EngineSettings} {tag step : Nat}
    (hcrossed : settings.minRetryIntervalMs ≤ settings.retryIntervalMs)
    (hmost : tag ≤ Variable.greatestInteger) :
    Paced settings tag step ⟨.ofMillis (tag * 1000), .ofMillis (settings.pauseMs step)⟩ where
  timeout := rfl
  least := by
    rw [Duration.ofMillis_le_iff]
    exact Nat.le_max_right ..
  most := by
    rw [Duration.ofMillis_le_iff]
    exact Nat.max_le.2 ⟨Nat.min_le_left .., hcrossed⟩
  some_iff := by
    rw [Duration.zero_lt_ofMillis_iff, EngineSettings.pauseMs]
    omega
  ends := by
    intro hinterval χ ctx handler call tape reading began hbudget hseeks helusive
    -- A timer can be set to the timeout, since a variable holds no more than 2^32 - 1 seconds.
    have hsettable : Timeline.IsSettable (min (.ofMillis (settings.pauseMs step))
        (.ofMillis (tag * 1000))) := by
      have htag : tag ≤ 4294967295 := hmost
      show min (settings.pauseMs step * 1000000) (tag * 1000 * 1000000) / 1000000000 <
        9223372036854775808
      omega
    have hends := proceed_seeking reading hbudget hseeks helusive hinterval hsettable began
    rwa [overdue, Duration.toMillisUp_ofMillis] at hends
  stalls := by
    intro hnone hpos ι c judge tape reading began attempts hmay
    have hleft : 0 < (Duration.ofMillis (tag * 1000)).toMillisUp := by
      rw [Duration.toMillisUp_ofMillis]
      omega
    have hall := proceed_attempt_of_noPause reading hnone hleft began 0 attempts hmay
    rw [Nat.zero_add] at hall
    exact ⟨_, hall⟩

/-- Settings that are accepted give every lookup, whatever was asked of the variables, a pause between
the two pauses of the settings. It is positive, and lookups that keep failing make progress, if the
shortest pause of the settings is: otherwise `!TIMEOUT_STEP` may take it away. -/
theorem paced_tagBudget (c : Config) (hvalid : c.validate = .ok ()) (requests : List Request) :
    ∃ tag step : Nat, tag ≤ Variable.greatestInteger ∧ step ≤ Variable.greatestInteger ∧
      (Store.afterAll requests).integer? "!TIMEOUT_TAG" = some (tag : Int) ∧
      (Store.afterAll requests).integer? "!TIMEOUT_STEP" = some (step : Int) ∧
      Paced c.engine tag step (c.engine.pacing.tagBudget (Store.afterAll requests)) := by
  have hsound := Store.sound_afterAll requests
  have hcrossed := Config.minRetryIntervalMs_le_of_validate hvalid
  obtain ⟨n, tag, hn, htag, -, htagMost⟩ := Store.exists_integer hsound Variable.rule?_timeoutTag
  obtain ⟨m, step, hm, hstep, -, hstepMost⟩ :=
    Store.exists_integer hsound Variable.rule?_timeoutStep
  refine ⟨tag, step, htagMost, hstepMost, ?_, ?_, ?_⟩
  · rw [Store.integer?, hn]
    exact htag
  · rw [Store.integer?, hm]
    exact hstep
  · rw [tagBudget_eq hcrossed hn htag htagMost hm hstep hstepMost]
    exact paced_of_eq hcrossed htagMost

def noSteps : List Request :=
  [.set "!TIMEOUT_STEP" (.number (Number.ofNat 0))]

/-- The command `FRAME NAME=main`, with the usual settings and steps that take no time. -/
def mainFrame : Context Browser.Backup where
  invocation := ⟨⟨"FRAME", [⟨some "NAME", "main", "NAME=main"⟩], "FRAME NAME=main", 1, none⟩,
    [⟨⟨some "NAME", "main", "NAME=main"⟩, "main", "NAME=main"⟩]⟩
  pacing := EngineSettings.pacing {}
  date := ⟨1970, 1, 1, 0, 0, 0⟩
  memory := ⟨Store.afterAll noSteps, none⟩

def blankPage : Nat → (c : (Browser.Host .empty).Call) → (Browser.Host .empty).Reply c
  | _, .inl _ => .error (.notFound "nothing there")
  | _, .inr c => nomatch c

/-- With the usual settings the shortest pause takes the place of steps that take no time: in six
seconds a frame that is not there is looked for 601 times. -/
theorem paced_tagBudget_noSteps :
    ({} : Config).validate = .ok () ∧
      Paced {} 6 0 (mainFrame.pacing.tagBudget mainFrame.memory.vars) ∧
      ∃ message starts, proceed (World.ofTape blankPage stalling.reading).diary none
          (Browser.frameHandler mainFrame) ⟨0, false, ⟨0, []⟩⟩ =
        .finished (.finished (.failure .timeout message), mainFrame.memory)
          ⟨6000, false, ⟨601, starts⟩⟩ := by
  obtain ⟨tag, step, -, -, htag, hstep, hpaced⟩ := paced_tagBudget {} rfl noSteps
  have htag' : (Store.afterAll noSteps).integer? "!TIMEOUT_TAG" = some 6 := by decide +kernel
  have hstep' : (Store.afterAll noSteps).integer? "!TIMEOUT_STEP" = some 0 := by decide +kernel
  have hsix : tag = 6 := Int.ofNat_inj.1 (Option.some.inj (htag.symm.trans htag'))
  have hzero : step = 0 := Int.ofNat_inj.1 (Option.some.inj (hstep.symm.trans hstep'))
  rw [hsix, hzero] at hpaced
  have hpauses : pauses (({} : Config).engine.pacing.tagBudget (Store.afterAll noSteps)) = 600 := by
    decide +kernel
  have hsome : 0 < EngineSettings.minRetryIntervalMs {} := by decide
  have hbudget : mainFrame.pacing.tagBudget mainFrame.memory.vars =
      ({} : Config).engine.pacing.tagBudget (Store.afterAll noSteps) := by
    decide +kernel
  have hframe : Browser.frameTarget mainFrame.invocation = .ok (.name "main") := by rfl
  obtain ⟨message, hends⟩ := hpaced.ends (hpaced.some_iff.2 (.inl hsome)) .empty mainFrame
    Browser.frameHandler (.selectFrame (.name "main")) blankPage stalling.reading 0 hbudget
    (.frame hframe) fun _ => ⟨_, ⟨_, .inl rfl⟩, rfl⟩
  rw [hpauses] at hends
  rw [hbudget]
  exact ⟨rfl, hpaced, message, _, hends⟩

/-- Settings whose shortest pause takes no time are accepted. With steps that take no time there is then
no pause, although the lookup has six seconds. -/
theorem noPause_accepted :
    let c : Config := { engine := ⟨1, 1, 0⟩ }
    c.validate = .ok () ∧
      c.engine.pacing.tagBudget (Store.afterAll noSteps) = ⟨.ofMillis 6000, .zero⟩ :=
  ⟨rfl, by decide +kernel⟩

end Retry
end MacroReplay
