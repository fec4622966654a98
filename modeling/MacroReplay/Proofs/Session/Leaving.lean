import Mathlib.Data.Nat.Find
import Mathlib.Order.Bounds.Defs
import MacroReplay.Proofs.Proc.Punctuality
import MacroReplay.Proofs.Session.Protocol

/-!
# Leaving a session

A client that leaves stops the run in flight and looks from time to time whether it has ended. Either it
finds the session idle and leaves it as good as new, or its time is up and it leaves the session alone.
That takes a deadline. Where the clock cannot show one, leaving is a fault, and only the stop has
happened.

* `Session.wait_wait` — to look at a run does not change it;
* `Session.Timely` — nothing is overdue, in any state that turns lead to;
* `Session.exit_eq` — a client that leaves while nobody else does anything;
* `Session.LooksAt` — the looks of a client that leaves while the others have their turns;
* `Session.leaving_create` — all of it for any sequence of turns.
-/

namespace MacroReplay

namespace Session

open Timeline

variable {ι : Interface} {μ σ : Type}

/-! ## Waiting -/

/-- Where a run waited in between does not matter. -/
theorem arrive_of_waiting (s : Session ι μ σ) (kept : Bool) (q : Waiting ι σ (RunResult × Memory μ))
    (scene : Scene σ) (status : Status ι σ (RunResult × Memory μ)) :
    (s.arrive kept (.waiting q scene)).arrive kept status = s.arrive kept status := by
  rcases status with ⟨⟨r, left⟩, s'⟩ | ⟨q', s'⟩ <;> rfl

theorem wait_of_idle {s : Session ι μ σ} {m : Memory μ} (hphase : s.phase = .idle m) (ms : Nat) :
    s.wait ms = { s with scene := { s.scene with now := s.scene.now + ms } } := by
  simp only [wait, goOn, hphase]

/-- While a session waits, the run in flight goes on. -/
theorem wait_of_running {s : Session ι μ σ} {f : Flight ι μ σ} (hphase : s.phase = .running f)
    (ms : Nat) :
    s.wait ms = s.arrive f.kept
      ((resume s.world (some (s.scene.now + ms)) f.waiting s.scene).at (s.scene.now + ms)) := by
  simp only [wait, goOn, hphase]
  rcases resume s.world (some (s.scene.now + ms)) f.waiting s.scene with
    ⟨⟨r, left⟩, scene⟩ | ⟨q, scene⟩ <;> rfl

/-- To wait twice is to wait once for as long. -/
theorem wait_wait (s : Session ι μ σ) (first second : Nat) :
    (s.wait first).wait second = s.wait (first + second) := by
  cases hphase : s.phase with
  | idle m =>
      rw [wait_of_idle hphase first, wait_of_idle hphase (first + second), ← Nat.add_assoc]
      exact wait_of_idle (s := { s with scene := { s.scene with now := s.scene.now + first } }) hphase
        second
  | running f =>
      have hlater : NotBefore (s.scene.now + first) (some (s.scene.now + first + second)) :=
        notBefore_some (Nat.le_add_right _ _)
      rw [wait_of_running hphase (first + second), ← Nat.add_assoc, ← resume_goOnTo hlater,
        wait_of_running hphase first]
      cases hfirst : resume s.world (some (s.scene.now + first)) f.waiting s.scene with
      | finished out scene => exact wait_of_idle rfl second
      | waiting q scene =>
          have hnow : scene.now ≤ s.scene.now + first := by
            have hle := now_resume_le (w := s.world) f.waiting (Nat.le_add_right s.scene.now first)
            rwa [hfirst] at hle
          have hsame := resume_later (w := s.world) hnow (end?_of_resume_waiting hfirst)
            (some (s.scene.now + first + second)) (s.scene.now + first + second)
          rw [wait_of_running (f := ⟨q, f.kept⟩) rfl, Status.at, arrive_of_waiting]
          exact congrArg (s.arrive f.kept) hsame

def Timely (s : Session ι μ σ) : Prop :=
  ∀ f, s.phase = .running f → f.waiting.Punctual s.scene

theorem timely_of_idle {s : Session ι μ σ} {m : Memory μ} (hphase : s.phase = .idle m) : s.Timely := by
  intro f hrunning
  nomatch hphase.symm.trans hrunning

theorem timely_of_running {s : Session ι μ σ} {f : Flight ι μ σ} (hphase : s.phase = .running f)
    (hf : f.waiting.Punctual s.scene) : s.Timely := by
  intro f' hrunning
  cases hphase.symm.trans hrunning
  exact hf

/-- A stop puts nothing into the past. -/
theorem Timely.stop {s : Session ι μ σ} (hs : s.Timely) : s.stop.Timely := by
  cases hphase : s.phase with
  | idle m =>
      simp only [Session.stop, hphase]
      exact hs
  | running f =>
      simp only [Session.stop, hphase]
      exact timely_of_running rfl (hs f hphase).stop

/-- In no time nothing happens. -/
theorem Timely.wait_zero {s : Session ι μ σ} (hs : s.Timely) : s.wait 0 = s := by
  cases hphase : s.phase with
  | idle m => exact wait_of_idle hphase 0
  | running f =>
      have hdue : dueBefore (some s.scene.now) (f.waiting.end? s.scene) = none := by
        cases hend : f.waiting.end? s.scene with
        | none => rfl
        | some t => simpa [dueBefore, Option.filter, isBefore] using hs f hphase t hend
      rw [wait_of_running hphase, resume_eq, Nat.add_zero, hdue]
      simp only [Status.at, arrive, ← hphase]

/-! ## Sessions that were left -/

/-- What a session is that was left: the one before, with nothing in it. -/
def emptied (s : Session ι μ σ) (m : Memory μ) : Session ι μ σ :=
  { s with last := ⟨none, none⟩, phase := .idle { m with vars := .initial } }

/-- The session is as good as new: it is idle with the memory `m`, knows of no run before, and plays. -/
structure Blank (s : Session ι μ σ) (m : Memory μ) : Prop where
  phase : s.phase = .idle m
  vars : m.vars = .initial
  extracted : m.vars.extracted = []
  getVariable : ∀ name,
    s.getVariable name = .ok (Store.initial.get (s.world.reading s.scene.now).date name)
  last : s.last = ⟨none, none⟩
  lastError : s.lastError = ""
  lastExtract : s.lastExtract = ""
  /-- A run is that of the engine on the initial variables, with no stop requested. -/
  plays : ∀ script loops r left scene,
    proceed s.world none (s.engine.run script loops m) { s.scene with stopRequested := false } =
        .finished (r, left) scene →
      s.play script loops = (status r,
        { s with scene := scene, phase := .idle left, ended := some r, last := LastRun.ofResult r })
  /-- It comes to its end if the collaborators answer. -/
  ends : s.world.Answers → ∀ script loops, ∃ r left scene,
    proceed s.world none (s.engine.run script loops m) { s.scene with stopRequested := false } =
      .finished (r, left) scene

/-- A session that was emptied is as good as new. -/
theorem blank_emptied (s : Session ι μ σ) (m : Memory μ) :
    (s.emptied m).Blank { m with vars := .initial } where
  phase := rfl
  vars := rfl
  extracted := rfl
  getVariable _ := rfl
  last := rfl
  lastError := rfl
  lastExtract := rfl
  plays := by
    intro script loops r left scene hends
    have hlaunch : (s.emptied m).launch script loops true none =
        .ok ((s.emptied m).arrive true (.finished (r, left) scene)) :=
      congrArg (fun status => Except.ok ((s.emptied m).arrive true status)) hends
    rw [play, hlaunch]
    rfl
  ends := by
    intro hanswers script loops
    have hworld : s.world.Answers := hanswers
    obtain ⟨⟨r, left⟩, scene, hends⟩ := hworld.exists_finished
      (s.engine.run script loops { m with vars := .initial }) { s.scene with stopRequested := false }
    exact ⟨r, left, scene, hends⟩

/-! ## Looks -/

theorem look_of_idle {s : Session ι μ σ} {m : Memory μ} (hphase : s.phase = .idle m) (began : Nat) :
    s.look began = some (.ok (), s.emptied m) := by
  simp only [look, hphase, emptied]

/-- While a run is in flight, a look ends the waiting only when the time is up. -/
theorem look_of_running {s : Session ι μ σ} {f : Flight ι μ σ} (hphase : s.phase = .running f)
    (began : Nat) :
    s.look began = if s.exitTimeout ≤ .ofMillis (s.scene.now - began) then
      some (.error (.exitTimeout s.exitTimeout), s) else none := by
  simp only [look, hphase]

/-- If the time was not up at the look before, then it was up less than ten milliseconds ago. -/
theorem time_lt_of_lt {limit : Duration} {k : Nat}
    (hbefore : ∀ j, k = j + 1 → .ofMillis (pollMillis * j) < limit) :
    .ofMillis (pollMillis * k) < limit + .ofMillis pollMillis := by
  show pollMillis * k * 1000000 < limit.nanoseconds + pollMillis * 1000000
  cases k with
  | zero => simp [pollMillis]
  | succ j =>
      have hlt : pollMillis * j * 1000000 < limit.nanoseconds := hbefore j rfl
      rw [Nat.mul_add pollMillis, Nat.mul_one, Nat.add_mul]
      exact Nat.add_lt_add_right hlt _

/-- The first look that ends the waiting decides, if there are looks enough. -/
theorem pollExit_of_looks {s : Session ι μ σ} (hs : s.wait 0 = s) {began k polls : Nat}
    {out : Except SessionError Unit × Session ι μ σ}
    (hlooks : ∀ j < k, (s.wait (pollMillis * j)).look began = none)
    (hlast : (s.wait (pollMillis * k)).look began = some out) (hpolls : k < polls) :
    pollExit began polls s = out := by
  induction k generalizing s polls with
  | zero =>
      obtain ⟨polls, rfl⟩ := Nat.exists_eq_succ_of_ne_zero (Nat.ne_of_gt hpolls)
      rw [Nat.mul_zero, hs] at hlast
      rw [pollExit, hlast]
  | succ k ih =>
      obtain ⟨polls, rfl⟩ := Nat.exists_eq_succ_of_ne_zero (Nat.ne_of_gt (Nat.zero_lt_of_lt hpolls))
      have hfirst : s.look began = none := by
        have hlook := hlooks 0 (Nat.succ_pos k)
        rwa [Nat.mul_zero, hs] at hlook
      -- What is looked at later is what would be looked at from here on.
      have hwait : ∀ j, (s.wait pollMillis).wait (pollMillis * j) = s.wait (pollMillis * (j + 1)) := by
        intro j
        rw [wait_wait, Nat.mul_succ, Nat.add_comm]
      rw [pollExit, hfirst]
      refine ih ?_ ?_ ?_ (Nat.lt_of_succ_lt_succ hpolls)
      · rw [wait_wait, Nat.add_zero]
      · intro j hj
        rw [hwait]
        exact hlooks (j + 1) (Nat.succ_lt_succ hj)
      · rwa [hwait]

/-- The session at a look of a client that leaves while nobody else does anything. -/
def polled (s : Session ι μ σ) (k : Nat) : Session ι μ σ :=
  s.stop.wait (pollMillis * k)

theorem now_polled (s : Session ι μ σ) (k : Nat) :
    (s.polled k).scene.now = s.scene.now + pollMillis * k := by
  rw [polled, stop_eq]
  rfl

theorem exitTimeout_polled (s : Session ι μ σ) (k : Nat) : (s.polled k).exitTimeout = s.exitTimeout := by
  rw [polled, exitTimeout_wait, stop_eq]

theorem isRunning_iff {s : Session ι μ σ} : s.isRunning = true ↔ ∃ f, s.phase = .running f := by
  unfold isRunning
  cases s.phase <;> simp

/-- The time that has passed is a multiple of the time between two looks. -/
theorem look_polled_of_running {s : Session ι μ σ} {k : Nat} (hrunning : (s.polled k).isRunning = true) :
    (s.polled k).look s.scene.now = if s.exitTimeout ≤ .ofMillis (pollMillis * k) then
      some (.error (.exitTimeout s.exitTimeout), s.polled k) else none := by
  obtain ⟨f, hphase⟩ := isRunning_iff.1 hrunning
  rw [look_of_running hphase, now_polled, exitTimeout_polled, Nat.add_sub_cancel_left]

/-- A look that does not end the waiting finds a run in flight and some time left. -/
theorem look_polled_eq_none {s : Session ι μ σ} {k : Nat}
    (hlook : (s.polled k).look s.scene.now = none) :
    (s.polled k).isRunning = true ∧ .ofMillis (pollMillis * k) < s.exitTimeout := by
  have hrunning : (s.polled k).isRunning = true := by
    cases hphase : (s.polled k).phase with
    | idle m =>
        rw [look_of_idle hphase] at hlook
        nomatch hlook
    | running f => exact isRunning_iff.2 ⟨f, hphase⟩
  rw [look_polled_of_running hrunning] at hlook
  split at hlook
  · nomatch hlook
  · next htime => exact ⟨hrunning, Nat.lt_of_not_le htime⟩

/-- A client that leaves has an answer from the first look that finds the session idle or the time up. -/
theorem exists_look_leave {s : Session ι μ σ} (hs : s.Timely) :
    ∃ k, (∀ j < k, (s.polled j).look s.scene.now = none) ∧
      (s.polled k).look s.scene.now = some s.leave := by
  -- There are more looks than it takes until the time is up.
  let most := s.exitTimeout.nanoseconds / 10000000 + 1
  have hmost : ((s.polled most).look s.scene.now).isSome = true := by
    rw [Option.isSome_iff_ne_none]
    intro hnone
    have htime : pollMillis * most * 1000000 < s.exitTimeout.nanoseconds :=
      (look_polled_eq_none hnone).2
    simp only [pollMillis, most] at htime
    omega
  have hexists : ∃ k, ((s.polled k).look s.scene.now).isSome = true := ⟨most, hmost⟩
  have hbefore : ∀ j < Nat.find hexists, (s.polled j).look s.scene.now = none := by
    intro j hj
    simpa using Nat.find_min hexists hj
  obtain ⟨out, hout⟩ := Option.isSome_iff_exists.1 (Nat.find_spec hexists)
  refine ⟨Nat.find hexists, hbefore, ?_⟩
  rw [hout, leave]
  refine congrArg some (pollExit_of_looks hs.stop.wait_zero hbefore hout ?_).symm
  have hle : Nat.find hexists ≤ most := Nat.find_min' hexists hmost
  omega

/-- What a client that leaves alone comes to at its look `k`. -/
inductive ExitsAt (s : Session ι μ σ) (k : Nat) : Prop where
  /-- The run has ended, and the session is as good as new. -/
  | left {m : Memory μ} : (s.polled k).phase = .idle m →
      s.exit = (.ok (.ok ()), (s.polled k).emptied m) →
      ((s.polled k).emptied m).Blank { m with vars := .initial } → ExitsAt s k
  /-- The time is up, and the session is what it is because time passed. -/
  | refused : (s.polled k).isRunning = true → s.exitTimeout ≤ .ofMillis (pollMillis * k) →
      .ofMillis (pollMillis * k) < s.exitTimeout + .ofMillis pollMillis →
      s.exit = (.ok (.error (.exitTimeout s.exitTimeout)), s.polled k) → ExitsAt s k

/-- A client that leaves and has a deadline looks until the run has ended or its time is up. -/
theorem exit_eq {s : Session ι μ σ} (hs : s.Timely) (hdeadline : s.hasDeadline = true) :
    ∃ k, (∀ j < k, (s.polled j).isRunning = true ∧ .ofMillis (pollMillis * j) < s.exitTimeout) ∧
      s.ExitsAt k := by
  obtain ⟨k, hbefore, hlook⟩ := exists_look_leave hs
  have hexit {out : Except SessionError Unit × Session ι μ σ} (hleave : s.leave = out) :
      s.exit = (.ok out.1, out.2) := by rw [exit_of_hasDeadline hdeadline, hleave]
  have hrunning : ∀ j < k, (s.polled j).isRunning = true ∧
      .ofMillis (pollMillis * j) < s.exitTimeout := fun j hj => look_polled_eq_none (hbefore j hj)
  refine ⟨k, hrunning, ?_⟩
  -- The look that ends the waiting has found the session idle, or the time used up.
  cases hphase : (s.polled k).phase with
  | idle m =>
      rw [look_of_idle hphase] at hlook
      exact .left hphase (hexit (Option.some.inj hlook).symm) (blank_emptied _ m)
  | running f =>
      have hstill : (s.polled k).isRunning = true := isRunning_iff.2 ⟨f, hphase⟩
      rw [look_polled_of_running hstill] at hlook
      split at hlook
      · next htime =>
          refine .refused hstill htime (time_lt_of_lt fun j hj => ?_)
            (hexit (Option.some.inj hlook).symm)
          exact (hrunning j (hj ▸ Nat.lt_succ_self j)).2
      · nomatch hlook

/-! ## Winding down -/

/-- A run in flight after a wait was in flight before it. -/
theorem isRunning_wait {s : Session ι μ σ} {ms : Nat} (hrunning : (s.wait ms).isRunning = true) :
    s.isRunning = true := by
  cases hphase : s.phase with
  | idle m =>
      rw [wait_of_idle hphase] at hrunning
      obtain ⟨f, hf⟩ := isRunning_iff.1 hrunning
      nomatch hphase.symm.trans hf
  | running f => exact isRunning_iff.2 ⟨f, hphase⟩

/-- A run that has ended by one look has ended by every later one. -/
theorem isRunning_polled_of_le {s : Session ι μ σ} {j k : Nat} (hle : j ≤ k)
    (hrunning : (s.polled k).isRunning = true) : (s.polled j).isRunning = true := by
  obtain ⟨more, rfl⟩ := Nat.exists_eq_add_of_le hle
  rw [polled, Nat.mul_add, ← wait_wait] at hrunning
  exact isRunning_wait hrunning

/-- The run in flight has not wound down at a moment: once it is stopped it comes to its end then or
later, or not at all. -/
def InFlightAt (s : Session ι μ σ) (moment : Nat) : Prop :=
  ∃ f, s.phase = .running f ∧ ∀ r left scene,
    resume s.world none f.waiting { s.scene with stopRequested := true } = .finished (r, left) scene →
      moment ≤ scene.now

/-- Looks do not disturb the run. -/
theorem isRunning_polled_iff {s : Session ι μ σ} {k : Nat} :
    (s.polled k).isRunning = true ↔ s.InFlightAt (s.scene.now + pollMillis * k) := by
  have hstop : s.stop.phase = s.phase := by rw [stop_eq]
  cases hphase : s.phase with
  | idle m =>
      refine iff_of_false ?_ ?_
      · rw [polled, wait_of_idle (hstop.trans hphase), isRunning_iff]
        rintro ⟨f, hf⟩
        cases (hstop.trans hphase).symm.trans hf
      · rintro ⟨f, hf, -⟩
        cases hphase.symm.trans hf
  | running f =>
      have hstopped : s.stop = { s with scene := { s.scene with stopRequested := true } } := by
        simp only [stop, hphase]
      -- To poll `k` times is to wait once for as long, since waiting can be cut anywhere.
      have hwait : s.polled k = s.arrive f.kept ((resume s.world (some (s.scene.now + pollMillis * k))
          f.waiting { s.scene with stopRequested := true }).at (s.scene.now + pollMillis * k)) := by
        rw [polled, wait_of_running (hstop.trans hphase), hstopped]
        rfl
      cases hresume : resume s.world (some (s.scene.now + pollMillis * k)) f.waiting
          { s.scene with stopRequested := true } with
      | finished out scene =>
          obtain ⟨hends, hearly⟩ := finished_resume_iff.1 hresume
          refine iff_of_false ?_ ?_
          · rw [hwait, hresume]
            exact Bool.false_ne_true
          · rintro ⟨f', hf', hlate⟩
            cases hphase.symm.trans hf'
            exact Nat.not_le.2 hearly (hlate out.1 out.2 scene hends)
      | waiting q scene =>
          refine iff_of_true (by rw [hwait, hresume]; rfl) ⟨f, hphase, ?_⟩
          intro r left scene' hends
          by_contra hearly
          have hfinished := finished_resume_iff.2 ⟨hends, Nat.lt_of_not_le hearly⟩
          cases hresume.symm.trans hfinished

/-- A client that leaves while nobody else does anything runs out of time exactly if the run has not
wound down by the first look at which the time is up. -/
theorem exit_eq_exitTimeout_iff {s : Session ι μ σ} (hs : s.Timely) (hdeadline : s.hasDeadline = true)
    {k : Nat} (hk : IsLeast {k | s.exitTimeout ≤ .ofMillis (pollMillis * k)} k) :
    s.exit.1 = .ok (.error (.exitTimeout s.exitTimeout)) ↔
      s.InFlightAt (s.scene.now + pollMillis * k) := by
  obtain ⟨j, hbefore, hexit⟩ := exit_eq hs hdeadline
  have hle : j ≤ k := by
    by_contra hlt
    exact Nat.not_le.2 (hbefore k (Nat.lt_of_not_le hlt)).2 hk.1
  rw [← isRunning_polled_iff]
  cases hexit with
  | left hphase hexit =>
    have hidle : (s.polled j).isRunning = false := by simp only [isRunning, hphase]
    rw [hexit]
    constructor
    · nofun
    · intro hrunning
      rw [isRunning_polled_of_le hle hrunning] at hidle
      nomatch hidle
  | refused hrunning htime _ hexit =>
    obtain rfl : j = k := Nat.le_antisymm hle (hk.2 htime)
    exact iff_of_true (by rw [hexit]) hrunning

/-! ## Turns -/

section Turns

variable {κ : Type}

def Action.client? : Action κ → Option κ
  | .request c _ => some c
  | .wake c => some c
  | .pass _ => none

/-- What a turn of `c` does not touch. -/
structure Clients.Spares (c : Option κ) (s s' : Clients ι μ σ κ) : Prop where
  others : ∀ d, c ≠ some d → s'.activity d = s.activity d
  exitTimeout : s'.session.exitTimeout = s.session.exitTimeout
  timely : s.session.Timely → s'.session.Timely

namespace Clients

theorem spares_refl (c : Option κ) (s : Clients ι μ σ κ) : Spares c s s :=
  ⟨fun _ _ => rfl, rfl, id⟩

/-- What two steps spare, both together spare. -/
theorem Spares.trans {c : Option κ} {s s₁ s₂ : Clients ι μ σ κ} (h : Spares c s s₁)
    (h' : Spares c s₁ s₂) : Spares c s s₂ :=
  ⟨fun d hd => (h'.others d hd).trans (h.others d hd), h'.exitTimeout.trans h.exitTimeout,
    fun hs => h'.timely (h.timely hs)⟩

theorem spares_stop (c : Option κ) (s : Clients ι μ σ κ) :
    Spares c s { s with session := s.session.stop } :=
  ⟨fun _ _ => rfl, by rw [stop_eq], Timely.stop⟩

variable [DecidableEq κ]

theorem spares_update (s : Clients ι μ σ κ) (c : κ) (activity : Activity) {session : Session ι μ σ}
    (hexitTimeout : session.exitTimeout = s.session.exitTimeout)
    (htimely : s.session.Timely → session.Timely) :
    Spares (some c) s ⟨session, Function.update s.activity c activity⟩ := by
  refine ⟨fun d hd => Function.update_of_ne ?_ .., hexitTimeout, htimely⟩
  rintro rfl
  exact hd rfl

/-- A step of a run touches nobody but the client who plays it. -/
theorem spares_carryOn (s : Clients ι μ σ κ) (c : κ) (kept : Bool)
    (p : Proc (Timed ι) (RunResult × Memory μ)) (scene : Scene σ) :
    Spares (some c) s (s.carryOn c kept p scene).2 := by
  simp only [carryOn]
  cases hsettle : (settle s.session.world p scene).2 with
  | finished out scene' => exact spares_update s c .free rfl fun _ => timely_of_idle rfl
  | waiting q scene' =>
      exact spares_update s c .playing rfl fun _ => timely_of_running rfl (punctual_of_settle hsettle)

theorem spares_begin (s : Clients ι μ σ κ) (c : κ) (kept : Bool) (script : Script)
    (loops : Option Nat) : Spares (some c) s (s.begin c kept script loops).2 := by
  unfold begin
  split
  · exact spares_refl ..
  · exact spares_carryOn ..

theorem spares_advance (s : Clients ι μ σ κ) (c : κ) : Spares (some c) s (s.advance c).2 := by
  unfold advance
  split
  · exact spares_refl ..
  · split
    · exact spares_refl ..
    · next t _ =>
        dsimp only [entering]
        split
        · exact spares_carryOn ..
        · exact spares_carryOn ..

theorem spares_look (s : Clients ι μ σ κ) (c : κ) (began : Nat) :
    Spares (some c) s (s.look c began).2 := by
  unfold look
  cases hphase : s.session.phase with
  | idle m =>
      rw [look_of_idle hphase]
      exact spares_update s c .free rfl fun _ => timely_of_idle rfl
  | running f =>
      rw [look_of_running hphase]
      by_cases htime : s.session.exitTimeout ≤ .ofMillis (s.session.scene.now - began)
      · rw [if_pos htime]
        exact spares_update s c .free rfl id
      · rw [if_neg htime]
        exact spares_update s c (.leaving began) rfl id

/-- A request touches nobody but the client who makes it. -/
theorem spares_serve (s : Clients ι μ σ κ) (c : κ) (r : Request) :
    Spares (some c) s (s.serve c r).2 := by
  cases r with
  | run kept script loops => exact spares_begin ..
  | stop => exact spares_stop ..
  | setVariable name v =>
      cases hphase : s.session.phase with
      | running f =>
          simp only [serve, Session.setVariable, hphase]
          exact spares_refl ..
      | idle m =>
          simp only [serve, Session.setVariable, hphase]
          cases m.vars.set name v with
          | error e => exact spares_refl ..
          | ok assigned => exact ⟨fun _ _ => rfl, rfl, fun _ => timely_of_idle rfl⟩
  | getVariable name =>
      simp only [serve]
      split <;> exact spares_refl ..
  | exit =>
      simp only [serve, depart]
      split
      · exact (spares_stop (some c) s).trans (spares_look ..)
      · exact spares_stop (some c) s

/-- What a turn does not touch, whatever it is. -/
theorem spares_step (s : Clients ι μ σ κ) (a : Action κ) : Spares a.client? s (s.step a).2 := by
  cases a with
  | request c r =>
      simp only [step]
      split
      · exact spares_serve ..
      · exact spares_refl ..
  | wake c =>
      simp only [step]
      split
      · exact spares_refl ..
      · exact spares_advance ..
      · exact spares_look ..
  | pass ms =>
      simp only [step]
      split
      · next hpass =>
          refine ⟨fun _ _ => rfl, rfl, fun _ f hphase => Waiting.punctual_later fun t hend => ?_⟩
          have hrunning : s.session.phase = .running f := hphase
          simpa [mayPass, hrunning, hend] using hpass
      · exact spares_refl ..

/-- A client that leaves goes on leaving until it looks again. -/
theorem activity_step_of_leaving {s : Clients ι μ σ κ} {d : κ} {began : Nat}
    (hd : s.activity d = .leaving began) {a : Action κ} (ha : a ≠ .wake d) :
    (s.step a).2.activity d = .leaving began := by
  by_cases hclient : a.client? = some d
  · -- A request of its own is not possible.
    cases a with
    | request c r =>
        cases hclient
        simp only [step, hd]
    | wake c =>
        cases hclient
        exact absurd rfl ha
    | pass ms => cases hclient
  · rw [(spares_step s a).others d hclient, hd]

end Clients

/-! ## Looks among other turns -/

def Transcript.now (t : Transcript ι μ σ κ) : Nat :=
  t.clients.session.scene.now

/-- The session is the same, but for a request to stop. -/
def SameButStop (s s' : Session ι μ σ) : Prop :=
  ∃ stopRequested, s' = { s with scene := { s.scene with stopRequested := stopRequested } }

/-- What a look of `d` comes to that leads from `t` to `t'`, some milliseconds after it asked to leave
at the moment `began`. -/
inductive Answered (d : κ) (began elapsed : Nat) (t t' : Transcript ι μ σ κ) : Prop where
  /-- The run goes on, and there is time left. -/
  | waits {front : List (Entry ι μ κ)} : t.clients.session.isRunning = true →
      .ofMillis elapsed < t.clients.session.exitTimeout →
      t'.log = t.log ++ front → (∀ entry ∈ front, entry = .asked d .exit) →
      SameButStop t.clients.session t'.clients.session →
      t'.clients.activity d = .leaving began → Answered d began elapsed t t'
  /-- No run is in flight. -/
  | left {m : Memory μ} {front : List (Entry ι μ κ)} : t.clients.session.phase = .idle m →
      t'.log = t.log ++ front ++ [.told d .done] →
      t'.clients.session = t.clients.session.emptied m →
      t'.clients.session.Blank { m with vars := .initial } →
      t'.clients.activity d = .free → Answered d began elapsed t t'
  /-- The run goes on, and the time is up. -/
  | refused {front : List (Entry ι μ κ)} : t.clients.session.isRunning = true →
      t.clients.session.exitTimeout ≤ .ofMillis elapsed →
      t'.log = t.log ++ front ++
        [.told d (.refused (.exitTimeout t.clients.session.exitTimeout))] →
      SameButStop t.clients.session t'.clients.session →
      t'.clients.activity d = .free → Answered d began elapsed t t'

/-- A client that was not told goes on looking, and nothing else has changed. -/
theorem Answered.of_not_free {d : κ} {began elapsed : Nat} {t t' : Transcript ι μ σ κ}
    (h : Answered d began elapsed t t') (hd : t'.clients.activity d ≠ .free) :
    t'.clients.activity d = .leaving began ∧ .ofMillis elapsed < t.clients.session.exitTimeout ∧
      SameButStop t.clients.session t'.clients.session := by
  cases h with
  | waits _ htime _ _ hsame hleaving => exact ⟨hleaving, htime, hsame⟩
  | left _ _ _ _ hfree => exact absurd hfree hd
  | refused _ _ _ _ hfree => exact absurd hfree hd

variable [DecidableEq κ]

/-- `LooksAt d t₀ k t a` means that the client `d`, which asked to leave at `t₀`, has its look number
`k` at `t`, by the turn `a`. It looks at once, and then every ten milliseconds; in between the others
have any turns. -/
inductive LooksAt (d : κ) (t₀ : Transcript ι μ σ κ) :
    Nat → Transcript ι μ σ κ → Action κ → Prop where
  | first : LooksAt d t₀ 0 t₀ (.request d .exit)
  | again {k : Nat} {t : Transcript ι μ σ κ} {a : Action κ} {round : List (Action κ)} :
      LooksAt d t₀ k t a → (t.add a).clients.activity d ≠ .free → (∀ b ∈ round, b ≠ .wake d) →
      ((t.add a).addAll round).now = (t.add a).now + pollMillis →
      LooksAt d t₀ (k + 1) ((t.add a).addAll round) (.wake d)

/-- A look comes to what the session says to it, whether the run is stopped before it or not. -/
theorem answered_of_look {d : κ} {t : Transcript ι μ σ κ} {began elapsed : Nat}
    {front : List (Entry ι μ κ)} {session : Session ι μ σ}
    (hfront : ∀ entry ∈ front, entry = .asked d .exit)
    (hsession : session = t.clients.session ∨ session = t.clients.session.stop)
    (hnow : t.now = began + elapsed) :
    Answered d began elapsed t (.extend (t.log ++ front)
      (Clients.look { t.clients with session := session } d began)) := by
  cases hphase : t.clients.session.phase with
  | idle m =>
      have hsame : session = t.clients.session := by
        rcases hsession with h | h
        · exact h
        · simpa only [stop, hphase] using h
      simp only [Clients.look, hsame, look_of_idle hphase]
      exact .left hphase rfl rfl (blank_emptied _ m) (Function.update_self ..)
  | running f =>
      -- Before the first look a stop is requested, and before the later ones it has been.
      have hsame : SameButStop t.clients.session session := by
        rcases hsession with rfl | rfl
        · exact ⟨_, rfl⟩
        · exact ⟨_, stop_eq _⟩
      have hrunning : t.clients.session.isRunning = true := isRunning_iff.2 ⟨f, hphase⟩
      obtain ⟨stopRequested, hsession⟩ := hsame
      have hlook : session.look began =
          if t.clients.session.exitTimeout ≤ .ofMillis elapsed then
            some (.error (.exitTimeout t.clients.session.exitTimeout), session) else none := by
        have helapsed : t.clients.session.scene.now - began = elapsed := by
          rw [show t.clients.session.scene.now = began + elapsed from hnow, Nat.add_sub_cancel_left]
        rw [look_of_running (f := f) (by rw [hsession]; exact hphase), hsession]
        simp only [helapsed]
      by_cases htime : t.clients.session.exitTimeout ≤ .ofMillis elapsed
      · simp only [Clients.look, hlook, if_pos htime]
        exact .refused hrunning htime rfl ⟨stopRequested, hsession⟩ (Function.update_self ..)
      · simp only [Clients.look, hlook, if_neg htime]
        exact .waits hrunning (Nat.lt_of_not_le htime) (List.append_nil _) hfront
          ⟨stopRequested, hsession⟩ (Function.update_self ..)

/-- A client that is leaving is left alone until it is woken. -/
theorem leaving_addAll {d : κ} {began : Nat} {round : List (Action κ)}
    (hround : ∀ b ∈ round, b ≠ .wake d)
    {t : Transcript ι μ σ κ} (hd : t.clients.activity d = .leaving began) :
    (t.addAll round).clients.activity d = .leaving began ∧
      (t.addAll round).clients.session.exitTimeout = t.clients.session.exitTimeout := by
  induction round generalizing t with
  | nil => exact ⟨hd, rfl⟩
  | cons b round ih =>
      obtain ⟨hb, hround⟩ := List.forall_mem_cons.1 hround
      obtain ⟨hleaving, hexitTimeout⟩ :=
        ih hround (t := t.add b) (Clients.activity_step_of_leaving hd hb)
      exact ⟨hleaving, hexitTimeout.trans (Clients.spares_step t.clients b).exitTimeout⟩

/-- When a look is, and what it comes to. -/
structure LookFacts (d : κ) (t₀ : Transcript ι μ σ κ) (k : Nat) (t : Transcript ι μ σ κ)
    (a : Action κ) : Prop where
  now : t.now = t₀.now + pollMillis * k
  exitTimeout : t.clients.session.exitTimeout = t₀.clients.session.exitTimeout
  /-- The time was not up at the look before. -/
  time : .ofMillis (pollMillis * k) < t₀.clients.session.exitTimeout + .ofMillis pollMillis
  answered : Answered d t₀.now (pollMillis * k) t (t.add a)

/-- A request to exit stops the run and looks for the first time. -/
theorem add_exit_of_free {d : κ} {t : Transcript ι μ σ κ} (hfree : t.clients.activity d = .free)
    (hdeadline : t.clients.session.hasDeadline = true) :
    t.add (.request d .exit) = .extend (t.log ++ [.asked d .exit])
      (Clients.look { t.clients with session := t.clients.session.stop } d t.now) := by
  refine (add_exit hfree t.log).trans ?_
  simp only [Clients.depart, hasDeadline_stop, hdeadline, if_true, Transcript.now]

theorem add_wake_of_leaving {d : κ} {began : Nat} {t : Transcript ι μ σ κ}
    (hd : t.clients.activity d = .leaving began) :
    t.add (.wake d) = .extend (t.log ++ []) (t.clients.look d began) := by
  simp only [Transcript.add, Clients.step, hd, List.append_nil]

/-- Every look of a client that leaves, by induction on the looks before it. -/
theorem LooksAt.facts {d : κ} {t₀ t : Transcript ι μ σ κ} {k : Nat} {a : Action κ}
    (hfree : t₀.clients.activity d = .free) (hdeadline : t₀.clients.session.hasDeadline = true)
    (hlooks : LooksAt d t₀ k t a) :
    LookFacts d t₀ k t a := by
  induction hlooks with
  | first =>
      refine ⟨rfl, rfl, time_lt_of_lt nofun, ?_⟩
      rw [add_exit_of_free hfree hdeadline]
      exact answered_of_look (by simp) (.inr rfl) rfl
  | @again k t a round _ hd hround hpoll ih =>
      -- The look before left the client waiting, so that the time was not up.
      obtain ⟨hleaving, htime, ⟨stopRequested, hsame⟩⟩ := ih.answered.of_not_free hd
      obtain ⟨hstill, hexitTimeout⟩ := leaving_addAll hround hleaving
      rw [ih.exitTimeout] at htime
      -- A look takes no time, and between two looks there are ten milliseconds.
      have hnow : ((t.add a).addAll round).now = t₀.now + pollMillis * (k + 1) := by
        have hbefore : (t.add a).now = t.now := by
          rw [Transcript.now, hsame]
          rfl
        rw [hpoll, hbefore, ih.now, Nat.mul_succ, Nat.add_assoc]
      refine ⟨hnow, ?_, time_lt_of_lt fun j hj => ?_, ?_⟩
      · rw [hexitTimeout, hsame]
        exact ih.exitTimeout
      · cases hj
        exact htime
      · rw [add_wake_of_leaving hstill]
        exact answered_of_look (by simp) (.inl rfl) hnow

/-! ## All or nothing -/

theorem timely_addAll {t : Transcript ι μ σ κ} (ht : t.clients.session.Timely)
    (actions : List (Action κ)) : (t.addAll actions).clients.session.Timely := by
  induction actions generalizing t with
  | nil => exact ht
  | cons a actions ih => exact ih (t := t.add a) ((Clients.spares_step t.clients a).timely ht)

omit [DecidableEq κ] in
/-- A run in flight has a client who plays it. -/
theorem Clients.Agrees.attended {s : Clients ι μ σ κ} {o : Option (Ticket ι μ κ)} (hs : s.Agrees o) :
    s.Attended := by
  intro f hphase
  cases hs with
  | idle hidle _ => nomatch hidle.symm.trans hphase
  | @running _ t _ hfits => exact ⟨t.client, (hfits.playing_iff _).2 rfl⟩

/-- What clients that leave after the turns of the transcript may rely on if they have a deadline. -/
structure Leaving (t : Transcript ι μ σ κ) : Prop where
  /-- Whatever the others do, each look comes to one of three things. -/
  looks : ∀ d, t.clients.activity d = .free → ∀ k t' a, LooksAt d t k t' a → LookFacts d t k t' a
  /-- If the others do nothing, the client looks at the run that it stopped until it has an answer, -/
  alone : ∃ k, (∀ j < k, (t.clients.session.polled j).isRunning = true ∧
    .ofMillis (pollMillis * j) < t.clients.session.exitTimeout) ∧ t.clients.session.ExitsAt k
  /-- and runs out of time exactly if the run has not wound down by the first look at which the time is
  up. -/
  timeout_iff : ∀ k, IsLeast {k | t.clients.session.exitTimeout ≤ .ofMillis (pollMillis * k)} k →
    (t.clients.session.exit.1 = .ok (.error (.exitTimeout t.clients.session.exitTimeout)) ↔
      t.clients.session.InFlightAt (t.now + pollMillis * k))
  /-- What the client does then is a sequence of turns. -/
  turns : ∀ d, t.clients.activity d = .free → Leaves d t t.clients.session.exit

/-- What becomes of clients that leave after the turns of the transcript if they have no deadline. -/
structure Overflowing (t : Transcript ι μ σ κ) : Prop where
  /-- The session does not answer. -/
  exit : t.clients.session.exit = (.error clockOverflow, t.clients.session.stop)
  /-- Nothing is different but what the run in flight is told, -/
  same : SameButStop t.clients.session t.clients.session.stop
  /-- and all of it is one turn. -/
  turn : ∀ d, t.clients.activity d = .free → t.add (.request d .exit) =
    ⟨t.log ++ [.asked d .exit, .told d (.faulted clockOverflow)],
      { t.clients with session := t.clients.session.stop }⟩

/-- Without a deadline that the clock can tell, the request to exit is a fault. -/
theorem overflowing_of_hasDeadline {t : Transcript ι μ σ κ}
    (hdeadline : t.clients.session.hasDeadline = false) : Overflowing t where
  exit := exit_of_overflow hdeadline
  same := ⟨_, stop_eq _⟩
  turn := by
    intro d hfree
    refine (add_exit hfree t.log).trans ?_
    simp [Transcript.extend, Clients.depart, hasDeadline_stop, hdeadline, departure]

/-- No action changes the exit timeout. -/
theorem exitTimeout_addAll (t : Transcript ι μ σ κ) (actions : List (Action κ)) :
    (t.addAll actions).clients.session.exitTimeout = t.clients.session.exitTimeout := by
  induction actions generalizing t with
  | nil => rfl
  | cons a actions ih => exact (ih (t.add a)).trans (Clients.spares_step t.clients a).exitTimeout

end Turns

abbrev oneCall : Interface := ⟨Unit, fun _ => Unit⟩

/-- A session with a hook whose call takes 25 milliseconds, whatever is requested. -/
def slowSession (exitTimeout : Duration) : Session oneCall Unit Unit :=
  let hook : Hook oneCall Unit := fun _ =>
    (Timed.await (ι := oneCall) ()).bind fun _ => .done (.succeeded, ())
  create ⟨{}, .builtin, Cleanup.empty.register "slow" hook, none, none⟩
    ⟨fun _ _ _ => ⟨(), some 25, (), false, .ok ()⟩,
      fun _ => ⟨.zero, 0, ⟨2026, 1, 1, 0, 0, 0⟩⟩⟩
    () ⟨⟨[], [], false⟩, ()⟩ exitTimeout

-- The hook has not ended at the look after 20 milliseconds, and it has at the next one, which is the
-- first after 21.
example :
    let leave (ms : Nat) : Option (Option Bool × Nat) :=
      ((slowSession (.ofMillis ms)).start ⟨"slow", []⟩ none).toOption.map
        fun s => (s.exit.1.toOption.map Except.isOk, s.exit.2.scene.now)
    leave 20 = some (some false, 20) ∧ leave 21 = some (some true, 30) := by
  decide +kernel

end Session
end MacroReplay
