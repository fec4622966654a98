import Mathlib.Data.List.Induction
import MacroReplay.Proofs.Run.Verdict
import MacroReplay.Proofs.Session.Cleanup

/-!
# The last error of a session

A session remembers the last run that it kept, until a client leaves. What it then says about the last
error is read off the result of that run, so it is empty if the run succeeded, and otherwise as clear as
the run itself.

* `Session.recollect` — what a log says about the last run, entry by entry;
* `Session.Clients.Recalls` — the session remembers what the log says, which every turn keeps;
* `Session.exists_ended_of_remembered` — the last run as an entry of the log;
* `Session.failures_are_told` — the results of all runs, and the last error after any turns.
-/

namespace MacroReplay
namespace Session

variable {ι : Interface} {μ σ κ : Type}

/-! ## What a log says about the last run -/

def Request.isExit : Request → Bool
  | .exit => true
  | _ => false

/-- What is known at some place of a log. -/
structure Recollection (ι : Interface) (μ κ : Type) where
  /-- The run in flight. -/
  run : Option (Ticket ι μ κ)
  /-- The clients whose last request was to leave. -/
  leaves : κ → Bool
  /-- The result of the last run that was kept, if no client has left since. -/
  last : Option RunResult

def Recollection.blank : Recollection ι μ κ :=
  ⟨none, fun _ => false, none⟩

section Recall

variable [DecidableEq κ]

def recollect (m : Recollection ι μ κ) (entry : Entry ι μ κ) : Recollection ι μ κ where
  run := note m.run entry
  leaves := match entry with
    | .asked c r => Function.update m.leaves c r.isExit
    | _ => m.leaves
  last := match entry with
    | .ended _ r _ => if m.run.any Ticket.kept then some r else m.last
    | .told c .done => if m.leaves c then none else m.last
    | _ => m.last

/-- The result of the last run in a log that the session kept, if no client has left since. -/
def remembered (log : List (Entry ι μ κ)) : Option RunResult :=
  (log.foldl recollect .blank).last

/-- Of the run in flight a recollection notes what the protocol does. -/
theorem run_foldl_recollect (log : List (Entry ι μ κ)) (m : Recollection ι μ κ) :
    (log.foldl recollect m).run = log.foldl note m.run := by
  induction log generalizing m with
  | nil => rfl
  | cons entry log ih => exact ih (recollect m entry)

theorem run_recalled (log : List (Entry ι μ κ)) :
    (log.foldl recollect (.blank : Recollection ι μ κ)).run = current log :=
  run_foldl_recollect log .blank

/-- Only a farewell makes a difference to what is known. -/
theorem recollect_told {r : Response} (hr : r ≠ .done) (m : Recollection ι μ κ) (c : κ) :
    recollect m (.told c r) = m := by
  cases r with
  | done => exact absurd rfl hr
  | _ => rfl

/-- The calls of a run change nothing that is remembered. -/
theorem foldl_recollect_called (h : History (Timed ι)) {m : Recollection ι μ κ} {t : Ticket ι μ κ}
    (hrun : m.run = some t) :
    ∃ t', t'.kept = t.kept ∧ (h.map .called).foldl recollect m = { m with run := some t' } := by
  induction h generalizing m t with
  | nil => exact ⟨t, rfl, by rw [← hrun]; rfl⟩
  | cons event h ih =>
      have hnext : (recollect m (.called event)).run = some { t with calls := t.calls ++ [event] } := by
        simp [recollect, note, hrun]
      obtain ⟨t', hkept, hfold⟩ := ih hnext
      exact ⟨t', hkept, hfold⟩

/-- The run that is remembered ended in the log, and was kept. -/
theorem exists_ended_of_remembered {log : List (Entry ι μ κ)} {r : RunResult}
    (h : remembered log = some r) :
    ∃ front c left back run, log = front ++ .ended c r left :: back ∧ current front = some run ∧
      run.kept = true := by
  -- From the end of the log: an entry that does not settle what is remembered leaves the question to
  -- those before it.
  induction log using List.reverseRecOn with
  | nil => cases h
  | append_singleton log entry ih =>
      have hearlier : remembered log = some r → ∃ front c left back run,
          log ++ [entry] = front ++ .ended c r left :: back ∧ current front = some run ∧
            run.kept = true := by
        intro hlog
        obtain ⟨front, c, left, back, run, rfl, hcurrent, hkept⟩ := ih hlog
        exact ⟨front, c, left, back ++ [entry], run, by simp, hcurrent, hkept⟩
      rw [remembered, List.foldl_append] at h
      cases entry with
      | ended c r' left =>
          by_cases hkept : (log.foldl recollect .blank).run.any Ticket.kept = true
          · have hlast : r' = r := by simpa [recollect, hkept] using h
            rw [run_recalled, Option.any_eq_true] at hkept
            obtain ⟨run, hcurrent, hrun⟩ := hkept
            exact ⟨log, c, left, [], run, by rw [hlast], hcurrent, hrun⟩
          · exact hearlier (by simpa [remembered, recollect, hkept] using h)
      | told c response =>
          apply hearlier
          cases response with
          | done =>
              by_cases hleaves : (log.foldl recollect .blank).leaves c = true
              · simp [recollect, hleaves] at h
              · simpa [remembered, recollect, hleaves] using h
          | _ => exact h
      | asked | begun | called | raised => exact hearlier h

/-! ## Turns -/

def lastRun (last : Option RunResult) : LastRun :=
  (last.map LastRun.ofResult).getD ⟨none, none⟩

/-- The session remembers the last run as the log does, and the log knows who is about to leave. -/
structure Clients.Recalls (s : Clients ι μ σ κ) (m : Recollection ι μ κ) : Prop where
  leaves : ∀ c began, s.activity c = .leaving began → m.leaves c = true
  last : s.session.last = lastRun m.last

namespace Clients

variable {s : Clients ι μ σ κ} {m : Recollection ι μ κ}

theorem leaving_of_update {activity : κ → Activity} {a : Activity} (ha : ∀ began, a ≠ .leaving began)
    {c d : κ} {began : Nat} (h : Function.update activity c a d = .leaving began) :
    activity d = .leaving began := by
  by_cases hd : d = c
  · subst hd
    rw [Function.update_self] at h
    exact absurd h (ha began)
  · rwa [Function.update_of_ne hd] at h

theorem Recalls.told (hs : s.Recalls m) {r : Response} (hr : r ≠ .done) (c : κ) :
    s.Recalls ([.told c r].foldl recollect m) := by
  rw [List.foldl_cons, List.foldl_nil, recollect_told hr]
  exact hs

/-- A run that ends is remembered as its result says. -/
theorem Recalls.landing (hs : s.Recalls m) {t : Ticket ι μ κ} (hrun : m.run = some t) (c : κ)
    (status : Timeline.Status ι σ (RunResult × Memory μ)) :
    (s.landing c t.kept status).2.Recalls ((s.landing c t.kept status).1.foldl recollect m) := by
  rcases status with ⟨⟨r, left⟩, scene⟩ | ⟨q, scene⟩
  · have hanswer : answer t.kept r ≠ .done := by
      unfold answer
      split <;> nofun
    have hknown : (s.landing c t.kept (.finished (r, left) scene)).1.foldl recollect m =
        recollect m (.ended c r left) := recollect_told hanswer _ c
    rw [hknown]
    refine ⟨?_, ?_⟩
    · intro d began hd
      exact hs.leaves d began (leaving_of_update (by simp) hd)
    · -- The session and the log keep the result on the same condition.
      simp only [Clients.landing, arrive, recollect, hrun, Option.any_some, hs.last]
      cases t.kept <;> rfl
  · refine ⟨?_, hs.last⟩
    intro d began hd
    exact hs.leaves d began (leaving_of_update (by simp) hd)

theorem Recalls.carryOn (hs : s.Recalls m) {t : Ticket ι μ κ} (hrun : m.run = some t) (c : κ)
    (p : Proc (Timed ι) (RunResult × Memory μ)) (scene : Scene σ) :
    (s.carryOn c t.kept p scene).2.Recalls ((s.carryOn c t.kept p scene).1.foldl recollect m) := by
  obtain ⟨t', hkept, hcalls⟩ := foldl_recollect_called (Timeline.settle s.session.world p scene).1 hrun
  have hs' : s.Recalls { m with run := some t' } := ⟨hs.leaves, hs.last⟩
  have hlanding := hs'.landing (t := t') rfl c (Timeline.settle s.session.world p scene).2
  rw [hkept] at hlanding
  simp only [Clients.carryOn, List.foldl_append, hcalls]
  exact hlanding

theorem Recalls.begin (hs : s.Recalls m) (c : κ) (kept : Bool) (script : Script)
    (loops : Option Nat) :
    (s.begin c kept script loops).2.Recalls ((s.begin c kept script loops).1.foldl recollect m) := by
  unfold Clients.begin
  cases hphase : s.session.phase with
  | running f =>
      have hrefusal : refusal kept ≠ .done := by
        unfold refusal
        split <;> nofun
      exact hs.told hrefusal c
  | idle memory =>
      -- The ticket of the run that begins says whether the session keeps it.
      have hbegun : s.Recalls (recollect m (.begun c kept script loops memory)) := ⟨hs.leaves, hs.last⟩
      exact hbegun.carryOn (t := ⟨c, kept, script, loops, memory, [], false⟩) rfl c _ _

/-- One step of the run in flight. -/
theorem Recalls.advance (hs : s.Recalls m) (hagrees : s.Agrees m.run) (c : κ) :
    (s.advance c).2.Recalls ((s.advance c).1.foldl recollect m) := by
  unfold Clients.advance
  generalize hrun : m.run = o at hagrees
  cases hagrees with
  | idle hphase =>
      simp only [hphase]
      exact hs
  | @running f t hphase hfits =>
      simp only [hphase]
      cases f.waiting.end? s.session.scene with
      | none => exact hs
      | some turn =>
          -- The call itself changes nothing that is remembered, and neither does a stop that it
          -- raises.
          have hcalled : s.Recalls (recollect m (.called ⟨f.waiting.call, turn.reply⟩)) :=
            ⟨hs.leaves, hs.last⟩
          have hrun' : (recollect m (.called ⟨f.waiting.call, turn.reply⟩)).run =
              some { t with calls := t.calls ++ [⟨f.waiting.call, turn.reply⟩] } := by
            simp [recollect, note, hrun]
          dsimp only
          rw [← hfits.kept]
          cases turn.raisesStop with
          | false =>
              exact hcalled.carryOn hrun' c (f.waiting.next turn.reply)
                (turn.scene s.session.scene.stopRequested)
          | true =>
              have hraised : s.Recalls (recollect (recollect m (.called ⟨f.waiting.call, turn.reply⟩))
                  .raised) := ⟨hs.leaves, hs.last⟩
              have hrun'' :
                  (recollect (recollect m (.called ⟨f.waiting.call, turn.reply⟩)) .raised).run =
                  some { t with
                    calls := t.calls ++ [⟨f.waiting.call, turn.reply⟩], stopAsked := true } := by
                simp [recollect, note, hrun]
              exact hraised.carryOn hrun'' c (f.waiting.next turn.reply)
                (turn.scene s.session.scene.stopRequested)

theorem Recalls.look (hs : s.Recalls m) {c : κ} (hleaves : m.leaves c = true) (began : Nat) :
    (s.look c began).2.Recalls ((s.look c began).1.foldl recollect m) := by
  have hfree : ∀ d began, Function.update s.activity c .free d = .leaving began →
      m.leaves d = true := by
    intro d began hd
    exact hs.leaves d began (leaving_of_update (by simp) hd)
  cases hphase : s.session.phase with
  | idle memory =>
      -- The client is told that it has left, and the session has forgotten everything.
      simp only [Clients.look, Session.look, hphase]
      refine ⟨hfree, ?_⟩
      simp [farewell, recollect, hleaves, lastRun]
  | running f =>
      by_cases htime : s.session.exitTimeout ≤ Duration.ofMillis (s.session.scene.now - began)
      · simp only [Clients.look, Session.look, hphase, if_pos htime]
        have hfreed : Recalls { s with activity := Function.update s.activity c .free } m :=
          ⟨hfree, hs.last⟩
        exact hfreed.told (by simp [farewell]) c
      · simp only [Clients.look, Session.look, hphase, if_neg htime]
        refine ⟨?_, hs.last⟩
        intro d began' hd
        by_cases hdc : d = c
        · rw [hdc]
          exact hleaves
        · exact hs.leaves d began' (by simpa [Function.update_of_ne hdc] using hd)

/-- Whatever is requested, the recollection stays right. -/
theorem Recalls.serve (hs : s.Recalls m) {c : κ} {r : Request} (hasked : m.leaves c = r.isExit) :
    (s.serve c r).2.Recalls ((s.serve c r).1.foldl recollect m) := by
  cases r with
  | run kept script loops => exact hs.begin c kept script loops
  | stop =>
      refine ⟨hs.leaves, ?_⟩
      have hstays : m.leaves c = false := hasked
      simp [Clients.serve, recollect, hstays, stop_eq, hs.last]
  | setVariable name v =>
      cases hphase : s.session.phase with
      | running f =>
          simp only [Clients.serve, setVariable, hphase]
          exact hs.told (by simp) c
      | idle memory =>
          simp only [Clients.serve, setVariable, hphase]
          cases memory.vars.set name v with
          | error e => exact hs.told (by simp) c
          | ok assigned =>
              have hset : Recalls { s with session := { s.session with
                  phase := .idle { memory with vars := assigned.2 } } } m := ⟨hs.leaves, hs.last⟩
              exact hset.told (by simp) c
  | getVariable name =>
      simp only [Clients.serve]
      cases s.session.getVariable name with
      | ok v => exact hs.told (by simp) c
      | error e => exact hs.told (by simp) c
  | exit =>
      -- The stop comes first, and then the client looks for the first time or is told of the fault.
      have hstopped : Recalls { s with session := s.session.stop } m :=
        ⟨hs.leaves, by rw [stop_eq]; exact hs.last⟩
      simp only [Clients.serve, Clients.depart]
      split
      · exact hstopped.look hasked _
      · exact hstopped.told (by simp [departure]) c

/-- Every turn leaves the session with what the longer log says about the last run. -/
theorem Recalls.step (hs : s.Recalls m) (hagrees : s.Agrees m.run) (a : Action κ) :
    (s.step a).2.Recalls ((s.step a).1.foldl recollect m) := by
  cases a with
  | request c r =>
      cases hc : s.activity c with
      | free =>
          -- The request says something about its own client only, who was not about to leave.
          have hasked : s.Recalls (recollect m (.asked c r)) := by
            refine ⟨?_, hs.last⟩
            intro d began hd
            have hdc : d ≠ c := by
              rintro rfl
              rw [hc] at hd
              cases hd
            simpa [recollect, Function.update_of_ne hdc] using hs.leaves d began hd
          simp only [Clients.step, hc]
          exact hasked.serve (by simp [recollect])
      | playing | leaving =>
          simp only [Clients.step, hc]
          exact hs
  | wake c =>
      cases hc : s.activity c with
      | free =>
          simp only [Clients.step, hc]
          exact hs
      | playing =>
          simp only [Clients.step, hc]
          exact hs.advance hagrees c
      | leaving began =>
          simp only [Clients.step, hc]
          exact hs.look (hs.leaves c began hc) began
  | pass ms =>
      simp only [Clients.step]
      split
      · exact ⟨hs.leaves, hs.last⟩
      · exact hs

end Clients

/-! ## Sequences of turns -/

/-- Whatever the clients do, the session remembers what the transcript tells. -/
theorem Transcript.Sound.recalls_addAll {session : Session ι μ σ} {t : Transcript ι μ σ κ}
    (ht : t.Sound session) (hrecalls : t.clients.Recalls (t.log.foldl recollect .blank))
    (actions : List (Action κ)) :
    (t.addAll actions).clients.Recalls ((t.addAll actions).log.foldl recollect .blank) := by
  induction actions generalizing t with
  | nil => exact hrecalls
  | cons a actions ih =>
      refine ih (ht.add a) ?_
      have hagrees : t.clients.Agrees (t.log.foldl recollect .blank).run := by
        rw [run_recalled]
        exact ht.agrees
      have hstep := hrecalls.step hagrees a
      rw [← List.foldl_append] at hstep
      exact hstep

/-- The session remembers the last run that the transcript remembers, if there was none before. -/
theorem last_of_turns {session : Session ι μ σ} {memory : Memory μ}
    (hidle : session.phase = .idle memory) (hlast : session.last = ⟨none, none⟩)
    (actions : List (Action κ)) :
    (Transcript.of session actions).clients.session.last =
      lastRun (remembered (Transcript.of session actions).log) := by
  have hsound : (⟨[], .opened session⟩ : Transcript ι μ σ κ).Sound session :=
    Transcript.sound_of hidle []
  exact (hsound.recalls_addAll ⟨nofun, hlast⟩ actions).last

/-- The last error is the message of the last run, if it failed. -/
theorem lastError_of_last {session : Session ι μ σ} {r : RunResult}
    (h : session.last = lastRun (some r)) :
    session.lastError = if r.success then "" else r.message.getD "" := by
  rw [lastError, h]
  cases hok : r.success <;> simp [lastRun, LastRun.ofResult, hok]

/-- What a session says about the last run after the turns of a transcript. -/
structure TellsFailures (engine : Engine ι μ) (t : Transcript ι μ σ κ) : Prop where
  /-- The session remembers the last run of the log that it kept, unless a client has left since. -/
  result : t.clients.session.last.result = remembered t.log
  blank : remembered t.log = none → t.clients.session.lastError = ""
  /-- The last error is empty if and only if that run succeeded; only where a row failed without a
  message is nothing said here. -/
  told : ∀ r, remembered t.log = some r →
    ∃ (front back : List (Entry ι μ κ)) (c : κ) (left : Memory μ) (run : Ticket ι μ κ)
      (x : engine.Execution), t.log = front ++ .ended c r left :: back ∧ current front = some run ∧
        run.client = c ∧ run.kept = true ∧ run.Completes x r left ∧
        ((∀ err, x.RowFailed err → err.message ≠ "") →
          (t.clients.session.lastError = "" ↔ r.success = true))

/-- Without a row that failed silently, an empty last error says that the run succeeded. -/
theorem lastError_eq_empty_iff {engine : Engine ι μ} {session : Session ι μ σ} (x : engine.Execution)
    (hlast : session.last = lastRun (some x.result))
    (hworded : ∀ err, x.RowFailed err → err.message ≠ "") :
    session.lastError = "" ↔ x.result.success = true := by
  rw [lastError_of_last hlast]
  cases hok : x.result.success with
  | true => simp
  | false =>
      obtain ⟨text, htext, hne⟩ := x.verdict.message hok hworded
      simp [htext, hne]

end Recall

/-- Every run, whatever its commands and its datasource do, says by its code whether it was stopped,
apart from a row that reports a stop, and has a message if it failed, apart from a row that fails
without one. So the last error of a session is empty if and only if the last run succeeded. -/
theorem failures_are_told (engine : Engine ι μ) :
    (∀ x : engine.Execution, x.Verdict) ∧
      ∀ {σ κ : Type} [DecidableEq κ] (world : World ι σ) (start : σ) (m : Memory μ)
        (exitTimeout : Duration) (actions : List (Action κ)),
        TellsFailures engine (Transcript.of (create engine world start m exitTimeout) actions) := by
  refine ⟨fun x => x.verdict, ?_⟩
  intro σ κ _ world start m exitTimeout actions
  let session := create engine world start m exitTimeout
  have hsound : (Transcript.of session actions).Sound session := Transcript.sound_of rfl actions
  have hlast : (Transcript.of session actions).clients.session.last =
      lastRun (remembered (Transcript.of session actions).log) := last_of_turns rfl rfl actions
  refine ⟨?_, ?_, ?_⟩
  · rw [hlast]
    cases remembered (Transcript.of session actions).log <;> rfl
  · intro hnone
    rw [hnone] at hlast
    rw [lastError, hlast]
    rfl
  · intro r hr
    -- The run that is remembered stands in the transcript, and is an execution with a verdict.
    obtain ⟨front, c, left, back, run, hlog, hcurrent, hkept⟩ := exists_ended_of_remembered hr
    obtain ⟨run', x, hcurrent', hclient, hcompletes⟩ := exists_execution hsound hlog
    obtain rfl : run = run' := Option.some.inj (hcurrent.symm.trans hcurrent')
    refine ⟨front, back, c, left, run, x, hlog, hcurrent, hclient, hkept, hcompletes, ?_⟩
    intro hworded
    rw [hr, ← hcompletes.result] at hlast
    rw [lastError_eq_empty_iff x hlast hworded, hcompletes.result]

/-- An engine with the built-in commands, whose rows all fail to load. -/
def failingRows (err : CommandError) : Engine .empty Unit :=
  { Engine.Execution.bareEngine with datasource := some fun _ s => .done (.failed err, s) }

def failingTranscript (err : CommandError) : Transcript .empty Unit Unit Nat :=
  let world : World .empty Unit := ⟨nofun, fun _ => Engine.Execution.midnight⟩
  Transcript.of (create (failingRows err) world () ⟨⟨[], [], false⟩, ()⟩ (.ofMillis 100))
    [.request 0 (.play ⟨"rows", []⟩ none)]

/-- A row that reports a stop leaves a run with the code of a stop that was not stopped, and a row that
fails without a message leaves a failed run without a last error. -/
theorem row_failures_mislead :
    (∀ err, (failingRows err).registry.Honest) ∧
      (remembered (failingTranscript .stopped).log).map (fun r => (r.state, r.code)) =
        some (.aborted, .stopped) ∧
      (remembered (failingTranscript (.bridge "")).log).map RunResult.success = some false ∧
      (failingTranscript (.bridge "")).clients.session.lastError = "" :=
  ⟨fun _ => Registry.honest_builtin, rfl, rfl, rfl⟩

end Session
end MacroReplay
