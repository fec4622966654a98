import MacroReplay.Proofs.Session.Clients

/-!
# Schedules

What a session does in one go is a sequence of turns of its clients: a run that is played up to a
horizon goes on from suspension point to suspension point, and a client that leaves waits and looks
again and again.

* `Session.leads_carryOn` — a run that is played up to a horizon, by induction on what is left of it;
* `Session.schedule_goOn`, `Session.schedule_launch` — runs in flight, and runs that begin;
* `Session.schedule_wait`, `Session.schedule_exit` — time that passes, and clients that leave.
-/

namespace MacroReplay
namespace Session

open Timeline Transcript

variable {ι : Interface} {μ σ κ : Type} [DecidableEq κ]

/-! ## Turns of one client -/

theorem addAll_append (t : Transcript ι μ σ κ) (actions actions' : List (Action κ)) :
    t.addAll (actions ++ actions') = (t.addAll actions).addAll actions' :=
  List.foldl_append

theorem addAll_cons (t : Transcript ι μ σ κ) (a : Action κ) (actions : List (Action κ)) :
    t.addAll (a :: actions) = (t.add a).addAll actions :=
  rfl

/-- Waking the client often enough leads to the other transcript. -/
def Leads (c : κ) (t t' : Transcript ι μ σ κ) : Prop :=
  ∃ k, t.addAll (List.replicate k (.wake c)) = t'

theorem Leads.refl (c : κ) (t : Transcript ι μ σ κ) : Leads c t t :=
  ⟨0, rfl⟩

theorem Leads.wake {c : κ} {t t' : Transcript ι μ σ κ} (h : Leads c (t.add (.wake c)) t') :
    Leads c t t' := by
  obtain ⟨k, hk⟩ := h
  exact ⟨k + 1, by rw [List.replicate_succ, addAll_cons, hk]⟩

/-- The turn in which the call of a suspended run is over. -/
theorem step_wake {s : Clients ι μ σ κ} {f : Flight ι μ σ} {c : κ}
    (hphase : s.session.phase = .running f) (hplaying : s.activity c = .playing)
    {t : Turn σ ((Timed ι).Reply f.waiting.call)} (hend : f.waiting.end? s.session.scene = some t) :
    ∃ entries, ∀ log, (Transcript.mk log s).add (.wake c) = extend (log ++ entries)
      (s.carryOn c f.kept (f.waiting.next t.reply) (t.scene s.session.scene.stopRequested)) := by
  let called : Entry ι μ κ := .called ⟨f.waiting.call, t.reply⟩
  refine ⟨if t.raisesStop then [called, .raised] else [called], ?_⟩
  intro log
  simp only [add, Clients.step, hplaying, Clients.advance, hphase, hend]
  cases t.raisesStop <;> simp [extend, Clients.entering, called]

/-! ## Runs up to a horizon -/

/-- Where a run landed in between does not matter. -/
theorem landing_of_landing (s : Clients ι μ σ κ) (c : κ) (kept : Bool)
    (p : Waiting ι σ (RunResult × Memory μ)) (scene : Scene σ)
    (status : Status ι σ (RunResult × Memory μ)) :
    (s.landing c kept (.waiting p scene)).2.landing c kept status = s.landing c kept status := by
  rcases status with ⟨⟨r, left⟩, scene'⟩ | ⟨q, scene'⟩ <;>
    simp [Clients.landing, arrive, Function.update_idem]

/-- A call that is answered at once is an entry of the transcript and nothing more. -/
theorem carryOn_of_settle {s : Clients ι μ σ κ} {p q : Proc (Timed ι) (RunResult × Memory μ)}
    {scene : Scene σ} {event : Event (Timed ι)} (c : κ) (kept : Bool)
    (hsettle : settle s.session.world p scene =
      (event :: (settle s.session.world q scene).1, (settle s.session.world q scene).2)) :
    s.carryOn c kept p scene = Clients.entering (.called event) (s.carryOn c kept q scene) := by
  simp [Clients.carryOn, Clients.entering, hsettle]

/-- From one suspension point the run goes on to the next, if that comes before the horizon. -/
theorem leads_resume_of_next {s : Clients ι μ σ κ} {f : Flight ι μ σ} {c : κ} {horizon : Option Nat}
    (hphase : s.session.phase = .running f) (hplaying : s.activity c = .playing)
    (hnext : ∀ reply scene log, isBefore scene.now horizon = true → ∃ front,
      Leads c (extend log (s.carryOn c f.kept (f.waiting.next reply) scene))
        (extend (log ++ front)
          (s.landing c f.kept (proceed s.session.world horizon (f.waiting.next reply) scene))))
    (log : List (Entry ι μ κ)) :
    ∃ front, Leads c ⟨log, s⟩ (extend (log ++ front)
      (s.landing c f.kept (resume s.session.world horizon f.waiting s.session.scene))) := by
  rw [resume_eq]
  cases hdue : dueBefore horizon (f.waiting.end? s.session.scene) with
  | none =>
      -- Nothing is due, and landing where one stands changes nothing.
      have hsame : s.landing c f.kept (.waiting f.waiting s.session.scene) = ([], s) := by
        have hactivity : Function.update s.activity c .playing = s.activity := by
          rw [← hplaying, Function.update_eq_self]
        have hsession : s.session.arrive f.kept (.waiting f.waiting s.session.scene) = s.session := by
          simp only [arrive, ← hphase]
        rw [Clients.landing, hactivity, hsession]
      refine ⟨[], ?_⟩
      simp only [hsame, extend, List.append_nil]
      exact .refl c _
  | some t =>
      obtain ⟨hend, hbefore⟩ := isBefore_of_dueBefore hdue
      -- The call is over: one turn of the client, and then as from the reply.
      obtain ⟨entries, hstep⟩ := step_wake hphase hplaying hend
      obtain ⟨front, hleads⟩ := hnext t.reply (t.scene s.session.scene.stopRequested)
        (log ++ entries) hbefore
      refine ⟨entries ++ front, Leads.wake ?_⟩
      rw [hstep log, ← List.append_assoc]
      exact hleads

/-- A run that is played up to a horizon goes from suspension point to suspension point. -/
theorem leads_carryOn (p : Proc (Timed ι) (RunResult × Memory μ)) (s : Clients ι μ σ κ) (c : κ)
    (kept : Bool) (scene : Scene σ) {horizon : Option Nat}
    (hnow : isBefore scene.now horizon = true) (log : List (Entry ι μ κ)) :
    ∃ front, Leads c (extend log (s.carryOn c kept p scene))
      (extend (log ++ front) (s.landing c kept (proceed s.session.world horizon p scene))) := by
  induction p generalizing s scene log with
  | done a =>
      refine ⟨[], ?_⟩
      rw [List.append_nil]
      exact .refl c _
  | call call next ih =>
      -- A call that does not suspend the run is one more entry before what follows.
      have hsilent : ∀ reply, turn s.session.world scene call = atOnce scene reply →
          settle s.session.world (.call call next) scene =
            (⟨call, reply⟩ :: (settle s.session.world (next reply) scene).1,
              (settle s.session.world (next reply) scene).2) →
          ∃ front, Leads c (extend log (s.carryOn c kept (.call call next) scene))
            (extend (log ++ front)
              (s.landing c kept (proceed s.session.world horizon (.call call next) scene))) := by
        intro reply hturn hsettle
        let called : Entry ι μ κ := .called ⟨call, reply⟩
        obtain ⟨front, hleads⟩ := ih reply s scene hnow (log ++ [called])
        refine ⟨called :: front, ?_⟩
        rw [proceed_of_atOnce hnow hturn, carryOn_of_settle c kept hsettle]
        simpa [extend, Clients.entering, called] using hleads
      -- A call that suspends it leaves a run in flight.
      have hsuspended : ∀ since ends scene', settle s.session.world (.call call next) scene =
            ([], .waiting ⟨call, next, since, ends⟩ scene') →
          ∃ front, Leads c (extend log (s.carryOn c kept (.call call next) scene))
            (extend (log ++ front)
              (s.landing c kept (proceed s.session.world horizon (.call call next) scene))) := by
        intro since ends scene' hsettle
        let q : Waiting ι σ (RunResult × Memory μ) := ⟨call, next, since, ends⟩
        let s₁ := (s.landing c kept (.waiting q scene')).2
        have hproceed : proceed s.session.world horizon (.call call next) scene =
            resume s.session.world horizon q scene' := by
          rw [proceed_eq s.session.world _ hnow, hsettle]
        have hcarryOn : extend log (s.carryOn c kept (.call call next) scene) = ⟨log, s₁⟩ := by
          simp [extend, Clients.carryOn, hsettle, Clients.landing, s₁, q]
        have hnext : ∀ reply scene'' log', isBefore scene''.now horizon = true → ∃ front,
            Leads c (extend log' (s₁.carryOn c kept (next reply) scene''))
              (extend (log' ++ front)
                (s₁.landing c kept (proceed s.session.world horizon (next reply) scene''))) := by
          intro reply scene'' log' hnow'
          exact ih reply s₁ scene'' hnow' log'
        obtain ⟨front, hleads⟩ := leads_resume_of_next (f := ⟨q, kept⟩) rfl
          (Function.update_self c Activity.playing s.activity) hnext log
        refine ⟨front, ?_⟩
        rw [hcarryOn, hproceed, ← landing_of_landing s c kept q scene']
        exact hleads
      cases call with
      | clock => exact hsilent _ rfl rfl
      | stopRequested => exact hsilent _ rfl rfl
      | pause | ask => exact hsuspended _ _ _ rfl

/-- Waking the client takes the run as far as the horizon. -/
theorem leads_resume {s : Clients ι μ σ κ} {f : Flight ι μ σ} {c : κ} (horizon : Option Nat)
    (hphase : s.session.phase = .running f) (hplaying : s.activity c = .playing)
    (log : List (Entry ι μ κ)) :
    ∃ front, Leads c ⟨log, s⟩ (extend (log ++ front)
      (s.landing c f.kept (resume s.session.world horizon f.waiting s.session.scene))) := by
  refine leads_resume_of_next hphase hplaying ?_ log
  intro reply scene log' hnow
  exact leads_carryOn (f.waiting.next reply) s c f.kept scene hnow log'

theorem session_landing (s : Clients ι μ σ κ) (c : κ) (kept : Bool)
    (status : Status ι σ (RunResult × Memory μ)) :
    (s.landing c kept status).2.session = s.session.arrive kept status := by
  rcases status with ⟨⟨r, left⟩, scene⟩ | ⟨p, scene⟩ <;> rfl

omit [DecidableEq κ] in
/-- A stop changes nothing but what a run in flight is told. -/
theorem stop_eq (s : Session ι μ σ) :
    s.stop = { s with scene := { s.scene with
      stopRequested := s.isRunning || s.scene.stopRequested } } := by
  obtain ⟨engine, world, scene, phase, last, ended, exitTimeout⟩ := s
  cases phase <;> rfl

/-! ## What a session does in one go -/

/-- A run that begins and is played up to a horizon. -/
theorem schedule_launch {s : Clients ι μ σ κ} {c : κ} (hfree : s.activity c = .free) (script : Script)
    (loops : Option Nat) (kept : Bool) {horizon : Option Nat} {session : Session ι μ σ}
    (hnow : isBefore s.session.scene.now horizon = true)
    (hlaunch : s.session.launch script loops kept horizon = .ok session) (log : List (Entry ι μ κ)) :
    ∃ t, Leads c (add ⟨log, s⟩ (.request c (.run kept script loops))) t ∧
      t.clients.session = session := by
  cases hphase : s.session.phase with
  | running f =>
      simp only [launch, hphase] at hlaunch
      nomatch hlaunch
  | idle m =>
      simp only [launch, hphase] at hlaunch
      cases hlaunch
      obtain ⟨front, hleads⟩ := leads_carryOn (s.session.engine.run script loops m) s c kept
        { s.session.scene with stopRequested := false } hnow
        (log ++ [.asked c (.run kept script loops), .begun c kept script loops m])
      have hadd : add ⟨log, s⟩ (.request c (.run kept script loops)) =
          extend (log ++ [.asked c (.run kept script loops), .begun c kept script loops m])
            (s.carryOn c kept (s.session.engine.run script loops m)
              { s.session.scene with stopRequested := false }) := by
        simp [add, extend, Clients.step, hfree, Clients.serve, Clients.begin, hphase,
          Clients.entering]
      rw [← hadd] at hleads
      exact ⟨_, hleads, session_landing s c kept _⟩

/-- Somebody waits for the end of the run in flight. -/
def Clients.Attended (s : Clients ι μ σ κ) : Prop :=
  ∀ f, s.session.phase = .running f → ∃ c, s.activity c = .playing

/-- The run in flight goes on up to a horizon. -/
theorem schedule_goOn {s : Clients ι μ σ κ} (hs : s.Attended) (horizon : Option Nat)
    (log : List (Entry ι μ κ)) :
    ∃ actions t, Transcript.addAll ⟨log, s⟩ actions = t ∧
      t.clients.session = s.session.goOn horizon ∧ t.clients.Attended ∧
      ∀ d, s.activity d ≠ .playing → t.clients.activity d = s.activity d := by
  cases hphase : s.session.phase with
  | idle m =>
      have hgoOn : s.session.goOn horizon = s.session := by simp only [goOn, hphase]
      exact ⟨[], _, rfl, hgoOn.symm, hs, fun _ _ => rfl⟩
  | running f =>
      -- The client who plays the run is woken until the horizon is reached.
      obtain ⟨c, hplaying⟩ := hs f hphase
      obtain ⟨front, k, hleads⟩ := leads_resume horizon hphase hplaying log
      have hgoOn : s.session.goOn horizon =
          s.session.arrive f.kept (resume s.session.world horizon f.waiting s.session.scene) := by
        simp only [goOn, hphase]
      refine ⟨_, _, hleads, ?_, ?_, ?_⟩
      · rw [hgoOn]
        exact session_landing s c f.kept _
      · rcases resume s.session.world horizon f.waiting s.session.scene with
          ⟨⟨r, left⟩, scene⟩ | ⟨p, scene⟩
        · intro f' hrunning
          nomatch hrunning
        · intro f' _
          exact ⟨c, Function.update_self ..⟩
      · intro d hd
        have hne : d ≠ c := by
          rintro rfl
          exact hd hplaying
        rcases resume s.session.world horizon f.waiting s.session.scene with
          ⟨⟨r, left⟩, scene⟩ | ⟨p, scene⟩
        · exact Function.update_of_ne hne ..
        · exact Function.update_of_ne hne ..

/-- The clock does not pass the horizon. -/
theorem now_goOn_le (s : Session ι μ σ) (ms : Nat) :
    (s.goOn (some (s.scene.now + ms))).scene.now ≤ s.scene.now + ms := by
  unfold goOn
  split
  · exact Nat.le_add_right _ _
  · next f _ =>
    have hnow := now_resume_le (w := s.world) f.waiting (Nat.le_add_right s.scene.now ms)
    rcases hresume : resume s.world (some (s.scene.now + ms)) f.waiting s.scene with
      ⟨⟨r, left⟩, scene⟩ | ⟨q, scene⟩
    all_goals
      rw [hresume] at hnow
      exact hnow

/-- What the run waits for at the horizon does not come before it. -/
theorem moment_goOn {s : Session ι μ σ} {horizon : Nat} {f : Flight ι μ σ}
    (hphase : (s.goOn (some horizon)).phase = .running f)
    {t : Turn σ ((Timed ι).Reply f.waiting.call)}
    (hend : f.waiting.end? (s.goOn (some horizon)).scene = some t) : horizon ≤ t.moment := by
  cases hbefore : s.phase with
  | idle m =>
      have hidle : (s.goOn (some horizon)).phase = .idle m := by simp only [goOn, hbefore]
      nomatch hidle.symm.trans hphase
  | running f₀ =>
      simp only [goOn, hbefore] at hphase hend
      rcases hresume : resume s.world (some horizon) f₀.waiting s.scene with
        ⟨⟨r, left⟩, scene⟩ | ⟨q, scene⟩
      · rw [hresume] at hphase
        nomatch hphase
      · rw [hresume] at hphase hend
        cases hphase
        exact moment_of_resume_waiting hresume hend

omit [DecidableEq κ] in
/-- The rest of the time may pass, since nothing is due. -/
theorem mayPass_goOn {s : Session ι μ σ} {ms : Nat} {t : Clients ι μ σ κ}
    (ht : t.session = s.goOn (some (s.scene.now + ms))) :
    t.mayPass (s.scene.now + ms - t.session.scene.now) = true := by
  have hle : t.session.scene.now ≤ s.scene.now + ms := ht ▸ now_goOn_le s ms
  unfold Clients.mayPass
  split
  · rfl
  · next f hphase =>
    split
    · rfl
    · next turn hend =>
      rw [ht] at hphase hend
      have hhorizon : s.scene.now + ms ≤ turn.moment := moment_goOn hphase hend
      rw [decide_eq_true_eq]
      omega

/-- Time passes while a run is in flight or not. -/
theorem schedule_wait {s : Clients ι μ σ κ} (hs : s.Attended) (ms : Nat)
    (log : List (Entry ι μ κ)) :
    ∃ actions t, Transcript.addAll ⟨log, s⟩ actions = t ∧
      t.clients.session = s.session.wait ms ∧ t.clients.Attended ∧
      ∀ d, s.activity d ≠ .playing → t.clients.activity d = s.activity d := by
  obtain ⟨actions, t, ht, hsession, hattended, hothers⟩ :=
    schedule_goOn hs (some (s.session.scene.now + ms)) log
  have hpass := mayPass_goOn hsession
  refine ⟨actions ++ [.pass (s.session.scene.now + ms - t.clients.session.scene.now)], _, rfl, ?_⟩
  rw [addAll_append, ht]
  simp only [Transcript.addAll, List.foldl, add, extend, Clients.step, hpass, if_true]
  refine ⟨?_, hattended, hothers⟩
  have hle := now_goOn_le s.session ms
  rw [hsession]
  simp only [wait]
  congr 2
  omega

/-! ## Leaving -/

/-- Nothing is taken back from the transcript. -/
theorem exists_log_addAll (t : Transcript ι μ σ κ) (actions : List (Action κ)) :
    ∃ new, (t.addAll actions).log = t.log ++ new := by
  induction actions generalizing t with
  | nil => exact ⟨[], (List.append_nil _).symm⟩
  | cons a actions ih =>
      obtain ⟨new, hnew⟩ := ih (t.add a)
      refine ⟨(t.clients.step a).1 ++ new, ?_⟩
      rw [addAll_cons, hnew, add, extend, List.append_assoc]

theorem exitTimeout_wait (s : Session ι μ σ) (ms : Nat) : (s.wait ms).exitTimeout = s.exitTimeout := by
  simp only [wait, goOn]
  split
  · rfl
  · next f _ =>
    rcases resume s.world (some (s.scene.now + ms)) f.waiting s.scene with
      ⟨⟨r, left⟩, scene⟩ | ⟨q, scene⟩ <;> rfl

omit [DecidableEq κ] in
/-- To stop a run does not move its deadline. -/
theorem hasDeadline_stop (s : Session ι μ σ) : s.stop.hasDeadline = s.hasDeadline := by
  rw [stop_eq]
  rfl

/-- What a client comes to that leaves and has a deadline. -/
def leave (s : Session ι μ σ) : Except SessionError Unit × Session ι μ σ :=
  pollExit s.scene.now (s.exitTimeout.nanoseconds / 10000000 + 2) s.stop

omit [DecidableEq κ] in
/-- With a deadline that the clock can tell, to exit is to leave. -/
theorem exit_of_hasDeadline {s : Session ι μ σ} (h : s.hasDeadline = true) :
    s.exit = (.ok s.leave.1, s.leave.2) := by
  rw [exit, hasDeadline_stop, h]
  rfl

omit [DecidableEq κ] in
/-- A client that has no deadline stops the run, and that is all. -/
theorem exit_of_overflow {s : Session ι μ σ} (h : s.hasDeadline = false) :
    s.exit = (.error clockOverflow, s.stop) := by
  rw [exit, hasDeadline_stop, h]
  rfl

/-- Some turns later the client is told what became of it, and the session is as it should be. -/
def Leaves (d : κ) (t : Transcript ι μ σ κ)
    (out : Except Fault (Except SessionError Unit) × Session ι μ σ) : Prop :=
  ∃ actions front, (t.addAll actions).log = t.log ++ front ++ [.told d (departure out.1)] ∧
    (t.addAll actions).clients.session = out.2

theorem Leaves.of_addAll {d : κ} {t : Transcript ι μ σ κ} {actions : List (Action κ)}
    {out : Except Fault (Except SessionError Unit) × Session ι μ σ}
    (h : Leaves d (t.addAll actions) out) : Leaves d t out := by
  obtain ⟨actions', front, hlog, hsession⟩ := h
  obtain ⟨new, hnew⟩ := exists_log_addAll t actions
  rw [← addAll_append] at hlog hsession
  refine ⟨actions ++ actions', new ++ front, ?_, hsession⟩
  rw [hlog, hnew]
  simp

/-- A look that ends the waiting answers the client. -/
theorem leaves_of_look {s : Clients ι μ σ κ} {d : κ} {began : Nat}
    {out : Except SessionError Unit × Session ι μ σ} (hleaving : s.activity d = .leaving began)
    (hlook : s.session.look began = some out) (log : List (Entry ι μ κ)) :
    Leaves d ⟨log, s⟩ (.ok out.1, out.2) := by
  have hadd : Transcript.addAll ⟨log, s⟩ [.wake d] = ⟨log ++ [.told d (farewell out.1)],
      ⟨out.2, Function.update s.activity d .free⟩⟩ := by
    simp only [Transcript.addAll, List.foldl, add, extend, Clients.step, hleaving, Clients.look, hlook]
  exact ⟨[.wake d], [], by rw [hadd, List.append_nil]; rfl, by rw [hadd]⟩

/-- A look that does not end the waiting has some time left. -/
theorem lt_exitTimeout_of_look {s : Session ι μ σ} {began : Nat} (hlook : s.look began = none) :
    (s.scene.now - began) * 1000000 < s.exitTimeout.nanoseconds := by
  cases hphase : s.phase with
  | idle m =>
      simp only [look, hphase] at hlook
      nomatch hlook
  | running f =>
      simp only [look, hphase] at hlook
      split at hlook
      · nomatch hlook
      · next htime => exact Nat.lt_of_not_le htime

/-- A client that leaves looks again and again; it does not run out of looks before it runs out of
time. -/
theorem schedule_pollExit {s : Clients ι μ σ κ} (hs : s.Attended) {d : κ} {began polls : Nat}
    (hleaving : s.activity d = .leaving began) (hbegan : began ≤ s.session.scene.now)
    (hpolls : s.session.exitTimeout.nanoseconds ≤
      10000000 * polls + (s.session.scene.now - began) * 1000000)
    (log : List (Entry ι μ κ)) :
    Leaves d ⟨log, s⟩ (.ok (pollExit began (polls + 1) s.session).1,
      (pollExit began (polls + 1) s.session).2) := by
  induction polls generalizing s log with
  | zero =>
      cases hlook : s.session.look began with
      | none =>
          -- With no look left, the time would be up at this one.
          have htime := lt_exitTimeout_of_look hlook
          omega
      | some out =>
          simp only [pollExit, hlook]
          exact leaves_of_look hleaving hlook log
  | succ polls ih =>
      cases hlook : s.session.look began with
      | none =>
          -- Ten milliseconds pass, in which the run goes on and the client keeps waiting.
          obtain ⟨actions, t, ht, hsession, hattended, hothers⟩ := schedule_wait hs pollMillis log
          have hnow : t.clients.session.scene.now = s.session.scene.now + pollMillis := by
            rw [hsession]
            rfl
          have htimeout : t.clients.session.exitTimeout = s.session.exitTimeout := by
            rw [hsession, exitTimeout_wait]
          have hd : t.clients.activity d = .leaving began := by
            rw [hothers d (by simp [hleaving]), hleaving]
          have hleaves := ih hattended hd (by rw [hnow]; omega)
            (by rw [hnow, htimeout, pollMillis]; omega) t.log
          rw [pollExit, hlook, ← hsession]
          rw [← ht] at hleaves ⊢
          exact hleaves.of_addAll
      | some out =>
          rw [pollExit, hlook]
          exact leaves_of_look hleaving hlook log

/-- A request to exit is noted, and the client departs. -/
theorem add_exit {s : Clients ι μ σ κ} {d : κ} (hfree : s.activity d = .free)
    (log : List (Entry ι μ κ)) :
    Transcript.addAll ⟨log, s⟩ [.request d .exit] =
      extend (log ++ [.asked d .exit]) (s.depart d) := by
  simp only [Transcript.addAll, List.foldl, add, Clients.step, hfree, Clients.serve]
  simp [extend, Clients.entering]

/-- A client that has a deadline stops the run in flight, waits for its end and leaves. -/
theorem schedule_leave {s : Clients ι μ σ κ} (hs : s.Attended) {d : κ} (hfree : s.activity d = .free)
    (hdeadline : s.session.hasDeadline = true) (log : List (Entry ι μ κ)) :
    Leaves d ⟨log, s⟩ (.ok s.session.leave.1, s.session.leave.2) := by
  have hphase : s.session.stop.phase = s.session.phase := by rw [stop_eq]
  have hnow : s.session.stop.scene.now = s.session.scene.now := by rw [stop_eq]
  have htimeout : s.session.stop.exitTimeout = s.session.exitTimeout := by rw [stop_eq]
  let stopped : Clients ι μ σ κ := { s with session := s.session.stop }
  have hdepart : s.depart d = stopped.look d s.session.scene.now := by
    simp [Clients.depart, hasDeadline_stop, hdeadline, stopped]
  have hadd : Transcript.addAll ⟨log, s⟩ [.request d .exit] =
      extend (log ++ [.asked d .exit]) (stopped.look d s.session.scene.now) := by
    rw [add_exit hfree, hdepart]
  unfold leave
  cases hlook : s.session.stop.look s.session.scene.now with
  | some out =>
      refine ⟨[.request d .exit], [.asked d .exit], ?_⟩
      rw [hadd]
      simp [extend, Clients.look, stopped, hlook, pollExit, departure]
  | none =>
      -- From now on the client is one of those that look from time to time.
      let leaving := Function.update s.activity d (.leaving s.session.scene.now)
      have hleaving : Transcript.addAll ⟨log, s⟩ [.request d .exit] =
          ⟨log ++ [.asked d .exit], ⟨s.session.stop, leaving⟩⟩ := by
        rw [hadd]
        simp [extend, Clients.look, stopped, hlook, leaving]
      have hattended : Clients.Attended ⟨s.session.stop, leaving⟩ := by
        intro f hrunning
        obtain ⟨c, hplaying⟩ := hs f (hphase ▸ hrunning)
        have hne : c ≠ d := by
          rintro rfl
          simp [hfree] at hplaying
        exact ⟨c, by simp [leaving, hne, hplaying]⟩
      have hpolls : s.session.stop.exitTimeout.nanoseconds ≤
          10000000 * (s.session.exitTimeout.nanoseconds / 10000000 + 1) +
            (s.session.stop.scene.now - s.session.scene.now) * 1000000 := by
        rw [htimeout]
        omega
      have hleaves := schedule_pollExit hattended (d := d) (Function.update_self ..)
        (Nat.le_of_eq hnow.symm) hpolls (log ++ [.asked d .exit])
      rw [← hleaving] at hleaves
      exact hleaves.of_addAll

/-- What a session does for a client that leaves is a sequence of turns, a fault included. -/
theorem schedule_exit {s : Clients ι μ σ κ} (hs : s.Attended) {d : κ} (hfree : s.activity d = .free)
    (log : List (Entry ι μ κ)) : Leaves d ⟨log, s⟩ s.session.exit := by
  cases hdeadline : s.session.hasDeadline with
  | true =>
      rw [exit_of_hasDeadline hdeadline]
      exact schedule_leave hs hfree hdeadline log
  | false =>
      rw [exit_of_overflow hdeadline]
      refine ⟨[.request d .exit], [.asked d .exit], ?_⟩
      rw [add_exit hfree]
      simp [extend, Clients.depart, hasDeadline_stop, hdeadline]

end Session
end MacroReplay
