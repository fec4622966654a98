import MacroReplay.Proofs.Session.Schedules

/-!
# The protocol of a session

Whatever the clients of a session ask and in whatever order they have their turns, there is at most one
run in flight, nobody disturbs it but by asking it to stop, and its client is told what became of it.

* `Session.Orderly` — every entry of a log may stand where it does;
* `Session.Clients.Agrees` — the session is where the log says it is;
* `Session.Moves` — what every turn does for both, and what it leaves of a run that ends in it;
* `Session.returns_of_running` — a client whose collaborators answer is told the end of its run;
* `Session.protocol_create` — all of it for any sequence of turns.
-/

namespace MacroReplay
namespace Session

open Timeline

variable {ι : Interface} {μ σ κ : Type}

/-! ## Logs -/

/-- The entry may stand where `o` is the run in flight: a run begins where there is none, its calls tell
it of a stop only if it was asked to stop since it began, and it ends as a run of its script. -/
def Entry.InOrder (e : Engine ι μ) (o : Option (Ticket ι μ κ)) : Entry ι μ κ → Prop
  | .asked _ _ => True
  | .begun _ _ _ _ _ => o = none
  | .called event => ∃ t, o = some t ∧ (tellsStop event → t.stopAsked = true)
  | .raised => ∃ t, o = some t
  | .ended c r left =>
      ∃ t, o = some t ∧ t.client = c ∧ (e.run t.script t.loops t.memory).Runs t.calls (r, left)
  | .told _ _ => True

/-- Every entry may stand where it does, if `o` is the run in flight before the first one. -/
def Orderly (e : Engine ι μ) : Option (Ticket ι μ κ) → List (Entry ι μ κ) → Prop
  | _, [] => True
  | o, entry :: rest => entry.InOrder e o ∧ Orderly e (note o entry) rest

/-- A transcript is in order if its front is, and the rest is after it. -/
theorem orderly_append {e : Engine ι μ} {o : Option (Ticket ι μ κ)} {log new : List (Entry ι μ κ)} :
    Orderly e o (log ++ new) ↔ Orderly e o log ∧ Orderly e (log.foldl note o) new := by
  induction log generalizing o with
  | nil => simp [Orderly]
  | cons entry log ih => simp [Orderly, ih, and_assoc]

/-- Every entry is in order after the ones before it. -/
theorem Orderly.inOrder {e : Engine ι μ} {front back : List (Entry ι μ κ)} {entry : Entry ι μ κ}
    (h : Orderly e none (front ++ entry :: back)) : entry.InOrder e (current front) :=
  (orderly_append.1 h).2.1

/-! ## Where the session stands -/

/-- The run of the ticket is the one in flight. -/
structure Ticket.Fits (t : Ticket ι μ κ) (f : Flight ι μ σ) (s : Clients ι μ σ κ) : Prop where
  kept : t.kept = f.kept
  playing_iff : ∀ c, s.activity c = .playing ↔ c = t.client
  reaches : (s.session.engine.run t.script t.loops t.memory).Reaches t.calls
    (.call f.waiting.call f.waiting.next)
  stopAsked : t.stopAsked = s.session.scene.stopRequested
  warranted : f.waiting.Warranted s.session.scene.stopRequested
  ends : s.session.world.Answers → f.waiting.ends.isSome = true

/-- `s.Agrees o` means that `o` is the run that is in flight in the session. -/
inductive Clients.Agrees (s : Clients ι μ σ κ) : Option (Ticket ι μ κ) → Prop where
  | idle {m : Memory μ} : s.session.phase = .idle m → (∀ c, s.activity c ≠ .playing) → Agrees s none
  | running {f : Flight ι μ σ} {t : Ticket ι μ κ} :
      s.session.phase = .running f → t.Fits f s → Agrees s (some t)

/-- No two clients play at a time. -/
theorem Clients.Agrees.single {s : Clients ι μ σ κ} {o : Option (Ticket ι μ κ)} (hs : s.Agrees o)
    {c d : κ} (hc : s.activity c = .playing) (hd : s.activity d = .playing) : c = d := by
  cases hs with
  | idle _ hfree => exact absurd hc (hfree c)
  | running _ hfits => rw [(hfits.playing_iff c).1 hc, (hfits.playing_iff d).1 hd]

/-- What a turn leaves of the run `t` if it ends in it. -/
structure Ends (s : Clients ι μ σ κ) (t : Ticket ι μ κ) (r : RunResult) (left : Memory μ)
    (s' : Clients ι μ σ κ) : Prop where
  phase : s'.session.phase = .idle left
  last : s'.session.last = if t.kept then LastRun.ofResult r else s.session.last
  free : s'.activity t.client = .free

/-- What a turn does where `o` is the run in flight. -/
structure Moves (s : Clients ι μ σ κ) (o : Option (Ticket ι μ κ))
    (out : List (Entry ι μ κ) × Clients ι μ σ κ) : Prop where
  engine : out.2.session.engine = s.session.engine
  world : out.2.session.world = s.session.world
  orderly : Orderly s.session.engine o out.1
  agrees : out.2.Agrees (out.1.foldl note o)
  /-- If the run ends, then that is the last thing that happens, and its client is told. -/
  ends : ∀ c r left, .ended c r left ∈ out.1 → ∃ front t,
    out.1 = front ++ [.ended c r left, .told c (answer t.kept r)] ∧ front.foldl note o = some t ∧
      t.client = c ∧ Ends s t r left out.2

/-- An entry that does not end a run may be put in front. -/
theorem Moves.entering {s : Clients ι μ σ κ} {o : Option (Ticket ι μ κ)}
    {out : List (Entry ι μ κ) × Clients ι μ σ κ} (entry : Entry ι μ κ)
    (hout : Moves s (note o entry) out)
    (horder : entry.InOrder s.session.engine o) (hends : ∀ c r left, entry ≠ .ended c r left) :
    Moves s o (Clients.entering entry out) where
  engine := hout.engine
  world := hout.world
  orderly := ⟨horder, hout.orderly⟩
  agrees := hout.agrees
  ends c r left hmem := by
    rcases List.mem_cons.1 hmem with heq | hmem
    · exact absurd heq.symm (hends c r left)
    · obtain ⟨front, t, hfront, hnote, hclient, hended⟩ := hout.ends c r left hmem
      exact ⟨entry :: front, t, by simp [Clients.entering, hfront], hnote, hclient, hended⟩

/-- Calls that do not tell of a stop unless one was asked for. -/
theorem Moves.called {s : Clients ι μ σ κ} {t : Ticket ι μ κ} {h : History (Timed ι)}
    {out : List (Entry ι μ κ) × Clients ι μ σ κ}
    (hout : Moves s (some { t with calls := t.calls ++ h }) out)
    (htells : ∀ event ∈ h, tellsStop event → t.stopAsked = true) :
    Moves s (some t) (h.map .called ++ out.1, out.2) := by
  induction h generalizing t with
  | nil => simpa using hout
  | cons event h ih =>
      obtain ⟨hfirst, hrest⟩ := List.forall_mem_cons.1 htells
      have hmoves : Moves s (some { t with calls := t.calls ++ [event] })
          (h.map .called ++ out.1, out.2) := by
        refine ih ?_ hrest
        simpa using hout
      exact hmoves.entering (.called event) ⟨t, rfl, hfirst⟩ (by simp)

/-- Answers do not change which run is in flight. -/
theorem foldl_note_told {new : List (Entry ι μ κ)} (hnew : ∀ entry ∈ new, ∃ c r, entry = .told c r)
    (o : Option (Ticket ι μ κ)) : new.foldl note o = o := by
  induction new with
  | nil => rfl
  | cons entry new ih =>
      obtain ⟨⟨c, r, rfl⟩, hrest⟩ := List.forall_mem_cons.1 hnew
      exact ih hrest

/-- A turn in which somebody may be told something and no run goes on. -/
theorem moves_silent {s s' : Clients ι μ σ κ} {o : Option (Ticket ι μ κ)}
    {new : List (Entry ι μ κ)} (hengine : s'.session.engine = s.session.engine)
    (hworld : s'.session.world = s.session.world) (hnew : ∀ entry ∈ new, ∃ c r, entry = .told c r)
    (hs' : s'.Agrees o) : Moves s o (new, s') := by
  refine ⟨hengine, hworld, ?_, ?_, ?_⟩
  · clear hs'
    induction new with
    | nil => trivial
    | cons entry new ih =>
        obtain ⟨⟨c, r, rfl⟩, hrest⟩ := List.forall_mem_cons.1 hnew
        exact ⟨trivial, ih hrest⟩
  · rw [foldl_note_told hnew]
    exact hs'
  · intro c r left hmem
    obtain ⟨d, response, heq⟩ := hnew _ hmem
    simp at heq

/-- A stop concerns the run in flight, if there is one. -/
theorem Clients.Agrees.stop {s : Clients ι μ σ κ} {o : Option (Ticket ι μ κ)} (hs : s.Agrees o) :
    Agrees { s with session := s.session.stop } (o.map fun t => { t with stopAsked := true }) := by
  cases hs with
  | idle hphase hfree =>
      have hstop : s.session.stop = s.session := by simp only [Session.stop, hphase]
      rw [hstop]
      exact .idle hphase hfree
  | running hphase hfits =>
      simp only [Session.stop, hphase]
      exact .running rfl
        ⟨hfits.kept, hfits.playing_iff, hfits.reaches, rfl, fun _ _ _ => rfl, hfits.ends⟩

section Turns

variable [DecidableEq κ]

/-! ## Turns of a run -/

/-- A run that has come so far is suspended or has ended. -/
theorem moves_landing {s : Clients ι μ σ κ} {t : Ticket ι μ κ}
    {status : Status ι σ (RunResult × Memory μ)}
    (hothers : ∀ c, s.activity c = .playing → c = t.client)
    (hreaches : (s.session.engine.run t.script t.loops t.memory).Reaches t.calls status.rest)
    (hstop : t.stopAsked = status.scene.stopRequested)
    (hwaiting : ∀ q scene, status = .waiting q scene → q.Warranted scene.stopRequested ∧
      (s.session.world.Answers → q.ends.isSome = true)) :
    Moves s (some t) (s.landing t.client t.kept status) := by
  have hothers' : ∀ c, c ≠ t.client → s.activity c ≠ .playing := by
    intro c hc hplaying
    exact hc (hothers c hplaying)
  rcases status with ⟨⟨r, left⟩, scene⟩ | ⟨q, scene⟩
  · -- The run is over: its client is told and is free again.
    have hrun : (s.session.engine.run t.script t.loops t.memory).Runs t.calls (r, left) :=
      Proc.reaches_done_iff.1 hreaches
    refine ⟨rfl, rfl, ⟨⟨t, rfl, rfl, hrun⟩, trivial, trivial⟩, .idle rfl ?_, ?_⟩
    · intro c
      by_cases hc : c = t.client
      · simp [Clients.landing, hc]
      · simpa [Clients.landing, hc] using hothers' c hc
    · intro c r' left' hmem
      have heq : c = t.client ∧ r' = r ∧ left' = left := by simpa [Clients.landing] using hmem
      obtain ⟨rfl, rfl, rfl⟩ := heq
      exact ⟨[], t, rfl, rfl, rfl, rfl, rfl, Function.update_self ..⟩
  · -- The run is suspended: its client plays on.
    obtain ⟨hwarranted, hends⟩ := hwaiting q scene rfl
    refine ⟨rfl, rfl, trivial, .running rfl ⟨rfl, ?_, hreaches, hstop, hwarranted, hends⟩, ?_⟩
    · intro c
      by_cases hc : c = t.client
      · simp [Clients.landing, hc]
      · simpa [Clients.landing, hc] using hothers' c hc
    · intro c r left hmem
      simp [Clients.landing] at hmem

/-- A run goes on to its next suspension point or to its end. -/
theorem moves_carryOn {s : Clients ι μ σ κ} {t : Ticket ι μ κ}
    {p : Proc (Timed ι) (RunResult × Memory μ)} {scene : Scene σ}
    (hothers : ∀ c, s.activity c = .playing → c = t.client)
    (hreaches : (s.session.engine.run t.script t.loops t.memory).Reaches t.calls p)
    (hstop : t.stopAsked = scene.stopRequested) :
    Moves s (some t) (s.carryOn t.client t.kept p scene) := by
  have hscene : (settle s.session.world p scene).2.scene.stopRequested = scene.stopRequested :=
    stopRequested_settle s.session.world p scene
  refine Moves.called ?_ ?_
  · refine moves_landing hothers (hreaches.trans (reaches_settle s.session.world p scene))
      (hstop.trans hscene.symm) ?_
    intro q scene' hsettle
    rw [hsettle] at hscene
    have hscene' : scene'.stopRequested = scene.stopRequested := hscene
    rw [hscene']
    exact ⟨warranted_settle hsettle, fun hanswers => hanswers.ends_settle hsettle⟩
  · intro event hmem htells
    rw [hstop]
    exact stopRequested_of_settle_tellsStop event hmem htells

/-- A request to run, whether a run is in flight or not. -/
theorem moves_begin {s : Clients ι μ σ κ} {o : Option (Ticket ι μ κ)} (hs : s.Agrees o) (c : κ)
    (kept : Bool) (script : Script) (loops : Option Nat) :
    Moves s o (s.begin c kept script loops) := by
  cases hs with
  | @idle m hphase hfree =>
      let t : Ticket ι μ κ := ⟨c, kept, script, loops, m, [], false⟩
      have hothers : ∀ d, s.activity d = .playing → d = t.client := by
        intro d hplaying
        exact absurd hplaying (hfree d)
      have hstart : (s.session.engine.run t.script t.loops t.memory).Reaches t.calls
          (s.session.engine.run script loops m) := .refl _
      have hmoves : Moves s (some t) (s.carryOn c kept (s.session.engine.run script loops m)
          { s.session.scene with stopRequested := false }) := moves_carryOn hothers hstart rfl
      simp only [Clients.begin, hphase]
      exact hmoves.entering (.begun c kept script loops m) rfl (by simp)
  | running hphase hfits =>
      simp only [Clients.begin, hphase]
      exact moves_silent rfl rfl (by simp) (.running hphase hfits)

/-- A client's run goes on only if it is the one in flight. -/
theorem moves_advance {s : Clients ι μ σ κ} {o : Option (Ticket ι μ κ)} (hs : s.Agrees o) {c : κ}
    (hplaying : s.activity c = .playing) : Moves s o (s.advance c) := by
  cases hs with
  | idle hphase hfree => exact absurd hplaying (hfree c)
  | @running f t hphase hfits =>
      obtain rfl : c = t.client := (hfits.playing_iff c).1 hplaying
      simp only [Clients.advance, hphase]
      cases hend : f.waiting.end? s.session.scene with
      | none => exact moves_silent rfl rfl (by simp) (.running hphase hfits)
      | some turn =>
          -- The call that is over is one more call of the ticket, and may request a stop itself.
          let event : Event (Timed ι) := ⟨f.waiting.call, turn.reply⟩
          have hothers : ∀ d, s.activity d = .playing → d = t.client := by
            intro d hd
            exact (hfits.playing_iff d).1 hd
          have hreaches : (s.session.engine.run t.script t.loops t.memory).Reaches
              (t.calls ++ [event]) (f.waiting.next turn.reply) :=
            hfits.reaches.trans (.call turn.reply (.refl _))
          have horder : (Entry.called event).InOrder s.session.engine (some t) := by
            refine ⟨t, rfl, ?_⟩
            intro htells
            rw [hfits.stopAsked]
            exact hfits.warranted.end? hend htells
          refine Moves.entering (.called event) ?_ horder (by simp)
          rw [← hfits.kept]
          cases hraises : turn.raisesStop with
          | false =>
              have hstop : t.stopAsked =
                  (turn.scene s.session.scene.stopRequested).stopRequested := by
                simp [Turn.scene, hraises, hfits.stopAsked]
              exact moves_carryOn (t := { t with calls := t.calls ++ [event] }) hothers hreaches hstop
          | true =>
              have hstop : true = (turn.scene s.session.scene.stopRequested).stopRequested := by
                simp [Turn.scene, hraises]
              let t' : Ticket ι μ κ := { t with calls := t.calls ++ [event], stopAsked := true }
              have hmoves : Moves s (some t') (s.carryOn t.client t.kept (f.waiting.next turn.reply)
                  (turn.scene s.session.scene.stopRequested)) :=
                moves_carryOn hothers hreaches hstop
              exact hmoves.entering .raised ⟨_, rfl⟩ (by simp)

/-! ## Other turns -/

/-- The clients who do not play may do as they like. -/
theorem Clients.Agrees.update {s : Clients ι μ σ κ} {o : Option (Ticket ι μ κ)} (hs : s.Agrees o)
    {c : κ} (hc : s.activity c ≠ .playing) {a : Activity} (ha : a ≠ .playing) :
    Agrees { s with activity := Function.update s.activity c a } o := by
  have hsame : ∀ d, Function.update s.activity c a d = .playing ↔ s.activity d = .playing := by
    intro d
    by_cases hd : d = c
    · subst hd
      simp [ha, hc]
    · simp [hd]
  cases hs with
  | idle hphase hfree =>
      refine .idle hphase ?_
      intro d hd
      exact hfree d ((hsame d).1 hd)
  | running hphase hfits =>
      refine .running hphase { hfits with playing_iff := ?_ }
      intro d
      exact (hsame d).trans (hfits.playing_iff d)

/-- The base `s` of a look is where the turn began, before the stop of a client that leaves. -/
theorem moves_look {s s₁ : Clients ι μ σ κ} {o : Option (Ticket ι μ κ)} (hs : s₁.Agrees o)
    (hengine : s₁.session.engine = s.session.engine) (hworld : s₁.session.world = s.session.world)
    {c : κ} (hc : s₁.activity c ≠ .playing) (began : Nat) : Moves s o (s₁.look c began) := by
  have hfree := hs.update hc (a := .free) (by simp)
  have hleaving := hs.update hc (a := .leaving began) (by simp)
  cases hs with
  | idle hphase =>
      simp only [Clients.look, Session.look, hphase]
      cases hfree with
      | idle _ hothers => exact moves_silent hengine hworld (by simp) (.idle rfl hothers)
  | running hphase =>
      by_cases htime : s₁.session.exitTimeout ≤ Duration.ofMillis (s₁.session.scene.now - began)
      · simp only [Clients.look, Session.look, hphase, if_pos htime]
        exact moves_silent hengine hworld (by simp) hfree
      · simp only [Clients.look, Session.look, hphase, if_neg htime]
        exact moves_silent hengine hworld (by simp) hleaving

/-- A request is served in order, whatever it is. -/
theorem moves_serve {s : Clients ι μ σ κ} {o : Option (Ticket ι μ κ)} (hs : s.Agrees o) {c : κ}
    (hc : s.activity c ≠ .playing) (r : Request) : Moves s (note o (.asked c r)) (s.serve c r) := by
  cases r with
  | run kept script loops => exact moves_begin hs c kept script loops
  | stop => exact moves_silent (by rw [stop_eq]) (by rw [stop_eq]) (by simp) hs.stop
  | setVariable name v =>
      have hrefused : ∀ e, Moves s o ([.told c (.refused e)], s) := by
        intro e
        exact moves_silent rfl rfl (by simp) hs
      cases hs with
      | @idle m hphase hfree =>
          simp only [Clients.serve, Session.setVariable, hphase]
          cases m.vars.set name v with
          | error e => exact hrefused _
          | ok assigned => exact moves_silent rfl rfl (by simp) (.idle rfl hfree)
      | running hphase hfits =>
          simp only [Clients.serve, Session.setVariable, hphase]
          exact hrefused _
  | getVariable name =>
      simp only [Clients.serve]
      split
      · exact moves_silent rfl rfl (by simp) hs
      · exact moves_silent rfl rfl (by simp) hs
  | exit =>
      have hengine : s.session.stop.engine = s.session.engine := by rw [stop_eq]
      have hworld : s.session.stop.world = s.session.world := by rw [stop_eq]
      simp only [Clients.serve, Clients.depart]
      split
      · exact moves_look hs.stop hengine hworld hc _
      · exact moves_silent hengine hworld (by simp) hs.stop

/-- What one turn does, whatever it is. -/
theorem moves_step {s : Clients ι μ σ κ} {o : Option (Ticket ι μ κ)} (hs : s.Agrees o)
    (a : Action κ) : Moves s o (s.step a) := by
  have hnothing : Moves s o ([], s) := moves_silent rfl rfl (by simp) hs
  cases a with
  | request c r =>
      cases hc : s.activity c with
      | free =>
          simp only [Clients.step, hc]
          exact (moves_serve hs (by simp [hc]) r).entering (.asked c r) trivial (by simp)
      | playing | leaving =>
          simp only [Clients.step, hc]
          exact hnothing
  | wake c =>
      cases hc : s.activity c with
      | free =>
          simp only [Clients.step, hc]
          exact hnothing
      | playing =>
          simp only [Clients.step, hc]
          exact moves_advance hs hc
      | leaving began =>
          simp only [Clients.step, hc]
          exact moves_look hs rfl rfl (by simp [hc]) began
  | pass ms =>
      simp only [Clients.step]
      split
      · -- Time passes. Nothing that the protocol speaks of depends on the clock.
        refine moves_silent rfl rfl (by simp) ?_
        cases hs with
        | idle hphase hfree => exact .idle hphase hfree
        | running hphase hfits =>
            exact .running hphase ⟨hfits.kept, hfits.playing_iff, hfits.reaches, hfits.stopAsked,
              hfits.warranted, hfits.ends⟩
      · exact hnothing

/-! ## Sequences of turns -/

/-- The log is in order, and the session stands where it says. -/
structure Transcript.Sound (session : Session ι μ σ) (t : Transcript ι μ σ κ) : Prop where
  engine : t.clients.session.engine = session.engine
  world : t.clients.session.world = session.world
  orderly : Orderly session.engine none t.log
  agrees : t.clients.Agrees (current t.log)

/-- One action keeps the transcript sound. -/
theorem Transcript.Sound.add {session : Session ι μ σ} {t : Transcript ι μ σ κ} (ht : t.Sound session)
    (a : Action κ) : (t.add a).Sound session := by
  -- One turn more is in order behind the log, and leaves the session where the longer log says.
  have hmoves : Moves t.clients (current t.log) (t.clients.step a) := moves_step ht.agrees a
  refine ⟨hmoves.engine.trans ht.engine, hmoves.world.trans ht.world, ?_, ?_⟩
  · exact orderly_append.2 ⟨ht.orderly, ht.engine ▸ hmoves.orderly⟩
  · have hlog : current (t.add a).log = (t.clients.step a).1.foldl note (current t.log) :=
      List.foldl_append
    rw [hlog]
    exact hmoves.agrees

theorem Transcript.Sound.addAll {session : Session ι μ σ} {t : Transcript ι μ σ κ}
    (ht : t.Sound session) (actions : List (Action κ)) : (t.addAll actions).Sound session := by
  induction actions generalizing t with
  | nil => exact ht
  | cons a actions ih => exact ih (ht.add a)

/-- Every transcript of an idle session is sound. -/
theorem Transcript.sound_of {session : Session ι μ σ} {m : Memory μ}
    (hidle : session.phase = .idle m) (actions : List (Action κ)) :
    (Transcript.of session actions).Sound session := by
  have hopened : (Clients.opened session : Clients ι μ σ κ).Agrees none :=
    .idle hidle (by simp [Clients.opened])
  have hstart : Transcript.Sound session ⟨[], .opened (κ := κ) session⟩ :=
    ⟨rfl, rfl, trivial, hopened⟩
  exact hstart.addAll actions

/-! ## Runs come to their end -/

/-- If the client is woken often enough, then it is told the end of its run. -/
def Transcript.Returns (t : Transcript ι μ σ κ) (c : κ) (kept : Bool) : Prop :=
  ∃ k front r left, (t.addAll (List.replicate k (.wake c))).log =
    t.log ++ front ++ [.ended c r left, .told c (answer kept r)]

/-- A run in flight ends, if the collaborators answer. -/
theorem returns_of_running {s : Clients ι μ σ κ} {f : Flight ι μ σ} {c : κ}
    (hanswers : s.session.world.Answers) (hphase : s.session.phase = .running f)
    (hplaying : s.activity c = .playing) (hends : f.waiting.ends.isSome = true)
    (log : List (Entry ι μ κ)) : Transcript.Returns ⟨log, s⟩ c f.kept := by
  obtain ⟨⟨r, left⟩, scene, hresume⟩ := hanswers.exists_finished_resume hends s.session.scene
  obtain ⟨front, k, hleads⟩ := leads_resume none hphase hplaying log
  refine ⟨k, front, r, left, ?_⟩
  rw [hleads, hresume]
  rfl

/-- Every run in flight in a sound transcript returns to its client. -/
theorem Transcript.Sound.returns {session : Session ι μ σ} {t : Transcript ι μ σ κ}
    (ht : t.Sound session) (hanswers : session.world.Answers) {run : Ticket ι μ κ}
    (hrun : current t.log = some run) : t.Returns run.client run.kept := by
  have hagrees : t.clients.Agrees (some run) := hrun ▸ ht.agrees
  have hworld : t.clients.session.world.Answers := ht.world ▸ hanswers
  cases hagrees with
  | running hphase hfits =>
      rw [hfits.kept]
      exact returns_of_running hworld hphase ((hfits.playing_iff _).2 rfl) (hfits.ends hworld) t.log

/-! ## The protocol -/

/-- A client that asks for a run while one is in flight is refused, and nothing else happens. -/
theorem step_run_of_running {s : Clients ι μ σ κ} {f : Flight ι μ σ} {c : κ}
    (hphase : s.session.phase = .running f) (hfree : s.activity c = .free) (kept : Bool)
    (script : Script) (loops : Option Nat) :
    s.step (.request c (.run kept script loops)) =
      ([.asked c (.run kept script loops), .told c (refusal kept)], s) := by
  simp only [Clients.step, hfree, Clients.serve, Clients.begin, hphase]
  rfl

/-- A run leaves nothing of the scene and the phase that the session was in before. -/
theorem carryOn_of_before (s : Clients ι μ σ κ) (before : Scene σ) (phase : Phase ι μ σ) (c : κ)
    (kept : Bool) (p : Proc (Timed ι) (RunResult × Memory μ)) (scene : Scene σ) :
    Clients.carryOn { s with session := { s.session with scene := before, phase := phase } } c kept p
      scene = s.carryOn c kept p scene := by
  unfold Clients.carryOn
  rcases settle s.session.world p scene with ⟨h, ⟨⟨r, left⟩, scene'⟩ | ⟨q, scene'⟩⟩ <;> rfl

/-- What clients may rely on after the turns of the transcript. -/
structure Protocol (session : Session ι μ σ) (t : Transcript ι μ σ κ) : Prop where
  /-- A run began only where none was in flight, and was told of a stop only if it was asked to stop
  since it began; it ended as a run of its script. -/
  orderly : Orderly session.engine none t.log
  /-- The run in flight is that of the log, and its client is the only one that plays. -/
  agrees : t.clients.Agrees (current t.log)
  single : ∀ c d, t.clients.activity c = .playing → t.clients.activity d = .playing → c = d
  /-- While a run is in flight, nothing changes for a client that asks for another, -/
  refused : ∀ f c script loops, t.clients.session.phase = .running f → t.clients.activity c = .free →
    t.clients.step (.request c (.play script loops)) =
        ([.asked c (.play script loops), .told c (.status (-3))], t.clients) ∧
      t.clients.step (.request c (.execute script loops)) =
        ([.asked c (.execute script loops), .told c (.refused .alreadyRunning)], t.clients)
  /-- or for variables. -/
  locked : ∀ f c name v, t.clients.session.phase = .running f → t.clients.activity c = .free →
    t.clients.step (.request c (.setVariable name v)) =
        ([.asked c (.setVariable name v), .told c (.refused .alreadyRunning)], t.clients) ∧
      t.clients.step (.request c (.getVariable name)) =
        ([.asked c (.getVariable name), .told c (.refused .alreadyRunning)], t.clients)
  /-- The turn in which a run ends tells its client and leaves the session as that run does. -/
  ends : ∀ a c r left, .ended c r left ∈ (t.clients.step a).1 → ∃ front run,
    (t.clients.step a).1 = front ++ [.ended c r left, .told c (answer run.kept r)] ∧
      current (t.log ++ front) = some run ∧ run.client = c ∧
      Ends t.clients run r left (t.clients.step a).2
  /-- A client whose run is in flight is told its end if the collaborators answer. -/
  returns : session.world.Answers → ∀ run, current t.log = some run → t.Returns run.client run.kept
  /-- A stop changes nothing but what the run in flight is told, -/
  stop : ∀ c, t.clients.activity c = .free →
    t.clients.step (.request c .stop) = ([.asked c .stop, .told c .done],
      { t.clients with session := { t.clients.session with scene := { t.clients.session.scene with
          stopRequested := t.clients.session.isRunning || t.clients.session.scene.stopRequested } } })
  /-- and a run that begins is the same whether one was requested before or not. -/
  fresh : ∀ m c kept script loops stopRequested, t.clients.session.phase = .idle m →
    t.clients.activity c = .free →
    Clients.step { t.clients with session := { t.clients.session with
        scene := { t.clients.session.scene with stopRequested := stopRequested } } }
      (.request c (.run kept script loops)) = t.clients.step (.request c (.run kept script loops))

/-- The protocol holds for any number of clients and any sequence of turns. -/
theorem protocol_create (engine : Engine ι μ) (world : World ι σ) (start : σ) (m : Memory μ)
    (exitTimeout : Duration) (actions : List (Action κ)) :
    let session := create engine world start m exitTimeout
    Protocol session (Transcript.of session actions) := by
  intro session
  have hsound : (Transcript.of session actions).Sound session := Transcript.sound_of rfl actions
  generalize Transcript.of session actions = t at hsound
  refine ⟨hsound.orderly, hsound.agrees, ?_, ?_, ?_, ?_, ?_, ?_, ?_⟩
  · intro c d hc hd
    exact hsound.agrees.single hc hd
  · intro f c script loops hphase hfree
    exact ⟨step_run_of_running hphase hfree true script loops,
      step_run_of_running hphase hfree false script loops⟩
  · intro f c name v hphase hfree
    simp only [Clients.step, hfree, Clients.serve, setVariable, getVariable, hphase]
    exact ⟨rfl, rfl⟩
  · intro a c r left hmem
    -- What one turn does is true of the whole transcript, since all of it is sound.
    obtain ⟨front, run, hfront, hnote, hclient, hends⟩ := (moves_step hsound.agrees a).ends c r left hmem
    refine ⟨front, run, hfront, ?_, hclient, hends⟩
    rw [current, List.foldl_append]
    exact hnote
  · intro hanswers run hrun
    exact hsound.returns hanswers hrun
  · intro c hfree
    simp only [Clients.step, hfree, Clients.serve, stop_eq]
    rfl
  · intro m c kept script loops stopRequested hphase hfree
    simp only [Clients.step, hfree, Clients.serve, Clients.begin, hphase]
    rw [carryOn_of_before t.clients]

end Turns

-- The run of the first client is suspended in a hook while the second one is refused and stops it.
example :
    let hook : Hook .empty Unit := fun _ =>
      (Timed.pause (.ofMillis 5)).bind fun _ => .done (.succeeded, ())
    let engine : Engine .empty Unit := ⟨{}, .builtin, Cleanup.empty.register "rest" hook, none, none⟩
    let world : World .empty Unit := ⟨nofun, fun _ => ⟨.zero, 0, ⟨2026, 1, 1, 0, 0, 0⟩⟩⟩
    let session := create engine world () ⟨⟨[], [], false⟩, ()⟩ (.ofMillis 100)
    let t := Transcript.of session [.request 1 (.play ⟨"first", []⟩ none),
      .request 2 (.play ⟨"second", []⟩ none), .request 2 (.getVariable "!VAR1"), .request 2 .stop,
      .wake 1]
    t.log.filterMap (fun | .told c r => some (c, r) | _ => none) =
      [(2, .status (-3)), (2, .refused .alreadyRunning), (2, .done), (1, .status 1)] :=
  rfl

end Session
end MacroReplay
