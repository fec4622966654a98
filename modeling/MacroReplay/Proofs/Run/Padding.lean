import MacroReplay.Proofs.Run.Bookkeeping

/-!
# Runs of a padded script

Two runs in lockstep: one of a script, and one of the same script with commands put in that succeed and
change nothing. The commands and the source of the rows are the same in both, but they may do anything:
the runs may fail, skip iterations, be aborted or run out of rows.

* `Padded` — a list with elements put in at any places;
* `Steady` — a history in which commands and rows do as they are said to;
* `agrees_playCommands` — the commands of an iteration, by induction on the padding;
* `agrees_playIterations` — all iterations, by induction on their number;
* `agrees_plan` — whole runs.
-/

namespace MacroReplay

/-! ## Padded lists -/

/-- The second list is the first one with elements put in, at any places, of which `P` holds. -/
inductive Padded {α : Type} (P : α → Prop) : List α → List α → Prop where
  | nil : Padded P [] []
  | keep (a : α) {xs ys : List α} : Padded P xs ys → Padded P (a :: xs) (a :: ys)
  | insert {a : α} {xs ys : List α} : P a → Padded P xs ys → Padded P xs (a :: ys)

namespace Padded

variable {α : Type} {P : α → Prop} {xs ys xs' ys' : List α}

/-- Padded parts make a padded whole. -/
theorem append (h : Padded P xs ys) (h' : Padded P xs' ys') : Padded P (xs ++ xs') (ys ++ ys') := by
  induction h with
  | nil => exact h'
  | keep a _ ih => exact .keep a ih
  | insert ha _ ih => exact .insert ha ih

theorem forall_mem {R : α → Prop} (h : Padded P xs ys) (hxs : ∀ a ∈ xs, R a)
    (hP : ∀ a, P a → R a) :
    ∀ a ∈ ys, R a := by
  induction h with
  | nil => exact hxs
  | keep a _ ih =>
      rw [List.forall_mem_cons] at hxs ⊢
      exact ⟨hxs.1, ih hxs.2⟩
  | insert ha _ ih => exact List.forall_mem_cons.2 ⟨hP _ ha, ih hxs⟩

/-- A filter that drops the padding does not see it. -/
theorem filter_eq {q : α → Bool} (hq : ∀ a, P a → q a = false) (h : Padded P xs ys) :
    ys.filter q = xs.filter q := by
  induction h with
  | nil => rfl
  | keep a _ ih => rw [List.filter_cons, List.filter_cons, ih]
  | insert ha _ ih => rw [List.filter_cons_of_neg (by simp [hq _ ha]), ih]

end Padded

namespace Run

variable {μ η : Type}

/-! ## What commands and rows do -/

/-- What is seen of a dispatched command but for the time: the variables it was given, its result and the
variables it left. -/
structure Act where
  command : Command
  before : Store
  result : CommandResult
  left : Store

def Step.act (s : Step μ) : Act := ⟨s.command, s.before.vars, s.result, s.left⟩

def acts (h : History (Run μ)) : List Act := (dispatched h).map Step.act

structure Load where
  iteration : Nat
  vars : Store
  reply : LoadReport × Store

def Load.ofEvent? : Event (Run μ) → Option Load
  | ⟨.load i vars, reply⟩ => some ⟨i, vars, reply⟩
  | _ => none

def loads (h : History (Run μ)) : List Load := h.filterMap Load.ofEvent?

/-- A source of rows. It may remember what it was asked before. -/
abbrev Source := List Load → Nat → Store → LoadReport × Store

/-- The replies are those of a source, which was asked for the rows of `past` before. -/
def GivenBy (source : Source) : (past rows : List Load) → Prop
  | _, [] => True
  | past, load :: rows =>
      load.reply = source past load.iteration load.vars ∧ GivenBy source (past ++ [load]) rows

/-- The rows of the second part are given after those of the first. -/
theorem givenBy_append_iff {source : Source} {past rows rows' : List Load} :
    GivenBy source past (rows ++ rows') ↔
      GivenBy source past rows ∧ GivenBy source (past ++ rows) rows' := by
  induction rows generalizing past with
  | nil => simp [GivenBy]
  | cons load rows ih => simp [GivenBy, ih, and_assoc]

/-- What the commands do: from the variables that they are given, their result and the variables that
they leave. -/
abbrev Behaviour := Command → Store → CommandResult × Store

def Behaviour.Idle (f : Behaviour) (c : Command) : Prop :=
  ∀ vars, (f c vars).1.success = true ∧ (f c vars).2 = vars

/-- No stop is requested, the commands among `known` do as `f` says, and the rows are those of
a source. -/
structure Steady (f : Behaviour) (known : Command → Prop) (source : Source) (past : List Load)
    (h : History (Run μ)) : Prop where
  goesOn : poll true ∉ h
  acts : ∀ s ∈ dispatched h, known s.command → (s.result, s.left) = f s.command s.before.vars
  rows : GivenBy source past (loads h)

theorem loads_append (h₁ h₂ : History (Run μ)) : loads (h₁ ++ h₂) = loads h₁ ++ loads h₂ :=
  List.filterMap_append

theorem acts_append (h₁ h₂ : History (Run μ)) : acts (h₁ ++ h₂) = acts h₁ ++ acts h₂ := by
  simp [acts, dispatched_append]

variable {f : Behaviour} {known P : Command → Prop} {source : Source} {past past' : List Load}

theorem Steady.left {h₁ h₂ : History (Run μ)} (hsteady : Steady f known source past (h₁ ++ h₂)) :
    Steady f known source past h₁ where
  goesOn := fun hmem => hsteady.goesOn (List.mem_append_left h₂ hmem)
  acts := by
    intro s hs
    apply hsteady.acts
    rw [dispatched_append]
    exact List.mem_append_left _ hs
  rows := by
    have hrows := hsteady.rows
    rw [loads_append] at hrows
    exact (givenBy_append_iff.1 hrows).1

/-- The second part is steady after the rows that the first has loaded. -/
theorem Steady.right {h₁ h₂ : History (Run μ)} (hsteady : Steady f known source past (h₁ ++ h₂)) :
    Steady f known source (past ++ loads h₁) h₂ where
  goesOn := fun hmem => hsteady.goesOn (List.mem_append_right h₁ hmem)
  acts := by
    intro s hs
    apply hsteady.acts
    rw [dispatched_append]
    exact List.mem_append_right _ hs
  rows := by
    have hrows := hsteady.rows
    rw [loads_append] at hrows
    exact (givenBy_append_iff.1 hrows).2

theorem Steady.behind {e : Event (Run μ)} {h : History (Run μ)}
    (hsteady : Steady f known source past (e :: h)) :
    Steady f known source (past ++ loads [e]) h := by
  have happend : Steady f known source past ([e] ++ h) := hsteady
  exact happend.right

/-- A call that asks for no row leaves the source as it was. -/
theorem Steady.tail {e : Event (Run μ)} {h : History (Run μ)}
    (hsteady : Steady f known source past (e :: h)) (he : Load.ofEvent? e = none) :
    Steady f known source past h := by
  have hright := hsteady.behind
  have hnone : loads [e] = [] := by simp [loads, he]
  rwa [hnone, List.append_nil] at hright

/-! ## Agreement -/

def Tally.Agrees (t t' : Tally) : Prop :=
  { t with records := [] } = { t' with records := [] }

namespace Tally.Agrees

variable {t t' : Tally}

theorem noted_left (hagrees : t.Agrees t') (s : Step μ) : (t.noted s).Agrees t' := by
  obtain ⟨records, hnoted⟩ := noted_eq t s
  rw [hnoted]
  exact hagrees

theorem noted_right (hagrees : t.Agrees t') (s : Step μ) : t.Agrees (t'.noted s) := by
  obtain ⟨records, hnoted⟩ := noted_eq t' s
  rw [hnoted]
  exact hagrees

theorem stop (hagrees : t.Agrees t') : t.stop.Agrees t'.stop :=
  congrArg Tally.stop hagrees

theorem abort (hagrees : t.Agrees t') (code : ErrorCode) (message : String) (line : Option Nat) :
    (t.abort code message line).Agrees (t'.abort code message line) :=
  congrArg (Tally.abort · code message line) hagrees

theorem withMessage (hagrees : t.Agrees t') (message : String) :
    Tally.Agrees { t with message := some message } { t' with message := some message } := by
  have hmap := congrArg (fun u : Tally => ({ u with message := some message } : Tally)) hagrees
  exact hmap

theorem withLoops (hagrees : t.Agrees t') (i : Nat) :
    Tally.Agrees { t with loops := i } { t' with loops := i } := by
  have hmap := congrArg (fun u : Tally => ({ u with loops := i } : Tally)) hagrees
  exact hmap

end Tally.Agrees

/-- The runs stand alike: both go on or both are over, with the same variables. -/
inductive Stage.Agrees : Stage μ → Stage μ → Prop where
  | goesOn {t t' : Tally} {m m' : Memory μ} :
      t.Agrees t' → m'.vars = m.vars → Stage.Agrees (.goesOn t m) (.goesOn t' m')
  | ended {t t' : Tally} {m m' : Memory μ} :
      t.Agrees t' → m'.vars = m.vars → Stage.Agrees (.over t m) (.over t' m')

/-! ## The commands of an iteration -/

/-- Without a request to stop, the next command is dispatched. -/
theorem runs_playCommands_goesOn {i : Nat} {c : Command} {rest : List Command} {t : Tally}
    {m : Memory μ} {h : History (Run μ)} {stage : Stage μ}
    (hrun : (playCommands i (c :: rest) t m).Runs h stage) (hgoesOn : poll true ∉ h) :
    ∃ (d : Dispatched μ) (h' : History (Run μ)), h = poll false :: Step.event ⟨c, m, d⟩ :: h' ∧
      (if d.result.success then playCommands i rest (t.noted ⟨c, m, d⟩) d.memory
        else afterFailure i rest t ⟨c, m, d⟩).Runs h' stage := by
  rw [playCommands_cons] at hrun
  rcases Proc.runs_call_iff.1 hrun with ⟨stop, h₁, rfl, hasked⟩
  cases stop with
  | true => exact absurd List.mem_cons_self hgoesOn
  | false =>
      rcases Proc.runs_call_iff.1 hasked with ⟨d, h₂, rfl, hdispatched⟩
      exact ⟨d, h₂, rfl, hdispatched⟩

/-- After a command that failed alike in both runs, both end the iteration or the run alike, or both go
on with the next command. -/
theorem agrees_afterFailure {i : Nat} {rest rest' : List Command} {t t' : Tally}
    {s s' : Step μ} {h h' : History (Run μ)} {stage stage' : Stage μ} (ht : t.Agrees t')
    (hact : s'.act = s.act) (hrun : (afterFailure i rest t s).Runs h stage)
    (hrun' : (afterFailure i rest' t' s').Runs h' stage') (hgoesOn : poll true ∉ h)
    (hgoesOn' : poll true ∉ h') :
    (stage.Agrees stage' ∧ dispatched h = [] ∧ dispatched h' = []) ∨
      ∃ (u u' : Tally) (h₁ h₁' : History (Run μ)), u.Agrees u' ∧
        h = poll false :: h₁ ∧ h' = poll false :: h₁' ∧
        (playCommands i rest u s.outcome.memory).Runs h₁ stage ∧
        (playCommands i rest' u' s'.outcome.memory).Runs h₁' stage' := by
  obtain ⟨hcommand, -, hresult, hleft⟩ := Act.mk.inj hact
  have hnoted : (t.noted s).Agrees (t'.noted s') := (ht.noted_left s).noted_right s'
  unfold afterFailure at hrun hrun'
  rw [hresult] at hrun'
  by_cases hstopped : s.result.code = .stopped
  · rw [if_pos hstopped] at hrun hrun'
    obtain ⟨rfl, rfl⟩ := Proc.runs_done_iff.1 hrun
    obtain ⟨rfl, rfl⟩ := Proc.runs_done_iff.1 hrun'
    exact .inl ⟨.ended hnoted.stop hleft, rfl, rfl⟩
  · rw [if_neg hstopped] at hrun hrun'
    rcases Proc.runs_call_iff.1 hrun with ⟨stop, h₁, rfl, hasked⟩
    rcases Proc.runs_call_iff.1 hrun' with ⟨stop', h₁', rfl, hasked'⟩
    cases stop with
    | true => exact absurd List.mem_cons_self hgoesOn
    | false =>
        cases stop' with
        | true => exact absurd List.mem_cons_self hgoesOn'
        | false =>
            rw [if_neg Bool.false_ne_true] at hasked hasked'
            by_cases hend : s.result.code = .datasourceEnd
            · rw [if_pos hend] at hasked hasked'
              obtain ⟨rfl, rfl⟩ := Proc.runs_done_iff.1 hasked
              obtain ⟨rfl, rfl⟩ := Proc.runs_done_iff.1 hasked'
              exact .inl ⟨.ended hnoted hleft, rfl, rfl⟩
            · -- The policy is that of the variables, which are the same.
              rw [if_neg hend] at hasked hasked'
              rw [hleft] at hasked'
              cases hpolicy : policy s.left with
              | nextCommand =>
                  rw [hpolicy] at hasked hasked'
                  exact .inr ⟨_, _, h₁, h₁', hnoted.withMessage _, rfl, rfl, hasked, hasked'⟩
              | nextIteration =>
                  rw [hpolicy] at hasked hasked'
                  obtain ⟨rfl, rfl⟩ := Proc.runs_done_iff.1 hasked
                  obtain ⟨rfl, rfl⟩ := Proc.runs_done_iff.1 hasked'
                  exact .inl ⟨.goesOn ((hnoted.withMessage _).withLoops i) hleft, rfl, rfl⟩
              | abort =>
                  rw [hpolicy, hcommand] at hasked'
                  rw [hpolicy] at hasked
                  obtain ⟨rfl, rfl⟩ := Proc.runs_done_iff.1 hasked
                  obtain ⟨rfl, rfl⟩ := Proc.runs_done_iff.1 hasked'
                  exact .inl ⟨.ended (hnoted.abort _ _ _) hleft, rfl, rfl⟩

/-- The commands of an iteration, with and without the padding. -/
theorem agrees_playCommands {i : Nat} {commands commands' : List Command} {t t' : Tally}
    {m m' : Memory μ} {h h' : History (Run μ)} {stage stage' : Stage μ}
    (hidle : ∀ c, P c → f.Idle c) (hpadded : Padded P commands commands')
    (hknown : ∀ c ∈ commands', known c) (ht : t.Agrees t') (hvars : m'.vars = m.vars)
    (hrun : (playCommands i commands t m).Runs h stage)
    (hrun' : (playCommands i commands' t' m').Runs h' stage')
    (hsteady : Steady f known source past h) (hsteady' : Steady f known source past' h') :
    stage.Agrees stage' ∧ Padded (fun a => P a.command) (acts h) (acts h') := by
  -- By induction on the padding: a command that is put in moves one run only, any other moves both.
  induction hpadded generalizing t t' m m' h h' with
  | nil =>
      obtain ⟨rfl, rfl⟩ := Proc.runs_done_iff.1 hrun
      obtain ⟨rfl, rfl⟩ := Proc.runs_done_iff.1 hrun'
      exact ⟨.goesOn (ht.withLoops i) hvars, .nil⟩
  | @insert c commands commands' hc _ ih =>
      -- Only the padded run dispatches the command, and it goes on as if it had not.
      obtain ⟨d', h₁', rfl, hrest'⟩ := runs_playCommands_goesOn hrun' hsteady'.goesOn
      have hact : (d'.result, d'.memory.vars) = f c m'.vars :=
        hsteady'.acts ⟨c, m', d'⟩ List.mem_cons_self (hknown c List.mem_cons_self)
      obtain ⟨hok, hsame⟩ := hidle c hc m'.vars
      rw [← hact] at hok hsame
      rw [if_pos hok] at hrest'
      obtain ⟨hstage, hacts⟩ := ih (fun c hc => hknown c (List.mem_cons_of_mem _ hc))
        (ht.noted_right _) (hsame.trans hvars) hrun hrest' hsteady ((hsteady'.tail rfl).tail rfl)
      exact ⟨hstage, .insert hc hacts⟩
  | @keep c commands commands' _ ih =>
      obtain ⟨d, h₁, rfl, hrest⟩ := runs_playCommands_goesOn hrun hsteady.goesOn
      obtain ⟨d', h₁', rfl, hrest'⟩ := runs_playCommands_goesOn hrun' hsteady'.goesOn
      -- The command is given the same variables in both runs, so it does the same.
      have hact : (d.result, d.memory.vars) = f c m.vars :=
        hsteady.acts ⟨c, m, d⟩ List.mem_cons_self (hknown c List.mem_cons_self)
      have hact' : (d'.result, d'.memory.vars) = f c m'.vars :=
        hsteady'.acts ⟨c, m', d'⟩ List.mem_cons_self (hknown c List.mem_cons_self)
      rw [hvars, ← hact] at hact'
      obtain ⟨hresult, hleft⟩ := Prod.mk.inj hact'
      have hacts : Step.act ⟨c, m', d'⟩ = Step.act ⟨c, m, d⟩ := by
        simp only [Step.act, Step.result, Step.left, hvars, hresult, hleft]
      have hsteady₁ : Steady f known source past h₁ := (hsteady.tail rfl).tail rfl
      have hsteady₁' : Steady f known source past' h₁' := (hsteady'.tail rfl).tail rfl
      suffices hrests : stage.Agrees stage' ∧
          Padded (fun a => P a.command) (acts h₁) (acts h₁') by
        refine ⟨hrests.1, ?_⟩
        have hkeep := Padded.keep (Step.act ⟨c, m, d⟩) hrests.2
        nth_rewrite 2 [← hacts] at hkeep
        exact hkeep
      have hothers : ∀ c ∈ commands', known c := fun c hc => hknown c (List.mem_cons_of_mem _ hc)
      cases hok : d.result.success with
      | true =>
          rw [if_pos hok] at hrest
          rw [if_pos (by rw [hresult, hok])] at hrest'
          exact ih hothers ((ht.noted_left _).noted_right _) hleft hrest hrest' hsteady₁ hsteady₁'
      | false =>
          rw [if_neg (by simp [hok])] at hrest
          rw [if_neg (by simp [hresult, hok])] at hrest'
          rcases agrees_afterFailure ht hacts hrest hrest' hsteady₁.goesOn hsteady₁'.goesOn with
            ⟨hstage, hnone, hnone'⟩ | ⟨u, u', h₂, h₂', hu, rfl, rfl, hnext, hnext'⟩
          · refine ⟨hstage, ?_⟩
            rw [acts, acts, hnone, hnone']
            exact .nil
          · obtain ⟨hstage, hnexts⟩ :=
              ih hothers hu hleft hnext hnext' (hsteady₁.tail rfl) (hsteady₁'.tail rfl)
            exact ⟨hstage, hnexts⟩

/-! ## Iterations -/

/-- Commands load no rows. -/
theorem loads_of_runs_playCommands {i : Nat} {commands : List Command} {t : Tally} {m : Memory μ}
    {h : History (Run μ)} {stage : Stage μ} (hrun : (playCommands i commands t m).Runs h stage) :
    loads h = [] := by
  have hcalls : ∀ s : Step μ, loads s.calls = [] := by
    intro s
    unfold Step.calls
    split <;> rfl
  rcases runs_playCommands hrun with ⟨passed, rest, m', h', -, -, -, rfl, hexit⟩
  have hpassed : loads (passed.flatMap Step.calls) = [] := by
    clear hexit hrun
    induction passed with
    | nil => rfl
    | cons s passed ih => rw [List.flatMap_cons, loads_append, hcalls, ih, List.append_nil]
  rw [loads_append, hpassed, List.nil_append]
  cases hexit <;> rfl

/-- What two runs show alike: where they stand, the acts but for the padding, and the rows. -/
structure Alike (P : Command → Prop) (stage stage' : Stage μ) (h h' : History (Run μ)) : Prop where
  stage : stage.Agrees stage'
  acts : Padded (fun a => P a.command) (acts h) (acts h')
  loads : loads h' = loads h

/-- The row of an iteration and its commands, with and without the padding. -/
theorem alike_withRow {hasDatasource : Bool} {i : Nat} {commands commands' : List Command}
    {t t' : Tally} {m m' : Memory μ} {h h' : History (Run μ)} {stage stage' : Stage μ}
    (hidle : ∀ c, P c → f.Idle c) (hpadded : Padded P commands commands')
    (hknown : ∀ c ∈ commands', known c) (ht : t.Agrees t') (hvars : m'.vars = m.vars)
    (hrun : (withRow hasDatasource i t m (playCommands i commands t)).Runs h stage)
    (hrun' : (withRow hasDatasource i t' m' (playCommands i commands' t')).Runs h' stage')
    (hsteady : Steady f known source past h) (hsteady' : Steady f known source past h') :
    Alike P stage stage' h h' := by
  cases hasDatasource with
  | false =>
      obtain ⟨hstage, hacts⟩ :=
        agrees_playCommands hidle hpadded hknown ht hvars hrun hrun' hsteady hsteady'
      have hnone : loads h' = loads h :=
        (loads_of_runs_playCommands hrun').trans (loads_of_runs_playCommands hrun).symm
      exact ⟨hstage, hacts, hnone⟩
  | true =>
      rcases Proc.runs_call_iff.1 hrun with ⟨reply, h₁, rfl, hloaded⟩
      rcases Proc.runs_call_iff.1 hrun' with ⟨reply', h₁', rfl, hloaded'⟩
      -- The source was asked the same before, and is asked for the same row now.
      have hreply : reply = source past i m.vars := hsteady.rows.1
      have hreply' : reply' = source past i m'.vars := hsteady'.rows.1
      rw [hvars, ← hreply] at hreply'
      subst hreply'
      obtain ⟨report, vars⟩ := reply'
      have hrow : Load.mk i m'.vars (report, vars) = ⟨i, m.vars, (report, vars)⟩ := by rw [hvars]
      cases report with
      | loaded =>
          have hplayed : (playCommands i commands t { m with vars := vars }).Runs h₁ stage := hloaded
          have hplayed' : (playCommands i commands' t' { m' with vars := vars }).Runs h₁' stage' :=
            hloaded'
          have hsame : Memory.vars { m' with vars := vars } = Memory.vars { m with vars := vars } := rfl
          obtain ⟨hstage, hacts⟩ := agrees_playCommands hidle hpadded hknown ht hsame hplayed hplayed'
            hsteady.behind hsteady'.behind
          have hnone : loads h₁' = loads h₁ :=
            (loads_of_runs_playCommands hplayed').trans (loads_of_runs_playCommands hplayed).symm
          exact ⟨hstage, hacts, congrArg₂ List.cons hrow hnone⟩
      | exhausted =>
          obtain ⟨rfl, rfl⟩ := Proc.runs_done_iff.1 hloaded
          obtain ⟨rfl, rfl⟩ := Proc.runs_done_iff.1 hloaded'
          exact ⟨.ended ht rfl, .nil, congrArg ([·]) hrow⟩
      | faulted =>
          obtain ⟨rfl, rfl⟩ := Proc.runs_done_iff.1 hloaded
          obtain ⟨rfl, rfl⟩ := Proc.runs_done_iff.1 hloaded'
          exact ⟨.ended (ht.abort _ _ _) rfl, .nil, congrArg ([·]) hrow⟩
      | failed error =>
          cases error with
          | datasourceEnd =>
              obtain ⟨rfl, rfl⟩ := Proc.runs_done_iff.1 hloaded
              obtain ⟨rfl, rfl⟩ := Proc.runs_done_iff.1 hloaded'
              exact ⟨.ended ht rfl, .nil, congrArg ([·]) hrow⟩
          | _ =>
              obtain ⟨rfl, rfl⟩ := Proc.runs_done_iff.1 hloaded
              obtain ⟨rfl, rfl⟩ := Proc.runs_done_iff.1 hloaded'
              exact ⟨.ended (ht.abort _ _ _) rfl, .nil, congrArg ([·]) hrow⟩

/-- One iteration, with and without the padding. -/
theorem alike_playIteration {hasDatasource : Bool} {i : Nat} {commands commands' : List Command}
    {t t' : Tally} {m m' : Memory μ} {h h' : History (Run μ)} {stage stage' : Stage μ}
    (hidle : ∀ c, P c → f.Idle c) (hpadded : Padded P commands commands')
    (hknown : ∀ c ∈ commands', known c) (ht : t.Agrees t') (hvars : m'.vars = m.vars)
    (hrun : (playIteration commands hasDatasource i t m).Runs h stage)
    (hrun' : (playIteration commands' hasDatasource i t' m').Runs h' stage')
    (hsteady : Steady f known source past h) (hsteady' : Steady f known source past h') :
    Alike P stage stage' h h' := by
  have hcounted : (counted i m').vars = (counted i m).vars := by
    unfold counted
    split <;> simp [hvars]
  rcases Proc.runs_call_iff.1 hrun with ⟨stop, h₁, rfl, hasked⟩
  rcases Proc.runs_call_iff.1 hrun' with ⟨stop', h₁', rfl, hasked'⟩
  cases stop with
  | true => exact absurd List.mem_cons_self hsteady.goesOn
  | false =>
      cases stop' with
      | true => exact absurd List.mem_cons_self hsteady'.goesOn
      | false =>
          have hopened : (withRow hasDatasource i t (counted i m) (playCommands i commands t)).Runs
              h₁ stage := hasked
          have hopened' : (withRow hasDatasource i t' (counted i m')
              (playCommands i commands' t')).Runs h₁' stage' := hasked'
          obtain ⟨hstage, hacts, hloads⟩ :=
            alike_withRow hidle hpadded hknown ht hcounted hopened hopened'
            (hsteady.tail rfl) (hsteady'.tail rfl)
          exact ⟨hstage, hacts, hloads⟩

/-- As many iterations as are left, with and without the padding. -/
theorem agrees_playIterations {hasDatasource : Bool} {left i : Nat} {commands commands' : List Command}
    {t t' u u' : Tally} {m m' n n' : Memory μ} {h h' : History (Run μ)}
    (hidle : ∀ c, P c → f.Idle c) (hpadded : Padded P commands commands')
    (hknown : ∀ c ∈ commands', known c) (ht : t.Agrees t') (hvars : m'.vars = m.vars)
    (hrun : (playIterations commands hasDatasource left i t m).Runs h (u, n))
    (hrun' : (playIterations commands' hasDatasource left i t' m').Runs h' (u', n'))
    (hsteady : Steady f known source past h) (hsteady' : Steady f known source past h') :
    u.Agrees u' ∧ n'.vars = n.vars ∧ Padded (fun a => P a.command) (acts h) (acts h') := by
  -- The invariant: equal variables, tallies that agree, and a source that was asked for the same rows.
  induction left generalizing i t t' m m' h h' past with
  | zero =>
      rcases Proc.runs_done_iff.1 hrun with ⟨rfl, hend⟩
      rcases Proc.runs_done_iff.1 hrun' with ⟨rfl, hend'⟩
      cases hend
      cases hend'
      exact ⟨ht, hvars, .nil⟩
  | succ left ih =>
      rw [playIterations] at hrun hrun'
      rcases Proc.runs_bind_iff.1 hrun with ⟨h₁, h₂, stage, rfl, hfirst, hrest⟩
      rcases Proc.runs_bind_iff.1 hrun' with ⟨h₁', h₂', stage', rfl, hfirst', hrest'⟩
      obtain ⟨hstage, hacts, hloads⟩ :=
        alike_playIteration hidle hpadded hknown ht hvars hfirst hfirst' hsteady.left hsteady'.left
      rw [acts_append, acts_append]
      cases hstage with
      | ended hu hleft =>
          rcases Proc.runs_done_iff.1 hrest with ⟨rfl, hend⟩
          rcases Proc.runs_done_iff.1 hrest' with ⟨rfl, hend'⟩
          cases hend
          cases hend'
          exact ⟨hu, hleft, hacts.append .nil⟩
      | goesOn hu hleft =>
          -- The same rows were loaded, so the source is in the same state.
          have hsteady₂' := hsteady'.right
          rw [hloads] at hsteady₂'
          obtain ⟨hu', hleft', hacts'⟩ := ih hu hleft hrest hrest' hsteady.right hsteady₂'
          exact ⟨hu', hleft', hacts.append hacts'⟩

/-- Whole runs, with and without the padding. -/
theorem agrees_plan {setup setup' : Setup η} {m m' n n' : Memory μ} {h h' : History (Run μ)}
    {r r' : RunResult}
    (hidle : ∀ c, P c → f.Idle c)
    (hpadded : Padded P setup.script.commands setup'.script.commands)
    (hknown : ∀ c ∈ setup'.script.commands, known c) (hloops : setup'.loops = setup.loops)
    (hdatasource : setup'.hasDatasource = setup.hasDatasource) (hvars : m'.vars = m.vars)
    (hrun : (plan setup m).Runs h (r, n)) (hrun' : (plan setup' m').Runs h' (r', n'))
    (hsteady : Steady f known source [] h) (hsteady' : Steady f known source [] h') :
    ∃ t t' : Tally, t.Agrees t' ∧ r = t.result setup.script.name n.vars ∧
      r' = t'.result setup'.script.name n.vars ∧ n'.vars = n.vars ∧
      Padded (fun a => P a.command) (acts h) (acts h') := by
  rcases runs_plan hrun with ⟨h₁, h₂, t, m₁, rfl, hplayed, hclosing, rfl, hleft⟩
  rcases runs_plan hrun' with ⟨h₁', h₂', t', m₁', rfl, hplayed', hclosing', rfl, hleft'⟩
  rw [hloops, hdatasource] at hplayed'
  have hbegun : (Store.beginRun m'.vars) = Store.beginRun m.vars := by rw [hvars]
  obtain ⟨ht, hvars₁, hacts⟩ := agrees_playIterations hidle hpadded hknown rfl hbegun hplayed hplayed'
    hsteady.left hsteady'.left
  -- Hooks and profile dispatch nothing.
  have hnone : acts h₂ = [] := by rw [acts, dispatched_closing hclosing, List.map_nil]
  have hnone' : acts h₂' = [] := by rw [acts, dispatched_closing hclosing', List.map_nil]
  refine ⟨t, t', ht, by rw [hleft], by rw [hleft, hvars₁], by rw [hleft, hleft', hvars₁], ?_⟩
  rw [acts_append, acts_append, hnone, hnone']
  exact hacts.append .nil

end Run
end MacroReplay
