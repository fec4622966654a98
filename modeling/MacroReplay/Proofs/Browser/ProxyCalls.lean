import MacroReplay.Proofs.Engine.Execution
import MacroReplay.Proofs.Handler.Atomicity
import MacroReplay.Proofs.Run.Handover

/-!
# What is done to the proxy

What the settings of the proxy are is read off the calls: applying settings changes them if the browser
says so, and nothing else does. Before its first change of the proxy a run saves the settings, and the
hook at its end applies them again.

* `Change`, `Restore` — all that `PROXY` and the hook can do;
* `Retains` — what every call keeps until the hook runs: the settings from before the run are the saved
  ones, or those in force if none are saved;
* `IsAside` — the engines that leave the proxy to the browser commands;
* `IsAside.away_or_changes`, `IsAside.restores` — what a call of a run does to the proxy;
* `IsAside.retains_jobs`, `IsAside.away_jobs` — what many of them do.
-/

namespace MacroReplay
namespace Browser

variable {χ : Interface}

/-! ## The settings in force -/

def applied? : Event (Timed (Host χ)) → Option ProxySettings
  | ⟨.ask (.inl (.applyProxy p)) _ _, ⟨_, .replied (.ok _)⟩⟩ => some p
  | _ => none

def read? : Event (Timed (Host χ)) → Option ProxySettings
  | ⟨.ask (.inl .proxySettings) _ _, ⟨_, .replied (.ok p)⟩⟩ => some p
  | _ => none

def proxyAfter (p : ProxySettings) (h : History (Timed (Host χ))) : ProxySettings :=
  h.foldl (fun p e => (applied? e).getD p) p

def reads (h : History (Timed (Host χ))) : List ProxySettings :=
  h.filterMap read?

/-- Whatever is read of the settings are those in force. -/
def Truthful : ProxySettings → History (Timed (Host χ)) → Prop
  | _, [] => True
  | p, e :: h => (∀ q, read? e = some q → q = p) ∧ Truthful ((applied? e).getD p) h

@[simp]
theorem proxyAfter_nil (p : ProxySettings) : proxyAfter p ([] : History (Timed (Host χ))) = p := rfl

@[simp]
theorem proxyAfter_cons (p : ProxySettings) (e : Event (Timed (Host χ)))
    (h : History (Timed (Host χ))) : proxyAfter p (e :: h) = proxyAfter ((applied? e).getD p) h := rfl

/-- The settings after two histories, one behind the other. -/
theorem proxyAfter_append (p : ProxySettings) (h₁ h₂ : History (Timed (Host χ))) :
    proxyAfter p (h₁ ++ h₂) = proxyAfter (proxyAfter p h₁) h₂ :=
  List.foldl_append

theorem reads_append (h₁ h₂ : History (Timed (Host χ))) :
    reads (h₁ ++ h₂) = reads h₁ ++ reads h₂ :=
  List.filterMap_append

/-- What is read later has to agree with what was applied before. -/
theorem truthful_append_iff {p : ProxySettings} {h₁ h₂ : History (Timed (Host χ))} :
    Truthful p (h₁ ++ h₂) ↔ Truthful p h₁ ∧ Truthful (proxyAfter p h₁) h₂ := by
  induction h₁ generalizing p with
  | nil => simp [Truthful]
  | cons e h₁ ih => simp [Truthful, ih, and_assoc]

def Away (h : History (Timed (Host χ))) : Prop :=
  ∀ e ∈ h, isProxyCall e.1 = false

theorem away_nil : Away ([] : History (Timed (Host χ))) := by
  intro e he
  cases he

/-- Histories that leave the proxy alone do so one behind the other. -/
theorem Away.append {h₁ h₂ : History (Timed (Host χ))} (hfirst : Away h₁) (hsecond : Away h₂) :
    Away (h₁ ++ h₂) := by
  intro e he
  rcases List.mem_append.1 he with he | he
  · exact hfirst e he
  · exact hsecond e he

theorem away_clock (now : Reading) : Away ([⟨.clock, now⟩] : History (Timed (Host χ))) := by
  intro e he
  rw [List.mem_singleton.1 he]
  rfl

/-- Only a call on the proxy can apply settings. -/
theorem applied?_eq_none {e : Event (Timed (Host χ))} (h : isProxyCall e.1 = false) :
    applied? e = none := by
  unfold applied?
  split
  · nomatch h
  · rfl

/-- Only a call on the proxy can read them. -/
theorem read?_eq_none {e : Event (Timed (Host χ))} (h : isProxyCall e.1 = false) :
    read? e = none := by
  unfold read?
  split
  · nomatch h
  · rfl

/-- A history that leaves the proxy alone leaves it as it is. -/
theorem Away.proxyAfter_eq {h : History (Timed (Host χ))} (haway : Away h) (p : ProxySettings) :
    proxyAfter p h = p := by
  induction h with
  | nil => rfl
  | cons e h ih =>
      rw [Away, List.forall_mem_cons] at haway
      rw [proxyAfter_cons, applied?_eq_none haway.1, Option.getD_none, ih haway.2]

/-- It does not read it either. -/
theorem Away.reads_eq {h : History (Timed (Host χ))} (haway : Away h) : reads h = [] :=
  List.filterMap_eq_nil_iff.2 fun e he => read?_eq_none (haway e he)

/-! ## What the command and the hook do -/

def applying (p : ProxySettings) (ending : Ending (Except BridgeError Unit)) :
    Event (Timed (Host χ)) :=
  ⟨.ask (.inl (.applyProxy p)) none false, ending⟩

def reading (ending : Ending (Except BridgeError ProxySettings)) : Event (Timed (Host χ)) :=
  ⟨.ask (.inl .proxySettings) none false, ending⟩

/-- Nothing is read by a call that does not succeed. -/
theorem read?_reading {ending : Ending (Except BridgeError ProxySettings)}
    (h : ∀ q, ending.outcome ≠ .replied (.ok q)) :
    read? (reading ending : Event (Timed (Host χ))) = none := by
  obtain ⟨took, outcome⟩ := ending
  match outcome with
  | .replied (.ok q) => exact absurd rfl (h q)
  | .replied (.error _) => rfl
  | .expired => rfl
  | .stopped => rfl
  | .faulted _ => rfl

/-- A call that applies settings applies these or none. -/
theorem applied?_applying (p : ProxySettings) (ending : Ending (Except BridgeError Unit)) :
    applied? (applying p ending : Event (Timed (Host χ))) = none ∨
      applied? (applying p ending : Event (Timed (Host χ))) = some p := by
  obtain ⟨took, outcome⟩ := ending
  match outcome with
  | .replied (.ok _) => exact .inr rfl
  | .replied (.error _) => exact .inl rfl
  | .expired => exact .inl rfl
  | .stopped => exact .inl rfl
  | .faulted _ => exact .inl rfl

/-- What `PROXY` does once its parameters have been checked: the saved settings before it, its calls and
the saved settings after it. -/
inductive Change (p : ProxySettings) : Backup → History (Timed (Host χ)) → Backup → Prop where
  /-- Settings are saved already. -/
  | again {saved : ProxySettings} {ending : Ending (Except BridgeError Unit)} :
      Change p (some saved) [applying p ending] (some saved)
  /-- The settings could not be read. -/
  | unread {ending : Ending (Except BridgeError ProxySettings)} :
      read? (reading ending : Event (Timed (Host χ))) = none → Change p none [reading ending] none
  /-- The settings are read, saved and changed. -/
  | first {current : ProxySettings} {took : Duration} {ending : Ending (Except BridgeError Unit)} :
      Change p none [reading ⟨took, .replied (.ok current)⟩, applying p ending] (some current)

/-- What the hook does at the end of a run. -/
inductive Restore : Backup → History (Timed (Host χ)) → Backup → Prop where
  | idle : Restore none [] none
  | again {saved : ProxySettings} {ending : Ending (Except BridgeError Unit)} :
      Restore (some saved) [applying saved ending] none

/-- A call that is waited for is made first; what follows depends on the reply, and without a reply
nothing follows. -/
theorem runs_awaited {ctx : Context Backup} {c : Call} {next : Except BridgeError c.Value → Doing χ}
    {h : History (Timed (Host χ))} {left : Report × Memory Backup}
    (hrun : (awaited ctx c next).Runs h left) :
    ∃ (ending : Ending (Except BridgeError c.Value)) (h' : History (Timed (Host χ))),
      h = ⟨.ask (.inl c) none false, ending⟩ :: h' ∧
        ((∃ reply, ending.outcome = .replied reply ∧ (next reply).Runs h' left) ∨
          (∀ reply, ending.outcome ≠ .replied reply) ∧ h' = [] ∧ left.2 = ctx.memory) := by
  rcases Proc.runs_call_iff.1 hrun with ⟨ending, h', rfl, hrest⟩
  refine ⟨ending, h', rfl, ?_⟩
  rw [Proc.done_bind] at hrest
  obtain ⟨took, outcome⟩ := ending
  cases outcome with
  | replied reply => exact .inl ⟨reply, rfl, hrest⟩
  | expired =>
      obtain ⟨rfl, rfl⟩ := Proc.runs_done_iff.1 hrest
      exact .inr ⟨by simp, rfl, rfl⟩
  | stopped =>
      obtain ⟨rfl, rfl⟩ := Proc.runs_done_iff.1 hrest
      exact .inr ⟨by simp, rfl, rfl⟩
  | faulted f =>
      obtain ⟨rfl, rfl⟩ := Proc.runs_done_iff.1 hrest
      exact .inr ⟨by simp, rfl, rfl⟩

/-- `PROXY` applies its settings by one call, and saves nothing then. -/
theorem runs_changeProxy {ctx : Context Backup} {p : ProxySettings} {h : History (Timed (Host χ))}
    {left : Report × Memory Backup} (hrun : (changeProxy ctx p).Runs h left) :
    ∃ ending, h = [applying p ending] ∧ left.2 = ctx.memory := by
  rcases runs_awaited hrun with ⟨ending, h', rfl, ⟨reply, -, hreplied⟩ | ⟨-, rfl, hkept⟩⟩
  · cases reply with
    | ok v =>
        obtain ⟨rfl, rfl⟩ := Proc.runs_done_iff.1 hreplied
        exact ⟨ending, rfl, rfl⟩
    | error e =>
        obtain ⟨rfl, rfl⟩ := Proc.runs_done_iff.1 hreplied
        exact ⟨ending, rfl, rfl⟩
  · exact ⟨ending, rfl, hkept⟩

/-- `PROXY` refuses its parameters, or changes the proxy. -/
theorem runs_proxyHandler {ctx : Context Backup} {h : History (Timed (Host χ))}
    {left : Report × Memory Backup} (hrun : (proxyHandler ctx).Runs h left) :
    h = [] ∧ left.2 = ctx.memory ∨
      ∃ p, proxyRequest ctx.invocation = .ok p ∧ Change p ctx.memory.shared h left.2.shared := by
  unfold proxyHandler at hrun
  cases hrequest : proxyRequest ctx.invocation with
  | error e =>
      rw [hrequest] at hrun
      obtain ⟨rfl, rfl⟩ := Proc.runs_done_iff.1 hrun
      exact .inl ⟨rfl, rfl⟩
  | ok p =>
      rw [hrequest] at hrun
      refine .inr ⟨p, rfl, ?_⟩
      simp only [Context.withValue] at hrun
      cases hshared : ctx.memory.shared with
      -- The settings were saved by an earlier command, so that they are not read again.
      | some saved =>
          rw [hshared] at hrun
          obtain ⟨ending, rfl, hkept⟩ := runs_changeProxy hrun
          rw [hkept, hshared]
          exact .again
      | none =>
          rw [hshared] at hrun
          rcases runs_awaited hrun with
            ⟨ending, h', rfl, ⟨reply, hreply, hrest⟩ | ⟨hnone, rfl, hkept⟩⟩
          · obtain ⟨took, outcome⟩ := ending
            cases hreply
            cases reply with
            | ok current =>
                obtain ⟨ending, rfl, hkept⟩ := runs_changeProxy hrest
                rw [hkept]
                exact .first
            | error e =>
                obtain ⟨rfl, rfl⟩ := Proc.runs_done_iff.1 hrest
                rw [hshared]
                exact .unread rfl
          · -- The browser did not tell its settings, and nothing was changed.
            rw [hkept, hshared]
            exact .unread (read?_reading fun q => hnone (.ok q))

/-- The hook puts back what is saved by one call, and makes none if nothing is saved. -/
theorem runs_restoreProxy {b : Backup} {h : History (Timed (Host χ))} {left : HookReport × Backup}
    (hrun : (restoreProxy b).Runs h left) : Restore b h left.2 := by
  cases b with
  | none =>
      obtain ⟨rfl, rfl⟩ := Proc.runs_done_iff.1 hrun
      exact .idle
  | some saved =>
      rcases Proc.runs_call_iff.1 hrun with ⟨⟨took, outcome⟩, h', rfl, hrest⟩
      rw [Proc.done_bind] at hrest
      have hend : h' = [] ∧ left.2 = none := by
        match outcome with
        | .replied (.ok _) | .replied (.error _) | .expired | .stopped | .faulted _ =>
            obtain ⟨rfl, rfl⟩ := Proc.runs_done_iff.1 hrest
            exact ⟨rfl, rfl⟩
      rw [hend.1, hend.2]
      exact .again

/-! ## What is kept until the hook runs -/

/-- The settings from before the run are kept: they are saved, or else in force. Settings are read when
none are saved, and then they are. -/
structure Retains (b : Backup) (p : ProxySettings) (h : History (Timed (Host χ))) (b' : Backup) :
    Prop where
  original : b'.getD (proxyAfter p h) = b.getD p
  counted : (reads h).length + b.isSome.toNat = b'.isSome.toNat

/-- Nothing is lost where the proxy is left alone. -/
theorem Away.retains {h : History (Timed (Host χ))} (haway : Away h) (b : Backup)
    (p : ProxySettings) : Retains b p h b where
  original := by rw [haway.proxyAfter_eq]
  counted := by rw [haway.reads_eq, List.length_nil, Nat.zero_add]

/-- What two histories keep, they keep one behind the other. -/
theorem Retains.append {b between b' : Backup} {p : ProxySettings}
    {h₁ h₂ : History (Timed (Host χ))} (hfirst : Retains b p h₁ between)
    (hsecond : Retains between (proxyAfter p h₁) h₂ b') : Retains b p (h₁ ++ h₂) b' where
  original := by rw [proxyAfter_append, hsecond.original, hfirst.original]
  counted := by
    have h₁ := hfirst.counted
    have h₂ := hsecond.counted
    rw [reads_append, List.length_append]
    omega

/-- A `PROXY` keeps the settings from before the run, if what it reads is true. -/
theorem Change.retains {q p : ProxySettings} {b b' : Backup} {h : History (Timed (Host χ))}
    (hchange : Change q b h b') (htrue : Truthful p h) : Retains b p h b' := by
  cases hchange with
  | again => exact ⟨rfl, rfl⟩
  | unread hread => exact ⟨rfl, by simp [reads, hread]⟩
  | first =>
      -- What is saved is what was read, and what was read was in force.
      refine ⟨?_, rfl⟩
      exact htrue.1 _ rfl

/-- The clock is read before the change and after it. -/
theorem Change.retains_between {q p : ProxySettings} {b b' : Backup} {h : History (Timed (Host χ))}
    {before after : Reading} (hchange : Change q b h b')
    (htrue : Truthful p ([⟨.clock, before⟩] ++ h ++ [⟨.clock, after⟩])) :
    Retains b p ([⟨.clock, before⟩] ++ h ++ [⟨.clock, after⟩]) b' := by
  rw [truthful_append_iff, truthful_append_iff] at htrue
  have hchanged := hchange.retains htrue.1.2
  exact (((away_clock before).retains b p).append hchanged).append ((away_clock after).retains b' _)

/-- The hook leaves nothing saved, whether it succeeded or not. -/
theorem Restore.backup_eq {b b' : Backup} {h : History (Timed (Host χ))} (hrestore : Restore b h b') :
    b' = none := by
  cases hrestore <;> rfl

/-- Without saved settings there is nothing for the hook to do. -/
theorem Restore.eq_nil {b' : Backup} {h : History (Timed (Host χ))} (hrestore : Restore none h b') :
    h = [] := by
  cases hrestore
  rfl

/-- The hook never reads the proxy. -/
theorem Restore.reads_eq {b b' : Backup} {h : History (Timed (Host χ))} (hrestore : Restore b h b') :
    reads h = [] := by
  cases hrestore <;> rfl

/-- A restore that does not fail puts the saved settings in force. -/
theorem Restore.proxyAfter_eq {b b' : Backup} {h : History (Timed (Host χ))}
    (hrestore : Restore b h b') (hdone : ∀ e ∈ h, applied? e ≠ none) (p : ProxySettings) :
    proxyAfter p h = b.getD p := by
  cases hrestore with
  | idle => rfl
  | @again saved ending =>
      rcases applied?_applying saved ending with hfailed | happlied
      · exact absurd hfailed (hdone _ (by simp))
      · -- What was in force before does not matter.
        rw [proxyAfter_cons, happlied]
        rfl

/-! ## Engines with the browser commands -/

/-- A command that has nothing to do with the proxy. -/
def IsAloof (handler : BrowserHandler χ) : Prop :=
  ∀ ctx, KeepsAway (fun left => left.2.shared = ctx.memory.shared) (handler ctx)

/-- A tidy command has nothing to do with the proxy. -/
theorem IsTidy.isAloof {handler : BrowserHandler χ} (htidy : IsTidy handler) : IsAloof handler :=
  fun ctx => (htidy ctx).mono (fun _ haway => haway) fun _ hleft => hleft.1

/-- An engine that has nothing to do with the proxy. -/
structure IsAside (e : Engine (Host χ) Backup) : Prop where
  commands : ∀ name handler, e.registry.find? name = some handler → IsAloof handler
  hooks : ∀ name hook, (name, hook) ∈ e.cleanup.hooks →
    name ≠ restoreHookName ∧ ∀ b, KeepsAway (fun left => left.2 = b) (hook b)
  rows : ∀ load, e.datasource = some load → ∀ i vars, KeepsAway (fun _ => True) (load i vars)
  profiles : ∀ append, e.sink = some append →
    ∀ target contents, KeepsAway (fun _ => True) (append target contents)

section Installed

variable {e : Engine (Host χ) Backup}

/-- Of all commands only `PROXY` has to do with the proxy. -/
theorem IsAside.isAloof_or_proxy (haside : IsAside e) {name : String} {handler : BrowserHandler χ}
    (hfind : (install e).registry.find? name = some handler) :
    IsAloof handler ∨ Text.upper name = "PROXY" ∧ handler = proxyHandler := by
  rw [find?_install, Option.or_eq_some_iff, Option.map_eq_some_iff] at hfind
  rcases hfind with ⟨entry, hentry, rfl⟩ | ⟨-, hown⟩
  · have hname : entry.1 = Text.upper name := by simpa using List.find?_some hentry
    rcases isTidy_or_proxy_of_mem (List.mem_of_find?_eq_some hentry) with htidy | rfl
    · exact .inl htidy.isAloof
    · exact .inr ⟨hname.symm, rfl⟩
  · exact .inl (haside.commands name handler hown)

/-- The hook stands behind those of the engine. -/
theorem IsAside.hooks_install (haside : IsAside e) :
    (install e).cleanup.hooks = e.cleanup.hooks ++ [(restoreHookName, restoreProxy)] := by
  have hnew : ¬e.cleanup.contains restoreHookName = true := by
    intro hcontains
    obtain ⟨⟨name, hook⟩, hmem, hname⟩ := List.any_eq_true.1 hcontains
    exact (haside.hooks name hook hmem).1 (by simpa using hname)
  simp [install, Cleanup.register, hnew]

theorem IsAside.names_install (haside : IsAside e) :
    (install e).cleanup.names = e.cleanup.names ++ [restoreHookName] := by
  simp [Cleanup.names, haside.hooks_install]

/-- No hook of the engine has its name. -/
theorem IsAside.restoreHookName_notMem (haside : IsAside e) : restoreHookName ∉ e.cleanup.names := by
  intro hmem
  obtain ⟨⟨name, hook⟩, hentry, hname⟩ := List.mem_map.1 hmem
  exact (haside.hooks name hook hentry).1 hname

/-- The hook is found under its name. -/
theorem IsAside.find?_restore (haside : IsAside e) :
    (install e).cleanup.find? restoreHookName = some restoreProxy := by
  have hnone : e.cleanup.hooks.find? (·.1 == restoreHookName) = none := by
    rw [List.find?_eq_none]
    rintro ⟨name, hook⟩ hmem hname
    exact (haside.hooks name hook hmem).1 (by simpa using hname)
  simp [Cleanup.find?, haside.hooks_install, hnone]

/-- All other hooks leave the proxy alone. -/
theorem IsAside.keepsAway_hook (haside : IsAside e) {name : String} {hook : Hook (Host χ) Backup}
    (hother : name ≠ restoreHookName) (hfind : (install e).cleanup.find? name = some hook)
    (b : Backup) : KeepsAway (fun left => left.2 = b) (hook b) := by
  rw [Cleanup.find?, Option.map_eq_some_iff] at hfind
  obtain ⟨⟨name', hook'⟩, hentry, rfl⟩ := hfind
  have hname : name' = name := by simpa using List.find?_some hentry
  have hmem := List.mem_of_find?_eq_some hentry
  rw [haside.hooks_install, List.mem_append, List.mem_singleton] at hmem
  rcases hmem with hmem | hlast
  · exact (haside.hooks name' hook' hmem).2 b
  · cases hlast
    exact absurd hname.symm hother

/-! ## Jobs -/

def IsRestore (job : (install e).Job) : Prop :=
  Run.hookName? job.event = some restoreHookName

/-- A `PROXY` whose parameters pass its check. -/
def ChangesProxy (job : (install e).Job) : Prop :=
  ∃ c m now rest p, job.event.1 = .dispatch c m ∧ job.calls = ⟨.clock, now⟩ :: rest ∧
    c.flaw = none ∧ Text.upper c.name = "PROXY" ∧
    proxyRequest (.ofCommand m.vars now.date c) = .ok p

/-- The calls of the hook that puts the proxy back are as they should be. -/
theorem IsAside.restores (haside : IsAside e) {job : (install e).Job} {b b' : Backup}
    (hrestore : IsRestore job) (hands : Run.Hands job.event b b') : Restore b job.calls b' := by
  obtain ⟨⟨c, reply⟩, calls, hserved⟩ := job
  cases c with
  | cleanUp name shared =>
      obtain rfl : name = restoreHookName := Option.some.inj hrestore
      obtain ⟨rfl, rfl⟩ := hands
      simp only [Engine.serve, haside.find?_restore] at hserved
      exact runs_restoreProxy hserved
  | _ => nomatch hrestore

/-- A dispatched command leaves the proxy alone and what is saved as it is, or it is a `PROXY` whose
parameters pass its check. -/
theorem IsAside.dispatch_away_or_changes (haside : IsAside e) {c : Command} {m : Memory Backup}
    {calls : History (Timed (Host χ))} {d : Dispatched Backup}
    (hserved : ((install e).dispatch c m).Runs calls d) :
    Away calls ∧ d.memory.shared = m.shared ∨
      ∃ before after h p, calls = [⟨.clock, before⟩] ++ h ++ [⟨.clock, after⟩] ∧
        c.flaw = none ∧ Text.upper c.name = "PROXY" ∧
        proxyRequest (.ofCommand m.vars before.date c) = .ok p ∧
        Change p m.shared h d.memory.shared := by
  rcases Engine.runs_dispatch_iff.1 hserved with ⟨before, after, h, rfl, hdispatched, -⟩
  have haway : Away h → Away (⟨.clock, before⟩ :: (h ++ [⟨.clock, after⟩])) := fun hcalls =>
    (away_clock before).append (hcalls.append (away_clock after))
  rcases Registry.runs_dispatch hdispatched with
    ⟨rfl, hkept⟩ | ⟨handler, report, hflaw, hfind, hhandled, -⟩
  · exact .inl ⟨haway away_nil, congrArg Memory.shared hkept⟩
  · rcases haside.isAloof_or_proxy hfind with haloof | ⟨hname, rfl⟩
    · obtain ⟨hcalls, hshared⟩ := (haloof _).of_runs hhandled
      exact .inl ⟨haway hcalls, hshared⟩
    · rcases runs_proxyHandler hhandled with ⟨rfl, hkept⟩ | ⟨p, hrequest, hchange⟩
      · exact .inl ⟨haway away_nil, congrArg Memory.shared hkept⟩
      · exact .inr ⟨before, after, h, p, rfl, hflaw, hname, hrequest, hchange⟩

/-- Every other call of a run keeps away from the proxy, or is a `PROXY` that changes it. -/
theorem IsAside.away_or_changes (haside : IsAside e) {job : (install e).Job} {b b' : Backup}
    (hother : ¬IsRestore job) (hands : Run.Hands job.event b b') :
    Away job.calls ∧ b' = b ∨
      ChangesProxy job ∧ ∃ before after h p,
        job.calls = [⟨.clock, before⟩] ++ h ++ [⟨.clock, after⟩] ∧ Change p b h b' := by
  obtain ⟨⟨c, reply⟩, calls, hserved⟩ := job
  -- Only a command or a hook is given what is saved; the other calls just must not touch the proxy.
  cases c with
  | stopRequested =>
      have hkeeps : KeepsAway (fun _ => True) (Timed.stopRequested : Proc (Timed (Host χ)) Bool) :=
        ⟨rfl, fun _ => trivial⟩
      exact .inl ⟨(hkeeps.of_runs hserved).1, hands⟩
  | load i vars =>
      refine .inl ⟨?_, hands⟩
      cases hsource : e.datasource with
      | none =>
          simp only [Engine.serve, install, hsource] at hserved
          obtain ⟨rfl, -⟩ := Proc.runs_done_iff.1 hserved
          exact away_nil
      | some load =>
          simp only [Engine.serve, install, hsource] at hserved
          exact ((haside.rows load hsource i vars).of_runs hserved).1
  | append target contents =>
      refine .inl ⟨?_, hands⟩
      cases hsink : e.sink with
      | none =>
          simp only [Engine.serve, install, hsink] at hserved
          obtain ⟨rfl, -⟩ := Proc.runs_done_iff.1 hserved
          exact away_nil
      | some append =>
          simp only [Engine.serve, install, hsink] at hserved
          exact ((haside.profiles append hsink target contents).of_runs hserved).1
  | cleanUp name shared =>
      obtain ⟨rfl, rfl⟩ := hands
      have hname : name ≠ restoreHookName := fun h => hother (congrArg some h)
      cases hhook : (install e).cleanup.find? name with
      | none =>
          simp only [Engine.serve, hhook] at hserved
          obtain ⟨rfl, rfl⟩ := Proc.runs_done_iff.1 hserved
          exact .inl ⟨away_nil, rfl⟩
      | some hook =>
          simp only [Engine.serve, hhook] at hserved
          exact .inl ((haside.keepsAway_hook hname hhook shared).of_runs hserved)
  | dispatch c m =>
      obtain ⟨rfl, rfl⟩ := hands
      rcases haside.dispatch_away_or_changes hserved with
        haway | ⟨before, after, h, p, rfl, hflaw, hname, hrequest, hchange⟩
      · exact .inl haway
      · refine .inr ⟨⟨c, m, before, _, p, rfl, rfl, hflaw, hname, hrequest⟩, ?_⟩
        exact ⟨before, after, h, p, rfl, hchange⟩

/-- All jobs up to the hook keep the settings from before the run. -/
theorem IsAside.retains_jobs (haside : IsAside e) {jobs : List (install e).Job} {b b' : Backup}
    {p : ProxySettings} (hothers : ∀ job ∈ jobs, ¬IsRestore job)
    (hthreads : Run.Threads b (jobs.map Proc.Job.event) b')
    (htrue : Truthful p (jobs.flatMap Proc.Job.calls)) :
    Retains b p (jobs.flatMap Proc.Job.calls) b' := by
  induction jobs generalizing b p with
  | nil =>
      cases hthreads
      exact away_nil.retains b' p
  | cons job jobs ih =>
      rw [List.forall_mem_cons] at hothers
      rw [List.flatMap_cons, truthful_append_iff] at htrue
      -- The proxy and what is saved change from job to job, so the induction is general in both.
      obtain ⟨between, hands, hthreads⟩ := hthreads
      have hrest := ih hothers.2 hthreads htrue.2
      rw [List.flatMap_cons]
      refine Retains.append ?_ hrest
      rcases haside.away_or_changes hothers.1 hands with
        ⟨haway, rfl⟩ | ⟨-, before, after, h, q, hcalls, hchange⟩
      · exact haway.retains _ p
      · rw [hcalls] at htrue ⊢
        exact hchange.retains_between htrue.1

/-- Without a `PROXY` that changes the proxy, no call has to do with it. -/
theorem IsAside.away_jobs (haside : IsAside e) {jobs : List (install e).Job} {b b' : Backup}
    (hothers : ∀ job ∈ jobs, ¬IsRestore job) (hnone : ∀ job ∈ jobs, ¬ChangesProxy job)
    (hthreads : Run.Threads b (jobs.map Proc.Job.event) b') :
    Away (jobs.flatMap Proc.Job.calls) ∧ b' = b := by
  induction jobs generalizing b with
  | nil =>
      cases hthreads
      exact ⟨away_nil, rfl⟩
  | cons job jobs ih =>
      rw [List.forall_mem_cons] at hothers hnone
      obtain ⟨between, hands, hthreads⟩ := hthreads
      obtain ⟨hrest, rfl⟩ := ih hothers.2 hnone.2 hthreads
      rcases haside.away_or_changes hothers.1 hands with ⟨haway, rfl⟩ | ⟨hchanges, -⟩
      · exact ⟨haway.append hrest, rfl⟩
      · exact absurd hchanges hnone.1

end Installed
end Browser
end MacroReplay
