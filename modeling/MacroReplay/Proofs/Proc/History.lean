import MacroReplay.Proc.Basic

/-!
# Histories of processes

A history lists the calls that a process made, each with its reply.

* `Proc.Runs p h a` — the process `p` may have the history `h` and end with `a`; nothing is assumed about
  the replies, so a statement about all histories is one about all surroundings;
* `Proc.runs_bind_iff` — the histories of a process followed by another;
* `Proc.exists_runs` — a process has a history, and so ends, whatever it is replied.
-/

namespace MacroReplay

abbrev Event (ι : Interface) := (c : ι.Call) × ι.Reply c

abbrev History (ι : Interface) := List (Event ι)

namespace Proc

variable {ι : Interface} {α β : Type}

/-- `p.Runs h a` means that `p` may make the calls of `h` with these replies and end with `a`. -/
inductive Runs : Proc ι α → History ι → α → Prop where
  | done (a : α) : Runs (.done a) [] a
  | call {c : ι.Call} {next : ι.Reply c → Proc ι α} {h : History ι} {a : α} (reply : ι.Reply c) :
      Runs (next reply) h a → Runs (.call c next) (⟨c, reply⟩ :: h) a

theorem runs_done_iff {a b : α} {h : History ι} :
    (Proc.done a : Proc ι α).Runs h b ↔ h = [] ∧ b = a := by
  constructor
  · intro hrun
    cases hrun
    exact ⟨rfl, rfl⟩
  · rintro ⟨rfl, rfl⟩
    exact .done b

theorem runs_call_iff {c : ι.Call} {next : ι.Reply c → Proc ι α} {h : History ι} {a : α} :
    (Proc.call c next).Runs h a ↔ ∃ reply h', h = ⟨c, reply⟩ :: h' ∧ (next reply).Runs h' a := by
  constructor
  · intro hrun
    cases hrun with
    | call reply hnext => exact ⟨reply, _, rfl, hnext⟩
  · rintro ⟨reply, h', rfl, hnext⟩
    exact .call reply hnext

/-- A process that is replied the same makes the same calls and ends the same. -/
theorem Runs.unique {p : Proc ι α} {h : History ι} {a b : α} (ha : p.Runs h a) (hb : p.Runs h b) :
    a = b := by
  induction ha with
  | done a => exact (runs_done_iff.1 hb).2.symm
  | call reply _ ih =>
      rcases runs_call_iff.1 hb with ⟨reply', h', hcons, hnext⟩
      cases hcons
      exact ih hnext

/-- A history of a process followed by another is one of the first and then one of the second. -/
theorem runs_bind_iff {p : Proc ι α} {f : α → Proc ι β} {h : History ι} {b : β} :
    (p.bind f).Runs h b ↔ ∃ h₁ h₂ a, h = h₁ ++ h₂ ∧ p.Runs h₁ a ∧ (f a).Runs h₂ b := by
  induction p generalizing h with
  | done a =>
      constructor
      · intro hrun
        exact ⟨[], h, a, rfl, .done a, hrun⟩
      · rintro ⟨h₁, h₂, a', rfl, hdone, hrun⟩
        obtain ⟨rfl, rfl⟩ := runs_done_iff.1 hdone
        exact hrun
  | call c next ih =>
      constructor
      · intro hrun
        rcases runs_call_iff.1 hrun with ⟨reply, h', rfl, hnext⟩
        rcases (ih reply).1 hnext with ⟨h₁, h₂, a, rfl, hfirst, hsecond⟩
        exact ⟨⟨c, reply⟩ :: h₁, h₂, a, rfl, .call reply hfirst, hsecond⟩
      · rintro ⟨h₁, h₂, a, rfl, hfirst, hsecond⟩
        rcases runs_call_iff.1 hfirst with ⟨reply, h', rfl, hnext⟩
        exact .call reply ((ih reply).2 ⟨h', h₂, a, rfl, hnext, hsecond⟩)

/-- Surroundings whose replies may depend on everything before lead every process to an end. -/
theorem exists_runs (reply : History ι → (c : ι.Call) → ι.Reply c) (p : Proc ι α) :
    ∃ h a, p.Runs h a ∧ ∀ h₁ c r h₂, h = h₁ ++ ⟨c, r⟩ :: h₂ → r = reply h₁ c := by
  induction p generalizing reply with
  | done a => exact ⟨[], a, .done a, by simp⟩
  | call c next ih =>
      -- Behind the first call the replies depend on a past that begins with it.
      rcases ih (reply [] c) (fun past => reply (⟨c, reply [] c⟩ :: past)) with ⟨h, a, hrun, hreply⟩
      refine ⟨⟨c, reply [] c⟩ :: h, a, .call _ hrun, ?_⟩
      intro h₁ c' r h₂ hsplit
      cases h₁ with
      | nil =>
          cases hsplit
          rfl
      | cons e h₁ =>
          cases hsplit
          exact hreply h₁ c' r h₂ rfl

end Proc
end MacroReplay
