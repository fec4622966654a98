import MacroReplay.Proofs.Proc.History

/-!
# Contracts of processes

A contract says which calls a process may make and what it may end with, whatever it is replied. It is
put together along the process: a contract of a process followed by another comes from contracts of both.

* `Proc.Obeys` — the contract;
* `Proc.Obeys.bind`, `Proc.Obeys.mono` — how contracts are put together and weakened;
* `Proc.Obeys.of_runs` — what it says about every history.
-/

namespace MacroReplay
namespace Proc

variable {ι : Interface} {α β : Type}

/-- Whatever it is replied, the process makes only calls that satisfy `C`, and what it ends with
satisfies `Q`. -/
def Obeys (C : ι.Call → Prop) (Q : α → Prop) : Proc ι α → Prop
  | .done a => Q a
  | .call c next => C c ∧ ∀ reply, (next reply).Obeys C Q

variable {C : ι.Call → Prop}

/-- A process may rely on what the one before it ended with. -/
theorem Obeys.bind {Q : β → Prop} {p : Proc ι α} {f : α → Proc ι β}
    (hp : p.Obeys C fun a => (f a).Obeys C Q) : (p.bind f).Obeys C Q := by
  induction p with
  | done a => exact hp
  | call c next ih =>
      refine ⟨hp.1, ?_⟩
      intro reply
      exact ih reply (hp.2 reply)

/-- A contract may be loosened, in its calls and in its end. -/
theorem Obeys.mono {C' : ι.Call → Prop} {Q Q' : α → Prop} {p : Proc ι α} (hp : p.Obeys C Q)
    (hcalls : ∀ c, C c → C' c) (hend : ∀ a, Q a → Q' a) : p.Obeys C' Q' := by
  induction p with
  | done a => exact hend a hp
  | call c next ih =>
      refine ⟨hcalls c hp.1, ?_⟩
      intro reply
      exact ih reply (hp.2 reply)

/-- A process keeps to its contract in every history. -/
theorem Obeys.of_runs {Q : α → Prop} {p : Proc ι α} {h : History ι} {a : α} (hp : p.Obeys C Q)
    (hrun : p.Runs h a) : (∀ e ∈ h, C e.1) ∧ Q a := by
  induction hrun with
  | done a => exact ⟨by simp, hp⟩
  | call reply hnext ih =>
      obtain ⟨hcalls, hend⟩ := ih (hp.2 reply)
      exact ⟨List.forall_mem_cons.2 ⟨hp.1, hcalls⟩, hend⟩

end Proc
end MacroReplay
