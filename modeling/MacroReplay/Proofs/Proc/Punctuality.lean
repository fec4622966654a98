import MacroReplay.Proofs.Proc.Horizon

/-!
# Punctual processes

A process that waits may be looked at while time passes. As long as the call that it waits for is not
over, the passing of time changes nothing for it, and it comes to its end when it would have anyway.

* `Timeline.finished_resume_iff` — a process has ended at a moment exactly if its end comes before;
* `Timeline.resume_later` — a process that is looked at goes on as one that is not;
* `Timeline.Waiting.Punctual` — a process that waits for a call which is not overdue.
-/

namespace MacroReplay
namespace Timeline

variable {ι : Interface} {σ α : Type} {w : World ι σ}

/-- A process that waits at a moment comes to its end then or later. -/
theorem le_now_of_resume_waiting {moment : Nat} {q q' : Waiting ι σ α} {s s₁ s₂ : Scene σ} {a : α}
    (hwaits : resume w (some moment) q s = .waiting q' s₁)
    (hends : resume w none q' s₁ = .finished a s₂) : moment ≤ s₂.now := by
  rw [resume_eq, dueBefore_none] at hends
  cases ht : q'.end? s₁ with
  | none =>
      rw [ht] at hends
      nomatch hends
  | some t =>
      have hrest : proceed w none (q'.next t.reply) (t.scene s₁.stopRequested) = .finished a s₂ := by
        rw [ht] at hends
        exact hends
      have hnow := now_le_proceed w none (q'.next t.reply) (t.scene s₁.stopRequested)
      rw [hrest] at hnow
      exact Nat.le_trans (moment_of_resume_waiting hwaits ht) hnow

/-- A process comes to its end before a moment exactly if it has ended when it is played up to there. -/
theorem finished_resume_iff {moment : Nat} {q : Waiting ι σ α} {s s' : Scene σ} {a : α} :
    resume w (some moment) q s = .finished a s' ↔
      resume w none q s = .finished a s' ∧ s'.now < moment := by
  rw [← resume_goOnTo (notBefore_none moment) q s]
  constructor
  · intro hends
    refine ⟨by rw [hends]; rfl, ?_⟩
    rw [resume_eq] at hends
    split at hends
    · next t hdue =>
        have hbefore := isBefore_proceed w (q.next t.reply)
          (s := t.scene s.stopRequested) (isBefore_of_dueBefore hdue).2
        rw [hends] at hbefore
        exact of_decide_eq_true hbefore
    · nomatch hends
  · rintro ⟨hends, hnow⟩
    cases hfirst : resume w (some moment) q s with
    | finished b s₁ =>
        rw [hfirst] at hends
        exact hends
    | waiting q' s₁ =>
        rw [hfirst] at hends
        have hlate := le_now_of_resume_waiting hfirst hends
        omega

/-! ## The end of a call -/

def Waiting.IsCutShort (q : Waiting ι σ α) (s : Scene σ) : Prop :=
  s.stopRequested = true ∧ (interruption 0 q.call).isSome = true

/-- Whether a stop ends a call does not depend on how long it took so far. -/
theorem isSome_interruption (took : Nat) (c : Timed.Call ι) :
    (interruption took c).isSome = (interruption 0 c).isSome := by
  cases c with
  | clock | stopRequested | pause => simp [interruption]
  | ask c limit heedsStop => cases heedsStop <;> simp [interruption]

/-- A call that is cut short ends now. -/
theorem end?_of_isCutShort {q : Waiting ι σ α} {s : Scene σ} (hcut : q.IsCutShort s) :
    ∃ t, q.end? s = some t ∧ t.moment = s.now := by
  have hsome : (interruption (s.now - q.since) q.call).isSome = true := by
    rw [isSome_interruption]
    exact hcut.2
  obtain ⟨reply, hreply⟩ := Option.isSome_iff_exists.1 hsome
  rw [Waiting.end?, if_pos hcut.1, hreply]
  exact ⟨_, rfl, rfl⟩

/-- Any other call ends when it would have ended. -/
theorem end?_of_not_isCutShort {q : Waiting ι σ α} {s : Scene σ} (hcut : ¬q.IsCutShort s) :
    q.end? s = q.ends := by
  rw [Waiting.end?]
  split
  · next reply hreply =>
      split at hreply
      · next hstop =>
          have hheeds : (interruption 0 q.call).isSome = true := by
            rw [← isSome_interruption (s.now - q.since), hreply]
            rfl
          exact absurd ⟨hstop, hheeds⟩ hcut
      · cases hreply
  · rfl

/-- Time that passes until the call ends does not change its end. -/
theorem end?_later {q : Waiting ι σ α} {s : Scene σ} {moment : Nat} (hnow : s.now ≤ moment)
    (hdue : dueBefore (some moment) (q.end? s) = none) :
    q.end? { s with now := moment } = q.end? s := by
  by_cases hcut : q.IsCutShort s
  · obtain ⟨t, hend, hmoment⟩ := end?_of_isCutShort hcut
    rw [hend] at hdue
    have hlate : moment ≤ t.moment := by simpa [dueBefore, Option.filter, isBefore] using hdue
    obtain rfl : moment = s.now := by omega
    rfl
  · rw [end?_of_not_isCutShort hcut, end?_of_not_isCutShort (s := { s with now := moment }) hcut]

def Status.at (moment : Nat) : Status ι σ α → Status ι σ α
  | .finished a s => .finished a { s with now := moment }
  | .waiting q s => .waiting q { s with now := moment }

/-- While nothing is due, the clock may be moved on without a difference. -/
theorem resume_later {q : Waiting ι σ α} {s : Scene σ} {moment : Nat} (hnow : s.now ≤ moment)
    (hdue : dueBefore (some moment) (q.end? s) = none) (horizon : Option Nat) (later : Nat) :
    (resume w horizon q { s with now := moment }).at later = (resume w horizon q s).at later := by
  rw [resume_eq, resume_eq, end?_later hnow hdue]
  cases dueBefore horizon (q.end? s) <;> rfl

def Waiting.Punctual (q : Waiting ι σ α) (s : Scene σ) : Prop :=
  ∀ t, q.end? s = some t → s.now ≤ t.moment

/-- A stop does not put the end of a call into the past. -/
theorem Waiting.Punctual.stop {q : Waiting ι σ α} {s : Scene σ} (hq : q.Punctual s) :
    q.Punctual { s with stopRequested := true } := by
  intro t hend
  by_cases hcut : q.IsCutShort { s with stopRequested := true }
  · obtain ⟨t', hend', hmoment⟩ := end?_of_isCutShort hcut
    obtain rfl : t' = t := Option.some.inj (hend'.symm.trans hend)
    exact Nat.le_of_eq hmoment.symm
  · have hcalm : ¬q.IsCutShort s := fun h => hcut ⟨rfl, h.2⟩
    rw [end?_of_not_isCutShort hcut] at hend
    exact hq t (by rw [end?_of_not_isCutShort hcalm, hend])

/-- The clock may be moved on as far as the end of the call. -/
theorem Waiting.punctual_later {q : Waiting ι σ α} {s : Scene σ} {moment : Nat}
    (hmoment : ∀ t, q.end? s = some t → moment ≤ t.moment) : q.Punctual { s with now := moment } := by
  intro t hend
  by_cases hcut : q.IsCutShort { s with now := moment }
  · obtain ⟨t', hend', hnow⟩ := end?_of_isCutShort hcut
    obtain rfl : t' = t := Option.some.inj (hend'.symm.trans hend)
    exact Nat.le_of_eq hnow.symm
  · rw [end?_of_not_isCutShort hcut] at hend
    exact hmoment t (by rw [end?_of_not_isCutShort (s := s) hcut, hend])

/-- A call that has just begun ends now or later. -/
theorem punctual_of_settle {p : Proc (Timed ι) α} {s s' : Scene σ} {q : Waiting ι σ α}
    (hsettle : (settle w p s).2 = .waiting q s') : q.Punctual s' := by
  intro t hend
  induction p with
  | done a => nomatch hsettle
  | call c next ih =>
      cases c with
      | clock => exact ih _ hsettle
      | stopRequested => exact ih _ hsettle
      | pause | ask =>
          cases hsettle
          rw [end?_begun] at hend
          exact now_le_of_turn (s := s) hend

end Timeline
end MacroReplay
