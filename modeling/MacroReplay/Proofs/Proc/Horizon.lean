import MacroReplay.Proofs.Proc.Interruption

/-!
# Up to a moment and beyond

A process may be played up to a moment and then further, and it may be told there that a stop was
requested. To say when it asked its surroundings for something, the surroundings keep a diary.

* `Timeline.proceed_goOnTo`, `Timeline.resume_goOnTo` — up to one horizon and then up to a later one is
  the same as in one go;
* `Timeline.stoppedAt` — a process, and a stop that is requested at a moment;
* `World.diary` — the same surroundings, with the moments at which they were asked;
* `Timeline.asked_proceed` — the moments that come into the diary up to a horizon;
* `Timeline.asked_beyond` — those that come into it behind the horizon.
-/

namespace MacroReplay

namespace Timeline

variable {ι : Interface} {σ α β : Type}

/-! ## Horizons -/

def Status.goOn (w : World ι σ) : Status ι σ α → Status ι σ α
  | .finished a s => .finished a s
  | .waiting q s => resume w none q s

theorem dueBefore_none {ρ : Type} (ends : Option (Turn σ ρ)) : dueBefore none ends = ends := by
  cases ends <;> rfl

/-- Goes on with a process from where it stands, up to a horizon. -/
def Status.goOnTo (w : World ι σ) (horizon : Option Nat) : Status ι σ α → Status ι σ α
  | .finished a s => .finished a s
  | .waiting q s => resume w horizon q s

def NotBefore (first : Nat) (horizon : Option Nat) : Prop :=
  ∀ moment, isBefore moment (some first) = true → isBefore moment horizon = true

theorem notBefore_none (first : Nat) : NotBefore first none :=
  fun _ _ => rfl

theorem notBefore_some {first horizon : Nat} (hle : first ≤ horizon) :
    NotBefore first (some horizon) := by
  intro moment hbefore
  have hlt : moment < first := of_decide_eq_true hbefore
  exact decide_eq_true (Nat.lt_of_lt_of_le hlt hle)

/-- What is due before the first horizon is due before the later one. -/
theorem NotBefore.dueBefore {first : Nat} {horizon : Option Nat} {ρ : Type}
    {ends : Option (Turn σ ρ)} {t : Turn σ ρ} (hlater : NotBefore first horizon)
    (hdue : dueBefore (some first) ends = some t) : Timeline.dueBefore horizon ends = some t := by
  obtain ⟨rfl, hbefore⟩ := isBefore_of_dueBefore hdue
  simp [Timeline.dueBefore, Option.filter, hlater _ hbefore]

/-- Up to a horizon and then up to a later one is the same as in one go. -/
theorem proceed_goOnTo {w : World ι σ} {first : Nat} {horizon : Option Nat}
    (hlater : NotBefore first horizon) (p : Proc (Timed ι) α) (s : Scene σ) :
    (proceed w (some first) p s).goOnTo w horizon = proceed w horizon p s := by
  induction p generalizing s with
  | done a => rfl
  | call c next ih =>
      cases hdue : dueBefore (some first) (turn w s c).ends with
      | none =>
          rw [proceed_of_pending hdue, Status.goOnTo, resume_eq, end?_begun, proceed]
          cases dueBefore horizon (turn w s c).ends <;> rfl
      | some t =>
          rw [proceed_of_due hdue, proceed_of_due (hlater.dueBefore hdue)]
          exact ih t.reply (t.scene s.stopRequested)

/-- A process that waits can be taken further in two steps as well. -/
theorem resume_goOnTo {w : World ι σ} {first : Nat} {horizon : Option Nat}
    (hlater : NotBefore first horizon) (q : Waiting ι σ α) (s : Scene σ) :
    (resume w (some first) q s).goOnTo w horizon = resume w horizon q s := by
  cases hdue : dueBefore (some first) (q.end? s) with
  | none =>
      rw [resume_eq w (some first), hdue]
      rfl
  | some t =>
      rw [resume_eq, hdue, resume_eq w horizon, hlater.dueBefore hdue]
      exact proceed_goOnTo hlater (q.next t.reply) (t.scene s.stopRequested)

theorem goOnTo_none (w : World ι σ) (status : Status ι σ α) : status.goOnTo w none = status.goOn w := by
  cases status <;> rfl

/-- A process can be cut at any horizon and played to its end from there. -/
theorem proceed_split (w : World ι σ) (horizon : Nat) (p : Proc (Timed ι) α) (s : Scene σ) :
    (proceed w (some horizon) p s).goOn w = proceed w none p s := by
  rw [← goOnTo_none]
  exact proceed_goOnTo (notBefore_none horizon) p s

/-- A process that ends before a horizon ends the same way without it. -/
theorem finished_of_horizon {w : World ι σ} {horizon : Nat} {p : Proc (Timed ι) α} {s s' : Scene σ}
    {a : α} (hbefore : proceed w (some horizon) p s = .finished a s') :
    proceed w none p s = .finished a s' := by
  rw [← proceed_split w horizon, hbefore]
  rfl

/-- A call is not over before it was made. -/
theorem proceed_call_of_le {w : World ι σ} {horizon : Nat} {c : Timed.Call ι}
    {next : (Timed ι).Reply c → Proc (Timed ι) α} {s : Scene σ} (hle : horizon ≤ s.now) :
    proceed w (some horizon) (.call c next) s =
      .waiting ⟨c, next, s.now, (turn w s c).ends⟩ { s with world := (turn w s c).begun } := by
  apply proceed_of_pending
  cases hends : (turn w s c).ends with
  | none => rfl
  | some t =>
      have hlate : horizon ≤ t.moment := Nat.le_trans hle (now_le_of_turn hends)
      simp [dueBefore, Option.filter, isBefore, hlate]

/-- A process that makes a call and comes to its end before the horizon stands before it. -/
theorem now_lt_of_finished_call {w : World ι σ} {horizon : Nat} {c : Timed.Call ι}
    {next : (Timed ι).Reply c → Proc (Timed ι) α} {s s' : Scene σ} {a : α}
    (hends : proceed w (some horizon) (.call c next) s = .finished a s') : s'.now < horizon := by
  by_cases hle : horizon ≤ s.now
  · rw [proceed_call_of_le hle] at hends
    nomatch hends
  · have hnow : isBefore s.now (some horizon) = true := by simpa [isBefore] using hle
    have hbefore := isBefore_proceed w (.call c next) hnow
    rw [hends] at hbefore
    exact of_decide_eq_true hbefore

/-- A process that waits at the horizon and comes to its end later goes on with the end of the call. -/
theorem end?_of_finished {w : World ι σ} {horizon : Nat} {p : Proc (Timed ι) α} {s s₁ s₂ : Scene σ}
    {q : Waiting ι σ α} {a : α} (hwaits : proceed w (some horizon) p s = .waiting q s₁)
    (hends : proceed w none p s = .finished a s₂) :
    ∃ t, q.end? s₁ = some t ∧ horizon ≤ t.moment ∧
      proceed w none (q.next t.reply) (t.scene s₁.stopRequested) = .finished a s₂ := by
  rw [← proceed_split w horizon, hwaits, Status.goOn, resume_eq, dueBefore_none] at hends
  cases ht : q.end? s₁ with
  | none =>
      rw [ht] at hends
      nomatch hends
  | some t =>
      rw [ht] at hends
      have hdue := end?_of_proceed_waiting hwaits
      rw [ht] at hdue
      have hlate : horizon ≤ t.moment := by
        simpa [dueBefore, Option.filter, isBefore] using hdue
      exact ⟨t, rfl, hlate, hends⟩

/-- A process that still waits at a horizon does not end before it. -/
theorem le_now_of_waiting {w : World ι σ} {horizon : Nat} {p : Proc (Timed ι) α} {s s₁ s₂ : Scene σ}
    {q : Waiting ι σ α} {a : α} (hwaits : proceed w (some horizon) p s = .waiting q s₁)
    (hends : proceed w none p s = .finished a s₂) : horizon ≤ s₂.now := by
  obtain ⟨t, -, hlate, hrest⟩ := end?_of_finished hwaits hends
  have hlater : t.moment ≤ s₂.now := by
    have hnow := now_le_proceed w none (q.next t.reply) (t.scene s₁.stopRequested)
    rwa [hrest] at hnow
  exact Nat.le_trans hlate hlater

/-- After a process has ended, the next one begins in the scene that it left. -/
theorem proceed_bind_of_finished {w : World ι σ} {p : Proc (Timed ι) α} {f : α → Proc (Timed ι) β}
    {s s' : Scene σ} {a : α} (hends : proceed w none p s = .finished a s') :
    proceed w none (p.bind f) s = proceed w none (f a) s' := by
  induction p generalizing s with
  | done b =>
      cases hends
      rfl
  | call c next ih =>
      cases hdue : dueBefore none (turn w s c).ends with
      | none =>
          rw [proceed_of_pending hdue] at hends
          nomatch hends
      | some t =>
          rw [proceed_of_due hdue] at hends
          rw [Proc.call_bind, proceed_of_due hdue]
          exact ih t.reply hends

/-! ## Stops at a moment -/

/-- How a process fares if a stop is requested at a moment: it is played up to the moment, and if it
waits there it is told. -/
def stoppedAt (w : World ι σ) (moment : Nat) (p : Proc (Timed ι) α) (s : Scene σ) : Status ι σ α :=
  match proceed w (some moment) p s with
  | .finished a s' => .finished a s'
  | .waiting q s' => resume w none q { s' with now := moment, stopRequested := true }

end Timeline

/-- A process that waits does so in one of the calls that it may make. -/
theorem Proc.Obeys.of_waiting {ι : Interface} {σ α : Type} {w : World ι σ} {horizon : Option Nat}
    {C : Timed.Call ι → Prop} {Q : α → Prop} {p : Proc (Timed ι) α} {s s' : Scene σ}
    {q : Timeline.Waiting ι σ α} (hp : p.Obeys C Q)
    (hwaits : Timeline.proceed w horizon p s = .waiting q s') : C q.call := by
  induction p generalizing s with
  | done a => nomatch hwaits
  | call c next ih =>
      rw [Timeline.proceed] at hwaits
      split at hwaits
      next t _ => exact ih t.reply (hp.2 t.reply) hwaits
      next =>
        cases hwaits
        exact hp.1

/-! ## Diaries -/

/-- A world, and the moments at which it was asked for something. -/
structure Diary (σ : Type) where
  world : σ
  asked : List Nat

/-- The same surroundings, which keep a diary. A call that is not begun does not come into it. -/
def World.diary {ι : Interface} {σ : Type} (w : World ι σ) : World ι (Diary σ) where
  answer d now c :=
    let a := w.answer d.world now c
    { begun := ⟨a.begun, d.asked ++ [now]⟩
      takes := a.takes
      finished := ⟨a.finished, d.asked ++ [now]⟩
      raisesStop := a.raisesStop
      result := a.result }
  reading := w.reading

def Scene.withDiary {σ : Type} (s : Scene σ) : Scene (Diary σ) :=
  ⟨s.now, s.stopRequested, ⟨s.world, []⟩⟩

namespace Timeline

variable {ι : Interface} {σ α : Type} {w : World ι σ}

/-- A call comes into the diary when it begins, or not at all. -/
theorem asked_turn (w : World ι σ) (s : Scene (Diary σ)) (c : Timed.Call ι) :
    ∃ noted, (noted = [] ∨ noted = [s.now]) ∧
      (turn w.diary s c).begun.asked = s.world.asked ++ noted ∧
      ∀ t, (turn w.diary s c).ends = some t → t.world.asked = s.world.asked ++ noted := by
  -- What is answered at once leaves the world as it is.
  have hatOnce : ∀ reply, turn w.diary s c = atOnce s reply →
      ∃ noted, (noted = [] ∨ noted = [s.now]) ∧
        (turn w.diary s c).begun.asked = s.world.asked ++ noted ∧
        ∀ t, (turn w.diary s c).ends = some t → t.world.asked = s.world.asked ++ noted := by
    intro reply hturn
    refine ⟨[], .inl rfl, by simp [hturn, atOnce], ?_⟩
    intro t ht
    rw [hturn] at ht
    cases ht
    simp
  cases c with
  | clock => exact hatOnce _ rfl
  | stopRequested => exact hatOnce _ rfl
  | pause d =>
      cases hstop : s.stopRequested with
      | true => exact hatOnce ⟨.zero, true⟩ (by simp [turn, hstop])
      | false =>
          refine ⟨[], .inl rfl, by simp [turn, hstop], ?_⟩
          intro t ht
          rw [turn, if_neg (by simp [hstop])] at ht
          cases ht
          simp
  | ask c limit heedsStop =>
      cases hheeds : heedsStop && s.stopRequested with
      | true => exact hatOnce ⟨.zero, .stopped⟩ (by simp only [turn, hheeds, if_true])
      | false =>
          refine ⟨[s.now], .inr rfl, by simp [turn, hheeds, World.diary], ?_⟩
          intro t ht
          rw [turn, if_neg (by simp [hheeds])] at ht
          simp only [boundedEnd] at ht
          -- In time or not, the world was asked.
          split at ht
          · cases ht
            rfl
          · cases ht
            split <;> rfl
          · cases ht
            rfl
          · cases ht

/-- While a process is played, moments come into the diary from now on, and before the horizon but for
the first one. -/
theorem asked_proceed (w : World ι σ) (horizon : Option Nat) (p : Proc (Timed ι) α)
    (s : Scene (Diary σ)) :
    ∃ noted, (proceed w.diary horizon p s).scene.world.asked = s.world.asked ++ noted ∧
      ∀ moment ∈ noted, s.now ≤ moment ∧ (moment = s.now ∨ isBefore moment horizon = true) := by
  induction p generalizing s with
  | done a => exact ⟨[], by simp [proceed, Status.scene], by simp⟩
  | call c next ih =>
      obtain ⟨noted, hnoted, hbegun, hends⟩ := asked_turn w s c
      -- A call is noted at the moment at which it is begun, if at all.
      have hnow : ∀ moment ∈ noted, moment = s.now := by
        intro moment hmem
        rcases hnoted with rfl | rfl
        · exact absurd hmem List.not_mem_nil
        · exact List.mem_singleton.1 hmem
      cases hdue : dueBefore horizon (turn w.diary s c).ends with
      | none =>
          rw [proceed_of_pending hdue]
          refine ⟨noted, hbegun, ?_⟩
          intro moment hmem
          rw [hnow moment hmem]
          exact ⟨Nat.le_refl _, .inl rfl⟩
      | some t =>
          obtain ⟨hturn, hbefore⟩ := isBefore_of_dueBefore hdue
          have hlater : s.now ≤ t.moment := now_le_of_turn hturn
          obtain ⟨others, hothers, hbounds⟩ := ih t.reply (t.scene s.stopRequested)
          rw [proceed_of_due hdue]
          refine ⟨noted ++ others, ?_, ?_⟩
          · rw [hothers, ← List.append_assoc, ← hends t hturn]
            rfl
          · intro moment hmem
            rcases List.mem_append.1 hmem with hmem | hmem
            · rw [hnow moment hmem]
              exact ⟨Nat.le_refl _, .inl rfl⟩
            · -- The later calls are begun after this one has ended, and that was before the
              -- horizon.
              obtain ⟨hle, hother⟩ := hbounds moment hmem
              refine ⟨Nat.le_trans hlater hle, .inr ?_⟩
              rcases hother with rfl | hother
              · exact hbefore
              · exact hother

/-- The call that a process waits in is in the diary already. -/
theorem asked_of_end? {horizon : Option Nat} {p : Proc (Timed ι) α} {s s' : Scene (Diary σ)}
    {q : Waiting ι (Diary σ) α} (hwaits : proceed w.diary horizon p s = .waiting q s')
    {t : Turn (Diary σ) ((Timed ι).Reply q.call)} (hend : q.end? s' = some t) :
    t.world.asked = s'.world.asked := by
  induction p generalizing s with
  | done a => nomatch hwaits
  | call c next ih =>
      rw [proceed] at hwaits
      split at hwaits
      next t' _ => exact ih t'.reply hwaits
      next =>
        cases hwaits
        rw [end?_begun] at hend
        obtain ⟨noted, -, hbegun, hends⟩ := asked_turn w s c
        rw [hends t hend, ← hbegun]

/-- Behind the horizon at which a process waits, only later moments come into the diary. -/
theorem asked_beyond {horizon : Nat} {p : Proc (Timed ι) α} {s s₁ s₂ : Scene (Diary σ)}
    {q : Waiting ι (Diary σ) α} {a : α}
    (hwaits : proceed w.diary (some horizon) p s = .waiting q s₁)
    (hends : proceed w.diary none p s = .finished a s₂) :
    ∃ later, s₂.world.asked = s₁.world.asked ++ later ∧ ∀ moment ∈ later, horizon ≤ moment := by
  obtain ⟨t, hend, hlate, hrest⟩ := end?_of_finished hwaits hends
  obtain ⟨later, hlater, hbounds⟩ :=
    asked_proceed w none (q.next t.reply) (t.scene s₁.stopRequested)
  rw [hrest] at hlater
  refine ⟨later, ?_, ?_⟩
  · rw [← asked_of_end? hwaits hend]
    exact hlater
  · intro moment hmem
    exact Nat.le_trans hlate (hbounds moment hmem).1

/-- When a process waits at the horizon, the diary has the moments before it. -/
theorem asked_of_waiting {horizon : Nat} {p : Proc (Timed ι) α} {s s₁ s₂ : Scene (Diary σ)}
    {q : Waiting ι (Diary σ) α} {a : α} (hblank : s.world.asked = []) (hlater : s.now < horizon)
    (hwaits : proceed w.diary (some horizon) p s = .waiting q s₁)
    (hends : proceed w.diary none p s = .finished a s₂) :
    s₁.world.asked = s₂.world.asked.filter (· < horizon) := by
  obtain ⟨noted, hnoted, hbounds⟩ := asked_proceed w (some horizon) p s
  rw [hwaits, hblank, List.nil_append] at hnoted
  obtain ⟨later, hrest, hbeyond⟩ := asked_beyond hwaits hends
  have hearly : s₁.world.asked.filter (· < horizon) = s₁.world.asked := by
    rw [List.filter_eq_self]
    intro moment hmem
    rcases (hbounds moment (hnoted ▸ hmem)).2 with rfl | hbefore
    · exact decide_eq_true hlater
    · exact hbefore
  have hnone : later.filter (· < horizon) = [] := by
    rw [List.filter_eq_nil_iff]
    intro moment hmem
    simpa using hbeyond moment hmem
  rw [hrest, List.filter_append, hearly, hnone, List.append_nil]

end Timeline
end MacroReplay
