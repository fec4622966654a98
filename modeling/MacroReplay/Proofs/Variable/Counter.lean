import MacroReplay.Proofs.Variable.Assignment
import MacroReplay.Run.Plan

/-!
# Variables that count

Some variables hold a whole number. This module reads it, and follows the number of `!LOOP` through
assignments and from one iteration to the next.

* `Store.exists_integer` — the variables whose rule asks for an integer hold one, in the range of the
  rule;
* `Store.integer?_assignAll` — behind assignments `!LOOP` is what the last of them that was not refused
  gave it, and it is marked as assigned if there was one;
* `Store.integer?_advanceLoop` — what the next iteration begins with.
-/

namespace MacroReplay

-- The table of rules is looked up by its lemmas; unfolding it would compare every name.
attribute [local irreducible] Variable.rule?

namespace Store

open Variable (greatestInteger rule?)

/-! ## Reading -/

def integer? (s : Store) (name : String) : Option Int :=
  (s.numberOf name).bind Number.toInt?

/-- The number of an integer variable is that of its value. -/
theorem numberOf_of_find? {s : Store} {name : String} {least : Nat} {v : Value}
    (hrule : rule? name = some (.integer least)) (hfind : s.values.find? name = some v) :
    s.numberOf name = v.toNumber? := by
  have hadd : name ≠ "!EXTRACTADD" := by
    rintro rfl
    cases hrule.symm.trans Variable.rule?_extractAdd
  simp [numberOf, lookup, Variable.canonical_eq_self hrule, hadd, hfind]

/-- A variable whose rule asks for an integer holds one. -/
theorem exists_integer {s : Store} (hs : s.values.Sound) {name : String} {least : Nat}
    (hrule : rule? name = some (.integer least)) :
    ∃ (n : Number) (k : Nat), s.numberOf name = some n ∧ n.toInt? = some (k : Int) ∧
      least ≤ k ∧ k ≤ greatestInteger := by
  obtain ⟨v, hfind, n, rfl, k, hk, hleast, hmost⟩ := hs.exists_holds hrule nofun nofun
  refine ⟨n, k.toNat, numberOf_of_find? hrule hfind, ?_, by omega, by omega⟩
  rw [hk, Int.toNat_of_nonneg (by omega)]

def LoopInRange (s : Store) : Prop :=
  ∃ k : Nat, s.integer? "!LOOP" = some (k : Int) ∧ 1 ≤ k ∧ k ≤ greatestInteger

theorem integer?_loop_of_find? {s : Store} {n : Number}
    (hfind : s.values.find? "!LOOP" = some (.number n)) : s.integer? "!LOOP" = n.toInt? := by
  rw [integer?, numberOf_of_find? Variable.rule?_loop hfind]
  rfl

theorem integer?_loop_congr {s s' : Store}
    (hfind : s'.values.find? "!LOOP" = s.values.find? "!LOOP") :
    s'.integer? "!LOOP" = s.integer? "!LOOP" := by
  have hname : Variable.canonical "!LOOP" = "!LOOP" :=
    Variable.canonical_eq_self Variable.rule?_loop
  simp [integer?, numberOf, lookup, hname, hfind]

/-! ## Assignments -/

abbrev Wish := String × Value

/-- The store behind assignments, in order; one that is refused changes nothing. -/
def assignAll (s : Store) (wishes : List Wish) : Store :=
  wishes.foldl (fun s wish => s.serve (.set wish.1 wish.2)) s

theorem assignAll_concat (s : Store) (wishes : List Wish) (wish : Wish) :
    s.assignAll (wishes ++ [wish]) = (s.assignAll wishes).serve (.set wish.1 wish.2) := by
  simp [assignAll]

theorem assignAll_append (s : Store) (wishes wishes' : List Wish) :
    s.assignAll (wishes ++ wishes') = (s.assignAll wishes).assignAll wishes' :=
  List.foldl_append

/-- The integer that an assignment gives `!LOOP`; none if it is refused or is about another variable. -/
def loopGiven? (wish : Wish) : Option Int :=
  match (Request.set wish.1 wish.2).assigned? with
  | some (name, v) => if name = "!LOOP" then v.toNumber?.bind Number.toInt? else none
  | none => none

def loopsGiven (wishes : List Wish) : List Int :=
  wishes.filterMap loopGiven?

/-- One assignment: it gives `!LOOP` an integer in its range and marks it as assigned, or it leaves both
alone. -/
theorem serve_loop (s : Store) (wish : Wish) :
    (∃ k : Nat, loopGiven? wish = some (k : Int) ∧ 1 ≤ k ∧ k ≤ greatestInteger ∧
      (s.serve (.set wish.1 wish.2)).integer? "!LOOP" = some (k : Int) ∧
      (s.serve (.set wish.1 wish.2)).loopAssigned = true) ∨
    loopGiven? wish = none ∧
      (s.serve (.set wish.1 wish.2)).integer? "!LOOP" = s.integer? "!LOOP" ∧
      (s.serve (.set wish.1 wish.2)).loopAssigned = s.loopAssigned := by
  cases hassigned : (Request.set wish.1 wish.2).assigned? with
  | none =>
      rw [serve_of_refused hassigned]
      exact .inr ⟨by simp [loopGiven?, hassigned], rfl, rfl⟩
  | some assigned =>
      obtain ⟨name, v⟩ := assigned
      obtain ⟨-, rule, hrule, haccepted⟩ := Request.assigned?_eq_some_iff.1 hassigned
      rw [serve_of_assigned hassigned]
      by_cases hloop : name = "!LOOP"
      · -- What the rule accepts is a number in its range, and it is kept as it is.
        subst hloop
        cases hrule.symm.trans Variable.rule?_loop
        obtain ⟨n, rfl, k, hk, hleast, hmost⟩ := Variable.Rule.holds_of_accepted haccepted
        have hnat : (k.toNat : Int) = k := Int.toNat_of_nonneg (by omega)
        refine .inl ⟨k.toNat, ?_, by omega, by omega, ?_, rfl⟩
        · simp [loopGiven?, hassigned, Value.toNumber?, hk, hnat]
        · rw [integer?_loop_of_find? (n := n) (by simp [keep]), hk, hnat]
      · refine .inr ⟨by simp [loopGiven?, hassigned, hloop], ?_, ?_⟩
        · apply integer?_loop_congr
          rw [find?_keep, if_neg (Ne.symm hloop), if_neg (by simp)]
        · exact (kept_keep s name v).loopAssigned_eq hloop

theorem loopsGiven_concat (wishes : List Wish) (wish : Wish) :
    loopsGiven (wishes ++ [wish]) = loopsGiven wishes ++ (loopGiven? wish).toList := by
  cases hgiven : loopGiven? wish <;> simp [loopsGiven, hgiven]

/-- The last assignment to `!LOOP` wins. -/
theorem integer?_assignAll (s : Store) (wishes : List Wish) :
    (s.assignAll wishes).integer? "!LOOP" =
      (loopsGiven wishes).getLast?.or (s.integer? "!LOOP") := by
  -- From the end of the list: the last assignment decides, or leaves it to those before it.
  induction wishes using List.reverseRecOn with
  | nil => rfl
  | append_singleton wishes wish ih =>
      rw [assignAll_concat, loopsGiven_concat]
      rcases serve_loop (s.assignAll wishes) wish with
        ⟨k, hgiven, -, -, hvalue, -⟩ | ⟨hnone, hvalue, -⟩
      · simp [hgiven, hvalue]
      · simp [hnone, hvalue, ih]

/-- `!LOOP` is marked as assigned from the first assignment on. -/
theorem loopAssigned_assignAll (s : Store) (wishes : List Wish) :
    (s.assignAll wishes).loopAssigned = (s.loopAssigned || !(loopsGiven wishes).isEmpty) := by
  induction wishes using List.reverseRecOn with
  | nil => simp [assignAll, loopsGiven]
  | append_singleton wishes wish ih =>
      rw [assignAll_concat, loopsGiven_concat]
      rcases serve_loop (s.assignAll wishes) wish with ⟨k, hgiven, -, -, -, hmark⟩ | ⟨hnone, -, hmark⟩
      · simp [hgiven, hmark]
      · simp [hnone, hmark, ih]

/-- No assignment takes the counter out of its range. -/
theorem LoopInRange.assignAll {s : Store} (hs : s.LoopInRange) (wishes : List Wish) :
    (s.assignAll wishes).LoopInRange := by
  induction wishes using List.reverseRecOn with
  | nil => exact hs
  | append_singleton wishes wish ih =>
      rw [assignAll_concat]
      rcases serve_loop (s.assignAll wishes) wish with
        ⟨k, -, hleast, hmost, hvalue, -⟩ | ⟨-, hvalue, -⟩
      · exact ⟨k, hvalue, hleast, hmost⟩
      · obtain ⟨k, hk, hrange⟩ := ih
        exact ⟨k, hvalue.trans hk, hrange⟩

/-! ## Iterations -/

theorem integer?_setLoopCounter (s : Store) {n : Nat} (hmost : n ≤ greatestInteger) :
    (s.setLoopCounter n).integer? "!LOOP" = some (n : Int) := by
  have hexact : n < Nat.pow 2 53 := Nat.lt_of_le_of_lt hmost (by decide)
  have hfind : (s.setLoopCounter n).values.find? "!LOOP" = some (.number (Number.ofNat n)) :=
    Bindings.find?_put_self ..
  rw [integer?_loop_of_find? hfind, Number.toInt?_ofNat hexact]

theorem integer?_beginRun (s : Store) : s.beginRun.integer? "!LOOP" = some 1 :=
  integer?_setLoopCounter _ (by decide)

/-- What the next iteration begins with: one more than `!LOOP` was at the end of the iteration before,
if it is marked as assigned, and else the number of the iteration. -/
def nextLoop (iteration : Nat) (assigned : Bool) (previous : Nat) : Nat :=
  if assigned then min greatestInteger (previous + 1) else iteration

theorem nextLoop_true (iteration previous : Nat) :
    nextLoop iteration true previous = min 4294967295 (previous + 1) := rfl

/-- The counter is found in its range, so that no other number takes its place. -/
theorem advanceLoop_eq {s : Store} {iteration previous : Nat}
    (hprevious : s.integer? "!LOOP" = some (previous : Int)) (hleast : 1 ≤ previous) :
    Run.advanceLoop iteration s =
      s.setLoopCounter (nextLoop iteration s.loopAssigned previous) := by
  have hfound : (s.numberOf "!LOOP").bind Number.toInt? = some (previous : Int) := hprevious
  have hpos : (1 : Int) ≤ previous := by omega
  cases hmark : s.loopAssigned with
  | false => simp [Run.advanceLoop, nextLoop, hmark]
  | true => simp [Run.advanceLoop, nextLoop, hmark, hfound, hpos]

theorem loopAssigned_advanceLoop (iteration : Nat) (s : Store) :
    (Run.advanceLoop iteration s).loopAssigned = s.loopAssigned := by
  unfold Run.advanceLoop
  split <;> rfl

/-- The counter stays within what a variable can hold. -/
theorem nextLoop_le {iteration : Nat} (hmost : iteration ≤ greatestInteger) (assigned : Bool)
    (previous : Nat) : nextLoop iteration assigned previous ≤ greatestInteger := by
  cases assigned with
  | false => exact hmost
  | true => exact Nat.min_le_left ..

/-- Between two iterations the counter becomes the number of the next one, or one more than it was. -/
theorem integer?_advanceLoop {s : Store} {iteration previous : Nat}
    (hprevious : s.integer? "!LOOP" = some (previous : Int)) (hleast : 1 ≤ previous)
    (hmost : iteration ≤ greatestInteger) :
    (Run.advanceLoop iteration s).integer? "!LOOP" =
      some (nextLoop iteration s.loopAssigned previous : Int) := by
  rw [advanceLoop_eq hprevious hleast]
  exact integer?_setLoopCounter s (nextLoop_le hmost _ _)

theorem LoopInRange.advanceLoop {s : Store} (hs : s.LoopInRange) {iteration : Nat}
    (hpos : 1 ≤ iteration) (hmost : iteration ≤ greatestInteger) :
    (Run.advanceLoop iteration s).LoopInRange := by
  obtain ⟨previous, hprevious, hleast, -⟩ := hs
  refine ⟨_, integer?_advanceLoop hprevious hleast hmost, ?_, nextLoop_le hmost _ _⟩
  have hone : 1 ≤ greatestInteger := by decide
  unfold nextLoop
  split <;> omega

/-! ## What came before a run -/

/-- The store with another loop counter, marked as assigned or not. -/
def withLoop (s : Store) (v : Value) (assigned : Bool) : Store :=
  { s with values := s.values.put "!LOOP" v, loopAssigned := assigned }

end Store

namespace Bindings

theorem put_put_self (b : Bindings) (name : String) (v w : Value) :
    (b.put name v).put name w = b.put name w := by
  induction b with
  | nil => simp [put]
  | cons entry rest ih => by_cases h : entry.1 = name <;> simp [put, h, ih]

/-- Two names change places, if the first one has a place already. -/
theorem put_comm {b : Bindings} {name other : String} (v w : Value) (hne : name ≠ other)
    (hbound : (b.find? name).isSome) : (b.put name v).put other w = (b.put other w).put name v := by
  induction b with
  | nil => nomatch hbound
  | cons entry rest ih =>
      by_cases hname : entry.1 = name
      · have hother : ¬ entry.1 = other := fun h => hne (hname.symm.trans h)
        simp [put, hname, hne]
      · by_cases hother : entry.1 = other
        · simp [put, hother, Ne.symm hne]
        · have hrest : (find? rest name).isSome := by simpa [find?, hname] using hbound
          simp [put, hname, hother, ih hrest]

end Bindings

/-- A run forgets the loop counter that it is given. -/
theorem Store.beginRun_withLoop {s : Store} (hbound : (s.values.find? "!LOOP").isSome) (v : Value)
    (assigned : Bool) : (s.withLoop v assigned).beginRun = s.beginRun := by
  have hvalues : ((s.values.put "!LOOP" v).put "!EXTRACT" Value.empty).put "!LOOP"
      (.number (Number.ofNat 1)) =
        (s.values.put "!EXTRACT" Value.empty).put "!LOOP" (.number (Number.ofNat 1)) := by
    rw [Bindings.put_comm v Value.empty (by decide) hbound, Bindings.put_put_self]
  simp [beginRun, setLoopCounter, withLoop, hvalues]

end MacroReplay
