import Mathlib.Data.List.DropRight
import MacroReplay.Proofs.Variable.Rule
import MacroReplay.Variable.Store

/-!
# What every store keeps to

Variables are written by assignments, some of which are refused, by the run at its beginning and at each
iteration, and by a reset. Whatever was asked of a store, in whatever order:

* `Bindings.Sound` — each name is that of a variable, is bound once, and to a value that its rule holds;
* `Store.InStep` — `!EXTRACT` goes with the extracted texts;
* `Store.extracted_serve` — which texts a request adds to them or clears;
* `Store.conforms_afterAll` — all of it after any requests.
-/

namespace MacroReplay

-- The table of rules is looked up by its lemmas; unfolding it would compare every name.
attribute [local irreducible] Variable.rule?

/-! ## Bindings -/

namespace Bindings

theorem mem_of_find? {b : Bindings} {name : String} {v : Value} (h : b.find? name = some v) :
    (name, v) ∈ b := by
  induction b with
  | nil => nomatch h
  | cons entry rest ih =>
      by_cases hkey : entry.1 = name
      · have hvalue : entry.2 = v := by simpa [find?, hkey] using h
        rw [← hkey, ← hvalue]
        exact List.mem_cons_self
      · exact List.mem_cons_of_mem _ (ih (by simpa [find?, hkey] using h))

/-- A name is found exactly if it is bound. -/
theorem isSome_find?_iff {b : Bindings} {name : String} :
    (b.find? name).isSome ↔ name ∈ b.map Prod.fst := by
  induction b with
  | nil => simp [find?]
  | cons entry rest ih =>
      by_cases hkey : entry.1 = name
      · simp [find?, hkey]
      · simp [find?, hkey, ih, Ne.symm hkey]

/-- A put value adds one binding at most. -/
theorem mem_put {b : Bindings} {name : String} {v : Value} {entry : String × Value}
    (h : entry ∈ b.put name v) : entry = (name, v) ∨ entry ∈ b := by
  induction b with
  | nil => simpa [put] using h
  | cons first rest ih =>
      by_cases hkey : first.1 = name
      · subst hkey
        rcases (by simpa [put] using h : entry = (first.1, v) ∨ entry ∈ rest) with rfl | hrest
        · exact .inl rfl
        · exact .inr (List.mem_cons_of_mem _ hrest)
      · rcases (by simpa [put, hkey] using h : entry = first ∨ entry ∈ put rest name v) with
          rfl | hrest
        · exact .inr List.mem_cons_self
        · exact (ih hrest).imp_right (List.mem_cons_of_mem _)

/-- A name that is new comes behind the others. -/
theorem names_put (b : Bindings) (name : String) (v : Value) :
    (b.put name v).map Prod.fst =
      if name ∈ b.map Prod.fst then b.map Prod.fst else b.map Prod.fst ++ [name] := by
  induction b with
  | nil => simp [put]
  | cons entry rest ih =>
      by_cases hkey : entry.1 = name
      · simp [put, hkey]
      · by_cases hrest : name ∈ rest.map Prod.fst
        · simp [put, hkey, ih, hrest]
        · simp [put, hkey, ih, hrest, Ne.symm hkey]

/-- The bindings of a store: each name is that of a variable, is bound once, and to a value that its
rule holds; every variable that can be assigned is bound. -/
structure Sound (b : Bindings) : Prop where
  nodup : (b.map Prod.fst).Nodup
  held : ∀ entry ∈ b, ∃ rule, Variable.rule? entry.1 = some rule ∧ rule.Holds entry.2
  complete : ∀ d ∈ Variable.definitions, d.rule ≠ .readOnly → d.name ∈ b.map Prod.fst

/-- A value that the rule of its name allows keeps the bindings sound. -/
theorem Sound.put {b : Bindings} {name : String} {rule : Variable.Rule} {v : Value}
    (hb : b.Sound) (hrule : Variable.rule? name = some rule) (hv : rule.Holds v) :
    (b.put name v).Sound where
  nodup := by
    rw [names_put]
    split
    · exact hb.nodup
    · rename_i hnew
      exact List.nodup_append.2 ⟨hb.nodup, by simp, by
        intro key hkey other hother
        rw [List.mem_singleton.1 hother]
        rintro rfl
        exact hnew hkey⟩
  held := by
    intro entry hentry
    rcases mem_put hentry with rfl | hold
    · exact ⟨rule, hrule, hv⟩
    · exact hb.held entry hold
  complete := by
    intro d hd hassignable
    have hbound := hb.complete d hd hassignable
    rw [names_put]
    split
    · exact hbound
    · exact List.mem_append_left _ hbound

/-- A bound variable holds what its rule allows. -/
theorem Sound.holds {b : Bindings} (hb : b.Sound) {name : String} {rule : Variable.Rule} {v : Value}
    (hrule : Variable.rule? name = some rule) (hfind : b.find? name = some v) : rule.Holds v := by
  rcases hb.held _ (mem_of_find? hfind) with ⟨rule', hrule', hholds⟩
  cases hrule.symm.trans hrule'
  exact hholds

/-- A variable that is no column and can be assigned is bound to a value that its rule holds. -/
theorem Sound.exists_holds {b : Bindings} (hb : b.Sound) {name : String} {rule : Variable.Rule}
    (hrule : Variable.rule? name = some rule) (hfree : rule ≠ .free)
    (hassignable : rule ≠ .readOnly) : ∃ v, b.find? name = some v ∧ rule.Holds v := by
  rcases Variable.mem_or_isColumn_of_rule? hrule with ⟨d, hd, rfl, rfl⟩ | ⟨-, rfl⟩
  · have hbound := isSome_find?_iff.2 (hb.complete d hd hassignable)
    rcases Option.isSome_iff_exists.1 hbound with ⟨v, hfind⟩
    exact ⟨v, hfind, hb.holds hrule hfind⟩
  · exact absurd rfl hfree

/-- A variable that can only be read is not bound. -/
theorem Sound.find?_readOnly {b : Bindings} (hb : b.Sound) {name : String}
    (hrule : Variable.rule? name = some .readOnly) : b.find? name = none := by
  cases hfind : b.find? name with
  | none => rfl
  | some v => exact (hb.holds hrule hfind).elim

end Bindings

/-! ## Requests -/

inductive Request where
  /-- To assign a variable. -/
  | set (name : String) (v : Value)
  /-- To forget what belongs to the run before. -/
  | beginRun
  /-- To set the loop counter to the number of an iteration. -/
  | countLoop (n : Nat) (pos : 1 ≤ n) (le : n ≤ Variable.greatestInteger)
  /-- To give every variable its initial value. -/
  | reset

namespace Request

/-- The variable that a request assigns and the value that its rule accepts; none if the request is no
assignment or is refused. -/
def assigned? : Request → Option (String × Value)
  | .set name v =>
      match Variable.rule? (Variable.canonical name) with
      | none => none
      | some rule =>
          match rule.accept (Variable.canonical name) v with
          | .ok accepted => some (Variable.canonical name, accepted)
          | .error _ => none
  | _ => none

def extractText? (r : Request) : Option String :=
  match r.assigned? with
  | some (name, v) => if name = "!EXTRACT" then some v.render else none
  | none => none

/-- Whether a request clears the extracted texts: it begins a run, it resets the store, or it assigns
the word `NULL` to `!EXTRACT`. -/
def clearsExtract (r : Request) : Bool :=
  match r with
  | .beginRun => true
  | .reset => true
  | r => r.extractText?.any Store.isNullWord

/-- The texts assigned to `!EXTRACT` since it was last cleared, in order. -/
def collected (requests : List Request) : List String :=
  (requests.rtakeWhile (!·.clearsExtract)).filterMap extractText?

/-- One more request: it clears what was extracted, or adds a text, or does neither. -/
theorem collected_concat (requests : List Request) (r : Request) :
    collected (requests ++ [r]) =
      if r.clearsExtract then [] else collected requests ++ r.extractText?.toList := by
  cases hclears : r.clearsExtract with
  | true => simp [collected, hclears]
  | false => cases htext : r.extractText? <;> simp [collected, hclears, htext]

/-- What a request assigns: the canonical name, and the value as its rule accepts it. -/
theorem assigned?_eq_some_iff {name key : String} {v w : Value} :
    (Request.set name v).assigned? = some (key, w) ↔
      Variable.canonical name = key ∧
        ∃ rule, Variable.rule? key = some rule ∧ rule.accept key v = .ok w := by
  cases hrule : Variable.rule? (Variable.canonical name) with
  | none =>
      simp only [assigned?, hrule, reduceCtorEq, false_iff]
      rintro ⟨rfl, rule, hrule', -⟩
      simp [hrule] at hrule'
  | some rule =>
      cases hkept : rule.accept (Variable.canonical name) v with
      | error e =>
          simp only [assigned?, hrule, hkept, reduceCtorEq, false_iff]
          rintro ⟨rfl, rule', hrule', hkept'⟩
          cases hrule.symm.trans hrule'
          simp [hkept] at hkept'
      | ok w' =>
          simp only [assigned?, hrule, hkept, Option.some.injEq, Prod.mk.injEq]
          constructor
          · rintro ⟨rfl, rfl⟩
            exact ⟨rfl, rule, hrule, hkept⟩
          · rintro ⟨rfl, rule', hrule', hkept'⟩
            cases hrule.symm.trans hrule'
            cases hkept.symm.trans hkept'
            exact ⟨rfl, rfl⟩

end Request

namespace Store

def serve (s : Store) : Request → Store
  | .set name v =>
      match s.set name v with
      | .ok (_, after) => after
      | .error _ => s
  | .beginRun => s.beginRun
  | .countLoop n _ _ => s.setLoopCounter n
  | .reset => .initial

/-- The store after requests that were made of a new one, in order. -/
def afterAll (requests : List Request) : Store :=
  requests.foldl serve .initial

theorem afterAll_concat (requests : List Request) (r : Request) :
    afterAll (requests ++ [r]) = (afterAll requests).serve r := by
  simp [afterAll]

/-- An assignment that is not refused keeps the accepted value. -/
theorem serve_of_assigned {s : Store} {name key : String} {v w : Value}
    (h : (Request.set name v).assigned? = some (key, w)) :
    s.serve (.set name v) = (s.keep key w).1 := by
  rcases Request.assigned?_eq_some_iff.1 h with ⟨rfl, rule, hrule, hkept⟩
  simp only [serve, set, hrule, hkept]

/-- A refused assignment leaves the store as it was. -/
theorem serve_of_refused {s : Store} {name : String} {v : Value}
    (h : (Request.set name v).assigned? = none) : s.serve (.set name v) = s := by
  cases hrule : Variable.rule? (Variable.canonical name) with
  | none => simp only [serve, set, hrule]
  | some rule =>
      cases hkept : rule.accept (Variable.canonical name) v with
      | error e => simp only [serve, set, hrule, hkept]
      | ok w => simp only [Request.assigned?, hrule, hkept, reduceCtorEq] at h

/-- Whether an assignment succeeds does not depend on the store. -/
theorem isOk_set (s : Store) (name : String) (v : Value) :
    (s.set name v).isOk = (Request.set name v).assigned?.isSome := by
  cases hrule : Variable.rule? (Variable.canonical name) with
  | none => simp only [set, Request.assigned?, hrule, Except.isOk, Except.toBool, Option.isSome]
  | some rule =>
      cases hkept : rule.accept (Variable.canonical name) v <;>
        simp only [set, Request.assigned?, hrule, hkept, Except.isOk, Except.toBool, Option.isSome]

/-- What keeping an accepted value may do to a store. -/
inductive Kept (s : Store) : String → Value → Store → Prop where
  | cleared {v : Value} : isNullWord v.render = true →
      Kept s "!EXTRACT" v { s with values := s.values.put "!EXTRACT" Value.empty, extracted := [] }
  | extracted {v : Value} : isNullWord v.render = false →
      Kept s "!EXTRACT" v
        { s with values := s.values.put "!EXTRACT" v, extracted := s.extracted ++ [v.render] }
  | timeout {n : Number} :
      Kept s "!TIMEOUT" (.number n)
        { s with
          values := (s.values.put "!TIMEOUT_TAG" (.number (tagTimeout n))).put "!TIMEOUT"
            (.number n) }
  | loop {v : Value} :
      Kept s "!LOOP" v { s with values := s.values.put "!LOOP" v, loopAssigned := true }
  | plain {name : String} {v : Value} : name ≠ "!EXTRACT" → name ≠ "!LOOP" →
      Kept s name v { s with values := s.values.put name v }

theorem kept_keep (s : Store) (name : String) (v : Value) : Kept s name v (s.keep name v).1 := by
  by_cases hextract : name = "!EXTRACT"
  · subst hextract
    cases hnull : isNullWord v.render
    · simpa [keep, hnull] using Kept.extracted hnull
    · simpa [keep, hnull] using Kept.cleared hnull
  · by_cases htimeout : name = "!TIMEOUT"
    · subst htimeout
      cases v with
      | number n => simpa [keep] using Kept.timeout
      | text t => simpa [keep] using Kept.plain (v := .text t) hextract (by decide)
    · by_cases hloop : name = "!LOOP"
      · subst hloop
        simpa [keep] using Kept.loop
      · simpa [keep, hextract, htimeout, hloop] using Kept.plain hextract hloop

/-! ## Bindings after a request -/

theorem sound_initial : initial.values.Sound where
  nodup := by
    have hsub : (initial.values.map Prod.fst).Sublist
        (Variable.definitions.map Variable.Definition.name) := by
      rw [initial, List.map_map]
      exact List.filter_sublist.map _
    exact hsub.nodup Variable.nodup_definitions
  held := by
    intro entry hentry
    rcases List.mem_map.1 hentry with ⟨d, hd, rfl⟩
    have hd' := List.mem_filter.1 hd
    have hassignable : d.rule ≠ .readOnly := by simpa using hd'.2
    exact ⟨d.rule, Variable.rule?_of_mem hd'.1, Variable.holds_initial hd'.1 hassignable⟩
  complete := by
    intro d hd hassignable
    refine List.mem_map.2 ⟨(d.name, d.initial), List.mem_map.2 ⟨d, ?_, rfl⟩, rfl⟩
    exact List.mem_filter.2 ⟨hd, by simpa using hassignable⟩

/-- The tag timeout that goes with an accepted timeout is one that its own rule accepts. -/
theorem isInteger_tagTimeout {n : Number} (h : Variable.IsInteger 0 n) :
    Variable.IsInteger 0 (tagTimeout n) := by
  rcases h with ⟨k, hk, -, hmost⟩
  rw [tagTimeout, hk]
  apply Variable.isInteger_ofNat (Nat.zero_le _)
  simp only [Variable.greatestInteger, Option.getD_some] at hmost ⊢
  omega

theorem sound_setLoopCounter {s : Store} (hs : s.values.Sound) {n : Nat} (hpos : 1 ≤ n)
    (hle : n ≤ Variable.greatestInteger) : (s.setLoopCounter n).values.Sound :=
  hs.put Variable.rule?_loop ⟨_, rfl, Variable.isInteger_ofNat hpos hle⟩

/-- Keeping a value that its rule allows keeps the bindings sound. -/
theorem Kept.sound {s s' : Store} {name : String} {rule : Variable.Rule} {v : Value}
    (hkept : Kept s name v s') (hs : s.values.Sound) (hrule : Variable.rule? name = some rule)
    (hv : rule.Holds v) : s'.values.Sound := by
  cases hkept with
  | cleared => exact hs.put Variable.rule?_extract trivial
  | extracted => exact hs.put Variable.rule?_extract trivial
  | timeout =>
      cases hrule.symm.trans Variable.rule?_timeout
      rcases hv with ⟨n, hn, hinteger⟩
      cases hn
      have htag := hs.put Variable.rule?_timeoutTag ⟨_, rfl, isInteger_tagTimeout hinteger⟩
      exact htag.put Variable.rule?_timeout ⟨_, rfl, hinteger⟩
  | loop => exact hs.put hrule hv
  | plain => exact hs.put hrule hv

/-- No request makes the bindings unsound. -/
theorem sound_serve {s : Store} (hs : s.values.Sound) (r : Request) :
    (s.serve r).values.Sound := by
  cases r with
  | set name v =>
      cases hassigned : (Request.set name v).assigned? with
      | none => rwa [serve_of_refused hassigned]
      | some assigned =>
          rcases Request.assigned?_eq_some_iff.1 hassigned with ⟨-, rule, hrule, hkept⟩
          rw [serve_of_assigned hassigned]
          exact (kept_keep s _ _).sound hs hrule (Variable.Rule.holds_of_accepted hkept)
  | beginRun =>
      exact sound_setLoopCounter (s := { s with values := _, extracted := _, loopAssigned := _ })
        (hs.put Variable.rule?_extract trivial) (Nat.le_refl 1) (by decide)
  | countLoop n hpos hle => exact sound_setLoopCounter hs hpos hle
  | reset => exact sound_initial

/-! ## Extracted texts after a request -/

/-- An assignment to `!EXTRACT` adds a text, unless it is the null word, which clears them. -/
theorem Kept.extracted_eq {s s' : Store} {name : String} {v : Value} (hkept : Kept s name v s') :
    s'.extracted =
      if name = "!EXTRACT" then if isNullWord v.render then [] else s.extracted ++ [v.render]
      else s.extracted := by
  cases hkept with
  | cleared hnull => simp [hnull]
  | extracted hnull => simp [hnull]
  | timeout => rfl
  | loop => rfl
  | plain hextract _ => simp [hextract]

/-- A request clears the extracted texts, or adds the text that it assigns to `!EXTRACT`. -/
theorem extracted_serve (s : Store) (r : Request) :
    (s.serve r).extracted =
      if r.clearsExtract then [] else s.extracted ++ r.extractText?.toList := by
  cases r with
  | set name v =>
      cases hassigned : (Request.set name v).assigned? with
      | none =>
          rw [serve_of_refused hassigned]
          simp [Request.clearsExtract, Request.extractText?, hassigned]
      | some assigned =>
          rw [serve_of_assigned hassigned, (kept_keep s _ _).extracted_eq]
          by_cases hextract : assigned.1 = "!EXTRACT"
          · simp [Request.clearsExtract, Request.extractText?, hassigned, hextract]
          · simp [Request.clearsExtract, Request.extractText?, hassigned, hextract]
  | beginRun => rfl
  | countLoop n hpos hle =>
      simp [Request.clearsExtract, Request.extractText?, Request.assigned?, serve, setLoopCounter]
  | reset => rfl

/-- `!EXTRACT` goes with the extracted texts: it is empty if there are none, and otherwise the last one
is its text. -/
def InStep (s : Store) : Prop :=
  ∃ v, s.values.find? "!EXTRACT" = some v ∧
    (v = Value.empty ∧ s.extracted = [] ∨ ∃ front, s.extracted = front ++ [v.render])

theorem inStep_initial : initial.InStep :=
  ⟨Value.empty, by decide, .inl ⟨rfl, rfl⟩⟩

theorem Kept.inStep {s s' : Store} {name : String} {v : Value} (hkept : Kept s name v s')
    (hs : s.InStep) : s'.InStep := by
  rcases hs with ⟨w, hfind, htexts⟩
  cases hkept with
  | cleared => exact ⟨Value.empty, Bindings.find?_put_self .., .inl ⟨rfl, rfl⟩⟩
  | @extracted v _ => exact ⟨v, Bindings.find?_put_self .., .inr ⟨s.extracted, rfl⟩⟩
  | timeout =>
      refine ⟨w, ?_, htexts⟩
      rw [Bindings.find?_put_of_ne _ _ (by decide), Bindings.find?_put_of_ne _ _ (by decide), hfind]
  | loop =>
      refine ⟨w, ?_, htexts⟩
      rw [Bindings.find?_put_of_ne _ _ (by decide), hfind]
  | plain hextract _ =>
      refine ⟨w, ?_, htexts⟩
      rw [Bindings.find?_put_of_ne _ _ hextract.symm, hfind]

theorem inStep_setLoopCounter {s : Store} (hs : s.InStep) (n : Nat) :
    (s.setLoopCounter n).InStep := by
  rcases hs with ⟨v, hfind, htexts⟩
  refine ⟨v, ?_, htexts⟩
  rw [setLoopCounter, Bindings.find?_put_of_ne _ _ (by decide), hfind]

/-- No request puts the extracted texts and their variable out of step. -/
theorem inStep_serve {s : Store} (hs : s.InStep) (r : Request) : (s.serve r).InStep := by
  cases r with
  | set name v =>
      cases hassigned : (Request.set name v).assigned? with
      | none => rwa [serve_of_refused hassigned]
      | some assigned =>
          rw [serve_of_assigned hassigned]
          exact (kept_keep s _ _).inStep hs
  | beginRun =>
      exact inStep_setLoopCounter ⟨Value.empty, Bindings.find?_put_self .., .inl ⟨rfl, rfl⟩⟩ 1
  | countLoop n hpos hle => exact inStep_setLoopCounter hs n
  | reset => exact inStep_initial

/-! ## After any requests -/

/-- In every store that is reached by requests, each variable holds a value that its rule allows. -/
theorem sound_afterAll (requests : List Request) : (afterAll requests).values.Sound := by
  induction requests using List.reverseRecOn with
  | nil => exact sound_initial
  | append_singleton requests r ih =>
      rw [afterAll_concat]
      exact sound_serve ih r

theorem inStep_afterAll (requests : List Request) : (afterAll requests).InStep := by
  induction requests using List.reverseRecOn with
  | nil => exact inStep_initial
  | append_singleton requests r ih =>
      rw [afterAll_concat]
      exact inStep_serve ih r

/-- The extracted texts are those that the requests have collected. -/
theorem extracted_afterAll (requests : List Request) :
    (afterAll requests).extracted = Request.collected requests := by
  induction requests using List.reverseRecOn with
  | nil => rfl
  | append_singleton requests r ih =>
      rw [afterAll_concat, extracted_serve, Request.collected_concat, ih]

/-- What a store keeps to after requests. -/
structure Conforms (requests : List Request) (s : Store) : Prop where
  /-- Every name is bound once. -/
  names_nodup : (s.values.map Prod.fst).Nodup
  /-- Every bound name is the canonical spelling of the name of a variable. -/
  names : ∀ name ∈ s.values.map Prod.fst,
    Variable.canonical name = name ∧ (Variable.rule? name).isSome
  /-- Every variable that can be assigned is bound. -/
  complete : ∀ d ∈ Variable.definitions, d.rule ≠ .readOnly → (s.values.find? d.name).isSome
  /-- The variables that are computed when read are not. -/
  computed : s.values.find? "!NOW" = none ∧ s.values.find? "!EXTRACTADD" = none
  yesNo : ∀ d ∈ Variable.definitions, d.rule = .yesNo →
    s.values.find? d.name = some (.text "YES") ∨ s.values.find? d.name = some (.text "NO")
  replaySpeed : s.values.find? "!REPLAYSPEED" ∈
    [some (.text "SLOW"), some (.text "MEDIUM"), some (.text "FAST")]
  /-- Every integer variable holds a number that equals an integer in its range. -/
  integer : ∀ d ∈ Variable.definitions, ∀ least, d.rule = .integer least →
    (least = 0 ∨ least = 1) ∧
      ∃ n k, s.values.find? d.name = some (.number n) ∧ n.toInt? = some k ∧
        (least : Int) ≤ k ∧ k ≤ 4294967295
  /-- An assignment succeeds exactly if its value is accepted. -/
  succeeds : ∀ name v, (s.set name v).isOk = (Request.set name v).assigned?.isSome
  /-- The extracted texts are those assigned to `!EXTRACT` since it was last cleared. -/
  extracted : s.extracted = Request.collected requests
  /-- `!EXTRACT` is empty if there are no extracted texts, and else shows the last one. -/
  extract : ∃ v, s.values.find? "!EXTRACT" = some v ∧ (s.extracted = [] → v = .text "") ∧
    ∀ last, s.extracted.getLast? = some last → v.render = last

theorem least_of_mem : ∀ d ∈ Variable.definitions, ∀ least, d.rule = .integer least →
    least = 0 ∨ least = 1 := by
  simp [Variable.definitions, Variable.Definition.ofInteger, Variable.Definition.flag,
    Variable.Definition.free]

/-- A store keeps to its rules, whatever was asked of it: assignments of any values to any names, refused
or not, new runs, loop counts and resets, in any order. -/
theorem conforms_afterAll (requests : List Request) : Conforms requests (afterAll requests) := by
  have hsound := sound_afterAll requests
  refine ⟨hsound.nodup, ?_, ?_, ⟨?_, ?_⟩, ?_, ?_, ?_, isOk_set _, extracted_afterAll requests, ?_⟩
  · intro name hname
    rcases List.mem_map.1 hname with ⟨entry, hentry, rfl⟩
    rcases hsound.held entry hentry with ⟨rule, hrule, -⟩
    exact ⟨Variable.canonical_eq_self hrule, Option.isSome_iff_exists.2 ⟨rule, hrule⟩⟩
  · intro d hd hassignable
    exact Bindings.isSome_find?_iff.2 (hsound.complete d hd hassignable)
  · exact hsound.find?_readOnly Variable.rule?_now
  · exact hsound.find?_readOnly Variable.rule?_extractAdd
  · intro d hd hrule
    have hname : Variable.rule? d.name = some .yesNo := hrule ▸ Variable.rule?_of_mem hd
    rcases hsound.exists_holds hname nofun nofun with ⟨v, hfind, rfl | rfl⟩
    · exact .inl hfind
    · exact .inr hfind
  · rcases hsound.exists_holds Variable.rule?_replaySpeed nofun nofun with
      ⟨v, hfind, word, hword, rfl⟩
    rw [hfind]
    exact List.mem_map_of_mem (f := fun word => some (Value.text word)) hword
  · -- An integer variable is bound, and to an integer in its range.
    intro d hd least hrule
    refine ⟨least_of_mem d hd least hrule, ?_⟩
    have hname : Variable.rule? d.name = some (.integer least) := hrule ▸ Variable.rule?_of_mem hd
    rcases hsound.exists_holds hname nofun nofun with ⟨v, hfind, n, rfl, k, hk, hrange⟩
    exact ⟨n, k, hfind, hk, hrange⟩
  · rcases inStep_afterAll requests with ⟨v, hfind, htexts⟩
    refine ⟨v, hfind, ?_, ?_⟩
    · intro hnone
      rcases htexts with ⟨hempty, -⟩ | ⟨front, hfront⟩
      · exact hempty
      · simp [hnone] at hfront
    · intro last hlast
      rcases htexts with ⟨-, hnone⟩ | ⟨front, hfront⟩
      · simp [hnone] at hlast
      · simpa [hfront] using hlast

end Store
end MacroReplay
