import MacroReplay.Proofs.Variable.Expansion

/-!
# What an assignment does

An assignment is refused and changes nothing, or it is read back under every spelling of the name. Behind
it the variables are those from before it, with three exceptions: `!TIMEOUT` takes `!TIMEOUT_TAG` along,
`!EXTRACT` the extracted texts, and `!LOOP` the mark that the script has taken over the loop counter.

* `Variable.sameName_iff` — two spellings of one name have the same canonical spelling;
* `Store.find?_keep` — every binding behind an assignment;
* `Store.assigns_of_set` — the frame of an assignment that succeeds;
* `Store.assignment_law` — the assignments to a store that requests have made;
* `Store.tag_of_last_writer` — `!TIMEOUT_TAG` behind any requests.
-/

namespace MacroReplay

attribute [local irreducible] Variable.rule?

namespace Bindings

/-- A put value is found under its name, and nothing else changes. -/
theorem find?_put (b : Bindings) (name key : String) (v : Value) :
    (b.put name v).find? key = if key = name then some v else b.find? key := by
  by_cases hkey : key = name
  · rw [hkey, find?_put_self, if_pos rfl]
  · rw [find?_put_of_ne b v hkey, if_neg hkey]

end Bindings

/-! ## Spellings of a name -/

namespace Text

/-- Only the capital letters of ASCII have a lower case of their own. -/
theorem toLower_cases (c : Char) : c.toLower = c ∨ 65 ≤ c.toNat ∧ c.toNat ≤ 90 := by
  unfold Char.toLower
  split
  · rename_i hletter
    exact .inr hletter
  · exact .inl rfl

theorem toLower_toUpper (c : Char) : c.toUpper.toLower = c.toLower := by
  rcases toUpper_cases c with hsame | hletter
  · rw [hsame]
  · exact of_letters (P := fun c => c.toUpper.toLower = c.toLower) (by decide) hletter

theorem toUpper_toLower (c : Char) : c.toLower.toUpper = c.toUpper := by
  rcases toLower_cases c with hsame | hletter
  · rw [hsame]
  · have hcapitals : ∀ n ∈ List.range' 65 26,
        (Char.ofNat n).toLower.toUpper = (Char.ofNat n).toUpper := by decide
    have hcapital := hcapitals c.toNat (by simp; omega)
    rwa [Char.ofNat_toNat] at hcapital

/-- Two texts agree in upper case exactly if they agree in lower case. -/
theorem map_toUpper_eq_iff {l m : List Char} :
    l.map Char.toUpper = m.map Char.toUpper ↔ l.map Char.toLower = m.map Char.toLower := by
  -- Each of the two case maps undoes the other as far as its own result goes.
  have hlower : Char.toLower ∘ Char.toUpper = Char.toLower := funext toLower_toUpper
  have hupper : Char.toUpper ∘ Char.toLower = Char.toUpper := funext toUpper_toLower
  constructor
  · intro h
    simpa [hlower] using congrArg (List.map Char.toLower) h
  · intro h
    simpa [hupper] using congrArg (List.map Char.toUpper) h

end Text

namespace Variable

/-- Two spellings of one name: they differ at most in the case of letters and in the blanks around. -/
def SameName (a b : String) : Prop :=
  Text.sameLetters (Text.trim a) (Text.trim b) = true

instance (a b : String) : Decidable (SameName a b) :=
  inferInstanceAs (Decidable (_ = true))

/-- The names of a variable are the texts with the same canonical form. -/
theorem sameName_iff {a b : String} : SameName a b ↔ canonical a = canonical b := by
  rw [← String.toList_inj, toList_canonical, toList_canonical, Text.map_toUpper_eq_iff]
  simp [SameName, Text.sameLetters, Text.trim]

theorem sameName_iff_of_rule? {name key : String} {rule : Rule} (hrule : rule? key = some rule) :
    SameName name key ↔ canonical name = key := by
  rw [sameName_iff, canonical_eq_self hrule]

/-- A rule refuses values, but never says that there is no such variable. -/
theorem Rule.accept_ne_unknown (rule : Rule) (name key : String) (v : Value) :
    rule.accept name v ≠ .error (.unknown key) := by
  cases rule with
  | free => nofun
  | readOnly => nofun
  | yesNo =>
      cases hword : keywordValue? ["YES", "NO"] v <;> simp [hword, Rule.accept]
  | keyword allowed =>
      cases hword : keywordValue? allowed v <;> simp [hword, Rule.accept]
  | integer least =>
      cases hn : integerValue? least v <;> simp [hn, Rule.accept]

/-- The two variables that are computed take no value. -/
theorem ne_computed_of_accepted {name : String} {rule : Rule} {v w : Value}
    (hrule : rule? name = some rule) (haccepted : rule.accept name v = .ok w) :
    name ≠ "!NOW" ∧ name ≠ "!EXTRACTADD" := by
  -- Both can only be read, and a rule for reading accepts no value.
  constructor
  · rintro rfl
    cases hrule.symm.trans rule?_now
    nomatch haccepted
  · rintro rfl
    cases hrule.symm.trans rule?_extractAdd
    nomatch haccepted

end Variable

namespace Store

open Calendar (DateTime)
open Variable (canonical rule? SameName sameName_iff sameName_iff_of_rule?)

/-! ## Keeping a value -/

/-- What a variable shows depends on its own binding, and for `!EXTRACTADD` on the extracted texts. -/
theorem get_congr {s s' : Store} {name : String}
    (hfind : s'.values.find? (canonical name) = s.values.find? (canonical name))
    (hextracted : canonical name = "!EXTRACTADD" → s'.extracted = s.extracted) (now : DateTime) :
    s'.get now name = s.get now name := by
  by_cases hadd : canonical name = "!EXTRACTADD"
  · simp [get, lookup, extractText, hadd, hextracted hadd]
  · simp [get, lookup, hadd, hfind]

/-- The bindings behind an assignment: the name has the value that was kept, a `!TIMEOUT` has written its
tag timeout, and all others are as before. -/
theorem find?_keep (s : Store) (name key : String) (v : Value) :
    (s.keep name v).1.values.find? key =
      if key = name then some (s.keep name v).2
      else if name = "!TIMEOUT" ∧ key = "!TIMEOUT_TAG" then
        match v with
        | .number n => some (.number (tagTimeout n))
        | .text _ => s.values.find? key
      else s.values.find? key := by
  by_cases hextract : name = "!EXTRACT"
  · cases hnull : isNullWord v.render <;> simp [keep, hextract, hnull, Bindings.find?_put]
  · by_cases htimeout : name = "!TIMEOUT"
    · cases v with
      | text t => simp [keep, htimeout, Bindings.find?_put]
      | number n =>
          -- The tag timeout is written first, under another name.
          by_cases htag : key = "!TIMEOUT_TAG"
          · simp [keep, htimeout, htag, Bindings.find?_put]
          · simp [keep, htimeout, htag, Bindings.find?_put]
    · by_cases hloop : name = "!LOOP"
      · simp [keep, hloop, Bindings.find?_put]
      · simp [keep, hextract, htimeout, hloop, Bindings.find?_put]

/-- Only an assignment to `!LOOP` counts as one. -/
theorem Kept.loopAssigned_eq {s s' : Store} {name : String} {v : Value} (hkept : Kept s name v s')
    (hloop : name ≠ "!LOOP") : s'.loopAssigned = s.loopAssigned := by
  cases hkept with
  | loop => exact absurd rfl hloop
  | _ => rfl

/-! ## Assignments -/

/-- An assignment that succeeds: the name has a rule, the rule accepts the value, and the value
is kept. -/
theorem set_eq_ok {s after : Store} {name : String} {v : Value} {o : Assignment}
    (hset : s.set name v = .ok (o, after)) :
    ∃ rule w, rule? (canonical name) = some rule ∧ rule.accept (canonical name) v = .ok w ∧
      o = ⟨canonical name, (s.lookup (canonical name)).getD Value.empty,
        (s.keep (canonical name) w).2⟩ ∧
      after = (s.keep (canonical name) w).1 := by
  cases hrule : rule? (canonical name) with
  | none => simp only [set, hrule, reduceCtorEq] at hset
  | some rule =>
      cases haccepted : rule.accept (canonical name) v with
      | error e => simp only [set, hrule, haccepted, reduceCtorEq] at hset
      | ok w =>
          simp only [set, hrule, haccepted, Except.ok.injEq, Prod.mk.injEq] at hset
          exact ⟨rule, w, rfl, haccepted, hset.1.symm, hset.2.symm⟩

/-- A variable that takes any value keeps the one that is assigned. -/
theorem set_of_free {name : String} (hfree : rule? name = some .free) (s : Store) (v : Value) :
    s.set name v =
      .ok (⟨name, (s.lookup name).getD Value.empty, (s.keep name v).2⟩, (s.keep name v).1) := by
  have hname : canonical name = name := Variable.canonical_eq_self hfree
  simp [set, hname, hfree, Variable.Rule.accept]

/-- An assignment is refused as unknown exactly if no variable has the name. -/
theorem set_eq_unknown_iff {s : Store} {name key : String} {v : Value} :
    s.set name v = .error (.unknown key) ↔ has name = false ∧ key = canonical name := by
  cases hrule : rule? (canonical name) with
  | none => simp [set, has, hrule, eq_comm]
  | some rule =>
      cases haccepted : rule.accept (canonical name) v with
      | ok w => simp [set, has, hrule, haccepted]
      | error e =>
          have hknown : e ≠ .unknown key := by
            rintro rfl
            exact rule.accept_ne_unknown _ _ _ haccepted
          simp [set, has, hrule, haccepted, hknown]

/-- What an assignment that succeeds does to a store. -/
structure Assigns (s : Store) (name : String) (o : Assignment) (after : Store) : Prop where
  name_eq : o.name = canonical name
  previous : ∀ now, s.get now name = some o.previous
  /-- It is read back under every spelling of the name. -/
  current : ∀ now spelling, SameName spelling name → after.get now spelling = some o.current
  others : ∀ now other, ¬SameName other name →
    ¬(SameName name "!TIMEOUT" ∧ SameName other "!TIMEOUT_TAG") →
    ¬(SameName name "!EXTRACT" ∧ SameName other "!EXTRACTADD") →
    after.get now other = s.get now other
  /-- The bindings behind what the variables show, whatever their names. -/
  bindings : ∀ key, key ≠ canonical name → ¬(SameName name "!TIMEOUT" ∧ key = "!TIMEOUT_TAG") →
    after.values.find? key = s.values.find? key
  extracted : ¬SameName name "!EXTRACT" → after.extracted = s.extracted
  loopAssigned : ¬SameName name "!LOOP" → after.loopAssigned = s.loopAssigned

theorem assigns_keep (s : Store) {name : String} {rule : Variable.Rule} {v w : Value}
    (hrule : rule? (canonical name) = some rule) (haccepted : rule.accept (canonical name) v = .ok w) :
    Assigns s name ⟨canonical name, (s.lookup (canonical name)).getD Value.empty,
      (s.keep (canonical name) w).2⟩ (s.keep (canonical name) w).1 := by
  obtain ⟨hnow, hadd⟩ := Variable.ne_computed_of_accepted hrule haccepted
  have hkept := kept_keep s (canonical name) w
  have hbindings : ∀ key, key ≠ canonical name →
      ¬(SameName name "!TIMEOUT" ∧ key = "!TIMEOUT_TAG") →
      (s.keep (canonical name) w).1.values.find? key = s.values.find? key := by
    intro key hkey htag
    rw [sameName_iff_of_rule? Variable.rule?_timeout] at htag
    simp only [find?_keep, hkey, htag, if_false]
  have hextracted : ¬SameName name "!EXTRACT" →
      (s.keep (canonical name) w).1.extracted = s.extracted := by
    intro hextract
    rw [sameName_iff_of_rule? Variable.rule?_extract] at hextract
    rw [hkept.extracted_eq, if_neg hextract]
  refine ⟨rfl, ?_, ?_, ?_, hbindings, hextracted, ?_⟩
  · intro now
    -- A variable has a value, so the empty text that stands in for one is not needed.
    have hvalue : ∃ u, s.lookup (canonical name) = some u := by
      cases hfind : s.values.find? (canonical name) <;> simp [lookup, hadd, hfind, hrule]
    obtain ⟨u, hu⟩ := hvalue
    simp only [get, hnow, if_false, hu, Option.getD_some]
  · intro now spelling hspelling
    have hfind := find?_keep s (canonical name) (canonical name) w
    rw [if_pos rfl] at hfind
    simp [get, lookup, sameName_iff.1 hspelling, hnow, hadd, hfind]
  · intro now other hother htag hextract
    rw [sameName_iff] at hother
    rw [@sameName_iff_of_rule? other _ _ Variable.rule?_timeoutTag] at htag
    rw [@sameName_iff_of_rule? other _ _ Variable.rule?_extractAdd] at hextract
    refine get_congr (hbindings _ hother htag) ?_ now
    intro hadd'
    exact hextracted fun hname => hextract ⟨hname, hadd'⟩
  · intro hloop
    rw [sameName_iff_of_rule? Variable.rule?_loop] at hloop
    exact hkept.loopAssigned_eq hloop

/-- What an assignment that succeeds does to the store. -/
theorem assigns_of_set {s after : Store} {name : String} {v : Value} {o : Assignment}
    (hset : s.set name v = .ok (o, after)) : Assigns s name o after := by
  obtain ⟨rule, w, hrule, haccepted, ho, hafter⟩ := set_eq_ok hset
  rw [ho, hafter]
  exact assigns_keep s hrule haccepted

/-- What an assignment to a store comes to. -/
structure AssignmentLaw (s : Store) (name : String) (v : Value) : Prop where
  /-- One that is refused leaves the store as it is. -/
  atomic : ∀ e, s.set name v = .error e → s.serve (.set name v) = s
  unknown_iff : ∀ key, s.set name v = .error (.unknown key) ↔ has name = false ∧ key = canonical name
  has_iff : ∀ now, has name = false ↔ s.get now name = none
  assigns : ∀ o after, s.set name v = .ok (o, after) →
    s.serve (.set name v) = after ∧ Assigns s name o after

/-- Whatever was asked of a store before, an assignment of any value to any name is refused and changes
nothing, or is read back and changes nothing else but what goes with its name. -/
theorem assignment_law (requests : List Request) (name : String) (v : Value) :
    AssignmentLaw (afterAll requests) name v where
  atomic := by
    intro e hset
    simp only [serve, hset]
  unknown_iff := by
    intro key
    exact set_eq_unknown_iff
  has_iff := by
    intro now
    exact (get_eq_none_iff (sound_afterAll requests) now name).symm
  assigns := by
    intro o after hset
    refine ⟨?_, assigns_of_set hset⟩
    simp only [serve, hset]

end Store

/-! ## The tag timeout -/

namespace Request

def isReset : Request → Bool
  | .reset => true
  | _ => false

/-- The tag timeout that a request writes: the number that it assigns to `!TIMEOUT_TAG`, or a tenth of
the number that it assigns to `!TIMEOUT`, rounded down, but at least 1. One that is refused writes
nothing. -/
def tagWritten? (r : Request) : Option Number :=
  match r.assigned? with
  | some (name, .number n) =>
      if name = "!TIMEOUT_TAG" then some n
      else if name = "!TIMEOUT" then
        n.toInt?.map fun seconds => Number.ofInt (max 1 (seconds / 10))
      else none
  | _ => none

/-- The tag timeout that was written last since the store was new or reset; 6 if there is none. -/
def lastTag (requests : List Request) : Number :=
  ((requests.rtakeWhile (!·.isReset)).filterMap tagWritten?).getLast?.getD (Number.ofNat 6)

/-- One more request: a reset, a write to one of the two timeouts, or neither. -/
theorem lastTag_concat (requests : List Request) (r : Request) :
    lastTag (requests ++ [r]) =
      if r.isReset then Number.ofNat 6 else r.tagWritten?.getD (lastTag requests) := by
  cases hreset : r.isReset with
  | true => simp [lastTag, hreset]
  | false => cases htag : r.tagWritten? <;> simp [lastTag, hreset, htag]

end Request

namespace Store

open Calendar (DateTime)
open Variable (canonical rule?)

/-- A tenth of the page timeout, but at least one second. -/
theorem tagTimeout_eq {n : Number} {seconds : Int} (hn : n.toInt? = some seconds) (hpos : 0 ≤ seconds) :
    tagTimeout n = Number.ofInt (max 1 (seconds / 10)) := by
  have hsize : (max 1 (seconds / 10)).natAbs = max 1 (seconds.toNat / 10) := by omega
  have hsign : ¬max 1 (seconds / 10) < 0 := by omega
  simp [tagTimeout, hn, Number.ofInt, Number.ofNat, hsize, hsign]

/-- An integer variable takes integers of at least its least value. -/
theorem exists_number_of_accepted {key : String} {rule : Variable.Rule} {least : Nat} {v w : Value}
    (hinteger : rule? key = some (.integer least)) (hrule : rule? key = some rule)
    (haccepted : rule.accept key v = .ok w) :
    ∃ n seconds, w = .number n ∧ n.toInt? = some seconds ∧ (least : Int) ≤ seconds := by
  cases hrule.symm.trans hinteger
  obtain ⟨n, hw, seconds, hn, hleast, -⟩ := Variable.Rule.holds_of_accepted haccepted
  exact ⟨n, seconds, hw, hn, hleast⟩

/-- A request writes a tag timeout, or resets it, or leaves it as it is. -/
theorem find?_tag_serve {s : Store} {n : Number}
    (hn : s.values.find? "!TIMEOUT_TAG" = some (.number n)) (r : Request) :
    (s.serve r).values.find? "!TIMEOUT_TAG" =
      some (.number (if r.isReset then Number.ofNat 6 else r.tagWritten?.getD n)) := by
  cases r with
  | set name v =>
      cases hassigned : (Request.set name v).assigned? with
      | none =>
          rw [serve_of_refused hassigned, hn]
          simp [Request.isReset, Request.tagWritten?, hassigned]
      | some assigned =>
          obtain ⟨key, w⟩ := assigned
          obtain ⟨-, rule, hrule, haccepted⟩ := Request.assigned?_eq_some_iff.1 hassigned
          rw [serve_of_assigned hassigned, find?_keep]
          -- Both variables take whole numbers only, so that what was accepted is what `tagWritten?`
          -- reads.
          by_cases htag : key = "!TIMEOUT_TAG"
          · subst htag
            obtain ⟨m, -, rfl, -⟩ := exists_number_of_accepted Variable.rule?_timeoutTag hrule haccepted
            simp [Request.isReset, Request.tagWritten?, hassigned, keep]
          · by_cases htimeout : key = "!TIMEOUT"
            · subst htimeout
              obtain ⟨m, seconds, rfl, hm, hpos⟩ :=
                exists_number_of_accepted Variable.rule?_timeout hrule haccepted
              simp [Request.isReset, Request.tagWritten?, hassigned, hm, tagTimeout_eq hm hpos]
            · cases w <;>
                simp [Request.isReset, Request.tagWritten?, hassigned, htag, Ne.symm htag, htimeout, hn]
  | beginRun =>
      simp [serve, beginRun, setLoopCounter, Bindings.find?_put, hn, Request.isReset,
        Request.tagWritten?, Request.assigned?]
  | countLoop i hpos hle =>
      simp [serve, setLoopCounter, Bindings.find?_put, hn, Request.isReset, Request.tagWritten?,
        Request.assigned?]
  | reset => rfl

/-- The store holds the tag timeout that the requests were last to write. -/
theorem find?_tag_afterAll (requests : List Request) :
    (afterAll requests).values.find? "!TIMEOUT_TAG" = some (.number (Request.lastTag requests)) := by
  -- From the end of the list: the last request decides, or leaves it to those before it.
  induction requests using List.reverseRecOn with
  | nil => rfl
  | append_singleton requests r ih =>
      rw [afterAll_concat, find?_tag_serve ih r, Request.lastTag_concat]

/-- Whatever was asked of a store, `!TIMEOUT_TAG` is what the last writer left: the last assignment to
it or to `!TIMEOUT` that was not refused. -/
theorem tag_of_last_writer (requests : List Request) (now : DateTime) :
    (afterAll requests).get now "!TIMEOUT_TAG" = some (.number (Request.lastTag requests)) := by
  have hname : canonical "!TIMEOUT_TAG" = "!TIMEOUT_TAG" :=
    Variable.canonical_eq_self Variable.rule?_timeoutTag
  simp [get, lookup, hname, find?_tag_afterAll requests]

end Store
end MacroReplay
