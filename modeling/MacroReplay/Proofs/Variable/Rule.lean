import Mathlib.Data.List.Nodup
import MacroReplay.Proofs.Number.Integer
import MacroReplay.Proofs.Text.Character
import MacroReplay.Proofs.Text.Trimming
import MacroReplay.Variable.Rule

/-!
# What the rules of variables allow

* `canonical_eq_self` — the name of a variable is its own canonical spelling;
* `Rule.Holds` — the values that a variable with a rule may hold;
* `Rule.holds_of_accepted` — a value that a rule accepts is kept as one of them;
* `isApt_of_mem` — every variable starts with a value that its own rule accepts.
-/

namespace MacroReplay
namespace Variable

/-! ## Names -/

/-- The characters that neither trimming nor upper case changes. -/
def isPlain (c : Char) : Bool :=
  !Text.isBlank c && c.toUpper == c

def isPlainName (name : String) : Bool :=
  name.toList.all isPlain

/-- A plain character is no blank and is in upper case. -/
theorem isPlain_iff {c : Char} : isPlain c = true ↔ Text.isBlank c = false ∧ c.toUpper = c := by
  simp [isPlain]

/-- A plain name is its own canonical form. -/
theorem canonical_of_plain {name : String} (hname : isPlainName name = true) :
    canonical name = name := by
  have h : ∀ c ∈ name.toList, isPlain c = true := List.all_eq_true.1 hname
  have hupper : name.toList.map Char.toUpper = name.toList := by
    rw [List.map_congr_left (g := id) fun c hc => (isPlain_iff.1 (h c hc)).2, List.map_id]
  have htrim : Text.trimChars name.toList = name.toList :=
    Text.trimChars_of_visible fun c hc => (isPlain_iff.1 (h c hc)).1
  simp [canonical, Text.trim, Text.upper, htrim, hupper]

theorem isPlain_of_isDigit {c : Char} (h : Text.isDigit c = true) : isPlain c = true := by
  have hupper : c.toUpper = c := by
    have hhigh := (Text.toNat_of_isDigit h).2
    unfold Char.toUpper
    split
    · next hletter =>
        have hlow : 97 ≤ c.toNat := hletter.1
        omega
    · rfl
  exact isPlain_iff.2 ⟨Text.isBlank_of_isDigit h, hupper⟩

theorem isPlainName_of_isColumn {name : String} (h : isColumn name = true) :
    isPlainName name = true := by
  simp only [isColumn, Bool.and_eq_true, beq_iff_eq] at h
  obtain ⟨⟨⟨hfront, -⟩, hdigits⟩, -⟩ := h
  have hword : isPlainName "!COL" = true := by decide
  rw [isPlainName, ← List.take_append_drop 4 name.toList, hfront, List.all_append, Bool.and_eq_true]
  refine ⟨hword, List.all_eq_true.2 ?_⟩
  intro c hc
  exact isPlain_of_isDigit (List.all_eq_true.1 hdigits c hc)

theorem isPlainName_of_mem_definitions {d : Definition} (hd : d ∈ definitions) :
    isPlainName d.name = true := by
  have hall : definitions.all (fun d => isPlainName d.name) = true := by decide +kernel
  exact List.all_eq_true.1 hall d hd

/-! ## Rules by name -/

/-- No variable is defined twice. -/
theorem nodup_definitions : (definitions.map Definition.name).Nodup := by
  decide +kernel

/-- Every defined variable is found under its name. -/
theorem rule?_of_mem {d : Definition} (hd : d ∈ definitions) : rule? d.name = some d.rule := by
  have hfound : ∃ d', definitions.find? (·.name == d.name) = some d' := by
    rw [← Option.isSome_iff_exists, List.find?_isSome]
    exact ⟨d, hd, by simp⟩
  rcases hfound with ⟨d', hfind⟩
  have hname : d'.name = d.name := by simpa using List.find?_some hfind
  have hsame : d' = d :=
    List.inj_on_of_nodup_map nodup_definitions (List.mem_of_find?_eq_some hfind) hd hname
  rw [rule?, hfind, hsame]

/-- A name with a rule is that of a defined variable or of a column. -/
theorem mem_or_isColumn_of_rule? {name : String} {rule : Rule} (h : rule? name = some rule) :
    (∃ d ∈ definitions, d.name = name ∧ d.rule = rule) ∨ isColumn name = true ∧ rule = .free := by
  unfold rule? at h
  split at h
  · rename_i d hfind
    refine .inl ⟨d, List.mem_of_find?_eq_some hfind, ?_, Option.some.inj h⟩
    simpa using List.find?_some hfind
  · split at h
    · rename_i hcolumn
      exact .inr ⟨hcolumn, (Option.some.inj h).symm⟩
    · nomatch h

/-- The name of a variable is its own canonical spelling. -/
theorem canonical_eq_self {name : String} {rule : Rule} (h : rule? name = some rule) :
    canonical name = name := by
  apply canonical_of_plain
  rcases mem_or_isColumn_of_rule? h with ⟨d, hd, rfl, -⟩ | ⟨hcolumn, -⟩
  · exact isPlainName_of_mem_definitions hd
  · exact isPlainName_of_isColumn hcolumn

theorem rule?_timeout : rule? "!TIMEOUT" = some (.integer 0) := by decide

theorem rule?_timeoutTag : rule? "!TIMEOUT_TAG" = some (.integer 0) := by decide

theorem rule?_timeoutStep : rule? "!TIMEOUT_STEP" = some (.integer 0) := by decide

theorem rule?_loop : rule? "!LOOP" = some (.integer 1) := by decide

theorem rule?_replaySpeed : rule? "!REPLAYSPEED" = some (.keyword ["SLOW", "MEDIUM", "FAST"]) := by
  decide

theorem rule?_extract : rule? "!EXTRACT" = some .free := by decide

theorem rule?_extractAdd : rule? "!EXTRACTADD" = some .readOnly := by decide

theorem rule?_now : rule? "!NOW" = some .readOnly := by decide

/-! ## Values -/

def IsInteger (least : Nat) (n : Number) : Prop :=
  ∃ k : Int, n.toInt? = some k ∧ (least : Int) ≤ k ∧ k ≤ (greatestInteger : Int)

/-- What a variable with a rule may hold. A variable that can only be read holds nothing. -/
def Rule.Holds : Rule → Value → Prop
  | .free, _ => True
  | .yesNo, v => v = .text "YES" ∨ v = .text "NO"
  | .integer least, v => ∃ n, v = .number n ∧ IsInteger least n
  | .keyword allowed, v => ∃ word ∈ allowed, v = .text word
  | .readOnly, _ => False

theorem isInteger_ofNat {least n : Nat} (hleast : least ≤ n) (hmost : n ≤ greatestInteger) :
    IsInteger least (Number.ofNat n) := by
  have hexact : n < Nat.pow 2 53 := Nat.lt_of_le_of_lt hmost (by decide)
  exact ⟨n, Number.toInt?_ofNat hexact, Int.ofNat_le.2 hleast, Int.ofNat_le.2 hmost⟩

/-- A value is taken as an integer exactly if it reads as a number that is one. -/
theorem integerValue?_eq_some_iff {least : Nat} {v : Value} {n : Number} :
    integerValue? least v = some n ↔ v.toNumber? = some n ∧ IsInteger least n := by
  unfold integerValue? IsInteger
  cases v.toNumber? with
  | none => simp
  | some m =>
      cases hint : m.toInt? with
      | none =>
          constructor
          · simp [hint]
          · rintro ⟨hsame, k, hk, -⟩
            cases hsame
            simp [hint] at hk
      | some k =>
          by_cases hrange : (least : Int) ≤ k ∧ k ≤ (greatestInteger : Int)
          · constructor
            · intro h
              have hsame : m = n := by simpa [hint, hrange] using h
              exact ⟨congrArg some hsame, k, hsame ▸ hint, hrange⟩
            · rintro ⟨hsame, -⟩
              cases hsame
              simp [hint, hrange]
          · constructor
            · intro h
              simp [hint, hrange] at h
            · rintro ⟨hsame, k', hk', hrange'⟩
              cases hsame
              cases hint.symm.trans hk'
              exact absurd hrange' hrange

/-- A keyword is one of those allowed, in the case in which it is listed. -/
theorem mem_of_keywordValue? {allowed : List String} {v : Value} {word : String}
    (h : keywordValue? allowed v = some word) : word ∈ allowed := by
  simp only [keywordValue?] at h
  split at h
  · rename_i hword
    exact Option.some.inj h ▸ List.contains_iff_mem.1 hword
  · nomatch h

/-- A value that a rule accepts is kept as one that it holds. -/
theorem Rule.holds_of_accepted {name : String} {rule : Rule} {v w : Value}
    (h : rule.accept name v = .ok w) : rule.Holds w := by
  cases rule with
  | free => trivial
  | readOnly => nomatch h
  | yesNo =>
      cases hword : keywordValue? ["YES", "NO"] v with
      | none => simp [hword, Rule.accept] at h
      | some word =>
          have hkept : w = .text word := by simpa [hword, Rule.accept] using h.symm
          have hmem : word = "YES" ∨ word = "NO" := by simpa using mem_of_keywordValue? hword
          rcases hmem with rfl | rfl
          · exact .inl hkept
          · exact .inr hkept
  | keyword allowed =>
      cases hword : keywordValue? allowed v with
      | none => simp [hword, Rule.accept] at h
      | some word =>
          have hkept : w = .text word := by simpa [hword, Rule.accept] using h.symm
          exact ⟨word, mem_of_keywordValue? hword, hkept⟩
  | integer least =>
      cases hn : integerValue? least v with
      | none => simp [hn, Rule.accept] at h
      | some n =>
          have hkept : w = .number n := by simpa [hn, Rule.accept] using h.symm
          exact ⟨n, hkept, (integerValue?_eq_some_iff.1 hn).2⟩

/-! ## Initial values -/

/-- The rule of a variable accepts the value that the variable starts with, as it is. -/
def Definition.IsApt (d : Definition) : Prop :=
  d.rule = .readOnly ∨ d.rule.accept d.name d.initial = .ok d.initial

theorem isApt_ofInteger (name : String) {least n : Nat} (hleast : least ≤ n)
    (hmost : n ≤ greatestInteger) : (Definition.ofInteger name least n).IsApt := by
  have haccepted : integerValue? least (.number (Number.ofNat n)) = some (Number.ofNat n) :=
    integerValue?_eq_some_iff.2 ⟨rfl, isInteger_ofNat hleast hmost⟩
  refine .inr ?_
  simp [Definition.ofInteger, Rule.accept, haccepted]

theorem isApt_flag (name : String) : (Definition.flag name).IsApt := by
  have haccepted : keywordValue? ["YES", "NO"] (.text "NO") = some "NO" := by decide
  refine .inr ?_
  simp [Definition.flag, Rule.accept, haccepted]

theorem isApt_free (name initial : String) : (Definition.free name initial).IsApt :=
  .inr rfl

theorem isApt_keyword (name : String) {allowed : List String} {word : String}
    (hword : keywordValue? allowed (.text word) = some word) :
    Definition.IsApt ⟨name, .keyword allowed, .text word⟩ := by
  refine .inr ?_
  simp [hword, Rule.accept]

theorem isApt_readOnly (name : String) : Definition.IsApt ⟨name, .readOnly, Value.empty⟩ :=
  .inl rfl

/-- Every variable starts with a value that its own rule accepts. -/
theorem isApt_of_mem : ∀ d ∈ definitions, d.IsApt := by
  have hspeed : Definition.IsApt ⟨"!REPLAYSPEED", .keyword ["SLOW", "MEDIUM", "FAST"],
      .text "FAST"⟩ := isApt_keyword _ (by decide)
  simp (disch := decide) only [definitions, List.forall_mem_cons, isApt_ofInteger, isApt_flag,
    isApt_free, hspeed, isApt_readOnly, List.not_mem_nil, false_imp_iff, implies_true, and_self]

/-- Every variable begins with a value that its rule allows. -/
theorem holds_initial {d : Definition} (hd : d ∈ definitions) (hrule : d.rule ≠ .readOnly) :
    d.rule.Holds d.initial :=
  Rule.holds_of_accepted ((isApt_of_mem d hd).resolve_left hrule)

end Variable
end MacroReplay
