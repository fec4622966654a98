import MacroReplay.Browser.Locator
import MacroReplay.Proofs.Text.Character
import MacroReplay.Proofs.Text.Cutting
import MacroReplay.Proofs.Variable.Expansion

/-!
# Lists of attributes

`ATTR=` holds attributes with `&&` between them, each a name, a colon and a value.

* `Browser.Query.parseAttribute?_eq_none_iff` — the parts that write no attribute;
* `Browser.Query.attributes_read` — what is written is read back, and one part that writes no attribute
  makes the whole text unreadable.
-/

namespace MacroReplay
namespace Browser.Query

open Text (PartsOf isBlank)

/-! ## Parts that write no attribute -/

/-- A part without a colon, or with nothing but blanks before its first one. -/
def Nameless (part : List Char) : Prop :=
  ':' ∉ part ∨ ∃ blanks value, part = blanks ++ ':' :: value ∧ ∀ c ∈ blanks, isBlank c = true

/-- Nothing is left of a text that is trimmed if it held nothing but blanks, and only then. -/
theorem trimChars_eq_nil_iff {cs : List Char} :
    Text.trimChars cs = [] ↔ ∀ c ∈ cs, isBlank c = true := by
  constructor
  · intro hnil c hc
    obtain ⟨front, back, hcut, hfront, hback⟩ := (Text.trimmed_trimChars cs).cut
    rw [hnil, List.nil_append] at hcut
    rw [hcut, List.mem_append] at hc
    exact hc.elim (hfront c) (hback c)
  · intro hblank
    rw [Text.trimChars, Text.dropBlanks, List.dropWhile_eq_nil_iff.2 hblank]
    rfl

/-- A part writes no attribute if it has no name, and only then. -/
theorem parseAttribute?_eq_none_iff {part : List Char} :
    parseAttribute? part = none ↔ Nameless part := by
  by_cases hcolon : ':' ∈ part
  · obtain ⟨name, value, rfl, hname⟩ := List.eq_append_cons_of_mem hcolon
    have hblanks : Text.trimChars name = [] ↔ Nameless (name ++ ':' :: value) := by
      rw [trimChars_eq_nil_iff]
      constructor
      · exact fun hblank => .inr ⟨name, value, rfl, hblank⟩
      · rintro (hnone | ⟨blanks, value', heq, hblank⟩)
        · exact absurd hcolon hnone
        · -- Both are what stands before the first colon.
          have hblanks : ':' ∉ blanks := fun hmem => absurd (hblank ':' hmem) (by decide)
          have hsame := congrArg (Text.cutAt (· == ':')) heq
          rw [Text.cutAt_append hname, Text.cutAt_append hblanks] at hsame
          cases hsame
          exact hblank
    simp [parseAttribute?, Text.cutAt_append hname, ← hblanks]
  · simp [parseAttribute?, Text.cutAt_of_notMem hcolon, Nameless, hcolon]

/-! ## Blanks around the text

They go to the first and to the last part, where they change nothing. -/

section Blanks

variable {c : Char} {cs part : List Char} {parts : List (List Char)}

/-- A blank in front of a part does not name it. -/
theorem nameless_cons_iff (hc : isBlank c = true) : Nameless (c :: part) ↔ Nameless part := by
  have hcolon : ':' ≠ c := by
    rintro rfl
    exact absurd hc (by decide)
  constructor
  · rintro (hnone | ⟨blanks, value, heq, hblank⟩)
    · exact .inl fun hmem => hnone (by simp [hmem])
    · cases blanks with
      | nil => exact absurd (List.cons.inj heq).1.symm hcolon
      | cons b blanks =>
          exact .inr ⟨blanks, value, (List.cons.inj heq).2, fun d hd => hblank d (by simp [hd])⟩
  · rintro (hnone | ⟨blanks, value, rfl, hblank⟩)
    · exact .inl (by simp [hnone, hcolon])
    · exact .inr ⟨c :: blanks, value, rfl, by simpa [hc] using hblank⟩

/-- Nor does one behind it. -/
theorem nameless_concat_iff (hc : isBlank c = true) : Nameless (part ++ [c]) ↔ Nameless part := by
  have hcolon : ':' ≠ c := by
    rintro rfl
    exact absurd hc (by decide)
  constructor
  · rintro (hnone | ⟨blanks, value, heq, hblank⟩)
    · exact .inl fun hmem => hnone (by simp [hmem])
    · rcases List.eq_nil_or_concat value with rfl | ⟨value, last, rfl⟩
      · exact absurd (List.append_inj' heq rfl).2 (by simpa using hcolon.symm)
      · rw [List.concat_eq_append, ← List.cons_append, ← List.append_assoc] at heq
        exact .inr ⟨blanks, value, (List.append_inj' heq rfl).1, hblank⟩
  · rintro (hnone | ⟨blanks, value, rfl, hblank⟩)
    · exact .inl (by simp [hnone, hcolon])
    · exact .inr ⟨blanks, value ++ [c], by simp, hblank⟩

theorem ne_ampersand_of_isBlank (hc : isBlank c = true) : c ≠ '&' := by
  rintro rfl
  exact absurd hc (by decide)

/-- The parts write attributes as those of the text do, all or not all. -/
def Alike (cs : List Char) (parts : List (List Char)) : Prop :=
  ∃ own, PartsOf cs own ∧ ((∃ part ∈ own, Nameless part) ↔ ∃ part ∈ parts, Nameless part)

/-- A blank in front of a text goes to its first part. -/
theorem alike_cons (h : PartsOf cs parts) (hc : isBlank c = true) : Alike (c :: cs) parts := by
  have hne := ne_ampersand_of_isBlank hc
  cases h with
  | last hnone =>
      exact ⟨_, .last ((Text.pair_infix_cons_of_ne hne).not.2 hnone), by simp [nameless_cons_iff hc]⟩
  | @cut part rest parts hnone hrest =>
      have hpadded : PartsOf (c :: part ++ '&' :: '&' :: rest) ((c :: part) :: parts) :=
        .cut ((Text.pair_infix_cons_of_ne hne).not.2 hnone) hrest
      exact ⟨_, hpadded, by simp [nameless_cons_iff hc]⟩

/-- A blank behind a text goes to its last part. -/
theorem alike_concat (h : PartsOf cs parts) (hc : isBlank c = true) : Alike (cs ++ [c]) parts := by
  have hne := ne_ampersand_of_isBlank hc
  induction h with
  | last hnone =>
      exact ⟨_, .last ((Text.pair_infix_concat_of_ne hne).not.2 hnone),
        by simp [nameless_concat_iff hc]⟩
  | @cut part rest parts hnone _ ih =>
      obtain ⟨own, hown, hsame⟩ := ih
      refine ⟨part :: own, ?_, by simp [hsame]⟩
      rw [List.append_assoc]
      exact .cut hnone hown

theorem Alike.trans {cs' : List Char} (h : Alike cs parts)
    (hstep : ∀ own, PartsOf cs own → Alike cs' own) : Alike cs' parts := by
  obtain ⟨own, hown, hsame⟩ := h
  obtain ⟨own', hown', hsame'⟩ := hstep own hown
  exact ⟨own', hown', hsame'.trans hsame⟩

/-- The parts of a text can be judged after it was trimmed. -/
theorem alike_of_trimmed {text : List Char} (h : Text.Trimmed text cs) (hparts : PartsOf cs parts) :
    Alike text parts := by
  obtain ⟨front, back, rfl, hfront, hback⟩ := h.cut
  have hbehind : ∀ back : List Char, (∀ c ∈ back, isBlank c = true) → Alike (cs ++ back) parts := by
    intro back hback
    induction back using List.reverseRecOn with
    | nil => exact ⟨parts, by simpa using hparts, Iff.rfl⟩
    | append_singleton back c ih =>
        rw [← List.append_assoc]
        exact (ih fun d hd => hback d (by simp [hd])).trans fun own hown =>
          alike_concat hown (hback c (by simp))
  clear h
  induction front with
  | nil => exact hbehind back hback
  | cons c front ih =>
      exact (ih fun d hd => hfront d (by simp [hd])).trans fun own hown =>
        alike_cons hown (hfront c (by simp))

end Blanks

/-- A list of parts is refused for any part without a name. -/
theorem mapM_eq_none_iff {parts : List (List Char)} :
    parts.mapM parseAttribute? = none ↔ ∃ part ∈ parts, Nameless part := by
  induction parts with
  | nil => simp
  | cons part parts ih =>
      simp only [List.mapM_cons, List.mem_cons, exists_eq_or_imp]
      rw [← ih, ← parseAttribute?_eq_none_iff]
      cases parseAttribute? part <;> cases parts.mapM parseAttribute? <;> simp

/-! ## Written attributes -/

/-- An attribute that can be written: the name is in upper case, is not empty and has neither blanks nor
marks, and the value has no `&`. -/
structure Attribute where
  name : String
  value : String
  name_ne_nil : name.toList ≠ []
  name_upper : Text.upper name = name
  name_plain : ∀ c ∈ name.toList, isBlank c = false ∧ c ≠ ':' ∧ c ≠ '&'
  value_plain : '&' ∉ value.toList

def Attribute.pair (a : Attribute) : String × String :=
  (a.name, a.value)

def writtenPart (pair : String × String) : List Char :=
  pair.1.toList ++ ':' :: pair.2.toList

def written (pairs : List (String × String)) : String :=
  String.ofList (['&', '&'].intercalate (pairs.map writtenPart))

/-- The name, in any letter case, and the value of an attribute. -/
structure Writes (pair : String × String) (a : Attribute) : Prop where
  name_eq : Text.upper pair.1 = a.name
  value_eq : pair.2 = a.value

def EndsVisible (attributes : List Attribute) : Prop :=
  ∀ a c, attributes.getLast? = some a → a.value.toList.getLast? = some c → isBlank c = false

theorem Attribute.writes_pair (a : Attribute) : Writes a.pair a :=
  ⟨a.name_upper, rfl⟩

namespace Writes

variable {pair : String × String} {a : Attribute}

/-- A spelling of the name has no blanks and no marks either. -/
theorem name_plain (h : Writes pair a) :
    ∀ c ∈ pair.1.toList, isBlank c = false ∧ c ≠ ':' ∧ c ≠ '&' := by
  intro c hc
  have hupper : c.toUpper ∈ a.name.toList := by
    rw [← h.name_eq, Text.upper, String.toList_ofList]
    exact List.mem_map_of_mem hc
  obtain ⟨hblank, hcolon, hampersand⟩ := a.name_plain _ hupper
  rw [Text.isBlank_toUpper] at hblank
  refine ⟨hblank, ?_, ?_⟩
  · rintro rfl
    exact hcolon rfl
  · rintro rfl
    exact hampersand rfl

theorem name_ne_nil (h : Writes pair a) : pair.1.toList ≠ [] := by
  intro hnil
  apply a.name_ne_nil
  rw [← h.name_eq, Text.upper, hnil]
  rfl

/-- An attribute is read as it was written, in upper case. -/
theorem parseAttribute?_eq (h : Writes pair a) : parseAttribute? (writtenPart pair) = some a.pair := by
  have hcolon : ':' ∉ pair.1.toList := fun hmem => (h.name_plain _ hmem).2.1 rfl
  have htrim : Text.trimChars pair.1.toList = pair.1.toList :=
    Text.trimChars_of_visible fun c hc => (h.name_plain c hc).1
  simp [parseAttribute?, writtenPart, Text.cutAt_append hcolon, htrim, h.name_ne_nil, Text.trim,
    h.name_eq, h.value_eq, Attribute.pair]

/-- A written attribute is one part, since it has no character of the separator. -/
theorem ampersand_notMem (h : Writes pair a) : '&' ∉ writtenPart pair := by
  have hname : '&' ∉ pair.1.toList := fun hmem => (h.name_plain _ hmem).2.2 rfl
  simp [writtenPart, hname, h.value_eq, a.value_plain]

theorem head_visible (h : Writes pair a) : ∀ c ∈ (writtenPart pair).head?, isBlank c = false := by
  intro c hc
  obtain ⟨d, ds, hd⟩ := List.exists_cons_of_ne_nil h.name_ne_nil
  obtain rfl : d = c := by simpa [writtenPart, hd] using hc
  exact (h.name_plain d (by simp [hd])).1

/-- A value that does not end with a blank ends the written attribute, or the colon does. -/
theorem last_visible (h : Writes pair a)
    (hvalue : ∀ c, a.value.toList.getLast? = some c → isBlank c = false) :
    ∀ c ∈ (writtenPart pair).getLast?, isBlank c = false := by
  intro c hc
  rw [writtenPart, h.value_eq, List.getLast?_append_of_ne_nil _ (by simp), List.getLast?_cons] at hc
  cases hlast : a.value.toList.getLast? with
  | none =>
      obtain rfl : ':' = c := by simpa [hlast] using hc
      decide
  | some d =>
      obtain rfl : d = c := by simpa [hlast] using hc
      exact hvalue d hlast

end Writes

section Lists

variable {pairs : List (String × String)} {attributes : List Attribute}

/-- Each of the written attributes is read as it was meant. -/
theorem mapM_written (h : List.Forall₂ Writes pairs attributes) :
    (pairs.map writtenPart).mapM parseAttribute? = some (attributes.map Attribute.pair) := by
  induction h with
  | nil => simp
  | cons hfirst _ ih => simp [List.mapM_cons, hfirst.parseAttribute?_eq, ih]

theorem exists_writes_of_mem (h : List.Forall₂ Writes pairs attributes) :
    ∀ pair ∈ pairs, ∃ a, Writes pair a := by
  induction h with
  | nil => simp
  | cons hfirst _ ih => simpa using ⟨⟨_, hfirst⟩, by simpa using ih⟩

theorem exists_writes_of_getLast? (h : List.Forall₂ Writes pairs attributes) :
    ∀ pair ∈ pairs.getLast?, ∃ a, attributes.getLast? = some a ∧ Writes pair a := by
  induction h with
  | nil => simp
  | @cons first a pairs attributes hfirst hrest ih =>
      cases hrest with
      | nil => simpa using hfirst
      | cons _ _ => simpa [List.getLast?_cons_cons] using ih

/-- What is written has no blanks around it. -/
theorem trimChars_written (hne : attributes ≠ []) (h : List.Forall₂ Writes pairs attributes)
    (hends : EndsVisible attributes) :
    Text.trimChars (written pairs).toList = (written pairs).toList := by
  have hpart (pair : String × String) : writtenPart pair ≠ [] := by simp [writtenPart]
  rw [written, String.toList_ofList]
  apply Text.trimChars_eq_self
  · cases h with
    | nil => exact absurd rfl hne
    | cons hfirst _ =>
        rw [List.map_cons, Text.head?_intercalate _ (hpart _)]
        exact hfirst.head_visible
  · cases hlast : pairs.getLast? with
    | none =>
        obtain rfl := List.getLast?_eq_none_iff.1 hlast
        nofun
    | some pair =>
        obtain ⟨a, ha, hwrites⟩ := exists_writes_of_getLast? h pair hlast
        have hlast' : (pairs.map writtenPart).getLast? = some (writtenPart pair) := by
          simp [hlast]
        rw [Text.getLast?_intercalate hlast' (hpart _)]
        exact hwrites.last_visible fun c hc => hends a c ha hc

/-- The parts of a written list are its attributes. -/
theorem splitAtPair_written (hne : attributes ≠ []) (h : List.Forall₂ Writes pairs attributes) :
    Text.splitAtPair '&' '&' (written pairs).toList = pairs.map writtenPart := by
  have hparts : ∀ part ∈ pairs.map writtenPart, '&' ∉ part := by
    intro part hpart
    obtain ⟨pair, hpair, rfl⟩ := List.mem_map.1 hpart
    obtain ⟨a, ha⟩ := exists_writes_of_mem h pair hpair
    exact ha.ampersand_notMem
  have hpairs : pairs.map writtenPart ≠ [] := by
    cases h with
    | nil => exact absurd rfl hne
    | cons _ _ => simp
  rw [written, String.toList_ofList]
  exact (Text.partsOf_intercalate hpairs hparts).splitAtPair_eq

end Lists

/-! ## Whole texts -/

/-- A text that is neither blank nor `*` is split after trimming. -/
theorem parseAttributes?_of_listed {text : String} (hempty : Text.trimChars text.toList ≠ [])
    (hstar : Text.trimChars text.toList ≠ ['*']) :
    parseAttributes? text =
      (Text.splitAtPair '&' '&' (Text.trimChars text.toList)).mapM parseAttribute? := by
  simp [parseAttributes?, hempty, hstar]

/-- A written list is read as it was meant, unless its last value ends with a blank. -/
theorem parseAttributes?_written {pairs : List (String × String)} {attributes : List Attribute}
    (hne : attributes ≠ []) (hends : EndsVisible attributes)
    (h : List.Forall₂ Writes pairs attributes) :
    parseAttributes? (written pairs) = some (attributes.map Attribute.pair) := by
  have htrim := trimChars_written hne h hends
  -- The first attribute has a colon, so the text is neither empty nor `*`.
  have hsplit := splitAtPair_written hne h
  have hother : ∀ other, Text.splitAtPair '&' '&' other = [other] → ':' ∉ other →
      (written pairs).toList ≠ other := by
    rintro other hother hcolon heq
    rw [heq, hother] at hsplit
    cases h with
    | nil => exact absurd rfl hne
    | cons hfirst _ =>
        rw [List.map_cons] at hsplit
        rw [(List.cons.inj hsplit).1] at hcolon
        exact hcolon (by simp [writtenPart])
  rw [parseAttributes?_of_listed, htrim, hsplit, mapM_written h]
  · rw [htrim]
    exact hother [] rfl (by simp)
  · rw [htrim]
    exact hother ['*'] rfl (by decide)

/-- A list is refused as a whole if one of its parts has no name; the parts are those of the text as
written. -/
theorem parseAttributes?_eq_none_iff {text : String} (hempty : Text.trim text ≠ "")
    (hstar : Text.trim text ≠ "*") :
    ∃ parts, (∀ own, PartsOf text.toList own ↔ own = parts) ∧
      (parseAttributes? text = none ↔ ∃ part ∈ parts, Nameless part) := by
  have hne {s : String} (h : Text.trim text ≠ s) : Text.trimChars text.toList ≠ s.toList := by
    intro heq
    exact h (by rw [Text.trim, heq, String.ofList_toList])
  rw [parseAttributes?_of_listed (hne hempty) (hne hstar), mapM_eq_none_iff]
  obtain ⟨parts, hparts, hsame⟩ :=
    alike_of_trimmed (Text.trimmed_trimChars text.toList) (Text.partsOf_splitAtPair _)
  refine ⟨parts, fun own => ?_, hsame.symm⟩
  rw [Text.partsOf_iff, hparts.splitAtPair_eq]

/-- What is written is read back, in any spelling of the names. A text that is blank or a `*`, up to the
blanks around it, has no attributes; any other text is not read exactly if one of its parts has no
name. -/
theorem attributes_read :
    (∀ attributes : List Attribute, attributes ≠ [] → EndsVisible attributes →
      parseAttributes? (written (attributes.map Attribute.pair)) =
          some (attributes.map Attribute.pair) ∧
        ∀ pairs, List.Forall₂ Writes pairs attributes →
          parseAttributes? (written pairs) = some (attributes.map Attribute.pair)) ∧
      ∀ text : String,
        (Text.trim text = "" ∨ Text.trim text = "*" → parseAttributes? text = some []) ∧
          (Text.trim text ≠ "" → Text.trim text ≠ "*" →
            ∃ parts, (∀ own, PartsOf text.toList own ↔ own = parts) ∧
              (parseAttributes? text = none ↔ ∃ part ∈ parts, Nameless part)) := by
  constructor
  · intro attributes hne hends
    -- The pairs of the attributes themselves are one way of writing them.
    have hpairs : List.Forall₂ Writes (attributes.map Attribute.pair) attributes := by
      rw [List.forall₂_map_left_iff, List.forall₂_same]
      exact fun a _ => a.writes_pair
    exact ⟨parseAttributes?_written hne hends hpairs,
      fun pairs h => parseAttributes?_written hne hends h⟩
  · intro text
    refine ⟨fun hnone => ?_, parseAttributes?_eq_none_iff⟩
    have hchars : Text.trimChars text.toList = (Text.trim text).toList := by
      rw [Text.trim, String.toList_ofList]
    rw [parseAttributes?, hchars]
    rcases hnone with hempty | hstar
    · simp [hempty]
    · simp [hstar]

/-- Two attributes, the second with a colon and a space in its value and its name in lower case; and a
text of two parts of which the second has no name. -/
theorem attributes_read_two :
    parseAttributes? "NAME:q&&class:btn primary:x" = some [("NAME", "q"), ("CLASS", "btn primary:x")] ∧
      parseAttributes? " NAME:q&& :x" = none := by
  let name : Attribute := ⟨"NAME", "q", by decide, by decide, by simp [isBlank], by decide⟩
  let cls : Attribute := ⟨"CLASS", "btn primary:x", by decide, by decide, by simp [isBlank], by decide⟩
  constructor
  · have hends : EndsVisible [name, cls] := by
      rintro a c ha hc
      obtain rfl : cls = a := by simpa using ha
      have hlast : cls.value.toList.getLast? = some 'x' := by decide
      obtain rfl : 'x' = c := Option.some.inj (hlast.symm.trans hc)
      decide
    have hwrites : List.Forall₂ Writes [("NAME", "q"), ("class", "btn primary:x")] [name, cls] :=
      .cons ⟨by decide, rfl⟩ (.cons ⟨by decide, rfl⟩ .nil)
    have hread := (attributes_read.1 [name, cls] (by simp) hends).2 _ hwrites
    have hwritten : written [("NAME", "q"), ("class", "btn primary:x")] =
        "NAME:q&&class:btn primary:x" := by decide +kernel
    rwa [hwritten] at hread
  · obtain ⟨parts, hparts, hnone⟩ :=
      (attributes_read.2 " NAME:q&& :x").2 (by decide) (by decide)
    rw [hnone, ← (hparts _).1 (Text.partsOf_splitAtPair _)]
    exact ⟨" :x".toList, by decide, .inr ⟨[' '], ['x'], rfl, by simp [isBlank]⟩⟩

/-- A `*` with blanks around it has no colon and is read all the same, and a letter outside ASCII stays
in lower case. -/
theorem padded_star_read :
    ¬(parseAttributes? " * " = none ↔
        ∃ parts, PartsOf " * ".toList parts ∧ ∃ part ∈ parts, Nameless part) ∧
      parseAttributes? "É:x" = some [("É", "x")] ∧ parseAttributes? "é:x" = some [("é", "x")] := by
  have hnameless : ∃ parts, PartsOf " * ".toList parts ∧ ∃ part ∈ parts, Nameless part :=
    ⟨_, Text.partsOf_splitAtPair _, " * ".toList, by decide, .inl (by decide)⟩
  refine ⟨fun hiff => ?_, by decide +kernel, by decide +kernel⟩
  have hread : parseAttributes? " * " = some [] := by decide +kernel
  rw [hiff.2 hnameless] at hread
  nomatch hread

end Browser.Query
end MacroReplay
