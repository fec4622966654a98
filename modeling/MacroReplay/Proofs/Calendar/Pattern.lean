import Mathlib.Data.List.Infix
import MacroReplay.Calendar.Pattern

/-!
# What a pattern writes

* `Field.atFront?_eq_some_iff` — the word that is taken at a place is the longest one that fits there;
* `WrittenBy` — a date-time written piece by piece: the longest word that fits, or one character;
* `writtenBy_iff` — this is how a pattern is written.
-/

namespace MacroReplay.Calendar

/-! ## Words -/

/-- The word stands at the front of the text, in any letter case. -/
def Fits (word cs : List Char) : Prop :=
  word <+: cs.map Char.toLower

instance (word cs : List Char) : Decidable (Fits word cs) :=
  inferInstanceAs (Decidable (_ <+: _))

/-- No word that fits at the front of the text is longer than `n`. -/
def FitsWithin (n : Nat) (cs : List Char) : Prop :=
  ∀ entry ∈ Field.words, Fits entry.1 cs → entry.1.length ≤ n

/-- Every word is one to four characters long. -/
theorem Field.length_word {entry : List Char × Field} (h : entry ∈ words) :
    1 ≤ entry.1.length ∧ entry.1.length ≤ 4 := by
  revert entry
  decide

/-- A word stands before its own beginnings, so the first one that fits is the longest. -/
theorem Field.words_pairwise : words.Pairwise fun entry later => ¬entry.1 <+: later.1 := by
  decide

/-- Four characters are enough to look at. -/
theorem fits_take_iff {entry : List Char × Field} (h : entry ∈ Field.words) (cs : List Char) :
    Fits entry.1 (cs.take 4) ↔ Fits entry.1 cs := by
  rw [Fits, List.map_take, List.prefix_take_iff]
  exact and_iff_left (Field.length_word h).2

/-- A word stands for one part only. -/
theorem Field.word_injective {a b : List Char × Field} (ha : a ∈ words) (hb : b ∈ words)
    (h : a.1 = b.1) : a = b := by
  have hwords : ∀ a ∈ words, ∀ b ∈ words, a.1 = b.1 → a = b := by decide
  exact hwords a ha b hb h

/-- Of two words that fit at one place, the first in the list is not the shorter one. -/
theorem Fits.length_le {a b : List Char × Field} {cs : List Char} (ha : Fits a.1 cs) (hb : Fits b.1 cs)
    (h : ¬a.1 <+: b.1) : b.1.length ≤ a.1.length := by
  rcases List.prefix_or_prefix_of_prefix ha hb with hprefix | hprefix
  · exact absurd hprefix h
  · exact hprefix.length_le

/-- The words are tried in an order in which the first that fits is the longest. -/
theorem Field.longest_of_find? {cs : List Char} {entry : List Char × Field}
    (h : (words.find? fun entry => entry.1.isPrefixOf (cs.map Char.toLower)) = some entry) :
    entry ∈ words ∧ Fits entry.1 cs ∧ FitsWithin entry.1.length cs := by
  obtain ⟨hfits, before, after, hwords, hbefore⟩ := List.find?_eq_some_iff_append.1 h
  have hfits : Fits entry.1 cs := List.isPrefixOf_iff_prefix.1 hfits
  refine ⟨by simp [hwords], hfits, fun other hother hfits' => ?_⟩
  rw [hwords, List.mem_append, List.mem_cons] at hother
  rcases hother with hother | rfl | hother
  · -- A word before the one that was found does not fit.
    have hnot := hbefore other hother
    rw [List.isPrefixOf_iff_prefix.2 hfits'] at hnot
    nomatch hnot
  · exact Nat.le_refl _
  · have hpairwise := words_pairwise
    rw [hwords, List.pairwise_append] at hpairwise
    exact hfits.length_le hfits' ((List.pairwise_cons.1 hpairwise.2.1).1 other hother)

/-- The word that is taken at the front of a text is the longest one that fits. -/
theorem Field.atFront?_eq_some_iff {cs : List Char} {n : Nat} {f : Field} :
    atFront? (cs.take 4) = some (n, f) ↔
      ∃ word, (word, f) ∈ words ∧ word.length = n ∧ Fits word cs ∧ FitsWithin n cs := by
  have hwithin (n : Nat) : FitsWithin n (cs.take 4) ↔ FitsWithin n cs :=
    forall₂_congr fun entry hentry => by rw [fits_take_iff hentry]
  rw [atFront?, Option.map_eq_some_iff]
  constructor
  · rintro ⟨⟨word, f'⟩, hfind, heq⟩
    obtain ⟨rfl, rfl⟩ := Prod.mk.inj heq
    obtain ⟨hmem, hfits, hlongest⟩ := longest_of_find? hfind
    exact ⟨word, hmem, rfl, (fits_take_iff hmem cs).1 hfits, (hwithin _).1 hlongest⟩
  · rintro ⟨word, hmem, rfl, hfits, hlongest⟩
    have hfits' : Fits word (cs.take 4) := (fits_take_iff hmem cs).2 hfits
    obtain ⟨found, hfind⟩ : ∃ found, (words.find? fun entry =>
        entry.1.isPrefixOf ((cs.take 4).map Char.toLower)) = some found := by
      rw [← Option.isSome_iff_exists, List.find?_isSome]
      exact ⟨(word, f), hmem, List.isPrefixOf_iff_prefix.2 hfits'⟩
    obtain ⟨hfound, hfoundFits, hfoundLongest⟩ := longest_of_find? hfind
    -- Both are the longest, so they have the same length and are the same word.
    have hlength : found.1.length = word.length :=
      Nat.le_antisymm (hlongest found hfound ((fits_take_iff hfound cs).1 hfoundFits))
        (hfoundLongest (word, f) hmem hfits')
    have hword : found.1 = word :=
      (List.prefix_of_prefix_length_le hfoundFits hfits' (Nat.le_of_eq hlength)).eq_of_length hlength
    obtain rfl : found = (word, f) := word_injective hfound hmem hword
    exact ⟨(word, f), hfind, rfl⟩

/-- No part is found if no word fits, and only then. -/
theorem Field.atFront?_eq_none_iff {cs : List Char} :
    atFront? (cs.take 4) = none ↔ ∀ entry ∈ words, ¬Fits entry.1 cs := by
  rw [atFront?, Option.map_eq_none_iff, List.find?_eq_none]
  refine forall₂_congr fun entry hentry => ?_
  rw [List.isPrefixOf_iff_prefix]
  exact (fits_take_iff hentry cs).not

/-! ## Patterns -/

/-- `WrittenBy t cs out` means that the pattern `cs` writes `t` as `out`. At each place the longest word
that fits, in any letter case, is replaced by its part of the date-time; where none fits, the character
is copied. -/
inductive WrittenBy (t : DateTime) : List Char → List Char → Prop where
  | nil : WrittenBy t [] []
  | field {word spelled rest out : List Char} {f : Field} :
      (word, f) ∈ Field.words → spelled.map Char.toLower = word →
      FitsWithin word.length (spelled ++ rest) → WrittenBy t rest out →
      WrittenBy t (spelled ++ rest) ((f.render t).toList ++ out)
  | char {c : Char} {rest out : List Char} :
      (∀ entry ∈ Field.words, ¬Fits entry.1 (c :: rest)) → WrittenBy t rest out →
      WrittenBy t (c :: rest) (c :: out)

def writtenItems (t : DateTime) (cs : List Char) : List Char :=
  (patternItems cs).flatMap fun item => (item.render t).toList

/-- The text of a date-time is that of the pieces of the pattern. -/
theorem toList_format (t : DateTime) (pattern : String) :
    (t.format pattern).toList = writtenItems t pattern.toList := by
  simp only [DateTime.format, writtenItems, String.toList_join, List.map_map, List.flatMap]
  rfl

/-- The longest word at the front is replaced by its part, however it is spelled. -/
theorem writtenItems_field (t : DateTime) {word spelled rest : List Char} {f : Field}
    (hword : (word, f) ∈ Field.words) (hspelled : spelled.map Char.toLower = word)
    (hlongest : FitsWithin word.length (spelled ++ rest)) :
    writtenItems t (spelled ++ rest) = (f.render t).toList ++ writtenItems t rest := by
  have hlength : spelled.length = word.length := by rw [← hspelled, List.length_map]
  have hfits : Fits word (spelled ++ rest) := by
    rw [Fits, List.map_append, hspelled]
    exact List.prefix_append ..
  have hfront : Field.atFront? ((spelled ++ rest).take 4) = some (word.length, f) :=
    Field.atFront?_eq_some_iff.2 ⟨word, hword, rfl, hfits, hlongest⟩
  have hone : 1 ≤ word.length := (Field.length_word hword).1
  cases spelled with
  | nil => simp at hlength; omega
  | cons c spelled =>
      have hdrop : (spelled ++ rest).drop (word.length - 1) = rest := by
        rw [← hlength, List.length_cons, Nat.add_sub_cancel, List.drop_left]
      rw [List.cons_append] at hfront
      rw [writtenItems, List.cons_append, patternItems, hfront]
      simp only [hdrop, List.flatMap_cons, PatternItem.render, writtenItems]

/-- Where no word fits the character is copied. -/
theorem writtenItems_char (t : DateTime) {c : Char} {rest : List Char}
    (hnone : ∀ entry ∈ Field.words, ¬Fits entry.1 (c :: rest)) :
    writtenItems t (c :: rest) = c :: writtenItems t rest := by
  rw [writtenItems, patternItems, Field.atFront?_eq_none_iff.2 hnone]
  simp [PatternItem.render, writtenItems]

/-- The pieces write what the pattern asks for. -/
theorem writtenBy_writtenItems (t : DateTime) (cs : List Char) : WrittenBy t cs (writtenItems t cs) := by
  match cs with
  | [] =>
      rw [writtenItems, patternItems]
      exact .nil
  | c :: cs =>
      cases hfront : Field.atFront? ((c :: cs).take 4) with
      | none =>
          have hnone := Field.atFront?_eq_none_iff.1 hfront
          rw [writtenItems_char t hnone]
          exact .char hnone (writtenBy_writtenItems t cs)
      | some found =>
          obtain ⟨word, hword, hlength, hfits, hlongest⟩ := Field.atFront?_eq_some_iff.1 hfront
          have hone : 1 ≤ word.length := (Field.length_word hword).1
          -- The word is spelled by as many characters as it has.
          have hspelled : ((c :: cs).take word.length).map Char.toLower = word := by
            rw [List.map_take, ← List.prefix_iff_eq_take.1 hfits]
          rw [← hlength, ← List.take_append_drop word.length (c :: cs)] at hlongest
          have hrest := writtenBy_writtenItems t ((c :: cs).drop word.length)
          have hwritten := WrittenBy.field hword hspelled hlongest hrest
          rw [← writtenItems_field t hword hspelled hlongest, List.take_append_drop] at hwritten
          exact hwritten
termination_by cs.length
decreasing_by
  · simp
  · simp only [List.length_drop, List.length_cons]
    omega

/-- A pattern writes a date-time in one way only. -/
theorem WrittenBy.eq_writtenItems {t : DateTime} {cs out : List Char} (h : WrittenBy t cs out) :
    out = writtenItems t cs := by
  induction h with
  | nil => simp [writtenItems, patternItems]
  | field hword hspelled hlongest _ ih => rw [writtenItems_field t hword hspelled hlongest, ih]
  | char hnone _ ih => rw [writtenItems_char t hnone, ih]

/-- A pattern writes one text, and this is the one that it writes. -/
theorem writtenBy_iff {t : DateTime} {pattern : String} {out : List Char} :
    WrittenBy t pattern.toList out ↔ out = (t.format pattern).toList := by
  rw [toList_format]
  exact ⟨WrittenBy.eq_writtenItems, fun h => h ▸ writtenBy_writtenItems t pattern.toList⟩

end MacroReplay.Calendar
