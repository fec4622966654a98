import Mathlib.Data.List.Infix
import MacroReplay.Proofs.Command.Lines
import MacroReplay.Proofs.Variable.Invariant
import MacroReplay.Variable.Expansion

/-!
# Placeholders are replaced in one pass

A text is cut at its placeholders from the left, and every part is replaced on its own. So a text may be
cut in two wherever its front leaves no braces open, and what takes the place of a placeholder has no
say in what becomes of the rest.

* `Text.cutAtText_eq_some_iff` — where a text first occurs in another;
* `Expansion.ClosedText` — the texts that leave no braces open, as a grammar that does not scan;
* `Expansion.JoinsLiterals.gather_append` — whatever is gathered from the parts of a text is gathered
  from a closed front first;
* `Expansion.exists_closed_front` — every text is closed, up to a brace at its end or braces that nothing
  closes;
* `Store.expand_congr` — an expansion depends on nothing but what its placeholders ask for;
* `Store.onePass` — the expansion of a text and its references.
-/

namespace MacroReplay

/-! ## First occurrences -/

namespace Text

/-- A text is not cut exactly if the separator does not stand in it. -/
theorem cutAtText_eq_none_iff {sep cs : List Char} (hsep : sep ≠ []) :
    cutAtText sep cs = none ↔ ¬sep <:+: cs := by
  induction cs with
  | nil => simp [cutAtText, hsep]
  | cons c cs ih =>
      rw [List.infix_cons_iff, ← List.isPrefixOf_iff_prefix]
      by_cases hfront : sep.isPrefixOf (c :: cs) = true
      · simp [cutAtText, hfront]
      · simp [cutAtText, hfront, ih]

/-- An occurrence that begins in `before` does not reach behind the last but one character of `sep`. -/
theorem not_prefix_of_first {sep before after : List Char} {c : Char}
    (hfirst : ¬sep <:+: c :: before ++ sep.dropLast) : ¬sep <+: c :: before ++ sep ++ after := by
  intro hoccurs
  have hshort : c :: before ++ sep.dropLast <+: c :: before ++ sep ++ after := by
    rw [List.append_assoc (c :: before), List.prefix_append_right_inj]
    exact (List.dropLast_prefix sep).trans (List.prefix_append sep after)
  have hlength : sep.length ≤ (c :: before ++ sep.dropLast).length := by
    simp only [List.length_append, List.length_cons, List.length_dropLast]
    omega
  exact hfirst (List.prefix_of_prefix_length_le hoccurs hshort hlength).isInfix

/-- The first occurrence of `sep`: none begins before it, not even one that overlaps with it. -/
theorem cutAtText_eq_some_iff {sep cs before after : List Char} (hsep : sep ≠ []) :
    cutAtText sep cs = some (before, after) ↔
      cs = before ++ sep ++ after ∧ ¬sep <:+: before ++ sep.dropLast := by
  induction cs generalizing before with
  | nil => simp [cutAtText, hsep]
  | cons c cs ih =>
      by_cases hfront : sep.isPrefixOf (c :: cs) = true
      · obtain ⟨tail, htail⟩ := List.isPrefixOf_iff_prefix.1 hfront
        have hcut : cutAtText sep (c :: cs) = some ([], tail) := by
          simp [cutAtText, ← htail]
        rw [hcut, ← htail]
        constructor
        · intro hsome
          cases hsome
          refine ⟨rfl, fun hoccurs => ?_⟩
          have hlength := hoccurs.length_le
          have hpos : 0 < sep.length := List.length_pos_iff.2 hsep
          simp only [List.nil_append, List.length_dropLast] at hlength
          omega
        · rintro ⟨hsplit, hfirst⟩
          -- An occurrence at the front is the first one, so nothing can stand before it.
          cases before with
          | nil => simpa using hsplit
          | cons b before =>
              have hoccurs : sep <+: b :: before ++ sep ++ after := ⟨tail, hsplit⟩
              exact absurd hoccurs (not_prefix_of_first hfirst)
      · have hcut : cutAtText sep (c :: cs) =
            (cutAtText sep cs).map fun parts => (c :: parts.1, parts.2) := by
          simp only [cutAtText, hfront]
          rfl
        rw [List.isPrefixOf_iff_prefix] at hfront
        rw [hcut]
        constructor
        · intro hsome
          obtain ⟨⟨before', after'⟩, hcut', heq⟩ := Option.map_eq_some_iff.1 hsome
          cases heq
          obtain ⟨rfl, hfirst⟩ := ih.1 hcut'
          refine ⟨rfl, ?_⟩
          rw [List.cons_append, List.infix_cons_iff, not_or]
          refine ⟨fun hprefix => hfront ?_, hfirst⟩
          have hshort : before' ++ sep.dropLast <+: before' ++ sep ++ after' := by
            rw [List.append_assoc, List.prefix_append_right_inj]
            exact (List.dropLast_prefix sep).trans (List.prefix_append sep after')
          exact hprefix.trans ((List.prefix_cons_inj c).2 hshort)
        · rintro ⟨hsplit, hfirst⟩
          cases before with
          | nil => exact absurd ⟨after, hsplit.symm⟩ hfront
          | cons b before =>
              obtain ⟨rfl, rfl⟩ := List.cons.inj hsplit
              have hfirst' : ¬sep <:+: before ++ sep.dropLast := fun hoccurs =>
                hfirst (hoccurs.trans (List.suffix_cons c _).isInfix)
              rw [ih.2 ⟨rfl, hfirst'⟩]
              rfl

end Text

/-! ## Braces -/

namespace Expansion

/-- No two braces stand in a row, and none at the end, where it could be the first of two. -/
def Detached (brace : Char) (cs : List Char) : Prop :=
  ¬[brace, brace] <:+: cs ∧ cs.getLast? ≠ some brace

/-- In other words, one more brace at the end does not make two in a row. -/
theorem detached_iff {brace : Char} {cs : List Char} :
    Detached brace cs ↔ ¬[brace, brace] <:+: cs ++ [brace] := by
  have hlast : [brace, brace] <:+ cs ++ [brace] ↔ cs.getLast? = some brace := by
    rw [← List.singleton_suffix_iff_getLast?_eq_some]
    exact @List.suffix_append_self_iff _ [brace] cs [brace]
  rw [Detached, List.infix_concat_iff, hlast, not_or, and_comm]

theorem detached_of_notMem {brace : Char} {cs : List Char} (h : brace ∉ cs) : Detached brace cs := by
  constructor
  · intro hoccurs
    exact h (hoccurs.subset (by simp))
  · intro hlast
    exact h (List.mem_of_getLast? hlast)

theorem detached_nil (brace : Char) : Detached brace [] :=
  detached_of_notMem List.not_mem_nil

/-- Two braces in a row behind a detached front stand behind it altogether. -/
theorem Detached.infix_append_iff {brace : Char} {a b : List Char} (ha : Detached brace a) :
    [brace, brace] <:+: a ++ b ↔ [brace, brace] <:+: b := by
  induction a with
  | nil => rfl
  | cons c a ih =>
      have ha' : Detached brace a := by
        refine ⟨fun hoccurs => ha.1 (hoccurs.trans (List.suffix_cons c a).isInfix), fun hlast => ha.2 ?_⟩
        rw [List.getLast?_cons, hlast, Option.getD_some]
      rw [List.cons_append, List.infix_cons_iff, ih ha', or_iff_right_iff_imp]
      rintro ⟨tail, htail⟩
      -- The pair would begin with `c`, and its second brace stand in `a` or be the first of `b`.
      obtain ⟨rfl, htail'⟩ := List.cons.inj htail
      cases a with
      | nil => exact absurd rfl ha.2
      | cons d a =>
          obtain ⟨rfl, -⟩ := List.cons.inj htail'
          exact absurd (List.prefix_append [brace, brace] a).isInfix ha.1

/-- Texts that leave no brace at their ends can be joined. -/
theorem Detached.append {brace : Char} {a b : List Char} (ha : Detached brace a)
    (hb : Detached brace b) : Detached brace (a ++ b) := by
  rw [detached_iff, List.append_assoc, ha.infix_append_iff]
  exact detached_iff.1 hb

/-- A detached front does not move the first pair of braces. -/
theorem Detached.cutAtText_append {brace : Char} {a : List Char} (ha : Detached brace a)
    (b : List Char) :
    Text.cutAtText [brace, brace] (a ++ b) =
      (Text.cutAtText [brace, brace] b).map fun (before, after) => (a ++ before, after) := by
  cases hcut : Text.cutAtText [brace, brace] b with
  | none =>
      rw [Text.cutAtText_eq_none_iff (by simp)] at hcut
      rw [Option.map_none, Text.cutAtText_eq_none_iff (by simp), ha.infix_append_iff]
      exact hcut
  | some parts =>
      obtain ⟨before, after⟩ := parts
      obtain ⟨rfl, hfirst⟩ := (Text.cutAtText_eq_some_iff (by simp)).1 hcut
      rw [Option.map_some, Text.cutAtText_eq_some_iff (by simp)]
      exact ⟨by simp, detached_iff.1 (ha.append (detached_iff.2 hfirst))⟩

/-- The first two braces behind a detached text are those that follow it. -/
theorem cutAtText_of_detached {brace : Char} {before : List Char} (hbefore : Detached brace before)
    (after : List Char) :
    Text.cutAtText [brace, brace] (before ++ [brace, brace] ++ after) = some (before, after) :=
  (Text.cutAtText_eq_some_iff (by simp)).2 ⟨rfl, detached_iff.1 hbefore⟩

/-! ## The parts of a text -/

/-- The parts of a text, without the bound that its recursion needs. -/
theorem pieces_eq (cs : List Char) :
    pieces cs =
      match Text.cutAtText opening cs with
      | none => [.literal cs]
      | some (before, after) =>
          match Text.cutAtText closing after with
          | none => [.literal before, .literal (opening ++ after)]
          | some (inner, rest) => .literal before :: .hole inner :: pieces rest := by
  rw [pieces]
  split
  · rename_i hopening
    simp only [hopening]
  · rename_i before after hopening
    simp only [hopening]
    split
    · rename_i hclosing
      simp only [hclosing]
    · rename_i inner rest hclosing
      simp only [hclosing]

theorem pieces_of_plain {cs : List Char} (h : ¬opening <:+: cs) : pieces cs = [.literal cs] := by
  have hopening : Text.cutAtText opening cs = none := (Text.cutAtText_eq_none_iff (by decide)).2 h
  simp only [pieces_eq cs, hopening]

/-- Braces that nothing closes are literal. -/
theorem pieces_of_unclosed {cs before after : List Char}
    (hopening : Text.cutAtText opening cs = some (before, after)) (h : ¬closing <:+: after) :
    pieces cs = [.literal before, .literal (opening ++ after)] := by
  have hclosing : Text.cutAtText closing after = none := (Text.cutAtText_eq_none_iff (by decide)).2 h
  simp only [pieces_eq cs, hopening, hclosing]

theorem pieces_of_closed {cs before after inner rest : List Char}
    (hopening : Text.cutAtText opening cs = some (before, after))
    (hclosing : Text.cutAtText closing after = some (inner, rest)) :
    pieces cs = .literal before :: .hole inner :: pieces rest := by
  simp only [pieces_eq cs, hopening, hclosing]

/-- A placeholder behind a detached text is cut out as it stands. -/
theorem pieces_hole {before inner : List Char} (hbefore : Detached '\x7b' before)
    (hinner : Detached '\x7d' inner) (rest : List Char) :
    pieces (before ++ opening ++ (inner ++ closing ++ rest)) =
      .literal before :: .hole inner :: pieces rest :=
  pieces_of_closed (cutAtText_of_detached hbefore _) (cutAtText_of_detached hinner _)

/-- A text in which all braces that are opened are closed, and which does not end with a brace that could
open with what follows. -/
inductive ClosedText : List Char → Prop where
  | plain {cs : List Char} : Detached '\x7b' cs → ClosedText cs
  | hole {before inner rest : List Char} : Detached '\x7b' before → Detached '\x7d' inner →
      ClosedText rest → ClosedText (before ++ opening ++ (inner ++ closing ++ rest))

/-- Every text has a closed front, behind which there is nothing, a single brace, or braces that nothing
closes and all that follows them. -/
theorem exists_closed_front (cs : List Char) :
    ∃ front, ClosedText front ∧ (cs = front ∨ cs = front ++ ['\x7b'] ∨
      ∃ rest, cs = front ++ opening ++ rest ∧ ¬closing <:+: rest) := by
  induction cs using pieces.induct with
  | case1 cs hopening =>
      have hplain : ¬opening <:+: cs := (Text.cutAtText_eq_none_iff (by decide)).1 hopening
      -- No braces are opened, but one at the end could be the first of two.
      by_cases hlast : cs.getLast? = some '\x7b'
      · obtain ⟨front, rfl⟩ := List.getLast?_eq_some_iff.1 hlast
        exact ⟨front, .plain (detached_iff.2 hplain), .inr (.inl rfl)⟩
      · exact ⟨cs, .plain ⟨hplain, hlast⟩, .inl rfl⟩
  | case2 cs before after hopening hclosing =>
      obtain ⟨rfl, hfirst⟩ := (Text.cutAtText_eq_some_iff (by decide)).1 hopening
      have hopen : ¬closing <:+: after := (Text.cutAtText_eq_none_iff (by decide)).1 hclosing
      exact ⟨before, .plain (detached_iff.2 hfirst), .inr (.inr ⟨after, rfl, hopen⟩)⟩
  | case3 cs before after hopening inner rest hclosing _ ih =>
      obtain ⟨rfl, hbefore⟩ := (Text.cutAtText_eq_some_iff (by decide)).1 hopening
      obtain ⟨rfl, hinner⟩ := (Text.cutAtText_eq_some_iff (by decide)).1 hclosing
      -- A placeholder, and then what the rest of the text leaves open.
      obtain ⟨front, hfront, hform⟩ := ih
      refine ⟨before ++ opening ++ (inner ++ closing ++ front),
        .hole (detached_iff.2 hbefore) (detached_iff.2 hinner) hfront, ?_⟩
      rcases hform with rfl | rfl | ⟨open', rfl, hopen⟩
      · exact .inl rfl
      · exact .inr (.inl (by simp))
      · exact .inr (.inr ⟨open', by simp, hopen⟩)

/-! ## Gathering from the parts -/

section Gather

variable {β : Type} {f : Piece → List β}

/-- What is gathered from the parts of a text, one after another. -/
def gather (f : Piece → List β) (cs : List Char) : List β :=
  (pieces cs).flatMap f

/-- It does not matter where literal parts are cut. -/
def JoinsLiterals (f : Piece → List β) : Prop :=
  ∀ cs ds, f (.literal (cs ++ ds)) = f (.literal cs) ++ f (.literal ds)

theorem gather_of_plain {cs : List Char} (h : ¬opening <:+: cs) : gather f cs = f (.literal cs) := by
  rw [gather, pieces_of_plain h, List.flatMap_singleton]

/-- Braces that nothing closes are gathered with what follows. -/
theorem JoinsLiterals.gather_of_unclosed (hf : JoinsLiterals f) {rest : List Char}
    (h : ¬closing <:+: rest) : gather f (opening ++ rest) = f (.literal (opening ++ rest)) := by
  have hcut : Text.cutAtText opening (opening ++ rest) = some ([], rest) :=
    cutAtText_of_detached (detached_nil _) rest
  rw [gather, pieces_of_unclosed hcut h, List.flatMap_cons, List.flatMap_singleton, ← hf,
    List.nil_append]

/-- A detached front joins the first literal part of what follows. -/
theorem JoinsLiterals.gather_append_of_detached (hf : JoinsLiterals f) {a : List Char}
    (ha : Detached '\x7b' a) (b : List Char) : gather f (a ++ b) = f (.literal a) ++ gather f b := by
  have hcut : Text.cutAtText opening (a ++ b) =
      (Text.cutAtText opening b).map fun (before, after) => (a ++ before, after) :=
    ha.cutAtText_append b
  cases hopening : Text.cutAtText opening b with
  | none =>
      have hplain : ¬opening <:+: b := (Text.cutAtText_eq_none_iff (by decide)).1 hopening
      have hplain' : ¬opening <:+: a ++ b := fun h => hplain (ha.infix_append_iff.1 h)
      rw [gather_of_plain hplain, gather_of_plain hplain', hf]
  | some parts =>
      obtain ⟨before, after⟩ := parts
      -- The first opening braces are those of `b`, with `a` before them.
      have hopening' : Text.cutAtText opening (a ++ b) = some (a ++ before, after) := by
        rw [hcut, hopening]
        rfl
      cases hclosing : Text.cutAtText closing after with
      | none =>
          have hopen : ¬closing <:+: after := (Text.cutAtText_eq_none_iff (by decide)).1 hclosing
          rw [gather, gather, pieces_of_unclosed hopening hopen, pieces_of_unclosed hopening' hopen]
          simp [hf a before]
      | some parts =>
          rw [gather, gather, pieces_of_closed hopening hclosing, pieces_of_closed hopening' hclosing]
          simp [hf a before]

/-- From a closed front everything is gathered before what follows is looked at. -/
theorem JoinsLiterals.gather_append (hf : JoinsLiterals f) {a : List Char} (ha : ClosedText a)
    (b : List Char) : gather f (a ++ b) = gather f a ++ gather f b := by
  induction ha with
  | plain hplain => rw [hf.gather_append_of_detached hplain, gather_of_plain hplain.1]
  | @hole before inner rest hbefore hinner _ ih =>
      have hassoc : before ++ opening ++ (inner ++ closing ++ rest) ++ b =
          before ++ opening ++ (inner ++ closing ++ (rest ++ b)) := by simp
      have hparts : ∀ tail, gather f (before ++ opening ++ (inner ++ closing ++ tail)) =
          f (.literal before) ++ (f (.hole inner) ++ gather f tail) := by
        intro tail
        rw [gather, pieces_hole hbefore hinner, List.flatMap_cons, List.flatMap_cons]
        rfl
      rw [hassoc, hparts, hparts, ih, List.append_assoc, List.append_assoc]

theorem gather_hole {inner : List Char} (hinner : Detached '\x7d' inner) (hnil : f (.literal []) = []) :
    gather f (opening ++ inner ++ closing) = f (.hole inner) := by
  have hparts := pieces_hole (detached_nil _) hinner []
  have hempty : pieces [] = [.literal []] := pieces_of_plain (by decide)
  have htext : opening ++ inner ++ closing = [] ++ opening ++ (inner ++ closing ++ []) := by simp
  rw [gather, htext, hparts, hempty]
  simp [hnil]

end Gather

end Expansion

/-! ## Names -/

namespace Text

/-- Only the small letters of ASCII have an upper case of their own. -/
theorem toUpper_cases (c : Char) : c.toUpper = c ∨ 97 ≤ c.toNat ∧ c.toNat ≤ 122 := by
  unfold Char.toUpper
  split
  · rename_i hletter
    exact .inr hletter
  · exact .inl rfl

/-- What holds of each of the small letters holds of every character that upper case changes. -/
theorem of_letters {P : Char → Prop} (hletters : ∀ n ∈ List.range' 97 26, P (Char.ofNat n))
    {c : Char} (hc : 97 ≤ c.toNat ∧ c.toNat ≤ 122) : P c := by
  have hletter := hletters c.toNat (by simp; omega)
  rwa [Char.ofNat_toNat] at hletter

theorem isBlank_toUpper (c : Char) : isBlank c.toUpper = isBlank c := by
  rcases toUpper_cases c with hsame | hletter
  · rw [hsame]
  · exact of_letters (P := fun c => isBlank c.toUpper = isBlank c) (by decide) hletter

theorem toUpper_toUpper (c : Char) : c.toUpper.toUpper = c.toUpper := by
  rcases toUpper_cases c with hsame | hletter
  · rw [hsame, hsame]
  · exact of_letters (P := fun c => c.toUpper.toUpper = c.toUpper) (by decide) hletter

theorem toUpper_eq_colon_iff {c : Char} : c.toUpper = ':' ↔ c = ':' := by
  rcases toUpper_cases c with hsame | hletter
  · rw [hsame]
  · exact of_letters (P := fun c => c.toUpper = ':' ↔ c = ':') (by decide) hletter

/-- Blanks have no case. -/
theorem trimChars_map_toUpper (cs : List Char) :
    trimChars (cs.map Char.toUpper) = (trimChars cs).map Char.toUpper := by
  have hblank : isBlank ∘ Char.toUpper = isBlank := funext isBlank_toUpper
  simp only [trimChars, dropBlanks, dropEndBlanks, List.dropWhile_map, ← List.map_reverse, hblank]

end Text

namespace Variable

theorem toList_canonical (name : String) :
    (canonical name).toList = (Text.trimChars name.toList).map Char.toUpper := by
  simp [canonical, Text.trim, Text.upper]

/-- The canonical form is its own canonical form. -/
theorem canonical_canonical (name : String) : canonical (canonical name) = canonical name := by
  have htrimmed : Text.trimChars (Text.trimChars name.toList) = Text.trimChars name.toList :=
    (Text.trimmed_trimChars name.toList).trimChars_eq
  apply String.toList_injective
  rw [toList_canonical, toList_canonical, Text.trimChars_map_toUpper, htrimmed, List.map_map]
  exact List.map_congr_left fun c _ => Text.toUpper_toUpper c

end Variable

namespace Expansion

open Variable (canonical)

/-- What stands between the braces asks for something, and has no brace that could close too early. -/
structure Asks (inner : String) : Prop where
  unbraced : '\x7d' ∉ inner.toList
  bang : (Text.trim inner).toList.head? = some '!'

def AsksTime (inner : String) : Prop :=
  "!NOW:".toList <+: (canonical inner).toList

instance (inner : String) : Decidable (AsksTime inner) :=
  inferInstanceAs (Decidable (_ <+: _))

/-- A placeholder that begins with `!NOW:`, in any case, has its pattern behind the first colon. -/
theorem cutAt_colon_of_clock {cs : List Char} (h : "!NOW:".toList <+: cs.map Char.toUpper) :
    ∃ head, Text.cutAt (· == ':') cs = some (head, cs.drop 5) ∧
      head.map Char.toUpper = "!NOW".toList := by
  obtain ⟨tail, htail⟩ := h
  -- The five characters are there, and only the last of them is a colon.
  rcases cs with _ | ⟨c₁, _ | ⟨c₂, _ | ⟨c₃, _ | ⟨c₄, _ | ⟨c₅, cs⟩⟩⟩⟩⟩
  all_goals simp at htail
  obtain ⟨h₁, h₂, h₃, h₄, h₅, -⟩ := htail
  have hcolon : c₅ = ':' := Text.toUpper_eq_colon_iff.1 h₅.symm
  have hother : ∀ {c d : Char}, d = c.toUpper → d ≠ ':' → (c == ':') = false := by
    rintro c d rfl hne
    rw [beq_eq_false_iff_ne]
    exact fun hc => hne (Text.toUpper_eq_colon_iff.2 hc)
  refine ⟨[c₁, c₂, c₃, c₄], ?_, ?_⟩
  · simp [Text.cutAt, hother h₁ (by decide), hother h₂ (by decide), hother h₃ (by decide),
      hother h₄ (by decide), hcolon]
  · simp [← h₁, ← h₂, ← h₃, ← h₄]

theorem clock_of_cutAt_colon {cs head pattern : List Char}
    (hcut : Text.cutAt (· == ':') cs = some (head, pattern))
    (hhead : head.map Char.toUpper = "!NOW".toList) : "!NOW:".toList <+: cs.map Char.toUpper := by
  have hsplit : ∀ cs head, Text.cutAt (· == ':') cs = some (head, pattern) →
      cs = head ++ ':' :: pattern := by
    intro cs
    induction cs with
    | nil => nofun
    | cons c cs ih =>
        intro head hcut
        by_cases hc : c = ':'
        · obtain ⟨rfl, rfl⟩ : [] = head ∧ cs = pattern := by simpa [Text.cutAt, hc] using hcut
          rw [hc, List.nil_append]
        · have hcut' : (Text.cutAt (· == ':') cs).map (fun x => (c :: x.1, x.2)) =
              some (head, pattern) := by simpa [Text.cutAt, hc] using hcut
          obtain ⟨⟨head', pattern'⟩, hrest, heq⟩ := Option.map_eq_some_iff.1 hcut'
          cases heq
          rw [ih head' hrest, List.cons_append]
  rw [hsplit cs head hcut, List.map_append, hhead]
  exact ⟨pattern.map Char.toUpper, by simp⟩

/-- What a placeholder asks for, if it asks for anything. -/
theorem request?_of_bang {inner : String} (hbang : (Text.trim inner).toList.head? = some '!') :
    (AsksTime inner →
        request? inner.toList = some (.time (String.ofList ((Text.trimChars inner.toList).drop 5)))) ∧
      (¬AsksTime inner → request? inner.toList = some (.variable (canonical inner))) := by
  have hcanonical : canonical inner =
      String.ofList ((Text.trimChars inner.toList).map Char.toUpper) := by
    rw [← Variable.toList_canonical, String.ofList_toList]
  rw [Text.trim, String.toList_ofList] at hbang
  rw [AsksTime, Variable.toList_canonical, hcanonical, request?]
  cases hcs : Text.trimChars inner.toList with
  | nil => simp [hcs] at hbang
  | cons c cs =>
      obtain rfl : c = '!' := by simpa [hcs] using hbang
      constructor
      · intro hclock
        obtain ⟨head, hcut, hhead⟩ := cutAt_colon_of_clock hclock
        simp only [hcut, hhead, if_true]
      · intro hclock
        -- There may be a colon, but not behind `!NOW`.
        cases hcut : Text.cutAt (· == ':') ('!' :: cs) with
        | none => rfl
        | some parts =>
            have hhead : parts.1.map Char.toUpper ≠ "!NOW".toList := fun hhead =>
              hclock (clock_of_cutAt_colon hcut hhead)
            simp only [hhead, if_false]

/-- Requests are counted under the canonical names of what they ask for. -/
theorem canonical_name_of_request? {inner : List Char} {r : Request} (h : request? inner = some r) :
    canonical r.name = r.name := by
  have hbang : (Text.trimChars inner).head? = some '!' := by
    rw [request?] at h
    cases hcs : Text.trimChars inner with
    | nil => simp [hcs] at h
    | cons c cs =>
        by_cases hc : c = '!'
        · rw [hc, List.head?_cons]
        · simp only [hcs] at h
          split at h
          · simp_all
          · cases h
  have hbang' : (Text.trim (String.ofList inner)).toList.head? = some '!' := by
    simpa [Text.trim] using hbang
  obtain ⟨htime, hvariable⟩ := request?_of_bang hbang'
  rw [String.toList_ofList] at htime hvariable
  by_cases hasks : AsksTime (String.ofList inner)
  · cases (htime hasks).symm.trans h
    exact Variable.canonical_eq_self Variable.rule?_now
  · cases (hvariable hasks).symm.trans h
    exact Variable.canonical_canonical _

/-- A placeholder names its variable in canonical form. -/
theorem canonical_of_name? {p : Piece} {name : String} (h : p.name? = some name) :
    canonical name = name := by
  cases p with
  | literal cs => cases h
  | hole inner =>
      obtain ⟨r, hr, rfl⟩ := Option.map_eq_some_iff.1 h
      exact canonical_name_of_request? hr

/-- It does not matter whether names are dropped before or after the repeated ones. -/
theorem filter_eraseDups (keeps : String → Bool) (names : List String) :
    (names.filter keeps).eraseDups = names.eraseDups.filter keeps := by
  induction hlength : names.length using Nat.strongRecOn generalizing names with
  | ind n ih =>
      cases names with
      | nil => rfl
      | cons name names =>
          have hshorter : (names.filter fun other => !other == name).length < n := by
            have hle := List.length_filter_le (fun other => !other == name) names
            rw [List.length_cons] at hlength
            omega
          have hrest := ih _ hshorter (names.filter fun other => !other == name) rfl
          rw [List.eraseDups_cons]
          by_cases hkept : keeps name = true
          · rw [List.filter_cons_of_pos hkept, List.filter_cons_of_pos hkept, List.eraseDups_cons,
              List.filter_comm, hrest]
          · -- The name is left out anyway, so it does not matter whether its repetitions are.
            have hsame :
                (names.filter fun other => !other == name).filter keeps = names.filter keeps := by
              rw [List.filter_filter]
              apply List.filter_congr
              intro other _
              by_cases hother : other = name
              · subst hother
                simp [hkept]
              · simp [hother]
            rw [List.filter_cons_of_neg hkept, List.filter_cons_of_neg hkept, ← hrest, hsame]

theorem nodup_eraseDups (names : List String) : names.eraseDups.Nodup := by
  induction hlength : names.length using Nat.strongRecOn generalizing names with
  | ind n ih =>
      cases names with
      | nil => simp
      | cons name names =>
          have hshorter : (names.filter fun other => !other == name).length < n := by
            have hle := List.length_filter_le (fun other => !other == name) names
            rw [List.length_cons] at hlength
            omega
          rw [List.eraseDups_cons, List.nodup_cons]
          exact ⟨by simp, ih _ hshorter _ rfl⟩

def placeholder (inner : String) : String :=
  "\x7b\x7b" ++ inner ++ "\x7d\x7d"

/-- A placeholder closes its own braces. -/
theorem closedText_placeholder {inner : String} (hinner : Detached '\x7d' inner.toList) :
    ClosedText (placeholder inner).toList := by
  have htext : (placeholder inner).toList = [] ++ opening ++ (inner.toList ++ closing ++ []) := by
    simp [placeholder, opening, closing]
  rw [htext]
  exact .hole (detached_nil _) hinner (.plain (detached_nil _))

theorem closed_placeholder {inner : String} (hinner : '\x7d' ∉ inner.toList) :
    ClosedText (placeholder inner).toList :=
  closedText_placeholder (detached_of_notMem hinner)

end Expansion

/-! ## The expansion of a text -/

namespace Store

open Calendar (DateTime)
open Expansion

/-- The expansion of a text is what is gathered from its pieces. -/
theorem toList_expand (s : Store) (now : DateTime) (text : String) :
    (s.expand now text).toList = gather (Piece.render now s) text.toList := by
  simp [expand, gather]

theorem references_eq (text : String) :
    references text = (gather (fun p => p.name?.toList) text.toList).eraseDups := by
  rw [references, List.filterMap_eq_flatMap_toList]
  rfl

/-- Literal parts are rendered as they stand. -/
theorem joinsLiterals_render (s : Store) (now : DateTime) : JoinsLiterals (Piece.render now s) :=
  fun _ _ => rfl

theorem joinsLiterals_names : JoinsLiterals fun p : Piece => p.name?.toList :=
  fun _ _ => rfl

/-- The references are the names of the placeholders. -/
theorem mem_references_iff {text name : String} :
    name ∈ references text ↔ ∃ p ∈ pieces text.toList, p.name? = some name := by
  rw [references, List.mem_eraseDups, List.mem_filterMap]

theorem canonical_of_mem_references {text name : String} (h : name ∈ references text) :
    Variable.canonical name = name := by
  obtain ⟨p, -, hp⟩ := mem_references_iff.1 h
  exact canonical_of_name? hp

/-- An expansion depends on the variables that its placeholders name, and on the time only if one of them
asks for it. -/
theorem expand_congr {s s' : Store} {now now' : DateTime} {text : String}
    (hvalues : ∀ name ∈ references text, s.get now name = s'.get now' name)
    (htime : "!NOW" ∈ references text → now = now') : s.expand now text = s'.expand now' text := by
  apply String.toList_injective
  rw [toList_expand, toList_expand]
  apply List.flatMap_congr
  intro p hp
  cases p with
  | literal cs => rfl
  | hole inner =>
      cases hr : request? inner with
      | none => simp only [Piece.render, hr]
      | some r =>
          have hmem : r.name ∈ references text :=
            mem_references_iff.2 ⟨_, hp, by simp [Piece.name?, hr]⟩
          have hanswer : r.answer now s = r.answer now' s' := by
            rcases r with name | pattern
            · simp only [Request.answer, getText, hvalues name hmem]
            · rw [htime hmem, Request.answer, Request.answer]
          simp only [Piece.render, hr, hanswer]

/-- A text that does not ask for the time is expanded the same at any moment. -/
theorem expand_eq_of_timeless {text : String} (htime : "!NOW" ∉ references text) (s : Store)
    (now now' : DateTime) : s.expand now text = s.expand now' text := by
  refine expand_congr ?_ fun hmem => absurd hmem htime
  intro name hmem
  have hname : Variable.canonical name ≠ "!NOW" := by
    rw [canonical_of_mem_references hmem]
    exact fun hnow => htime (hnow ▸ hmem)
  simp only [get, hname, if_false]

/-- The references of a closed text come first, then the new ones of the text behind it. -/
theorem references_append {a b : String} (ha : ClosedText a.toList) :
    references (a ++ b) =
      references a ++ (references b).filter fun name => name ∉ references a := by
  have hnames := joinsLiterals_names.gather_append ha b.toList
  rw [references_eq, String.toList_append, hnames, List.eraseDups_append, List.removeAll,
    filter_eraseDups, ← references_eq, ← references_eq]
  congr 1
  apply List.filter_congr
  intro name _
  rw [references_eq a]
  simp [List.mem_eraseDups]

/-- A closed text is expanded on its own. -/
theorem expand_append {a b : String} (ha : ClosedText a.toList) (s : Store) (now : DateTime) :
    s.expand now (a ++ b) = s.expand now a ++ s.expand now b := by
  apply String.toList_injective
  rw [String.toList_append, toList_expand, toList_expand, toList_expand, String.toList_append]
  exact (s.joinsLiterals_render now).gather_append ha b.toList

/-- A text without opening braces is its own expansion and refers to nothing. -/
theorem verbatim_of_plain {text : String} (h : ¬opening <:+: text.toList) (s : Store)
    (now : DateTime) : s.expand now text = text ∧ references text = [] := by
  constructor
  · apply String.toList_injective
    rw [toList_expand, gather_of_plain h, Piece.render]
  · rw [references_eq, gather_of_plain h]
    rfl

/-- Braces that nothing closes stand for themselves, with all that follows. -/
theorem verbatim_of_unclosed {rest : String} (h : ¬closing <:+: rest.toList) (s : Store)
    (now : DateTime) :
    s.expand now ("\x7b\x7b" ++ rest) = "\x7b\x7b" ++ rest ∧ references ("\x7b\x7b" ++ rest) = [] := by
  have htext : ("\x7b\x7b" ++ rest).toList = opening ++ rest.toList := by simp [opening]
  constructor
  · apply String.toList_injective
    rw [toList_expand, htext, (s.joinsLiterals_render now).gather_of_unclosed h, Piece.render]
  · rw [references_eq, htext, joinsLiterals_names.gather_of_unclosed h]
    rfl

theorem getText_canonical (s : Store) (now : DateTime) (name : String) :
    s.getText now (Variable.canonical name) = s.getText now name := by
  simp only [getText, get, Variable.canonical_canonical]

/-- A placeholder on its own is one hole. -/
theorem expand_hole {inner : String} (hinner : Detached '\x7d' inner.toList) (s : Store)
    (now : DateTime) :
    s.expand now (placeholder inner) = String.ofList ((Piece.hole inner.toList).render now s) ∧
      references (placeholder inner) = (Piece.hole inner.toList).name?.toList := by
  have htext : (placeholder inner).toList = opening ++ inner.toList ++ closing := by
    simp [placeholder, opening, closing]
  constructor
  · apply String.toList_injective
    rw [toList_expand, htext, gather_hole hinner rfl, String.toList_ofList]
  · rw [references_eq, htext, gather_hole hinner rfl]
    cases (Piece.hole inner.toList).name? with
    | none => rfl
    | some name => rfl

/-- The placeholder of a request is replaced by its answer. -/
theorem expand_placeholder {inner : String} {r : Expansion.Request} (hinner : '\x7d' ∉ inner.toList)
    (hr : request? inner.toList = some r) (s : Store) (now : DateTime) :
    s.expand now (placeholder inner) = r.answer now s ∧ references (placeholder inner) = [r.name] := by
  obtain ⟨hexpand, hnames⟩ := expand_hole (detached_of_notMem hinner) s now
  simp [hexpand, hnames, Piece.render, Piece.name?, hr]

/-- A store has a value for a name exactly if the name is that of a variable. -/
theorem lookup_eq_none_iff {s : Store} (hs : s.values.Sound) {key : String} :
    s.lookup key = none ↔ Variable.rule? key = none := by
  by_cases hadd : key = "!EXTRACTADD"
  · subst hadd
    simp [lookup, Variable.rule?_extractAdd]
  · cases hfind : s.values.find? key with
    | some v =>
        -- Nothing else is bound, so a bound name has a rule.
        obtain ⟨rule, hrule, -⟩ := hs.held _ (Bindings.mem_of_find? hfind)
        simp [lookup, hadd, hfind, hrule]
    | none => simp [lookup, hadd, hfind]

/-- In a sound store only unknown names have no value. -/
theorem get_eq_none_iff {s : Store} (hs : s.values.Sound) (now : DateTime) (name : String) :
    s.get now name = none ↔ has name = false := by
  have hhas : has name = false ↔ Variable.rule? (Variable.canonical name) = none := by simp [has]
  rw [hhas]
  by_cases hnow : Variable.canonical name = "!NOW"
  · simp [get, hnow, Variable.rule?_now]
  · simp only [get, hnow, if_false]
    exact lookup_eq_none_iff hs

/-- A name that no variable has shows nothing. -/
theorem getText_of_unknown {s : Store} (hs : s.values.Sound) {name : String} (hname : has name = false)
    (now : DateTime) : s.getText now name = "" := by
  rw [getText, (get_eq_none_iff hs now name).2 hname]
  rfl

/-- Placeholders are replaced in one pass from the left. -/
structure OnePass (s : Store) (now : DateTime) : Prop where
  /-- A closed front is expanded on its own, whatever follows. -/
  expand_append : ∀ a b : String, ClosedText a.toList →
    s.expand now (a ++ b) = s.expand now a ++ s.expand now b
  /-- Its names come first, and behind them those that are new. -/
  references_append : ∀ a b : String, ClosedText a.toList →
    references (a ++ b) = references a ++ (references b).filter fun name => name ∉ references a
  nodup : ∀ text, (references text).Nodup
  /-- A moment is as good as another where the time is not asked for. -/
  timeless : ∀ text, "!NOW" ∉ references text → ∀ now', s.expand now' text = s.expand now text
  /-- A placeholder is replaced by what its variable shows, or by the time. -/
  value : ∀ inner : String, Asks inner → ¬AsksTime inner →
    s.expand now (placeholder inner) = s.getText now inner ∧
      references (placeholder inner) = [Variable.canonical inner]
  unknown : ∀ inner : String, Asks inner → ¬AsksTime inner → s.values.Sound → has inner = false →
    s.expand now (placeholder inner) = ""
  time : ∀ inner : String, Asks inner → AsksTime inner →
    s.expand now (placeholder inner) = now.format (String.ofList ((Text.trim inner).toList.drop 5)) ∧
      references (placeholder inner) = ["!NOW"]
  /-- What replaces a placeholder is not looked at again, and does not change what follows. -/
  inside : ∀ a inner b : String, ClosedText a.toList → Asks inner → ¬AsksTime inner →
    s.expand now (a ++ placeholder inner ++ b) =
      s.expand now a ++ s.getText now inner ++ s.expand now b
  verbatim : ∀ text : String, ¬opening <:+: text.toList →
    s.expand now text = text ∧ references text = []
  unclosed : ∀ a rest : String, ClosedText a.toList → ¬closing <:+: rest.toList →
    s.expand now (a ++ ("\x7b\x7b" ++ rest)) = s.expand now a ++ ("\x7b\x7b" ++ rest) ∧
      references (a ++ ("\x7b\x7b" ++ rest)) = references a
  /-- There are no other texts. -/
  front : ∀ text : String, ∃ a : String, ClosedText a.toList ∧ (text = a ∨ text = a ++ "\x7b" ∨
    ∃ rest : String, text = a ++ ("\x7b\x7b" ++ rest) ∧ ¬closing <:+: rest.toList)

theorem onePass (s : Store) (now : DateTime) : s.OnePass now := by
  have hvalue : ∀ inner : String, Asks inner → ¬AsksTime inner →
      s.expand now (placeholder inner) = s.getText now inner ∧
        references (placeholder inner) = [Variable.canonical inner] := by
    intro inner hinner hasks
    rw [← s.getText_canonical now inner]
    exact expand_placeholder hinner.unbraced ((request?_of_bang hinner.bang).2 hasks) s now
  refine ⟨?_, ?_, ?_, ?_, hvalue, ?_, ?_, ?_, ?_, ?_, ?_⟩
  · intro a b ha
    exact Store.expand_append ha s now
  · intro a b ha
    exact Store.references_append ha
  · intro text
    exact nodup_eraseDups _
  · intro text htime now'
    exact expand_eq_of_timeless htime s now' now
  · intro inner hinner hasks hs hname
    rw [(hvalue inner hinner hasks).1]
    exact getText_of_unknown hs hname now
  · intro inner hinner hasks
    have htrim : (Text.trim inner).toList = Text.trimChars inner.toList := by simp [Text.trim]
    rw [htrim]
    exact expand_placeholder hinner.unbraced ((request?_of_bang hinner.bang).1 hasks) s now
  · intro a inner b ha hinner hasks
    -- The placeholder is a closed front of what follows it, like the text before it.
    have hclosed : ClosedText (placeholder inner).toList := closed_placeholder hinner.unbraced
    rw [String.append_assoc, Store.expand_append ha, Store.expand_append hclosed,
      (hvalue inner hinner hasks).1, String.append_assoc]
  · intro text hplain
    exact verbatim_of_plain hplain s now
  · intro a rest ha hrest
    obtain ⟨hexpand, hnames⟩ := verbatim_of_unclosed hrest s now
    rw [Store.expand_append ha, Store.references_append ha, hexpand, hnames]
    simp
  · intro text
    obtain ⟨a, ha, hform⟩ := exists_closed_front text.toList
    refine ⟨String.ofList a, by simpa using ha, ?_⟩
    rcases hform with h | h | ⟨rest, h, hrest⟩
    · exact .inl (by rw [← h, String.ofList_toList])
    · exact .inr (.inl (String.toList_injective (by simp [h])))
    · exact .inr (.inr ⟨String.ofList rest, String.toList_injective (by simp [h, opening]),
        by simpa using hrest⟩)

end Store
end MacroReplay
