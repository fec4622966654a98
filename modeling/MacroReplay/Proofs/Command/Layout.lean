import Mathlib.Data.Bool.AllAny
import MacroReplay.Proofs.Command.Tokens

/-!
# Lines that are put together from tokens

A line that is laid out from a name and tokens, with blanks between them, is read as this name and these
tokens. What a token writes is settled by the token alone.

* `IsToken` — what can stand between two blanks as one token;
* `Laid.tokens_eq` — a line has no other tokens than those that it was laid out from;
* `Laid.ofLine?_eq` — the command of such a line;
* `cutAtEquals_append` — a `=` is looked for behind a front that has none.
-/

namespace MacroReplay

/-! ## Tokens -/

/-- A text that is one token: not empty, with its quotes closed and without a blank outside them. -/
structure IsToken (t : List Char) : Prop where
  ne_nil : t ≠ []
  closed : Closed t
  whole : ¬HasLooseBlank t

/-- Tokens that touch are one token. -/
theorem IsToken.append {t u : List Char} (ht : IsToken t) (hu : IsToken u) : IsToken (t ++ u) where
  ne_nil := by simp [ht.ne_nil]
  closed := ht.closed.append hu.closed
  whole := by
    have hsolid : Quoting.outside.Solid t := Quoting.solid_iff_not_hasLooseBlank.2 ht.whole
    rw [← Quoting.solid_iff_not_hasLooseBlank]
    refine Quoting.solid_append hsolid ?_
    rw [Quoting.behind_of_closed ht.closed]
    exact Quoting.solid_iff_not_hasLooseBlank.2 hu.whole

instance (c : Char) : Decidable (IsBare c) :=
  inferInstanceAs (Decidable (_ ∧ _))

/-- Characters that stand for themselves make a token. -/
theorem isToken_of_isBare {t : List Char} (hne : t ≠ []) (hbare : t.all (IsBare ·)) : IsToken t where
  ne_nil := hne
  closed := Quoting.behind_eq_outside_iff.1 (behind_of_isBare (List.all_iff_forall_prop.1 hbare))
  whole := Quoting.solid_iff_not_hasLooseBlank.1 (solid_of_isBare (List.all_iff_forall_prop.1 hbare))

/-- Between quotes no blank separates. -/
theorem solid_of_quotable {body : List Char} (hbody : Quotable body) : Quoting.inside.Solid body := by
  induction hbody with
  | nil => trivial
  | plain hquote hslash _ ih =>
      refine ⟨by simp, ?_⟩
      rwa [show Quoting.inside.next _ = .inside by simp [Quoting.next, hquote, hslash]]
  | escape _ ih => exact ⟨by simp, by simp [Quoting.next], ih⟩

/-- A quoted value is one token, whatever it holds. -/
theorem isToken_of_quotable {body : List Char} (hbody : Quotable body) :
    IsToken ('"' :: (body ++ ['"'])) where
  ne_nil := by simp
  closed := .quoted hbody .nil
  whole := by
    have hopened : Quoting.outside.next '"' = .inside := by decide
    rw [← Quoting.solid_iff_not_hasLooseBlank]
    refine ⟨by decide, ?_⟩
    rw [hopened]
    refine Quoting.solid_append (solid_of_quotable hbody) ?_
    rw [Quoting.behind_of_quotable hbody]
    exact ⟨by simp, trivial⟩

/-- A token whose quotes are closed does not end with a blank. -/
theorem isBlank_getLast_of_closed {t : List Char} {c : Char} (hclosed : Closed t)
    (hwhole : ¬HasLooseBlank t) (hc : t.getLast? = some c) : Text.isBlank c = false := by
  obtain ⟨front, rfl⟩ := List.getLast?_eq_some_iff.1 hc
  rw [← Bool.not_eq_true]
  intro hblank
  -- Nothing but a quote leads back outside, so the blank would stand outside itself.
  have hquote : c ≠ '"' := ne_quote_of_isBlank hblank
  have hnext : (Quoting.outside.behind front).next c = .outside := by
    have hbehind := Quoting.behind_of_closed hclosed
    rwa [Quoting.behind_append] at hbehind
  have hfront : Quoting.outside.behind front = .outside := by
    cases hq : Quoting.outside.behind front with
    | outside => rfl
    | inside => by_cases hslash : c = '\\' <;> simp [hq, Quoting.next, hquote, hslash] at hnext
    | escaped => simp [hq, Quoting.next] at hnext
  exact hwhole ⟨front, c, [], rfl, hblank, Quoting.behind_eq_outside_iff.1 hfront⟩

/-! ## Lines -/

/-- Every blank outside quotes ends an empty word. -/
theorem wordsFrom_blanks {gap : List Char} (hgap : ∀ c ∈ gap, Text.isBlank c = true)
    (rest : List Char) :
    wordsFrom .outside (gap ++ rest) = List.replicate gap.length [] ++ wordsFrom .outside rest := by
  induction gap with
  | nil => rfl
  | cons c gap ih =>
      rw [List.cons_append, wordsFrom, if_pos ⟨rfl, hgap c (by simp)⟩,
        ih fun d hd => hgap d (by simp [hd])]
      rfl

namespace Laid

variable {ts : List (List Char)} {cs : List Char}

/-- A line has the tokens that it was laid out from. -/
theorem tokens_eq (hlaid : Laid ts cs) : tokens cs = ts := by
  induction hlaid with
  | @last t hne hwhole =>
      have hwords : wordsFrom .outside t = [t] := by
        have hend : wordsFrom (Quoting.outside.behind t) [] = [[]] := rfl
        have happend := wordsFrom_append (Quoting.solid_iff_not_hasLooseBlank.2 hwhole) hend
        rwa [List.append_nil] at happend
      simp [tokens, hwords, hne]
  | @next t gap cs ts hne hwhole hclosed hgap hblanks _ ih =>
      -- The word ends with the first blank behind it, and the blanks themselves make no token.
      obtain ⟨b, gap, rfl⟩ := List.exists_cons_of_ne_nil hgap
      have hbehind : wordsFrom (Quoting.outside.behind t) (b :: gap ++ cs) =
          [] :: (List.replicate gap.length [] ++ wordsFrom .outside cs) := by
        rw [Quoting.behind_of_closed hclosed, wordsFrom_blanks hblanks]
        rfl
      have hwords := wordsFrom_append (Quoting.solid_iff_not_hasLooseBlank.2 hwhole) hbehind
      rw [tokens] at ih
      rw [tokens, hwords, List.append_nil, List.filter_cons_of_pos (by simpa using hne),
        List.filter_append, ih]
      simp

/-- Tokens that close their quotes make a line that does. -/
theorem closed_of_forall (hlaid : Laid ts cs) (hts : ∀ t ∈ ts, Closed t) : Closed cs := by
  induction hlaid with
  | last => exact hts _ (by simp)
  | next _ _ hclosed _ hblanks _ ih =>
      exact hclosed.append ((closed_of_blanks hblanks).append (ih fun t ht => hts t (by simp [ht])))

/-- A line whose quotes are closed does not end with a blank. -/
theorem isBlank_getLast (hlaid : Laid ts cs) (hclosed : Closed cs) :
    ∀ c, cs.getLast? = some c → Text.isBlank c = false := by
  induction hlaid with
  | last _ hwhole => exact fun c hc => isBlank_getLast_of_closed hclosed hwhole hc
  | @next t gap cs ts _ _ ht _ hblanks hlaid ih =>
      have hcs : Closed cs := by
        rw [← Quoting.behind_eq_outside_iff, Quoting.behind_append, Quoting.behind_append,
          Quoting.behind_of_closed ht, Quoting.behind_of_closed (closed_of_blanks hblanks)] at hclosed
        exact Quoting.behind_eq_outside_iff.1 hclosed
      have hne : cs ≠ [] := by
        cases hlaid with
        | last hne _ => exact hne
        | next hne => simp [hne]
      intro c hc
      apply ih hcs c
      rwa [← List.append_assoc, List.getLast?_append_of_ne_nil _ hne] at hc

end Laid

def spaced (ts : List (List Char)) : List Char :=
  [' '].intercalate ts

/-- Tokens with a space between them are laid out. -/
theorem laid_spaced {ts : List (List Char)} (hne : ts ≠ []) (hts : ∀ t ∈ ts, IsToken t) :
    Laid ts (spaced ts) := by
  have hblank : ∀ c ∈ [' '], Text.isBlank c = true := List.all_eq_true.1 (by decide)
  induction ts with
  | nil => exact absurd rfl hne
  | cons t ts ih =>
      have ht : IsToken t := hts t (by simp)
      cases ts with
      | nil =>
          rw [spaced, List.intercalate_singleton]
          exact .last ht.ne_nil ht.whole
      | cons u ts =>
          have htail := ih (by simp) fun v hv => hts v (by simp [hv])
          rw [spaced, List.intercalate_cons_cons, List.append_assoc]
          exact .next ht.ne_nil ht.whole ht.closed (by simp) hblank htail

/-! ## Commands -/

/-- The command that a name and the tokens of its parameters make up. -/
def CommandName.command (name : CommandName) (ts : List (List Char)) (raw : List Char) (line : Nat) :
    Command where
  name := Text.upper name.text
  parameters := ts.map Parameter.ofToken
  raw := String.ofList raw
  line := line
  flaw := none

section Commands

variable {name : CommandName} {ts : List (List Char)} {cs : List Char}

theorem CommandName.exists_cons (name : CommandName) :
    ∃ c tail, name.text.toList = c :: tail ∧ Text.isBlank c = false ∧ c ≠ '\x27' := by
  obtain ⟨c, tail, hname⟩ := List.exists_cons_of_ne_nil name.ne_nil
  have hvalid : isNameChar c = true := name.valid c (by simp [hname])
  refine ⟨c, tail, hname, (isBare_of_isNameChar hvalid).1, ?_⟩
  rintro rfl
  contradiction

/-- The name of a command is one token. -/
theorem CommandName.isToken (name : CommandName) : IsToken name.text.toList :=
  isToken_of_isBare name.ne_nil
    (List.all_iff_forall_prop.2 fun c hc => isBare_of_isNameChar (name.valid c hc))

/-- A line begins with the first character of its name. -/
theorem Laid.head?_eq (hlaid : Laid (name.text.toList :: ts) cs) :
    cs.head? = name.text.toList.head? := by
  obtain ⟨c, tail, hname, -⟩ := name.exists_cons
  rw [hname] at hlaid ⊢
  cases hlaid <;> rfl

/-- A line that is laid out from a name and tokens is read as this command. -/
theorem Laid.ofLine?_eq (hlaid : Laid (name.text.toList :: ts) cs) (hclosed : Closed cs) (line : Nat) :
    Command.ofLine? cs line = some (name.command ts cs line) := by
  obtain ⟨c, tail, hname, hblank, hcomment⟩ := name.exists_cons
  have hhead : cs.head? = some c := by rw [hlaid.head?_eq, hname, List.head?_cons]
  have htrimmed : Text.trimChars cs = cs := by
    refine Text.trimChars_eq_self ?_ (hlaid.isBlank_getLast hclosed)
    rintro d hd
    cases hhead.symm.trans hd
    exact hblank
  have hflaw : flaw? cs name.text.toList = none := by
    have hafter : Quoting.after cs = .outside := Quoting.behind_of_closed hclosed
    have hvalid : name.text.toList.all isNameChar = true := List.all_eq_true.2 name.valid
    simp [flaw?, hafter, hvalid]
  have hstart : cs.head? ≠ some '\x27' := by
    rw [hhead]
    simpa using hcomment
  simp only [Command.ofLine?, htrimmed, if_neg hstart, hlaid.tokens_eq, hflaw]
  rfl

/-- As a script, it is this command alone. -/
theorem Laid.parse_eq (hlaid : Laid (name.text.toList :: ts) cs) (hclosed : Closed cs)
    (hfeed : '\n' ∉ cs) (title : String) :
    Script.parse title (String.ofList cs) = ⟨title, [name.command ts cs 1]⟩ := by
  have hne : cs ≠ [] := by
    cases hlaid with
    | last hne _ => exact hne
    | next hne => simp [hne]
  rw [Script.parse, String.toList_ofList, lines_of_single hne hfeed]
  simp only [Script.commandsFrom, hlaid.ofLine?_eq hclosed]

end Commands

/-! ## The `=` of a token -/

theorem cutAtEquals_of_notMem {q : Quoting} {cs : List Char} (hcs : '=' ∉ cs) :
    cutAtEquals q cs = none := by
  induction cs generalizing q with
  | nil => rfl
  | cons c cs ih =>
      have hc : c ≠ '=' := fun h => hcs (by simp [h])
      rw [cutAtEquals, if_neg fun h => hc h.2, ih fun h => hcs (by simp [h])]
      rfl

/-- An equals sign between quotes does not cut. -/
theorem cutAtEquals_of_quotable {body : List Char} (hbody : Quotable body) :
    cutAtEquals .inside body = none := by
  induction hbody with
  | nil => rfl
  | plain hquote hslash _ ih => simp [cutAtEquals, Quoting.next, hquote, hslash, ih]
  | escape _ ih => simp [cutAtEquals, Quoting.next, ih]

/-- Behind a front without one, a `=` is looked for from where the front leaves the scan. -/
theorem cutAtEquals_append {q : Quoting} {cs : List Char} (hcs : cutAtEquals q cs = none)
    (ds : List Char) :
    cutAtEquals q (cs ++ ds) =
      (cutAtEquals (q.behind cs) ds).map fun (key, rest) => (cs ++ key, rest) := by
  induction cs generalizing q with
  | nil => simp
  | cons c cs ih =>
      unfold cutAtEquals at hcs
      split at hcs
      · cases hcs
      · rename_i hnot
        have htail := ih (Option.map_eq_none_iff.1 hcs)
        rw [List.cons_append, cutAtEquals, if_neg hnot, htail, Quoting.behind_cons, Option.map_map]
        rfl

/-- A token without a `=` outside quotes is a positional parameter. -/
theorem Parameter.ofToken_of_no_cut {t : List Char} (ht : cutAtEquals .outside t = none) :
    Parameter.ofToken t = ⟨none, String.ofList (unquoteChars t), String.ofList t⟩ := by
  simp only [Parameter.ofToken, ht]

/-- A token that is a key, a `=` and more is a keyed parameter. -/
theorem Parameter.ofToken_key (key : ParameterKey) (rest : List Char) :
    Parameter.ofToken (key.text.toList ++ '=' :: rest) =
      ⟨some key.text, String.ofList (unquoteChars rest),
        String.ofList (key.text.toList ++ '=' :: rest)⟩ := by
  have hcut := cutAtEquals_key key.bare key.equals_notMem rest
  obtain ⟨c, tail, hkey⟩ := List.exists_cons_of_ne_nil key.ne_nil
  have htext : String.ofList (c :: tail) = key.text := by rw [← hkey, String.ofList_toList]
  rw [hkey] at hcut ⊢
  simp only [Parameter.ofToken, hcut, htext]

end MacroReplay
