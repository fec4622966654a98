import Mathlib.Data.List.Forall2
import MacroReplay.Proofs.Command.Lines

/-!
# Reading a script loses nothing

A line is cut into tokens by one scan, and each token is scanned again for its `=`, as if nothing stood
before it. Both scans follow the quotes character by character. Here they are compared with a grammar of
quotes that knows no scan, and with each other.

* `Closed` — a text in which every quote that is opened is closed;
* `Quoting.behind_eq_outside_iff` — the scan stands outside quotes behind these texts and no others;
* `Laid` — tokens in a line, with blanks between them;
* `Text.Trimmed.laid_tokens` — the tokens of a trimmed line are laid out in it, so that they begin
  outside quotes;
* `cutAtEquals_eq_some` — a parameter is cut at the first `=` outside quotes;
* `Command.Reads` — a command and the line that it was read from;
* `Script.reads_parse` — the commands of a text, and of their own lines put together.
-/

namespace MacroReplay

/-! ## Quotes -/

/-- What may stand between an opening quote and the quote that closes it. -/
inductive Quotable : List Char → Prop where
  | nil : Quotable []
  | plain {c : Char} {cs : List Char} : c ≠ '"' → c ≠ '\\' → Quotable cs → Quotable (c :: cs)
  | escape {c : Char} {cs : List Char} : Quotable cs → Quotable ('\\' :: c :: cs)

/-- A text in which every quote that is opened is closed. -/
inductive Closed : List Char → Prop where
  | nil : Closed []
  | plain {c : Char} {cs : List Char} : c ≠ '"' → Closed cs → Closed (c :: cs)
  | quoted {body cs : List Char} : Quotable body → Closed cs → Closed ('"' :: (body ++ '"' :: cs))

namespace Quoting

/-- What may stand between quotes leaves them open. -/
theorem behind_of_quotable {body : List Char} (hbody : Quotable body) :
    inside.behind body = .inside := by
  induction hbody with
  | nil => rfl
  | plain hquote hslash _ ih =>
      rw [behind_cons, show inside.next _ = .inside by simp [next, hquote, hslash], ih]
  | escape _ ih => exact ih

/-- A text whose quotes are closed leaves the scan outside them. -/
theorem behind_of_closed {cs : List Char} (hcs : Closed cs) : outside.behind cs = .outside := by
  induction hcs with
  | nil => rfl
  | plain hquote _ ih => rw [behind_cons, show outside.next _ = .outside by simp [next, hquote], ih]
  | quoted hbody _ ih =>
      have hopened : outside.next '"' = .inside := by decide
      have hclosed : inside.next '"' = .outside := by decide
      rw [behind_cons, hopened, behind_append, behind_of_quotable hbody, behind_cons, hclosed, ih]

/-- What closes a text that is read from where the scan stands. -/
def Closes : Quoting → List Char → Prop
  | .outside, cs => Closed cs
  | .inside, cs => ∃ body rest, cs = body ++ '"' :: rest ∧ Quotable body ∧ Closed rest
  | .escaped, cs => ∃ c body rest, cs = c :: (body ++ '"' :: rest) ∧ Quotable body ∧ Closed rest

/-- What a scan gets outside quotes by closes them. -/
theorem closes_of_behind {q : Quoting} {cs : List Char} (hcs : q.behind cs = .outside) :
    q.Closes cs := by
  induction cs generalizing q with
  | nil =>
      cases hcs
      exact .nil
  | cons c cs ih =>
      have htail : (q.next c).Closes cs := ih hcs
      cases q with
      -- By induction on the text: one more character in front is added to what the quotes behind it
      -- enclose.
      | outside =>
          by_cases hquote : c = '"'
          · subst hquote
            obtain ⟨body, rest, rfl, hbody, hrest⟩ := htail
            exact .quoted hbody hrest
          · rw [show outside.next c = .outside by simp [next, hquote]] at htail
            exact .plain hquote htail
      | inside =>
          by_cases hquote : c = '"'
          · subst hquote
            exact ⟨[], cs, rfl, .nil, htail⟩
          · by_cases hslash : c = '\\'
            · subst hslash
              obtain ⟨d, body, rest, rfl, hbody, hrest⟩ := htail
              exact ⟨'\\' :: d :: body, rest, rfl, .escape hbody, hrest⟩
            · rw [show inside.next c = .inside by simp [next, hquote, hslash]] at htail
              obtain ⟨body, rest, rfl, hbody, hrest⟩ := htail
              exact ⟨c :: body, rest, rfl, .plain hquote hslash hbody, hrest⟩
      | escaped =>
          obtain ⟨body, rest, rfl, hbody, hrest⟩ := htail
          exact ⟨c, body, rest, rfl, hbody, hrest⟩

/-- The scan stands outside quotes behind the texts whose quotes are closed. -/
theorem behind_eq_outside_iff {cs : List Char} : outside.behind cs = .outside ↔ Closed cs :=
  ⟨fun hcs => closes_of_behind hcs, behind_of_closed⟩

end Quoting

instance (cs : List Char) : Decidable (Closed cs) :=
  decidable_of_iff _ Quoting.behind_eq_outside_iff

/-- Closed texts are closed one behind the other. -/
theorem Closed.append {cs ds : List Char} (hcs : Closed cs) (hds : Closed ds) : Closed (cs ++ ds) := by
  rw [← Quoting.behind_eq_outside_iff, Quoting.behind_append, Quoting.behind_of_closed hcs,
    Quoting.behind_of_closed hds]

theorem ne_quote_of_isBlank {c : Char} (hc : Text.isBlank c = true) : c ≠ '"' := by
  rintro rfl
  cases hc

/-- Blanks open no quotes. -/
theorem closed_of_blanks {cs : List Char} (hcs : ∀ c ∈ cs, Text.isBlank c = true) : Closed cs := by
  induction cs with
  | nil => exact .nil
  | cons c cs ih =>
      have hquote : c ≠ '"' := ne_quote_of_isBlank (hcs c (by simp))
      exact .plain hquote (ih fun d hd => hcs d (by simp [hd]))

/-! ## Blanks outside quotes -/

def HasLooseBlank (cs : List Char) : Prop :=
  ∃ front c back, cs = front ++ c :: back ∧ Text.isBlank c = true ∧ Closed front

/-- A text that stands behind `front`, without its blanks outside quotes. -/
def compacted (front : List Char) : List Char → List Char
  | [] => []
  | c :: cs =>
      if Text.isBlank c = true ∧ Closed front then compacted (front ++ [c]) cs
      else c :: compacted (front ++ [c]) cs

/-- What is left of two texts, one behind the other. -/
theorem compacted_append (front cs ds : List Char) :
    compacted front (cs ++ ds) = compacted front cs ++ compacted (front ++ cs) ds := by
  induction cs generalizing front with
  | nil => simp [compacted]
  | cons c cs ih =>
      have htail := ih (front ++ [c])
      rw [List.append_assoc, List.singleton_append] at htail
      by_cases hloose : Text.isBlank c = true ∧ Closed front
      · simp [compacted, hloose, htail]
      · simp [compacted, hloose, htail]

/-- Nothing is left of blanks outside quotes. -/
theorem compacted_of_blanks {front gap : List Char} (hfront : Closed front)
    (hgap : ∀ c ∈ gap, Text.isBlank c = true) : compacted front gap = [] := by
  induction gap generalizing front with
  | nil => rfl
  | cons c gap ih =>
      have hc : Text.isBlank c = true := hgap c (by simp)
      have hfront' : Closed (front ++ [c]) :=
        hfront.append (closed_of_blanks (by simpa using hc))
      rw [compacted, if_pos ⟨hc, hfront⟩]
      exact ih hfront' fun d hd => hgap d (by simp [hd])

namespace Quoting

/-- A scan meets no loose blank if it stands inside quotes before each blank. -/
theorem solid_iff {q : Quoting} {cs : List Char} :
    q.Solid cs ↔
      ∀ front c back, cs = front ++ c :: back → Text.isBlank c = true →
        q.behind front ≠ .outside := by
  induction cs generalizing q with
  | nil => simp [Solid]
  | cons d cs ih =>
      constructor
      · rintro ⟨hfirst, hrest⟩ front c back hsplit hblank hout
        cases front with
        | nil =>
            cases hsplit
            exact hfirst ⟨hout, hblank⟩
        | cons e front =>
            cases hsplit
            exact ih.1 hrest front c back rfl hblank hout
      · intro hall
        refine ⟨fun hfirst => hall [] d cs rfl hfirst.2 hfirst.1, ih.2 ?_⟩
        rintro front c back rfl hblank
        exact hall (d :: front) c back rfl hblank

/-- The same for a scan that begins outside quotes. -/
theorem solid_iff_not_hasLooseBlank {cs : List Char} : outside.Solid cs ↔ ¬HasLooseBlank cs := by
  rw [solid_iff]
  constructor
  · rintro hall ⟨front, c, back, hsplit, hblank, hfront⟩
    exact hall front c back hsplit hblank (behind_of_closed hfront)
  · intro hnone front c back hsplit hblank hout
    exact hnone ⟨front, c, back, hsplit, hblank, behind_eq_outside_iff.1 hout⟩

/-- Everything is left of a text without loose blanks. -/
theorem compacted_of_solid {front cs : List Char} (hsolid : (outside.behind front).Solid cs) :
    compacted front cs = cs := by
  induction cs generalizing front with
  | nil => rfl
  | cons c cs ih =>
      have hkept : ¬(Text.isBlank c = true ∧ Closed front) := by
        rintro ⟨hc, hfront⟩
        exact hsolid.1 ⟨behind_of_closed hfront, hc⟩
      have htail : (outside.behind (front ++ [c])).Solid cs := by
        rw [behind_append]
        exact hsolid.2
      rw [compacted, if_neg hkept, ih htail]

end Quoting

/-! ## Tokens -/

/-- `Laid ts cs` means that `cs` is the tokens `ts` with blanks between them. A token other than the last
one closes its quotes, so the next one begins outside quotes. -/
inductive Laid : List (List Char) → List Char → Prop where
  | last {t : List Char} : t ≠ [] → ¬HasLooseBlank t → Laid [t] t
  | next {t gap cs : List Char} {ts : List (List Char)} :
      t ≠ [] → ¬HasLooseBlank t → Closed t → gap ≠ [] →
      (∀ c ∈ gap, Text.isBlank c = true) → Laid ts cs → Laid (t :: ts) (t ++ (gap ++ cs))

/-- No token is empty. -/
theorem Laid.ne_nil {ts : List (List Char)} {cs : List Char} (hlaid : Laid ts cs) :
    ∀ t ∈ ts, t ≠ [] := by
  induction hlaid with
  | last hne _ => simpa using hne
  | next hne _ _ _ _ _ ih => simpa using ⟨hne, ih⟩

/-- The tokens together are the line without its blanks outside quotes. -/
theorem Laid.flatten_eq {ts : List (List Char)} {cs : List Char} (hlaid : Laid ts cs)
    {front : List Char} (hfront : Closed front) : ts.flatten = compacted front cs := by
  have hsolid : ∀ {t}, ¬HasLooseBlank t → (Quoting.outside.behind front).Solid t := by
    intro t ht
    rw [Quoting.behind_of_closed hfront]
    exact Quoting.solid_iff_not_hasLooseBlank.2 ht
  induction hlaid generalizing front with
  | last _ hone => simp [Quoting.compacted_of_solid (hsolid hone)]
  | @next t gap cs ts _ hone hclosed _ hgap _ ih =>
      have hbefore : Closed (front ++ t) := hfront.append hclosed
      have hbehind : Closed (front ++ t ++ gap) := hbefore.append (closed_of_blanks hgap)
      rw [List.flatten_cons, compacted_append, compacted_append,
        Quoting.compacted_of_solid (hsolid hone), compacted_of_blanks hbefore hgap,
        List.nil_append]
      congr 1
      refine ih hbehind ?_
      intro u hu
      rw [Quoting.behind_of_closed hbehind]
      exact Quoting.solid_iff_not_hasLooseBlank.2 hu

/-- The first word of a text is the text, or goes up to a blank outside quotes. -/
theorem wordsFrom_cases (q : Quoting) (cs : List Char) :
    (q.Solid cs ∧ wordsFrom q cs = [cs]) ∨
      ∃ word b rest, cs = word ++ b :: rest ∧ q.Solid word ∧ q.behind word = .outside ∧
        Text.isBlank b = true ∧ wordsFrom q cs = word :: wordsFrom .outside rest := by
  induction cs generalizing q with
  | nil => exact .inl ⟨trivial, rfl⟩
  | cons c cs ih =>
      by_cases hcut : q = .outside ∧ Text.isBlank c = true
      · refine .inr ⟨[], c, cs, rfl, trivial, hcut.1, hcut.2, ?_⟩
        rw [wordsFrom, if_pos hcut]
      · rcases ih (q.next c) with ⟨hsolid, hwords⟩ | ⟨word, b, rest, rfl, hsolid, hout, hb, hwords⟩
        · refine .inl ⟨⟨hcut, hsolid⟩, ?_⟩
          rw [wordsFrom, if_neg hcut, hwords]
        · refine .inr ⟨c :: word, b, rest, rfl, ⟨hcut, hsolid⟩, hout, hb, ?_⟩
          rw [wordsFrom, if_neg hcut, hwords]

/-- The first token of a line, up to the blank behind it. -/
theorem tokens_of_word {word rest : List Char} {b : Char}
    (hwords : wordsFrom .outside (word ++ b :: rest) = word :: wordsFrom .outside rest) :
    tokens (word ++ b :: rest) = if word = [] then tokens rest else word :: tokens rest := by
  rw [tokens, hwords, List.filter_cons]
  by_cases hword : word = []
  · simp [hword, tokens]
  · simp [hword, tokens]

/-- The tokens of a text that does not end with a blank are laid out in it, behind the blanks that it
begins with. -/
theorem laid_tokens_behind (cs : List Char)
    (hend : ∀ c, cs.getLast? = some c → Text.isBlank c = false) :
    ∃ lead body, cs = lead ++ body ∧ (∀ c ∈ lead, Text.isBlank c = true) ∧
      (tokens cs = [] ∧ body = [] ∨ Laid (tokens cs) body) := by
  rcases wordsFrom_cases .outside cs with
    ⟨hsolid, hwords⟩ | ⟨word, b, rest, hcs, hsolid, hout, hb, hwords⟩
  · -- No loose blank: all of the text is one word.
    by_cases hnil : cs = []
    · subst hnil
      exact ⟨[], [], rfl, by simp, .inl ⟨rfl, rfl⟩⟩
    · have htokens : tokens cs = [cs] := by simp [tokens, hwords, hnil]
      refine ⟨[], cs, rfl, by simp, .inr ?_⟩
      rw [htokens]
      exact .last hnil (Quoting.solid_iff_not_hasLooseBlank.1 hsolid)
  · have hrestEnd : ∀ c, rest.getLast? = some c → Text.isBlank c = false := by
      intro c hc
      apply hend c
      rw [hcs, List.getLast?_append, List.getLast?_cons, hc]
      rfl
    -- A word, a loose blank, and the rest of the text, by recursion.
    obtain ⟨lead, body, hrest, hlead, hlaid⟩ := laid_tokens_behind rest hrestEnd
    have hgap : ∀ c ∈ b :: lead, Text.isBlank c = true := by
      simpa using ⟨hb, hlead⟩
    rw [hcs] at hwords hend ⊢
    rw [tokens_of_word hwords]
    by_cases hword : word = []
    · subst hword
      refine ⟨b :: lead, body, by simp [hrest], hgap, ?_⟩
      simpa using hlaid
    · rcases hlaid with ⟨-, hbody⟩ | hlaid
      · -- Nothing but blanks would follow the word, and the text would end with one of them.
        have hlast : (word ++ b :: rest).getLast? = some ((b :: lead).getLast (by simp)) := by
          rw [hrest, hbody, List.append_nil, List.getLast?_append,
            List.getLast?_eq_some_getLast (by simp)]
          rfl
        have hblank := hgap _ (List.getLast_mem (l := b :: lead) (by simp))
        rw [hend _ hlast] at hblank
        cases hblank
      · refine ⟨[], word ++ ((b :: lead) ++ body), by simp [hrest], by simp, .inr ?_⟩
        rw [if_neg hword]
        exact .next hword (Quoting.solid_iff_not_hasLooseBlank.1 hsolid)
          (Quoting.behind_eq_outside_iff.1 hout) (by simp) hgap hlaid
termination_by cs.length
decreasing_by
  rw [hcs, List.length_append, List.length_cons]
  omega

/-- The tokens of a trimmed line are laid out in it. -/
theorem Text.Trimmed.laid_tokens {l t : List Char} (ht : Text.Trimmed l t) (hne : t ≠ []) :
    Laid (tokens t) t := by
  obtain ⟨lead, body, hsplit, hlead, hlaid⟩ := laid_tokens_behind t ht.last
  -- A trimmed line does not begin with a blank either.
  cases lead with
  | nil =>
      cases hsplit
      exact hlaid.resolve_left fun h => hne h.2
  | cons b lead =>
      have hb : Text.isBlank b = false := ht.first b (by simp [hsplit])
      rw [hlead b (by simp)] at hb
      cases hb

/-! ## Parameters -/

def HasLooseEquals (cs : List Char) : Prop :=
  ∃ front back, cs = front ++ '=' :: back ∧ Closed front

/-- A token is cut at the first `=` that the scan meets outside quotes. -/
theorem cutAtEquals_eq_some {q : Quoting} {cs key rest : List Char}
    (hcut : cutAtEquals q cs = some (key, rest)) :
    cs = key ++ '=' :: rest ∧ q.behind key = .outside ∧
      ∀ front back, key = front ++ '=' :: back → q.behind front ≠ .outside := by
  induction cs generalizing q key with
  | nil => cases hcut
  | cons c cs ih =>
      unfold cutAtEquals at hcut
      split at hcut
      · rename_i hequals
        cases hcut
        exact ⟨by simp [hequals.2], hequals.1, by simp⟩
      · rename_i hnot
        obtain ⟨⟨front, back⟩, hcut', hkey⟩ := Option.map_eq_some_iff.1 hcut
        cases hkey
        obtain ⟨rfl, hout, hfirst⟩ := ih hcut'
        refine ⟨rfl, hout, ?_⟩
        -- An equals sign further in front would have been met first.
        intro before behind hsplit hbefore
        cases before with
        | nil =>
            cases hsplit
            exact hnot ⟨hbefore, rfl⟩
        | cons d before =>
            cases hsplit
            exact hfirst before behind rfl hbefore

/-- A token that is not cut has each of its equals signs between quotes. -/
theorem cutAtEquals_eq_none {q : Quoting} {cs : List Char} (hcut : cutAtEquals q cs = none) :
    ∀ front back, cs = front ++ '=' :: back → q.behind front ≠ .outside := by
  induction cs generalizing q with
  | nil => simp
  | cons c cs ih =>
      unfold cutAtEquals at hcut
      split at hcut
      · cases hcut
      · rename_i hnot
        have hrest : cutAtEquals (q.next c) cs = none := Option.map_eq_none_iff.1 hcut
        intro front back hsplit hfront
        cases front with
        | nil =>
            cases hsplit
            exact hnot ⟨hfront, rfl⟩
        | cons d front =>
            cases hsplit
            exact ih hrest front back rfl hfront

/-- What a parameter says of its token. -/
structure Parameter.Reads (p : Parameter) : Prop where
  /-- It is keyed exactly if its token has a `=` outside quotes and does not begin with one. -/
  isSome_key_iff : p.key.isSome = true ↔
    HasLooseEquals p.token.toList ∧ p.token.toList.head? ≠ some '='
  /-- The key goes up to the first `=` outside quotes, and the value is what is behind it. -/
  keyed : ∀ key, p.key = some key → ∃ rest, p.token.toList = key.toList ++ '=' :: rest ∧
    Closed key.toList ∧ ¬HasLooseEquals key.toList ∧ p.value = unquote (String.ofList rest)
  positional : p.key = none → p.value = unquote p.token

/-- A parameter says of its token what it should. -/
theorem Parameter.reads_ofToken (token : List Char) : (Parameter.ofToken token).Reads := by
  have hopened : ∀ {front : List Char}, Closed front → Quoting.outside.behind front = .outside :=
    Quoting.behind_of_closed
  cases hcut : cutAtEquals .outside token with
  | none =>
      have hnone : ¬HasLooseEquals token := by
        rintro ⟨front, back, hsplit, hfront⟩
        exact cutAtEquals_eq_none hcut front back hsplit (hopened hfront)
      simp only [Parameter.ofToken, hcut]
      exact ⟨by simp [hnone], by simp, fun _ => by simp [unquote]⟩
  | some parts =>
      obtain ⟨key, rest⟩ := parts
      obtain ⟨htoken, hout, hfirst⟩ := cutAtEquals_eq_some hcut
      have hkey : Closed key := Quoting.behind_eq_outside_iff.1 hout
      cases key with
      | nil =>
          -- The first `=` outside quotes begins the token.
          simp only [Parameter.ofToken, hcut]
          exact ⟨by simp [htoken], by simp, fun _ => by simp [unquote]⟩
      | cons k key =>
          have hbegin : k ≠ '=' := by
            rintro rfl
            exact hfirst [] key rfl rfl
          have hkeyed : HasLooseEquals token ∧ token.head? ≠ some '=' :=
            ⟨⟨k :: key, rest, htoken, hkey⟩, by simpa [htoken] using hbegin⟩
          have hnone : ¬HasLooseEquals (k :: key) := by
            rintro ⟨front, back, hsplit, hfront⟩
            exact hfirst front back hsplit (hopened hfront)
          simp only [Parameter.ofToken, hcut]
          refine ⟨by simpa using hkeyed, ?_, by simp⟩
          intro text htext
          cases htext
          exact ⟨rest, by simpa using htoken, by simpa using hkey, by simpa using hnone,
            by simp [unquote]⟩

theorem Parameter.token_ofToken (token : List Char) :
    (Parameter.ofToken token).token = String.ofList token := by
  unfold Parameter.ofToken
  split <;> rfl

/-! ## Commands -/

/-- A line that gives a command: it is not blank, and its first character that is not blank is no
apostrophe. -/
def isCommandLine (l : List Char) : Bool :=
  (l.find? fun c => !Text.isBlank c).any (· ≠ '\x27')

/-- What a command says of the line that it was read from, and of the number of that line. -/
structure Command.Reads (c : Command) (l : List Char) (n : Nat) : Prop where
  line_eq : c.line = n
  trimmed : Text.Trimmed l c.raw.toList
  /-- The name as it was written, together with the tokens of the parameters, makes up the line; the
  command has a flaw exactly if the line ends inside quotes or the name has a character that names have
  not. -/
  tokens : ∃ word, c.name = Text.upper (String.ofList word) ∧
    Laid (word :: c.parameters.map (·.token.toList)) c.raw.toList ∧
    word ++ (c.parameters.map (·.token.toList)).flatten = compacted [] c.raw.toList ∧
    word ≠ [] ∧ (∀ p ∈ c.parameters, p.token ≠ "") ∧
    (c.flaw.isSome = true ↔ ¬Closed c.raw.toList ∨
      ∃ ch ∈ word, ch.isAlphanum = false ∧ ch ≠ '_' ∧ ch ≠ '-')
  parameters : ∀ p ∈ c.parameters, p.Reads

namespace Command

theorem isNameChar_eq_false_iff {c : Char} :
    isNameChar c = false ↔ c.isAlphanum = false ∧ c ≠ '_' ∧ c ≠ '-' := by
  have hlower : c.isLower = ('a' ≤ c && c ≤ 'z') := rfl
  have hupper : c.isUpper = ('A' ≤ c && c ≤ 'Z') := Bool.decide_and ..
  have hletter : Text.isLetter c = c.isAlpha := by
    calc
      Text.isLetter c = (c.isLower || c.isUpper) := by rw [Text.isLetter, hlower, hupper]
      _ = c.isAlpha := Bool.or_comm ..
  have hdigit : Text.isDigit c = c.isDigit := rfl
  simp [isNameChar, Char.isAlphanum, hletter, hdigit, and_assoc]

/-- A line has a flaw if a quote is left open or its name has another character, and only then. -/
theorem isSome_flaw?_iff {line name : List Char} :
    (flaw? line name).isSome = true ↔
      ¬Closed line ∨ ∃ ch ∈ name, ch.isAlphanum = false ∧ ch ≠ '_' ∧ ch ≠ '-' := by
  simp only [← isNameChar_eq_false_iff]
  have hafter : Quoting.after line = .outside ↔ Closed line := Quoting.behind_eq_outside_iff
  unfold flaw?
  by_cases hclosed : Closed line
  · rw [if_neg (by simp [hafter, hclosed])]
    cases hname : name.all isNameChar with
    | true =>
        have hvalid : ¬∃ ch ∈ name, isNameChar ch = false := by simpa using hname
        simp [hclosed, hvalid]
    | false =>
        have hinvalid : ∃ ch ∈ name, isNameChar ch = false := by simpa using hname
        simp [hinvalid]
  · simp [hafter, hclosed]

/-- A line that is no command line gives no command. -/
theorem ofLine?_eq_none {l : List Char} (hl : isCommandLine l = false) (n : Nat) :
    ofLine? l n = none := by
  rw [isCommandLine, (Text.trimmed_trimChars l).find?_eq] at hl
  simp only [ofLine?]
  cases ht : Text.trimChars l with
  | nil => rfl
  | cons c t =>
      have hcomment : c = '\x27' := by simpa [ht] using hl
      simp [hcomment]

/-- A line that gives a command is cut into its tokens. -/
theorem ofLine?_eq_some {l : List Char} (hl : isCommandLine l = true) (n : Nat) :
    ∃ word rest, Laid (word :: rest) (Text.trimChars l) ∧
      ofLine? l n = some
        { name := Text.upper (String.ofList word)
          parameters := rest.map Parameter.ofToken
          raw := String.ofList (Text.trimChars l)
          line := n
          flaw := flaw? (Text.trimChars l) word } := by
  have htrimmed := Text.trimmed_trimChars l
  rw [isCommandLine, htrimmed.find?_eq] at hl
  have hne : Text.trimChars l ≠ [] := by
    intro hnil
    simp [hnil] at hl
  have hcomment : (Text.trimChars l).head? ≠ some '\x27' := by
    intro hquote
    simp [hquote] at hl
  -- A line that is not empty has a first token, which is the name.
  have hlaid := htrimmed.laid_tokens hne
  cases htokens : MacroReplay.tokens (Text.trimChars l) with
  | nil =>
      rw [htokens] at hlaid
      cases hlaid
  | cons word rest =>
      rw [htokens] at hlaid
      refine ⟨word, rest, hlaid, ?_⟩
      simp only [ofLine?, if_neg hcomment, htokens, Text.upper, String.toList_ofList]

/-- A command says of its line what it should. -/
theorem reads_of_ofLine? {l : List Char} {n : Nat} {c : Command} (hread : ofLine? l n = some c) :
    c.Reads l n := by
  have hl : isCommandLine l = true := by
    rw [← Bool.not_eq_false]
    intro hnot
    rw [ofLine?_eq_none hnot] at hread
    cases hread
  obtain ⟨word, rest, hlaid, hsome⟩ := ofLine?_eq_some hl n
  cases hread.symm.trans hsome
  -- A parameter keeps the token that it was made of.
  have htokens : (rest.map Parameter.ofToken).map (·.token.toList) = rest := by
    rw [List.map_map]
    refine (List.map_congr_left ?_).trans (List.map_id rest)
    intro token _
    simp [Parameter.token_ofToken]
  have hne := hlaid.ne_nil
  refine ⟨rfl, ?_, ⟨word, rfl, ?_, ?_, hne word (by simp), ?_, ?_⟩, ?_⟩
  · simpa using Text.trimmed_trimChars l
  · rw [htokens, String.toList_ofList]
    exact hlaid
  · rw [htokens, String.toList_ofList]
    exact hlaid.flatten_eq .nil
  · intro p hp
    obtain ⟨token, htoken, rfl⟩ := List.mem_map.1 hp
    rw [Parameter.token_ofToken]
    intro hempty
    apply hne token (by simp [htoken])
    simpa using congrArg String.toList hempty
  · simpa using isSome_flaw?_iff
  · intro p hp
    obtain ⟨token, -, rfl⟩ := List.mem_map.1 hp
    exact Parameter.reads_ofToken token

/-- The trimmed line of a command is read as this command again. -/
theorem ofLine?_raw {l : List Char} {n : Nat} {c : Command} (hread : ofLine? l n = some c) (k : Nat) :
    ofLine? c.raw.toList k = some { c with line := k } := by
  have hagain := (Text.trimmed_trimChars l).trimChars_eq
  simp only [ofLine?] at hread
  split at hread
  · cases hread
  · rename_i hcomment
    split at hread
    · cases hread
    · rename_i word rest htokens
      cases hread
      simp only [ofLine?, String.toList_ofList, hagain, if_neg hcomment, htokens]

end Command

/-! ## Scripts -/

namespace Script

/-- The commands of a text are those of its command lines, each with the number of its line. -/
theorem forall₂_commandsFrom (n : Nat) (ls : List (List Char)) :
    List.Forall₂ (fun line c => c.Reads line.1 line.2)
      ((ls.zipIdx n).filter fun line => isCommandLine line.1) (commandsFrom n ls) := by
  induction ls generalizing n with
  | nil => exact .nil
  | cons l ls ih =>
      rw [List.zipIdx_cons]
      cases hl : isCommandLine l with
      | true =>
          obtain ⟨word, rest, -, hread⟩ := Command.ofLine?_eq_some hl n
          have hreads := Command.reads_of_ofLine? hread
          rw [List.filter_cons_of_pos (by simpa using hl), commandsFrom, hread]
          exact .cons hreads (ih (n + 1))
      | false =>
          rw [List.filter_cons_of_neg (by simpa using hl), commandsFrom, Command.ofLine?_eq_none hl]
          exact ih (n + 1)

/-- Every command was read from some line. -/
theorem exists_line_of_mem {n : Nat} {ls : List (List Char)} {c : Command}
    (hc : c ∈ commandsFrom n ls) : ∃ l ∈ ls, ∃ k, Command.ofLine? l k = some c := by
  induction ls generalizing n with
  | nil => cases hc
  | cons l ls ih =>
      unfold commandsFrom at hc
      split at hc
      · rename_i first hread
        rcases List.mem_cons.1 hc with rfl | hc
        · exact ⟨l, by simp, n, hread⟩
        · obtain ⟨l', hl', hk⟩ := ih hc
          exact ⟨l', by simp [hl'], hk⟩
      · obtain ⟨l', hl', hk⟩ := ih hc
        exact ⟨l', by simp [hl'], hk⟩

/-- The raw texts of commands, read again as lines, give the commands again. -/
theorem commandsFrom_raw {cs : List Command} (hcs : ∀ c ∈ cs, ∃ l k, Command.ofLine? l k = some c)
    (n : Nat) :
    commandsFrom n (cs.map (·.raw.toList)) = (cs.zipIdx n).map fun (c, k) => { c with line := k } := by
  induction cs generalizing n with
  | nil => rfl
  | cons c cs ih =>
      obtain ⟨l, k, hread⟩ := hcs c (by simp)
      have htail := ih (fun d hd => hcs d (by simp [hd])) (n + 1)
      rw [List.map_cons, commandsFrom, Command.ofLine?_raw hread n, List.zipIdx_cons, List.map_cons,
        htail]

/-- Reading a script loses nothing. There is one command for each line that is neither blank nor a
comment, in order and with its number, and the command says all that stands in the line. The trimmed
lines of the commands, put together, are read as the same commands, numbered from 1. -/
theorem reads_parse (title text : String) :
    (∃ ls, Text.LinesOf text.toList ls ∧
      List.Forall₂ (fun line c => c.Reads line.1 line.2)
        ((ls.zipIdx 1).filter fun line => isCommandLine line.1) (parse title text).commands) ∧
      (parse title ("\n".intercalate ((parse title text).commands.map Command.raw))).commands =
        ((parse title text).commands.zipIdx 1).map fun (c, k) => { c with line := k } := by
  have hlines := Text.linesOf_lines text.toList
  refine ⟨⟨_, hlines, forall₂_commandsFrom 1 _⟩, ?_⟩
  have hcommands : ∀ c ∈ (parse title text).commands,
      ∃ l ∈ Text.lines text.toList, ∃ k, Command.ofLine? l k = some c :=
    fun c hc => exists_line_of_mem hc
  generalize (parse title text).commands = commands at hcommands ⊢
  -- A trimmed line is one line of the text that the lines make up: it has no line feed, is not empty,
  -- and does not end with a carriage return.
  have hraws : ∀ raw ∈ commands.map (·.raw.toList),
      raw ≠ [] ∧ '\n' ∉ raw ∧ raw.getLast? ≠ some '\r' := by
    intro raw hraw
    obtain ⟨c, hc, rfl⟩ := List.mem_map.1 hraw
    obtain ⟨l, hl, k, hread⟩ := hcommands c hc
    have hreads := Command.reads_of_ofLine? hread
    refine ⟨?_, ?_, ?_⟩
    · intro hnil
      obtain ⟨word, -, -, hword, hne, -⟩ := hreads.tokens
      rw [hnil] at hword
      exact hne (List.append_eq_nil_iff.1 hword).1
    · exact fun hfeed => hlines.feed_notMem l hl (hreads.trimmed.subset hfeed)
    · intro hreturn
      have hblank : Text.isBlank '\r' = false := hreads.trimmed.last _ hreturn
      cases hblank
  have hagain : Text.lines ("\n".intercalate (commands.map Command.raw)).toList =
      commands.map (·.raw.toList) := by
    rw [String.toList_intercalate, List.map_map]
    exact Text.lines_intercalate hraws
  rw [parse, hagain]
  exact commandsFrom_raw (fun c hc => (hcommands c hc).imp fun l h => h.2) 1

end Script
end MacroReplay
