import MacroReplay.Command.Line
import MacroReplay.Proofs.Text.Cutting
import MacroReplay.Proofs.Text.Trimming

/-!
# Quoted values are read back

A value of any characters can be written between double quotes: a backslash, a quote, a line feed and a
tab are escaped, all else stands for itself. Three scans meet such a value on a command line. One cuts
the line into tokens, one looks for the `=` of a parameter, and one takes the quotes away. This module
shows that they agree on it.

* `Quoting.Solid` — a text that no scan cuts at a blank;
* `wordsFrom_append` — such a text stays in one token, whatever follows;
* `resolveEscapes_escaped`, `unquoteChars_quoted` — a written value is read back;
* `parse_writtenLine` — a command line of written parameters is read as these parameters.
-/

namespace MacroReplay

/-! ## Scans -/

namespace Quoting

/-- Where a scan that begins at `q` stands behind a text. -/
def behind (q : Quoting) (cs : List Char) : Quoting :=
  cs.foldl Quoting.next q

@[simp]
theorem behind_nil (q : Quoting) : q.behind [] = q := rfl

@[simp]
theorem behind_cons (q : Quoting) (c : Char) (cs : List Char) :
    q.behind (c :: cs) = (q.next c).behind cs := rfl

/-- A scan goes on behind a text from where it stands there. -/
theorem behind_append (q : Quoting) (cs ds : List Char) :
    q.behind (cs ++ ds) = (q.behind cs).behind ds :=
  List.foldl_append

/-- A scan that begins at `q` meets no blank of the text outside quotes. -/
def Solid (q : Quoting) : List Char → Prop
  | [] => True
  | c :: cs => ¬(q = .outside ∧ Text.isBlank c = true) ∧ (q.next c).Solid cs

/-- Two texts without loose blanks have none together. -/
theorem solid_append {q : Quoting} {cs ds : List Char} (hcs : q.Solid cs)
    (hds : (q.behind cs).Solid ds) : q.Solid (cs ++ ds) := by
  induction cs generalizing q with
  | nil => exact hds
  | cons c cs ih => exact ⟨hcs.1, ih hcs.2 hds⟩

end Quoting

/-- A solid text stays in one word, together with what follows up to the next cut. -/
theorem wordsFrom_append {q : Quoting} {cs rest word : List Char} {words : List (List Char)}
    (hsolid : q.Solid cs) (hrest : wordsFrom (q.behind cs) rest = word :: words) :
    wordsFrom q (cs ++ rest) = (cs ++ word) :: words := by
  induction cs generalizing q with
  | nil => exact hrest
  | cons c cs ih =>
      have htail : wordsFrom (q.next c) (cs ++ rest) = (cs ++ word) :: words := ih hsolid.2 hrest
      rw [List.cons_append, wordsFrom, if_neg hsolid.1, htail]
      rfl

/-- Every space outside quotes ends an empty word. -/
theorem wordsFrom_spaces (n : Nat) (rest : List Char) :
    wordsFrom .outside (List.replicate n ' ' ++ rest) =
      List.replicate n [] ++ wordsFrom .outside rest := by
  have hblank : Text.isBlank ' ' = true := by decide
  induction n with
  | zero => rfl
  | succ n ih =>
      rw [List.replicate_succ, List.cons_append, wordsFrom, if_pos ⟨rfl, hblank⟩, ih]
      rfl

/-! ## Texts without quotes -/

/-- A character that stands for itself outside quotes: it neither separates nor opens a quote. -/
def IsBare (c : Char) : Prop :=
  Text.isBlank c = false ∧ c ≠ '"'

theorem next_of_isBare {c : Char} (hc : IsBare c) : Quoting.outside.next c = .outside := by
  simp [Quoting.next, hc.2]

/-- Characters that stand for themselves open no quote. -/
theorem behind_of_isBare {cs : List Char} (hcs : ∀ c ∈ cs, IsBare c) :
    Quoting.outside.behind cs = .outside := by
  induction cs with
  | nil => rfl
  | cons c cs ih =>
      have hc : IsBare c := hcs c (by simp)
      rw [Quoting.behind_cons, next_of_isBare hc]
      exact ih fun d hd => hcs d (by simp [hd])

theorem solid_of_isBare {cs : List Char} (hcs : ∀ c ∈ cs, IsBare c) :
    Quoting.outside.Solid cs := by
  induction cs with
  | nil => trivial
  | cons c cs ih =>
      have hc : IsBare c := hcs c (by simp)
      refine ⟨?_, ?_⟩
      · rintro ⟨-, hblank⟩
        rw [hc.1] at hblank
        cases hblank
      · rw [next_of_isBare hc]
        exact ih fun d hd => hcs d (by simp [hd])

/-! ## Escapes -/

def escaped (c : Char) : List Char :=
  if c = '\\' then ['\\', '\\']
  else if c = '"' then ['\\', '"']
  else if c = '\n' then ['\\', 'n']
  else if c = '\t' then ['\\', 't']
  else [c]

def quoted (v : List Char) : List Char :=
  '"' :: (v.flatMap escaped ++ ['"'])

/-- A character is written as a backslash and a code that is read as this character, or as itself. -/
theorem escaped_cases (c : Char) :
    (∃ code, escaped c = ['\\', code] ∧ code ≠ '\n' ∧
      ∀ rest, resolveEscapes ('\\' :: code :: rest) = c :: resolveEscapes rest) ∨
      escaped c = [c] ∧ c ≠ '\\' ∧ c ≠ '"' ∧ c ≠ '\n' := by
  -- The four characters that have a code, and then all others.
  unfold escaped
  split
  · rename_i hc
    subst hc
    exact .inl ⟨'\\', rfl, by decide, fun rest => by rw [resolveEscapes]⟩
  · split
    · rename_i hc
      subst hc
      exact .inl ⟨'"', rfl, by decide, fun rest => by rw [resolveEscapes]⟩
    · split
      · rename_i hc
        subst hc
        exact .inl ⟨'n', rfl, by decide, fun rest => by rw [resolveEscapes]⟩
      · split
        · rename_i hc
          subst hc
          exact .inl ⟨'t', rfl, by decide, fun rest => by rw [resolveEscapes]⟩
        · rename_i hslash hquote hfeed htab
          exact .inr ⟨rfl, hslash, hquote, hfeed⟩

theorem resolveEscapes_cons {c : Char} (hc : c ≠ '\\') (rest : List Char) :
    resolveEscapes (c :: rest) = c :: resolveEscapes rest := by
  rw [resolveEscapes]
  all_goals
    intros
    contradiction

/-- Escapes are undone by resolving them. -/
theorem resolveEscapes_escaped (v : List Char) : resolveEscapes (v.flatMap escaped) = v := by
  induction v with
  | nil => rw [List.flatMap_nil, resolveEscapes]
  | cons c v ih =>
      rw [List.flatMap_cons]
      rcases escaped_cases c with ⟨code, hwritten, -, hread⟩ | ⟨hwritten, hslash, -, -⟩
      · rw [hwritten, List.cons_append, List.singleton_append, hread, ih]
      · rw [hwritten, List.singleton_append, resolveEscapes_cons hslash, ih]

/-- A value in quotes is read as the value. -/
theorem unquoteChars_quoted (v : List Char) : unquoteChars (quoted v) = v := by
  have hlast : (v.flatMap escaped ++ ['"']).getLast? = some '"' := List.getLast?_concat
  rw [quoted, unquoteChars, if_pos hlast, List.dropLast_concat, resolveEscapes_escaped]

/-- Between quotes every written character leads back to where the scan stood. -/
theorem behind_escaped (c : Char) : Quoting.inside.behind (escaped c) = .inside := by
  rcases escaped_cases c with ⟨code, hwritten, -⟩ | ⟨hwritten, hslash, hquote, -⟩
  · rw [hwritten]
    rfl
  · rw [hwritten]
    simp [Quoting.next, hslash, hquote]

theorem solid_escaped (c : Char) : Quoting.inside.Solid (escaped c) := by
  rcases escaped_cases c with ⟨code, hwritten, -⟩ | ⟨hwritten, -⟩
  · rw [hwritten]
    refine ⟨by simp, ?_, trivial⟩
    rintro ⟨hout, -⟩
    nomatch hout
  · rw [hwritten]
    exact ⟨by simp, trivial⟩

/-- No escaped character closes the quotes. -/
theorem behind_flatMap_escaped (v : List Char) :
    Quoting.inside.behind (v.flatMap escaped) = .inside := by
  induction v with
  | nil => rfl
  | cons c v ih => rw [List.flatMap_cons, Quoting.behind_append, behind_escaped, ih]

theorem solid_flatMap_escaped (v : List Char) : Quoting.inside.Solid (v.flatMap escaped) := by
  induction v with
  | nil => trivial
  | cons c v ih =>
      rw [List.flatMap_cons]
      refine Quoting.solid_append (solid_escaped c) ?_
      rw [behind_escaped]
      exact ih

/-- A quoted value closes its quotes. -/
theorem behind_quoted (v : List Char) : Quoting.outside.behind (quoted v) = .outside := by
  have hopened : Quoting.outside.next '"' = .inside := by decide
  have hclosed : Quoting.inside.next '"' = .outside := by decide
  rw [quoted, Quoting.behind_cons, hopened, Quoting.behind_append, behind_flatMap_escaped]
  exact hclosed

/-- A quoted value has no blank outside its quotes. -/
theorem solid_quoted (v : List Char) : Quoting.outside.Solid (quoted v) := by
  have hopened : Quoting.outside.next '"' = .inside := by decide
  refine ⟨by decide, ?_⟩
  rw [hopened]
  refine Quoting.solid_append (solid_flatMap_escaped v) ?_
  rw [behind_flatMap_escaped]
  exact ⟨by simp, trivial⟩

/-- Line feeds are escaped, so a quoted value stays on its line. -/
theorem feed_notMem_quoted (v : List Char) : '\n' ∉ quoted v := by
  have hinner : '\n' ∉ v.flatMap escaped := by
    intro hmem
    obtain ⟨c, -, hc⟩ := List.mem_flatMap.1 hmem
    rcases escaped_cases c with ⟨code, hwritten, hcode, -⟩ | ⟨hwritten, -, -, hfeed⟩
    · rw [hwritten] at hc
      simp [hcode.symm] at hc
    · rw [hwritten] at hc
      exact hfeed (List.mem_singleton.1 hc).symm
  simp [quoted, hinner]

/-! ## The `=` of a parameter -/

/-- An equals sign between quotes does not cut. -/
theorem cutAtEquals_inside (v rest : List Char) :
    cutAtEquals .inside (v.flatMap escaped ++ rest) =
      (cutAtEquals .inside rest).map fun (a, b) => (v.flatMap escaped ++ a, b) := by
  induction v with
  | nil => simp
  | cons c v ih =>
      rw [List.flatMap_cons, List.append_assoc]
      -- Each written character leads back inside, so the `=` is looked for behind it.
      rcases escaped_cases c with ⟨code, hwritten, -⟩ | ⟨hwritten, hslash, hquote, -⟩
      · have hescape : Quoting.inside.next '\\' = .escaped := by decide
        have hback : Quoting.escaped.next code = .inside := rfl
        rw [hwritten]
        simp [cutAtEquals, hescape, hback, ih, Function.comp_def]
      · have hstay : Quoting.inside.next c = .inside := by simp [Quoting.next, hslash, hquote]
        rw [hwritten]
        simp [cutAtEquals, hstay, ih, Function.comp_def]

/-- Between quotes no `=` counts. -/
theorem cutAtEquals_quoted (v : List Char) : cutAtEquals .outside (quoted v) = none := by
  have hopened : Quoting.outside.next '"' = .inside := by decide
  simp [quoted, cutAtEquals, hopened, cutAtEquals_inside]

/-- A key is cut off at the equals sign behind it. -/
theorem cutAtEquals_key {key : List Char} (hbare : ∀ c ∈ key, IsBare c) (hequals : '=' ∉ key)
    (rest : List Char) : cutAtEquals .outside (key ++ '=' :: rest) = some (key, rest) := by
  induction key with
  | nil => rfl
  | cons c key ih =>
      have hne : c ≠ '=' := fun h => hequals (by simp [h])
      have hbehind : cutAtEquals .outside (key ++ '=' :: rest) = some (key, rest) :=
        ih (fun d hd => hbare d (by simp [hd])) fun hmem => hequals (by simp [hmem])
      rw [List.cons_append, cutAtEquals, if_neg fun h => hne h.2,
        next_of_isBare (hbare c (by simp)), hbehind]
      rfl

/-! ## Lines -/

/-- A text without a line feed is one line. -/
theorem lines_of_single {cs : List Char} (hne : cs ≠ []) (hfeed : '\n' ∉ cs) :
    Text.lines cs = [cs] := by
  rw [Text.lines, Text.splitAt_of_notMem hfeed]
  cases cs with
  | nil => exact absurd rfl hne
  | cons c cs => rfl

/-! ## Written commands -/

/-- The name of a command: one or more letters, digits, underscores and hyphens. -/
structure CommandName where
  text : String
  ne_nil : text.toList ≠ []
  valid : ∀ c ∈ text.toList, isNameChar c = true

/-- The key of a parameter: not empty, and without blanks, quotes and equals signs. -/
structure ParameterKey where
  text : String
  ne_nil : text.toList ≠ []
  bare : ∀ c ∈ text.toList, IsBare c
  equals_notMem : '=' ∉ text.toList

/-- A parameter to be written: with a key or without one, and with any value. -/
structure Draft where
  key : Option ParameterKey
  value : String

namespace Draft

def chars (d : Draft) : List Char :=
  match d.key with
  | none => quoted d.value.toList
  | some key => key.text.toList ++ '=' :: quoted d.value.toList

def parameter (d : Draft) : Parameter where
  key := d.key.map ParameterKey.text
  value := d.value
  token := String.ofList d.chars

/-- A written parameter is read as the parameter that was meant. -/
theorem ofToken_chars (d : Draft) : Parameter.ofToken d.chars = d.parameter := by
  obtain ⟨key, v⟩ := d
  cases key with
  | none =>
      simp [Parameter.ofToken, chars, cutAtEquals_quoted, unquoteChars_quoted, parameter]
  | some key =>
      have hcut := cutAtEquals_key key.bare key.equals_notMem (quoted v.toList)
      obtain ⟨k, ks, hkey⟩ := List.exists_cons_of_ne_nil key.ne_nil
      have htext : String.ofList (k :: ks) = key.text := by rw [← hkey, String.ofList_toList]
      rw [hkey] at hcut
      simp only [Parameter.ofToken, chars, hkey, hcut, htext, unquoteChars_quoted,
        String.ofList_toList, parameter, Option.map_some]

theorem behind_chars (d : Draft) : Quoting.outside.behind d.chars = .outside := by
  obtain ⟨key, v⟩ := d
  cases key with
  | none => exact behind_quoted v.toList
  | some key =>
      have hequals : Quoting.outside.next '=' = .outside := by decide
      rw [chars, Quoting.behind_append, behind_of_isBare key.bare, Quoting.behind_cons, hequals]
      exact behind_quoted v.toList

theorem solid_chars (d : Draft) : Quoting.outside.Solid d.chars := by
  obtain ⟨key, v⟩ := d
  cases key with
  | none => exact solid_quoted v.toList
  | some key =>
      have hequals : Quoting.outside.next '=' = .outside := by decide
      refine Quoting.solid_append (solid_of_isBare key.bare) ?_
      rw [behind_of_isBare key.bare]
      refine ⟨by decide, ?_⟩
      rw [hequals]
      exact solid_quoted v.toList

theorem feed_notMem_chars (d : Draft) : '\n' ∉ d.chars := by
  obtain ⟨key, v⟩ := d
  cases key with
  | none => exact feed_notMem_quoted v.toList
  | some key =>
      have hkey : '\n' ∉ key.text.toList := by
        intro hmem
        have hblank : Text.isBlank '\n' = false := (key.bare _ hmem).1
        nomatch hblank
      simp [chars, hkey, feed_notMem_quoted]

theorem getLast?_chars (d : Draft) : d.chars.getLast? = some '"' := by
  obtain ⟨key, v⟩ := d
  have hquoted : (quoted v.toList).getLast? = some '"' := by
    rw [quoted, ← List.cons_append, List.getLast?_concat]
  cases key with
  | none => exact hquoted
  | some key =>
      rw [chars, List.getLast?_append, List.getLast?_cons, hquoted]
      rfl

theorem chars_ne_nil (d : Draft) : d.chars ≠ [] := by
  intro h
  have hlast := d.getLast?_chars
  rw [h] at hlast
  nomatch hlast

end Draft

/-- Written parameters, with at least one space before each of them. The number with a parameter says
how many more there are. -/
def writtenParameters (drafts : List (Nat × Draft)) : List Char :=
  drafts.flatMap fun (more, d) => List.replicate (more + 1) ' ' ++ d.chars

def writtenLine (name : CommandName) (drafts : List (Nat × Draft)) : String :=
  String.ofList (name.text.toList ++ writtenParameters drafts)

theorem writtenParameters_cons (more : Nat) (d : Draft) (drafts : List (Nat × Draft)) :
    writtenParameters ((more, d) :: drafts) =
      List.replicate (more + 1) ' ' ++ (d.chars ++ writtenParameters drafts) := by
  simp [writtenParameters]

/-- The words of written parameters are the parameters, but for empty ones between the spaces. -/
theorem wordsFrom_writtenParameters (drafts : List (Nat × Draft)) :
    ∃ words, wordsFrom .outside (writtenParameters drafts) = [] :: words ∧
      words.filter (· ≠ []) = drafts.map fun (_, d) => d.chars := by
  induction drafts with
  | nil => exact ⟨[], rfl, rfl⟩
  | cons placed drafts ih =>
      obtain ⟨more, d⟩ := placed
      obtain ⟨words, hwords, hkept⟩ := ih
      -- What follows the parameter is blank or nothing, so its word ends where it does.
      have hword : wordsFrom .outside (d.chars ++ writtenParameters drafts) = d.chars :: words := by
        rw [← d.behind_chars] at hwords
        rw [wordsFrom_append d.solid_chars hwords, List.append_nil]
      refine ⟨List.replicate more [] ++ d.chars :: words, ?_, ?_⟩
      · rw [writtenParameters_cons, wordsFrom_spaces, hword]
        rfl
      · rw [List.filter_append, List.filter_cons_of_pos (by simp [d.chars_ne_nil]), hkept]
        simp

theorem behind_writtenParameters (drafts : List (Nat × Draft)) :
    Quoting.outside.behind (writtenParameters drafts) = .outside := by
  induction drafts with
  | nil => rfl
  | cons placed drafts ih =>
      obtain ⟨more, d⟩ := placed
      have hspaces : Quoting.outside.behind (List.replicate (more + 1) ' ') = .outside := by
        generalize more + 1 = n
        induction n with
        | zero => rfl
        | succ n ihn => exact ihn
      rw [writtenParameters_cons, Quoting.behind_append, hspaces, Quoting.behind_append,
        d.behind_chars, ih]

theorem toNat_bounds_of_isNameChar {c : Char} (hc : isNameChar c = true) :
    45 ≤ c.toNat ∧ c.toNat ≤ 122 := by
  simp only [isNameChar, Text.isLetter, Text.isDigit, Bool.or_eq_true, Bool.and_eq_true,
    decide_eq_true_eq, beq_iff_eq] at hc
  rcases hc with (((⟨hlow, hhigh⟩ | ⟨hlow, hhigh⟩) | ⟨hlow, hhigh⟩) | rfl) | rfl
  · have hlow' : 97 ≤ c.toNat := hlow
    have hhigh' : c.toNat ≤ 122 := hhigh
    omega
  · have hlow' : 65 ≤ c.toNat := hlow
    have hhigh' : c.toNat ≤ 90 := hhigh
    omega
  · have hlow' : 48 ≤ c.toNat := hlow
    have hhigh' : c.toNat ≤ 57 := hhigh
    omega
  · decide
  · decide

/-- The characters of names stand for themselves. -/
theorem isBare_of_isNameChar {c : Char} (hc : isNameChar c = true) : IsBare c := by
  obtain ⟨hlow, hhigh⟩ := toNat_bounds_of_isNameChar hc
  constructor
  · rw [← Bool.not_eq_true]
    intro hblank
    simp only [Text.isBlank, Bool.or_eq_true, Bool.and_eq_true, decide_eq_true_eq,
      beq_iff_eq] at hblank
    omega
  · rintro rfl
    contradiction

namespace CommandName

theorem isBare_of_mem (name : CommandName) : ∀ c ∈ name.text.toList, IsBare c :=
  fun c hc => isBare_of_isNameChar (name.valid c hc)

theorem feed_notMem (name : CommandName) : '\n' ∉ name.text.toList := by
  intro hmem
  have hblank : Text.isBlank '\n' = false := (name.isBare_of_mem _ hmem).1
  nomatch hblank

end CommandName

section WrittenLine

variable (name : CommandName) (drafts : List (Nat × Draft))

/-- The tokens of a written line are its name and its parameters. -/
theorem tokens_writtenLine :
    tokens (name.text.toList ++ writtenParameters drafts) =
      name.text.toList :: drafts.map fun (_, d) => d.chars := by
  obtain ⟨words, hwords, hkept⟩ := wordsFrom_writtenParameters drafts
  rw [← behind_of_isBare name.isBare_of_mem] at hwords
  rw [tokens, wordsFrom_append (solid_of_isBare name.isBare_of_mem) hwords, List.append_nil,
    List.filter_cons_of_pos (by simp [name.ne_nil]), hkept]

/-- A written line has no flaw. -/
theorem flaw?_writtenLine :
    flaw? (name.text.toList ++ writtenParameters drafts) name.text.toList = none := by
  have hafter : Quoting.after (name.text.toList ++ writtenParameters drafts) = .outside := by
    show Quoting.outside.behind (name.text.toList ++ writtenParameters drafts) = .outside
    rw [Quoting.behind_append, behind_of_isBare name.isBare_of_mem, behind_writtenParameters]
  have hvalid : name.text.toList.all isNameChar = true := List.all_eq_true.2 name.valid
  simp [flaw?, hafter, hvalid]

theorem feed_notMem_writtenLine :
    '\n' ∉ name.text.toList ++ writtenParameters drafts := by
  intro hmem
  rcases List.mem_append.1 hmem with hmem | hmem
  · exact name.feed_notMem hmem
  · obtain ⟨⟨more, d⟩, -, hd⟩ := List.mem_flatMap.1 hmem
    rcases List.mem_append.1 hd with hspace | hchars
    · have hfeed : '\n' = ' ' := List.eq_of_mem_replicate hspace
      nomatch hfeed
    · exact d.feed_notMem_chars hchars

theorem getLast?_writtenParameters {c : Char} (hc : (writtenParameters drafts).getLast? = some c) :
    c = '"' := by
  rcases List.eq_nil_or_concat drafts with rfl | ⟨front, ⟨more, d⟩, rfl⟩
  · nomatch hc
  · simp [writtenParameters, List.getLast?_append, d.getLast?_chars] at hc
    exact hc.symm

/-- A written line begins with its name and ends with a quote or the name, so it is not trimmed. -/
theorem trimChars_writtenLine :
    Text.trimChars (name.text.toList ++ writtenParameters drafts) =
      name.text.toList ++ writtenParameters drafts := by
  -- The line begins with the name, and ends with it or with a quote.
  obtain ⟨n, ns, hname⟩ := List.exists_cons_of_ne_nil name.ne_nil
  apply Text.trimChars_eq_self
  · intro c hc
    have hmem : c ∈ name.text.toList := by
      rw [hname, List.cons_append, List.head?_cons] at hc
      simp [hname, Option.some.inj hc]
    exact (name.isBare_of_mem c hmem).1
  · intro c hc
    rw [List.getLast?_append, Option.or_eq_some_iff] at hc
    rcases hc with hc | ⟨-, hc⟩
    · rw [getLast?_writtenParameters drafts hc]
      decide
    · exact (name.isBare_of_mem c (List.mem_of_getLast? hc)).1

/-- A written line is read as the command that was meant. -/
theorem ofLine?_writtenLine (line : Nat) :
    Command.ofLine? (name.text.toList ++ writtenParameters drafts) line =
      some
        { name := Text.upper name.text
          parameters := drafts.map fun (_, d) => d.parameter
          raw := writtenLine name drafts
          line := line
          flaw := none } := by
  obtain ⟨n, ns, hname⟩ := List.exists_cons_of_ne_nil name.ne_nil
  -- A name does not begin like a comment.
  have hcomment : (name.text.toList ++ writtenParameters drafts).head? ≠ some '\x27' := by
    intro h
    rw [hname, List.cons_append, List.head?_cons] at h
    have hbounds := toNat_bounds_of_isNameChar (name.valid n (by simp [hname]))
    rw [Option.some.inj h] at hbounds
    contradiction
  have hparameters : (drafts.map fun (_, d) => d.chars).map Parameter.ofToken =
      drafts.map fun (_, d) => d.parameter := by
    simp [Draft.ofToken_chars]
  simp only [Command.ofLine?, trimChars_writtenLine, if_neg hcomment, tokens_writtenLine,
    flaw?_writtenLine, hparameters]
  rfl

/-- A command line whose values are all quoted is read as it was meant: it is one command without a
flaw, with its name in upper case and these parameters in order, each with its value and with its text
as written. -/
theorem parse_writtenLine (title : String) :
    Script.parse title (writtenLine name drafts) =
      { name := title
        commands :=
          [{ name := Text.upper name.text
             parameters := drafts.map fun (_, d) => d.parameter
             raw := writtenLine name drafts
             line := 1
             flaw := none }] } := by
  -- A line feed in a value is written as a code, so all of it is one line.
  have hne : name.text.toList ++ writtenParameters drafts ≠ [] := by simp [name.ne_nil]
  have hlines : Text.lines (writtenLine name drafts).toList =
      [name.text.toList ++ writtenParameters drafts] := by
    rw [writtenLine, String.toList_ofList]
    exact lines_of_single hne (feed_notMem_writtenLine name drafts)
  rw [Script.parse, hlines]
  simp only [Script.commandsFrom, ofLine?_writtenLine]

end WrittenLine
end MacroReplay
