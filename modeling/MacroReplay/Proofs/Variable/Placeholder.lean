import MacroReplay.Proofs.Variable.Assignment

/-!
# Where a placeholder is replaced

Opening braces pair with the next closing braces. Where the text before a placeholder leaves braces open,
they pair with the closing braces of the placeholder, and the placeholder itself is a part of what stands
between them. It is then not replaced: it stays as it stands, or it goes with the braces before it.

* `Variable.mark_notMem_of_has` — a name has no braces, and no colon;
* `Expansion.Dangling` — the texts that leave braces open, and what they leave between the braces;
* `Store.exists_shows_apart` — every variable but the clock can show different texts;
* `Store.fate_of_placeholder` — what becomes of a placeholder, whatever text it stands behind.
-/

namespace MacroReplay

attribute [local irreducible] Variable.rule?

/-! ## Names have no marks -/

namespace Text

theorem toUpper_eq_bang_iff {c : Char} : c.toUpper = '!' ↔ c = '!' := by
  rcases toUpper_cases c with hsame | hletter
  · rw [hsame]
  · exact of_letters (P := fun c => c.toUpper = '!' ↔ c = '!') (by decide) hletter

/-- Trimming removes nothing but blanks. -/
theorem mem_trimChars {c : Char} {l : List Char} (hc : c ∈ l) (hblank : isBlank c = false) :
    c ∈ trimChars l := by
  obtain ⟨front, back, hcut, hfront, hback⟩ := (trimmed_trimChars l).cut
  rw [hcut] at hc
  have hnot : ∀ blanks : List Char, (∀ d ∈ blanks, isBlank d = true) → c ∉ blanks := by
    intro blanks hblanks hmem
    rw [hblanks c hmem] at hblank
    cases hblank
  simpa [hnot front hfront, hnot back hback] using hc

end Text

namespace Variable

/-- The characters that mean something between the braces of a placeholder, or close it. -/
def isMark (c : Char) : Bool :=
  c == '\x7b' || c == '\x7d' || c == ':'

theorem isMark_cases {c : Char} (h : isMark c = true) : c = '\x7b' ∨ c = '\x7d' ∨ c = ':' := by
  simpa [isMark, or_assoc] using h

theorem not_isMark_of_isDigit {c : Char} (h : Text.isDigit c = true) : isMark c = false := by
  rw [← Bool.not_eq_true]
  intro hmark
  rcases isMark_cases hmark with rfl | rfl | rfl <;> exact absurd h (by decide)

/-- The name of a variable begins with `!`, and has no marks. -/
theorem shape_of_rule? {name : String} {rule : Rule} (hrule : rule? name = some rule) :
    name.toList.head? = some '!' ∧ ∀ c ∈ name.toList, isMark c = false := by
  rcases mem_or_isColumn_of_rule? hrule with ⟨d, hd, rfl, -⟩ | ⟨hcolumn, -⟩
  · have hall : definitions.all (fun d => d.name.toList.head? == some '!' &&
        d.name.toList.all (!isMark ·)) = true := by decide +kernel
    simpa using List.all_eq_true.1 hall d hd
  · simp only [isColumn, Bool.and_eq_true, beq_iff_eq] at hcolumn
    obtain ⟨⟨⟨hfront, -⟩, hdigits⟩, -⟩ := hcolumn
    have hname : name.toList = "!COL".toList ++ name.toList.drop 4 := by
      rw [← hfront, List.take_append_drop]
    rw [hname]
    refine ⟨rfl, ?_⟩
    intro c hc
    rcases List.mem_append.1 hc with hword | hdigit
    · have hall : "!COL".toList.all (!isMark ·) = true := by decide
      simpa using List.all_eq_true.1 hall c hword
    · exact not_isMark_of_isDigit (List.all_eq_true.1 hdigits c hdigit)

/-- No name of a variable has a brace or a colon. -/
theorem mark_notMem_of_has {name : String} (hname : Store.has name = true) {c : Char}
    (hc : isMark c = true) : c ∉ name.toList := by
  intro hmem
  obtain ⟨rule, hrule⟩ := Option.isSome_iff_exists.1 hname
  -- A mark is no blank and no letter, so that it would be in the canonical spelling too.
  have hkept : Text.isBlank c = false ∧ c.toUpper = c := by
    rcases isMark_cases hc with rfl | rfl | rfl <;> decide
  have hcanonical : c ∈ (canonical name).toList := by
    rw [toList_canonical]
    exact List.mem_map.2 ⟨c, Text.mem_trimChars hmem hkept.1, hkept.2⟩
  rw [(shape_of_rule? hrule).2 c hcanonical] at hc
  cases hc

/-- Every name of a variable begins with an exclamation mark. -/
theorem bang_of_has {name : String} (hname : Store.has name = true) :
    (Text.trim name).toList.head? = some '!' := by
  obtain ⟨rule, hrule⟩ := Option.isSome_iff_exists.1 hname
  have hhead := (shape_of_rule? hrule).1
  rw [toList_canonical, List.head?_map, Option.map_eq_some_iff] at hhead
  obtain ⟨c, hc, hupper⟩ := hhead
  rw [Text.trim, String.toList_ofList, hc, Text.toUpper_eq_bang_iff.1 hupper]

end Variable

/-! ## Braces that are left open -/

namespace Expansion

/-- The text `a` leaves braces open behind the closed text `front`; when a placeholder follows, `held`
comes to stand between the braces in front of it. -/
inductive Dangling (front : String) : (held a : String) → Prop where
  | brace : ClosedText front.toList → Dangling front "\x7b" (front ++ "\x7b")
  | braces {rest : String} : ClosedText front.toList → ¬closing <:+: rest.toList →
      Dangling front (rest ++ "\x7b\x7b") (front ++ ("\x7b\x7b" ++ rest))

/-- A text closes its braces or leaves some open. -/
theorem closed_or_dangling (a : String) :
    ClosedText a.toList ∨ ∃ front held, Dangling front held a := by
  obtain ⟨front, hfront, hform⟩ := exists_closed_front a.toList
  have hclosed : ClosedText (String.ofList front).toList := by simpa using hfront
  rcases hform with h | h | ⟨rest, h, hrest⟩
  · exact .inl (h ▸ hfront)
  · have ha : a = String.ofList front ++ "\x7b" := String.toList_injective (by simp [h])
    rw [ha]
    exact .inr ⟨_, _, .brace hclosed⟩
  · have ha : a = String.ofList front ++ ("\x7b\x7b" ++ String.ofList rest) :=
      String.toList_injective (by simp [h, opening])
    have hopen : ¬closing <:+: (String.ofList rest).toList := by simpa using hrest
    rw [ha]
    exact .inr ⟨_, _, .braces hclosed hopen⟩

namespace Dangling

variable {front held a name : String}

theorem closed_front (h : Dangling front held a) : ClosedText front.toList := by
  cases h with
  | brace hfront => exact hfront
  | braces hfront _ => exact hfront

/-- The placeholder behind the text is a part of what stands between the braces. -/
theorem append_placeholder (h : Dangling front held a) (name : String) :
    a ++ placeholder name = front ++ placeholder (held ++ name) := by
  cases h with
  | brace => exact String.toList_injective (by simp [placeholder])
  | braces => exact String.toList_injective (by simp [placeholder])

/-- There is an opening brace in what comes to stand between the braces. -/
theorem brace_mem (h : Dangling front held a) : '\x7b' ∈ held.toList := by
  cases h with
  | brace => simp
  | braces => simp

/-- The braces that were open are closed by those of the placeholder and not before. -/
theorem detached (h : Dangling front held a) (hname : '\x7d' ∉ name.toList) :
    Detached '\x7d' (held ++ name).toList := by
  have hbehind : Detached '\x7d' ('\x7b' :: name.toList) :=
    detached_of_notMem (by simpa using hname)
  cases h with
  | brace => simpa using hbehind
  | @braces rest _ hopen =>
      -- A single brace at the end of `rest` is kept from closing by the opening braces behind it.
      have hrest : Detached '\x7d' (rest.toList ++ ['\x7b']) := by
        refine ⟨?_, by simp⟩
        rw [List.infix_concat_iff, not_or]
        refine ⟨?_, hopen⟩
        rintro ⟨before, hbefore⟩
        have hlast := congrArg List.getLast? hbefore
        simp at hlast
      simpa using hrest.append hbehind

end Dangling

/-- Without an exclamation mark nothing is asked for. -/
theorem request?_of_no_bang {inner : String} (h : (Text.trim inner).toList.head? ≠ some '!') :
    request? inner.toList = none := by
  rw [Text.trim, String.toList_ofList] at h
  rw [request?]
  cases hcs : Text.trimChars inner.toList with
  | nil => rfl
  | cons c cs =>
      have hc : c ≠ '!' := by simpa [hcs] using h
      simp [hc]

end Expansion

namespace Store

open Calendar (DateTime)
open Expansion
open Variable (canonical rule?)

/-- Braces that are left open stand for themselves. -/
theorem expand_dangling {front held a : String} (h : Dangling front held a) :
    ∃ tail, tail ++ "\x7b\x7b" = "\x7b\x7b" ++ held ∧
      ∀ (s : Store) now, s.expand now a = s.expand now front ++ tail := by
  cases h with
  | brace hfront =>
      refine ⟨"\x7b", by decide, ?_⟩
      intro s now
      have hplain : s.expand now "\x7b" = "\x7b" := (verbatim_of_plain (by decide) s now).1
      rw [expand_append hfront, hplain]
  | @braces rest hfront hopen =>
      refine ⟨"\x7b\x7b" ++ rest, String.append_assoc .., ?_⟩
      intro s now
      rw [expand_append hfront, (verbatim_of_unclosed hopen s now).1]

/-- Braces that are left open pair with those of a placeholder that follows. -/
theorem expand_behind_dangling {front held a name : String} (h : Dangling front held a)
    (hname : '\x7d' ∉ name.toList) (b : String) (s : Store) (now : DateTime) :
    s.expand now (a ++ placeholder name ++ b) =
      s.expand now front ++ s.expand now (placeholder (held ++ name)) ++ s.expand now b := by
  have hclosed : ClosedText (placeholder (held ++ name)).toList :=
    closedText_placeholder (h.detached hname)
  rw [h.append_placeholder, String.append_assoc, expand_append h.closed_front, expand_append hclosed,
    String.append_assoc]

/-- A text with a brace or a colon is no name of a variable. -/
theorem has_eq_false_of_mark {name : String} {c : Char} (hc : Variable.isMark c = true)
    (hmem : c ∈ name.toList) : has name = false := by
  rw [← Bool.not_eq_true]
  intro hname
  exact Variable.mark_notMem_of_has hname hc hmem

/-- On its own, the placeholder of a variable is replaced. -/
theorem expand_variable {name : String} (hname : has name = true) (s : Store) (now : DateTime) :
    s.expand now (placeholder name) = s.getText now name := by
  have htime : ¬AsksTime name := by
    intro hclock
    -- The colon behind `!NOW` would be a part of the name.
    obtain ⟨rule, hrule⟩ := Option.isSome_iff_exists.1 hname
    have hcolon := (Variable.shape_of_rule? hrule).2 ':' (hclock.subset (by decide))
    cases hcolon
  have hr := (request?_of_bang (Variable.bang_of_has hname)).2 htime
  rw [(expand_placeholder (Variable.mark_notMem_of_has hname rfl) hr s now).1,
    Expansion.Request.answer, getText_canonical]

/-! ## Variables that show different texts -/

theorem keyword_of_mem : ∀ d ∈ Variable.definitions, ∀ allowed, d.rule = .keyword allowed →
    allowed = ["SLOW", "MEDIUM", "FAST"] := by
  simp [Variable.definitions, Variable.Definition.ofInteger, Variable.Definition.flag,
    Variable.Definition.free]

theorem readOnly_of_mem : ∀ d ∈ Variable.definitions, d.rule = .readOnly →
    d.name = "!EXTRACTADD" ∨ d.name = "!NOW" := by
  simp [Variable.definitions, Variable.Definition.ofInteger, Variable.Definition.flag,
    Variable.Definition.free]

theorem snd_keep {v : Value} (hnull : isNullWord v.render = false) (s : Store) (name : String) :
    (s.keep name v).2 = v := by
  by_cases hextract : name = "!EXTRACT"
  · simp [keep, hextract, hnull]
  · by_cases htimeout : name = "!TIMEOUT"
    · cases v <;> simp [keep, htimeout]
    · by_cases hloop : name = "!LOOP"
      · simp [keep, hloop]
      · simp [keep, hextract, htimeout, hloop]

/-- A value that was accepted can be read, unless it renders as the null word. -/
theorem getText_of_accepted {name : String} {rule : Variable.Rule} {v w : Value}
    (hrule : rule? (canonical name) = some rule) (haccepted : rule.accept (canonical name) v = .ok w)
    (hnull : isNullWord w.render = false) (now : DateTime) :
    (afterAll [.set name v]).getText now name = w.render := by
  have hassigned : (Request.set name v).assigned? = some (canonical name, w) :=
    Request.assigned?_eq_some_iff.2 ⟨rfl, rule, hrule, haccepted⟩
  have hafter : afterAll [.set name v] = (initial.keep (canonical name) w).1 :=
    serve_of_assigned hassigned
  have hcurrent := (assigns_keep initial hrule haccepted).current now name
    (Variable.sameName_iff.2 rfl)
  rw [hafter, getText, hcurrent, snd_keep hnull]
  rfl

/-- A variable that can be assigned takes two values with different texts as they are. -/
theorem exists_accepted_apart {name : String} {rule : Variable.Rule} (hrule : rule? name = some rule)
    (hassignable : rule ≠ .readOnly) :
    ∃ v w, rule.accept name v = .ok v ∧ rule.accept name w = .ok w ∧ isNullWord v.render = false ∧
      isNullWord w.render = false ∧ v.render ≠ w.render := by
  cases rule with
  | readOnly => exact absurd rfl hassignable
  | free => exact ⟨.text "0", .text "1", rfl, rfl, by decide, by decide, by decide⟩
  | yesNo =>
      have hyes : Variable.keywordValue? ["YES", "NO"] (.text "YES") = some "YES" := by decide
      have hno : Variable.keywordValue? ["YES", "NO"] (.text "NO") = some "NO" := by decide
      refine ⟨.text "YES", .text "NO", ?_, ?_, by decide, by decide, by decide⟩
      · simp [hyes, Variable.Rule.accept]
      · simp [hno, Variable.Rule.accept]
  | keyword allowed =>
      -- Only one variable takes keywords, so that they are known.
      have hallowed : allowed = ["SLOW", "MEDIUM", "FAST"] := by
        rcases Variable.mem_or_isColumn_of_rule? hrule with ⟨d, hd, -, hd'⟩ | ⟨-, hfree⟩
        · exact keyword_of_mem d hd allowed hd'
        · cases hfree
      subst hallowed
      have hslow : Variable.keywordValue? ["SLOW", "MEDIUM", "FAST"] (.text "SLOW") = some "SLOW" := by
        decide
      have hfast : Variable.keywordValue? ["SLOW", "MEDIUM", "FAST"] (.text "FAST") = some "FAST" := by
        decide
      refine ⟨.text "SLOW", .text "FAST", ?_, ?_, by decide, by decide, by decide⟩
      · simp [hslow, Variable.Rule.accept]
      · simp [hfast, Variable.Rule.accept]
  | integer least =>
      -- No integer variable has a least value above 1, so that 1 and 2 will do.
      have hleast : least ≤ 1 := by
        rcases Variable.mem_or_isColumn_of_rule? hrule with ⟨d, hd, -, hd'⟩ | ⟨-, hfree⟩
        · have := least_of_mem d hd least hd'
          omega
        · cases hfree
      have haccepted : ∀ n, 1 ≤ n → n ≤ 2 →
          Variable.Rule.accept name (.integer least) (.number (Number.ofNat n)) =
            .ok (.number (Number.ofNat n)) := by
        intro n hpos hle
        have hn : Variable.integerValue? least (.number (Number.ofNat n)) = some (Number.ofNat n) :=
          Variable.integerValue?_eq_some_iff.2 ⟨rfl, Variable.isInteger_ofNat (hleast.trans hpos)
            (hle.trans (by decide))⟩
        simp [hn, Variable.Rule.accept]
      exact ⟨_, _, haccepted 1 (by decide) (by decide), haccepted 2 (by decide) (by decide),
        by decide +kernel, by decide +kernel, by decide +kernel⟩

/-- Every variable but the clock shows different texts in different stores. -/
theorem exists_shows_apart {name : String} (hname : has name = true) (hnow : canonical name ≠ "!NOW")
    (now : DateTime) : ∃ requests requests',
      (afterAll requests).getText now name ≠ (afterAll requests').getText now name := by
  obtain ⟨rule, hrule⟩ := Option.isSome_iff_exists.1 hname
  by_cases hreadOnly : rule = .readOnly
  · subst hreadOnly
    have hadd : canonical name = "!EXTRACTADD" := by
      rcases Variable.mem_or_isColumn_of_rule? hrule with ⟨d, hd, hd', hrule'⟩ | ⟨-, hfree⟩
      · rw [← hd'] at hnow ⊢
        exact (readOnly_of_mem d hd hrule').resolve_right hnow
      · cases hfree
    -- It cannot be assigned itself, but shows what was assigned to `!EXTRACT`.
    have hshows : ∀ s : Store, s.getText now name = s.extractText := by
      intro s
      simp only [getText, get, lookup, hadd]
      rfl
    refine ⟨[], [.set "!EXTRACT" (.text "0")], ?_⟩
    rw [hshows, hshows]
    decide +kernel
  · obtain ⟨v, w, hv, hw, hnullv, hnullw, happart⟩ := exists_accepted_apart hrule hreadOnly
    refine ⟨[.set name v], [.set name w], ?_⟩
    rw [getText_of_accepted hrule hv hnullv, getText_of_accepted hrule hw hnullw]
    exact happart

/-! ## What becomes of a placeholder -/

section Holes

variable {inner : String} (hinner : Detached '\x7d' inner.toList)

include hinner

/-- A placeholder without an exclamation mark is left as it stands. -/
theorem expand_of_no_bang (hbang : (Text.trim inner).toList.head? ≠ some '!') (s : Store)
    (now : DateTime) : s.expand now (placeholder inner) = placeholder inner := by
  have hnone := request?_of_no_bang hbang
  apply String.toList_injective
  rw [(expand_hole hinner s now).1]
  simp [Piece.render, hnone, placeholder, opening, closing]

theorem expand_of_time (hbang : (Text.trim inner).toList.head? = some '!') (htime : AsksTime inner)
    (s : Store) (now : DateTime) :
    s.expand now (placeholder inner) =
      now.format (String.ofList ((Text.trim inner).toList.drop 5)) := by
  have hr := (request?_of_bang hbang).1 htime
  rw [(expand_hole hinner s now).1]
  simp [Piece.render, hr, Expansion.Request.answer, Text.trim]

/-- An unknown variable expands to nothing. -/
theorem expand_of_unknown (hbang : (Text.trim inner).toList.head? = some '!')
    (htime : ¬AsksTime inner) (hname : has inner = false) {s : Store} (hs : s.values.Sound)
    (now : DateTime) : s.expand now (placeholder inner) = "" := by
  have hr := (request?_of_bang hbang).2 htime
  rw [(expand_hole hinner s now).1]
  simp [Piece.render, hr, Expansion.Request.answer, getText_canonical, getText_of_unknown hs hname]

/-- What is put in place of a name that no variable has does not depend on the store. -/
theorem expand_eq_of_unknown (hname : has inner = false) {s s' : Store} (hs : s.values.Sound)
    (hs' : s'.values.Sound) (now : DateTime) :
    s.expand now (placeholder inner) = s'.expand now (placeholder inner) := by
  by_cases hbang : (Text.trim inner).toList.head? = some '!'
  · by_cases htime : AsksTime inner
    · rw [expand_of_time hinner hbang htime, expand_of_time hinner hbang htime]
    · rw [expand_of_unknown hinner hbang htime hname hs, expand_of_unknown hinner hbang htime hname hs']
  · rw [expand_of_no_bang hinner hbang, expand_of_no_bang hinner hbang]

end Holes

/-- What becomes of the placeholder of a variable between two texts. -/
structure Fate (name a b : String) : Prop where
  /-- It is replaced where the text before it leaves no braces open, whatever follows. -/
  replaced : ClosedText a.toList → ∀ (s : Store) now,
    s.expand now (a ++ placeholder name ++ b) =
      s.expand now a ++ s.getText now name ++ s.expand now b
  /-- It is not replaced elsewhere, not even in every store that requests can make. -/
  only_closed : (∀ requests now, (afterAll requests).expand now (a ++ placeholder name ++ b) =
      (afterAll requests).expand now a ++ (afterAll requests).getText now name ++
        (afterAll requests).expand now b) → ClosedText a.toList
  left_open : ¬ClosedText a.toList → ∃ front held, Dangling front held a
  /-- Between braces that ask for nothing it stays as it stands. -/
  kept : ∀ front held, Dangling front held a →
    (Text.trim (held ++ name)).toList.head? ≠ some '!' → ∀ (s : Store) now,
      s.expand now (a ++ placeholder name ++ b) =
        s.expand now a ++ placeholder name ++ s.expand now b
  /-- Between braces that ask for a variable it is lost, with all that the braces left open. -/
  lost : ∀ front held, Dangling front held a →
    (Text.trim (held ++ name)).toList.head? = some '!' → ¬AsksTime (held ++ name) →
      ∀ (s : Store) now, s.values.Sound →
        s.expand now (a ++ placeholder name ++ b) = s.expand now front ++ s.expand now b
  /-- Between braces that ask for the time it is a part of the pattern. -/
  timed : ∀ front held, Dangling front held a →
    (Text.trim (held ++ name)).toList.head? = some '!' → AsksTime (held ++ name) →
      ∀ (s : Store) now, s.expand now (a ++ placeholder name ++ b) =
        s.expand now front ++
          now.format (String.ofList ((Text.trim (held ++ name)).toList.drop 5)) ++ s.expand now b

/-- Behind a text that leaves braces open, the placeholder is not replaced in every store. -/
theorem not_replaced_behind_dangling {name front held a : String} (hname : has name = true)
    (hnow : canonical name ≠ "!NOW") (h : Dangling front held a) (b : String) (now : DateTime) :
    ¬∀ requests, (afterAll requests).expand now (a ++ placeholder name ++ b) =
      (afterAll requests).expand now a ++ (afterAll requests).getText now name ++
        (afterAll requests).expand now b := by
  intro hreplaced
  have hclosing : '\x7d' ∉ name.toList := Variable.mark_notMem_of_has hname rfl
  obtain ⟨tail, -, htail⟩ := expand_dangling h
  have hplace : ∀ requests, (afterAll requests).expand now (placeholder (held ++ name)) =
      tail ++ (afterAll requests).getText now name := by
    intro requests
    have hboth := hreplaced requests
    rw [expand_behind_dangling h hclosing, htail, String.append_left_inj, String.append_assoc,
      String.append_right_inj] at hboth
    exact hboth
  -- What is put in place of the braces is the same in all stores, and what the variable shows is not.
  have hunknown : has (held ++ name) = false :=
    has_eq_false_of_mark (c := '\x7b') rfl (by simp [h.brace_mem])
  obtain ⟨requests, requests', happart⟩ := exists_shows_apart hname hnow now
  have hsame := expand_eq_of_unknown (h.detached hclosing) hunknown (sound_afterAll requests)
    (sound_afterAll requests') now
  rw [hplace, hplace, String.append_right_inj] at hsame
  exact happart hsame

/-- The placeholder of a variable is replaced, whatever stands behind it, exactly if the text before it
leaves no braces open. -/
theorem fate_of_placeholder {name : String} (hname : has name = true) (hnow : canonical name ≠ "!NOW")
    (a b : String) : Fate name a b := by
  have hclosing : '\x7d' ∉ name.toList := Variable.mark_notMem_of_has hname rfl
  refine ⟨?_, ?_, ?_, ?_, ?_, ?_⟩
  · intro ha s now
    rw [String.append_assoc, expand_append ha, expand_append (closed_placeholder hclosing),
      expand_variable hname, String.append_assoc]
  · intro hreplaced
    -- Behind open braces some stores would tell the difference.
    rcases closed_or_dangling a with hclosed | ⟨front, held, h⟩
    · exact hclosed
    · exact absurd (fun requests => hreplaced requests ⟨2000, 1, 1, 0, 0, 0⟩)
        (not_replaced_behind_dangling hname hnow h b ⟨2000, 1, 1, 0, 0, 0⟩)
  · intro hopen
    exact (closed_or_dangling a).resolve_left hopen
  · intro front held h hbang s now
    obtain ⟨tail, hheld, htail⟩ := expand_dangling h
    have hsame : s.expand now front ++ placeholder (held ++ name) =
        s.expand now a ++ placeholder name := by
      calc s.expand now front ++ placeholder (held ++ name)
          = s.expand now front ++ ("\x7b\x7b" ++ held ++ name ++ "\x7d\x7d") := by
            simp only [placeholder, String.append_assoc]
        _ = s.expand now front ++ tail ++ placeholder name := by
            simp only [← hheld, placeholder, String.append_assoc]
        _ = s.expand now a ++ placeholder name := by rw [htail]
    rw [expand_behind_dangling h hclosing, expand_of_no_bang (h.detached hclosing) hbang, hsame]
  · intro front held h hbang htime s now hs
    have hunknown : has (held ++ name) = false :=
      has_eq_false_of_mark (c := '\x7b') rfl (by simp [h.brace_mem])
    rw [expand_behind_dangling h hclosing,
      expand_of_unknown (h.detached hclosing) hbang htime hunknown hs, String.append_empty]
  · intro front held h hbang htime s now
    rw [expand_behind_dangling h hclosing, expand_of_time (h.detached hclosing) hbang htime]

/-- The placeholder stands behind braces that are still open, so it is a part of an unknown name. -/
theorem fate_of_placeholder_errorIgnore :
    has "!ERRORIGNORE" = true ∧ canonical "!ERRORIGNORE" ≠ "!NOW" ∧
      Dangling "" "!VAR1 \x7b\x7b" "\x7b\x7b!VAR1 " ∧
      ∀ (s : Store) now, s.values.Sound →
        s.expand now ("\x7b\x7b!VAR1 " ++ placeholder "!ERRORIGNORE" ++ "") = "" := by
  have hname : has "!ERRORIGNORE" = true := by decide +kernel
  have hnow : canonical "!ERRORIGNORE" ≠ "!NOW" := by decide
  have hopen : Dangling "" "!VAR1 \x7b\x7b" "\x7b\x7b!VAR1 " :=
    @Dangling.braces "" "!VAR1 " (.plain (detached_nil _)) (by decide)
  have hempty : ∀ (s : Store) now, s.expand now "" = "" := fun s now =>
    (verbatim_of_plain (by decide) s now).1
  refine ⟨hname, hnow, hopen, ?_⟩
  intro s now hs
  have hfate := fate_of_placeholder hname hnow "\x7b\x7b!VAR1 " ""
  rw [hfate.lost _ _ hopen (by decide) (by decide) s now hs, hempty, String.append_empty]

/-- Behind a single brace a placeholder is not replaced. -/
theorem placeholder_kept_behind_brace :
    has "!ERRORIGNORE" = true ∧ canonical "!ERRORIGNORE" ≠ "!NOW" ∧ ∀ now,
      initial.expand now ("\x7b" ++ placeholder "!ERRORIGNORE" ++ "") =
        "\x7b\x7b\x7b!ERRORIGNORE\x7d\x7d" ∧
      initial.expand now "\x7b" ++ initial.getText now "!ERRORIGNORE" ++ initial.expand now "" =
        "\x7bNO" := by
  have hname : canonical "!ERRORIGNORE" = "!ERRORIGNORE" := by decide
  have hfind : initial.values.find? "!ERRORIGNORE" = some (.text "NO") := by decide
  have hopen : Dangling "" "\x7b" "\x7b" := @Dangling.brace "" (.plain (detached_nil _))
  refine ⟨by decide +kernel, by decide, ?_⟩
  intro now
  have hempty : initial.expand now "" = "" := (verbatim_of_plain (by decide) initial now).1
  have hbrace : initial.expand now "\x7b" = "\x7b" := (verbatim_of_plain (by decide) initial now).1
  constructor
  · rw [expand_behind_dangling hopen (by decide),
      expand_of_no_bang (hopen.detached (by decide)) (by decide), hempty]
    decide
  · have hvalue : initial.getText now "!ERRORIGNORE" = "NO" := by
      simp [getText, get, lookup, hname, hfind, Value.render, Value.renderWith]
    rw [hempty, hbrace, hvalue]
    decide

end Store
end MacroReplay
