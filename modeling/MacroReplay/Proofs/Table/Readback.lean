import Mathlib.Data.List.Basic
import MacroReplay.Profile
import MacroReplay.Proofs.Text.Utf8

/-!
# Reading back what was written

* `Spells`, `SpellsRow`, `SpellsTable` — the symbols that write a field, a row and a table, over any
  dialect: a field stands for itself if none of its symbols is special, or is quoted;
* `SpellsTable.read_eq` — the reader gives what is written;
* `spellsTable_write` — the writer writes its rows;
* `SpellsTable.encoded` — a table that is written in characters is written in their bytes;
* `readTable_write` — a file with a table holds its rows;
* `Profile.readTable_render` — a file with a profile.
-/

namespace MacroReplay.Csv

/-! ## Written tables -/

section Grammar

variable {α : Type}

/-- A symbol that stands for itself wherever it is. -/
def Dialect.isOrdinary (d : Dialect α) (a : α) : Bool :=
  !d.isQuote a && !d.isDelimiter a && !d.isLineEnd a

/-- What separates fields or rows is no quote, and what separates fields does not separate rows. -/
structure Dialect.Distinct (d : Dialect α) : Prop where
  delimiter : ∀ {a}, d.isDelimiter a = true → d.isQuote a = false ∧ d.isLineEnd a = false
  lineEnd : ∀ {a}, d.isLineEnd a = true → d.isQuote a = false

def Dialect.doubled (d : Dialect α) (f : List α) : List α :=
  f.flatMap fun a => if d.isQuote a then [a, a] else [a]

/-- `Spells d w f` means that `w` writes the field `f`. A field is quoted only if it has to be; the empty
one may be. -/
inductive Spells (d : Dialect α) : List α → List α → Prop where
  | bare {f : List α} : (∀ a ∈ f, d.isOrdinary a = true) → Spells d f f
  | quoted {q r : α} {f : List α} : d.isQuote q = true → d.isQuote r = true →
      f = [] ∨ (∃ a ∈ f, d.isOrdinary a = false) → Spells d (q :: d.doubled f ++ [r]) f

/-- `SpellsRow d w fs` means that `w` writes the fields `fs`, with delimiters between them. -/
inductive SpellsRow (d : Dialect α) : List α → List (List α) → Prop where
  | last {w f : List α} : Spells d w f → SpellsRow d w [f]
  | next {w f ws : List α} {fs : List (List α)} {a : α} : Spells d w f → d.isDelimiter a = true →
      SpellsRow d ws fs → SpellsRow d (w ++ a :: ws) (f :: fs)

/-- `SpellsTable d w rows` means that `w` writes the rows, each with a line end behind it. No row is
written by an empty line. -/
inductive SpellsTable (d : Dialect α) : List α → List (List (List α)) → Prop where
  | nil : SpellsTable d [] []
  | cons {w ws : List α} {row : List (List α)} {rows : List (List (List α))} {a : α} :
      SpellsRow d w row → w ≠ [] → d.isLineEnd a = true → SpellsTable d ws rows →
      SpellsTable d (w ++ a :: ws) (row :: rows)

/-! ## Reading -/

variable {d : Dialect α} {before : List (List (List α))} {fields row : List (List α)}
  {w f field rest : List α} {a : α}

/-- An ordinary character is gathered, at the beginning of a field and within it. -/
theorem plainStep_of_isOrdinary (ha : d.isOrdinary a = true) (g : Gathered α) :
    fieldStep d g a = (.plain, g.push a) ∧ plainStep d g a = (.plain, g.push a) := by
  simp only [Dialect.isOrdinary, Bool.and_eq_true, Bool.not_eq_true'] at ha
  obtain ⟨⟨hquote, hdelimiter⟩, hend⟩ := ha
  simp [fieldStep, plainStep, hquote, hdelimiter, hend]

/-- Symbols that stand for themselves are gathered. -/
theorem readFrom_plain (hf : ∀ a ∈ f, d.isOrdinary a = true) :
    readFrom d .plain ⟨before, fields, field⟩ (f ++ rest) =
      readFrom d .plain ⟨before, fields, f.reverse ++ field⟩ rest := by
  induction f generalizing field with
  | nil => rfl
  | cons a f ih =>
      have hfirst : step d ⟨before, fields, field⟩ a .plain =
          (.plain, ⟨before, fields, a :: field⟩) :=
        (plainStep_of_isOrdinary (hf a (by simp)) _).2
      rw [List.cons_append, readFrom, hfirst, List.reverse_cons, List.append_assoc]
      exact ih fun b hb => hf b (by simp [hb])

/-- Inside quotes every symbol is gathered, a doubled quote once. -/
theorem readFrom_quoted :
    readFrom d .quoted ⟨before, fields, field⟩ (d.doubled f ++ rest) =
      readFrom d .quoted ⟨before, fields, f.reverse ++ field⟩ rest := by
  induction f generalizing field with
  | nil => rfl
  | cons a f ih =>
      rw [List.reverse_cons, List.append_assoc, List.singleton_append, ← ih]
      cases ha : d.isQuote a <;> simp [Dialect.doubled, ha, readFrom, step, Gathered.push]

/-- Behind a field comes what separates it from the next, and is taken as outside quotes. -/
theorem readFrom_field (hspells : Spells d w f) (hquote : d.isQuote a = false) :
    readFrom d .fieldStart ⟨before, fields, []⟩ (w ++ a :: rest) =
      readFrom d .plain ⟨before, fields, f.reverse⟩ (a :: rest) := by
  cases hspells with
  | bare hf =>
      cases w with
      | nil => simp [readFrom, step, fieldStep, hquote]
      | cons b w =>
          have hfirst : step d ⟨before, fields, []⟩ b .fieldStart = (.plain, ⟨before, fields, [b]⟩) :=
            (plainStep_of_isOrdinary (hf b (by simp)) _).1
          rw [List.cons_append, readFrom, hfirst, List.reverse_cons]
          exact readFrom_plain fun c hc => hf c (by simp [hc])
  | @quoted q q' _ hq hq' =>
      have hopened : step d ⟨before, fields, []⟩ q .fieldStart = (.quoted, ⟨before, fields, []⟩) := by
        simp [step, fieldStep, hq]
      have hclosed : ∀ g : Gathered α, readFrom d .quoted g (q' :: a :: rest) =
          readFrom d .plain g (a :: rest) := by
        intro g
        simp [readFrom, step, hq', hquote]
      rw [List.append_assoc, List.cons_append, readFrom, hopened]
      simp only [List.singleton_append]
      rw [readFrom_quoted, hclosed, List.append_nil]

/-- A row is read up to its line end. -/
theorem readFrom_row (hd : d.Distinct) (hspells : SpellsRow d w row) (hend : d.isLineEnd a = true) :
    readFrom d .fieldStart ⟨before, fields, []⟩ (w ++ a :: rest) =
      readFrom d .rowStart ⟨(fields.reverse ++ row) :: before, [], []⟩ rest := by
  induction hspells generalizing fields with
  | @last w f hfield =>
      have hdelimiter : d.isDelimiter a = false := by
        by_contra h
        simp [(hd.delimiter (by simpa using h)).2] at hend
      rw [readFrom_field hfield (hd.lineEnd hend)]
      simp [readFrom, step, plainStep, hdelimiter, hend, Gathered.endRow]
  | @next w f ws fs b hfield hb _ ih =>
      rw [List.append_assoc, List.cons_append, readFrom_field hfield (hd.delimiter hb).1]
      simp only [readFrom, step, plainStep, hb, Gathered.endField, List.reverse_reverse, if_true]
      rw [ih]
      simp

/-- No spelling of a field begins with a line end. -/
theorem Spells.isLineEnd_head (hd : d.Distinct) (hspells : Spells d (a :: w) f) :
    d.isLineEnd a = false := by
  cases hspells with
  | bare hf =>
      have ha : d.isOrdinary a = true := hf a (by simp)
      simp_all [Dialect.isOrdinary]
  | quoted hq =>
      by_contra h
      simp [hd.lineEnd (by simpa using h)] at hq

/-- A row does not begin with a line end. -/
theorem SpellsRow.isLineEnd_head (hd : d.Distinct) (hspells : SpellsRow d (a :: w) row) :
    d.isLineEnd a = false := by
  generalize hw : a :: w = symbols at hspells
  cases hspells with
  | last hfield =>
      subst hw
      exact hfield.isLineEnd_head hd
  | @next w₁ _ _ _ b hfield hb _ =>
      cases w₁ with
      | nil =>
          cases hw
          exact (hd.delimiter hb).2
      | cons c w₁ =>
          cases hw
          exact hfield.isLineEnd_head hd

/-- The reader gives the rows that are written. -/
theorem SpellsTable.read_eq {rows : List (List (List α))} (hd : d.Distinct)
    (hspells : SpellsTable d w rows) : read d w = rows := by
  have hfrom : ∀ before, readFrom d .rowStart ⟨before, [], []⟩ w = before.reverse ++ rows := by
    induction hspells with
    | nil => simp [readFrom]
    | @cons w ws row rows a hrow hne hend _ ih =>
        intro before
        -- Since it does not begin with a line end, a row is read like one that has begun.
        obtain ⟨b, w, rfl⟩ := List.exists_cons_of_ne_nil hne
        have hbegun : readFrom d .rowStart ⟨before, [], []⟩ (b :: w ++ a :: ws) =
            readFrom d .fieldStart ⟨before, [], []⟩ (b :: w ++ a :: ws) := by
          simp [readFrom, step, hrow.isLineEnd_head hd]
        rw [hbegun, readFrom_row hd hrow hend, ih]
        simp
  exact hfrom []

end Grammar

/-! ## Writing -/

def textDialect : Dialect Char where
  isQuote c := c == '"'
  isDelimiter c := c == ','
  isLineEnd c := c == '\n' || c == '\r'

theorem isOrdinary_textDialect (c : Char) : textDialect.isOrdinary c = !isSpecial c := by
  simp only [Dialect.isOrdinary, textDialect, isSpecial]
  cases c == ',' <;> cases c == '"' <;> simp

theorem quote_eq (cs : List Char) : quote cs = '"' :: textDialect.doubled cs ++ ['"'] := by
  have hdoubled : (cs.flatMap fun c => if c == '"' then ['"', '"'] else [c]) =
      textDialect.doubled cs := by
    refine List.flatMap_congr fun c _ => ?_
    by_cases hc : c = '"' <;> simp [textDialect, hc]
  rw [quote, hdoubled]

/-- What is written for a field spells it. -/
theorem spells_writeField (s : String) : Spells textDialect (writeField s).toList s.toList := by
  unfold writeField
  split
  · next hspecial =>
      obtain ⟨c, hc, hspecial⟩ := List.any_eq_true.1 hspecial
      have hordinary : textDialect.isOrdinary c = false := by
        rw [isOrdinary_textDialect, hspecial]
        rfl
      rw [String.toList_ofList, quote_eq]
      exact .quoted rfl rfl (.inr ⟨c, hc, hordinary⟩)
  · next hspecial =>
      refine .bare fun c hc => ?_
      rw [isOrdinary_textDialect]
      simp only [List.any_eq_true, not_exists, not_and] at hspecial
      simpa using hspecial c hc

/-- Only the empty field is written as nothing. -/
theorem writeField_eq_empty {s : String} (hs : (writeField s).toList = []) : s = "" := by
  have hspells := spells_writeField s
  rw [hs] at hspells
  generalize hf : s.toList = f at hspells
  cases hspells
  simpa using hf

/-- Written fields with commas between them spell the row. -/
theorem spellsRow_intercalate {row : List String} (hrow : row ≠ []) :
    SpellsRow textDialect (",".intercalate (row.map writeField)).toList (row.map String.toList) := by
  rw [String.toList_intercalate, List.map_map]
  induction row with
  | nil => contradiction
  | cons s row ih =>
      cases row with
      | nil => simpa using SpellsRow.last (spells_writeField s)
      | cons s' row =>
          have hrest := ih (by simp)
          simp only [List.map_cons, List.intercalate_cons_cons, List.append_assoc] at hrest ⊢
          exact .next (a := ',') (spells_writeField s) rfl hrest

/-- A table is written in its dialect, each row on lines of its own. -/
theorem spellsTable_write {rows : List (List String)} (hrows : ∀ row ∈ rows, row ≠ []) :
    SpellsTable textDialect (write rows).toList (rows.map (·.map String.toList)) := by
  rw [write, String.toList_join]
  induction rows with
  | nil => exact .nil
  | cons row rows ih =>
      have hrest := ih fun r hr => hrows r (by simp [hr])
      have hrow : row ≠ [] := hrows row (by simp)
      simp only [List.map_cons, List.flatMap_cons, writeRow, String.toList_append,
        List.append_assoc]
      split
      · next hempty =>
          subst hempty
          exact .cons (.last (.quoted (q := '"') (r := '"') rfl rfl (.inl rfl))) (by simp) rfl hrest
      · next hempty =>
          refine .cons (spellsRow_intercalate hrow) ?_ (a := '\n') rfl hrest
          -- A row is written as nothing only if its one field is empty, and that case has been set
          -- apart.
          intro hnil
          rw [String.toList_intercalate] at hnil
          cases row with
          | nil => contradiction
          | cons s row =>
              cases row with
              | nil =>
                  have hs : s = "" := writeField_eq_empty (by simpa using hnil)
                  exact hempty (by rw [hs])
              | cons s' row => simp at hnil

/-! ## Bytes -/

section Encoding

variable {α β : Type}

/-- Each special symbol of one dialect is encoded by one of the other, and the rest by symbols that are
not special. -/
structure Dialect.Encodes (d : Dialect α) (d' : Dialect β) (enc : α → List β) : Prop where
  quote : ∀ {a}, d.isQuote a = true → ∃ b, enc a = [b] ∧ d'.isQuote b = true
  delimiter : ∀ {a}, d.isDelimiter a = true → ∃ b, enc a = [b] ∧ d'.isDelimiter b = true
  lineEnd : ∀ {a}, d.isLineEnd a = true → ∃ b, enc a = [b] ∧ d'.isLineEnd b = true
  ordinary : ∀ {a}, d.isOrdinary a = true → ∀ b ∈ enc a, d'.isOrdinary b = true

variable {d : Dialect α} {d' : Dialect β} {enc : α → List β} {w f : List α}

/-- The marks of a dialect are encoded as single marks. -/
theorem Dialect.Encodes.isOrdinary_eq_false (henc : d.Encodes d' enc) {a : α}
    (ha : d.isOrdinary a = false) : ∃ b, enc a = [b] ∧ d'.isOrdinary b = false := by
  cases hquote : d.isQuote a with
  | true =>
      obtain ⟨b, hb, hspecial⟩ := henc.quote hquote
      exact ⟨b, hb, by simp [Dialect.isOrdinary, hspecial]⟩
  | false =>
      cases hdelimiter : d.isDelimiter a with
      | true =>
          obtain ⟨b, hb, hspecial⟩ := henc.delimiter hdelimiter
          exact ⟨b, hb, by simp [Dialect.isOrdinary, hspecial]⟩
      | false =>
          have hend : d.isLineEnd a = true := by simpa [Dialect.isOrdinary, hquote, hdelimiter] using ha
          obtain ⟨b, hb, hspecial⟩ := henc.lineEnd hend
          exact ⟨b, hb, by simp [Dialect.isOrdinary, hspecial]⟩

theorem Dialect.Encodes.isQuote_eq_false (henc : d.Encodes d' enc) (hd' : d'.Distinct) {a : α}
    (ha : d.isQuote a = false) : ∀ b ∈ enc a, d'.isQuote b = false := by
  intro b hb
  cases hdelimiter : d.isDelimiter a with
  | true =>
      obtain ⟨b', henc', hspecial⟩ := henc.delimiter hdelimiter
      obtain rfl : b = b' := by simpa [henc'] using hb
      exact (hd'.delimiter hspecial).1
  | false =>
      cases hend : d.isLineEnd a with
      | true =>
          obtain ⟨b', henc', hspecial⟩ := henc.lineEnd hend
          obtain rfl : b = b' := by simpa [henc'] using hb
          exact hd'.lineEnd hspecial
      | false =>
          have hordinary := henc.ordinary (by simp [Dialect.isOrdinary, ha, hdelimiter, hend]) b hb
          simp_all [Dialect.isOrdinary]

/-- Quotes may be doubled before or after the encoding. -/
theorem Dialect.Encodes.flatMap_doubled (henc : d.Encodes d' enc) (hd' : d'.Distinct) (f : List α) :
    (d.doubled f).flatMap enc = d'.doubled (f.flatMap enc) := by
  have hone : ∀ a, (if d.isQuote a then [a, a] else [a]).flatMap enc = d'.doubled (enc a) := by
    intro a
    cases ha : d.isQuote a with
    | true =>
        obtain ⟨b, hb, hquote⟩ := henc.quote ha
        simp [Dialect.doubled, hb, hquote]
    | false =>
        have hkept : d'.doubled (enc a) = (enc a).flatMap fun b => [b] := by
          refine List.flatMap_congr fun b hb => ?_
          simp [henc.isQuote_eq_false hd' ha b hb]
        simp [hkept]
  induction f with
  | nil => rfl
  | cons a f ih =>
      simp only [Dialect.doubled, List.flatMap_cons, List.flatMap_append, hone] at ih ⊢
      rw [ih]

/-! A table that is written in one dialect is written in the other by its encoding. -/

/-- The encoding of a spelled field spells the encoded field. -/
theorem Spells.encoded (henc : d.Encodes d' enc) (hd' : d'.Distinct) (hspells : Spells d w f) :
    Spells d' (w.flatMap enc) (f.flatMap enc) := by
  cases hspells with
  | bare hf =>
      refine .bare fun b hb => ?_
      obtain ⟨a, ha, hb⟩ := List.mem_flatMap.1 hb
      exact henc.ordinary (hf a ha) b hb
  | quoted hq hq' hneeded =>
      obtain ⟨b, hb, hquote⟩ := henc.quote hq
      obtain ⟨b', hb', hquote'⟩ := henc.quote hq'
      simp only [List.cons_append, List.flatMap_cons, List.flatMap_append, List.flatMap_nil, hb, hb',
        henc.flatMap_doubled hd', List.nil_append, List.append_nil]
      refine .quoted hquote hquote' ?_
      rcases hneeded with rfl | ⟨a, ha, hspecial⟩
      · exact .inl rfl
      · obtain ⟨s, hs, hspecial⟩ := henc.isOrdinary_eq_false hspecial
        exact .inr ⟨s, List.mem_flatMap.2 ⟨a, ha, by simp [hs]⟩, hspecial⟩

theorem SpellsRow.encoded {row : List (List α)} (henc : d.Encodes d' enc) (hd' : d'.Distinct)
    (hspells : SpellsRow d w row) : SpellsRow d' (w.flatMap enc) (row.map (·.flatMap enc)) := by
  induction hspells with
  | last hfield => exact .last (hfield.encoded henc hd')
  | next hfield ha _ ih =>
      obtain ⟨b, hb, hdelimiter⟩ := henc.delimiter ha
      rw [List.flatMap_append, List.flatMap_cons, hb]
      exact .next (hfield.encoded henc hd') hdelimiter ih

/-- The encoding of a spelled table spells the encoded table. -/
theorem SpellsTable.encoded {rows : List (List (List α))} (henc : d.Encodes d' enc)
    (hd' : d'.Distinct) (hne : ∀ a, enc a ≠ []) (hspells : SpellsTable d w rows) :
    SpellsTable d' (w.flatMap enc) (rows.map (·.map (·.flatMap enc))) := by
  induction hspells with
  | nil => exact .nil
  | @cons w ws row rows a hrow hw ha _ ih =>
      obtain ⟨b, hb, hend⟩ := henc.lineEnd ha
      obtain ⟨c, w, rfl⟩ := List.exists_cons_of_ne_nil hw
      rw [List.flatMap_append, List.flatMap_cons (x := a), hb]
      exact .cons (hrow.encoded henc hd') (by simp [hne c]) hend ih

end Encoding

theorem distinct_byteDialect : (byteDialect 44).Distinct where
  delimiter := by
    intro a ha
    obtain rfl : a = 44 := by simpa [byteDialect] using ha
    decide
  lineEnd := by
    intro a ha
    simp only [byteDialect, Bool.or_eq_true, beq_iff_eq] at ha
    rcases ha with rfl | rfl <;> decide

/-- UTF-8 keeps the marks, and no byte of another character is one. -/
theorem encodes_utf8 : textDialect.Encodes (byteDialect 44) String.utf8EncodeChar where
  quote := by
    intro c hc
    obtain rfl : c = '"' := by simpa [textDialect] using hc
    exact ⟨34, by decide, rfl⟩
  delimiter := by
    intro c hc
    obtain rfl : c = ',' := by simpa [textDialect] using hc
    exact ⟨44, by decide, rfl⟩
  lineEnd := by
    intro c hc
    simp only [textDialect, Bool.or_eq_true, beq_iff_eq] at hc
    rcases hc with rfl | rfl
    · exact ⟨10, by decide, rfl⟩
    · exact ⟨13, by decide, rfl⟩
  ordinary := by
    intro c hc b hb
    have hne : c ≠ '"' ∧ c ≠ ',' ∧ c ≠ '\n' ∧ c ≠ '\r' := by
      simpa [Dialect.isOrdinary, textDialect, and_assoc] using hc
    rcases Text.utf8EncodeChar_cases c with ⟨hsmall, henc⟩ | ⟨-, hlarge⟩
    · -- The four bytes are those of the four characters only.
      obtain rfl : b = UInt8.ofNat c.val.toNat := by simpa [henc] using hb
      have hquote := Text.ofNat_beq_eq_false (e := '"') hsmall (by decide) hne.1
      have hdelimiter := Text.ofNat_beq_eq_false (e := ',') hsmall (by decide) hne.2.1
      have hfeed := Text.ofNat_beq_eq_false (e := '\n') hsmall (by decide) hne.2.2.1
      have hreturn := Text.ofNat_beq_eq_false (e := '\r') hsmall (by decide) hne.2.2.2
      exact Bool.and_eq_true_iff.2 ⟨by simp_all [byteDialect], by simp_all [byteDialect]⟩
    · have hb : 128 ≤ b.toNat := hlarge b hb
      have hdistinct : ∀ n : UInt8, n.toNat < 128 → (b == n) = false := by
        intro n hn
        rw [beq_eq_false_iff_ne]
        rintro rfl
        omega
      simp [Dialect.isOrdinary, byteDialect, hdistinct]

/-- An encoded row is decoded as it was. -/
theorem decodeRow_encode (n : Nat) (row : List String) :
    decodeRow n (row.map (Text.encode ·.toList)) = .ok row := by
  induction row generalizing n with
  | nil => rfl
  | cons s row ih =>
      rw [List.map_cons, decodeRow, decode, Text.fromUTF8?_encode, ih]
      rfl

theorem decodeRows_encode (n : Nat) (rows : List (List String)) :
    decodeRows n (rows.map (·.map (Text.encode ·.toList))) = .ok rows := by
  induction rows generalizing n with
  | nil => rfl
  | cons row rows ih =>
      rw [List.map_cons, decodeRows, decodeRow_encode, ih]
      rfl

/-- Only a text that begins with the mark has it cut off. -/
theorem dropMark_encode {cs : List Char} (hmark : cs.head? ≠ some '\uFEFF') :
    dropMark (Text.encode cs) = Text.encode cs := by
  unfold dropMark
  split
  · next rest hbytes =>
      cases cs with
      | nil => cases hbytes
      | cons c cs =>
          rw [Text.encode, List.flatMap_cons] at hbytes
          exact absurd (congrArg some (Text.eq_mark_of_encoded hbytes)) hmark
  · rfl

/-- A file with a table holds its rows, unless the table begins with what is taken for the mark of a
text. -/
theorem readTable_write {rows : List (List String)} (hrows : ∀ row ∈ rows, row ≠ [])
    (hmark : (write rows).toList.head? ≠ some '\uFEFF') :
    readTable 44 (write rows).toUTF8.toList = .ok rows := by
  have hspells := (spellsTable_write hrows).encoded encodes_utf8 distinct_byteDialect
    fun c => List.ne_nil_of_length_pos (by simp [String.length_utf8EncodeChar, Char.utf8Size_pos])
  have hread : read (byteDialect 44) (Text.encode (write rows).toList) =
      rows.map (·.map (Text.encode ·.toList)) := by
    rw [Text.encode, hspells.read_eq distinct_byteDialect, List.map_map]
    simp [Text.encode, Function.comp_def]
  rw [readTable, Text.toList_toUTF8, dropMark_encode hmark, hread, decodeRows_encode]
  rfl

/-- A field is written with a quote in front or begins as it did. -/
theorem head?_writeField (s : String) :
    (writeField s).toList.head? = some '"' ∨ (writeField s).toList.head? = s.toList.head? := by
  unfold writeField
  split
  · exact .inl (by simp [quote])
  · exact .inr rfl

end MacroReplay.Csv

namespace MacroReplay.Profile

/-- A profile begins with the name of the macro or with a quote. -/
theorem head?_render (macroName status : String) (records : List Record) :
    (render macroName status records).toList.head? ≠ some '\uFEFF' := by
  obtain ⟨rest, hrest⟩ : ∃ rest, (render macroName status records).toList =
      (Csv.writeField ("Macro: " ++ macroName)).toList ++ rest := by
    simp only [render, rows, Csv.write, String.toList_join, List.map_cons, List.flatMap_cons,
      Csv.writeRow, String.toList_append, List.cons.injEq, reduceCtorEq, and_false, if_false,
      String.toList_intercalate, List.intercalate_cons_cons, List.append_assoc]
    exact ⟨_, rfl⟩
  rw [hrest, List.head?_append]
  rcases Csv.head?_writeField ("Macro: " ++ macroName) with h | h
  · rw [h, Option.some_or]
    decide
  · have hfirst : ("Macro: " ++ macroName).toList.head? = some 'M' := by simp
    rw [h, hfirst, Option.some_or]
    decide

/-- A profile is written as a table, and a file that holds it gives its rows again, whatever the name,
the status and the commands: the macro and its status, the headings, and a row for each record. -/
theorem readTable_render (macroName status : String) (records : List Record) :
    Csv.SpellsTable Csv.textDialect (render macroName status records).toList
        ((rows macroName status records).map (·.map String.toList)) ∧
      Csv.readTable (UInt8.ofNat ','.toNat) (render macroName status records).toUTF8.toList =
        .ok (["Macro: " ++ macroName, "Status: " ++ status] ::
          ["Line", "Command", "Duration_ms", "Timestamp"] ::
          records.map fun r => [toString r.line, r.raw, toString r.durationMs,
            Calendar.timestampText r.timestampMs]) := by
  have hrows : ∀ row ∈ rows macroName status records, row ≠ [] := by
    simp [rows, columns, Record.row]
  exact ⟨Csv.spellsTable_write hrows, Csv.readTable_write hrows (head?_render _ _ _)⟩

end MacroReplay.Profile
