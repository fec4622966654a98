import Mathlib.Data.Nat.Digits.Defs
import MacroReplay.Proofs.Calendar.Pattern
import MacroReplay.Proofs.Text.Character

/-!
# Timestamps in the order of time

* `DateTime.Earlier` — one date-time before another, by the first part in which they differ;
* `DateTime.Earlier.epochSecond_lt` — fewer seconds have passed at the earlier one;
* `DateTime.Earlier.format_lt` — in the default pattern its text is the lesser one;
* `DateTime.timestamps_sorted` — both orders are the same, and what any pattern writes.
-/

namespace MacroReplay

/-! ## Numbers of one width -/

namespace Text

/-- The first digit counts for as many places as stand behind it. -/
theorem digitsValue_cons (c : Char) (cs : List Char) :
    digitsValue (c :: cs) = Nat.pow 10 cs.length * digitValue c + digitsValue cs := by
  have hone : digitsValue [c] = digitValue c := by simp [digitsValue]
  rw [← List.singleton_append, digitsValue_append, hone]

/-- So many digits write numbers below that power of ten only. -/
theorem digitsValue_lt {cs : List Char} (hcs : cs.all isDigit = true) :
    digitsValue cs < Nat.pow 10 cs.length := by
  induction cs with
  | nil => decide
  | cons c cs ih =>
      rw [List.all_cons, Bool.and_eq_true] at hcs
      have hc := digitValue_lt hcs.1
      have hrest := ih hcs.2
      rw [digitsValue_cons, List.length_cons]
      calc Nat.pow 10 cs.length * digitValue c + digitsValue cs
          < Nat.pow 10 cs.length * digitValue c + Nat.pow 10 cs.length := by omega
        _ = Nat.pow 10 cs.length * (digitValue c + 1) := (Nat.mul_succ ..).symm
        _ ≤ Nat.pow 10 cs.length * 10 := Nat.mul_le_mul_left _ hc

/-- Of two texts that begin with numbers of one width, the one with the lesser number is less, whatever
follows. -/
theorem append_lt_append_of_digitsValue_lt {cs ds : List Char} (hlength : cs.length = ds.length)
    (hcs : cs.all isDigit = true) (hds : ds.all isDigit = true)
    (hlt : digitsValue cs < digitsValue ds) (xs ys : List Char) : cs ++ xs < ds ++ ys := by
  induction cs generalizing ds with
  | nil =>
      obtain rfl : ds = [] := List.length_eq_zero_iff.1 hlength.symm
      exact absurd hlt (Nat.lt_irrefl _)
  | cons c cs ih =>
      cases ds with
      | nil => nomatch hlength
      | cons d ds =>
          rw [List.all_cons, Bool.and_eq_true] at hcs hds
          have hlengths : cs.length = ds.length := Nat.succ.inj hlength
          rw [digitsValue_cons, digitsValue_cons, hlengths] at hlt
          have hbound := digitsValue_lt hds.2
          rw [List.cons_append, List.cons_append, List.cons_lt_cons_iff]
          -- A greater first digit could not be made up for by the digits behind it, which are worth
          -- less than one of it.
          have hle : digitValue c ≤ digitValue d := by
            by_contra hmore
            have hscaled : Nat.pow 10 ds.length * (digitValue d + 1) ≤
                Nat.pow 10 ds.length * digitValue c := Nat.mul_le_mul_left _ (by omega)
            rw [Nat.mul_succ] at hscaled
            omega
          have hc := toNat_of_isDigit hcs.1
          have hd := toNat_of_isDigit hds.1
          have hzero : '0'.toNat = 48 := rfl
          rw [digitValue, digitValue] at hle
          -- The first digits decide, or else the digits behind them do.
          rcases Nat.lt_or_eq_of_le (show c.toNat ≤ d.toNat by omega) with hless | hsame
          · exact .inl hless
          · obtain rfl : c = d := Char.toNat_inj.1 hsame
            exact .inr ⟨rfl, ih hlengths hcs.2 hds.2 (by omega)⟩

end Text

namespace Calendar

/-! ## Padded numbers -/

structure Padded (width n : Nat) (cs : List Char) : Prop where
  length_eq : cs.length = width
  digits : cs.all Text.isDigit = true
  value_eq : Text.digitsValue cs = n

/-- A number that fits in its width is written with exactly so many digits. -/
theorem padded_zeroPadded {width n : Nat} (hwidth : 0 < width) (hn : n < 10 ^ width) :
    Padded width n (zeroPadded width n).toList := by
  have hlength : (Nat.toDigits 10 n).length ≤ width := Nat.toDigits_length 10 n width hwidth hn
  have htext : (zeroPadded width n).toList =
      List.replicate (width - (Nat.toDigits 10 n).length) '0' ++ Nat.toDigits 10 n := by
    have hsign : ¬(n : Int) < 0 := by omega
    simp [zeroPadded, hsign]
  rw [htext]
  refine ⟨?_, ?_, ?_⟩
  · rw [List.length_append, List.length_replicate]
    omega
  · rw [List.all_append, Text.all_isDigit_toDigits, Bool.and_true, List.all_replicate]
    simp [Text.isDigit]
  · rw [Text.digitsValue_append, Text.digitsValue_zeros, Nat.mul_zero, Nat.zero_add,
      Text.digitsValue_toDigits]

/-- Where two numbers of the same width differ, what follows them does not matter. -/
theorem Padded.append_lt_append {width m n : Nat} {cs ds : List Char} (hcs : Padded width m cs)
    (hds : Padded width n ds) (h : m < n) (xs ys : List Char) : cs ++ xs < ds ++ ys := by
  refine Text.append_lt_append_of_digitsValue_lt ?_ hcs.digits hds.digits ?_ xs ys
  · rw [hcs.length_eq, hds.length_eq]
  · rwa [hcs.value_eq, hds.value_eq]

/-! ## Days of a year -/

/-- The days before a month are those before the month before it, and the days of that month. -/
theorem daysBeforeMonth_succ (year : Int) {month : Nat} (h : 1 ≤ month) :
    daysBeforeMonth year (month + 1) = daysBeforeMonth year month + daysInMonth year month := by
  cases month with
  | zero => omega
  | succ month => rfl

/-- A later month has no fewer days before it. -/
theorem daysBeforeMonth_mono (year : Int) {month later : Nat} (h : 1 ≤ month) (hle : month ≤ later) :
    daysBeforeMonth year month ≤ daysBeforeMonth year later := by
  induction hle with
  | refl => exact Nat.le_refl _
  | @step later hle ih =>
      rw [daysBeforeMonth_succ year (Nat.le_trans h hle)]
      omega

theorem daysInMonth_le (year : Int) (month : Nat) : daysInMonth year month ≤ 31 := by
  unfold daysInMonth
  split
  · split <;> decide
  all_goals decide

/-- The months of a year make up the year. -/
theorem daysBeforeYear_succ (year : Int) :
    daysBeforeYear (year + 1) = daysBeforeYear year + daysBeforeMonth year 13 := by
  have hmonths : daysBeforeMonth year 13 = if isLeap year then 366 else 365 := by
    cases hleap : isLeap year <;> simp [daysBeforeMonth, daysInMonth, hleap]
  rw [hmonths]
  cases hleap : isLeap year
  · have hnot : ¬(year % 4 = 0 ∧ (year % 100 ≠ 0 ∨ year % 400 = 0)) := by
      simpa [isLeap] using hleap
    simp only [daysBeforeYear, Bool.false_eq_true, if_false]
    omega
  · have hyes : year % 4 = 0 ∧ (year % 100 ≠ 0 ∨ year % 400 = 0) := by
      simpa [isLeap] using hleap
    simp only [daysBeforeYear, if_true]
    omega

/-- A later year has no fewer days before it. -/
theorem daysBeforeYear_mono {year later : Int} (h : year ≤ later) :
    daysBeforeYear year ≤ daysBeforeYear later := by
  simp only [daysBeforeYear]
  omega

namespace DateTime

variable {a b t : DateTime}

/-- A day stands behind the months before its own, and within its month. -/
theorem ordinal_bounds (h : t.Valid) :
    daysBeforeMonth t.year t.month < t.ordinal ∧ t.ordinal ≤ daysBeforeMonth t.year (t.month + 1) := by
  obtain ⟨-, -, hmonth, -, hday, hdays, -⟩ := h
  rw [daysBeforeMonth_succ _ hmonth, ordinal]
  omega

/-! ## Earlier and later -/

/-- The first part in which the two differ is less in the first one. -/
inductive Earlier (a b : DateTime) : Prop where
  | year : a.year < b.year → Earlier a b
  | month : a.year = b.year → a.month < b.month → Earlier a b
  | day : a.year = b.year → a.month = b.month → a.day < b.day → Earlier a b
  | hour : a.year = b.year → a.month = b.month → a.day = b.day → a.hour < b.hour → Earlier a b
  | minute : a.year = b.year → a.month = b.month → a.day = b.day → a.hour = b.hour →
      a.minute < b.minute → Earlier a b
  | second : a.year = b.year → a.month = b.month → a.day = b.day → a.hour = b.hour →
      a.minute = b.minute → a.second < b.second → Earlier a b

/-- Of two date-times one is earlier, unless they are the same. -/
theorem eq_or_earlier (a b : DateTime) : a = b ∨ Earlier a b ∨ Earlier b a := by
  obtain hyear | hyear | hyear := Int.lt_trichotomy a.year b.year
  · exact .inr (.inl (.year hyear))
  · obtain hmonth | hmonth | hmonth := Nat.lt_trichotomy a.month b.month
    · exact .inr (.inl (.month hyear hmonth))
    · obtain hday | hday | hday := Nat.lt_trichotomy a.day b.day
      · exact .inr (.inl (.day hyear hmonth hday))
      · obtain hhour | hhour | hhour := Nat.lt_trichotomy a.hour b.hour
        · exact .inr (.inl (.hour hyear hmonth hday hhour))
        · obtain hminute | hminute | hminute := Nat.lt_trichotomy a.minute b.minute
          · exact .inr (.inl (.minute hyear hmonth hday hhour hminute))
          · obtain hsecond | hsecond | hsecond := Nat.lt_trichotomy a.second b.second
            · exact .inr (.inl (.second hyear hmonth hday hhour hminute hsecond))
            · cases a
              cases b
              exact .inl (by simp_all)
            · exact .inr (.inr
                (.second hyear.symm hmonth.symm hday.symm hhour.symm hminute.symm hsecond))
          · exact .inr (.inr (.minute hyear.symm hmonth.symm hday.symm hhour.symm hminute))
        · exact .inr (.inr (.hour hyear.symm hmonth.symm hday.symm hhour))
      · exact .inr (.inr (.day hyear.symm hmonth.symm hday))
    · exact .inr (.inr (.month hyear.symm hmonth))
  · exact .inr (.inr (.year hyear))

/-- A day in an earlier year, an earlier month or before in the month comes before. -/
theorem epochDay_lt_of_year (ha : a.Valid) (hb : b.Valid) (h : a.year < b.year) :
    a.epochDay < b.epochDay := by
  have hwithin : a.ordinal ≤ daysBeforeMonth a.year 13 := by
    have ⟨_, _, hmonth, hmonth', _⟩ := ha
    exact Nat.le_trans (ordinal_bounds ha).2 (daysBeforeMonth_mono _ (by omega) (by omega))
  have hnext : daysBeforeYear (a.year + 1) ≤ daysBeforeYear b.year := daysBeforeYear_mono h
  have hfirst := (ordinal_bounds hb).1
  rw [daysBeforeYear_succ] at hnext
  simp only [epochDay]
  omega

/-- In one year the days of an earlier month come first, whatever the days. -/
theorem epochDay_lt_of_month (ha : a.Valid) (hb : b.Valid) (hyear : a.year = b.year)
    (h : a.month < b.month) : a.epochDay < b.epochDay := by
  have hwithin := (ordinal_bounds ha).2
  have hnext : daysBeforeMonth a.year (a.month + 1) ≤ daysBeforeMonth a.year b.month :=
    daysBeforeMonth_mono _ (by omega) h
  have hfirst := (ordinal_bounds hb).1
  simp only [epochDay, ← hyear] at *
  omega

/-- The seconds of an earlier day come first, whatever the time. -/
theorem epochSecond_lt_of_epochDay_lt (ha : a.Valid) (h : a.epochDay < b.epochDay) :
    a.epochSecond < b.epochSecond := by
  obtain ⟨-, -, -, -, -, -, hhour, hminute, hsecond⟩ := ha
  simp only [epochSecond]
  omega

/-- The order by parts is the order of time. -/
theorem Earlier.epochSecond_lt (ha : a.Valid) (hb : b.Valid) (h : Earlier a b) :
    a.epochSecond < b.epochSecond := by
  have hsameDay (hyear : a.year = b.year) (hmonth : a.month = b.month) (hday : a.day = b.day) :
      a.epochDay = b.epochDay := by
    simp only [epochDay, ordinal, hyear, hmonth, hday]
  have ⟨_, _, _, _, _, _, hhour, hminute, hsecond⟩ := ha
  -- A difference in the date is one of whole days; the time of day is less than a day.
  cases h with
  | year hyear => exact epochSecond_lt_of_epochDay_lt ha (epochDay_lt_of_year ha hb hyear)
  | month hyear hmonth =>
      exact epochSecond_lt_of_epochDay_lt ha (epochDay_lt_of_month ha hb hyear hmonth)
  | day hyear hmonth hday =>
      refine epochSecond_lt_of_epochDay_lt ha ?_
      simp only [epochDay, ordinal, hyear, hmonth]
      omega
  | hour hyear hmonth hday hhour =>
      have hdays := hsameDay hyear hmonth hday
      simp only [epochSecond]
      omega
  | minute hyear hmonth hday hhour hminute =>
      have hdays := hsameDay hyear hmonth hday
      simp only [epochSecond]
      omega
  | second hyear hmonth hday hhour hminute hsecond =>
      have hdays := hsameDay hyear hmonth hday
      simp only [epochSecond]
      omega

/-! ## Default texts -/

/-- A date-time that four digits suffice for the year of. -/
structure Plain (t : DateTime) : Prop where
  valid : t.Valid
  year_nonneg : 0 ≤ t.year
  year_le : t.year ≤ 9999

/-- The default pattern writes the six parts in the order of their weight. -/
theorem toList_format_default (t : DateTime) :
    (t.format defaultPattern).toList = (zeroPadded 4 t.year).toList ++ ((zeroPadded 2 t.month).toList ++
      ((zeroPadded 2 t.day).toList ++ ('_' :: ((zeroPadded 2 t.hour).toList ++
        ((zeroPadded 2 t.minute).toList ++ (zeroPadded 2 t.second).toList))))) := by
  have hitems : patternItems defaultPattern.toList =
      [.field .longYear, .field .month, .field .day, .char '_', .field .hour, .field .minute,
        .field .second] := by decide +kernel
  rw [toList_format, writtenItems, hitems]
  simp [PatternItem.render, Field.render]

structure PaddedParts (t : DateTime) : Prop where
  year : Padded 4 t.year.toNat (zeroPadded 4 t.year).toList
  month : Padded 2 t.month (zeroPadded 2 t.month).toList
  day : Padded 2 t.day (zeroPadded 2 t.day).toList
  hour : Padded 2 t.hour (zeroPadded 2 t.hour).toList
  minute : Padded 2 t.minute (zeroPadded 2 t.minute).toList
  second : Padded 2 t.second (zeroPadded 2 t.second).toList

/-- With a year of four digits at most each part has its width. -/
theorem Plain.paddedParts (h : t.Plain) : t.PaddedParts := by
  have ⟨_, _, _, hmonth, _, hday, hhour, hminute, hsecond⟩ := h.valid
  have hdays : daysInMonth t.year t.month ≤ 31 := daysInMonth_le t.year t.month
  have htwo {n : Nat} (hn : n < 100) : Padded 2 n (zeroPadded 2 n).toList :=
    padded_zeroPadded (by decide) hn
  refine ⟨?_, htwo (by omega), htwo (by omega), htwo (by omega), htwo (by omega), htwo (by omega)⟩
  have hyear := h.year_le
  have hpadded : Padded 4 t.year.toNat (zeroPadded 4 t.year.toNat).toList :=
    padded_zeroPadded (by decide) (by omega)
  rwa [Int.toNat_of_nonneg h.year_nonneg] at hpadded

/-- Four digits, five times two digits and an underscore. -/
theorem Plain.length_format (h : t.Plain) : (t.format defaultPattern).length = 15 := by
  have hparts := h.paddedParts
  rw [← String.length_toList, toList_format_default]
  simp only [List.length_append, List.length_cons, hparts.year.length_eq, hparts.month.length_eq,
    hparts.day.length_eq, hparts.hour.length_eq, hparts.minute.length_eq, hparts.second.length_eq]

/-- The default text of the earlier one is less: behind equal parts stands a lesser number. -/
theorem Earlier.format_lt (ha : a.Plain) (hb : b.Plain) (h : Earlier a b) :
    a.format defaultPattern < b.format defaultPattern := by
  have hnonneg := ha.year_nonneg
  have pa := ha.paddedParts
  have pb := hb.paddedParts
  rw [String.lt_iff, toList_format_default, toList_format_default]
  -- The parts are padded, so that the first one that differs stands at the same place in both
  -- texts.
  cases h with
  | year hyear => exact pa.year.append_lt_append pb.year (by omega) _ _
  | month hyear hmonth =>
      rw [hyear]
      exact List.append_left_lt (pa.month.append_lt_append pb.month hmonth _ _)
  | day hyear hmonth hday =>
      rw [hyear, hmonth]
      exact List.append_left_lt (List.append_left_lt (pa.day.append_lt_append pb.day hday _ _))
  | hour hyear hmonth hday hhour =>
      rw [hyear, hmonth, hday]
      refine List.append_left_lt (List.append_left_lt (List.append_left_lt ?_))
      exact List.cons_lt_cons_self.2 (pa.hour.append_lt_append pb.hour hhour _ _)
  | minute hyear hmonth hday hhour hminute =>
      rw [hyear, hmonth, hday, hhour]
      refine List.append_left_lt (List.append_left_lt (List.append_left_lt ?_))
      exact List.cons_lt_cons_self.2
        (List.append_left_lt (pa.minute.append_lt_append pb.minute hminute _ _))
  | second hyear hmonth hday hhour hminute hsecond =>
      rw [hyear, hmonth, hday, hhour, hminute]
      refine List.append_left_lt (List.append_left_lt (List.append_left_lt ?_))
      refine List.cons_lt_cons_self.2 (List.append_left_lt (List.append_left_lt ?_))
      simpa using pa.second.append_lt_append pb.second hsecond [] []

/-! ## Both orders -/

/-- Texts of the default pattern are in the order of time. -/
theorem format_lt_iff (ha : a.Plain) (hb : b.Plain) :
    a.format defaultPattern < b.format defaultPattern ↔ a.epochSecond < b.epochSecond := by
  obtain rfl | h | h := eq_or_earlier a b
  · simp
  · exact ⟨fun _ => h.epochSecond_lt ha.valid hb.valid, fun _ => h.format_lt ha hb⟩
  · have hseconds := h.epochSecond_lt hb.valid ha.valid
    have htexts := h.format_lt hb ha
    exact ⟨fun hlt => absurd (String.lt_trans hlt htexts) (String.lt_irrefl _), fun hlt => by omega⟩

/-- Two date-times with the same text are the same. -/
theorem eq_of_format_eq (ha : a.Plain) (hb : b.Plain)
    (h : a.format defaultPattern = b.format defaultPattern) : a = b := by
  obtain rfl | hearlier | hearlier := eq_or_earlier a b
  · rfl
  · have htexts := hearlier.format_lt ha hb
    rw [h] at htexts
    exact absurd htexts (String.lt_irrefl _)
  · have htexts := hearlier.format_lt hb ha
    rw [h] at htexts
    exact absurd htexts (String.lt_irrefl _)

/-- Two date-times of the calendar with the same second are the same. -/
theorem eq_of_epochSecond_eq (ha : a.Valid) (hb : b.Valid) (h : a.epochSecond = b.epochSecond) :
    a = b := by
  obtain rfl | hearlier | hearlier := eq_or_earlier a b
  · rfl
  · have hseconds := hearlier.epochSecond_lt ha hb
    omega
  · have hseconds := hearlier.epochSecond_lt hb ha
    omega

/-- In the default pattern, date-times with years from 0 to 9999 are texts of 15 characters in the order
of time, and equal only if they are equal. Any pattern is written from left to right, at each place the
longest word that fits there, in any letter case, or else the character that stands there. -/
theorem timestamps_sorted :
    (∀ a b : DateTime, a.Valid → b.Valid → 0 ≤ a.year → a.year ≤ 9999 →
        0 ≤ b.year → b.year ≤ 9999 →
      (a.format defaultPattern).length = 15 ∧ (b.format defaultPattern).length = 15 ∧
        (a.format defaultPattern < b.format defaultPattern ↔ a.epochSecond < b.epochSecond) ∧
        (a.format defaultPattern = b.format defaultPattern ↔ a.epochSecond = b.epochSecond) ∧
        (a.format defaultPattern = b.format defaultPattern → a = b)) ∧
      ∀ (t : DateTime) (pattern : String) (out : List Char),
        WrittenBy t pattern.toList out ↔ out = (t.format pattern).toList := by
  refine ⟨fun a b ha hb hya hya' hyb hyb' => ?_, fun t pattern out => writtenBy_iff⟩
  have pa : a.Plain := ⟨ha, hya, hya'⟩
  have pb : b.Plain := ⟨hb, hyb, hyb'⟩
  refine ⟨pa.length_format, pb.length_format, format_lt_iff pa pb, ?_, eq_of_format_eq pa pb⟩
  constructor
  · exact fun h => by rw [eq_of_format_eq pa pb h]
  · exact fun h => by rw [eq_of_epochSecond_eq ha hb h]

/-- The last second of a leap day and the first one after it, in years that need zeros. -/
theorem timestamps_sorted_leap_day :
    let a : DateTime := ⟨4, 2, 29, 23, 59, 59⟩
    let b : DateTime := ⟨4, 3, 1, 0, 0, 0⟩
    a.Valid ∧ b.Valid ∧ (a.format defaultPattern).length = 15 ∧
      a.format defaultPattern < b.format defaultPattern ∧
      a.format defaultPattern ≠ b.format defaultPattern := by
  intro a b
  have ha : a.Valid := by decide
  have hb : b.Valid := by decide
  obtain ⟨hlength, -, hless, -, hequal⟩ :=
    timestamps_sorted.1 a b ha hb (by decide) (by decide) (by decide) (by decide)
  exact ⟨ha, hb, hlength, hless.2 (by decide), fun h => absurd (hequal h) (by decide)⟩

end DateTime
end Calendar
end MacroReplay
