import MacroReplay.Address.Parse
import MacroReplay.Proofs.Text.Character
import MacroReplay.Proofs.Text.Cutting
import MacroReplay.Proofs.Text.Utf8

/-!
# How an address opens

What becomes of a text whose front is made of visible characters, and which goes on with a path or ends:

* `trimChars_visible_append`, `cleaned_visible_append` — the front stays as it is;
* `scheme?_of_colon`, `scheme?_of_path` — what stands before the first colon;
* `parseHosted_append` — an authority without credentials;
* `parseHost_of_ascii` — a host in ASCII, up to the form of its labels.
-/

namespace MacroReplay
namespace Address

/-! ## Fronts and paths -/

def Visible (cs : List Char) : Prop :=
  ∀ c ∈ cs, 33 ≤ c.toNat ∧ c.toNat ≤ 126

/-- A path behind a host: none, or one that begins with a slash. -/
inductive Slashed : List Char → Prop where
  | nil : Slashed []
  | cons (rest : List Char) : Slashed ('/' :: rest)

theorem Visible.append {cs ds : List Char} (hcs : Visible cs) (hds : Visible ds) :
    Visible (cs ++ ds) := by
  intro c hc
  exact (List.mem_append.1 hc).elim (hcs c) (hds c)

section Ends

variable {p : Char → Bool} {front tail : List Char}

/-- Dropping from the end stops at the front. -/
theorem dropEnd_append (hne : front ≠ []) (hfront : ∀ c ∈ front, p c = false) :
    ((front ++ tail).reverse.dropWhile p).reverse = front ++ (tail.reverse.dropWhile p).reverse := by
  have hkept : front.reverse.dropWhile p = front.reverse := by
    obtain ⟨c, cs, hcs⟩ := List.exists_cons_of_ne_nil (mt List.reverse_eq_nil_iff.1 hne)
    have hc : p c = false := hfront c (by rw [← List.mem_reverse, hcs]; simp)
    rw [hcs, List.dropWhile_cons, hc]
    rfl
  rw [List.reverse_append, List.dropWhile_append]
  split
  · next hempty =>
    rw [hkept, List.isEmpty_iff.1 hempty]
    simp
  · simp

/-- Dropping from the front does not get past a character that stays. -/
theorem dropWhile_append_of_front (hne : front ≠ []) (hfront : ∀ c ∈ front, p c = false) :
    (front ++ tail).dropWhile p = front ++ tail := by
  obtain ⟨c, cs, rfl⟩ := List.exists_cons_of_ne_nil hne
  rw [List.cons_append, List.dropWhile_cons, hfront c (by simp)]
  rfl

/-- What is left of the end of an address when it is cleaned. -/
def cleanedEnd (cs : List Char) : List Char :=
  ((cs.reverse.dropWhile isTrimmed).reverse).filter (!isDropped ·)

/-- A visible front keeps blanks at the end from being the whole text, so only the tail is trimmed. -/
theorem trimChars_visible_append (hne : front ≠ []) (hfront : Visible front) :
    Text.trimChars (front ++ tail) = front ++ Text.dropEndBlanks tail := by
  have hblank : ∀ c ∈ front, Text.isBlank c = false := fun c hc =>
    Text.isBlank_of_visible (hfront c hc).1 (hfront c hc).2
  rw [Text.trimChars, Text.dropBlanks, dropWhile_append_of_front hne hblank, Text.dropEndBlanks,
    dropEnd_append hne hblank]
  rfl

theorem isTrimmed_of_visible {c : Char} (hc : 33 ≤ c.toNat) : isTrimmed c = false := by
  simp only [isTrimmed, decide_eq_false_iff_not]
  omega

theorem isDropped_of_visible {c : Char} (hc : 33 ≤ c.toNat) : isDropped c = false := by
  rw [← Bool.not_eq_true]
  intro hdropped
  simp only [isDropped, Bool.or_eq_true, beq_iff_eq] at hdropped
  rcases hdropped with (rfl | rfl) | rfl <;> exact absurd hc (by decide)

/-- Cleaning leaves a visible front as it is. -/
theorem cleaned_visible_append (hne : front ≠ []) (hfront : Visible front) :
    cleaned (front ++ tail) = front ++ cleanedEnd tail := by
  have htrimmed : ∀ c ∈ front, isTrimmed c = false := fun c hc => isTrimmed_of_visible (hfront c hc).1
  have hkept : front.filter (!isDropped ·) = front :=
    List.filter_eq_self.2 fun c hc => by rw [isDropped_of_visible (hfront c hc).1]; rfl
  rw [cleaned, dropWhile_append_of_front hne htrimmed, dropEnd_append hne htrimmed, List.filter_append,
    hkept]
  rfl

-- A slash is visible itself, so what is dropped from the end of a path does not reach it.
/-- Trimming a path leaves a path. -/
theorem Slashed.dropEndBlanks (h : Slashed tail) : Slashed (Text.dropEndBlanks tail) := by
  cases h with
  | nil => exact .nil
  | cons rest =>
      have hslash : Text.dropEndBlanks (['/'] ++ rest) = ['/'] ++ Text.dropEndBlanks rest :=
        dropEnd_append (by simp) (by simp [Text.isBlank])
      rw [← List.singleton_append, hslash]
      exact .cons _

/-- Cleaning a path leaves a path. -/
theorem Slashed.cleanedEnd (h : Slashed tail) : Slashed (cleanedEnd tail) := by
  cases h with
  | nil => exact .nil
  | cons rest =>
      rw [← List.singleton_append, Address.cleanedEnd, dropEnd_append (by simp) (by simp [isTrimmed]),
        List.filter_append]
      exact .cons _

end Ends

/-! ## Schemes -/

/-- A letter and characters of schemes up to a colon are a scheme, whatever follows. -/
theorem scheme?_of_colon {c : Char} {cs : List Char} (hletter : Text.isLetter c = true)
    (hcs : cs.all isSchemeChar = true) (rest : List Char) :
    scheme? (c :: cs ++ ':' :: rest) = some (String.ofList ((c :: cs).map Char.toLower), rest) := by
  have hcolon : ':' ∉ c :: cs := by
    rw [List.mem_cons, not_or]
    constructor
    · rintro rfl
      exact absurd hletter (by decide)
    · exact fun hmem => absurd (List.all_eq_true.1 hcs _ hmem) (by decide)
  rw [scheme?, Text.cutAt_append hcolon]
  simp [hletter, hcs]

/-- A colon in the path does not end a scheme, since the slash stands before it. -/
theorem scheme?_of_path {front tail : List Char} (hne : front ≠ []) (hcolon : ':' ∉ front)
    (htail : Slashed tail) : scheme? (front ++ tail) = none := by
  obtain ⟨c, cs, rfl⟩ := List.exists_cons_of_ne_nil hne
  by_cases hmem : ':' ∈ tail
  · cases htail with
    | nil => nomatch hmem
    | cons rest =>
        obtain ⟨before, after, rfl, hbefore⟩ :=
          List.eq_append_cons_of_mem ((List.mem_cons.1 hmem).resolve_left (by decide))
        have hfront : ':' ∉ c :: (cs ++ '/' :: before) := by
          rw [List.mem_cons, not_or] at hcolon
          simp [hcolon.1, hcolon.2, hbefore]
        have hcut : Text.cutAt (· == ':') (c :: cs ++ '/' :: (before ++ ':' :: after)) =
            some (c :: (cs ++ '/' :: before), after) := by
          rw [← Text.cutAt_append hfront after]
          simp
        have hslash : (cs ++ '/' :: before).all isSchemeChar = false := by
          rw [List.all_append, List.all_cons]
          simp [isSchemeChar, Text.isLetter, Text.isDigit]
        rw [scheme?, hcut]
        simp [hslash]
  · have hnone : ':' ∉ c :: cs ++ tail := by simp_all
    rw [scheme?, Text.cutAt_of_notMem hnone]

/-! ## Query and fragment -/

/-- A cut at a character goes past a front without it. -/
theorem cutAt_visible_front {sep : Char} {front : List Char} (h : sep ∉ front) (tail : List Char) :
    Text.cutAt (· == sep) (front ++ tail) =
      (Text.cutAt (· == sep) tail).map fun parts => (front ++ parts.1, parts.2) := by
  induction front with
  | nil => simp
  | cons c front ih =>
      obtain ⟨hc, hfront⟩ := not_or.1 (List.mem_cons.not.1 h)
      have hother : (c == sep) = false := beq_eq_false_iff_ne.2 (Ne.symm hc)
      rw [List.cons_append, Text.cutAt, hother, ih hfront]
      simp [Function.comp_def]

/-- A front without marks stays before the query and the fragment. -/
theorem cutQuery_append {front : List Char} (hhash : '#' ∉ front) (hquestion : '?' ∉ front)
    (tail : List Char) :
    cutQuery (front ++ tail) = (front ++ (cutQuery tail).1, (cutQuery tail).2) := by
  rw [cutQuery, cutQuery, cutAt_visible_front hhash]
  cases Text.cutAt (· == '#') tail with
  | none =>
      simp only [Option.map_none, cutAt_visible_front hquestion]
      cases Text.cutAt (· == '?') tail <;> rfl
  | some parts =>
      simp only [Option.map_some, cutAt_visible_front hquestion]
      cases Text.cutAt (· == '?') parts.1 <;> rfl

/-- What stands before the query of a path is a path. -/
theorem Slashed.cutQuery {tail : List Char} (h : Slashed tail) : Slashed (cutQuery tail).1 := by
  cases h with
  | nil => exact .nil
  | cons rest =>
      rw [← List.singleton_append, cutQuery_append (by decide) (by decide)]
      exact .cons _

/-! ## Addresses with a host -/

theorem cutAtLast_of_notMem {sep : Char} {cs : List Char} (h : sep ∉ cs) :
    Text.cutAtLast (· == sep) cs = none := by
  rw [Text.cutAtLast, Text.cutAt_of_notMem (by simpa using h)]
  rfl

/-- The authority ends where the path begins. -/
theorem cutAuthority_append {kind : SchemeKind} {front tail : List Char}
    (hfront : ∀ c ∈ front, isSlash kind c = false) (htail : Slashed tail) :
    cutAuthority kind (front ++ tail) = (front, tail) := by
  have hall : front.all (!isSlash kind ·) = true := List.all_eq_true.2 fun c hc => by simp [hfront c hc]
  have hstop : ∀ next ∈ tail.head?, (!isSlash kind next) = false := by
    cases htail with
    | nil => simp
    | cons rest => simp [isSlash]
  obtain ⟨htake, hdrop⟩ := Text.span_of_stop hall hstop
  rw [cutAuthority, htake, hdrop]

/-- The path behind an authority, given what stands behind the port. -/
def hostedPath (kind : SchemeKind) (extra rest : List Char) : List (List Char) :=
  if kind == .other && rest.isEmpty && extra.isEmpty then []
  else parsePath kind (if extra.isEmpty then dropSlash kind rest else extra ++ rest)

/-- An authority without credentials is a host with its port. -/
theorem parseHosted_append {scheme : String} {front tail : List Char}
    (hslash : ∀ c ∈ front, isSlash (schemeKind scheme) c = false) (hat : '@' ∉ front)
    (htail : Slashed tail) (isMore : Bool) :
    parseHosted scheme (front ++ tail) isMore =
      (parseHostPort scheme front).map fun (host, port, extra) =>
        ⟨scheme, [], some host, port, .segments (hostedPath (schemeKind scheme) extra tail), none,
          none⟩ := by
  have hcredentials : cutCredentials front = (none, front) := by
    rw [cutCredentials, cutAtLast_of_notMem hat]
  have hnone : credentialsText [] = [] := rfl
  simp only [parseHosted, cutAuthority_append hslash htail, hcredentials, Option.getD_none, hnone]
  cases parseHostPort scheme front with
  | error e => rfl
  | ok parts => simp [bind, Except.bind, Except.map, hostedPath]

/-! ## Refusals -/

/-- The text is refused, if at all, for another reason than that it has no scheme. -/
def Rooted {α : Type} (x : Except Error α) : Prop :=
  x ≠ .error .relative

theorem Rooted.ok {α : Type} (a : α) : Rooted (.ok a) :=
  nofun

theorem Rooted.error {α : Type} {e : Error} (h : e ≠ .relative) : Rooted (.error e : Except Error α) :=
  fun heq => h (Except.error.inj heq)

/-- A reading in two steps lacks a scheme only if one of the steps says so. -/
theorem Rooted.bind {α β : Type} {x : Except Error α} {f : α → Except Error β} (hx : Rooted x)
    (hf : ∀ a, Rooted (f a)) : Rooted (x >>= f) := by
  cases x with
  | error e => exact fun h => hx (by rw [Except.error.inj h])
  | ok a => exact hf a

/-- A host in brackets is never refused for the lack of a scheme. -/
theorem rooted_bracketed {cs : List Char} {x : Except Error Host} (h : bracketed? cs = some x) :
    Rooted x := by
  have hparts (ds : List Char) : Rooted (parseIpv6 ds) := by
    unfold parseIpv6
    dsimp only
    split
    · exact .ok _
    · exact .error nofun
  unfold bracketed? at h
  split at h
  · obtain rfl := Option.some.inj h
    split
    · exact hparts _
    · exact .error nofun
  · nomatch h

/-- Nor is any other host of a well-known scheme. -/
theorem rooted_parseHost (cs : List Char) : Rooted (parseHost cs) := by
  unfold parseHost
  split
  · next hbracketed => exact rooted_bracketed hbracketed
  · split
    · exact .error nofun
    · unfold parseIpv4
      dsimp only
      repeat' split
      all_goals first | exact .ok _ | exact .error nofun

theorem rooted_parseOpaqueHost (cs : List Char) : Rooted (parseOpaqueHost cs) := by
  unfold parseOpaqueHost
  split
  · next hbracketed => exact rooted_bracketed hbracketed
  · split
    · exact .error nofun
    · exact .ok _

/-- Nor is a port. -/
theorem rooted_parsePort (scheme : String) (cs : List Char) : Rooted (parsePort scheme cs) := by
  unfold parsePort
  dsimp only
  repeat' split
  all_goals first | exact .ok _ | exact .error nofun

theorem rooted_parseHostPort (scheme : String) (cs : List Char) : Rooted (parseHostPort scheme cs) := by
  unfold parseHostPort
  dsimp only
  split
  · exact .error nofun
  · -- The two kinds of hosts differ in how the host is read, and go on in the same way.
    split
    all_goals
      refine .bind ?_ fun host => ?_
      · first | exact rooted_parseHost _ | exact rooted_parseOpaqueHost _
      · split
        · exact .ok _
        · split
          · exact .error nofun
          · exact .bind (rooted_parsePort _ _) fun port => .ok _

/-- Nothing behind the two slashes is refused for the lack of a scheme. -/
theorem rooted_parseHosted (scheme : String) (cs : List Char) (isMore : Bool) :
    Rooted (parseHosted scheme cs isMore) := by
  unfold parseHosted
  dsimp only
  split
  · exact .error nofun
  · refine .bind (rooted_parseHostPort _ _) fun parts => ?_
    split
    · exact .error nofun
    · exact .ok _

/-! ## Hosts in ASCII -/

/-- Without a percent sign a text stands for its own bytes. -/
theorem percentDecode_of_notMem {cs : List Char} (h : '%' ∉ cs) :
    percentDecode cs = Text.encode cs := by
  induction cs with
  | nil => rfl
  | cons c cs ih =>
      obtain ⟨hc, hcs⟩ := not_or.1 (List.mem_cons.not.1 h)
      rw [percentDecode.eq_3, ih hcs, Text.encode, Text.encode, List.flatMap_cons]
      rintro a b rest rfl
      exact absurd rfl hc

/-- A host in ASCII is read in lower case, and has to be an address or a plain name. -/
theorem parseHost_of_ascii {cs domain : List Char} (hascii : ∀ c ∈ cs, c.toNat < 0x80)
    (hpercent : '%' ∉ cs) (hbracket : cs.head? ≠ some '[')
    (hmapped : Domain.writeMapped? (cs.map Char.toLower) = some domain) :
    parseHost cs =
      if domain.isEmpty then .error .emptyHost
      else if endsInNumber domain then parseIpv4 domain
      else .ok (.name domain) := by
  have hopen : bracketed? cs = none := by
    unfold bracketed?
    split
    · exact absurd rfl hbracket
    · rfl
  have htext : String.fromUTF8? ⟨(percentDecode cs).toArray⟩ = some (String.ofList cs) := by
    have hdecoded := Text.fromUTF8?_encode (String.ofList cs)
    rwa [String.toList_ofList, ← percentDecode_of_notMem hpercent] at hdecoded
  have hall : Domain.isAscii cs = true := List.all_eq_true.2 fun c hc => by simpa using hascii c hc
  have hdomain : Domain.toAscii? (percentDecode cs) = some domain := by
    simp [Domain.toAscii?, htext, hall, hmapped]
  rw [parseHost, hopen, hdomain]

/-! ## Numbers as hosts -/

theorem head?_toDigits_ne_zero {n : Nat} (h : 0 < n) : (Nat.toDigits 10 n).head? ≠ some '0' := by
  induction n using Nat.strongRecOn with
  | ind n ih =>
      by_cases hn : n < 10
      · have hdigits : ∀ d < 10, 0 < d → Nat.digitChar d ≠ '0' := by decide
        rw [Nat.toDigits_of_lt_base hn]
        simpa using hdigits n hn h
      · have hfront := ih (n / 10) (by omega) (by omega)
        obtain ⟨c, cs, hcs⟩ := List.exists_cons_of_ne_nil (Nat.toDigits_ne_nil (b := 10) (n := n / 10))
        rw [Nat.toDigits_of_base_le (by decide) (by omega)]
        simpa [hcs] using hfront

theorem digitsIn_of_digits {cs : List Char} (hcs : cs.all Text.isDigit = true) :
    digitsIn 10 cs = some (Text.digitsValue cs) := by
  -- Both read from the left, and the number read so far grows in the same way.
  have hfrom (cs : List Char) (hcs : cs.all Text.isDigit = true) (n : Nat) :
      cs.foldl (fun n? c => do
          let n ← n?
          let d ← hexValue? c
          if d < 10 then some (n * 10 + d) else none) (some n) =
        some (cs.foldl (fun n c => 10 * n + Text.digitValue c) n) := by
    induction cs generalizing n with
    | nil => rfl
    | cons c cs ih =>
        rw [List.all_cons, Bool.and_eq_true] at hcs
        have hvalue : hexValue? c = some (Text.digitValue c) := by
          simp [hexValue?, hcs.1, Text.digitValue]
        have hstep : (do
            let n ← some n
            let d ← hexValue? c
            if d < 10 then some (n * 10 + d) else none) = some (10 * n + Text.digitValue c) := by
          simp [hvalue, Text.digitValue_lt hcs.1, Nat.mul_comm]
        rw [List.foldl_cons, List.foldl_cons, ← ih hcs.2]
        exact congrArg (fun start => List.foldl _ start cs) hstep
  exact hfrom cs hcs 0

/-- The digits of a positive number have no zero in front, so they are read as decimal. -/
theorem ipv4Number_toDigits {n : Nat} (h : 0 < n) : ipv4Number (Nat.toDigits 10 n) = some n := by
  have hread : digitsIn 10 (Nat.toDigits 10 n) = some n := by
    rw [digitsIn_of_digits (Text.all_isDigit_toDigits n), Text.digitsValue_toDigits]
  have hhead := head?_toDigits_ne_zero h
  have hne : Nat.toDigits 10 n ≠ [] := Nat.toDigits_ne_nil
  unfold ipv4Number
  split
  · exact absurd ‹_› hne
  · simp_all
  · simp_all
  · simp_all
  · exact hread

section Digits

variable {cs : List Char}

theorem notMem_of_digits {c : Char} (hcs : cs.all Text.isDigit = true) (hc : Text.isDigit c = false) :
    c ∉ cs := by
  intro hmem
  rw [List.all_eq_true.1 hcs c hmem] at hc
  nomatch hc

/-- Digits alone are one part. -/
theorem dottedParts_of_digits (hcs : cs.all Text.isDigit = true) (hne : cs ≠ []) :
    dottedParts cs = [cs] := by
  rw [dottedParts, Text.splitAt_of_notMem (notMem_of_digits hcs (by decide))]
  simp [hne]

/-- Digits are mapped to themselves. -/
theorem writeMapped?_of_digits (hcs : cs.all Text.isDigit = true) :
    Domain.writeMapped? (cs.map Char.toLower) = some cs := by
  have hdigit : ∀ c ∈ cs, Text.isDigit c = true := List.all_eq_true.1 hcs
  -- What holds of each digit by looking at all ten of them.
  have hten : ∀ c : Char, Text.isDigit c = true →
      c.toLower = c ∧ Domain.isForbidden c = false ∧ c.toNat < 0x80 ∧ c ≠ 'x' := by
    intro c hc
    have hrange := Text.toNat_of_isDigit hc
    have hall : ∀ n ∈ List.range' 48 10, (Char.ofNat n).toLower = Char.ofNat n ∧
        Domain.isForbidden (Char.ofNat n) = false ∧ (Char.ofNat n).toNat < 0x80 ∧
        Char.ofNat n ≠ 'x' := by decide
    have hone := hall c.toNat (by simp; omega)
    rwa [Char.ofNat_toNat] at hone
  have hlower : cs.map Char.toLower = cs :=
    (List.map_congr_left fun c hc => (hten c (hdigit c hc)).1).trans (List.map_id' cs)
  have hallowed : cs.any Domain.isForbidden = false :=
    List.any_eq_false.2 fun c hc => by simp [(hten c (hdigit c hc)).2.1]
  have hplain : Domain.isPlain cs = true := by
    have hascii : Domain.isAscii cs = true :=
      List.all_eq_true.2 fun c hc => by simpa using (hten c (hdigit c hc)).2.2.1
    have hmark : Domain.writtenMark.isPrefixOf cs = false := by
      cases cs with
      | nil => rfl
      | cons c cs =>
          have hc := (hten c (hdigit c (by simp))).2.2.2
          simp [Domain.writtenMark, List.isPrefixOf, Ne.symm hc]
    rw [Domain.isPlain, Domain.labels, Text.splitAt_of_notMem (notMem_of_digits hcs (by decide))]
    simp [hascii, hmark]
  rw [hlower, Domain.writeMapped?, hallowed, hplain]
  rfl

end Digits

/-- A number in the place of a host is an address of four parts. -/
theorem parseHost_toDigits {n : Nat} (hpos : 0 < n) (hn : n < 4294967296) :
    parseHost (Nat.toDigits 10 n) = .ok (.ipv4 n) := by
  have hdigits := Text.all_isDigit_toDigits n
  have hne : Nat.toDigits 10 n ≠ [] := Nat.toDigits_ne_nil
  have hascii : ∀ c ∈ Nat.toDigits 10 n, c.toNat < 0x80 := fun c hc => by
    have hrange := Text.toNat_of_isDigit (List.all_eq_true.1 hdigits c hc)
    omega
  have hbracket : (Nat.toDigits 10 n).head? ≠ some '[' := fun hhead =>
    notMem_of_digits hdigits (by decide) (List.mem_of_head? hhead)
  have hends : endsInNumber (Nat.toDigits 10 n) = true := by
    simp [endsInNumber, dottedParts_of_digits hdigits hne, hne, hdigits]
  have hvalue : parseIpv4 (Nat.toDigits 10 n) = .ok (.ipv4 n) := by
    have hread : ([Nat.toDigits 10 n].mapM ipv4Number).bind (ipv4Value 0) = some n := by
      simp [ipv4Number_toDigits hpos, ipv4Value, hn]
    rw [parseIpv4, dottedParts_of_digits hdigits hne, hread]
    rfl
  rw [parseHost_of_ascii hascii (notMem_of_digits hdigits (by decide)) hbracket
    (writeMapped?_of_digits hdigits), hends, hvalue]
  simp [hne]

end Address
end MacroReplay
