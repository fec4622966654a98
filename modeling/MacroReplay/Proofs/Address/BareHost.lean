import MacroReplay.Browser.Navigation
import MacroReplay.Proofs.Address.Opening
import MacroReplay.Proofs.Variable.Assignment

/-!
# Targets without a scheme

A target such as `example.com/a` has no scheme and is the address of a web page. With a port the text
before the colon is itself a scheme, so `localhost:8080` is an address of the scheme `localhost`, and it
has no host.

* `BareTarget` — a host name, a port or none, and a path or none;
* `normalize_of_no_port` — without a port it is the address with `http://` in front;
* `parse_of_port` — with a port the host is the scheme;
* `same_address_iff_no_port` — so it is the address with `http://` in front exactly without a port.
-/

namespace MacroReplay
namespace Address

/-! ## Hosts, ports and paths -/

def IsHostChar (c : Char) : Prop :=
  Text.isLetter c = true ∨ Text.isDigit c = true ∨ c = '-' ∨ c = '.'

/-- A letter, and behind it letters, digits, hyphens and dots. -/
structure BareHost where
  first : Char
  rest : List Char
  first_letter : Text.isLetter first = true
  rest_chars : ∀ c ∈ rest, IsHostChar c

structure BareTarget where
  host : BareHost
  port : Option Nat
  path : List Char
  port_range : ∀ n ∈ port, 1 ≤ n ∧ n ≤ 65535
  slashed : Slashed path

def BareHost.text (h : BareHost) : List Char :=
  h.first :: h.rest

def BareHost.scheme (h : BareHost) : String :=
  String.ofList (h.text.map Char.toLower)

def portText : Option Nat → List Char
  | none => []
  | some n => ':' :: Nat.toDigits 10 n

def BareTarget.front (t : BareTarget) : List Char :=
  t.host.text ++ portText t.port

def BareTarget.text (t : BareTarget) : String :=
  String.ofList (t.front ++ t.path)

section Characters

theorem toNat_of_isLetter {c : Char} (h : Text.isLetter c = true) :
    65 ≤ c.toNat ∧ c.toNat ≤ 90 ∨ 97 ≤ c.toNat ∧ c.toNat ≤ 122 := by
  simp only [Text.isLetter, Bool.or_eq_true, Bool.and_eq_true, decide_eq_true_eq] at h
  exact h.symm

/-- The characters of a host are visible ones, so nothing of it is trimmed. -/
theorem IsHostChar.visible {c : Char} (h : IsHostChar c) : 33 ≤ c.toNat ∧ c.toNat ≤ 126 := by
  rcases h with hletter | hdigit | rfl | rfl
  · have hrange := toNat_of_isLetter hletter
    omega
  · have hrange := Text.toNat_of_isDigit hdigit
    omega
  · decide
  · decide

theorem BareHost.isHostChar (h : BareHost) : ∀ c ∈ h.text, IsHostChar c := by
  intro c hc
  rcases List.mem_cons.1 hc with rfl | hc
  · exact .inl h.first_letter
  · exact h.rest_chars c hc

theorem BareHost.notMem (h : BareHost) {c : Char} (hc : ¬IsHostChar c) : c ∉ h.text :=
  fun hmem => hc (h.isHostChar c hmem)

theorem BareHost.visible (h : BareHost) : Visible h.text :=
  fun c hc => (h.isHostChar c hc).visible

theorem visible_toDigits (n : Nat) : Visible (Nat.toDigits 10 n) := by
  intro c hc
  have hrange := Text.toNat_of_isDigit (List.all_eq_true.1 (Text.all_isDigit_toDigits n) c hc)
  omega

instance (c : Char) : Decidable (IsHostChar c) :=
  inferInstanceAs (Decidable (_ ∨ _ ∨ _ ∨ _))

end Characters

namespace BareTarget

variable (t : BareTarget)

/-- There is always a letter at the front of a target. -/
theorem front_ne_nil : t.front ≠ [] := by
  simp [front, BareHost.text]

/-- Host and port are made of visible characters. -/
theorem visible_front : Visible t.front := by
  refine t.host.visible.append ?_
  cases t.port with
  | none => nofun
  | some n =>
      have hcolon : Visible [':'] := by simp [Visible]
      exact hcolon.append (visible_toDigits n)

/-- No mark other than the colon before the port stands before the path. -/
theorem notMem_front {c : Char} (hc : ¬IsHostChar c) (hcolon : c ≠ ':') : c ∉ t.front := by
  rw [front, List.mem_append, not_or]
  refine ⟨t.host.notMem hc, ?_⟩
  cases t.port with
  | none => nofun
  | some n =>
      rw [portText, List.mem_cons, not_or]
      exact ⟨hcolon, notMem_of_digits (Text.all_isDigit_toDigits n) (by
        rw [← Bool.not_eq_true]
        exact fun hdigit => hc (.inr (.inl hdigit)))⟩

/-- What is left of the path when the text is trimmed and cleaned. -/
def tail : List Char :=
  cleanedEnd (Text.dropEndBlanks t.path)

/-- Cleaning a path leaves a path. -/
theorem slashed_tail : Slashed t.tail :=
  t.slashed.dropEndBlanks.cleanedEnd

theorem toList_text : t.text.toList = t.front ++ t.path :=
  String.toList_ofList

/-- Only the path loses anything when the text is trimmed. -/
theorem toList_trim_text : (Text.trim t.text).toList = t.front ++ Text.dropEndBlanks t.path := by
  rw [Text.trim, toList_text, trimChars_visible_append t.front_ne_nil t.visible_front,
    String.toList_ofList]

/-- What cleaning takes away is at the end of the path. -/
theorem cleaned_trim_text : cleaned (Text.trim t.text).toList = t.front ++ t.tail := by
  rw [toList_trim_text, cleaned_visible_append t.front_ne_nil t.visible_front]
  rfl

-- With `http://` before it the front is visible as before, and the path is the same.
theorem visible_http_front : Visible ("http://".toList ++ t.front) := by
  have hhttp : Visible "http://".toList := by simp [Visible]
  exact hhttp.append t.visible_front

theorem http_front_ne_nil : "http://".toList ++ t.front ≠ [] := by
  simp

/-- Trimming does not depend on whether the scheme is written. -/
theorem trim_http_text : Text.trim ("http://" ++ t.text) = "http://" ++ Text.trim t.text := by
  rw [Text.trim, String.toList_append, toList_text, ← List.append_assoc,
    trimChars_visible_append t.http_front_ne_nil t.visible_http_front, List.append_assoc,
    ← toList_trim_text, String.ofList_append, String.ofList_toList, String.ofList_toList]

/-- The same with the scheme written. -/
theorem cleaned_http_text :
    cleaned ("http://" ++ Text.trim t.text).toList = "http://".toList ++ t.front ++ t.tail := by
  rw [String.toList_append, toList_trim_text, ← List.append_assoc,
    cleaned_visible_append t.http_front_ne_nil t.visible_http_front]
  rfl

/-! ## With `http://` in front -/

/-- What stands before the query and the fragment. -/
def body : List Char :=
  (cutQuery t.tail).1

theorem slashed_body : Slashed t.body :=
  t.slashed_tail.cutQuery

theorem head_not_slash (kind : SchemeKind) : ∀ c ∈ t.front, isSlash kind c = false := by
  intro c hc
  have hslash : c ≠ '/' := fun h => t.notMem_front (by decide) (by decide) (h ▸ hc)
  have hback : c ≠ '\\' := fun h => t.notMem_front (by decide) (by decide) (h ▸ hc)
  simp [isSlash, hslash, hback]

/-- The target behind `http://` is read as an authority and a path. -/
theorem parse_http_text :
    ∃ isMore, parse ("http://" ++ Text.trim t.text) =
      (parseHosted "http" (t.front ++ t.body) isMore).map fun u =>
        u.withQuery .web (cutQuery t.tail).2.1 (cutQuery t.tail).2.2 := by
  have hscheme : scheme? ("http://".toList ++ t.front ++ t.tail) =
      some ("http", "//".toList ++ t.front ++ t.tail) := by
    have hcolon : scheme? ('h' :: "ttp".toList ++ ':' :: ("//".toList ++ t.front ++ t.tail)) =
        some ("http", "//".toList ++ t.front ++ t.tail) := by
      rw [scheme?_of_colon (by decide) (by decide)]
      rfl
    simpa using hcolon
  have hmarks : '#' ∉ "//".toList ++ t.front ∧ '?' ∉ "//".toList ++ t.front := by
    have hhash := t.notMem_front (c := '#') (by decide) (by decide)
    have hquestion := t.notMem_front (c := '?') (by decide) (by decide)
    simp [hhash, hquestion]
  -- Both slashes are dropped and no more, since the host does not begin with one.
  have hdrop : ("//".toList ++ t.front ++ t.body).dropWhile (isSlash .web) = t.front ++ t.body := by
    rw [List.append_assoc]
    exact dropWhile_append_of_front t.front_ne_nil (t.head_not_slash .web)
  refine ⟨(cutQuery t.tail).2.1.isSome || (cutQuery t.tail).2.2.isSome, ?_⟩
  rw [parse, cleaned_http_text, hscheme]
  dsimp only
  rw [cutQuery_append hmarks.1 hmarks.2]
  dsimp only [schemeKind, defaultPort?]
  rw [← body, hdrop]
  cases parseHosted "http" (t.front ++ t.body) _ <;> rfl

/-- With `http://` before it a target is not refused for the lack of a scheme. -/
theorem rooted_http_text : Rooted (parse ("http://" ++ Text.trim t.text)) := by
  obtain ⟨isMore, hparse⟩ := t.parse_http_text
  have hhosted := rooted_parseHosted "http" (t.front ++ t.body) isMore
  rw [hparse]
  cases hx : parseHosted "http" (t.front ++ t.body) isMore with
  | ok u => exact .ok _
  | error e =>
      rw [hx] at hhosted
      exact fun h => hhosted (by rw [Except.error.inj h])

/-- A target with its scheme written is normalized by one reading. -/
theorem normalize_http_text :
    normalize ("http://" ++ t.text) = (parse ("http://" ++ Text.trim t.text)).map Url.render := by
  have hrooted := t.rooted_http_text
  rw [normalize, trim_http_text]
  cases hparse : parse ("http://" ++ Text.trim t.text) with
  | ok u => rfl
  | error e =>
      rw [hparse] at hrooted
      cases e <;> first | exact absurd rfl hrooted | rfl

/-- Without a port there is no scheme, so `http://` is put in front. -/
theorem normalize_of_no_port (hport : t.port = none) :
    normalize t.text = normalize ("http://" ++ t.text) := by
  have hfront : t.front = t.host.text := by simp [front, hport, portText]
  have hscheme : scheme? (t.front ++ t.tail) = none :=
    scheme?_of_path t.front_ne_nil (hfront ▸ t.host.notMem (by decide)) t.slashed_tail
  have hrelative : parse (Text.trim t.text) = .error .relative := by
    rw [parse, cleaned_trim_text, hscheme]
  rw [normalize_http_text, normalize, hrelative]

/-! ## With a port -/

section Port

variable {n : Nat}

theorem front_of_port (hport : t.port = some n) :
    t.front = t.host.text ++ ':' :: Nat.toDigits 10 n := by
  rw [front, hport, portText]

/-- All that a host holds behind its first letter may stand in a scheme, which is why a port makes a
scheme of it. -/
theorem isSchemeChar_of_isHostChar {c : Char} (hc : IsHostChar c) : isSchemeChar c = true := by
  rcases hc with hletter | hdigit | rfl | rfl
  · simp [isSchemeChar, hletter]
  · simp [isSchemeChar, hdigit]
  · decide
  · decide

/-- The text before the port is read as a scheme. -/
theorem scheme?_of_port (hport : t.port = some n) :
    scheme? (t.front ++ t.tail) = some (t.host.scheme, Nat.toDigits 10 n ++ t.tail) := by
  have hrest : t.host.rest.all isSchemeChar = true :=
    List.all_eq_true.2 fun c hc => isSchemeChar_of_isHostChar (t.host.rest_chars c hc)
  rw [t.front_of_port hport, List.append_assoc, List.cons_append]
  exact scheme?_of_colon t.host.first_letter hrest _

theorem digits_not_slash (kind : SchemeKind) (n : Nat) :
    ∀ c ∈ Nat.toDigits 10 n, isSlash kind c = false := by
  intro c hc
  have hdigit := List.all_eq_true.1 (Text.all_isDigit_toDigits n) c hc
  have hslash : c ≠ '/' := fun h => absurd (h ▸ hdigit) (by decide)
  have hback : c ≠ '\\' := fun h => absurd (h ▸ hdigit) (by decide)
  simp [isSlash, hslash, hback]

theorem cutPort_of_notMem {cs : List Char} (hcolon : ':' ∉ cs) (hopen : '[' ∉ cs) :
    cutPort false cs = (cs, none) := by
  induction cs with
  | nil => rfl
  | cons c cs ih =>
      rw [List.mem_cons, not_or] at hcolon hopen
      have hc : (c == ':') = false := beq_eq_false_iff_ne.2 (Ne.symm hcolon.1)
      have hd : (c == '[') = false := beq_eq_false_iff_ne.2 (Ne.symm hopen.1)
      simp [cutPort, hc, hd, ih hcolon.2 hopen.2]

/-- The port stands behind the first colon outside brackets. -/
theorem cutPort_append {cs : List Char} (hcolon : ':' ∉ cs) (hopen : '[' ∉ cs) (behind : List Char) :
    cutPort false (cs ++ ':' :: behind) = (cs, some behind) := by
  induction cs with
  | nil => rfl
  | cons c cs ih =>
      rw [List.mem_cons, not_or] at hcolon hopen
      have hc : (c == ':') = false := beq_eq_false_iff_ne.2 (Ne.symm hcolon.1)
      have hd : (c == '[') = false := beq_eq_false_iff_ne.2 (Ne.symm hopen.1)
      simp [cutPort, hc, hd, ih hcolon.2 hopen.2]

/-- The port stands in the place of the host, as an address of four parts. -/
theorem parseHostPort_toDigits {scheme : String} (hkind : schemeKind scheme = .web) (hpos : 0 < n)
    (hn : n < 4294967296) :
    parseHostPort scheme (Nat.toDigits 10 n) = .ok (.ipv4 n, none, []) := by
  have hdigits := Text.all_isDigit_toDigits n
  have hcut : cutPort false (Nat.toDigits 10 n) = (Nat.toDigits 10 n, none) :=
    cutPort_of_notMem (notMem_of_digits hdigits (by decide)) (notMem_of_digits hdigits (by decide))
  have hne : Nat.toDigits 10 n ≠ [] := Nat.toDigits_ne_nil
  have hspecial : (schemeKind scheme).isSpecial = true := by rw [hkind]; rfl
  simp [parseHostPort, hcut, hspecial, hne, parseHost_toDigits hpos hn, bind, Except.bind]

/-- Behind `file:` a port is the beginning of a path. -/
theorem parseFile_toDigits (n : Nat) (tail : List Char) :
    ∃ u, parseFile (Nat.toDigits 10 n ++ tail) = .ok u ∧ u.scheme = "file" := by
  obtain ⟨c, cs, hcs⟩ := List.exists_cons_of_ne_nil (Nat.toDigits_ne_nil (n := n) (b := 10))
  have hc : isSlash .file c = false := digits_not_slash .file n c (by simp [hcs])
  rw [hcs, List.cons_append]
  unfold parseFile
  split
  · next heq =>
    obtain ⟨rfl, -⟩ := List.cons.inj heq
    rw [hc]
    exact ⟨_, rfl, rfl⟩
  · exact ⟨_, rfl, rfl⟩

/-- Behind a scheme that is not well known a port begins a text that is kept as it is. -/
theorem parseOther_toDigits (scheme : String) (n : Nat) (tail : List Char) (isMore : Bool) :
    parseOther scheme (Nat.toDigits 10 n ++ tail) isMore =
      .ok ⟨scheme, [], none, none,
        .opaqueText (percentEncode encodedEverywhere (Nat.toDigits 10 n ++ tail)), none, none⟩ := by
  obtain ⟨c, cs, hcs⟩ := List.exists_cons_of_ne_nil (Nat.toDigits_ne_nil (n := n) (b := 10))
  have hc : c ≠ '/' := by
    rintro rfl
    exact absurd (digits_not_slash .other n '/' (by simp [hcs])) (by decide)
  rw [hcs, List.cons_append]
  unfold parseOther
  split
  · next heq => exact absurd (List.cons.inj heq).1 hc
  · next heq => exact absurd (List.cons.inj heq).1 hc
  · rfl

/-- What a target with a port is read as: an address of the scheme that the host spells. Of a scheme that
is not well known it has no host, and of a web scheme the port is the host. -/
structure ReadAs (n : Nat) (u : Url) : Prop where
  scheme_eq : u.scheme = t.host.scheme
  of_other : schemeKind t.host.scheme = .other →
    u.host = none ∧ ∃ behind, u.path = .opaqueText (Nat.toDigits 10 n ++ behind)
  of_web : schemeKind t.host.scheme = .web → u.credentials = [] ∧ u.host = some (.ipv4 n)

theorem eq_file_of_schemeKind {scheme : String} (h : schemeKind scheme = .file) : scheme = "file" := by
  by_contra hne
  have hother : (scheme == "file") = false := beq_eq_false_iff_ne.2 hne
  rw [schemeKind, hother] at h
  revert h
  cases (defaultPort? scheme).isSome <;> decide

/-- Digits are never encoded. -/
theorem encode_toDigits (n : Nat) (tail : List Char) :
    percentEncode encodedEverywhere (Nat.toDigits 10 n ++ tail) =
      Nat.toDigits 10 n ++ percentEncode encodedEverywhere tail := by
  have hkept (cs : List Char) (hcs : Visible cs) : percentEncode encodedEverywhere cs = cs := by
    induction cs with
    | nil => rfl
    | cons c cs ih =>
        have hc := hcs c (by simp)
        have hplain : encodedEverywhere c = false := by
          simp only [encodedEverywhere, isControl, Bool.or_eq_false_iff, decide_eq_false_iff_not,
            beq_eq_false_iff_ne]
          omega
        have hrest := ih fun d hd => hcs d (by simp [hd])
        rw [percentEncode] at hrest ⊢
        simp [hplain, hrest]
  rw [percentEncode, List.flatMap_append, ← percentEncode, hkept _ (visible_toDigits n)]
  rfl

/-- A target with a port is always read, and as an address of the wrong kind. -/
theorem parse_of_port (hport : t.port = some n) :
    ∃ u, parse (Text.trim t.text) = .ok u ∧ t.ReadAs n u := by
  have hdigits := Text.all_isDigit_toDigits n
  obtain ⟨hpos, hmost⟩ := t.port_range n hport
  rw [parse, cleaned_trim_text, t.scheme?_of_port hport]
  dsimp only
  rw [cutQuery_append (notMem_of_digits hdigits (by decide)) (notMem_of_digits hdigits (by decide)),
    ← body]
  dsimp only
  -- The scheme decides what the port and the path are read as.
  cases hkind : schemeKind t.host.scheme with
  | file =>
      obtain ⟨u, hparse, hscheme⟩ := parseFile_toDigits n t.body
      refine ⟨u.withQuery .file _ _, by simp only [hparse]; rfl, ?_, ?_, ?_⟩
      · rw [eq_file_of_schemeKind hkind]
        exact hscheme
      · simp [hkind]
      · simp [hkind]
  | web =>
      have hdrop : (Nat.toDigits 10 n ++ t.body).dropWhile (isSlash .web) =
          Nat.toDigits 10 n ++ t.body :=
        dropWhile_append_of_front Nat.toDigits_ne_nil (digits_not_slash .web n)
      dsimp only
      rw [hdrop, parseHosted_append (digits_not_slash _ n) (notMem_of_digits hdigits (by decide))
        t.slashed_body, parseHostPort_toDigits hkind hpos (by omega)]
      exact ⟨_, rfl, rfl, by simp [hkind], fun _ => ⟨rfl, rfl⟩⟩
  | other =>
      dsimp only
      rw [parseOther_toDigits, encode_toDigits]
      exact ⟨_, rfl, rfl, fun _ => ⟨rfl, _, rfl⟩, by simp [hkind]⟩

end Port

end BareTarget

/-! ## Texts of addresses -/

section Render

variable {u : Url}

theorem scheme_prefix_render (u : Url) : u.scheme.toList ++ ":".toList <+: u.render.toList := by
  simp only [Url.render, String.toList_append, List.append_assoc]
  exact (List.prefix_append_right_inj _).2 (List.prefix_append _ _)

/-- What is written of an address with a host and without credentials begins with scheme and host. -/
theorem host_prefix_render {host : Host} (hcredentials : u.credentials = [])
    (hhost : u.host = some host) :
    u.scheme.toList ++ (":".toList ++ ("//".toList ++ host.render.toList)) <+: u.render.toList := by
  simp only [Url.render, hcredentials, hhost, String.toList_append, List.append_assoc]
  rw [List.prefix_append_right_inj, List.prefix_append_right_inj, List.prefix_append_right_inj]
  exact List.prefix_append _ _

/-- What is written of an address without a host begins with its scheme and its text. -/
theorem opaque_prefix_render {text behind : List Char} (hhost : u.host = none)
    (hpath : u.path = .opaqueText (text ++ behind)) (htext : ∀ c ∈ text.head?, c ≠ '/')
    (hne : text ≠ []) : u.scheme.toList ++ (":".toList ++ text) <+: u.render.toList := by
  obtain ⟨c, cs, rfl⟩ := List.exists_cons_of_ne_nil hne
  have hslash : ['/', '/'].isPrefixOf (c :: cs ++ behind) = false := by
    have hc : c ≠ '/' := htext c rfl
    simp [List.isPrefixOf, Ne.symm hc]
  simp only [Url.render, hhost, hpath, Path.render, hslash, String.toList_append, List.append_assoc]
  rw [List.prefix_append_right_inj, List.prefix_append_right_inj]
  simp

/-- An address of four parts begins with a digit. -/
theorem head?_renderIpv4 (n : Nat) : ∃ c ∈ (renderIpv4 n).toList.head?, Text.isDigit c = true := by
  have hdigits := Text.all_isDigit_toDigits (n / 16777216)
  obtain ⟨c, cs, hcs⟩ :=
    List.exists_cons_of_ne_nil (Nat.toDigits_ne_nil (n := n / 16777216) (b := 10))
  rw [hcs, List.all_cons, Bool.and_eq_true] at hdigits
  refine ⟨c, ?_, hdigits.1⟩
  rw [renderIpv4, String.toList_intercalate, List.map_map, List.map_cons,
    Text.head?_intercalate _ (by simp [hcs])]
  simp [hcs]

end Render

namespace BareTarget

variable (t : BareTarget) {n : Nat}

theorem colon_notMem_scheme : ':' ∉ t.host.scheme.toList := by
  rw [BareHost.scheme, String.toList_ofList]
  intro hmem
  obtain ⟨c, hc, hlower⟩ := List.mem_map.1 hmem
  have hhost := t.host.isHostChar c hc
  rcases Text.toLower_cases c with hsame | hletter
  · rw [hsame] at hlower
    exact absurd (hlower ▸ hhost) (by decide)
  · have hcapitals : ∀ n ∈ List.range' 65 26, (Char.ofNat n).toLower ≠ ':' := by decide
    have hcapital := hcapitals c.toNat (by simp; omega)
    rw [Char.ofNat_toNat] at hcapital
    exact hcapital hlower

/-- With `http://` in front, the address has the host that stands there. -/
theorem hosted_of_parse_http {u : Url} (hparse : parse ("http://" ++ Text.trim t.text) = .ok u) :
    ∃ parts, parseHostPort "http" t.front = .ok parts ∧ u.scheme = "http" ∧ u.credentials = [] ∧
      u.host = some parts.1 := by
  obtain ⟨isMore, hread⟩ := t.parse_http_text
  rw [hparse, parseHosted_append (t.head_not_slash _) (t.notMem_front (by decide) (by decide))
    t.slashed_body] at hread
  cases hparts : parseHostPort "http" t.front with
  | error e =>
      rw [hparts] at hread
      nomatch hread
  | ok parts =>
      rw [hparts] at hread
      obtain rfl := Except.ok.inj hread
      exact ⟨parts, rfl, rfl, rfl, rfl⟩

/-- A host that is spelled `http` is this name. -/
theorem host_of_parseHostPort (hport : t.port = some n) (hscheme : t.host.scheme = "http")
    {parts : Host × Option Nat × List Char} (hparts : parseHostPort "http" t.front = .ok parts) :
    parts.1 = .name "http".toList := by
  have hlower : t.host.text.map Char.toLower = "http".toList := by
    rw [← hscheme, BareHost.scheme, String.toList_ofList]
  -- The host is the word `http` in some case, which the mapping of domains turns into lower case.
  have hname : parseHost t.host.text = .ok (.name "http".toList) := by
    have hmapped : Domain.writeMapped? (t.host.text.map Char.toLower) = some "http".toList := by
      rw [hlower]
      decide +kernel
    have hbracket : t.host.text.head? ≠ some '[' := fun h =>
      t.host.notMem (c := '[') (by decide) (List.mem_of_head? h)
    rw [parseHost_of_ascii _ (t.host.notMem (by decide)) hbracket hmapped]
    · rfl
    · intro c hc
      have hvisible := t.host.visible c hc
      omega
  -- Behind the last colon there are digits, so that the colon is that of a port.
  have hcut : cutPort false t.front = (t.host.text, some (Nat.toDigits 10 n)) := by
    rw [t.front_of_port hport]
    exact cutPort_append (t.host.notMem (by decide)) (t.host.notMem (by decide)) _
  have hspecial : (schemeKind "http").isSpecial = true := rfl
  have hne : t.host.text.isEmpty = false := rfl
  simp only [parseHostPort, hcut, hspecial, hne, hname, bind, Except.bind, Bool.and_false,
    Bool.false_eq_true, if_false, if_true] at hparts
  cases hread : parsePort "http" ((Nat.toDigits 10 n).takeWhile (· != '\\')) with
  | error e => simp [hread] at hparts
  | ok port =>
      simp only [hread, Except.ok.injEq] at hparts
      rw [← hparts]

/-- A text has one part before its first colon. -/
theorem eq_of_append_colon {a b xs ys : List Char} (ha : ':' ∉ a) (hb : ':' ∉ b)
    (h : a ++ ':' :: xs = b ++ ':' :: ys) : a = b := by
  have hcut := congrArg (Text.cutAt (· == ':')) h
  rw [Text.cutAt_append ha, Text.cutAt_append hb] at hcut
  exact congrArg Prod.fst (Option.some.inj hcut)

/-- With a port the address is not the one with `http://` in front: it is of another scheme, or it is of
the scheme `http` and has the port in the place of the host. -/
theorem normalize_ne_of_port (hport : t.port = some n) :
    normalize t.text ≠ normalize ("http://" ++ t.text) := by
  obtain ⟨u, hparse, hread⟩ := t.parse_of_port hport
  have hnormal : normalize t.text = .ok u.render := by rw [normalize, hparse]
  intro hsame
  rw [hnormal, normalize_http_text] at hsame
  cases hhttp : parse ("http://" ++ Text.trim t.text) with
  | error e =>
      rw [hhttp] at hsame
      nomatch hsame
  | ok u' =>
      rw [hhttp] at hsame
      have hrender : u.render = u'.render := Except.ok.inj hsame
      obtain ⟨parts, hparts, hscheme', hcredentials', hhost'⟩ := t.hosted_of_parse_http hhttp
      have hscheme : t.host.scheme = "http" := by
        obtain ⟨xs, hxs⟩ := scheme_prefix_render u
        obtain ⟨ys, hys⟩ := scheme_prefix_render u'
        rw [hread.scheme_eq] at hxs
        rw [hscheme'] at hys
        rw [hrender, ← hys, List.append_assoc, List.append_assoc] at hxs
        exact String.toList_injective (eq_of_append_colon t.colon_notMem_scheme (by decide) hxs)
      have hkind : schemeKind t.host.scheme = .web := by rw [hscheme]; decide
      obtain ⟨hcredentials, hhost⟩ := hread.of_web hkind
      rw [t.host_of_parseHostPort hport hscheme hparts] at hhost'
      -- Behind `http://` one text goes on with a digit and the other one with `http`.
      obtain ⟨xs, hxs⟩ := host_prefix_render hcredentials hhost
      obtain ⟨ys, hys⟩ := host_prefix_render hcredentials' hhost'
      rw [hread.scheme_eq, hscheme, hrender, ← hys, hscheme'] at hxs
      simp only [List.append_assoc, List.append_cancel_left_eq, Host.render, String.toList_ofList] at hxs
      obtain ⟨c, hc, hdigit⟩ := head?_renderIpv4 n
      have hhead := congrArg List.head? hxs
      rw [List.head?_append, hc] at hhead
      obtain rfl : c = 'h' := Option.some.inj hhead
      exact absurd hdigit (by decide)

end BareTarget

/-- A target without a scheme is the address with `http://` in front exactly if it has no port. With a
port, and a host that does not spell a well-known scheme, it is an address of the scheme that the host
spells: it has no host, and the browser is sent there. -/
theorem same_address_iff_no_port (t : BareTarget) :
    (normalize t.text = normalize ("http://" ++ t.text) ↔ t.port = none) ∧
      ∀ n, t.port = some n → schemeKind t.host.scheme = .other →
        ∃ u, parse (Text.trim t.text) = .ok u ∧ u.scheme = t.host.scheme ∧ u.host = none ∧
          (t.host.scheme ++ ":" ++ toString n).toList <+: u.render.toList ∧
          ∀ i : Invocation, i.param? "GOTO" = some t.text → Browser.gotoTarget i = .ok u.render := by
  constructor
  · constructor
    · intro hsame
      cases hport : t.port with
      | none => rfl
      | some n => exact absurd hsame (t.normalize_ne_of_port hport)
    · exact t.normalize_of_no_port
  · intro n hport hkind
    obtain ⟨u, hparse, hread⟩ := t.parse_of_port hport
    -- The host is taken for a scheme, and the port for the beginning of an opaque path.
    obtain ⟨hhost, behind, hpath⟩ := hread.of_other hkind
    have hdigits := Text.all_isDigit_toDigits n
    have hhead : ∀ c ∈ (Nat.toDigits 10 n).head?, c ≠ '/' := by
      rintro c hc rfl
      exact notMem_of_digits hdigits (by decide) (List.mem_of_head? hc)
    have hprefix := opaque_prefix_render hhost hpath hhead Nat.toDigits_ne_nil
    refine ⟨u, hparse, hread.scheme_eq, hhost, ?_, fun i hi => ?_⟩
    · have hnumber : (toString n).toList = Nat.toDigits 10 n := by
        rw [Nat.toString_eq_ofList_toDigits, String.toList_ofList]
      rw [String.toList_append, String.toList_append, List.append_assoc, hnumber, ← hread.scheme_eq]
      exact hprefix
    · simp [Browser.gotoTarget, Invocation.required, hi, normalize, hparse, bind, Except.bind]

/-- `example.com:8080/a` as a target, and the same without the port. -/
theorem same_address_iff_no_port_example :
    normalize "example.com/a" = normalize "http://example.com/a" ∧
      normalize "example.com:8080/a" ≠ normalize "http://example.com:8080/a" ∧
      ∃ u, parse (Text.trim "example.com:8080/a") = .ok u ∧ u.scheme = "example.com" ∧
        u.host = none := by
  let host : BareHost :=
    ⟨'e', "xample.com".toList, by decide, by simp [IsHostChar, Text.isLetter, Text.isDigit]⟩
  let plain : BareTarget := ⟨host, none, "/a".toList, by simp, .cons _⟩
  let withPort : BareTarget := ⟨host, some 8080, "/a".toList, by simp, .cons _⟩
  obtain ⟨hplain, -⟩ := same_address_iff_no_port plain
  obtain ⟨hport, hother⟩ := same_address_iff_no_port withPort
  have hkind : schemeKind host.scheme = .other := by decide
  obtain ⟨u, hparse, hscheme, hhost, -⟩ := hother 8080 rfl hkind
  have htexts : plain.text = "example.com/a" ∧ withPort.text = "example.com:8080/a" ∧
      host.scheme = "example.com" := by decide +kernel
  have hsame := hplain.2 rfl
  have hdiffers : normalize withPort.text ≠ normalize ("http://" ++ withPort.text) :=
    fun h => Option.some_ne_none 8080 (hport.1 h)
  rw [htexts.1] at hsame
  rw [htexts.2.1] at hdiffers hparse
  exact ⟨hsame, hdiffers, u, hparse, hscheme.trans htexts.2.2, hhost⟩

/-- A host with a port is taken for a scheme with a path. -/
theorem port_makes_scheme :
    (normalize "localhost:8080").toOption = some "localhost:8080" ∧
      (normalize "http://localhost:8080").toOption = some "http://localhost:8080/" := by
  decide +kernel

end Address
end MacroReplay
