import MacroReplay.Proofs.Variable.Expansion

/-!
# What an expansion can see

An expansion goes over the parts of a text once, and notes the names that it meets. Which names these
are is settled by the text. Two stores in which the names that were noted have the same values give the
same text, whatever else they hold, and whatever their values look like.

* `Expansion.flatMap_source_pieces` — the parts of a text are the whole text;
* `Expansion.Progress` — an expansion that goes from part to part;
* `Store.report_eq` — where it ends, the text is the expansion and the names are its references;
* `Store.sees_only_named` — what the names are, and that nothing else matters.
-/

namespace MacroReplay
namespace Expansion

open Calendar (DateTime)

/-! ## The parts in their text -/

def Piece.source : Piece → List Char
  | .literal cs => cs
  | .hole inner => opening ++ inner ++ closing

/-- No character of a text is lost when it is cut. -/
theorem flatMap_source_pieces (cs : List Char) : (pieces cs).flatMap Piece.source = cs := by
  induction cs using pieces.induct with
  | case1 cs hopening =>
      have hplain : ¬opening <:+: cs := (Text.cutAtText_eq_none_iff (by decide)).1 hopening
      rw [pieces_of_plain hplain, List.flatMap_singleton, Piece.source]
  | case2 cs before after hopening hclosing =>
      have hcs : cs = before ++ opening ++ after :=
        ((Text.cutAtText_eq_some_iff (by decide)).1 hopening).1
      have hopen : ¬closing <:+: after := (Text.cutAtText_eq_none_iff (by decide)).1 hclosing
      rw [pieces_of_unclosed hopening hopen, hcs]
      simp [Piece.source]
  | case3 cs before after hopening inner rest hclosing _ ih =>
      have hcs : cs = before ++ opening ++ after :=
        ((Text.cutAtText_eq_some_iff (by decide)).1 hopening).1
      have hafter : after = inner ++ closing ++ rest :=
        ((Text.cutAtText_eq_some_iff (by decide)).1 hclosing).1
      rw [pieces_of_closed hopening hclosing, List.flatMap_cons, List.flatMap_cons, ih, hcs, hafter]
      simp [Piece.source]

/-- What stands between the braces stands in the text. -/
theorem infix_of_hole_mem {inner cs : List Char} (h : .hole inner ∈ pieces cs) : inner <:+: cs := by
  obtain ⟨before, after, hsplit⟩ := List.append_of_mem h
  have hwhole := flatMap_source_pieces cs
  rw [hsplit, List.flatMap_append, List.flatMap_cons, Piece.source] at hwhole
  exact ⟨before.flatMap Piece.source ++ opening, closing ++ after.flatMap Piece.source, by
    simpa using hwhole⟩

/-- The name of a request is what was written, or what stands before the colon of a pattern. -/
theorem prefix_of_request? {inner : List Char} {r : Request} (h : request? inner = some r) :
    r.name.toList <+: (Text.trimChars inner).map Char.toUpper := by
  simp only [request?] at h
  split at h
  · split at h
    · rename_i head pattern hcut
      split at h
      · rename_i hhead
        cases h
        have hword : "!NOW".toList <+: "!NOW:".toList := by decide
        exact hword.trans (clock_of_cutAt_colon hcut hhead)
      · cases h
        simp [Request.name]
    · cases h
      simp [Request.name]
  · cases h

/-- Every name that a text refers to is written in it, in some letter case. -/
theorem infix_of_name? {p : Piece} {cs : List Char} {name : String} (hp : p ∈ pieces cs)
    (hname : p.name? = some name) : name.toList <:+: cs.map Char.toUpper := by
  cases p with
  | literal ds => cases hname
  | hole inner =>
      obtain ⟨r, hr, rfl⟩ := Option.map_eq_some_iff.1 hname
      have hinner : inner.map Char.toUpper <:+: cs.map Char.toUpper :=
        (infix_of_hole_mem hp).map Char.toUpper
      obtain ⟨front, back, hcut, -, -⟩ := (Text.trimmed_trimChars inner).cut
      have htrimmed : Text.trimChars inner <:+: inner := ⟨front, back, by simp [← hcut]⟩
      have hwritten := (prefix_of_request? hr).isInfix
      exact hwritten.trans ((htrimmed.map Char.toUpper).trans hinner)

/-! ## From part to part -/

/-- An expansion as far as it has come: the text so far, and the names met so far. -/
structure Progress where
  text : String
  names : List String

/-- A part is written behind the text, and its name is noted behind the others if it is new. -/
def Progress.add (now : DateTime) (s : Store) (p : Progress) (part : Piece) : Progress where
  text := p.text ++ String.ofList (part.render now s)
  names :=
    match part.name? with
    | some name => if name ∈ p.names then p.names else p.names ++ [name]
    | none => p.names

theorem eraseDups_concat (names : List String) (name : String) :
    (names ++ [name]).eraseDups =
      if name ∈ names.eraseDups then names.eraseDups else names.eraseDups ++ [name] := by
  by_cases hmem : name ∈ names
  · simp [List.eraseDups_append, List.removeAll, hmem]
  · simp [List.eraseDups_append, List.eraseDups_cons, List.removeAll, hmem]

/-- Piece by piece, the text and its references are gathered. -/
theorem foldl_add (now : DateTime) (s : Store) (parts : List Piece) :
    parts.foldl (Progress.add now s) ⟨"", []⟩ =
      ⟨String.ofList (parts.flatMap (Piece.render now s)), (parts.filterMap Piece.name?).eraseDups⟩ := by
  -- From the end, since a name is noted behind those that were met before it.
  induction parts using List.reverseRecOn with
  | nil => rfl
  | append_singleton parts part ih =>
      rw [List.foldl_concat, ih, Progress.add]
      cases hname : part.name? with
      | none => simp [hname]
      | some name => simp [hname, eraseDups_concat]

/-! ## First occurrences -/

/-- Repetitions go, and what is left stays in the order of its first occurrences. -/
theorem pairwise_eraseDups (names : List String) :
    names.eraseDups.Pairwise fun x y => names.idxOf x < names.idxOf y := by
  induction names using List.reverseRecOn with
  | nil => exact .nil
  | append_singleton names name ih =>
      have hkept : ∀ {x}, x ∈ names → (names ++ [name]).idxOf x = names.idxOf x := fun hx =>
        List.idxOf_append_of_mem hx
      have hfront : names.eraseDups.Pairwise fun x y =>
          (names ++ [name]).idxOf x < (names ++ [name]).idxOf y := by
        refine ih.imp_of_mem ?_
        intro x y hx hy hlt
        rwa [hkept (List.mem_eraseDups.1 hx), hkept (List.mem_eraseDups.1 hy)]
      rw [eraseDups_concat]
      split
      · exact hfront
      · -- A new name stands behind all the others.
        rename_i hnew
        rw [List.mem_eraseDups] at hnew
        refine List.pairwise_append.2 ⟨hfront, List.pairwise_singleton _ _, ?_⟩
        intro x hx y hy
        rw [List.mem_singleton.1 hy, hkept (List.mem_eraseDups.1 hx),
          List.idxOf_append_of_notMem hnew]
        have := List.idxOf_lt_length_of_mem (List.mem_eraseDups.1 hx)
        omega

end Expansion

namespace Store

open Calendar (DateTime)
open Expansion

/-- The expansion of a text with the names that it met, from part to part. -/
def report (s : Store) (now : DateTime) (text : String) : Progress :=
  (pieces text.toList).foldl (Progress.add now s) ⟨"", []⟩

theorem report_eq (s : Store) (now : DateTime) (text : String) :
    s.report now text = ⟨s.expand now text, references text⟩ :=
  foldl_add now s (pieces text.toList)

/-- The names that a text refers to, in its order, each as often as it occurs. -/
def mentions (text : String) : List String :=
  (pieces text.toList).filterMap Piece.name?

/-- What an expansion can see of a store. -/
structure SeesOnlyNamed (text : String) : Prop where
  /-- The report is the expansion and the references. -/
  report_eq : ∀ (s : Store) now, s.report now text = ⟨s.expand now text, references text⟩
  /-- Stores that agree on the names that one of them reports cannot be told apart by the text. -/
  insulated : ∀ (s s' : Store) now now', "!NOW" ∉ (s.report now text).names →
    (∀ name ∈ (s.report now text).names, s.get now name = s'.get now' name) →
      s'.report now' text = s.report now text ∧ s'.evaluate now' text = s.evaluate now text
  /-- All stores report the same names. -/
  names_eq : ∀ (s s' : Store) now now', (s'.report now' text).names = (s.report now text).names
  nodup : ∀ (s : Store) now, (s.report now text).names.Nodup
  upper : ∀ (s : Store) now, ∀ name ∈ (s.report now text).names, Text.upper name = name
  /-- The names that are reported are those that the text refers to, by their first occurrences. -/
  mentioned : ∀ (s : Store) now name, name ∈ (s.report now text).names ↔ name ∈ mentions text
  ordered : ∀ (s : Store) now, (s.report now text).names.Pairwise fun x y =>
    (mentions text).idxOf x < (mentions text).idxOf y
  /-- And they are written in the text, in some letter case. -/
  written : ∀ (s : Store) now, ∀ name ∈ (s.report now text).names,
    name.toList <:+: text.toList.map Char.toUpper

theorem upper_of_mem_references {text name : String} (h : name ∈ references text) :
    Text.upper name = name := by
  have hcanonical := canonical_of_mem_references h
  apply String.toList_injective
  calc (Text.upper name).toList
      = (Text.upper (Variable.canonical name)).toList := by rw [hcanonical]
    _ = (Variable.canonical name).toList := by
        rw [Text.upper, String.toList_ofList, Variable.toList_canonical, List.map_map]
        exact List.map_congr_left fun c _ => Text.toUpper_toUpper c
    _ = name.toList := by rw [hcanonical]

theorem sees_only_named (text : String) : SeesOnlyNamed text := by
  have hnames : ∀ (s : Store) now, (s.report now text).names = references text := by
    intro s now
    rw [Store.report_eq]
  refine ⟨fun s now => Store.report_eq s now text, ?_, ?_, ?_, ?_, ?_, ?_, ?_⟩
  · intro s s' now now' htime hvalues
    rw [hnames] at htime hvalues
    -- The time does not count, since `!NOW` is not among the names.
    have hexpand : s'.expand now' text = s.expand now text :=
      (expand_congr hvalues fun hmem => absurd hmem htime).symm
    refine ⟨?_, ?_⟩
    · rw [Store.report_eq, Store.report_eq, hexpand]
    · rw [evaluate, evaluate, hexpand]
  · intro s s' now now'
    rw [hnames, hnames]
  · intro s now
    rw [hnames]
    exact nodup_eraseDups _
  · intro s now name hmem
    rw [hnames] at hmem
    exact upper_of_mem_references hmem
  · intro s now name
    rw [hnames, references, List.mem_eraseDups, mentions]
  · intro s now
    rw [hnames]
    exact pairwise_eraseDups (mentions text)
  · intro s now name hmem
    rw [hnames] at hmem
    obtain ⟨p, hp, hname⟩ := mem_references_iff.1 hmem
    exact infix_of_name? hp hname

end Store
end MacroReplay
