import MacroReplay.Proofs.Handler.Dispatch
import MacroReplay.Proofs.Retry.Cancellation
import MacroReplay.Proofs.Variable.Assignment
import MacroReplay.Proofs.Variable.Expansion

/-!
# Texts that are read from a page

`TAG` with `EXTRACT=` assigns the text that it read to `!EXTRACT`. An assignment to `!EXTRACT` appends to
what was extracted before, but the word `NULL`, in any letter case, empties it, and a page may have this
word as well as a script.

* `Store.Records` — a store after a text was assigned to `!EXTRACT`;
* `Browser.textReplied?` — a text with which the browser replied to a lookup;
* `Browser.result_of_textReplied` — a lookup ends with the first such reply;
* `Browser.extraction_appends_iff` — what becomes of the text.
-/

namespace MacroReplay

open Variable (SameName rule?_extract)

/-! ## Assignments to `!EXTRACT` -/

namespace Store

/-- `after` is the store in which `!EXTRACT` shows a text and other texts are extracted, and which is
otherwise the same. -/
structure Records (s : Store) (text : String) (texts : List String) (after : Store) : Prop where
  extracted : after.extracted = texts
  current : ∀ now spelling, SameName spelling "!EXTRACT" →
    after.get now spelling = some (.text text)
  others : ∀ now other, ¬SameName other "!EXTRACT" → ¬SameName other "!EXTRACTADD" →
    after.get now other = s.get now other
  loopAssigned : after.loopAssigned = s.loopAssigned

/-- `!EXTRACT` collects the texts that it is given, and the word `NULL` empties it. -/
theorem keep_extract (s : Store) (t : String) :
    s.keep "!EXTRACT" (.text t) =
      if isNullWord t then
        ({ s with values := s.values.put "!EXTRACT" Value.empty, extracted := [] }, Value.empty)
      else
        ({ s with values := s.values.put "!EXTRACT" (.text t), extracted := s.extracted ++ [t] },
          .text t) := by
  have hrender : (Value.text t).render = t := rfl
  unfold keep
  rw [if_pos rfl, hrender]

/-- Whatever else is stored stays the same when `!EXTRACT` is given a text. -/
theorem records_keep {s : Store} {t text : String} {texts : List String}
    (hcurrent : (s.keep "!EXTRACT" (.text t)).2 = .text text)
    (hextracted : (s.keep "!EXTRACT" (.text t)).1.extracted = texts) :
    s.Records text texts (s.keep "!EXTRACT" (.text t)).1 := by
  have hassigns := assigns_of_set (set_of_free rule?_extract s (.text t))
  refine ⟨hextracted, ?_, ?_, hassigns.loopAssigned (by decide)⟩
  · intro now spelling hspelling
    rw [hassigns.current now spelling hspelling, hcurrent]
  · intro now other hother hadd
    exact hassigns.others now other hother (fun h => absurd h.1 (by decide)) fun h => hadd h.2

/-- A text is appended to those before, or it empties them. -/
theorem exists_set_extract (s : Store) (t : String) :
    ∃ change after, s.set "!EXTRACT" (.text t) = .ok (change, after) ∧
      (isNullWord t = false → s.Records t (s.extracted ++ [t]) after) ∧
      (isNullWord t = true → s.Records "" [] after) := by
  refine ⟨_, _, set_of_free rule?_extract s (.text t), ?_, ?_⟩
  · intro hnull
    refine records_keep ?_ ?_
    · rw [keep_extract, hnull]
      rfl
    · rw [keep_extract, hnull]
      rfl
  · intro hnull
    refine records_keep ?_ ?_
    · rw [keep_extract, hnull]
      rfl
    · rw [keep_extract, hnull]
      rfl

end Store

/-! ## Lookups -/

namespace Browser

variable {χ : Interface}

/-- The text with which the browser replied to a lookup, if it did. -/
def textReplied? : Event (Timed (Host χ)) → Option String
  | ⟨.ask (.inl (.tag _ _)) _ _, ending⟩ =>
      match ending.outcome with
      | .replied (.ok text) => text
      | _ => none
  | _ => none

/-- A lookup ends with the first reply that has a text. -/
theorem result_of_textReplied {b : Budget} {l : Locator} {a : TagAction} {attempts : Nat}
    {elapsed : Duration} {last : Option String} {h : History (Timed (Host χ))}
    {out : Except Fault CommandResult}
    (hrun : (Retry.attempt (ι := Host χ) b (.inl (.tag l a)) tagResult attempts elapsed last).Runs h out)
    {t : String} (ht : t ∈ h.filterMap textReplied?) : out = .ok (.withOutput t) := by
  induction attempts generalizing elapsed last h with
  | zero =>
      obtain ⟨rfl, -⟩ := Proc.runs_done_iff.1 hrun
      cases ht
  | succ attempts ih =>
      rcases Proc.runs_call_iff.1 hrun with ⟨⟨took, outcome⟩, h', rfl, hrest⟩
      rw [Proc.done_bind] at hrest
      -- An attempt that ends the lookup without a text leaves nothing that `t` could come from.
      cases outcome with
      | stopped =>
          obtain ⟨rfl, -⟩ := Proc.runs_done_iff.1 hrest
          cases ht
      | expired =>
          obtain ⟨rfl, -⟩ := Proc.runs_done_iff.1 hrest
          cases ht
      | faulted f =>
          obtain ⟨rfl, -⟩ := Proc.runs_done_iff.1 hrest
          cases ht
      | replied reply =>
          cases reply with
          | ok text =>
              cases text with
              | none =>
                  obtain ⟨rfl, -⟩ := Proc.runs_done_iff.1 hrest
                  cases ht
              | some text =>
                  obtain ⟨rfl, rfl⟩ := Proc.runs_done_iff.1 hrest
                  rw [List.mem_singleton.1 ht]
                  rfl
          | error e =>
              -- The failure itself is no text, so the text comes from an attempt behind it.
              have hbehind : t ∈ h'.filterMap textReplied? := ht
              dsimp only at hrest
              split at hrest
              · obtain ⟨rfl, -⟩ := Proc.runs_done_iff.1 hrest
                cases hbehind
              · split at hrest
                · obtain ⟨rfl, -⟩ := Proc.runs_done_iff.1 hrest
                  cases hbehind
                · rcases Proc.runs_call_iff.1 hrest with ⟨rest, h'', rfl, hagain⟩
                  rw [Proc.done_bind] at hagain
                  split at hagain
                  · obtain ⟨rfl, -⟩ := Proc.runs_done_iff.1 hagain
                    cases hbehind
                  · exact ih hagain hbehind

/-! ## The tag command -/

/-- `TAG` with `EXTRACT=` reads from the element, if its parameters are in order. -/
theorem action_of_extract {i : Invocation} {l : Locator} {a : TagAction}
    (hextract : (i.param? "EXTRACT").isSome = true) (hrequest : tagRequest i = .ok (l, a)) :
    ∃ kind, a = .extract kind := by
  obtain ⟨written, hwritten⟩ := Option.isSome_iff_exists.1 hextract
  cases hlocator : tagLocator i with
  | error e => simp [tagRequest, hlocator, bind, Except.bind] at hrequest
  | ok locator =>
      cases hcontent : i.param? "CONTENT" with
      | some content =>
          -- The two keys do not go together.
          simp [tagRequest, tagAction, hlocator, hcontent, hwritten, bind, Except.bind] at hrequest
      | none =>
          simp only [tagRequest, tagAction, hlocator, hcontent, hwritten, bind, Except.bind] at hrequest
          cases hrequest
          exact ⟨_, rfl⟩

/-- What the handler does with a text that was read. -/
theorem runs_tagHandler {ctx : Context Backup} {h : History (Timed (Host χ))}
    {left : Report × Memory Backup} (hrun : (tagHandler ctx : Doing χ).Runs h left)
    (hextract : (ctx.invocation.param? "EXTRACT").isSome = true) {t : String}
    (ht : t ∈ h.filterMap textReplied?) :
    ∃ change after, ctx.memory.vars.set "!EXTRACT" (.text t) = .ok (change, after) ∧
      left = (.finished (.withOutput t), { ctx.memory with vars := after }) := by
  cases hrequest : tagRequest ctx.invocation with
  | error e =>
      simp only [tagHandler, hrequest, Context.withValue] at hrun
      obtain ⟨rfl, -⟩ := Proc.runs_done_iff.1 hrun
      cases ht
  | ok request =>
      obtain ⟨l, a⟩ := request
      obtain ⟨kind, rfl⟩ := action_of_extract hextract hrequest
      simp only [tagHandler, hrequest, Context.withValue] at hrun
      rcases Proc.runs_bind_iff.1 hrun with ⟨h₁, h₂, out, rfl, hlookup, hnext⟩
      have hset := fun text => Store.set_of_free rule?_extract ctx.memory.vars (.text text)
      -- Behind the lookup there are no calls, so the text was the reply of an attempt.
      have hquiet : h₂ = [] := by
        cases out with
        | error f => exact (Proc.runs_done_iff.1 hnext).1
        | ok r =>
            dsimp only at hnext
            split at hnext
            · exact (Proc.runs_done_iff.1 hnext).1
            · rw [hset] at hnext
              exact (Proc.runs_done_iff.1 hnext).1
      rw [hquiet, List.append_nil] at ht
      cases result_of_textReplied hlookup ht
      refine ⟨_, _, hset t, ?_⟩
      have htext : extractedText? (.extract kind) (.withOutput t) = some t := rfl
      simp only [htext, hset] at hnext
      exact (Proc.runs_done_iff.1 hnext).2

/-- The handler of `TAG` is the one that is found, whatever else the engine has. -/
theorem find?_tag {c : Command} (hname : Text.upper c.name = "TAG") (e : Engine (Host χ) Backup) :
    (install e).registry.find? c.name = some tagHandler := by
  rw [find?_install, hname]
  rfl

/-- A command that read a text succeeds with it. The text is appended to those that were extracted before
unless it is the word `NULL`, which empties them instead; no other variable changes. -/
theorem extraction_appends_iff {e : Engine (Host χ) Backup} {c : Command} {m : Memory Backup}
    {h : History (Timed (Host χ))} {d : Dispatched Backup} (hname : Text.upper c.name = "TAG")
    (hextract : (c.param? "EXTRACT").isSome = true) (hrun : ((install e).dispatch c m).Runs h d)
    {t : String} (ht : t ∈ h.filterMap textReplied?) :
    d.result = .withOutput t ∧ d.memory.shared = m.shared ∧
      (m.vars.Records t (m.vars.extracted ++ [t]) d.memory.vars ↔ Store.isNullWord t = false) ∧
      (Store.isNullWord t = true → m.vars.Records "" [] d.memory.vars) := by
  rcases Engine.runs_dispatch_iff.1 hrun with ⟨before, after, h', rfl, hdispatched, -⟩
  have hreplied : t ∈ h'.filterMap textReplied? := by
    simpa [textReplied?] using ht
  rcases Registry.runs_dispatch hdispatched with
    ⟨hsilent, -⟩ | ⟨handler, report, -, hfind, hhandled, hresult⟩
  · -- A line with a flaw makes no calls.
    rw [hsilent] at hreplied
    cases hreplied
  · cases hfind.symm.trans (find?_tag hname e)
    have hasked : (((install e).contextAt c m before).invocation.param? "EXTRACT").isSome = true := by
      rw [Engine.contextAt, Invocation.param?_ofCommand, Option.isSome_map]
      exact hextract
    obtain ⟨change, vars, hset, hleft⟩ := runs_tagHandler hhandled hasked hreplied
    obtain ⟨hreport, hmemory⟩ := Prod.mk.inj hleft
    obtain ⟨change', vars', hset', happended, hemptied⟩ := m.vars.exists_set_extract t
    obtain ⟨-, rfl⟩ := Prod.mk.inj (Except.ok.inj (hset.symm.trans hset'))
    rw [hresult, hreport, hmemory]
    refine ⟨rfl, rfl, ⟨?_, happended⟩, hemptied⟩
    -- If the null word was appended too, the extracted texts would be empty and not empty.
    intro hrecords
    rw [← Bool.not_eq_true]
    intro hnull
    have hnone := (hemptied hnull).extracted.symm.trans hrecords.extracted
    simp at hnone

/-! ## A page that has the word `NULL` -/

/-- A lookup whose first attempt succeeds. -/
theorem runs_retry_once {ι : Interface} (b : Budget) (c : ι.Call) (judge : ι.Reply c → CommandResult)
    {reply : ι.Reply c} (hsuccess : (judge reply).success = true) (took : Duration) :
    (retry b c judge).Runs
      [⟨.ask c (some (max (b.timeout - .zero) b.interval)) true, ⟨took, .replied reply⟩⟩]
      (.ok (judge reply)) := by
  obtain ⟨left, hfirst⟩ := Retry.exists_retry_eq b c judge
  rw [hfirst]
  refine Proc.runs_call_iff.2 ⟨⟨took, .replied reply⟩, [], rfl, ?_⟩
  simp only [Proc.done_bind, hsuccess, Bool.true_or, if_true]
  exact .done _

def readLink : Command where
  name := "TAG"
  parameters := [⟨some "SELECTOR", "a", "SELECTOR=a"⟩, ⟨some "EXTRACT", "TXT", "EXTRACT=TXT"⟩]
  raw := "TAG SELECTOR=a EXTRACT=TXT"
  line := 1
  flaw := none

/-- The request does not depend on the variables. -/
theorem tagRequest_readLink (s : Store) (now : Calendar.DateTime) :
    tagRequest (.ofCommand s now readLink) = .ok (.selector "a", .extract (.parse "TXT")) := by
  have hlink : s.expand now "a" = "a" := (Store.verbatim_of_plain (by decide) s now).1
  have hkind : s.expand now "TXT" = "TXT" := (Store.verbatim_of_plain (by decide) s now).1
  have hpath : readLink.param? "XPATH" = none := by decide
  have hselector : readLink.param? "SELECTOR" = some ⟨some "SELECTOR", "a", "SELECTOR=a"⟩ := by decide
  have hcontent : readLink.param? "CONTENT" = none := by decide
  have hextract : readLink.param? "EXTRACT" = some ⟨some "EXTRACT", "TXT", "EXTRACT=TXT"⟩ := by decide
  simp only [tagRequest, tagLocator, tagAction, Invocation.param?_ofCommand, hpath, hselector, hcontent,
    hextract, Option.map_some, Option.map_none, hlink, hkind]
  rfl

def linkRead (e : Engine (Host χ) Backup) (m : Memory Backup) (now : Reading) (t : String) :
    History (Timed (Host χ)) :=
  let b := e.settings.pacing.tagBudget m.vars
  [⟨.clock, now⟩,
    ⟨.ask (.inl (.tag (.selector "a") (.extract (.parse "TXT"))))
      (some (max (b.timeout - .zero) b.interval)) true, ⟨.zero, .replied (.ok (some t))⟩⟩,
    ⟨.clock, now⟩]

/-- The text of the link becomes the output, and is given to `!EXTRACT`. -/
theorem runs_readLink (e : Engine (Host χ) Backup) (m : Memory Backup) (now : Reading) (t : String) :
    ((install e).dispatch readLink m).Runs (linkRead (install e) m now t)
      ⟨.withOutput t, { m with vars := (m.vars.keep "!EXTRACT" (.text t)).1 }, now.epochMs,
        now.elapsed - now.elapsed⟩ := by
  have hname : Text.upper readLink.name = "TAG" := by decide
  have hsuccess : (tagResult (.ok (some t))).success = true := rfl
  have hlookup := runs_retry_once (ι := Host χ) ((install e).settings.pacing.tagBudget m.vars)
    (.inl (.tag (.selector "a") (.extract (.parse "TXT")))) tagResult hsuccess .zero
  have htext : extractedText? (.extract (.parse "TXT")) (.withOutput t) = some t := rfl
  refine Engine.runs_dispatch_iff.2 ⟨now, now, [_], rfl, ?_, rfl, rfl⟩
  rw [Registry.dispatch_of_found ((install e).contextAt readLink m now) rfl (find?_tag hname e)]
  refine Proc.runs_bind_iff.2 ⟨[_], [], (.finished (.withOutput t), _), rfl, ?_, .done _⟩
  simp only [tagHandler, Engine.contextAt, tagRequest_readLink, Context.withValue]
  refine Proc.runs_bind_iff.2 ⟨[_], [], _, rfl, hlookup, ?_⟩
  simp only [tagResult, htext, Store.set_of_free rule?_extract]
  exact .done _

/-- With a blank in front of it `null` is not the word that empties, and is appended. -/
theorem extraction_appends_iff_blank :
    let e : Engine (Host .empty) Backup := ⟨{}, .builtin, .empty, none, none⟩
    let m : Memory Backup := ⟨(Store.initial.keep "!EXTRACT" (.text "price")).1, none⟩
    let now : Reading := ⟨.zero, 0, ⟨2026, 1, 2, 3, 4, 5⟩⟩
    ∃ d, ((install e).dispatch readLink m).Runs (linkRead (install e) m now " null") d ∧
      d.result = .withOutput " null" ∧ d.memory.vars.extracted = ["price", " null"] := by
  intro e m now
  have hrun := runs_readLink e m now " null"
  have htext : " null" ∈ (linkRead (install e) m now " null").filterMap textReplied? :=
    List.mem_singleton.2 rfl
  have hbefore : m.vars.extracted = ["price"] := by
    show (Store.initial.keep "!EXTRACT" (.text "price")).1.extracted = ["price"]
    rw [Store.keep_extract, if_neg (by decide)]
    rfl
  obtain ⟨hresult, -, hrecords, -⟩ :=
    extraction_appends_iff (c := readLink) (by decide) (by decide) hrun htext
  have hextracted := (hrecords.2 (by decide)).extracted
  rw [hbefore] at hextracted
  exact ⟨_, hrun, hresult, hextracted⟩

/-- A page whose text is `null` makes what was extracted before it disappear. -/
theorem extraction_of_null_empties :
    let e : Engine (Host .empty) Backup := ⟨{}, .builtin, .empty, none, none⟩
    let now : Reading := ⟨.zero, 0, ⟨2026, 1, 2, 3, 4, 5⟩⟩
    ∃ first second,
      ((install e).dispatch readLink ⟨.initial, none⟩).Runs
          (linkRead (install e) ⟨.initial, none⟩ now "price") first ∧
        first.memory.vars.extracted = ["price"] ∧
        ((install e).dispatch readLink first.memory).Runs
          (linkRead (install e) first.memory now "null") second ∧
        second.result = .withOutput "null" ∧ second.memory.vars.extracted = [] := by
  intro e now
  refine ⟨_, _, runs_readLink e ⟨.initial, none⟩ now "price", ?_,
    runs_readLink e _ now "null", rfl, ?_⟩
  · rw [Store.keep_extract, if_neg (by decide)]
    rfl
  · rw [Store.keep_extract, if_pos (by decide)]

end Browser
end MacroReplay
