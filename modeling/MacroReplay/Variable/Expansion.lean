import MacroReplay.Expression.Grammar
import MacroReplay.Text.Split
import MacroReplay.Variable.Store

/-!
# Placeholders

`{{!NAME}}` in a text stands for the value of a variable, and `{{!NOW:pattern}}` for the time. A text
is cut into literal parts and holes once, from the left; what is put into a hole is never looked at
again.
-/

namespace MacroReplay

open Calendar (DateTime)

namespace Expansion

/-- A part of a text: characters that stand for themselves, or what stands between the braces of a
hole. -/
inductive Piece where
  | literal (cs : List Char)
  | hole (inner : List Char)
  deriving DecidableEq, Repr

/-- The braces around a hole. -/
def opening : List Char := ['\x7b', '\x7b']

def closing : List Char := ['\x7d', '\x7d']

theorem length_cutAtText (sep cs : List Char) :
    ∀ before after, Text.cutAtText sep cs = some (before, after) →
      after.length + sep.length + before.length = cs.length := by
  induction cs with
  | nil =>
      intro before after h
      cases sep <;> simp_all [Text.cutAtText]
  | cons c cs ih =>
      intro before after h
      simp only [Text.cutAtText] at h
      split at h
      · rename_i hp
        simp only [Option.some.injEq, Prod.mk.injEq] at h
        obtain ⟨rfl, rfl⟩ := h
        have hle := (List.isPrefixOf_iff_prefix.mp hp).length_le
        simp only [List.length_drop, List.length_nil]
        omega
      · simp only [Option.map_eq_some_iff] at h
        obtain ⟨⟨a, b⟩, hcut, heq⟩ := h
        have hlen := ih a b hcut
        cases heq
        simp only [List.length_cons]
        omega

/-- What stands behind a hole is shorter than the text with the hole. -/
theorem length_behind_hole {cs before after inner rest : List Char}
    (hopening : Text.cutAtText opening cs = some (before, after))
    (hclosing : Text.cutAtText closing after = some (inner, rest)) : rest.length < cs.length := by
  have h₁ := length_cutAtText _ _ _ _ hopening
  have h₂ := length_cutAtText _ _ _ _ hclosing
  simp only [opening, closing, List.length_cons, List.length_nil] at h₁ h₂
  omega

/-- The parts of a text. Braces that are not closed stand for themselves, with all that follows. -/
def pieces (cs : List Char) : List Piece :=
  match h : Text.cutAtText opening cs with
  | none => [.literal cs]
  | some (before, after) =>
      match h' : Text.cutAtText closing after with
      | none => [.literal before, .literal (opening ++ after)]
      | some (inner, rest) =>
          have : rest.length < cs.length := length_behind_hole h h'
          .literal before :: .hole inner :: pieces rest
termination_by cs.length

inductive Request where
  | variable (name : String)
  | time (pattern : String)
  deriving DecidableEq, Repr

/-- The name under which a request is counted. -/
def Request.name : Request → String
  | .variable name => name
  | .time _ => "!NOW"

/-- The request of a hole; a hole that does not start with `!` is no request. -/
def request? (inner : List Char) : Option Request :=
  let cs := Text.trimChars inner
  match cs with
  | '!' :: _ =>
      match Text.cutAt (· == ':') cs with
      | some (head, pattern) =>
          if head.map Char.toUpper = "!NOW".toList then some (.time (String.ofList pattern))
          else some (.variable (String.ofList (cs.map Char.toUpper)))
      | none => some (.variable (String.ofList (cs.map Char.toUpper)))
  | _ => none

def Request.answer (now : DateTime) (s : Store) : Request → String
  | .variable name => s.getText now name
  | .time pattern => now.format pattern

def Piece.render (now : DateTime) (s : Store) : Piece → List Char
  | .literal cs => cs
  | .hole inner =>
      match request? inner with
      | some r => (r.answer now s).toList
      | none => opening ++ inner ++ closing

/-- The name that a part refers to. -/
def Piece.name? : Piece → Option String
  | .literal _ => none
  | .hole inner => (request? inner).map Request.name

end Expansion

namespace Store

def expand (s : Store) (now : DateTime) (text : String) : String :=
  String.ofList ((Expansion.pieces text.toList).flatMap (Expansion.Piece.render now s))

/-- The names that the placeholders of a text refer to, each once, in the order in which they first
occur. -/
def references (text : String) : List String :=
  ((Expansion.pieces text.toList).filterMap Expansion.Piece.name?).eraseDups

/-- The value of an expression after its placeholders were replaced. -/
def evaluate (s : Store) (now : DateTime) (text : String) : Value :=
  Expression.evaluate (s.expand now text)

end Store
end MacroReplay
