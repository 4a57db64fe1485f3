import ExportInventory.Text.Basic

/-!
Comments and string literals of a text, found from left to right, and the text with its comments
blanked out.
-/
namespace ExportInventory.Text

inductive Piece where
  | plain (c : CodePoint)
  | literal (t : Text)
  | comment (t : Text)
deriving DecidableEq, Repr

namespace Piece

def text : Piece → Text
  | plain c => [c]
  | literal t => t
  | comment t => t

def blanked : Piece → Text
  | plain c => [c]
  | literal t => t
  | comment t => t.map (fun (c : CodePoint) => if c = '\n' then c else ' ')

end Piece

/-- The rest of a string literal up to and with its quote. A backslash hides the character after
it, though not a line break; only templates hold line breaks. -/
def literalRest (quote : CodePoint) : Text → Option Text
  | [] => none
  | c :: rest =>
    if c = quote then some [c]
    else if c = '\\' then
      match rest with
      | [] => none
      | d :: more => if d = '\n' then none else (literalRest quote more).map (c :: d :: ·)
    else if c = '\n' ∧ quote ≠ '\x60' then none
    else (literalRest quote rest).map (c :: ·)

def blockRest : Text → Option Text
  | [] => none
  | [_] => none
  | c :: d :: rest =>
    if c = '*' ∧ d = '/' then some [c, d] else (blockRest (d :: rest)).map (c :: ·)

def lineRest (t : Text) : Text := t.takeWhile (fun (c : CodePoint) => c ≠ '\n')

def firstPiece (c : CodePoint) (rest : Text) : Piece :=
  if c = '"' ∨ c = '\'' ∨ c = '\x60' then
    match literalRest c rest with
    | some t => .literal (c :: t)
    | none => .plain c
  else if c = '/' then
    match rest with
    | [] => .plain c
    | d :: more =>
      if d = '*' then
        match blockRest more with
        | some t => .comment (c :: d :: t)
        | none => .plain c
      else if d = '/' then .comment (c :: d :: lineRest more)
      else .plain c
  else .plain c

theorem firstPiece_text_pos (c : CodePoint) (rest : Text) : 0 < (firstPiece c rest).text.length := by
  unfold firstPiece
  repeat' split
  all_goals simp [Piece.text]

def pieces : Text → List Piece
  | [] => []
  | c :: rest =>
    let piece := firstPiece c rest
    piece :: pieces ((c :: rest).drop piece.text.length)
termination_by t => t.length
decreasing_by
  have := firstPiece_text_pos c rest
  simp only [List.length_drop, List.length_cons]
  omega

def blankComments (t : Text) : Text := (pieces t).flatMap Piece.blanked

end ExportInventory.Text
