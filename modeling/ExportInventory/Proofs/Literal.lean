import ExportInventory.Text.Bracket
import ExportInventory.Text.Comment

/-!
String literals in a text whose comments are blanked. A literal is kept as it stands, unless a
backslash in it hides a line break. Such a literal is read on behind its opening quote, and is kept
just if no comment is found in it then.
-/
namespace ExportInventory.Text

theorem literalRest_prefix {quote : CodePoint} {t u : Text} (rest : literalRest quote t = some u) :
    u <+: t := by
  fun_induction literalRest quote t generalizing u with
  | case2 more =>
    obtain rfl := Option.some.inj rest
    simp
  | case5 d more _ _ ih =>
    obtain ⟨v, inner, rfl⟩ := Option.map_eq_some_iff.mp rest
    simpa using ih inner
  | case7 c more _ _ _ ih =>
    obtain ⟨v, inner, rfl⟩ := Option.map_eq_some_iff.mp rest
    simpa using ih inner
  | _ => cases rest

private theorem blockRest_prefix {t u : Text} (rest : blockRest t = some u) : u <+: t := by
  fun_induction blockRest t generalizing u with
  | case3 c d more ends =>
    obtain rfl := Option.some.inj rest
    simp
  | case4 c d more _ ih =>
    obtain ⟨v, inner, rfl⟩ := Option.map_eq_some_iff.mp rest
    simpa using ih inner
  | _ => cases rest

private theorem firstPiece_cases (c : CodePoint) (rest : Text) :
    firstPiece c rest = .plain c ∨
      (∃ t, t <+: rest ∧ firstPiece c rest = .literal (c :: t)) ∨
      ∃ t, t <+: rest ∧ c = .scalar '/' ∧ firstPiece c rest = .comment (c :: t) := by
  unfold firstPiece
  split
  · split
    · rename_i t inside
      exact .inr (.inl ⟨t, literalRest_prefix inside, rfl⟩)
    · exact .inl rfl
  · split
    · rename_i slash
      split
      · exact .inl rfl
      · rename_i d more
        split
        · split
          · rename_i t inside
            have ahead := blockRest_prefix inside
            exact .inr (.inr ⟨d :: t, by simpa using ahead, slash, rfl⟩)
          · exact .inl rfl
        · split
          · have ahead : lineRest more <+: more := List.takeWhile_prefix _
            exact .inr (.inr ⟨d :: lineRest more, by simpa using ahead, slash, rfl⟩)
          · exact .inl rfl
    · exact .inl rfl

theorem pieces_spec (t : Text) :
    (pieces t).flatMap Piece.text = t ∧
      ∀ u, .comment u ∈ pieces t → u.head? = some (.scalar '/') := by
  fun_induction pieces t with
  | case1 => simp
  | case2 c rest piece ih =>
    have first : piece.text <+: c :: rest ∧
        ∀ u, .comment u = piece → u.head? = some (.scalar '/') := by
      rcases firstPiece_cases c rest with plain | ⟨t, ahead, literal⟩ | ⟨t, ahead, slash, comment⟩
      · simp [piece, plain, Piece.text]
      · simpa [piece, literal, Piece.text] using ahead
      · simpa [piece, comment, Piece.text] using ⟨ahead, slash⟩
    constructor
    · rw [List.flatMap_cons, ih.1]
      exact List.prefix_iff_eq_append.mp first.1
    · intro u member
      rcases List.mem_cons.mp member with here | behind
      · exact first.2 u here
      · exact ih.2 u behind

def Piece.isComment : Piece → Bool
  | plain _ => false
  | literal _ => false
  | comment _ => true

/-- What stands in front of the first comment. -/
def untilComment (t : Text) : Text :=
  ((pieces t).takeWhile fun p => !p.isComment).flatMap Piece.text

theorem Piece.blanked_eq_text {p : Piece} (other : p.isComment = false) : p.blanked = p.text := by
  cases p with
  | plain c => rfl
  | literal t => rfl
  | comment t => cases other

private theorem prefix_blanked_iff {ps : List Piece}
    (slashes : ∀ w, .comment w ∈ ps → w.head? = some (.scalar '/')) {u : Text}
    (ahead : u <+: ps.flatMap Piece.text) :
    u <+: ps.flatMap Piece.blanked ↔
      u <+: (ps.takeWhile fun p => !p.isComment).flatMap Piece.text := by
  induction ps generalizing u with
  | nil => rfl
  | cons p ps ih =>
    rw [List.flatMap_cons] at ahead ⊢
    cases comment : p.isComment with
    | true =>
      -- the comment starts with a slash in the text and with a space where it is blanked
      cases p with
      | plain c => cases comment
      | literal w => cases comment
      | comment w =>
        obtain ⟨more, rfl⟩ := List.head?_eq_some_iff.mp (slashes w List.mem_cons_self)
        have nothing : u <+: (Piece.comment (.scalar '/' :: more)).blanked ++
            ps.flatMap Piece.blanked ↔ u = [] := by
          cases u with
          | nil => simp
          | cons c u =>
            have first := (List.cons_prefix_cons.mp ahead).1
            simp [Piece.blanked, first]
        rw [nothing, List.takeWhile_cons_of_neg (by simp [comment]), List.flatMap_nil,
          List.prefix_nil]
    | false =>
      rw [Piece.blanked_eq_text comment, List.takeWhile_cons_of_pos (by simp [comment]),
        List.flatMap_cons]
      have later {v : Text} := ih (u := v) fun w member => slashes w (List.mem_cons_of_mem p member)
      rcases List.prefix_or_prefix_of_prefix ahead (List.prefix_append _ _) with inside | ⟨v, rfl⟩
      · exact iff_of_true (inside.trans (List.prefix_append _ _))
          (inside.trans (List.prefix_append _ _))
      · rw [List.prefix_append_right_inj] at ahead ⊢
        rw [List.prefix_append_right_inj]
        exact later ahead

/-- Up to the first comment, and no further, the text stays as it is. -/
theorem prefix_blankComments_iff {u t : Text} (ahead : u <+: t) :
    u <+: blankComments t ↔ u <+: untilComment t := by
  obtain ⟨whole, slashes⟩ := pieces_spec t
  apply prefix_blanked_iff slashes
  rwa [whole]

private theorem blankComments_append {p : Text}
    (plain : ∀ c ∈ p, c.isQuote = false ∧ c ≠ .scalar '/')
    (t : Text) : blankComments (p ++ t) = p ++ blankComments t := by
  induction p with
  | nil => rfl
  | cons c p ih =>
    simp only [List.mem_cons, forall_eq_or_imp] at plain
    have first : firstPiece c (p ++ t) = .plain c := by
      have quote := plain.1.1
      simp only [CodePoint.isQuote, Bool.or_eq_false_iff, decide_eq_false_iff_not] at quote
      rw [firstPiece.eq_def, if_neg (by simp [quote]), if_neg plain.1.2]
    have later := ih plain.2
    rw [blankComments] at later ⊢
    rw [List.cons_append, pieces, first, List.flatMap_cons]
    simpa [Piece.text, Piece.blanked] using later

/-- A part of a literal: a code point as it stands, or one that a backslash hides. -/
inductive LiteralPart where
  | plain (c : CodePoint)
  | hidden (c : CodePoint)
deriving DecidableEq

namespace LiteralPart

def text : LiteralPart → Text
  | plain c => [c]
  | hidden c => [.scalar '\\', c]

/-- Neither the quote nor a backslash stands for itself, and a line break only in a template. -/
def fits (quote : CodePoint) : LiteralPart → Bool
  | plain c => c ≠ quote && c ≠ .scalar '\\' && (c ≠ .scalar '\n' || quote = .scalar '\x60')
  | hidden _ => true

end LiteralPart

/-- A complete string or template literal. -/
structure StringLiteral where
  quote : CodePoint
  parts : List LiteralPart
  isQuote : quote.isQuote = true := by decide
  fits : ∀ part ∈ parts, part.fits quote = true := by decide

namespace StringLiteral

/-- The literal without its opening quote. -/
def inside (l : StringLiteral) : Text := l.parts.flatMap LiteralPart.text ++ [l.quote]

def text (l : StringLiteral) : Text := l.quote :: l.inside

/-- A backslash stands right in front of a line break. -/
def hidesBreak (l : StringLiteral) : Bool := l.parts.contains (.hidden (.scalar '\n'))

private theorem literalRest_plain {quote c : CodePoint}
    (fits : (LiteralPart.plain c).fits quote = true)
    (t : Text) : literalRest quote (c :: t) = (literalRest quote t).map (c :: ·) := by
  simp only [LiteralPart.fits, Bool.and_eq_true, Bool.or_eq_true, decide_eq_true_eq] at fits
  obtain ⟨⟨other, solid⟩, line⟩ := fits
  rw [literalRest.eq_def]
  dsimp only
  rw [if_neg other, if_neg solid, if_neg]
  intro ⟨isBreak, noTemplate⟩
  exact line.elim (· isBreak) noTemplate

private theorem literalRest_hidden {quote : CodePoint} (isQuote : quote.isQuote = true)
    (d : CodePoint)
    (t : Text) :
    literalRest quote (.scalar '\\' :: d :: t) =
      if d = .scalar '\n' then none
      else (literalRest quote t).map fun u => .scalar '\\' :: d :: u := by
  rw [literalRest, if_neg, if_pos rfl]
  intro same
  rw [← same] at isQuote
  cases isQuote

private theorem literalRest_parts {quote : CodePoint} (isQuote : quote.isQuote = true)
    {parts : List LiteralPart} (fits : ∀ part ∈ parts, part.fits quote = true) (q : Text) :
    literalRest quote (parts.flatMap LiteralPart.text ++ quote :: q) =
      if parts.contains (.hidden (.scalar '\n')) then none
      else some (parts.flatMap LiteralPart.text ++ [quote]) := by
  induction parts with
  | nil =>
    rw [List.flatMap_nil, List.nil_append, literalRest.eq_def]
    simp
  | cons part parts ih =>
    simp only [List.mem_cons, forall_eq_or_imp] at fits
    have later := ih fits.2
    cases part with
    | plain c =>
      rw [List.flatMap_cons, LiteralPart.text, List.append_assoc, List.singleton_append,
        literalRest_plain fits.1, later]
      simp [apply_ite (Option.map _)]
    | hidden d =>
      rw [List.flatMap_cons, LiteralPart.text, List.append_assoc, List.cons_append,
        List.singleton_append, literalRest_hidden isQuote, later]
      by_cases line : d = .scalar '\n'
      · simp [line]
      · simp [line, apply_ite (Option.map _), Ne.symm line]

variable (l : StringLiteral) (q : Text)

private theorem literalRest_inside :
    literalRest l.quote (l.inside ++ q) = if l.hidesBreak then none else some l.inside := by
  rw [inside, List.append_assoc, List.singleton_append, literalRest_parts l.isQuote l.fits,
    hidesBreak]

theorem firstPiece_literal :
    firstPiece l.quote (l.inside ++ q) =
      if l.hidesBreak then .plain l.quote else .literal l.text := by
  have quotes : l.quote = .scalar '"' ∨ l.quote = .scalar '\'' ∨ l.quote = .scalar '\x60' := by
    have isQuote := l.isQuote
    simp only [CodePoint.isQuote, Bool.or_eq_true, decide_eq_true_eq] at isQuote
    rcases isQuote with (single | double) | template
    · exact .inr (.inl single)
    · exact .inl double
    · exact .inr (.inr template)
  rw [firstPiece.eq_def, if_pos quotes, literalRest_inside]
  cases l.hidesBreak <;> rfl

private theorem blankComments_literal :
    blankComments (l.text ++ q) =
      if l.hidesBreak then l.quote :: blankComments (l.inside ++ q)
      else l.text ++ blankComments q := by
  have first := l.firstPiece_literal q
  rw [text, List.cons_append, blankComments, pieces, first]
  cases l.hidesBreak with
  | true => simp [Piece.text, Piece.blanked, blankComments]
  | false =>
    rw [if_neg Bool.false_ne_true, if_neg Bool.false_ne_true, List.flatMap_cons]
    dsimp only [Piece.text, Piece.blanked]
    rw [text, ← List.cons_append, List.drop_left]
    rfl

end StringLiteral

/-- Behind code points that start neither a literal nor a comment, a literal is kept just if no
backslash in it hides a line break, or no comment starts in what is read of it otherwise. -/
theorem literal_kept_iff {p : Text} (plain : ∀ c ∈ p, c.isQuote = false ∧ c ≠ .scalar '/')
    (l : StringLiteral) (q : Text) :
    p ++ l.text <+: blankComments (p ++ (l.text ++ q)) ↔
      l.hidesBreak = false ∨ l.inside <+: untilComment (l.inside ++ q) := by
  rw [blankComments_append plain, List.prefix_append_right_inj, l.blankComments_literal]
  cases l.hidesBreak with
  | false => simp
  | true =>
    have rest := prefix_blankComments_iff (List.prefix_append l.inside q)
    simp [StringLiteral.text, rest]

/-- Both marks of a comment and a hidden quote in one literal. -/
def markedLiteral : StringLiteral :=
  { quote := .scalar '"'
    parts := [.plain (.scalar '/'), .plain (.scalar '/'), .hidden (.scalar '"'),
      .plain (.scalar '/'), .plain (.scalar '*')] }

theorem markedLiteral_kept :
    ofString "a = \"//\\\"/*\"" <+: blankComments (ofString "a = \"//\\\"/*\"; // b") ∧
      markedLiteral.hidesBreak = false := by
  have visible : markedLiteral.hidesBreak = false := by decide
  exact ⟨(literal_kept_iff (p := ofString "a = ") (by decide) markedLiteral
    (ofString "; // b")).mpr (.inl visible), visible⟩

def brokenLiteral : StringLiteral :=
  { quote := .scalar '\''
    parts := [.hidden (.scalar '\n'), .plain (.scalar '/'), .plain (.scalar '/')] }

theorem brokenLiteral_blanked :
    brokenLiteral.text = ofString "'\\\n//'" ∧
      blankComments brokenLiteral.text = ofString "'\\\n   " ∧
      ¬brokenLiteral.text <+: blankComments brokenLiteral.text := by
  decide +kernel

end ExportInventory.Text
