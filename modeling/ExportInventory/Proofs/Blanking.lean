import ExportInventory.Proofs.Head
import ExportInventory.Proofs.Literal
import ExportInventory.Proofs.Promotion

/-!
Texts with blanked comments. A text is read in one way only into literals, comments and code points
by themselves. Blanking puts a space for each code point of a comment but its line breaks, and keeps
all else where it is. So indexes and lines mean the same before and after, and the lines in a report
are those of the text itself.
-/
namespace ExportInventory

namespace Text

/-- The end of a block comment, and the first one in what follows its start. -/
def EndsBlock (inside : Text) : Prop :=
  ¬[.scalar '*', .scalar '/'] <:+: inside ++ [CodePoint.scalar '*']

/-- A literal or a comment as it is found in front of a text: a block comment up to its first end, a
line comment up to the end of its line. -/
inductive Found : Piece → Text → Prop
  | literal (l : StringLiteral) (visible : l.hidesBreak = false) (rest : Text) :
      Found (.literal l.text) rest
  | block (inside rest : Text) (first : EndsBlock inside) :
      Found (.comment ('/' :: '*' :: (inside ++ [.scalar '*', .scalar '/']))) rest
  | line (inside rest : Text) (single : .scalar '\n' ∉ inside)
      (ends : ∀ c ∈ rest.head?, c = .scalar '\n') :
      Found (.comment ('/' :: '/' :: inside)) rest

/-- The text is read into the pieces. A code point stands by itself only if nothing is found
there. -/
inductive Scanned : Text → List Piece → Prop
  | nil : Scanned [] []
  | found {p : Piece} {rest : Text} {ps : List Piece} (here : Found p rest)
      (later : Scanned rest ps) : Scanned (p.text ++ rest) (p :: ps)
  | plain {c : CodePoint} {rest : Text} {ps : List Piece}
      (nothing : ∀ p rest', Found p rest' → p.text ++ rest' ≠ c :: rest)
      (later : Scanned rest ps) : Scanned (c :: rest) (.plain c :: ps)

private theorem exists_literalParts {quote : CodePoint} {t u : Text}
    (rest : literalRest quote t = some u) :
    ∃ parts : List LiteralPart, (∀ part ∈ parts, part.fits quote = true) ∧
      .hidden (.scalar '\n') ∉ parts ∧ u = parts.flatMap LiteralPart.text ++ [quote] := by
  fun_induction literalRest quote t generalizing u with
  | case2 more =>
    obtain rfl := Option.some.inj rest
    exact ⟨[], by simp, by simp, rfl⟩
  | case5 d more line _ ih =>
    obtain ⟨v, inner, rfl⟩ := Option.map_eq_some_iff.mp rest
    obtain ⟨parts, fits, shown, rfl⟩ := ih inner
    refine ⟨.hidden d :: parts, List.forall_mem_cons.mpr ⟨rfl, fits⟩, ?_, rfl⟩
    simp [shown, Ne.symm line]
  | case7 c more other solid line ih =>
    obtain ⟨v, inner, rfl⟩ := Option.map_eq_some_iff.mp rest
    obtain ⟨parts, fits, shown, rfl⟩ := ih inner
    have here : (LiteralPart.plain c).fits quote = true := by
      simp only [LiteralPart.fits, Bool.and_eq_true, Bool.or_eq_true, decide_eq_true_eq]
      exact ⟨⟨other, solid⟩, by tauto⟩
    exact ⟨.plain c :: parts, List.forall_mem_cons.mpr ⟨here, fits⟩, by simpa using shown, rfl⟩
  | _ => cases rest

private theorem endsBlock_nil : EndsBlock [] := by
  intro inside
  have short := inside.length_le
  simp at short

private theorem endsBlock_cons {c : CodePoint} {inside : Text} {d : CodePoint} {more rest : Text}
    (ahead : inside ++ .scalar '*' :: rest = d :: more) : EndsBlock (c :: inside) ↔
      ¬(c = .scalar '*' ∧ d = .scalar '/') ∧ EndsBlock inside := by
  have second : [CodePoint.scalar '/'] <+: inside ++ [.scalar '*'] ↔ d = .scalar '/' := by
    cases inside with
    | nil =>
      obtain ⟨rfl, _⟩ := List.cons.inj ahead
      simp
    | cons e inside =>
      obtain ⟨rfl, _⟩ := List.cons.inj ahead
      simp [eq_comm]
  rw [EndsBlock, List.cons_append, List.infix_cons_iff, not_or, List.cons_prefix_cons, second,
    eq_comm (b := c), EndsBlock]

theorem blockRest_eq_some_iff {t u : Text} : blockRest t = some u ↔ ∃ inside rest,
    t = inside ++ .scalar '*' :: .scalar '/' :: rest ∧
      u = inside ++ [.scalar '*', .scalar '/'] ∧ EndsBlock inside := by
  constructor
  · intro found
    fun_induction blockRest t generalizing u with
    | case3 c d more ends =>
      obtain rfl := Option.some.inj found
      obtain ⟨rfl, rfl⟩ := ends
      exact ⟨[], more, rfl, rfl, endsBlock_nil⟩
    | case4 c d more other ih =>
      obtain ⟨v, inner, rfl⟩ := Option.map_eq_some_iff.mp found
      obtain ⟨inside, rest, split, rfl, first⟩ := ih inner
      refine ⟨c :: inside, rest, by rw [split]; rfl, rfl, ?_⟩
      exact (endsBlock_cons split.symm).mpr ⟨other, first⟩
    | _ => cases found
  · rintro ⟨inside, rest, rfl, rfl, first⟩
    induction inside with
    | nil => rfl
    | cons c inside ih =>
      obtain ⟨d, more, split⟩ :
          ∃ d more, inside ++ .scalar '*' :: .scalar '/' :: rest = d :: more :=
        List.exists_cons_of_ne_nil (by simp)
      obtain ⟨other, later⟩ := (endsBlock_cons split).mp first
      have inner := ih later
      rw [split] at inner
      rw [List.cons_append, split, blockRest, if_neg other, inner]
      rfl

private theorem lineRest_append {inside rest : Text} (single : .scalar '\n' ∉ inside)
    (ends : ∀ c ∈ rest.head?, c = .scalar '\n') : lineRest (inside ++ rest) = inside := by
  have before : ∀ c ∈ inside, decide (c ≠ .scalar '\n') = true := by
    intro c member
    simp only [decide_eq_true_eq]
    rintro rfl
    exact single member
  rw [lineRest, List.takeWhile_append_of_pos before]
  cases rest with
  | nil => simp
  | cons c rest => simp [ends c rfl]

private theorem quote_cases {c : CodePoint} : c.isQuote = true ↔
    c = .scalar '"' ∨ c = .scalar '\'' ∨ c = .scalar '\x60' := by
  simp only [CodePoint.isQuote, Bool.or_eq_true, decide_eq_true_eq]
  tauto

private theorem firstPiece_of_found {p : Piece} {rest : Text} (found : Found p rest) {c : CodePoint}
    {t : Text} (ahead : p.text ++ rest = c :: t) : firstPiece c t = p := by
  cases found with
  | literal l visible rest =>
    have split : l.quote = c ∧ l.inside ++ rest = t := List.cons.inj ahead
    rw [← split.1, ← split.2, l.firstPiece_literal, visible, if_neg Bool.false_ne_true]
  | block inside rest first =>
    have split : .scalar '/' = c ∧
        .scalar '*' :: (inside ++ [.scalar '*', .scalar '/'] ++ rest) = t := List.cons.inj ahead
    have ends : blockRest (inside ++ [.scalar '*', .scalar '/'] ++ rest) =
        some (inside ++ [.scalar '*', .scalar '/']) :=
      blockRest_eq_some_iff.mpr ⟨inside, rest, by simp, rfl, first⟩
    rw [← split.1, ← split.2, firstPiece, if_neg (by decide), if_pos rfl, if_pos rfl, ends]
  | line inside rest single ends =>
    have split : .scalar '/' = c ∧ .scalar '/' :: (inside ++ rest) = t := List.cons.inj ahead
    rw [← split.1, ← split.2, firstPiece, if_neg (by decide), if_pos rfl, if_neg (by decide),
      if_pos rfl, lineRest_append single ends]

private theorem found_firstPiece (c : CodePoint) (t : Text) : firstPiece c t = .plain c ∨
    ∃ rest, Found (firstPiece c t) rest ∧ (firstPiece c t).text ++ rest = c :: t := by
  unfold firstPiece
  split
  · rename_i quotes
    split
    · rename_i u inside
      obtain ⟨parts, fits, shown, rfl⟩ := exists_literalParts inside
      obtain ⟨rest, rfl⟩ := literalRest_prefix inside
      let l : StringLiteral := ⟨c, parts, quote_cases.mpr quotes, fits⟩
      exact .inr ⟨rest, .literal l (by simpa [StringLiteral.hidesBreak, l] using shown) rest, rfl⟩
    · exact .inl rfl
  · split
    · rename_i slash
      subst slash
      split
      · exact .inl rfl
      · rename_i d more
        split
        · rename_i star
          subst star
          split
          · rename_i u ends
            obtain ⟨inside, rest, rfl, rfl, first⟩ := blockRest_eq_some_iff.mp ends
            exact .inr ⟨rest, .block inside rest first, by simp [Piece.text]⟩
          · exact .inl rfl
        · split
          · rename_i slash
            subst slash
            have whole : lineRest more ++ more.dropWhile (fun c => c ≠ .scalar '\n') = more :=
              List.takeWhile_append_dropWhile
            refine .inr ⟨more.dropWhile (fun c => c ≠ .scalar '\n'),
              .line (lineRest more) _ ?_ ?_, ?_⟩
            · intro member
              simpa using List.mem_takeWhile_imp member
            · intro c head
              have stop := List.head?_dropWhile_not (fun c => decide (c ≠ .scalar '\n')) more
              rw [Option.mem_def.mp head] at stop
              simpa using stop
            · rw [Piece.text, List.cons_append, List.cons_append, whole]
          · exact .inl rfl
    · exact .inl rfl

namespace Found

variable {p : Piece} {rest : Text} (found : Found p rest)
include found

private theorem ne_plain (c : CodePoint) : p ≠ .plain c := by
  cases found <;> simp

private theorem text_ne_nil : p.text ≠ [] := by
  cases found <;> simp [Piece.text, StringLiteral.text]

end Found

private theorem pieces_cons {c : CodePoint} {t : Text} : pieces (c :: t) =
    firstPiece c t :: pieces ((c :: t).drop (firstPiece c t).text.length) := by
  rw [pieces]

/-- There is one way to read a text. -/
theorem scanned_iff {t : Text} {ps : List Piece} : Scanned t ps ↔ ps = pieces t := by
  constructor
  · intro scanned
    induction scanned with
    | nil => rw [pieces]
    | @found p rest ps here later ih =>
      obtain ⟨c, t, split⟩ : ∃ c t, p.text ++ rest = c :: t :=
        List.exists_cons_of_ne_nil (by simp [here.text_ne_nil])
      rw [split, pieces_cons, firstPiece_of_found here split, ← split, List.drop_left, ih]
    | @plain c rest ps nothing later ih =>
      rcases found_firstPiece c rest with plain | ⟨rest', found, split⟩
      · rw [pieces_cons, plain, ih]
        rfl
      · exact absurd split (nothing _ _ found)
  · rintro rfl
    fun_induction pieces t with
    | case1 => exact .nil
    | case2 c rest piece ih =>
      rcases found_firstPiece c rest with plain | ⟨rest', found, split⟩
      · have single : piece = .plain c := plain
        rw [single] at ih ⊢
        refine .plain ?_ ih
        intro p rest' found split
        exact found.ne_plain c ((firstPiece_of_found found split).symm.trans plain)
      · have whole : piece.text ++ rest' = c :: rest := split
        rw [← whole, List.drop_left] at ih ⊢
        exact .found found ih

/-- The code point at the index belongs to the piece. -/
def Covers (ps : List Piece) (p : Piece) (i : Nat) : Prop :=
  ∃ before behind, ps = before ++ p :: behind ∧ (before.flatMap Piece.text).length ≤ i ∧
    i < (before.flatMap Piece.text).length + p.text.length

/-- The second text is the first with its comments blanked, if the first is read into the pieces. -/
structure Blanks (ps : List Piece) (t u : Text) : Prop where
  length : u.length = t.length
  kept (i : Nat) : u[i]? = t[i]? ∨
    (∃ w, Covers ps (.comment w) i) ∧ t[i]? ≠ some (.scalar '\n') ∧ u[i]? = some (.scalar ' ')
  comment (i : Nat) (w : Text) : Covers ps (.comment w) i → t[i]? ≠ some (.scalar '\n') →
    u[i]? = some (.scalar ' ')
  literal (i : Nat) (w : Text) : Covers ps (.literal w) i → u[i]? = t[i]?
  line (i : Nat) : t[i]? = some (.scalar '\n') → u[i]? = some (.scalar '\n')

theorem length_blanked (p : Piece) : p.blanked.length = p.text.length := by
  cases p with
  | plain c => rfl
  | literal w => rfl
  | comment w => exact List.length_map _

theorem length_flatMap_blanked (ps : List Piece) :
    (ps.flatMap Piece.blanked).length = (ps.flatMap Piece.text).length := by
  simp only [List.length_flatMap, length_blanked]

private theorem exists_covers {ps : List Piece} {i : Nat}
    (inside : i < (ps.flatMap Piece.text).length) :
    ∃ p, Covers ps p i := by
  induction ps generalizing i with
  | nil => cases inside
  | cons p ps ih =>
    rw [List.flatMap_cons, List.length_append] at inside
    by_cases here : i < p.text.length
    · exact ⟨p, [], ps, rfl, Nat.zero_le i, by simpa using here⟩
    · obtain ⟨p', before, behind, rfl, low, high⟩ := ih (i := i - p.text.length) (by omega)
      refine ⟨p', p :: before, behind, rfl, ?_, ?_⟩
      all_goals
        rw [List.flatMap_cons, List.length_append]
        omega

theorem getElem?_of_covers {ps : List Piece} {p : Piece} {i : Nat} (covers : Covers ps p i) :
    ∃ k < p.text.length, (ps.flatMap Piece.text)[i]? = p.text[k]? ∧
      (ps.flatMap Piece.blanked)[i]? = p.blanked[k]? := by
  obtain ⟨before, behind, rfl, low, high⟩ := covers
  have short : i - (before.flatMap Piece.text).length < p.text.length := by omega
  refine ⟨_, short, ?_, ?_⟩
  · rw [List.flatMap_append, List.getElem?_append_right low, List.flatMap_cons,
      List.getElem?_append_left short]
  · rw [← length_flatMap_blanked] at low short ⊢
    rw [← length_blanked] at short
    rw [List.flatMap_append, List.getElem?_append_right low, List.flatMap_cons,
      List.getElem?_append_left short]

private theorem getElem?_of_covers_comment {ps : List Piece} {w : Text} {i : Nat}
    (covers : Covers ps (.comment w) i) :
    ∃ c, (ps.flatMap Piece.text)[i]? = some c ∧ (ps.flatMap Piece.blanked)[i]? =
      some (if c = .scalar '\n' then c else .scalar ' ') := by
  obtain ⟨k, inside, text, blanked⟩ := getElem?_of_covers covers
  have entry := List.getElem?_eq_getElem inside
  refine ⟨_, text.trans entry, ?_⟩
  have same : w[k]? = some ((Piece.comment w).text[k]) := entry
  rw [blanked, Piece.blanked, List.getElem?_map, same]
  rfl

private theorem getElem?_of_covers_other {ps : List Piece} {p : Piece} (other : p.isComment = false)
    {i : Nat} (covers : Covers ps p i) :
    (ps.flatMap Piece.blanked)[i]? = (ps.flatMap Piece.text)[i]? := by
  obtain ⟨k, _, text, blanked⟩ := getElem?_of_covers covers
  rw [blanked, text, Piece.blanked_eq_text other]

private theorem blanks_pieces (ps : List Piece) :
    Blanks ps (ps.flatMap Piece.text) (ps.flatMap Piece.blanked) := by
  have length := length_flatMap_blanked ps
  have comment {i : Nat} {w : Text} (covers : Covers ps (.comment w) i)
      (other : (ps.flatMap Piece.text)[i]? ≠ some (.scalar '\n')) :
      (ps.flatMap Piece.blanked)[i]? = some (.scalar ' ') := by
    obtain ⟨c, text, blanked⟩ := getElem?_of_covers_comment covers
    rw [blanked, if_neg]
    rintro rfl
    exact other text
  have changed (i : Nat) : (ps.flatMap Piece.blanked)[i]? = (ps.flatMap Piece.text)[i]? ∨
      (∃ w, Covers ps (.comment w) i) ∧ (ps.flatMap Piece.text)[i]? ≠ some (.scalar '\n') := by
    by_cases inside : i < (ps.flatMap Piece.text).length
    · obtain ⟨p, covers⟩ := exists_covers inside
      cases p with
      | plain c => exact .inl (getElem?_of_covers_other rfl covers)
      | literal w => exact .inl (getElem?_of_covers_other rfl covers)
      | comment w =>
        obtain ⟨c, text, blanked⟩ := getElem?_of_covers_comment covers
        by_cases line : c = .scalar '\n'
        · exact .inl (by rw [blanked, text, if_pos line])
        · exact .inr ⟨⟨w, covers⟩, by simpa [text] using line⟩
    · rw [List.getElem?_eq_none (by omega), List.getElem?_eq_none (by omega)]
      exact .inl rfl
  constructor
  case length => exact length
  case kept =>
    intro i
    rcases changed i with same | ⟨⟨w, covers⟩, other⟩
    · exact .inl same
    · exact .inr ⟨⟨w, covers⟩, other, comment covers other⟩
  case comment => exact fun i w => comment
  case literal => exact fun i w => getElem?_of_covers_other rfl
  case line =>
    intro i line
    rcases changed i with same | ⟨_, other⟩
    · rw [same, line]
    · exact absurd line other

private theorem flatMap_pieces (t : Text) : (pieces t).flatMap Piece.text = t := (pieces_spec t).1

private theorem blanks_blankComments (t : Text) : Blanks (pieces t) t (blankComments t) := by
  have blanks := blanks_pieces (pieces t)
  rwa [flatMap_pieces] at blanks

private theorem lineOf_of_blanks {ps : List Piece} {t u : Text} (blanks : Blanks ps t u) (i : Nat) :
    u.lineOf i = t.lineOf i := by
  have marks : u.map (fun c => c == .scalar '\n') = t.map fun c => c == .scalar '\n' := by
    apply List.ext_getElem?
    intro k
    rw [List.getElem?_map, List.getElem?_map]
    rcases blanks.kept k with same | ⟨_, other, space⟩
    · rw [same]
    · have bound : k < t.length := blanks.length ▸ (List.getElem?_eq_some_iff.mp space).choose
      rw [List.getElem?_eq_getElem bound] at other
      have solid : t[k] ≠ .scalar '\n' := fun same => other (congrArg some same)
      rw [space, List.getElem?_eq_getElem bound, Option.map_some, Option.map_some,
        beq_false_of_ne solid]
      rfl
  have count (v : Text) :
      v.lineOf i = ((v.map fun c => c == .scalar '\n').take i).countP id + 1 := by
    rw [lineOf, List.count, ← List.map_take, List.countP_map]
    rfl
  rw [count, count, marks]

private theorem startsWith_of_blanks {ps : List Piece} {t u : Text} (blanks : Blanks ps t u)
    {w : String}
    (solid : .scalar ' ' ∉ ofString w) {i : Nat} (starts : startsWith (u.drop i) w = true) :
    startsWith (t.drop i) w = true := by
  rw [startsWith, List.isPrefixOf_iff_prefix] at starts ⊢
  rw [List.prefix_iff_getElem?] at starts ⊢
  intro k bound
  have entry := starts k bound
  rw [List.getElem?_drop] at entry ⊢
  rcases blanks.kept (i + k) with same | ⟨_, _, space⟩
  · rw [← same, entry]
  · rw [entry] at space
    exact absurd (Option.some.inj space ▸ List.getElem_mem bound) solid

end Text

namespace Sketch

open Matcher

def startWords : List String := "export" :: Region.headWords

private theorem startsWith_of_anonymousDefault {t : Text} {i : Nat}
    (found : (i, ()) ∈ anonymousDefault.all t) : Text.startsWith (t.drop i) "export" = true := by
  obtain ⟨_, before, behind, fits⟩ := mem_all found
  obtain ⟨_, _, exported, _⟩ := bind_eq_some fits
  obtain ⟨_, _, word, _⟩ := bind_eq_some exported
  exact (literal_eq_some word).1

private theorem Region.IsHead.startsWith {name : String} {kind : RegionKind} {read : Text}
    (head : IsHead name kind read) (rest : Text) :
    ∃ w ∈ headWords, Text.startsWith (read ++ rest) w = true := by
  have starts (w : String) (more : Text) :
      Text.startsWith (Text.ofString w ++ more ++ rest) w = true := by
    rw [Text.startsWith, List.isPrefixOf_iff_prefix, List.append_assoc]
    exact List.prefix_append _ _
  cases head with
  | ofFunction _ _ => exact ⟨"function", by decide, starts _ _⟩
  | ofVariable known _ _ _ =>
    refine ⟨_, ?_, starts _ _⟩
    have among : ["const", "let", "var"] ⊆ headWords := by decide
    exact among known
  | ofClass _ _ => exact ⟨"class", by decide, starts _ _⟩

namespace Analysis

private theorem exists_startWord {t : Text} {path : String} {fragmentMarkup : Text → Bool}
    {c : Candidate}
    (member : c ∈ (ofText t path fragmentMarkup).candidates) :
    ∃ w ∈ startWords, Text.startsWith (t.blankComments.drop c.region.start) w = true := by
  obtain ⟨found, listed, given⟩ := List.mem_filterMap.mp member
  split at given
  · rename_i region ok
    obtain rfl := Option.some.inj given
    cases anonymous : found.anonymous with
    | true =>
      obtain ⟨s, _, scanned⟩ := FoundExports.exists_scan_of_ordered listed
      have starts := startsWith_of_anonymousDefault (Strategy.anonymous_of_scan scanned anonymous)
      have start : region.start = found.offset := by
        rw [Region.ofExport, if_pos anonymous] at ok
        split at ok
        · rw [← Option.some.inj (Except.ok.inj ok)]
        · cases ok
      exact ⟨"export", List.mem_cons_self, start ▸ starts⟩
    | false =>
      obtain ⟨lead, read, rest, split, head, start, _⟩ := Region.head_of_ofExport anonymous ok
      obtain ⟨w, known, starts⟩ := head.startsWith rest
      refine ⟨w, List.mem_cons_of_mem _ known, ?_⟩
      have text : (ofText t path fragmentMarkup).text = t.blankComments := rfl
      rw [← text, split, start, List.drop_left]
      exact starts
  · cases given

private theorem exists_candidate_of_mem_records {a : Analysis} {r : Record}
    (member : r ∈ a.records) :
    ∃ c ∈ a.candidates, ∃ kind, r = a.record c kind := by
  rw [records_eq] at member
  split at member
  · obtain ⟨c, listed, given⟩ := List.mem_filterMap.mp member
    exact ⟨c, listed, a.exists_record_of_strict given⟩
  · obtain ⟨c, listed, given⟩ := List.mem_filterMap.mp member
    exact ⟨c, listed, a.exists_record_of_permissive given⟩

private theorem exists_candidate_of_line {a : Analysis} {r : Record} {n : Nat}
    (member : r ∈ a.report.records) (line : r.line = some n) :
    ∃ c ∈ a.candidates, (∃ kind, r = a.record c kind) ∧ n = a.text.lineOf c.region.start := by
  have listed := a.records_report_perm.mem_iff.mp member
  split at listed
  · obtain rfl := List.mem_singleton.mp listed
    cases line
  · obtain ⟨c, candidate, kind, rfl⟩ := exists_candidate_of_mem_records listed
    exact ⟨c, candidate, ⟨kind, rfl⟩, (Option.some.inj line).symm⟩

end Analysis

private theorem mem_records_of_mainExport {r : Report} {x : Record} (main : r.mainExport = some x) :
    x ∈ r.records := by
  obtain ⟨i, _, entry⟩ := Option.bind_eq_some_iff.mp main
  exact List.mem_of_getElem? entry

/-- Blanking the comments of a text, which is read in one way only, changes no other code point, and
no line. A line in a report is the one where the text itself has the definition: a word that starts
it stands there in the text, outside of the comments. -/
theorem blanked_lines (t : Text) :
    (∃ ps, t.Scanned ps ∧ (∀ ps', t.Scanned ps' → ps' = ps) ∧ Text.Blanks ps t t.blankComments) ∧
    (∀ i, t.blankComments.lineOf i = t.lineOf i) ∧
    ∀ (path : String) (fragmentMarkup : Text → Bool) (r : Record) (n : Nat),
      (r ∈ (report t path fragmentMarkup).records ∨
        (report t path fragmentMarkup).mainExport = some r) → r.line = some n →
      ∃ c ∈ (Analysis.ofText t path fragmentMarkup).candidates,
        (∃ kind, r = (Analysis.ofText t path fragmentMarkup).record c kind) ∧
        n = t.lineOf c.region.start ∧
        ∃ w ∈ startWords, Text.startsWith (t.drop c.region.start) w = true := by
  have blanks := Text.blanks_blankComments t
  have lines := Text.lineOf_of_blanks blanks
  refine ⟨⟨Text.pieces t, Text.scanned_iff.mpr rfl, fun _ => Text.scanned_iff.mp, blanks⟩,
    lines, ?_⟩
  intro path fragmentMarkup r n reported line
  have member : r ∈ (report t path fragmentMarkup).records :=
    reported.elim id mem_records_of_mainExport
  obtain ⟨c, candidate, described, same⟩ := Analysis.exists_candidate_of_line member line
  obtain ⟨w, known, starts⟩ := Analysis.exists_startWord candidate
  have solid : ∀ w ∈ startWords, CodePoint.scalar ' ' ∉ Text.ofString w := by decide
  refine ⟨c, candidate, described, same.trans (lines _), w, known, ?_⟩
  exact Text.startsWith_of_blanks blanks (solid w known) starts

/-- A comment over two lines, with a definition in it, in front of another definition. -/
example :
    let t := Text.ofString "/* let A = 1;\n*/ export let A = () => <p/>; // a"
    t.blankComments = Text.ofString "             \n   export let A = () => <p/>;     " ∧
      (report t "A.js" fun _ => false).records.map (·.line) = [some 2] := by
  decide +kernel

end Sketch
end ExportInventory
