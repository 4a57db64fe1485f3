import ExportInventory.Proofs.Splitting

/-!
Separators at top level. Reading a text leads from level to level, into brackets, angle brackets and
quotations and out of them. A text is split at the separators that lead back to the outermost level;
what is left between them is stripped, and blank pieces are left out. The parts stay as they are if
one of them is split again, or all of them are joined and split.
-/
namespace ExportInventory.Text

namespace Level

def after (l : Level) (t : Text) : Level := t.foldl next l

/-- A separator outside of quotations that leads to the outermost level. -/
def divides (sep : CodePoint) (l : Level) : Bool := l.quote.isNone && l.next sep = outermost

@[simp] theorem after_nil (l : Level) : l.after [] = l := rfl

@[simp] theorem after_cons (l : Level) (c : CodePoint) (t : Text) :
    l.after (c :: t) = (l.next c).after t := rfl

@[simp] theorem after_append (l : Level) (u v : Text) : l.after (u ++ v) = (l.after u).after v :=
  List.foldl_append

end Level

section Separator

variable (sep : CodePoint)

/-- No separator in the text divides it. -/
def WholeFrom (l : Level) (t : Text) : Prop :=
  ∀ u, u ++ [sep] <+: t → (l.after u).divides sep = false

/-- Pieces of a text that is divided between them, and nowhere else. -/
structure IsCut (pieces : List Text) : Prop where
  whole : ∀ r ∈ pieces, WholeFrom sep .outermost r
  divided : ∀ r ∈ pieces.dropLast, (Level.outermost.after r).divides sep = true

end Separator

section Reading

variable {sep : CodePoint} {l : Level}

theorem wholeFrom_nil : WholeFrom sep l [] := by
  intro u ahead
  simp at ahead

theorem wholeFrom_cons {c : CodePoint} {t : Text} : WholeFrom sep l (c :: t) ↔
    (c = sep → l.divides sep = false) ∧ WholeFrom sep (l.next c) t := by
  constructor
  · intro whole
    constructor
    · rintro rfl
      exact whole [] (by simp)
    · intro u ahead
      exact whole (c :: u) (by simpa using ahead)
  · rintro ⟨first, later⟩ u ahead
    cases u with
    | nil => exact first (List.cons_prefix_cons.mp ahead).1.symm
    | cons d u =>
      rw [List.cons_append, List.cons_prefix_cons] at ahead
      obtain ⟨rfl, ahead⟩ := ahead
      exact later u ahead

theorem wholeFrom_append {u v : Text} : WholeFrom sep l (u ++ v) ↔
    WholeFrom sep l u ∧ WholeFrom sep (l.after u) v := by
  induction u generalizing l with
  | nil => simp [wholeFrom_nil]
  | cons c u ih => rw [List.cons_append, wholeFrom_cons, wholeFrom_cons, ih, and_assoc,
      Level.after_cons]

private theorem whole_or_divided (sep : CodePoint) (l : Level) (t : Text) : WholeFrom sep l t ∨
    ∃ r rest, t = r ++ sep :: rest ∧ WholeFrom sep l r ∧ (l.after r).divides sep = true := by
  induction t generalizing l with
  | nil => exact .inl wholeFrom_nil
  | cons c t ih =>
    by_cases ends : c = sep ∧ l.divides sep = true
    · exact .inr ⟨[], t, by rw [ends.1]; rfl, wholeFrom_nil, ends.2⟩
    have here : c = sep → l.divides sep = false := by simpa using ends
    rcases ih (l.next c) with whole | ⟨r, rest, rfl, whole, divided⟩
    · exact .inl (wholeFrom_cons.mpr ⟨here, whole⟩)
    · exact .inr ⟨c :: r, rest, rfl, wholeFrom_cons.mpr ⟨here, whole⟩, divided⟩

theorem isCut_singleton {r : Text} : IsCut sep [r] ↔ WholeFrom sep .outermost r := by
  constructor
  · intro cut
    exact cut.whole r List.mem_cons_self
  · intro whole
    exact ⟨by simpa using whole, by simp⟩

theorem isCut_cons_cons {r r' : Text} {rs : List Text} : IsCut sep (r :: r' :: rs) ↔
    (WholeFrom sep .outermost r ∧ (Level.outermost.after r).divides sep = true) ∧
      IsCut sep (r' :: rs) := by
  constructor
  · rintro ⟨whole, divided⟩
    rw [List.forall_mem_cons] at whole
    rw [List.dropLast_cons_cons, List.forall_mem_cons] at divided
    exact ⟨⟨whole.1, divided.1⟩, whole.2, divided.2⟩
  · rintro ⟨⟨whole, divided⟩, rest⟩
    refine ⟨List.forall_mem_cons.mpr ⟨whole, rest.whole⟩, ?_⟩
    rw [List.dropLast_cons_cons]
    exact List.forall_mem_cons.mpr ⟨divided, rest.divided⟩

theorem exists_isCut (sep : CodePoint) (t : Text) :
    ∃ pieces, pieces ≠ [] ∧ t = [sep].intercalate pieces ∧ IsCut sep pieces := by
  induction size : t.length using Nat.strongRecOn generalizing t with
  | ind n ih =>
    rcases whole_or_divided sep .outermost t with whole | ⟨r, rest, rfl, whole, divided⟩
    · exact ⟨[t], by simp, by simp, isCut_singleton.mpr whole⟩
    · have shorter : rest.length < n := by
        rw [List.length_append, List.length_cons] at size
        omega
      obtain ⟨pieces, some, rfl, cut⟩ := ih _ shorter rest rfl
      obtain ⟨r', rs, rfl⟩ := List.exists_cons_of_ne_nil some
      refine ⟨r :: r' :: rs, by simp, ?_, isCut_cons_cons.mpr ⟨⟨whole, divided⟩, cut⟩⟩
      simp [List.intercalate]

end Reading

section Steps

variable {sep : CodePoint} (noQuote : sep.isQuote = false)

theorem Level.quote_next {l : Level} (outside : l.quote = none) {c : CodePoint}
    (noQuote : c.isQuote = false) : (l.next c).quote = none := by
  obtain ⟨depth, angle, _⟩ := l
  obtain rfl := outside
  simp only [next, noQuote, Bool.false_eq_true, if_false]
  repeat' split
  all_goals rfl

include noQuote in
private theorem Level.divides_iff {l : Level} (outside : l.quote = none) :
    l.divides sep = true ↔ (l.next sep).depth = 0 ∧ (l.next sep).angle = 0 := by
  have quote := quote_next outside noQuote
  rw [divides, outside]
  generalize l.next sep = l' at quote
  obtain ⟨depth, angle, _⟩ := l'
  obtain rfl := quote
  simp [outermost]

include noQuote in
theorem step_of_level (l : Level) (current : Text) (c : CodePoint) :
    Splitting.step sep ⟨l, current⟩ c =
      if c = sep ∧ l.divides sep = true then (.start, some current.reverse)
      else (⟨l.next c, c :: current⟩, none) := by
  have ends : (l.quote = none ∧ c = sep ∧ (l.next c).depth = 0 ∧ (l.next c).angle = 0) ↔
      c = sep ∧ l.divides sep = true := by
    constructor
    · rintro ⟨outside, rfl, leaves⟩
      exact ⟨rfl, (Level.divides_iff noQuote outside).mpr leaves⟩
    · rintro ⟨rfl, divided⟩
      have outside : l.quote = none := by
        rw [Level.divides, Bool.and_eq_true] at divided
        exact Option.isNone_iff_eq_none.mp divided.1
      exact ⟨outside, rfl, (Level.divides_iff noQuote outside).mp divided⟩
  simp only [Splitting.step, ends]
  split
  · rename_i divided
    have outermost : l.next c = .outermost := by
      rw [divided.1]
      simpa using ((Bool.and_eq_true _ _).mp divided.2).2
    rw [outermost, Splitting.start]
  · rfl

include noQuote in
private theorem splitFrom_whole {l : Level} {r : Text} (whole : WholeFrom sep l r)
    (current : Text) :
    splitFrom sep ⟨l, current⟩ r =
      [strip (current.reverse ++ r)].filter fun p => !p.isEmpty := by
  induction r generalizing l current with
  | nil => rw [splitFrom_nil, List.append_nil]
  | cons c r ih =>
    rw [wholeFrom_cons] at whole
    have step := step_of_level noQuote l current c
    rw [if_neg (by simpa using whole.1)] at step
    rw [splitFrom_goes step, ih whole.2, List.reverse_cons, List.append_assoc,
      List.singleton_append]

include noQuote in
private theorem splitFrom_divided {l : Level} {r : Text} (whole : WholeFrom sep l r)
    (divided : (l.after r).divides sep = true) (current t : Text) :
    splitFrom sep ⟨l, current⟩ (r ++ sep :: t) =
      [strip (current.reverse ++ r)].filter (fun p => !p.isEmpty) ++ splitFrom sep .start t := by
  induction r generalizing l current with
  | nil =>
    have step := step_of_level noQuote l current sep
    rw [if_pos ⟨rfl, divided⟩] at step
    rw [List.nil_append, splitFrom_ends step, List.append_nil]
  | cons c r ih =>
    rw [wholeFrom_cons] at whole
    have step := step_of_level noQuote l current c
    rw [if_neg (by simpa using whole.1)] at step
    rw [List.cons_append, splitFrom_goes step, ih whole.2 divided, List.reverse_cons,
      List.append_assoc, List.singleton_append]

include noQuote in
/-- A text is split between the pieces into which it can be cut. -/
theorem splitTopLevel_of_isCut {pieces : List Text} (cut : IsCut sep pieces) :
    splitTopLevel ([sep].intercalate pieces) sep =
      (pieces.map strip).filter fun p => !p.isEmpty := by
  change splitFrom sep ⟨.outermost, []⟩ _ = _
  induction pieces with
  | nil => rfl
  | cons r rs ih =>
    cases rs with
    | nil =>
      rw [List.intercalate_singleton, splitFrom_whole noQuote (isCut_singleton.mp cut)]
      rfl
    | cons r' rs =>
      obtain ⟨⟨whole, divided⟩, rest⟩ := isCut_cons_cons.mp cut
      rw [List.intercalate_cons_cons, List.append_assoc, List.singleton_append,
        splitFrom_divided noQuote whole divided]
      change _ ++ splitFrom sep ⟨.outermost, []⟩ _ = _
      rw [ih rest, ← List.filter_append]
      rfl

end Steps

namespace Level

/-- What is open as a quotation was opened by a quote. -/
def IsProper (l : Level) : Prop := ∀ q, l.quote = some q → q.isQuote = true

theorem isProper_outermost : outermost.IsProper := by
  intro q inside
  cases inside

private theorem IsProper.next {l : Level} (proper : l.IsProper) (c : CodePoint) :
    (l.next c).IsProper := by
  obtain ⟨depth, angle, quote⟩ := l
  cases quote with
  | some q =>
    intro q' inside
    by_cases ends : c = q
    · simp [Level.next, ends] at inside
    · exact proper q' (by simpa [Level.next, ends] using inside)
  | none =>
    cases isQuote : c.isQuote with
    | true =>
      intro q inside
      simp only [Level.next, isQuote, if_true, Option.some.injEq] at inside
      rwa [← inside]
    | false =>
      intro q inside
      rw [quote_next rfl isQuote] at inside
      cases inside

private theorem IsProper.after {l : Level} (proper : l.IsProper) (t : Text) :
    (l.after t).IsProper := by
  induction t generalizing l with
  | nil => exact proper
  | cons c t ih => exact ih (proper.next c)

private theorem next_blank {l : Level} (proper : l.IsProper) {c : CodePoint}
    (blank : c.isBlank = true) :
    l.next c = l := by
  have plain := CodePoint.not_divider_of_not_mark (CodePoint.not_mark_of_isBlank blank)
  simp only [CodePoint.dividers, List.mem_cons, List.not_mem_nil, or_false, not_or] at plain
  obtain ⟨depth, angle, quote⟩ := l
  cases quote with
  | some q =>
    have other : c ≠ q := by
      rintro rfl
      have isQuote := proper c rfl
      simp [CodePoint.isQuote, plain] at isQuote
    simp [next, other]
  | none => exact next_of_isBlank rfl blank

theorem after_blank {l : Level} (proper : l.IsProper) {b : Text}
    (blank : ∀ c ∈ b, c.isBlank = true) : l.after b = l := by
  induction b with
  | nil => rfl
  | cons c b ih =>
    rw [List.forall_mem_cons] at blank
    rw [after_cons, next_blank proper blank.1, ih blank.2]

private theorem after_strip (t : Text) : outermost.after (strip t) = outermost.after t := by
  obtain ⟨b, b', before, behind, split⟩ := exists_strip t
  conv_rhs => rw [split]
  rw [after_append, after_blank isProper_outermost before, after_append,
    after_blank (isProper_outermost.after _) behind]

end Level

section Parts

variable {sep : CodePoint}

theorem wholeFrom_strip {r : Text} (whole : WholeFrom sep .outermost r) :
    WholeFrom sep .outermost (strip r) := by
  obtain ⟨b, b', before, _, split⟩ := exists_strip r
  rw [split, wholeFrom_append, Level.after_blank Level.isProper_outermost before,
    wholeFrom_append] at whole
  exact whole.2.1

private theorem mem_dropLast_filter_map {α β : Type} {f : α → β} {p : β → Bool} {l : List α} {x : β}
    (member : x ∈ ((l.map f).filter p).dropLast) : ∃ a ∈ l.dropLast, f a = x := by
  cases l using List.reverseRecOn with
  | nil => cases member
  | append_singleton init last =>
    have kept : x ∈ (init.map f).filter p := by
      rw [List.map_append, List.filter_append, List.map_singleton] at member
      cases last : p (f last) with
      | true => rwa [List.filter_singleton, last, cond_true, List.dropLast_concat] at member
      | false =>
        rw [List.filter_singleton, last, cond_false, List.append_nil] at member
        exact List.dropLast_subset _ member
    rw [List.dropLast_concat]
    exact List.mem_map.mp (List.mem_filter.mp kept).1

theorem IsCut.stripped {pieces : List Text} (cut : IsCut sep pieces) :
    IsCut sep ((pieces.map strip).filter fun p => !p.isEmpty) := by
  constructor
  · intro part member
    obtain ⟨r, piece, rfl⟩ := List.mem_map.mp (List.mem_filter.mp member).1
    exact wholeFrom_strip (cut.whole r piece)
  · intro part member
    obtain ⟨r, piece, rfl⟩ := mem_dropLast_filter_map member
    rw [Level.after_strip]
    exact cut.divided r piece

private theorem filter_strip_of_stripped {parts : List Text}
    (stripped : ∀ part ∈ parts, strip part = part ∧ part ≠ []) :
    (parts.map strip).filter (fun p => !p.isEmpty) = parts := by
  have same : parts.map strip = parts :=
    (List.map_congr_left fun part member => (stripped part member).1).trans (List.map_id parts)
  rw [same, List.filter_eq_self]
  intro part member
  simpa using (stripped part member).2

private theorem stripped_of_mem_splitTopLevel {t part : Text}
    (member : part ∈ t.splitTopLevel sep) :
    strip part = part ∧ part ≠ [] := by
  obtain ⟨raw, solid⟩ := List.mem_filter.mp member
  obtain ⟨r, _, rfl⟩ := List.mem_map.mp raw
  exact ⟨strip_strip r, by simpa using solid⟩

end Parts

/-- A text is split into the pieces between the separators at top level, stripped, without the blank
ones. Each part is split into itself, and so are the parts if they are joined by the separator. -/
theorem splitTopLevel_parts (t : Text) {sep : CodePoint} (noQuote : sep.isQuote = false) :
    (∃ pieces, pieces ≠ [] ∧ t = [sep].intercalate pieces ∧ IsCut sep pieces ∧
      t.splitTopLevel sep = (pieces.map strip).filter fun p => !p.isEmpty) ∧
    (∀ part ∈ t.splitTopLevel sep, part.splitTopLevel sep = [part]) ∧
    splitTopLevel ([sep].intercalate (t.splitTopLevel sep)) sep = t.splitTopLevel sep := by
  obtain ⟨pieces, some, whole, cut⟩ := exists_isCut sep t
  have parts : t.splitTopLevel sep = (pieces.map strip).filter fun p => !p.isEmpty := by
    rw [whole]
    exact splitTopLevel_of_isCut noQuote cut
  have cutParts : IsCut sep (t.splitTopLevel sep) := parts ▸ cut.stripped
  refine ⟨⟨pieces, some, whole, cut, parts⟩, ?_, ?_⟩
  · intro part member
    have single := splitTopLevel_of_isCut noQuote
      (isCut_singleton.mpr (cutParts.whole part member))
    rw [List.intercalate_singleton] at single
    rw [single]
    apply filter_strip_of_stripped
    rintro _ (_ | ⟨_, ⟨⟩⟩)
    exact stripped_of_mem_splitTopLevel member
  · rw [splitTopLevel_of_isCut noQuote cutParts]
    exact filter_strip_of_stripped fun part => stripped_of_mem_splitTopLevel

/-- Brackets are closed before they are opened, and the text is split at an opening one. -/
def crossedText : Text := ofString " a) > b( [c<d] (\"e(\") "

theorem crossedText_parts : CodePoint.isQuote '(' = false ∧
    crossedText.splitTopLevel '(' = [ofString "a) > b", ofString "[c<d] (\"e(\")"] ∧
    (∃ pieces, pieces ≠ [] ∧ crossedText = [.scalar '('].intercalate pieces ∧ IsCut '(' pieces ∧
      crossedText.splitTopLevel '(' = (pieces.map strip).filter fun p => !p.isEmpty) ∧
    (∀ part ∈ crossedText.splitTopLevel '(', part.splitTopLevel '(' = [part]) ∧
    splitTopLevel ([.scalar '('].intercalate (crossedText.splitTopLevel '(')) '(' =
      crossedText.splitTopLevel '(' := by
  have noQuote : CodePoint.isQuote '(' = false := by decide
  exact ⟨noQuote, by decide +kernel, splitTopLevel_parts crossedText noQuote⟩

end ExportInventory.Text
