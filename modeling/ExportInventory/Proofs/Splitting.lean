import ExportInventory.Proofs.Listing

/-!
Splitting a text and finding what a bracket encloses. Blanks around a text do not change the parts
it is split into, each part is made of code points of the text, and a bracket is closed by the
closer behind text whose own brackets are closed.
-/
namespace ExportInventory

namespace Text

theorem strip_blank_append {b : Text} (blank : ∀ c ∈ b, c.isBlank = true) (t : Text) :
    strip (b ++ t) = strip t := by
  rw [strip, stripLeft_append blank, strip]

theorem strip_append_blank {b : Text} (blank : ∀ c ∈ b, c.isBlank = true) (t : Text) :
    strip (t ++ b) = strip t := by
  rw [strip, strip]
  simp only [stripLeft, List.dropWhile_append]
  split
  · rename_i empty
    rw [List.isEmpty_iff.mp empty, List.dropWhile_eq_nil_iff.mpr blank]
  · have reversed : ∀ c ∈ b.reverse, c.isBlank = true := by simpa using blank
    rw [List.reverse_append, List.dropWhile_append_of_pos reversed]

theorem exists_strip (t : Text) : ∃ b b', (∀ c ∈ b, c.isBlank = true) ∧
    (∀ c ∈ b', c.isBlank = true) ∧ t = b ++ (strip t ++ b') := by
  refine ⟨t.takeWhile CodePoint.isBlank,
    ((stripLeft t).reverse.takeWhile CodePoint.isBlank).reverse, fun c => List.mem_takeWhile_imp,
    fun c member => List.mem_takeWhile_imp (List.mem_reverse.mp member), ?_⟩
  rw [strip, ← List.reverse_append, stripLeft, stripLeft, List.takeWhile_append_dropWhile,
    List.reverse_reverse, List.takeWhile_append_dropWhile]

theorem mem_of_mem_strip {t : Text} {c : CodePoint} (member : c ∈ strip t) : c ∈ t := by
  obtain ⟨b, b', _, _, split⟩ := exists_strip t
  rw [split]
  simp [member]

theorem strip_strip (t : Text) : strip (strip t) = strip t := by
  obtain ⟨b, b', before, behind, split⟩ := exists_strip t
  have inner := (strip_blank_append before _).trans (strip_append_blank behind (strip t))
  rw [← split] at inner
  exact inner.symm

theorem strip_of_blank {b : Text} (blank : ∀ c ∈ b, c.isBlank = true) : strip b = [] := by
  have skipped := strip_blank_append blank []
  rw [List.append_nil] at skipped
  exact skipped

theorem strip_solid {w : Text} (solid : ∀ c ∈ w, c.isBlank = false) : strip w = w := by
  cases w with
  | nil => rfl
  | cons c w =>
    have reversed : ∀ d ∈ (c :: w).reverse, d.isBlank = false := by
      intro d member
      exact solid d (List.mem_reverse.mp member)
    have left := stripLeft_word solid (List.cons_ne_nil c w) []
    have right := stripLeft_word reversed (by simp) []
    rw [List.append_nil] at left right
    rw [strip, left, right, List.reverse_reverse]

section Solid

variable {c : CodePoint} (first : c.isBlank = false) (t : Text)

include first in
theorem stripLeft_cons : stripLeft (c :: t) = c :: t :=
  List.dropWhile_cons_of_neg (by simp [first])

include first in
theorem exists_strip_cons : ∃ more, strip (c :: t) = c :: more := by
  rw [strip, stripLeft_cons first, List.reverse_cons, stripLeft, List.dropWhile_append]
  split
  · exact ⟨[], by simp [first]⟩
  · exact ⟨(t.reverse.dropWhile CodePoint.isBlank).reverse, by simp⟩

include first in
theorem strip_append_cons {w : Text} (solid : ∀ d ∈ w, d.isBlank = false) :
    strip (w ++ c :: t) = w ++ strip (c :: t) := by
  have whole : stripLeft (w ++ c :: t) = w ++ c :: t := by
    cases w with
    | nil => exact stripLeft_cons first t
    | cons d w => exact stripLeft_cons (solid d List.mem_cons_self) _
  have some : ¬((c :: t).reverse.dropWhile CodePoint.isBlank).isEmpty = true := by simp [first]
  rw [strip, whole, List.reverse_append, stripLeft, List.dropWhile_append, if_neg some,
    List.reverse_append, List.reverse_reverse, strip, stripLeft_cons first, stripLeft]

include first in
theorem strip_enclosed {d : CodePoint} (last : d.isBlank = false) :
    strip (c :: (t ++ [d])) = c :: (t ++ [d]) := by
  have reversed : (c :: (t ++ [d])).reverse = d :: (t.reverse ++ [c]) := by simp
  rw [strip, stripLeft_cons first, reversed, stripLeft_cons last, ← reversed, List.reverse_reverse]

end Solid

theorem strip_takeWhile_strip {p : CodePoint → Bool} (passes : ∀ c, c.isBlank = true → p c = true)
    (t : Text) : strip ((strip t).takeWhile p) = strip (t.takeWhile p) := by
  obtain ⟨b, b', before, behind, split⟩ := exists_strip t
  have skipped : t.takeWhile p = b ++ (strip t ++ b').takeWhile p := by
    conv_lhs => rw [split]
    exact List.takeWhile_append_of_pos fun c member => passes c (before c member)
  have tail : ∃ b'', (∀ c ∈ b'', c.isBlank = true) ∧
      (strip t ++ b').takeWhile p = (strip t).takeWhile p ++ b'' := by
    rw [List.takeWhile_append]
    split
    · rename_i whole
      refine ⟨b'.takeWhile p, fun c member => behind c (List.takeWhile_subset p member), ?_⟩
      rw [(List.takeWhile_prefix p).eq_of_length whole]
    · exact ⟨[], by simp, (List.append_nil _).symm⟩
  obtain ⟨b'', blank, same⟩ := tail
  rw [skipped, same, strip_blank_append before, strip_append_blank blank]

section Parts

variable {sep : CodePoint}

/-- The parts that are left of a text if splitting has come as far as given. -/
def splitFrom (sep : CodePoint) (s : Splitting) (t : Text) : List Text :=
  ((rawParts sep s t).map strip).filter fun p => !p.isEmpty

/-- A code point joins the part that is read, or the part ends before it. Which of them does not
depend on the part. -/
theorem step_cases (sep : CodePoint) (l : Level) (c : CodePoint) :
    (∀ current, Splitting.step sep ⟨l, current⟩ c = (⟨l.next c, c :: current⟩, none)) ∨
    ∀ current, Splitting.step sep ⟨l, current⟩ c = (⟨l.next c, []⟩, some current.reverse) := by
  unfold Splitting.step
  by_cases ends : l.quote = none ∧ c = sep ∧ (l.next c).depth = 0 ∧ (l.next c).angle = 0
  · exact .inr fun current => if_pos ends
  · exact .inl fun current => if_neg ends

theorem splitFrom_nil (s : Splitting) :
    splitFrom sep s [] = [strip s.current.reverse].filter fun p => !p.isEmpty := by
  obtain ⟨level, current⟩ := s
  cases current with
  | nil => rfl
  | cons c current => rfl

theorem splitFrom_goes {s next : Splitting} {c : CodePoint} (step : s.step sep c = (next, none))
    {t : Text} : splitFrom sep s (c :: t) = splitFrom sep next t := by
  rw [splitFrom, rawParts, step]
  rfl

theorem splitFrom_ends {s next : Splitting} {c : CodePoint} {part : Text}
    (step : s.step sep c = (next, some part)) {t : Text} : splitFrom sep s (c :: t) =
      [strip part].filter (fun p => !p.isEmpty) ++ splitFrom sep next t := by
  rw [splitFrom, rawParts, step, splitFrom, ← List.filter_append]
  rfl

theorem rawParts_cons {s next : Splitting} {c : CodePoint} (step : s.step sep c = (next, none))
    (t : Text) : rawParts sep s (c :: t) = rawParts sep next t := by
  rw [rawParts, step]

theorem step_blank (solid : sep.isBlank = false) (s : Splitting) {c : CodePoint}
    (blank : c.isBlank = true) : s.step sep c = (⟨s.level.next c, c :: s.current⟩, none) := by
  refine if_neg fun ends => ?_
  rw [ends.2.1, solid] at blank
  cases blank

theorem Level.next_of_isBlank {l : Level} (outside : l.quote = none) {c : CodePoint}
    (blank : c.isBlank = true) : l.next c = l := by
  have plain := CodePoint.not_divider_of_not_mark (CodePoint.not_mark_of_isBlank blank)
  simp only [CodePoint.dividers, List.mem_cons, List.not_mem_nil, or_false, not_or] at plain
  simp [next, outside, CodePoint.isQuote, CodePoint.closer?, CodePoint.isCloser, plain]

theorem rawParts_blank (solid : sep.isBlank = false) (s : Splitting) {b : Text}
    (blank : ∀ c ∈ b, c.isBlank = true) :
    rawParts sep s b = rawParts sep { s with current := b.reverse ++ s.current } [] := by
  induction b generalizing s with
  | nil => rfl
  | cons c b ih =>
    simp only [List.mem_cons, forall_eq_or_imp] at blank
    rw [rawParts_cons (step_blank solid s blank.1), ih _ blank.2, List.reverse_cons,
      List.append_assoc]
    rfl

theorem rawParts_blank_append (solid : sep.isBlank = false) {s : Splitting}
    (plain : s.level.quote = none) {b : Text} (blank : ∀ c ∈ b, c.isBlank = true) (t : Text) :
    rawParts sep s (b ++ t) = rawParts sep { s with current := b.reverse ++ s.current } t := by
  induction b generalizing s with
  | nil => rfl
  | cons c b ih =>
    simp only [List.mem_cons, forall_eq_or_imp] at blank
    have step := step_blank solid s blank.1
    rw [Level.next_of_isBlank plain blank.1] at step
    rw [List.cons_append, rawParts_cons step, ih (s := ⟨s.level, c :: s.current⟩) plain blank.2,
      List.reverse_cons, List.append_assoc]
    rfl

theorem splitFrom_current {b : Text} (blank : ∀ c ∈ b, c.isBlank = true) (s : Splitting)
    (t : Text) : splitFrom sep { s with current := s.current ++ b } t = splitFrom sep s t := by
  have reversed : ∀ c ∈ b.reverse, c.isBlank = true := by simpa using blank
  have same (u : Text) : strip (u ++ b).reverse = strip u.reverse := by
    rw [List.reverse_append, strip_blank_append reversed]
  induction t generalizing s with
  | nil => rw [splitFrom_nil, splitFrom_nil, same]
  | cons c t ih =>
    rcases step_cases sep s.level c with goes | ends
    · rw [splitFrom_goes (goes _), splitFrom_goes (goes _)]
      exact ih ⟨s.level.next c, c :: s.current⟩
    · rw [splitFrom_ends (ends _), splitFrom_ends (ends _), same]

theorem splitFrom_append (solid : sep.isBlank = false) {b : Text}
    (blank : ∀ c ∈ b, c.isBlank = true) (s : Splitting) (t : Text) :
    splitFrom sep s (t ++ b) = splitFrom sep s t := by
  induction t generalizing s with
  | nil =>
    rw [List.nil_append, splitFrom, rawParts_blank solid s blank, ← splitFrom, splitFrom_nil,
      splitFrom_nil, List.reverse_append, List.reverse_reverse, strip_append_blank blank]
  | cons c t ih =>
    rcases step_cases sep s.level c with goes | ends
    · rw [List.cons_append, splitFrom_goes (goes _), splitFrom_goes (goes _), ih]
    · rw [List.cons_append, splitFrom_ends (ends _), splitFrom_ends (ends _), ih]

theorem splitTopLevel_strip (solid : sep.isBlank = false) (t : Text) :
    (strip t).splitTopLevel sep = t.splitTopLevel sep := by
  obtain ⟨b, b', before, behind, split⟩ := exists_strip t
  have reversed : ∀ c ∈ b.reverse, c.isBlank = true := by simpa using before
  change splitFrom sep .start (strip t) = splitFrom sep .start t
  conv_rhs => rw [split]
  calc splitFrom sep .start (strip t)
    _ = splitFrom sep .start (strip t ++ b') := (splitFrom_append solid behind _ _).symm
    _ = splitFrom sep ⟨.outermost, b.reverse⟩ (strip t ++ b') :=
        (splitFrom_current reversed .start _).symm
    _ = splitFrom sep .start (b ++ (strip t ++ b')) := by
        have read := rawParts_blank_append solid (s := .start) rfl before (strip t ++ b')
        rw [splitFrom, splitFrom, read]
        simp [Splitting.start]

theorem mem_of_mem_splitFrom {s : Splitting} {t part : Text} (member : part ∈ splitFrom sep s t)
    {c : CodePoint} (inside : c ∈ part) : c ∈ s.current ∨ c ∈ t := by
  have kept {u : Text} {v : CodePoint} (left : part ∈ [strip u.reverse].filter fun p => !p.isEmpty)
      (inside : v ∈ part) : v ∈ u := by
    obtain rfl := List.mem_singleton.mp (List.mem_filter.mp left).1
    exact List.mem_reverse.mp (mem_of_mem_strip inside)
  induction t generalizing s with
  | nil =>
    rw [splitFrom_nil] at member
    exact .inl (kept member inside)
  | cons d t ih =>
    rcases step_cases sep s.level d with goes | ends
    · rw [splitFrom_goes (goes _)] at member
      rcases ih member with current | later
      · rcases List.mem_cons.mp current with rfl | before
        · exact .inr List.mem_cons_self
        · exact .inl before
      · exact .inr (List.mem_cons_of_mem d later)
    · rw [splitFrom_ends (ends _), List.mem_append] at member
      rcases member with here | later
      · exact .inl (kept here inside)
      · rcases ih later with nothing | later
        · cases nothing
        · exact .inr (List.mem_cons_of_mem d later)

theorem mem_of_mem_splitTopLevel {t part : Text} (member : part ∈ t.splitTopLevel sep)
    {c : CodePoint} (inside : c ∈ part) : c ∈ t := by
  rcases mem_of_mem_splitFrom (s := .start) member inside with nothing | inside
  · cases nothing
  · exact inside

end Parts

/-- Text in which all brackets and quotations that are opened are closed, and no others are: looking
for a closer passes over it. -/
def Closed (u : Text) : Prop :=
  ∀ awaited below i rest, closing? (awaited :: below) none i (u ++ rest) =
    closing? (awaited :: below) none (i + u.length) rest

theorem closed_nil : Closed [] := fun _ _ _ _ => rfl

theorem Closed.append {u v : Text} (first : Closed u) (second : Closed v) : Closed (u ++ v) := by
  intro awaited below i rest
  rw [List.append_assoc, first, second, List.length_append, Nat.add_assoc]

theorem closed_plain {u : Text} (plain : ∀ c ∈ u, c = .scalar ',' ∨ c ∉ CodePoint.dividers) :
    Closed u := by
  induction u with
  | nil => exact closed_nil
  | cons c u ih =>
    simp only [List.mem_cons, forall_eq_or_imp] at plain
    have single : Closed [c] := by
      rcases plain.1 with rfl | other
      · exact fun _ _ _ _ => rfl
      · intro awaited below i rest
        simp only [CodePoint.dividers, List.mem_cons, List.not_mem_nil, or_false, not_or] at other
        rw [List.singleton_append, closing?.eq_def]
        simp [CodePoint.isQuote, CodePoint.closer?, CodePoint.isCloser, other]
    exact single.append (ih plain.2)

section Enclosed

variable {c closer : CodePoint} (opens : c.closer? = some closer)

include opens in
theorem closer_cases : (c = .scalar '(' ∧ closer = .scalar ')') ∨
    (c = .scalar '{' ∧ closer = .scalar '}') ∨ c = .scalar '[' ∧ closer = .scalar ']' := by
  unfold CodePoint.closer? at opens
  split at opens
  · simp_all
  · split at opens
    · simp_all
    · split at opens
      · simp_all
      · cases opens

include opens in
theorem closing?_opener (stack : List CodePoint) (i : Nat) (rest : Text) :
    closing? stack none i (c :: rest) = closing? (closer :: stack) none (i + 1) rest := by
  rcases closer_cases opens with ⟨rfl, rfl⟩ | ⟨rfl, rfl⟩ | ⟨rfl, rfl⟩ <;> rfl

include opens in
theorem closing?_closer (below : List CodePoint) (i : Nat) (rest : Text) :
    closing? (closer :: below) none i (closer :: rest) =
      if below.isEmpty then some i else closing? below none (i + 1) rest := by
  rcases closer_cases opens with ⟨rfl, rfl⟩ | ⟨rfl, rfl⟩ | ⟨rfl, rfl⟩ <;> rfl

variable {u : Text} (inner : Closed u)

include opens inner in
theorem Closed.enclosed : Closed (c :: (u ++ [closer])) := by
  intro awaited below i rest
  rw [List.cons_append, List.append_assoc, closing?_opener opens, inner, List.singleton_append,
    closing?_closer opens, if_neg (by simp)]
  congr 1
  simp only [List.length_cons, List.length_append, List.length_nil]
  omega

include opens inner in
theorem balancedSpan_enclosed (b rest : Text) :
    ∃ start stop, (b ++ c :: (u ++ closer :: rest)).balancedSpan b.length = some (start, stop) ∧
      (b ++ c :: (u ++ closer :: rest)).slice start stop = u := by
  refine ⟨b.length + 1, b.length + 1 + u.length, ?_, ?_⟩
  · have found : closing? [closer] none (b.length + 1) (u ++ closer :: rest) =
        some (b.length + 1 + u.length) := by
      rw [inner, closing?_closer opens]
      rfl
    rw [balancedSpan, List.drop_left]
    dsimp only
    rw [opens, Option.bind_eq_bind, Option.bind_some, found]
    rfl
  · rw [slice, Nat.add_sub_cancel_left, ← List.drop_drop, List.drop_left, List.drop_one,
      List.tail_cons, List.take_left]

end Enclosed

theorem indexFrom?_first {s : String} {c : CodePoint} (single : ofString s = [c]) {b : Text}
    (before : c ∉ b) (rest : Text) : (b ++ c :: rest).indexFrom? s 0 = some b.length := by
  have found (i : Nat) : find? s (b ++ c :: rest) i = some (i + b.length) := by
    induction b generalizing i with
    | nil =>
      rw [List.nil_append, find?, if_pos]
      · rfl
      · simp [startsWith, single]
    | cons d b ih =>
      simp only [List.mem_cons, not_or] at before
      rw [List.cons_append, find?, if_neg, ih before.2, List.length_cons, Nat.add_right_comm,
        Nat.add_assoc]
      simp [startsWith, single, before.1]
  rw [indexFrom?, if_neg (Nat.not_lt_zero _), List.drop_zero, found, Nat.zero_add]

end Text
end ExportInventory
