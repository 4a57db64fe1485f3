import ExportInventory.Proofs.Head
import Mathlib.Data.List.TakeWhile

/-!
How far the region of a definition reaches. It ends at the first line break behind its start that is
followed by a declaration directly, and this is looked for in the head of the definition, too. So
the region reaches into its body unless there is such a line break in front of the body.
-/
namespace ExportInventory

namespace Text

/-- What stands behind a word and blanks, or the whole text if it does not start with them. -/
def behindWord (t : Text) (w : String) : Text :=
  if startsWith t w = true ∧ (t.drop (ofString w).length).head?.any CodePoint.isBlank = true then
    stripLeft (t.drop (ofString w).length)
  else t

/-- Whether the text starts with a declaration. It may be exported, the default or asynchronous. -/
def opensDeclaration (t : Text) : Bool :=
  Sketch.Region.headWords.any
    (((t.behindWord "export").behindWord "default").behindWord "async").startsWithWord

/-- Whether a line ends at an index and the next one starts with a declaration. -/
def breaksAt (t : Text) (i : Nat) : Bool :=
  t[i]? = some (.scalar '\n') && opensDeclaration (t.drop (i + 1))

theorem breaksAt_drop (t : Text) (i j : Nat) : breaksAt (t.drop i) j = t.breaksAt (i + j) := by
  rw [breaksAt, breaksAt, List.getElem?_drop, List.drop_drop, Nat.add_assoc]

/-- A line that starts with a declaration starts between two indexes. -/
def BreaksBetween (t : Text) (start stop : Nat) : Prop :=
  ∃ i, i < stop ∧ start < i ∧ t.breaksAt i = true

instance (t : Text) (start stop : Nat) : Decidable (t.BreaksBetween start stop) :=
  inferInstanceAs (Decidable (∃ i, i < stop ∧ start < i ∧ t.breaksAt i = true))

/-- The index of the first code point from an index on that is no blank. -/
def firstSolid? (t : Text) (start : Nat) : Option Nat :=
  ((t.drop start).findIdx? fun c => !c.isBlank).map (start + ·)

theorem split_of_firstSolid? {t : Text} {start k : Nat} (first : t.firstSolid? start = some k) :
    ∃ b c rest, t.drop start = b ++ c :: rest ∧ k = start + b.length ∧
      (∀ d ∈ b, d.isBlank = true) ∧ c.isBlank = false := by
  obtain ⟨n, found, rfl⟩ := Option.map_eq_some_iff.mp first
  obtain ⟨bound, solid, before⟩ := List.findIdx?_eq_some_iff_getElem.mp found
  refine ⟨(t.drop start).take n, (t.drop start)[n], (t.drop start).drop (n + 1), ?_, ?_, ?_, ?_⟩
  · rw [← List.drop_eq_getElem_cons, List.take_append_drop]
  · rw [List.length_take_of_le (Nat.le_of_lt bound)]
  · intro d member
    obtain ⟨j, inside, rfl⟩ := List.mem_take_iff_getElem.mp member
    simpa using before j (by omega)
  · simpa using solid

private theorem find?_eq_some {s : String} {t : Text} {index i : Nat}
    (found : find? s t index = some i) :
    index ≤ i ∧ startsWith (t.drop (i - index)) s = true := by
  induction t generalizing index with
  | nil =>
    rw [find?] at found
    split at found
    · rename_i empty
      obtain rfl := Option.some.inj found
      obtain rfl := String.isEmpty_iff.mp empty
      exact ⟨Nat.le_refl _, by rw [Nat.sub_self]; rfl⟩
    · cases found
  | cons c rest ih =>
    rw [find?] at found
    split at found
    · rename_i here
      obtain rfl := Option.some.inj found
      exact ⟨Nat.le_refl _, by rw [Nat.sub_self]; exact here⟩
    · obtain ⟨later, starts⟩ := ih found
      refine ⟨by omega, ?_⟩
      obtain ⟨n, rfl⟩ : ∃ n, i = index + 1 + n := ⟨i - (index + 1), by omega⟩
      rw [Nat.add_sub_cancel_left] at starts
      rw [Nat.add_assoc, Nat.add_sub_cancel_left, Nat.add_comm 1]
      exact starts

private theorem indexFrom?_eq_some {s : String} {t : Text} {start i : Nat}
    (found : t.indexFrom? s start = some i) : start ≤ i ∧ startsWith (t.drop i) s = true := by
  rw [indexFrom?] at found
  split at found
  · cases found
  · obtain ⟨late, starts⟩ := find?_eq_some found
    rw [List.drop_drop, Nat.add_sub_cancel' late] at starts
    exact ⟨late, starts⟩

private theorem startsWithWord_append {w : String} (line : CodePoint.scalar '\n' ∉ ofString w)
    {x y : Text}
    (ends : ∀ c ∈ y.head?, c = CodePoint.scalar '\n') :
    startsWithWord (x ++ y) w = startsWithWord x w := by
  have starts : startsWith (x ++ y) w = startsWith x w := by
    rw [startsWith, startsWith, Bool.eq_iff_iff, List.isPrefixOf_iff_prefix,
      List.isPrefixOf_iff_prefix]
    constructor
    · intro ahead
      by_contra outside
      -- otherwise the word would go on with the line break
      have shorter : x <+: ofString w := by
        apply List.prefix_of_prefix_length_le (List.prefix_append x y) ahead
        by_contra long
        exact outside
          (List.prefix_of_prefix_length_le ahead (List.prefix_append x y) (by omega))
      obtain ⟨more, split⟩ := shorter
      rw [← split, List.prefix_append_right_inj] at ahead
      cases more with
      | nil => exact outside (split ▸ (List.append_nil x).symm ▸ List.prefix_rfl)
      | cons c more =>
        obtain ⟨rest, rfl⟩ := ahead
        obtain rfl := ends c rfl
        exact line (by rw [← split]; simp)
    · intro ahead
      exact ahead.trans (List.prefix_append x y)
  rw [startsWithWord, startsWithWord, starts]
  cases ahead : startsWith x w with
  | false => rfl
  | true =>
    have fits := (List.isPrefixOf_iff_prefix.mp ahead).length_le
    rw [List.drop_append_of_le_length fits]
    cases x.drop (ofString w).length with
    | cons c more => rfl
    | nil =>
      cases y with
      | nil => rfl
      | cons c more =>
        obtain rfl := ends c rfl
        rfl

end Text

namespace Sketch

open Matcher

private theorem gap_isSome (place : Place) :
    (gap place).isSome = place.rest.head?.any CodePoint.isBlank := by
  obtain ⟨previous, offset, rest⟩ := place
  cases rest with
  | nil => rfl
  | cons c rest =>
    rw [gap, bind_apply, one, List.head?_cons, Option.any_some]
    dsimp only
    cases c.isBlank <;> rfl

theorem maybe_word (w : String) (place : Place) :
    ∃ behind, maybe (spacedWord w) place = some ((), behind) ∧
      behind.rest = place.rest.behindWord w := by
  cases read : spacedWord w place with
  | some result =>
    obtain ⟨_, first, word, spaced⟩ := bind_eq_some read
    obtain ⟨starts, rfl⟩ := literal_eq_some word
    obtain ⟨blank, behind⟩ := gap_spec spaced
    refine ⟨result.2, orElse_of_some read _, ?_⟩
    rw [behind, Text.behindWord, if_pos ⟨starts, blank⟩]
    rfl
  | none =>
    refine ⟨place, maybe_of_none read, ?_⟩
    rw [Text.behindWord, if_neg]
    intro ⟨starts, blank⟩
    have spaced := gap_isSome (place.skip (Text.ofString w))
    rw [spacedWord, bind_apply, literal, if_pos starts, Option.bind_some] at read
    rw [read] at spaced
    exact Bool.false_ne_true (spaced.trans blank)

private theorem Matcher.lt_firstFrom?_iff {α : Type} {m : Matcher α} {p : Text → Prop}
    (same : ∀ place, (m place).isSome = true ↔ p place.rest) (previous : Option CodePoint)
    (offset : Nat) (t : Text) {k : Nat} (bound : k < offset + t.length) :
    k < ((firstFrom? m previous offset t).map Prod.fst).getD (offset + t.length) ↔
      ∀ i, offset + i ≤ k → ¬p (t.drop i) := by
  induction t generalizing previous offset with
  | nil =>
    have early : k < offset := bound
    apply iff_of_true bound
    intro i late
    omega
  | cons c rest ih =>
    have here := same ⟨previous, offset, c :: rest⟩
    rw [firstFrom?]
    cases read : m ⟨previous, offset, c :: rest⟩ with
    | some result =>
      rw [read] at here
      have first : p (c :: rest) := here.mp rfl
      have stops : k < offset ↔ ∀ i, offset + i ≤ k → ¬p ((c :: rest).drop i) := by
        constructor
        · intro early i late
          omega
        · intro none
          by_contra late
          exact none 0 (by omega) first
      exact stops
    | none =>
      rw [read] at here
      have other : ¬p (c :: rest) := fun holds => Bool.false_ne_true (here.mpr holds)
      have size : offset + (c :: rest).length = offset + 1 + rest.length := by
        rw [List.length_cons]
        omega
      rw [size] at bound ⊢
      refine (ih (some c) (offset + 1) bound).trans ⟨fun later i late => ?_, fun all i late => ?_⟩
      · cases i with
        | zero => exact other
        | succ i => exact later i (by omega)
      · exact all (i + 1) (by omega)

namespace Region

private theorem declarationOpening_isSome_iff (place : Place) :
    (declarationOpening place).isSome = true ↔ Text.opensDeclaration place.rest = true := by
  obtain ⟨first, exported, firstRest⟩ := maybe_word "export" place
  obtain ⟨second, default, secondRest⟩ := maybe_word "default" first
  obtain ⟨third, async, thirdRest⟩ := maybe_word "async" second
  have read : declarationOpening place =
      anyWord headWords third := by
    rw [declarationOpening, bind_apply, exported, Option.bind_some, bind_apply, default,
      Option.bind_some, bind_apply, asyncWord, async, Option.bind_some]
  rw [read, anyWord_isSome_iff (by decide) (by decide), Text.opensDeclaration, List.any_eq_true,
    thirdRest, secondRest, firstRest]

theorem declarationStart_isSome_iff (place : Place) :
    (declarationStart place).isSome = true ↔ place.rest.breaksAt 0 = true := by
  have split : declarationStart place =
      (literal "\n" place).bind fun result => ahead declarationOpening result.2 := rfl
  obtain ⟨previous, offset, rest⟩ := place
  rw [split, Text.breaksAt, Bool.and_eq_true, decide_eq_true_eq, literal]
  cases rest with
  | nil => exact iff_of_false Bool.false_ne_true (by simp)
  | cons c rest =>
    by_cases line : c = .scalar '\n'
    · subst line
      have opens := declarationOpening_isSome_iff
        (Place.skip ⟨previous, offset, .scalar '\n' :: rest⟩ (Text.ofString "\n"))
      rw [if_pos (by rfl), Option.bind_some, ahead, and_iff_right (by rfl)]
      refine Iff.trans ?_ opens
      cases (declarationOpening _).isSome <;> simp
    · rw [if_neg]
      · exact iff_of_false Bool.false_ne_true fun both => line (Option.some.inj both.1)
      · intro starts
        have same := List.isPrefixOf_iff_prefix.mp starts
        exact line (List.cons_prefix_cons.mp same).1.symm

theorem stop_eq (t : Text) (start : Nat) :
    stop t start = ((declarationStart.first? t (start + 1)).map Prod.fst).getD t.length := by
  rw [stop]
  cases declarationStart.first? t (start + 1) <;> rfl

section Stop

variable {t : Text} {start : Nat} (inside : start < t.length)

include inside in
theorem first?_eq : declarationStart.first? t (start + 1) =
    firstFrom? declarationStart (t.take (start + 1)).getLast? (start + 1) (t.drop (start + 1)) := by
  have place : min (start + 1) t.length = start + 1 := by omega
  rw [first?, Place.ofIndex, place]

include inside in
/-- The region reaches up to the first line break that is followed by a declaration. -/
theorem lt_stop_iff {k : Nat} (bound : k < t.length) :
    k < stop t start ↔ ∀ i, start < i → i ≤ k → t.breaksAt i = false := by
  have size : start + 1 + (t.drop (start + 1)).length = t.length := by
    rw [List.length_drop]
    omega
  have found := lt_firstFrom?_iff (p := fun u => u.breaksAt 0 = true) declarationStart_isSome_iff
    (t.take (start + 1)).getLast? (start + 1) (t.drop (start + 1)) (size ▸ bound)
  rw [size] at found
  rw [stop_eq, first?_eq inside, found]
  simp only [List.drop_drop, Text.breaksAt_drop, Nat.add_zero, Bool.not_eq_true]
  constructor
  · intro none i behind early
    obtain ⟨n, rfl⟩ : ∃ n, i = start + 1 + n := ⟨i - (start + 1), by omega⟩
    exact none n early
  · intro none n early
    exact none (start + 1 + n) (by omega) early

include inside in
theorem stop_spec : start < stop t start ∧ stop t start ≤ t.length ∧
    (stop t start < t.length → t.breaksAt (stop t start) = true) := by
  refine ⟨(lt_stop_iff inside inside).mpr fun i late early => by omega, ?_⟩
  rw [stop_eq, first?_eq inside]
  cases found : firstFrom? declarationStart (t.take (start + 1)).getLast? (start + 1)
      (t.drop (start + 1)) with
  | none => exact ⟨Nat.le_refl _, fun less => absurd less (Nat.lt_irrefl _)⟩
  | some result =>
    obtain ⟨i, a, behind⟩ := result
    obtain ⟨before, k, bound, rfl, fits⟩ := firstFrom?_eq_some found
    rw [List.length_drop] at bound
    have breaks := (declarationStart_isSome_iff _).mp (by rw [fits]; rfl)
    rw [List.drop_drop, Text.breaksAt_drop] at breaks
    refine ⟨?_, fun _ => breaks⟩
    change start + 1 + k ≤ t.length
    omega

end Stop

private theorem IsHead.ne_nil {name : String} {kind : RegionKind} {read : Text}
    (head : IsHead name kind read) : read ≠ [] := by
  have words : ∀ w ∈ headWords, Text.ofString w ≠ [] := by decide
  cases head with
  | ofFunction _ _ => exact List.append_ne_nil_of_left_ne_nil (words _ (by decide)) _
  | ofVariable known _ _ _ =>
    have among : ["const", "let", "var"] ⊆ headWords := by decide
    exact List.append_ne_nil_of_left_ne_nil (words _ (among known)) _
  | ofClass _ _ => exact List.append_ne_nil_of_left_ne_nil (words _ (by decide)) _

private theorem classHead_fits (t : Text) :
    classHead.fits t = (Text.stripLeft t).startsWithWord "class" := by
  have blanks : classHead ⟨none, 0, t⟩ = wholeWord "class"
      (Place.skip ⟨none, 0, t⟩ (t.takeWhile CodePoint.isBlank)) := rfl
  have rest : (Place.skip ⟨none, 0, t⟩ (t.takeWhile CodePoint.isBlank)).rest = Text.stripLeft t :=
    Text.drop_takeWhile CodePoint.isBlank t
  rw [fits, blanks, Bool.eq_iff_iff, wholeWord_isSome_iff (by decide), rest]

section Region

variable {t : Text} {found : FoundExport} {r : Region} (given : ofExport t found = .ok (some r))

include given in
theorem text_ofExport : r.text = t.slice r.start (stop t r.start) := by
  rw [ofExport] at given
  split at given
  · split at given
    · obtain rfl := Option.some.inj (Except.ok.inj given)
      rfl
    · cases given
  · obtain ⟨⟨start, kind, behind⟩, _, rfl⟩ := Option.map_eq_some_iff.mp (Except.ok.inj given)
    rfl

include given in
theorem start_ofExport : r.start < t.length ∧ r.start < r.bodyStart := by
  cases anonymous : found.anonymous with
  | true =>
    rw [ofExport, if_pos anonymous] at given
    split at given
    · rename_i i index
      obtain rfl := Option.some.inj (Except.ok.inj given)
      obtain ⟨late, starts⟩ := Text.indexFrom?_eq_some index
      have word := (List.isPrefixOf_iff_prefix.mp starts).length_le
      rw [List.length_drop] at word
      have seven : (Text.ofString "default").length = 7 := rfl
      have behind : "default".length = 7 := rfl
      dsimp only
      omega
    · cases given
  | false =>
    obtain ⟨lead, read, rest, rfl, head, start, body⟩ := head_of_ofExport anonymous given
    have long : 0 < read.length := List.length_pos_iff.mpr head.ne_nil
    rw [start, body, List.length_append, List.length_append]
    omega

include given in
private theorem length_ofExport : r.start + r.text.length = stop t r.start := by
  obtain ⟨inside, _⟩ := start_ofExport given
  obtain ⟨long, short, _⟩ := stop_spec inside
  rw [text_ofExport given, Text.slice, List.length_take, List.length_drop]
  omega

include given in
theorem body_ofExport : r.body = t.slice r.bodyStart (stop t r.start) := by
  obtain ⟨_, behind⟩ := start_ofExport given
  have size : stop t r.start - r.start - (r.bodyStart - r.start) = stop t r.start - r.bodyStart := by
    omega
  rw [body, if_pos (Nat.le_of_lt behind), text_ofExport given, Text.slice, Text.slice,
    List.drop_take, List.drop_drop, size, Nat.add_sub_cancel' (Nat.le_of_lt behind)]

variable {k : Nat} (first : t.firstSolid? r.bodyStart = some k)

include given first in
theorem body_cases :
    (k < stop t r.start ∧ ∃ b c more, (∀ d ∈ b, d.isBlank = true) ∧ c.isBlank = false ∧
        t.slice k (stop t r.start) = c :: more ∧ r.body = b ++ c :: more) ∨
      stop t r.start ≤ k ∧ ∀ d ∈ r.body, d.isBlank = true := by
  obtain ⟨b, c, rest, split, rfl, blank, solid⟩ := Text.split_of_firstSolid? first
  have body : r.body = (b ++ c :: rest).take (stop t r.start - r.bodyStart) := by
    rw [body_ofExport given, Text.slice, split]
  rw [body]
  by_cases long : r.bodyStart + b.length < stop t r.start
  · have behind : t.drop (r.bodyStart + b.length) = c :: rest := by
      rw [← List.drop_drop, split, List.drop_left]
    obtain ⟨n, size⟩ : ∃ n, stop t r.start = r.bodyStart + b.length + (n + 1) :=
      ⟨stop t r.start - (r.bodyStart + b.length) - 1, by omega⟩
    refine .inl ⟨long, b, c, rest.take n, blank, solid, ?_, ?_⟩
    · rw [Text.slice, behind, size, Nat.add_sub_cancel_left, List.take_succ_cons]
    · rw [size, Nat.add_assoc, Nat.add_sub_cancel_left, List.take_length_add_append,
        List.take_succ_cons]
  · refine .inr ⟨by omega, fun d member => blank d ?_⟩
    rw [List.take_append_of_le_length (by omega)] at member
    exact List.mem_of_mem_take member

include given first in
private theorem solid_body_iff : (∃ c ∈ r.body, c.isBlank = false) ↔ k < stop t r.start := by
  rcases body_cases given first with ⟨long, b, c, more, _, solid, _, body⟩ | ⟨short, blank⟩
  · apply iff_of_true _ long
    refine ⟨c, ?_, solid⟩
    rw [body]
    exact List.mem_append_right b List.mem_cons_self
  · apply iff_of_false _ (by omega)
    intro ⟨c, member, solid⟩
    rw [blank c member] at solid
    cases solid

include given first in
private theorem isClass_anonymous (anonymous : r.kind = .anonymous) :
    r.isClass = true ↔ Text.startsWithWord (t.drop k) "class" = true ∧ k < stop t r.start := by
  have head : r.isClass = classHead.fits r.body := by
    rw [isClass, anonymous]
    rfl
  rw [head, classHead_fits]
  rcases body_cases given first with ⟨long, b, c, more, blank, solid, part, body⟩ | ⟨short, blank⟩
  · have stripped : Text.stripLeft r.body = t.slice k (stop t r.start) := by
      rw [body, Text.stripLeft_append blank, part]
      exact List.dropWhile_cons_of_neg (by rw [solid]; exact Bool.false_ne_true)
    have whole : t.drop k = t.slice k (stop t r.start) ++ t.drop (stop t r.start) := by
      have behind := List.take_append_drop (stop t r.start - k) (t.drop k)
      rw [List.drop_drop, Nat.add_sub_cancel' (Nat.le_of_lt long)] at behind
      exact behind.symm
    have line : ∀ c ∈ (t.drop (stop t r.start)).head?, c = CodePoint.scalar '\n' := by
      obtain ⟨inside, _⟩ := start_ofExport given
      obtain ⟨_, _, breaks⟩ := stop_spec inside
      intro c last
      rw [List.head?_drop, Option.mem_def] at last
      have broken := breaks (List.getElem?_eq_some_iff.mp last).1
      rw [Text.breaksAt, Bool.and_eq_true, decide_eq_true_eq, last] at broken
      exact Option.some.inj broken.1
    rw [and_iff_left long, stripped, whole, Text.startsWithWord_append (by decide) line]
  · have nothing : Text.stripLeft r.body = [] := by
      rw [Text.stripLeft, List.dropWhile_eq_nil_iff]
      exact blank
    rw [nothing]
    exact iff_of_false Bool.false_ne_true fun both => absurd both.2 (by omega)

include given first in
private theorem lt_stop_iff_not_breaks : k < stop t r.start ↔ ¬t.BreaksBetween r.start k := by
  obtain ⟨b, c, rest, split, rfl, _, solid⟩ := Text.split_of_firstSolid? first
  obtain ⟨inside, _⟩ := start_ofExport given
  have here : t[r.bodyStart + b.length]? = some c := by
    rw [← List.getElem?_drop, split, List.getElem?_append_right (Nat.le_refl _), Nat.sub_self]
    rfl
  have bound := (List.getElem?_eq_some_iff.mp here).1
  rw [lt_stop_iff inside bound]
  constructor
  · intro none ⟨i, early, late, breaks⟩
    rw [none i late (Nat.le_of_lt early)] at breaks
    cases breaks
  · intro none i late early
    rw [Bool.eq_false_iff]
    intro breaks
    rcases Nat.lt_or_eq_of_le early with before | rfl
    · exact none ⟨i, before, late, breaks⟩
    · -- a line break is a blank
      rw [Text.breaksAt, Bool.and_eq_true, decide_eq_true_eq, here] at breaks
      obtain rfl := Option.some.inj breaks.1
      cases solid

end Region

/-- The region is the part of the text from its start on, and reaches the first code point of its
body that is no blank, exactly if no line in between starts with a declaration. Just then the body is
not blank, and a class without a name is known by its word. -/
theorem reaches_body_iff {t : Text} {found : FoundExport} {r : Region} {k : Nat}
    (given : ofExport t found = .ok (some r)) (first : t.firstSolid? r.bodyStart = some k) :
    r.text = t.slice r.start (r.start + r.text.length) ∧ r.start < r.bodyStart ∧
      (k < r.start + r.text.length ↔ ¬t.BreaksBetween r.start k) ∧
      ((∃ c ∈ r.body, c.isBlank = false) ↔ ¬t.BreaksBetween r.start k) ∧
      (r.kind = .anonymous → (r.isClass = true ↔
        Text.startsWithWord (t.drop k) "class" = true ∧ ¬t.BreaksBetween r.start k)) := by
  have reaches := lt_stop_iff_not_breaks given first
  rw [length_ofExport given]
  refine ⟨text_ofExport given, (start_ofExport given).2, reaches, ?_, fun anonymous => ?_⟩
  · exact (solid_body_iff given first).trans reaches
  · rw [isClass_anonymous given first anonymous, reaches]

def indentedClass : Text := Text.ofString "export default\n  class \x7b\n\x7d\nlet a = 1;"

theorem indentedClass_reached : ∃ found r,
    (FoundExports.discover indentedClass "Page" Strategy.ordered).default = some found ∧
      ofExport indentedClass found = .ok (some r) ∧
      indentedClass.firstSolid? r.bodyStart = some 17 ∧
      r.start + r.text.length = 26 ∧ 17 < r.start + r.text.length ∧ r.isClass = true := by
  let found : FoundExport := { FoundExport.default 0 "Page" with anonymous := true }
  let r : Region := ⟨.anonymous, 0, 14, indentedClass.take 26⟩
  have chosen : (FoundExports.discover indentedClass "Page" Strategy.ordered).default =
      some found := by decide +kernel
  have given : ofExport indentedClass found = .ok (some r) := by decide +kernel
  have first : indentedClass.firstSolid? r.bodyStart = some 17 := by decide +kernel
  have unbroken : ¬indentedClass.BreaksBetween r.start 17 := by decide +kernel
  obtain ⟨_, _, reaches, _, isClass⟩ := reaches_body_iff given first
  exact ⟨found, r, chosen, given, first, rfl, reaches.mpr unbroken,
    (isClass rfl).mpr ⟨by decide +kernel, unbroken⟩⟩

def loweredClass : Text := Text.ofString "export default\nclass \x7b\x7d"

def loweredFunction : Text := Text.ofString "export const F =\nfunction () \x7b\x7d"

theorem lowered_cut :
    (∃ found r, (FoundExports.discover loweredClass "Page" Strategy.ordered).default = some found ∧
      ofExport loweredClass found = .ok (some r) ∧
      loweredClass.firstSolid? r.bodyStart = some 15 ∧ r.start + r.text.length = 14 ∧
      r.body = [] ∧ r.isClass = false) ∧
    ∃ found r, found ∈ (FoundExports.discover loweredFunction "Page" Strategy.ordered).named ∧
      ofExport loweredFunction found = .ok (some r) ∧
      loweredFunction.firstSolid? r.bodyStart = some 17 ∧ r.start + r.text.length = 16 ∧
      r.body = [] := by
  constructor
  · refine ⟨{ FoundExport.default 0 "Page" with anonymous := true },
      ⟨.anonymous, 0, 14, loweredClass.take 14⟩, ?_⟩
    decide +kernel
  · refine ⟨.named 0 "F", ⟨.variable, 7, 16, (loweredFunction.drop 7).take 9⟩, ?_⟩
    decide +kernel

end Region
end Sketch
end ExportInventory
