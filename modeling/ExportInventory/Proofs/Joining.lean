import ExportInventory.Proofs.Bracketing
import ExportInventory.Proofs.TopLevel

/-!
Splitting a list of items that are joined by commas. The items come back just if splitting counts no
comma inside of them as one at top level, and has come back there behind each of them. It has if no
quotation holds a backslash with a quote of its own kind, at which it would be taken to end, and no
arrow stands between angle brackets, which it would be taken to close.
-/
namespace ExportInventory.Text

/-- A text by its structure: plain code points, quotations, groups in brackets and in angle
brackets, and arrows. -/
inductive Fragment where
  | nil
  | plain (c : CodePoint) (rest : Fragment)
  | quoted (q : Quotation) (rest : Fragment)
  | group (c closer : CodePoint) (opens : c.closer? = some closer) (inside rest : Fragment)
  | generic (inside rest : Fragment)
  | arrow (rest : Fragment)

namespace Fragment

def text : Fragment → Text
  | nil => []
  | plain c rest => c :: rest.text
  | quoted q rest => q.text ++ rest.text
  | group c closer _ inside rest => c :: (inside.text ++ closer :: rest.text)
  | generic inside rest => '<' :: (inside.text ++ .scalar '>' :: rest.text)
  | arrow rest => '=' :: '>' :: rest.text

/-- Brackets and quotes do not stand for themselves, and a comma only inside of a group. -/
def fits (inGroup : Bool) : Fragment → Bool
  | nil => true
  | plain c rest =>
    c.isPlain && c ≠ '<' && c ≠ '>' && (inGroup || c ≠ ',') && rest.fits inGroup
  | quoted _ rest => rest.fits inGroup
  | group _ _ _ inside rest => inside.fits true && rest.fits inGroup
  | generic inside rest => inside.fits true && rest.fits inGroup
  | arrow rest => rest.fits inGroup

/-- No quotation hides a quote of its own kind, and no arrow stands between angle brackets. -/
def isSimple (inGeneric : Bool) : Fragment → Bool
  | nil => true
  | plain _ rest => rest.isSimple inGeneric
  | quoted q rest => !q.parts.contains (.hidden q.quote) && rest.isSimple inGeneric
  | group _ _ _ inside rest => inside.isSimple inGeneric && rest.isSimple inGeneric
  | generic inside rest => inside.isSimple true && rest.isSimple inGeneric
  | arrow rest => !inGeneric && rest.isSimple inGeneric

end Fragment

/-- An item of a list: some text without blanks around it and without commas outside of groups and
quotations. -/
structure Item where
  fragment : Fragment
  fits : fragment.fits false = true
  solid : fragment.text ≠ []
  trimmed : strip fragment.text = fragment.text

namespace Item

def text (item : Item) : Text := item.fragment.text

def isSimple (item : Item) : Bool := item.fragment.isSimple false

end Item

/-- Reading the text leads back to the level where it starts, and nothing in it divides it. -/
structure Level.Keeps (sep : CodePoint) (l : Level) (t : Text) : Prop where
  level : l.after t = l
  whole : WholeFrom sep l t

namespace Level.Keeps

variable {sep : CodePoint} {l : Level}

theorem nil : l.Keeps sep [] := ⟨rfl, wholeFrom_nil⟩

theorem append {u v : Text} (first : l.Keeps sep u) (second : l.Keeps sep v) :
    l.Keeps sep (u ++ v) := by
  constructor
  · rw [after_append, first.level, second.level]
  · rw [wholeFrom_append, first.level]
    exact ⟨first.whole, second.whole⟩

theorem single {c : CodePoint} (stays : l.next c = l) (whole : c = sep → l.divides sep = false) :
    l.Keeps sep [c] :=
  ⟨stays, wholeFrom_cons.mpr ⟨whole, wholeFrom_nil⟩⟩

theorem between {l' : Level} {c closer : CodePoint} {u : Text} (opens : l.next c = l')
    (closes : l'.next closer = l) (other : c ≠ sep) (other' : closer ≠ sep)
    (inside : l'.Keeps sep u) : l.Keeps sep (c :: (u ++ [closer])) := by
  constructor
  · rw [after_cons, opens, after_append, inside.level]
    exact closes
  · rw [wholeFrom_cons, opens, wholeFrom_append, inside.level]
    refine ⟨fun same => absurd same other, inside.whole, ?_⟩
    exact wholeFrom_cons.mpr ⟨fun same => absurd same other', wholeFrom_nil⟩

end Level.Keeps

section Kept

variable {depth : Int} {angle : Nat}

private theorem keeps_quoted {sep quote : CodePoint} {t : Text} (other : ∀ c ∈ t, c ≠ quote) :
    Level.Keeps sep ⟨depth, angle, some quote⟩ t := by
  induction t with
  | nil => exact .nil
  | cons c t ih =>
    rw [List.forall_mem_cons] at other
    have here : Level.Keeps sep ⟨depth, angle, some quote⟩ [c] := by
      apply Level.Keeps.single
      · simp [Level.next, other.1]
      · intro _
        rfl
    exact here.append (ih other.2)

private theorem Quotation.ne_quote_of_mem {q : Quotation}
    (visible : LiteralPart.hidden q.quote ∉ q.parts) :
    ∀ c ∈ q.parts.flatMap LiteralPart.text, c ≠ q.quote := by
  intro c member
  obtain ⟨part, listed, inside⟩ := List.mem_flatMap.mp member
  have apart := q.apart part listed
  cases part with
  | plain d =>
    obtain rfl := List.mem_singleton.mp inside
    simp only [LiteralPart.isApart, Bool.and_eq_true, decide_eq_true_eq] at apart
    exact apart.1
  | hidden d =>
    simp only [LiteralPart.text, List.mem_cons, List.not_mem_nil, or_false] at inside
    rcases inside with rfl | rfl
    · exact (ne_backslash q.isQuote).symm
    · rintro rfl
      exact visible listed

private theorem Quotation.keeps {q : Quotation} (visible : LiteralPart.hidden q.quote ∉ q.parts) :
    Level.Keeps ',' ⟨depth, angle, none⟩ q.text := by
  have other : q.quote ≠ .scalar ',' := by
    intro same
    have isQuote := q.isQuote
    rw [same] at isQuote
    cases isQuote
  have inner : Level.Keeps ',' ⟨depth, angle, some q.quote⟩ (q.parts.flatMap LiteralPart.text) :=
    keeps_quoted (q.ne_quote_of_mem visible)
  apply inner.between _ _ other other
  · simp [Level.next, q.isQuote]
  · simp [Level.next]

theorem next_plain {c : CodePoint} (isPlain : c.isPlain = true) (less : c ≠ .scalar '<')
    (greater : c ≠ .scalar '>') : Level.next ⟨depth, angle, none⟩ c = ⟨depth, angle, none⟩ := by
  simp only [CodePoint.isPlain, Bool.and_eq_true, Bool.not_eq_true'] at isPlain
  simp [Level.next, isPlain, less, greater]

private theorem next_opener {c closer : CodePoint} (opens : c.closer? = some closer) :
    Level.next ⟨depth, angle, none⟩ c = ⟨depth + 1, angle, none⟩ := by
  rcases closer_cases opens with ⟨rfl, rfl⟩ | ⟨rfl, rfl⟩ | ⟨rfl, rfl⟩ <;> rfl

private theorem next_closer {c closer : CodePoint} (opens : c.closer? = some closer) :
    Level.next ⟨depth + 1, angle, none⟩ closer = ⟨depth, angle, none⟩ := by
  have closes : Level.next ⟨depth + 1, angle, none⟩ closer = ⟨depth + 1 - 1, angle, none⟩ := by
    rcases closer_cases opens with ⟨rfl, rfl⟩ | ⟨rfl, rfl⟩ | ⟨rfl, rfl⟩ <;> rfl
  rw [closes, Int.add_sub_cancel]

private theorem not_divides_comma (deep : 0 < depth ∨ 0 < angle) :
    Level.divides ',' ⟨depth, angle, none⟩ = false := by
  rw [Level.divides, next_plain (by decide) (by decide) (by decide)]
  simp only [Level.outermost, Level.mk.injEq, Option.isNone_none, Bool.true_and,
    decide_eq_false_iff_not]
  omega

end Kept

/-- A simple fragment leads back to its level. Commas in it divide nothing if it stands in a group,
and arrows close nothing if no angle bracket is open. -/
theorem Fragment.keeps {f : Fragment} {inGroup inGeneric : Bool} {depth : Int} {angle : Nat}
    (fits : f.fits inGroup = true) (simple : f.isSimple inGeneric = true) (opened : 0 ≤ depth)
    (deep : inGroup = true → 0 < depth ∨ 0 < angle) (flat : inGeneric = false → angle = 0) :
    Level.Keeps ',' ⟨depth, angle, none⟩ f.text := by
  induction f generalizing inGroup inGeneric depth angle with
  | nil => exact .nil
  | plain c rest ih =>
    simp only [Fragment.fits, Bool.and_eq_true, Bool.or_eq_true, decide_eq_true_eq] at fits
    obtain ⟨⟨⟨⟨isPlain, less⟩, greater⟩, comma⟩, fits⟩ := fits
    have here : Level.Keeps ',' ⟨depth, angle, none⟩ [c] := by
      apply Level.Keeps.single (next_plain isPlain less greater)
      intro same
      exact not_divides_comma (deep (comma.resolve_right fun other => other same))
    exact here.append (ih fits simple opened deep flat)
  | quoted q rest ih =>
    simp only [Fragment.isSimple, Bool.and_eq_true, Bool.not_eq_true', List.contains_eq_mem,
      decide_eq_false_iff_not] at simple
    exact (q.keeps simple.1).append (ih fits simple.2 opened deep flat)
  | group c closer opens inside rest ih ih' =>
    simp only [Fragment.fits, Fragment.isSimple, Bool.and_eq_true] at fits simple
    have inner : Level.Keeps ',' ⟨depth + 1, angle, none⟩ inside.text :=
      ih fits.1 simple.1 (by omega) (fun _ => .inl (by omega)) flat
    have other : c ≠ .scalar ',' ∧ closer ≠ .scalar ',' := by
      rcases closer_cases opens with ⟨rfl, rfl⟩ | ⟨rfl, rfl⟩ | ⟨rfl, rfl⟩ <;> decide
    have here := inner.between (next_opener opens) (next_closer opens) other.1 other.2
    simpa [Fragment.text] using here.append (ih' fits.2 simple.2 opened deep flat)
  | generic inside rest ih ih' =>
    simp only [Fragment.fits, Fragment.isSimple, Bool.and_eq_true] at fits simple
    have inner : Level.Keeps ',' ⟨depth, angle + 1, none⟩ inside.text :=
      ih fits.1 simple.1 opened (fun _ => .inr (by omega)) (by simp)
    have here : Level.Keeps ',' ⟨depth, angle, none⟩
        (.scalar '<' :: (inside.text ++ [.scalar '>'])) :=
      inner.between rfl rfl (by decide) (by decide)
    simpa [Fragment.text] using here.append (ih' fits.2 simple.2 opened deep flat)
  | arrow rest ih =>
    simp only [Fragment.fits, Fragment.isSimple, Bool.and_eq_true, Bool.not_eq_true'] at fits simple
    obtain rfl := flat simple.1
    have equals : Level.Keeps ',' ⟨depth, 0, none⟩ [.scalar '='] :=
      .single rfl fun same => absurd same (by decide)
    have greater : Level.Keeps ',' ⟨depth, 0, none⟩ [.scalar '>'] :=
      .single rfl fun same => absurd same (by decide)
    exact equals.append (greater.append (ih fits simple.2 opened deep flat))

/-- What stands between the commas if items are joined. -/
def spaced : List Text → List Text
  | [] => []
  | first :: rest => first :: rest.map (.scalar ' ' :: ·)

private theorem intercalate_spaced (texts : List Text) :
    [.scalar ','].intercalate (spaced texts) = [.scalar ',', .scalar ' '].intercalate texts := by
  have front (c : CodePoint) (r : Text) (rs : List Text) :
      [CodePoint.scalar ','].intercalate ((c :: r) :: rs) =
        c :: [CodePoint.scalar ','].intercalate (r :: rs) := by
    cases rs <;> simp
  cases texts with
  | nil => rfl
  | cons first rest =>
    rw [spaced]
    induction rest generalizing first with
    | nil => simp
    | cons second rest ih =>
      rw [List.map_cons, List.intercalate_cons_cons, front, ih, List.intercalate_cons_cons]
      simp

private theorem IsCut.map_blank {texts : List Text} (cut : IsCut ',' texts) :
    IsCut ',' (texts.map (.scalar ' ' :: ·)) := by
  have outermost : Level.outermost.next (.scalar ' ') = .outermost := rfl
  constructor
  · intro r member
    obtain ⟨text, listed, rfl⟩ := List.mem_map.mp member
    rw [wholeFrom_cons, outermost]
    exact ⟨fun same => absurd same (by decide), cut.whole text listed⟩
  · intro r member
    rw [← List.map_dropLast] at member
    obtain ⟨text, listed, rfl⟩ := List.mem_map.mp member
    rw [Level.after_cons, outermost]
    exact cut.divided text listed

private theorem IsCut.spaced {texts : List Text} (cut : IsCut ',' texts) :
    IsCut ',' (spaced texts) := by
  cases texts with
  | nil => exact cut
  | cons first rest =>
    cases rest with
    | nil => exact cut
    | cons second rest =>
      obtain ⟨here, later⟩ := isCut_cons_cons.mp cut
      exact isCut_cons_cons.mpr ⟨here, later.map_blank⟩

private theorem map_strip_spaced {texts : List Text} (trimmed : ∀ text ∈ texts, strip text = text) :
    (spaced texts).map strip = texts := by
  have blank : ∀ c ∈ [CodePoint.scalar ' '], c.isBlank = true := by decide
  cases texts with
  | nil => rfl
  | cons first rest =>
    rw [List.forall_mem_cons] at trimmed
    rw [spaced, List.map_cons, List.map_map, trimmed.1]
    congr 1
    refine (List.map_congr_left fun text member => ?_).trans (List.map_id rest)
    exact (strip_blank_append blank text).trans (trimmed.2 text member)

/-- Items that are joined are split again just if no comma in them stands at top level and each of
them leads back there. -/
theorem splitTopLevel_intercalate_iff {texts : List Text}
    (stripped : ∀ text ∈ texts, strip text = text ∧ text ≠ []) :
    splitTopLevel ([.scalar ',', .scalar ' '].intercalate texts) ',' = texts ↔ IsCut ',' texts := by
  have noQuote : CodePoint.isQuote ',' = false := by decide
  constructor
  · intro same
    obtain ⟨pieces, _, whole, cut⟩ :=
      exists_isCut ',' ([.scalar ',', .scalar ' '].intercalate texts)
    rw [whole, splitTopLevel_of_isCut noQuote cut] at same
    rw [← same]
    exact cut.stripped
  · intro cut
    rw [← intercalate_spaced, splitTopLevel_of_isCut noQuote cut.spaced,
      map_strip_spaced fun text member => (stripped text member).1, List.filter_eq_self]
    intro text member
    simpa using (stripped text member).2

private theorem isCut_of_isSimple {items : List Item}
    (simple : ∀ item ∈ items, item.isSimple = true) :
    IsCut ',' (items.map Item.text) := by
  have keeps {item : Item} (member : item ∈ items) : Level.outermost.Keeps ',' item.text :=
    Fragment.keeps item.fits (simple item member) (Int.le_refl 0) (by simp) fun _ => rfl
  constructor
  · intro text member
    obtain ⟨item, listed, rfl⟩ := List.mem_map.mp member
    exact (keeps listed).whole
  · intro text member
    obtain ⟨item, listed, rfl⟩ := List.mem_map.mp (List.dropLast_subset _ member)
    rw [(keeps listed).level]
    rfl

/-- Joined items are split into the items just if splitting counts no comma of theirs as one between
them. It does not if no quotation hides its own quote and no arrow stands in angle brackets. -/
theorem splitTopLevel_join_iff (items : List Item) :
    (splitTopLevel ([.scalar ',', .scalar ' '].intercalate (items.map Item.text)) ',' =
        items.map Item.text ↔ IsCut ',' (items.map Item.text)) ∧
      ((∀ item ∈ items, item.isSimple = true) →
        splitTopLevel ([.scalar ',', .scalar ' '].intercalate (items.map Item.text)) ',' =
          items.map Item.text) := by
  have stripped : ∀ text ∈ items.map Item.text, strip text = text ∧ text ≠ [] := by
    intro text member
    obtain ⟨item, _, rfl⟩ := List.mem_map.mp member
    exact ⟨item.trimmed, item.solid⟩
  have exactly := splitTopLevel_intercalate_iff stripped
  exact ⟨exactly, fun simple => exactly.mpr (isCut_of_isSimple simple)⟩

namespace Fragment

/-- Plain text in front of a fragment. -/
def plains (s : String) (rest : Fragment) : Fragment := s.toList.foldr (fun c => plain c) rest

end Fragment

theorem typedItems_split : ∃ items : List Item,
    items.map Item.text = [ofString "b: M<k, \x7bv\x7d>", ofString "c = (x, y) => \"\\'\""] ∧
      (∀ item ∈ items, item.isSimple = true) ∧
      splitTopLevel (ofString "b: M<k, \x7bv\x7d>, c = (x, y) => \"\\'\"") ',' =
        items.map Item.text := by
  let typed : Item :=
    ⟨.plains "b: M" (.generic (.plains "k, " (.group '{' '}' rfl (.plains "v" .nil) .nil))
      .nil), by decide, by decide, by decide⟩
  let defaulted : Item :=
    ⟨.plains "c = " (.group '(' ')' rfl (.plains "x, y" .nil) (.plains " " (.arrow (.plains " "
      (.quoted ⟨'"', [.hidden '\''], rfl, by decide⟩ .nil))))), by decide, by decide, by decide⟩
  have simple : ∀ item ∈ [typed, defaulted], item.isSimple = true := by decide
  exact ⟨[typed, defaulted], by decide, simple,
    (splitTopLevel_join_iff [typed, defaulted]).2 simple⟩

theorem joined_misread :
    (∃ items : List Item, items.map Item.text = [ofString "'\\','", ofString "b"] ∧
      splitTopLevel ([.scalar ',', .scalar ' '].intercalate (items.map Item.text)) ',' =
        [ofString "'\\'", ofString "', b"]) ∧
    ∃ items : List Item, items.map Item.text = [ofString "f: M<() => v, b>"] ∧
      splitTopLevel ([.scalar ',', .scalar ' '].intercalate (items.map Item.text)) ',' =
        [ofString "f: M<() => v", ofString "b>"] := by
  let escaped : Item :=
    ⟨.quoted ⟨'\'', [.hidden '\'', .plain ','], rfl, by decide⟩ .nil, by decide, by decide,
      by decide⟩
  let plain : Item := ⟨.plains "b" .nil, by decide, by decide, by decide⟩
  let typed : Item :=
    ⟨.plains "f: M" (.generic (.group '(' ')' rfl .nil (.plains " " (.arrow
      (.plains " v, b" .nil)))) .nil), by decide, by decide, by decide⟩
  exact ⟨⟨[escaped, plain], by decide, by decide⟩, [typed], by decide, by decide⟩

end ExportInventory.Text
