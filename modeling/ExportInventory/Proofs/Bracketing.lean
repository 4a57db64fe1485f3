import ExportInventory.Proofs.Literal
import ExportInventory.Proofs.Splitting

/-!
What a bracket encloses. The text up to its closer is made of plain code points, quotations and
further brackets with what they enclose; the closer is the only one with such a text in front of it,
and it is found wherever there is one.
-/
namespace ExportInventory

/-- Neither a bracket nor a quote. -/
def CodePoint.isPlain (c : CodePoint) : Bool := !c.closer?.isSome && !c.isCloser && !c.isQuote

namespace Text

/-- The code point is neither the quote nor a backslash, unless a backslash hides it. -/
def LiteralPart.isApart (quote : CodePoint) : LiteralPart → Bool
  | plain c => c ≠ quote && c ≠ .scalar '\\'
  | hidden _ => true

/-- Anything between two quotes of a kind. Unlike a literal it may go on in the next line. -/
structure Quotation where
  quote : CodePoint
  parts : List LiteralPart
  isQuote : quote.isQuote = true
  apart : ∀ part ∈ parts, part.isApart quote = true

/-- The quotation without its opening quote. -/
def Quotation.inside (q : Quotation) : Text := q.parts.flatMap LiteralPart.text ++ [q.quote]

def Quotation.text (q : Quotation) : Text := q.quote :: q.inside

/-- Text in which every bracket and every quotation is closed. -/
inductive Nested : Text → Prop
  | nil : Nested []
  | plain {c : CodePoint} {u : Text} (isPlain : c.isPlain = true) (rest : Nested u) :
      Nested (c :: u)
  | quoted (q : Quotation) {u : Text} (rest : Nested u) : Nested (q.text ++ u)
  | enclosed {c closer : CodePoint} {u v : Text} (opens : c.closer? = some closer)
      (inside : Nested u) (rest : Nested v) : Nested (c :: (u ++ closer :: v))

/-- The bracket at index `i` is closed at index `e`. -/
structure Encloses (t : Text) (i e : Nat) : Prop where
  inOrder : i < e
  pair : ∃ c closer, t[i]? = some c ∧ c.closer? = some closer ∧ t[e]? = some closer
  nested : Nested (t.slice (i + 1) e)

theorem ne_backslash {quote : CodePoint} (isQuote : quote.isQuote = true) :
    quote ≠ .scalar '\\' := by
  rintro rfl
  cases isQuote

section Reading

variable (stack : List CodePoint) (i : Nat) (rest : Text)

theorem closing?_plain {c : CodePoint} (isPlain : c.isPlain = true) :
    closing? stack none i (c :: rest) = closing? stack none (i + 1) rest := by
  simp only [CodePoint.isPlain, Bool.and_eq_true, Bool.not_eq_true'] at isPlain
  obtain ⟨⟨opens, closes⟩, quotes⟩ := isPlain
  rw [Option.isSome_eq_false_iff, Option.isNone_iff_eq_none] at opens
  rw [closing?.eq_def]
  simp [opens, closes, quotes]

variable {quote : CodePoint}

theorem closing?_quote (isQuote : quote.isQuote = true) :
    closing? stack none i (quote :: rest) = closing? stack (some quote) (i + 1) rest := by
  rw [closing?.eq_def]
  simp [isQuote]

theorem closing?_part {part : LiteralPart} (apart : part.isApart quote = true) :
    closing? stack (some quote) i (part.text ++ rest) =
      closing? stack (some quote) (i + part.text.length) rest := by
  cases part with
  | hidden c => rfl
  | plain c =>
    simp only [LiteralPart.isApart, Bool.and_eq_true, decide_eq_true_eq] at apart
    rw [LiteralPart.text, List.singleton_append, closing?.eq_def]
    simp [apart]

private theorem closing?_parts {parts : List LiteralPart}
    (apart : ∀ part ∈ parts, part.isApart quote = true) :
    closing? stack (some quote) i (parts.flatMap LiteralPart.text ++ rest) =
      closing? stack (some quote) (i + (parts.flatMap LiteralPart.text).length) rest := by
  induction parts generalizing i with
  | nil => rfl
  | cons part parts ih =>
    rw [List.forall_mem_cons] at apart
    rw [List.flatMap_cons, List.append_assoc, closing?_part _ _ _ apart.1, ih _ apart.2,
      List.length_append, Nat.add_assoc]

theorem closing?_endQuote (isQuote : quote.isQuote = true) :
    closing? stack (some quote) i (quote :: rest) = closing? stack none (i + 1) rest := by
  rw [closing?.eq_def]
  simp [ne_backslash isQuote]

end Reading

private theorem Quotation.closed (q : Quotation) : Closed q.text := by
  intro awaited below i rest
  rw [text, inside, List.cons_append, List.append_assoc, List.singleton_append,
    closing?_quote _ _ _ q.isQuote, closing?_parts _ _ _ q.apart, closing?_endQuote _ _ _ q.isQuote]
  congr 1
  simp only [List.length_cons, List.length_append, List.length_nil]
  omega

private theorem Nested.closed {u : Text} (nested : Nested u) : Closed u := by
  induction nested with
  | nil => exact closed_nil
  | plain isPlain _ ih =>
    have single : Closed [_] := fun awaited below i rest =>
      closing?_plain (awaited :: below) i rest isPlain
    exact single.append ih
  | quoted q _ ih => exact q.closed.append ih
  | enclosed opens _ _ ih ih' =>
    have whole := (ih.enclosed opens).append ih'
    simpa using whole

private theorem quotation_cases (quote : CodePoint) (t : Text) :
    t = [] ∨ t = [.scalar '\\'] ∨ (∃ rest, t = quote :: rest) ∨
      ∃ (part : LiteralPart) (rest : Text), part.isApart quote = true ∧ t = part.text ++ rest := by
  cases t with
  | nil => exact .inl rfl
  | cons c more =>
    by_cases ends : c = quote
    · exact .inr (.inr (.inl ⟨more, by rw [ends]⟩))
    by_cases backslash : c = .scalar '\\'
    · cases more with
      | nil => exact .inr (.inl (by rw [backslash]))
      | cons d more => exact .inr (.inr (.inr ⟨.hidden d, more, rfl, by rw [backslash]; rfl⟩))
    · have here : (LiteralPart.plain c).isApart quote = true := by
        simp [LiteralPart.isApart, ends, backslash]
      exact .inr (.inr (.inr ⟨.plain c, more, here, rfl⟩))

private theorem exists_parts {stack : List CodePoint} {quote : CodePoint}
    (isQuote : quote.isQuote = true)
    {i e : Nat} {t : Text} (found : closing? stack (some quote) i t = some e) :
    ∃ (parts : List LiteralPart) (rest : Text), (∀ part ∈ parts, part.isApart quote = true) ∧
      t = parts.flatMap LiteralPart.text ++ quote :: rest ∧
      closing? stack none (i + (parts.flatMap LiteralPart.text).length + 1) rest = some e := by
  induction size : t.length using Nat.strongRecOn generalizing t i with
  | ind n ih =>
    rcases quotation_cases quote t with rfl | rfl | ⟨rest, rfl⟩ | ⟨part, rest, apart, rfl⟩
    · cases found
    · cases found
    · rw [closing?_endQuote _ _ _ isQuote] at found
      exact ⟨[], rest, by simp, rfl, found⟩
    · rw [closing?_part _ _ _ apart] at found
      have shorter : rest.length < n := by
        have some : 0 < part.text.length := by cases part <;> exact Nat.succ_pos _
        rw [List.length_append] at size
        omega
      obtain ⟨parts, rest', others, rfl, goes⟩ := ih _ shorter found rfl
      refine ⟨part :: parts, rest', List.forall_mem_cons.mpr ⟨apart, others⟩, ?_, ?_⟩
      · rw [List.flatMap_cons, List.append_assoc]
      · rwa [List.flatMap_cons, List.length_append, ← Nat.add_assoc]

private theorem kind_cases (c : CodePoint) :
    c.isPlain = true ∨ c.isQuote = true ∨ (∃ closer, c.closer? = some closer) ∨
      c.isCloser = true ∧ c.isQuote = false ∧ c.closer? = none := by
  cases opens : c.closer? with
  | some closer => exact .inr (.inr (.inl ⟨closer, rfl⟩))
  | none =>
    cases quotes : c.isQuote with
    | true => exact .inr (.inl rfl)
    | false =>
      cases closes : c.isCloser with
      | true => exact .inr (.inr (.inr ⟨rfl, rfl, rfl⟩))
      | false => exact .inl (by simp [CodePoint.isPlain, opens, quotes, closes])

/-- The closer that is awaited first stands behind nested text, and from there on the others are
awaited. -/
theorem exists_nested {awaited : CodePoint} {below : List CodePoint} {i e : Nat} {t : Text}
    (found : closing? (awaited :: below) none i t = some e) :
    ∃ u rest, Nested u ∧ t = u ++ awaited :: rest ∧
      (if below.isEmpty then some (i + u.length) else closing? below none (i + u.length + 1) rest) =
        some e := by
  induction size : t.length using Nat.strongRecOn generalizing t i awaited below with
  | ind n ih =>
    cases t with
    | nil => cases found
    | cons c t =>
      rw [List.length_cons] at size
      rcases kind_cases c with isPlain | isQuote | ⟨closer, opens⟩ | ⟨closes, quotes, opens⟩
      · rw [closing?_plain _ _ _ isPlain] at found
        obtain ⟨u, rest, nested, rfl, goes⟩ := ih _ (by omega) found rfl
        refine ⟨c :: u, rest, .plain isPlain nested, rfl, ?_⟩
        rwa [List.length_cons, Nat.add_comm u.length, ← Nat.add_assoc]
      · rw [closing?_quote _ _ _ isQuote] at found
        obtain ⟨parts, more, apart, rfl, behind⟩ := exists_parts isQuote found
        have shorter : more.length < n := by
          rw [List.length_append, List.length_cons] at size
          omega
        obtain ⟨u, rest, nested, rfl, goes⟩ := ih _ shorter behind rfl
        have quoted := Nested.quoted ⟨c, parts, isQuote, apart⟩ nested
        refine ⟨_, rest, quoted, ?_, ?_⟩
        · simp [Quotation.text, Quotation.inside]
        · rw [← goes]
          have long : i + ((Quotation.mk c parts isQuote apart).text ++ u).length =
              i + 1 + (parts.flatMap LiteralPart.text).length + 1 + u.length := by
            simp only [Quotation.text, Quotation.inside, List.length_cons, List.length_append,
              List.length_nil]
            omega
          rw [long]
      · -- the bracket is closed first, and the closer that was awaited before it comes later
        rw [closing?_opener opens] at found
        obtain ⟨u, more, inside, rfl, behind⟩ := ih _ (by omega) found rfl
        have shorter : more.length < n := by
          rw [List.length_append, List.length_cons] at size
          omega
        obtain ⟨v, rest, nested, rfl, goes⟩ := ih _ shorter behind rfl
        refine ⟨_, rest, .enclosed opens inside nested, by simp, ?_⟩
        rw [← goes]
        have long : i + (c :: (u ++ closer :: v)).length = i + 1 + u.length + 1 + v.length := by
          simp only [List.length_cons, List.length_append]
          omega
        rw [long]
      · rw [closing?.eq_def] at found
        simp only [quotes, opens, closes, if_true, Bool.false_eq_true, if_false] at found
        split at found
        · cases found
        · rename_i same
          obtain rfl := not_not.mp same
          exact ⟨[], t, .nil, rfl, found⟩

private theorem closing?_eq_some_iff {c closer : CodePoint} (opens : c.closer? = some closer)
    {i e : Nat}
    {t : Text} : closing? [closer] none i t = some e ↔
      ∃ u rest, Nested u ∧ t = u ++ closer :: rest ∧ e = i + u.length := by
  constructor
  · intro found
    obtain ⟨u, rest, nested, split, stop⟩ := exists_nested found
    exact ⟨u, rest, nested, split, (Option.some.inj stop).symm⟩
  · rintro ⟨u, rest, nested, rfl, rfl⟩
    rw [nested.closed, closing?_closer opens]
    rfl

private theorem drop_of_getElem? {t : Text} {i : Nat} {c : CodePoint} (entry : t[i]? = some c) :
    t.drop i = c :: t.drop (i + 1) := by
  obtain ⟨bound, rfl⟩ := List.getElem?_eq_some_iff.mp entry
  exact List.drop_eq_getElem_cons bound

private theorem encloses_iff {t : Text} {i e : Nat} :
    t.Encloses i e ↔ ∃ c closer u rest, c.closer? = some closer ∧
      t.drop i = c :: (u ++ closer :: rest) ∧ Nested u ∧ e = i + 1 + u.length := by
  constructor
  · intro encloses
    obtain ⟨c, closer, start, opens, stop⟩ := encloses.pair
    have order := encloses.inOrder
    have inside : e < t.length := (List.getElem?_eq_some_iff.mp stop).choose
    refine ⟨c, closer, t.slice (i + 1) e, t.drop (e + 1), opens, ?_, encloses.nested, ?_⟩
    · have behind : (t.drop (i + 1)).drop (e - (i + 1)) = t.drop e := by
        rw [List.drop_drop, Nat.add_sub_cancel' order]
      rw [drop_of_getElem? start, ← drop_of_getElem? stop, ← behind, slice, List.take_append_drop]
    · rw [slice, List.length_take, List.length_drop]
      omega
  · rintro ⟨c, closer, u, rest, opens, split, nested, rfl⟩
    have entry (k : Nat) : t[i + k]? = (c :: (u ++ closer :: rest))[k]? := by
      rw [← split, List.getElem?_drop]
    refine ⟨by omega, ⟨c, closer, entry 0, opens, ?_⟩, ?_⟩
    · rw [Nat.add_assoc, entry, Nat.add_comm 1, List.getElem?_cons_succ]
      simp
    · have behind : t.drop (i + 1) = u ++ closer :: rest := by
        rw [← List.drop_drop, split, List.drop_one, List.tail_cons]
      rwa [slice, behind, Nat.add_sub_cancel_left, List.take_left]

theorem balancedSpan_eq_some {t : Text} {i : Nat} {span : Nat × Nat} :
    t.balancedSpan i = some span ↔ ∃ e, span = (i + 1, e) ∧ t.Encloses i e := by
  rw [balancedSpan]
  constructor
  · intro found
    split at found
    · cases found
    · rename_i c more start
      obtain ⟨closer, opens, found⟩ := Option.bind_eq_some_iff.mp found
      obtain ⟨e, stop, result⟩ := Option.bind_eq_some_iff.mp found
      obtain ⟨u, rest, nested, rfl, rfl⟩ := (closing?_eq_some_iff opens).mp stop
      refine ⟨_, (Option.some.inj result).symm, ?_⟩
      exact encloses_iff.mpr ⟨c, closer, u, rest, opens, start, nested, rfl⟩
  · rintro ⟨e, rfl, encloses⟩
    obtain ⟨c, closer, u, rest, opens, start, nested, rfl⟩ := encloses_iff.mp encloses
    have stop := (closing?_eq_some_iff opens (i := i + 1)).mpr ⟨u, rest, nested, rfl, rfl⟩
    rw [start]
    dsimp only
    rw [opens, Option.bind_eq_bind, Option.bind_some, stop]
    rfl

/-- The span of a bracket is given just if it is closed behind nested text. That can be so in one
place only, and there is no span if it is nowhere so. -/
theorem balancedSpan_eq_some_iff (t : Text) (i : Nat) :
    (∀ e, t.balancedSpan i = some (i + 1, e) ↔ t.Encloses i e) ∧
      (∀ e e', t.Encloses i e → t.Encloses i e' → e = e') ∧
      (t.balancedSpan i = none ↔ ¬∃ e, t.Encloses i e) := by
  have spans (e : Nat) : t.balancedSpan i = some (i + 1, e) ↔ t.Encloses i e := by
    rw [balancedSpan_eq_some]
    simp
  refine ⟨spans, ?_, ?_⟩
  · intro e e' first second
    have same := ((spans e).mpr first).symm.trans ((spans e').mpr second)
    simpa using same
  · rw [Option.eq_none_iff_forall_ne_some]
    simp only [ne_eq, balancedSpan_eq_some]
    constructor
    · rintro none ⟨e, encloses⟩
      exact none (i + 1, e) ⟨e, rfl, encloses⟩
    · rintro none span ⟨e, _, encloses⟩
      exact none ⟨e, encloses⟩

/-- A closer in quotes and one that a backslash hides do not count. -/
example :
    (ofString "f(a, \x7b b: ')\\'' \x7d) + 1").balancedSpan 1 = some (2, 17) ∧
      (ofString "f(a]").balancedSpan 1 = none ∧ (ofString "('\\').").balancedSpan 0 = none := by
  decide +kernel

end Text
end ExportInventory
