import ExportInventory.Proofs.DefaultStatement
import Mathlib.Data.List.Infix

/-!
The statement `export default connect(…)(x);`. The arguments are read up to the parenthesis that
closes them, as long as parentheses in them are nested at most two deep; arguments that are nested
deeper are not read at all.
-/
namespace ExportInventory

namespace Text

/-- How many more parentheses are opened than closed. -/
def openParens (t : Text) : Int := t.count (CodePoint.scalar '(') - t.count (CodePoint.scalar ')')

/-- All parentheses are closed, and none before it is opened. -/
structure IsBalanced (t : Text) : Prop where
  closed : t.openParens = 0
  opened : ∀ u, u <+: t → 0 ≤ openParens u

def NestsWithin (t : Text) (depth : Nat) : Prop := ∀ u, u <+: t → openParens u ≤ depth

instance (t : Text) (P : Text → Prop) [DecidablePred P] : Decidable (∀ u, u <+: t → P u) :=
  decidable_of_iff (∀ u ∈ t.inits, P u) (by simp only [List.mem_inits])

instance (t : Text) : Decidable t.IsBalanced :=
  decidable_of_iff (t.openParens = 0 ∧ ∀ u, u <+: t → 0 ≤ openParens u)
    ⟨fun both => ⟨both.1, both.2⟩, fun balanced => ⟨balanced.closed, balanced.opened⟩⟩

instance (t : Text) (depth : Nat) : Decidable (t.NestsWithin depth) :=
  inferInstanceAs (Decidable (∀ u, u <+: t → openParens u ≤ depth))

def parenStep (c : CodePoint) : Int :=
  if c = CodePoint.scalar '(' then 1 else if c = CodePoint.scalar ')' then -1 else 0

private theorem openParens_cons (c : CodePoint) (t : Text) :
    openParens (c :: t) = parenStep c + openParens t := by
  unfold openParens parenStep
  rw [List.count_cons, List.count_cons]
  by_cases isOpen : c = CodePoint.scalar '('
  · subst isOpen
    simp
    omega
  · by_cases isClose : c = CodePoint.scalar ')'
    · subst isClose
      simp
      omega
    · simp [isOpen, isClose]

private theorem forall_prefix_cons {c : CodePoint} {t : Text} {P : Text → Prop} :
    (∀ u, u <+: c :: t → P u) ↔ P [] ∧ ∀ u, u <+: t → P (c :: u) := by
  constructor
  · intro all
    exact ⟨all [] List.nil_prefix, fun u ahead => all (c :: u) (List.prefix_cons_inj c |>.mpr ahead)⟩
  · intro ⟨first, later⟩ u ahead
    rcases List.prefix_cons_iff.mp ahead with rfl | ⟨v, rfl, inside⟩
    · exact first
    · exact later v inside

end Text

namespace Sketch

open Matcher

theorem Matcher.repeated_of_none {m : Matcher Unit} {place : Place} (fails : m place = none)
    (fuel : Nat) : repeated m fuel place = some (0, place) := by
  cases fuel with
  | zero => rfl
  | succ fuel => exact orElse_of_none (bind_of_none fails _) _

/-- How far it is to the end of arguments, given how deep they are nested so far and may be. -/
def argumentsLength? (limit depth : Nat) : Text → Option Nat
  | [] => none
  | c :: rest =>
    if c = '(' then
      if depth < limit then (argumentsLength? limit (depth + 1) rest).map (· + 1) else none
    else if c = ')' then
      if depth = 0 then some 1 else (argumentsLength? limit (depth - 1) rest).map (· + 1)
    else (argumentsLength? limit depth rest).map (· + 1)

private theorem argumentsLength?_succ (limit depth : Nat) (t : Text) :
    argumentsLength? (limit + 1) (depth + 1) t = (argumentsLength? limit depth t).bind fun n =>
      (argumentsLength? (limit + 1) 0 (t.drop n)).map (n + ·) := by
  have shifted (x : Option Nat) (c : CodePoint) (t : Text) :
      (x.bind fun n => (argumentsLength? (limit + 1) 0 (t.drop n)).map (n + ·)).map (· + 1) =
        (x.map (· + 1)).bind fun n =>
          (argumentsLength? (limit + 1) 0 ((c :: t).drop n)).map (n + ·) := by
    cases x with
    | none => rfl
    | some n => simp [Function.comp_def, Nat.add_right_comm]
  induction t generalizing depth with
  | nil => rfl
  | cons c t ih =>
    rw [argumentsLength?, argumentsLength?]
    by_cases isOpen : c = CodePoint.scalar '('
    · rw [if_pos isOpen, if_pos isOpen]
      by_cases room : depth < limit
      · rw [if_pos (Nat.succ_lt_succ room), if_pos room, ih, shifted _ c]
      · rw [if_neg (by omega), if_neg room]
        rfl
    · rw [if_neg isOpen, if_neg isOpen]
      by_cases isClose : c = CodePoint.scalar ')'
      · rw [if_pos isClose, if_pos isClose, if_neg (Nat.succ_ne_zero depth)]
        cases depth with
        | zero => simp [Nat.add_comm 1]
        | succ depth =>
          rw [if_neg (Nat.succ_ne_zero depth), ← shifted _ c]
          exact congrArg _ (ih depth)
      · rw [if_neg isClose, if_neg isClose, ih, shifted _ c]

theorem Place.rest_skip_take (p : Place) (n : Nat) :
    (p.skip (p.rest.take n)).rest = p.rest.drop n := by
  rw [skip, List.length_take, ← List.drop_eq_drop_min]

theorem Place.skip_skip (p : Place) (n m : Nat) :
    (p.skip (p.rest.take n)).skip ((p.rest.drop n).take m) = p.skip (p.rest.take (n + m)) := by
  have read : p.rest.take (n + m) = p.rest.take n ++ (p.rest.drop n).take m := List.take_add
  rw [read, skip, skip, skip, List.getLast?_append, List.length_append, List.drop_drop,
    Option.or_assoc, Nat.add_assoc]

private theorem Matcher.exists_repeated (m : Matcher Unit) (fuel : Nat) (place : Place) :
    ∃ n behind, repeated m fuel place = some (n, behind) := by
  have total (round : Matcher Nat) :
      ∃ n behind, (round <|> pure 0 : Matcher Nat) place = some (n, behind) := by
    cases first : round place with
    | none => exact ⟨0, place, orElse_of_none first _⟩
    | some result => exact ⟨result.1, result.2, orElse_of_some first _⟩
  cases fuel with
  | zero => exact ⟨0, place, rfl⟩
  | succ fuel => exact total _

section Repeated

variable {α : Type} {m : Matcher Unit} {place : Place} (fuel : Nat) (k : Matcher α)

private theorem Matcher.repeated_bind_of_none (fails : m place = none) :
    (do let _ ← repeated m fuel; k : Matcher α) place = k place := by
  rw [bind_apply, repeated_of_none fails]
  rfl

private theorem Matcher.repeated_bind_of_some {next : Place} (first : m place = some ((), next)) :
    (do let _ ← repeated m (fuel + 1); k : Matcher α) place =
      (do let _ ← repeated m fuel; k : Matcher α) next := by
  obtain ⟨n, behind, more⟩ := exists_repeated m fuel next
  have rounds : repeated m (fuel + 1) place = some (n + 1, behind) := by
    apply orElse_of_some
    rw [bind_apply, first, Option.bind_some, bind_apply, more]
    rfl
  rw [bind_apply, bind_apply, rounds, more]
  rfl

end Repeated

private theorem noParenthesis_cons {c : CodePoint} (other : c ≠ .scalar '(' ∧ c ≠ .scalar ')')
    (previous : Option CodePoint) (offset : Nat) (t : Text) :
    noParenthesis ⟨previous, offset, c :: t⟩ = some ((), ⟨some c, offset + 1, t⟩) := by
  rw [noParenthesis, bind_apply, one]
  simp [other]
  rfl

private theorem argument_cons {c : CodePoint} (other : c ≠ .scalar '(' ∧ c ≠ .scalar ')')
    (limit : Nat)
    (previous : Option CodePoint) (offset : Nat) (t : Text) :
    argument limit ⟨previous, offset, c :: t⟩ = some ((), ⟨some c, offset + 1, t⟩) := by
  cases limit with
  | zero => exact noParenthesis_cons other previous offset t
  | succ limit => exact orElse_of_some (noParenthesis_cons other previous offset t) _

theorem literal_cons_ne {c d : CodePoint} {s : String} (single : Text.ofString s = [d])
    (other : c ≠ d) (previous : Option CodePoint) (offset : Nat) (t : Text) :
    literal s ⟨previous, offset, c :: t⟩ = none := by
  rw [literal, if_neg]
  simp [Text.startsWith, single, other.symm]

private theorem argument_close (limit : Nat) (previous : Option CodePoint) (offset : Nat)
    (t : Text) :
    argument limit ⟨previous, offset, .scalar ')' :: t⟩ = none := by
  cases limit with
  | zero => rfl
  | succ limit =>
    apply orElse_of_none rfl _ |>.trans
    exact bind_of_none (literal_cons_ne rfl (by decide) previous offset t) _

private theorem argument_nil (limit : Nat) (previous : Option CodePoint) (offset : Nat) :
    argument limit ⟨previous, offset, []⟩ = none := by
  cases limit <;> rfl

/-- How far it is to the end of the arguments that are opened, if they may be nested. -/
def innerLength? : Nat → Text → Option Nat
  | 0, _ => none
  | limit + 1, t => argumentsLength? limit 0 t

private theorem argumentsLength?_open (limit : Nat) (t : Text) :
    argumentsLength? limit 0 (.scalar '(' :: t) = (innerLength? limit t).bind fun n =>
      (argumentsLength? limit 0 (t.drop n)).map (n + 1 + ·) := by
  cases limit with
  | zero => rfl
  | succ limit =>
    rw [argumentsLength?, if_pos rfl, if_pos (Nat.succ_pos limit), argumentsLength?_succ,
      innerLength?, Option.map_bind]
    congr
    funext n
    simp [Function.comp_def, Nat.add_right_comm]

/-- The place behind what is left of arguments. -/
def behindArguments? (limit : Nat) (place : Place) : Option (Unit × Place) :=
  (argumentsLength? limit 0 place.rest).map fun n => ((), place.skip (place.rest.take n))

private theorem behindArguments?_skip (limit : Nat) (place : Place) (n : Nat) :
    behindArguments? limit (place.skip (place.rest.take n)) =
      ((argumentsLength? limit 0 (place.rest.drop n)).map (n + ·)).map fun k =>
        ((), place.skip (place.rest.take k)) := by
  rw [behindArguments?, Place.rest_skip_take, Option.map_map]
  simp only [Place.skip_skip, Function.comp_def]

section Rest

variable {limit : Nat}
  (opens : ∀ previous offset t, argument limit ⟨previous, offset, .scalar '(' :: t⟩ =
    (innerLength? limit t).map fun n =>
      ((), Place.skip ⟨previous, offset, .scalar '(' :: t⟩ ((.scalar '(' :: t).take (n + 1))))

include opens in
private theorem repeated_argument_of_open (fuel : Nat) (place : Place)
    (enough : place.rest.length ≤ fuel) :
    (do let _ ← repeated (argument limit) fuel; literal ")" : Matcher Unit) place =
      behindArguments? limit place := by
  induction fuel generalizing place with
  | zero =>
    obtain ⟨previous, offset, t⟩ := place
    obtain rfl := List.length_eq_zero_iff.mp (Nat.le_zero.mp enough)
    rfl
  | succ fuel ih =>
    obtain ⟨previous, offset, t⟩ := place
    cases t with
    | nil => exact repeated_bind_of_none _ _ (argument_nil limit previous offset)
    | cons c t =>
      have later (n : Nat) := ih (Place.skip ⟨previous, offset, c :: t⟩ ((c :: t).take (n + 1))) (by
        have size : t.length + 1 ≤ fuel + 1 := enough
        rw [Place.rest_skip_take, List.length_drop, List.length_cons]
        omega)
      by_cases isOpen : c = .scalar '('
      · subst isOpen
        cases inner : innerLength? limit t with
        | none =>
          rw [repeated_bind_of_none _ _ (by rw [opens, inner]; rfl), behindArguments?]
          dsimp only
          rw [argumentsLength?_open, inner]
          exact literal_cons_ne rfl (by decide) previous offset t
        | some n =>
          rw [repeated_bind_of_some _ _ (by rw [opens, inner]; rfl), later n,
            behindArguments?_skip, behindArguments?]
          dsimp only
          rw [argumentsLength?_open, inner, Option.bind_some, List.drop_succ_cons]
      · by_cases isClose : c = .scalar ')'
        · subst isClose
          rw [repeated_bind_of_none _ _ (argument_close limit previous offset t)]
          rfl
        · have read := argument_cons ⟨isOpen, isClose⟩ limit previous offset t
          refine ((repeated_bind_of_some _ _ read).trans (later 0)).trans ?_
          rw [behindArguments?_skip, behindArguments?, argumentsLength?, if_neg isOpen,
            if_neg isClose]
          simp only [Nat.add_comm _ 1]
          rfl

end Rest

/-- What is left of arguments is read to its end. -/
theorem repeated_argument (limit fuel : Nat) (place : Place) (enough : place.rest.length ≤ fuel) :
    (do let _ ← repeated (argument limit) fuel; literal ")" : Matcher Unit) place =
      behindArguments? limit place := by
  induction limit generalizing fuel place with
  | zero => exact repeated_argument_of_open (fun _ _ _ => rfl) fuel place enough
  | succ limit ih =>
    refine repeated_argument_of_open (fun previous offset t => ?_) fuel place enough
    have inner := ih t.length ⟨some (.scalar '('), offset + 1, t⟩ (Nat.le_refl _)
    have joined (n : Nat) : Place.skip ⟨some (.scalar '('), offset + 1, t⟩ (t.take n) =
        Place.skip ⟨previous, offset, .scalar '(' :: t⟩ ((.scalar '(' :: t).take (n + 1)) := by
      rw [Nat.add_comm n]
      exact Place.skip_skip ⟨previous, offset, .scalar '(' :: t⟩ 1 n
    refine (orElse_of_none rfl _).trans (inner.trans ?_)
    simp only [behindArguments?, joined, innerLength?]

theorem arguments_apply (previous : Option CodePoint) (offset : Nat) (t : Text) :
    arguments ⟨previous, offset, .scalar '(' :: t⟩ =
      behindArguments? 2 ⟨some (.scalar '('), offset + 1, t⟩ :=
  repeated_argument 2 t.length _ (Nat.le_refl _)

private theorem argumentsLength?_cons {c : CodePoint} {limit depth next : Nat} (t : Text)
    (step : (next : Int) = depth + Text.parenStep c) (bound : depth ≤ limit) :
    argumentsLength? limit depth (c :: t) =
      if next ≤ limit then (argumentsLength? limit next t).map (· + 1) else none := by
  unfold Text.parenStep at step
  rw [argumentsLength?]
  by_cases isOpen : c = CodePoint.scalar '('
  · rw [if_pos isOpen] at step
    obtain rfl : next = depth + 1 := by omega
    rw [if_pos isOpen]
    rfl
  · rw [if_neg isOpen] at step ⊢
    by_cases isClose : c = CodePoint.scalar ')'
    · rw [if_pos isClose] at step
      obtain rfl : next = depth - 1 := by omega
      rw [if_pos isClose, if_neg (by omega), if_pos (by omega)]
    · rw [if_neg isClose] at step
      obtain rfl : next = depth := by omega
      rw [if_neg isClose, if_pos bound]

/-- Arguments are read up to the parenthesis that closes them, unless they are nested too deep
somewhere. -/
theorem argumentsLength?_append (args rest : Text) {limit depth : Nat}
    (bound : depth ≤ limit) (opened : ∀ u, u <+: args → 0 ≤ depth + Text.openParens u)
    (closed : depth + args.openParens = 0) :
    argumentsLength? limit depth (args ++ CodePoint.scalar ')' :: rest) =
      if ∀ u, u <+: args → depth + Text.openParens u ≤ limit then some (args.length + 1)
      else none := by
  have empty : Text.openParens [] = 0 := rfl
  induction args generalizing depth with
  | nil =>
    obtain rfl : depth = 0 := by omega
    rw [if_pos]
    · rfl
    · intro u ahead
      rw [List.prefix_nil.mp ahead]
      exact Int.natCast_nonneg limit
  | cons c args ih =>
    obtain ⟨_, later⟩ := Text.forall_prefix_cons.mp opened
    simp only [Text.openParens_cons, ← Int.add_assoc] at later closed
    have inside := later [] List.nil_prefix
    obtain ⟨next, step⟩ := Int.eq_ofNat_of_zero_le (by omega : 0 ≤ depth + Text.parenStep c)
    have step : (next : Int) = depth + Text.parenStep c := step.symm
    rw [← step] at later closed inside
    -- the parentheses that are open behind the first code point are those that the rest starts with
    have ahead : (∀ u, u <+: c :: args → depth + Text.openParens u ≤ limit) ↔
        ∀ u, u <+: args → next + Text.openParens u ≤ limit := by
      rw [Text.forall_prefix_cons]
      simp only [Text.openParens_cons, ← Int.add_assoc, ← step]
      exact and_iff_right (by omega)
    rw [List.cons_append, argumentsLength?_cons _ step bound, List.length_cons]
    simp only [ahead]
    by_cases room : next ≤ limit
    · rw [if_pos room, ih room later closed]
      split <;> rfl
    · rw [if_neg room, if_neg]
      intro all
      have here := all [] List.nil_prefix
      omega

section Balanced

variable {args : Text} (balanced : args.IsBalanced)

include balanced in
theorem argumentsLength?_of_balanced (limit : Nat) (rest : Text) :
    argumentsLength? limit 0 (args ++ CodePoint.scalar ')' :: rest) =
      if args.NestsWithin limit then some (args.length + 1) else none := by
  have read := argumentsLength?_append args rest (Nat.zero_le limit)
  simp only [Int.natCast_zero, Int.zero_add] at read
  exact read balanced.opened balanced.closed

include balanced in
private theorem takes_arguments (nested : args.NestsWithin 2) (rest : Text) :
    Takes arguments (Text.ofString "(" ++ (args ++ Text.ofString ")")) () rest := by
  intro previous offset
  have length := (argumentsLength?_of_balanced balanced 2 rest).trans (if_pos nested)
  have split : args ++ CodePoint.scalar ')' :: rest = (args ++ Text.ofString ")") ++ rest :=
    (List.append_assoc args (Text.ofString ")") rest).symm
  have size : (args ++ Text.ofString ")").length = args.length + 1 := List.length_append
  have read := arguments_apply previous offset ((args ++ Text.ofString ")") ++ rest)
  rw [split, ← size] at length
  rw [behindArguments?, length, Option.map_some, List.take_left, Place.skip, List.drop_left] at read
  refine ⟨(args ++ Text.ofString ")").getLast?.or (some (.scalar '(')), read.trans ?_⟩
  have whole : (Text.ofString "(" ++ (args ++ Text.ofString ")")).length =
      1 + (args ++ Text.ofString ")").length := List.length_append
  rw [whole, ← Nat.add_assoc]

include balanced in
private theorem arguments_eq_none (deep : ¬args.NestsWithin 2) (rest : Text)
    (previous : Option CodePoint) (offset : Nat) :
    arguments ⟨previous, offset, Text.ofString "(" ++ (args ++ CodePoint.scalar ')' :: rest)⟩ =
      none := by
  have read := arguments_apply previous offset (args ++ CodePoint.scalar ')' :: rest)
  rw [behindArguments?, argumentsLength?_of_balanced balanced, if_neg deep] at read
  exact read

end Balanced

theorem takes_outerWrappers {rest : Text} (starts : rest.head? = some (.scalar 'c')) :
    Takes outerWrappers [] 0 rest := by
  intro previous offset
  have fails : callOf ["withRouter", "memo"] ⟨previous, offset, rest⟩ = none := by
    obtain ⟨more, rfl⟩ := List.head?_eq_some_iff.mp starts
    rfl
  exact ⟨previous, repeated_of_none fails _⟩

theorem Matcher.mem_all_zero_iff {α : Type} {m : Matcher α} {t : Text} (nonempty : t ≠ []) {a : α} :
    (0, a) ∈ m.all t ↔ ∃ behind, m ⟨none, 0, t⟩ = some (a, behind) := by
  obtain ⟨c, rest, rfl⟩ := List.exists_cons_of_ne_nil nonempty
  have later (skip : Nat) : (0, a) ∉ occurrences m skip (some c) 1 rest := by
    intro member
    obtain ⟨_, k, _, _, index, _⟩ := mem_occurrences member
    omega
  rw [all, occurrences]
  cases first : m ⟨none, 0, c :: rest⟩ with
  | none =>
    constructor
    · intro member
      exact absurd member (later 0)
    · rintro ⟨behind, read⟩
      cases read
  | some result =>
    constructor
    · intro member
      rcases List.mem_cons.mp member with here | behind
      · obtain ⟨_, rfl⟩ := Prod.mk.inj here
        exact ⟨result.2, rfl⟩
      · exact absurd behind (later _)
    · rintro ⟨behind, read⟩
      rw [Option.some.inj read]
      exact List.mem_cons_self

theorem Strategy.mem_scan_connector {t : Text} {fileName : String} {f : FoundExport} :
    f ∈ Strategy.connector.scan t fileName ↔
      (∃ i name, (i, name) ∈ connectedDefault.all t ∧ f = .default i name) ∨
        ∃ i names, (i, names) ∈ connectedVariable.all t ∧
          (defaultOf names.1).occurs t 0 = true ∧ f = .default i names.2 := by
  rw [scan, scanConnected, byOffset, List.mem_mergeSort, List.mem_append, List.mem_map, List.mem_map]
  apply or_congr
  · constructor
    · rintro ⟨⟨i, name⟩, inside, same⟩
      exact ⟨i, name, inside, same.symm⟩
    · rintro ⟨i, name, inside, same⟩
      exact ⟨⟨i, name⟩, inside, same.symm⟩
  · constructor
    · rintro ⟨⟨i, names⟩, inside, same⟩
      obtain ⟨found, exported⟩ := List.mem_filter.mp inside
      exact ⟨i, names, found, exported, same.symm⟩
    · rintro ⟨i, names, found, exported, same⟩
      exact ⟨⟨i, names⟩, List.mem_filter.mpr ⟨found, exported⟩, same.symm⟩

section Statement

variable {args : Text} {x : String}

def connectedText (args : Text) (x : String) : Text :=
  Text.ofString "export default connect(" ++ (args ++ Text.ofString (")(" ++ x ++ ");"))

theorem connectedText_eq (args : Text) (x : String) :
    connectedText args x = Text.ofString "export default " ++ (Text.ofString "connect" ++
      (Text.ofString "(" ++ (args ++ (Text.ofString ")" ++ (Text.ofString "(" ++ (Text.ofString x ++
        (Text.ofString ")" ++ Text.ofString ";"))))))) := by
  have start : Text.ofString "export default connect(" =
      Text.ofString "export default " ++ (Text.ofString "connect" ++ Text.ofString "(") := rfl
  have middle : Text.ofString ")(" = Text.ofString ")" ++ Text.ofString "(" := rfl
  have last : Text.ofString ");" = Text.ofString ")" ++ Text.ofString ";" := rfl
  rw [connectedText, Text.ofString_append, Text.ofString_append, start, middle, last]
  simp only [List.append_assoc]

theorem connectedDefault_of_nests (balanced : args.IsBalanced) (nested : args.NestsWithin 2)
    (plain : Name.isPlain x = true) :
    ∃ behind, connectedDefault ⟨none, 0, connectedText args x⟩ = some (x, behind) := by
  have solid : (Text.ofString x ++ (Text.ofString ")" ++ Text.ofString ";")).head?.any
      CodePoint.isBlank = false := by
    obtain ⟨c, rest, split⟩ := List.exists_cons_of_ne_nil (Name.ofString_ne_nil_of_isPlain plain)
    have part := Name.isPart_of_isPlain plain c (by rw [split]; exact List.mem_cons_self)
    rw [split]
    exact (CodePoint.not_mark_of_isPart part).1
  have read : Takes connectedDefault (Text.ofString "export default " ++ ([] ++
      (Text.ofString "connect" ++ ([] ++ ((Text.ofString "(" ++ (args ++ Text.ofString ")")) ++ ([] ++
      (Text.ofString "(" ++ ([] ++ (Text.ofString x ++ ([] ++ (Text.ofString ")" ++ [])))))))))))
      x (Text.ofString ";") :=
    (takes_exportDefault (by rfl)).bind <| (takes_outerWrappers (by rfl)).bind <|
      (takes_literal _ _).bind <| (takes_blanks (by simp) (by rfl)).bind <|
      (takes_arguments balanced nested _).bind <| (takes_blanks (by simp) (by rfl)).bind <|
      (takes_literal _ _).bind <| (takes_blanks (by simp) (by simpa using solid)).bind <|
      (takes_plain plain (by rfl)).bind <| (takes_blanks (by simp) (by rfl)).bind <|
      (takes_literal _ _).bind (takes_pure x _)
  obtain ⟨q, found⟩ := read none 0
  simp only [List.nil_append, List.append_nil, List.append_assoc] at found
  rw [connectedText_eq]
  exact ⟨_, found⟩

private theorem connectedDefault_of_deep (balanced : args.IsBalanced) (deep : ¬args.NestsWithin 2) :
    connectedDefault ⟨none, 0, connectedText args x⟩ = none := by
  rw [connectedText_eq]
  apply (takes_exportDefault rfl).bind_eq_none
  apply (takes_outerWrappers rfl).bind_eq_none
  apply (takes_literal "connect" _).bind_eq_none
  apply (takes_blanks (b := []) (by simp) rfl).bind_eq_none
  intro previous offset
  exact bind_of_none (arguments_eq_none balanced deep _ previous offset) _

private theorem nests_of_connectedDefault (balanced : args.IsBalanced)
    (plain : Name.isPlain x = true)
    {y : String} {behind : Place}
    (read : connectedDefault ⟨none, 0, connectedText args x⟩ = some (y, behind)) :
    args.NestsWithin 2 ∧ y = x := by
  have nested : args.NestsWithin 2 := by
    by_contra deep
    rw [connectedDefault_of_deep balanced deep] at read
    cases read
  obtain ⟨_, found⟩ := connectedDefault_of_nests balanced nested plain
  rw [found] at read
  exact ⟨nested, (Prod.mk.inj (Option.some.inj read)).1.symm⟩

theorem connectedText_ne_nil (args : Text) (x : String) : connectedText args x ≠ [] := by
  rw [connectedText_eq]
  exact List.cons_ne_nil _ _

private theorem connectedDefault_of_mem_scan {fileName : String} {f : FoundExport}
    (member : f ∈ Strategy.connector.scan (connectedText args x) fileName) (start : f.offset = 0) :
    ∃ y behind, f = .default 0 y ∧
      connectedDefault ⟨none, 0, connectedText args x⟩ = some (y, behind) := by
  have first {α : Type} {m : Matcher α} {a : α} := mem_all_zero_iff (m := m) (a := a)
    (connectedText_ne_nil args x)
  rcases Strategy.mem_scan_connector.mp member with ⟨i, y, inside, rfl⟩ | ⟨i, names, inside, _, rfl⟩
  · obtain rfl : i = 0 := start
    obtain ⟨behind, read⟩ := first.mp inside
    exact ⟨y, behind, rfl, read⟩
  · obtain rfl : i = 0 := start
    obtain ⟨behind, read⟩ := first.mp inside
    cases read

end Statement

/-- The statement gives its component at the start, exactly if the arguments are nested at most two
deep. -/
theorem connected_statement_iff {args : Text} {x : String} (balanced : args.IsBalanced)
    (name : Name.isIdentifier x = true) (oneLine : '\n' ∉ x.toList) (fileName : String) :
    ((∃ f ∈ Strategy.connector.scan (connectedText args x) fileName, f.offset = 0) ↔
        args.NestsWithin 2) ∧
      ∀ f ∈ Strategy.connector.scan (connectedText args x) fileName,
        f.offset = 0 → f = .default 0 x := by
  have plain := Name.isPlain_of_isIdentifier name oneLine
  constructor
  · constructor
    · intro ⟨f, member, start⟩
      obtain ⟨_, _, _, read⟩ := connectedDefault_of_mem_scan member start
      exact (nests_of_connectedDefault balanced plain read).1
    · intro nested
      have direct : (0, x) ∈ connectedDefault.all (connectedText args x) :=
        (mem_all_zero_iff (connectedText_ne_nil args x)).mpr
          (connectedDefault_of_nests balanced nested plain)
      exact ⟨.default 0 x, Strategy.mem_scan_connector.mpr (.inl ⟨0, x, direct, rfl⟩), rfl⟩
  · intro f member start
    obtain ⟨y, _, rfl, read⟩ := connectedDefault_of_mem_scan member start
    rw [(nests_of_connectedDefault balanced plain read).2]

def nestedArguments : Text := Text.ofString "(a) => pick(a, (b)),\n \x7b c: d() \x7d"

theorem nested_connected :
    nestedArguments.IsBalanced ∧ nestedArguments.NestsWithin 2 ∧
      ∃ f ∈ Strategy.connector.scan (connectedText nestedArguments "Tab") "Page",
        f = .default 0 "Tab" := by
  have balanced : nestedArguments.IsBalanced := by decide
  have nested : nestedArguments.NestsWithin 2 := by decide
  obtain ⟨found, same⟩ :=
    connected_statement_iff (x := "Tab") balanced (by decide) (by decide) "Page"
  obtain ⟨f, member, start⟩ := found.mpr nested
  exact ⟨balanced, nested, f, member, same f member start⟩

end Sketch
end ExportInventory
