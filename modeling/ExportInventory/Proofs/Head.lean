import ExportInventory.Proofs.DefaultStatement

/-!
Heads of definitions. The head of a region holds the name that was looked for as a token of its
own, but for two cases: a function whose name follows the word `function` directly, and a class
whose name goes on behind the head.
-/
namespace ExportInventory

namespace Sketch.Matcher

variable {α β : Type}

/-- The matcher reads a part of the text of the given shape. -/
def Consumes (m : Matcher α) (shape : Text → α → Prop) : Prop :=
  ∀ place a behind, m place = some (a, behind) →
    ∃ read, place.rest = read ++ behind.rest ∧ behind.offset = place.offset + read.length ∧
      shape read a

namespace Consumes

theorem bind {m : Matcher α} {f : α → Matcher β} {S : Text → α → Prop} {T : Text → β → Prop}
    (first : Consumes m S)
    (next : ∀ u a, S u a → Consumes (f a) fun v b => T (u ++ v) b) : Consumes (m >>= f) T := by
  intro place b behind ok
  obtain ⟨a, between, taken, more⟩ := bind_eq_some ok
  obtain ⟨u, ahead, offset, shape⟩ := first place a between taken
  obtain ⟨v, ahead', offset', shape'⟩ := next u a shape between b behind more
  refine ⟨u ++ v, ?_, ?_, shape'⟩
  · rw [ahead, ahead', List.append_assoc]
  · rw [offset', offset, List.length_append, Nat.add_assoc]

theorem mono {m : Matcher α} {S T : Text → α → Prop} (known : Consumes m S)
    (weaker : ∀ read a, S read a → T read a) : Consumes m T := by
  intro place a behind ok
  obtain ⟨read, ahead, offset, shape⟩ := known place a behind ok
  exact ⟨read, ahead, offset, weaker read a shape⟩

theorem orElse {m m' : Matcher α} {S : Text → α → Prop} (first : Consumes m S)
    (second : Consumes m' S) : Consumes (m <|> m') S := by
  intro place a behind ok
  change ((m place) <|> (m' place)) = some (a, behind) at ok
  cases here : m place with
  | some result =>
    rw [here] at ok
    exact first place a behind (here.trans ok)
  | none =>
    rw [here] at ok
    exact second place a behind ok

theorem of_still {m : Matcher α}
    (still : ∀ place a behind, m place = some (a, behind) → behind = place) :
    Consumes m fun read _ => read = [] := by
  intro place a behind ok
  obtain rfl := still place a behind ok
  exact ⟨[], rfl, rfl, rfl⟩

end Consumes

theorem consumes_pure (a : α) : Consumes (pure a) fun read b => read = [] ∧ b = a := by
  intro place b behind ok
  obtain ⟨rfl, rfl⟩ := Prod.mk.inj (Option.some.inj ok)
  exact ⟨[], rfl, rfl, rfl, rfl⟩

theorem consumes_literal (s : String) :
    Consumes (literal s) fun read _ => read = Text.ofString s := by
  intro place a behind ok
  obtain ⟨starts, rfl⟩ := literal_eq_some ok
  obtain ⟨rest, split⟩ := List.isPrefixOf_iff_prefix.mp starts
  exact ⟨_, by simp [Place.skip, ← split], rfl, rfl⟩

private theorem consumes_anyLiteral (ws : List String) :
    Consumes (anyLiteral ws) fun read _ => ∃ w ∈ ws, read = Text.ofString w := by
  intro place a behind ok
  obtain ⟨w, member, found⟩ := anyLiteral_eq_some ok
  obtain ⟨read, ahead, offset, word⟩ := consumes_literal w place a behind found
  exact ⟨read, ahead, offset, w, member, word⟩

theorem consumes_one (p : CodePoint → Bool) :
    Consumes (one p) fun read c => read = [c] ∧ p c = true := by
  intro place a behind ok
  unfold one at ok
  split at ok
  · cases ok
  · rename_i c rest here
    split at ok
    · rename_i holds
      obtain ⟨rfl, rfl⟩ := Prod.mk.inj (Option.some.inj ok)
      exact ⟨[c], here, rfl, rfl, holds⟩
    · cases ok

theorem consumes_span (p : CodePoint → Bool) :
    Consumes (span p) fun read a => read = a ∧ ∀ c ∈ a, p c = true := by
  intro place a behind ok
  obtain ⟨rfl, rfl⟩ := Prod.mk.inj (Option.some.inj ok)
  refine ⟨_, ?_, rfl, rfl, fun c member => List.all_eq_true.mp List.all_takeWhile c member⟩
  rw [Place.skip, Text.drop_takeWhile, List.takeWhile_append_dropWhile]

theorem consumes_blanks : Consumes blanks fun read _ => ∀ c ∈ read, c.isBlank = true := by
  refine (consumes_span _).bind fun u a ⟨same, blank⟩ => (consumes_pure ()).mono ?_
  intro v _ ⟨nothing, _⟩
  simpa [same, nothing] using blank

theorem consumes_gap :
    Consumes gap fun read _ => read ≠ [] ∧ ∀ c ∈ read, c.isBlank = true := by
  refine (consumes_one _).bind fun u c ⟨single, first⟩ => consumes_blanks.mono ?_
  intro v _ blank
  simpa [single] using ⟨first, blank⟩

theorem consumes_boundary : Consumes boundary fun read _ => read = [] := by
  refine .of_still fun place a behind ok => ?_
  unfold boundary at ok
  split at ok
  · exact (Prod.mk.inj (Option.some.inj ok)).2.symm
  · cases ok

private theorem consumes_notAhead (m : Matcher α) :
    Consumes (notAhead m) fun read _ => read = [] := by
  refine .of_still fun place a behind ok => ?_
  unfold notAhead at ok
  split at ok
  · cases ok
  · exact (Prod.mk.inj (Option.some.inj ok)).2.symm

theorem consumes_maybe {m : Matcher Unit} {S : Text → Unit → Prop} (known : Consumes m S) :
    Consumes (maybe m) fun read u => read = [] ∨ S read u :=
  (known.mono fun _ _ => .inr).orElse ((consumes_pure ()).mono fun _ _ shape => .inl shape.1)

theorem firstFrom?_eq_some {m : Matcher α} {previous : Option CodePoint} {offset i : Nat} {t : Text}
    {a : α} {behind : Place} (found : firstFrom? m previous offset t = some (i, a, behind)) :
    ∃ before k, k < t.length ∧ i = offset + k ∧ m ⟨before, i, t.drop k⟩ = some (a, behind) := by
  induction t generalizing previous offset with
  | nil => cases found
  | cons c rest ih =>
    rw [firstFrom?] at found
    split at found
    · rename_i result stop fits
      obtain ⟨rfl, rfl, rfl⟩ : offset = i ∧ result = a ∧ stop = behind := by simpa using found
      exact ⟨previous, 0, Nat.succ_pos _, rfl, fits⟩
    · obtain ⟨before, k, bound, index, fits⟩ := ih found
      exact ⟨before, k + 1, Nat.succ_lt_succ bound, by omega, fits⟩

end Sketch.Matcher

namespace Text

/-- Whether the string stands at an index with no character of an identifier next to it. -/
def isTokenAt (t : Text) (s : String) (i : Nat) : Bool :=
  startsWith (t.drop i) s && !(t.take i).getLast?.any CodePoint.continuesIdentifier &&
    !(t.drop (i + (ofString s).length)).head?.any CodePoint.continuesIdentifier

/-- The string is a token in a part of the text. -/
def HasToken (t : Text) (s : String) (start stop : Nat) : Prop :=
  ∃ i, start ≤ i ∧ i + (ofString s).length ≤ stop ∧ t.isTokenAt s i = true

instance (t : Text) (s : String) (start stop : Nat) : Decidable (t.HasToken s start stop) :=
  decidable_of_iff (∃ i < stop + 1, start ≤ i ∧ i + (ofString s).length ≤ stop ∧
      t.isTokenAt s i = true)
    ⟨fun ⟨i, _, here⟩ => ⟨i, here⟩, fun ⟨i, early, late, here⟩ => ⟨i, by omega, early, late, here⟩⟩

theorem HasToken.mono {t : Text} {s : String} {start start' stop stop' : Nat}
    (token : t.HasToken s start stop) (early : start' ≤ start) (late : stop ≤ stop') :
    t.HasToken s start' stop' := by
  obtain ⟨i, first, last, here⟩ := token
  exact ⟨i, Nat.le_trans early first, Nat.le_trans last late, here⟩

theorem isTokenAt_append (u v : Text) (s : String) :
    isTokenAt (u ++ (ofString s ++ v)) s u.length =
      (!u.getLast?.any CodePoint.continuesIdentifier &&
        !v.head?.any CodePoint.continuesIdentifier) := by
  have behind : (u ++ (ofString s ++ v)).drop (u.length + (ofString s).length) = v := by
    rw [← List.drop_drop, List.drop_left, List.drop_left]
  have starts : startsWith (ofString s ++ v) s = true :=
    List.isPrefixOf_iff_prefix.mpr (List.prefix_append _ _)
  rw [isTokenAt, behind, List.drop_left, List.take_left, starts, Bool.true_and]

private theorem getElem?_of_isTokenAt {t : Text} {s : String} {i k : Nat}
    (token : t.isTokenAt s i = true)
    (bound : k < (ofString s).length) : t[i + k]? = (ofString s)[k]? := by
  simp only [isTokenAt, Bool.and_eq_true] at token
  obtain ⟨rest, split⟩ := List.isPrefixOf_iff_prefix.mp token.1.1
  rw [← List.getElem?_drop, ← split, List.getElem?_append_left bound]

private theorem not_continues_of_isTokenAt {t : Text} {s : String} {i : Nat} {c : CodePoint}
    (token : t.isTokenAt s (i + 1) = true) (before : t[i]? = some c) :
    c.continuesIdentifier = false := by
  simp only [isTokenAt, Bool.and_eq_true, Bool.not_eq_true'] at token
  have last : (t.take (i + 1)).getLast? = some c := by
    rw [List.take_add_one, before]
    simp
  simpa [last] using token.1.2

end Text

namespace Name

private theorem isPart_of_mem_dropLast {cs : List Char} (parts : allParts cs = true) :
    ∀ c ∈ cs.dropLast, isPart c = true := by
  induction cs with
  | nil => simp
  | cons c rest ih =>
    cases rest with
    | nil => simp
    | cons d more =>
      rw [allParts.eq_3 c (d :: more) (by simp), Bool.and_eq_true] at parts
      simp only [List.dropLast_cons_cons, List.mem_cons, forall_eq_or_imp]
      exact ⟨parts.1, ih parts.2⟩

theorem parts_of_isIdentifier {name : String} (identifier : isIdentifier name = true) :
    (∃ c more, Text.ofString name = c :: more ∧ c.isPart = true) ∧
      ∀ c ∈ (Text.ofString name).dropLast, c.isPart = true := by
  unfold isIdentifier at identifier
  cases chars : name.toList with
  | nil => simp [chars] at identifier
  | cons first rest =>
    simp only [chars, Bool.and_eq_true] at identifier
    have start : isPart first = true := isPart_of_isStart identifier.1
    have split : Text.ofString name = .scalar first :: rest.map .scalar := by
      rw [Text.ofString, chars, List.map_cons]
    refine ⟨⟨_, _, split, start⟩, ?_⟩
    have parts : ∀ c ∈ (first :: rest).dropLast, isPart c = true := by
      cases rest with
      | nil => simp
      | cons d more =>
        simp only [List.dropLast_cons_cons, List.mem_cons, forall_eq_or_imp]
        exact ⟨start, isPart_of_mem_dropLast identifier.2⟩
    intro c member
    rw [Text.ofString, chars, ← List.map_dropLast] at member
    obtain ⟨d, inside, rfl⟩ := List.mem_map.mp member
    exact parts d inside

end Name

theorem CodePoint.not_continues_of_isBlank {c : CodePoint} (blank : c.isBlank = true) :
    c.continuesIdentifier = false := by
  cases c with
  | surrogate i => rfl
  | scalar x =>
    have each : ∀ n ∈ List.range' 9 5 ++ List.range' 28 5 ++ List.range' 0x2000 11 ++
        [0x85, 0xA0, 0x1680, 0x2028, 0x2029, 0x202F, 0x205F, 0x3000],
        (scalar (Char.ofNat n)).continuesIdentifier = false := by decide +kernel
    have value : (scalar x).toNat = x.toNat := rfl
    simp only [isBlank, Bool.or_eq_true, Bool.and_eq_true, decide_eq_true_eq, beq_iff_eq] at blank
    have here := each x.toNat (by
      simp only [List.mem_append, List.mem_range'_1, List.mem_cons, List.not_mem_nil, or_false]
      omega)
    rwa [Char.ofNat_toNat] at here

namespace Sketch.Region

open Matcher

/-- How a definition of a name starts. -/
inductive IsHead (name : String) : RegionKind → Text → Prop
  | ofFunction {apart more : Text} {c : CodePoint}
      (between : ∀ d ∈ apart, d.isBlank = true ∨ d = .scalar '*')
      (ends : c.continuesIdentifier = false) :
      IsHead name .function
        (Text.ofString "function" ++ (apart ++ (Text.ofString name ++ c :: more)))
  | ofVariable {word : String} {apart more : Text} {c : CodePoint}
      (known : word ∈ ["const", "let", "var"]) (nonempty : apart ≠ [])
      (blank : ∀ d ∈ apart, d.isBlank = true) (ends : c.continuesIdentifier = false) :
      IsHead name .variable (Text.ofString word ++ (apart ++ (Text.ofString name ++ c :: more)))
  | ofClass {apart : Text} (nonempty : apart ≠ []) (blank : ∀ d ∈ apart, d.isBlank = true) :
      IsHead name .classType (Text.ofString "class" ++ (apart ++ Text.ofString name))

private theorem consumes_functionWord : Consumes functionWord fun read _ => ∃ apart,
    read = Text.ofString "function" ++ apart ∧ ∀ d ∈ apart, d.isBlank = true ∨ d = .scalar '*' := by
  refine (consumes_literal _).bind fun _ _ word => consumes_blanks.bind fun b _ blank =>
    (consumes_maybe (consumes_literal _)).bind fun star _ starred => consumes_blanks.mono ?_
  intro b' _ blank'
  subst word
  refine ⟨_, rfl, fun d member => ?_⟩
  simp only [List.mem_append] at member
  rcases member with before | here | behind
  · exact .inl (blank d before)
  · rcases starred with rfl | rfl
    · cases here
    · exact .inr (by simpa [Text.ofString] using here)
  · exact .inl (blank' d behind)

theorem exists_end {b rest : Text} (blank : ∀ d ∈ b, d.isBlank = true)
    (ends : ∃ c more, rest = c :: more ∧ c.continuesIdentifier = false) :
    ∃ c more, b ++ rest = c :: more ∧ c.continuesIdentifier = false := by
  cases b with
  | nil => exact ends
  | cons d b =>
    exact ⟨d, b ++ rest, rfl, CodePoint.not_continues_of_isBlank (blank d List.mem_cons_self)⟩

private theorem consumes_functionOpening (name : String) :
    Consumes (functionOpening name) fun read kind => IsHead name kind read := by
  have parameters : Consumes typeParameters fun read _ => ∃ more, read = .scalar '<' :: more := by
    refine (consumes_literal _).bind fun _ _ mark => (consumes_span _).bind fun u _ _ =>
      (consumes_literal _).mono fun v _ _ => ⟨u ++ v, ?_⟩
    rw [mark]
    rfl
  refine consumes_functionWord.bind
    fun _ _ ⟨apart, word, between⟩ => (consumes_literal _).bind fun _ _ read =>
    consumes_blanks.bind fun b _ blank => (consumes_maybe parameters).bind fun p _ listed =>
    consumes_blanks.bind fun b' _ blank' => (consumes_literal _).bind fun _ _ mark =>
    (consumes_pure _).mono fun _ _ ⟨nothing, function⟩ => ?_
  subst word read mark nothing function
  have closing : ∃ c more, b' ++ (Text.ofString "(" ++ []) = c :: more ∧
      c.continuesIdentifier = false := exists_end blank' ⟨_, _, rfl, by decide⟩
  have list : ∃ c more, p ++ (b' ++ (Text.ofString "(" ++ [])) = c :: more ∧
      c.continuesIdentifier = false := by
    rcases listed with rfl | ⟨more, rfl⟩
    · exact closing
    · exact ⟨_, _, rfl, by decide⟩
  obtain ⟨c, more, split, ends⟩ := exists_end blank list
  rw [split, List.append_assoc]
  exact .ofFunction between ends

private theorem consumes_variableOpening (name : String) :
    Consumes (variableOpening name) fun read kind => IsHead name kind read := by
  have typed : Consumes annotation fun read _ => ∃ more, read = .scalar ':' :: more := by
    refine (consumes_literal _).bind fun _ _ mark => (consumes_one _).bind fun u _ _ =>
      (consumes_span _).bind fun v _ _ => (consumes_pure _).mono fun w _ _ => ⟨u ++ (v ++ w), ?_⟩
    rw [mark]
    rfl
  refine (consumes_anyLiteral _).bind
    fun _ _ ⟨word, known, spelled⟩ => consumes_gap.bind fun apart _ ⟨nonempty, blank⟩ =>
    (consumes_literal _).bind fun _ _ read => consumes_blanks.bind fun b _ blank' =>
    (consumes_maybe typed).bind fun p _ listed => (consumes_literal _).bind fun _ _ mark =>
    (consumes_notAhead _).bind fun _ _ single =>
    (consumes_pure _).mono fun _ _ ⟨nothing, variableKind⟩ => ?_
  subst spelled read mark single nothing variableKind
  have value : ∃ c more, p ++ (Text.ofString "=" ++ ([] ++ [])) = c :: more ∧
      c.continuesIdentifier = false := by
    rcases listed with rfl | ⟨more, rfl⟩
    · exact ⟨_, _, rfl, by decide⟩
    · exact ⟨_, _, rfl, by decide⟩
  obtain ⟨c, more, split, ends⟩ := exists_end blank' value
  rw [split]
  exact .ofVariable known nonempty blank ends

private theorem consumes_classOpening (name : String) :
    Consumes (classOpening name) fun read kind => IsHead name kind read := by
  refine (consumes_literal _).bind fun _ _ word =>
    consumes_gap.bind fun apart _ ⟨nonempty, blank⟩ => (consumes_literal _).bind fun _ _ read =>
    consumes_boundary.bind fun _ _ still =>
    (consumes_pure _).mono fun _ _ ⟨nothing, classKind⟩ => ?_
  subst word read still nothing classKind
  rw [List.append_nil, List.append_nil]
  exact .ofClass nonempty blank

private theorem consumes_head (name : String) :
    Consumes (head name) fun read kind => IsHead name kind read := by
  refine consumes_boundary.bind fun _ _ still => ?_
  subst still
  exact (consumes_functionOpening name).orElse
    ((consumes_variableOpening name).orElse (consumes_classOpening name))

theorem head_of_ofExport {t : Text} {found : FoundExport} {r : Region}
    (named : found.anonymous = false) (given : ofExport t found = .ok (some r)) :
    ∃ lead read rest, t = lead ++ (read ++ rest) ∧ IsHead found.name r.kind read ∧
      r.start = lead.length ∧ r.bodyStart = lead.length + read.length := by
  unfold ofExport at given
  rw [if_neg (by simp [named])] at given
  obtain ⟨⟨start, kind, behind⟩, first, rfl⟩ := Option.map_eq_some_iff.mp (Except.ok.inj given)
  obtain ⟨before, k, bound, index, fits⟩ := firstFrom?_eq_some first
  have same : start = k := index.trans (Nat.zero_add k)
  subst same
  obtain ⟨read, ahead, offset, shape⟩ := consumes_head found.name _ kind behind fits
  have whole : t.drop start = read ++ behind.rest := ahead
  have length : (t.take start).length = start := List.length_take_of_le (Nat.le_of_lt bound)
  refine ⟨t.take start, read, behind.rest, ?_, shape, length.symm, ?_⟩
  · rw [← whole, List.take_append_drop]
  · rw [length]
    exact offset

section Tokens

variable {name : String} {lead word apart tail : Text}

theorem hasToken_of_apart (nonempty : apart ≠ [])
    (between : ∀ d ∈ apart, d.continuesIdentifier = false)
    (ends : tail.head?.any CodePoint.continuesIdentifier = false) :
    Text.HasToken (lead ++ (word ++ (apart ++ (Text.ofString name ++ tail)))) name
      (lead.length + word.length + 1)
      (lead.length + (word.length + (apart.length + (Text.ofString name).length))) := by
  have last : (lead ++ (word ++ apart)).getLast?.any CodePoint.continuesIdentifier = false := by
    rw [← List.append_assoc, List.getLast?_append_of_ne_nil _ nonempty,
      List.getLast?_eq_some_getLast nonempty]
    exact between _ (List.getLast_mem nonempty)
  have long : 0 < apart.length := List.length_pos_iff.mpr nonempty
  refine ⟨(lead ++ (word ++ apart)).length, ?_, ?_, ?_⟩
  · simp only [List.length_append]
    omega
  · simp only [List.length_append]
    omega
  · have token := Text.isTokenAt_append (lead ++ (word ++ apart)) tail name
    simp only [List.append_assoc] at token
    rw [token, last, ends]
    rfl

/-- A name that follows a word directly is no token, and none starts inside of it. -/
theorem hasToken_behind (identifier : Name.isIdentifier name = true) {stop : Nat}
    (token : Text.HasToken (lead ++ (word ++ (Text.ofString name ++ tail))) name
      (lead.length + word.length + 1) stop) :
    Text.HasToken (lead ++ (word ++ (Text.ofString name ++ tail))) name
      (lead.length + word.length + (Text.ofString name).length) stop := by
  obtain ⟨i, start, stops, here⟩ := token
  refine ⟨i, ?_, stops, here⟩
  by_contra inside
  obtain ⟨j, rfl⟩ : ∃ j, i = lead.length + word.length + j + 1 :=
    ⟨i - lead.length - word.length - 1, by omega⟩
  -- the code point in front of it is one of the name, and not its last
  have early : j < (Text.ofString name).dropLast.length := by
    rw [List.length_dropLast]
    omega
  have before : (lead ++ (word ++ (Text.ofString name ++ tail)))[lead.length + word.length + j]? =
      some (Text.ofString name).dropLast[j] := by
    rw [Nat.add_assoc, List.getElem?_append_right (by omega), Nat.add_sub_cancel_left,
      List.getElem?_append_right (by omega), Nat.add_sub_cancel_left,
      List.getElem?_append_left (by rw [List.length_dropLast] at early; omega)]
    simp
  have part := (Name.parts_of_isIdentifier identifier).2 _ (List.getElem_mem early)
  have other := Text.not_continues_of_isTokenAt here before
  rw [CodePoint.continues_of_isPart part] at other
  cases other

private theorem ends_of_hasToken (identifier : Name.isIdentifier name = true)
    (blank : ∀ d ∈ apart, d.isBlank = true)
    (token : Text.HasToken (lead ++ (word ++ (apart ++ (Text.ofString name ++ tail)))) name
      (lead.length + word.length + 1)
      (lead.length + (word.length + (apart.length + (Text.ofString name).length)))) :
    tail.head?.any CodePoint.continuesIdentifier = false := by
  obtain ⟨i, start, stops, here⟩ := token
  obtain ⟨⟨c, more, split, part⟩, _⟩ := Name.parts_of_isIdentifier identifier
  by_cases same : i = (lead ++ (word ++ apart)).length
  · have token := Text.isTokenAt_append (lead ++ (word ++ apart)) tail name
    simp only [List.append_assoc] at token
    rw [← same, here] at token
    simpa using (Bool.and_eq_true_iff.mp token.symm).2
  · -- otherwise it would start with a blank
    simp only [List.length_append] at same
    obtain ⟨j, rfl⟩ : ∃ j, i = lead.length + (word.length + j) :=
      ⟨i - lead.length - word.length, by omega⟩
    have early : j < apart.length := by omega
    have first := Text.getElem?_of_isTokenAt (k := 0) here (by simp [split])
    rw [Nat.add_zero, List.getElem?_append_right (by omega), Nat.add_sub_cancel_left,
      List.getElem?_append_right (by omega), Nat.add_sub_cancel_left,
      List.getElem?_append_left early, split, List.getElem?_cons_zero,
      List.getElem?_eq_getElem early] at first
    have solid := (CodePoint.not_mark_of_isPart part).1
    rw [← Option.some.inj first, blank _ (List.getElem_mem early)] at solid
    cases solid

private theorem hasToken_function_iff (identifier : Name.isIdentifier name = true)
    (between : ∀ d ∈ apart, d.isBlank = true ∨ d = .scalar '*')
    (ends : tail.head?.any CodePoint.continuesIdentifier = false) {stop : Nat}
    (room : lead.length + (word.length + (apart.length + (Text.ofString name).length)) ≤ stop) :
    Text.HasToken (lead ++ (word ++ (apart ++ (Text.ofString name ++ tail)))) name
        (lead.length + word.length + 1) stop ↔
      (Text.startsWith ((lead ++ (word ++ (apart ++ (Text.ofString name ++ tail)))).drop
          (lead.length + word.length)) name = true →
        Text.HasToken (lead ++ (word ++ (apart ++ (Text.ofString name ++ tail)))) name
          (lead.length + word.length + (Text.ofString name).length) stop) := by
  obtain ⟨⟨c, more, split, part⟩, _⟩ := Name.parts_of_isIdentifier identifier
  rw [← List.drop_drop, List.drop_left, List.drop_left]
  cases apart with
  | nil =>
    have direct : Text.startsWith ([] ++ (Text.ofString name ++ tail)) name = true :=
      List.isPrefixOf_iff_prefix.mpr (List.prefix_append _ _)
    constructor
    · exact fun token _ => hasToken_behind identifier token
    · exact fun token => (token direct).mono (by simp [split]) (Nat.le_refl stop)
  | cons d apart =>
    constructor
    · intro _ direct
      obtain ⟨behind, same⟩ := List.isPrefixOf_iff_prefix.mp direct
      rw [split] at same
      obtain rfl := (List.cons.inj same).1
      rcases between c List.mem_cons_self with blank | rfl
      · rw [(CodePoint.not_mark_of_isPart part).1] at blank
        cases blank
      · cases part
    · intro _
      refine (hasToken_of_apart (List.cons_ne_nil d apart) (fun e member => ?_) ends).mono
        (Nat.le_refl _) room
      rcases between e member with blank | rfl
      · exact CodePoint.not_continues_of_isBlank blank
      · decide

end Tokens

/-- The head of the region holds the name as a token that is apart from the word it starts with. -/
def Names (r : Region) (t : Text) (name : String) : Prop :=
  ∃ word ∈ headWords, Text.startsWith (t.drop r.start) word = true ∧
    t.HasToken name (r.start + word.length + 1) r.bodyStart

instance (r : Region) (t : Text) (name : String) : Decidable (r.Names t name) :=
  inferInstanceAs (Decidable (∃ word ∈ headWords, _ ∧ _))

private theorem names_iff_of_word {r : Region} {t : Text} {name w : String} (known : w ∈ headWords)
    (starts : Text.startsWith (t.drop r.start) w = true) :
    r.Names t name ↔ t.HasToken name (r.start + w.length + 1) r.bodyStart := by
  have single : ∀ v ∈ headWords, ∀ w ∈ headWords,
      (Text.ofString v <+: Text.ofString w ∨ Text.ofString w <+: Text.ofString v) → v = w := by
    decide
  constructor
  · rintro ⟨v, member, first, token⟩
    obtain rfl := single v member w known (List.prefix_or_prefix_of_prefix
      (List.isPrefixOf_iff_prefix.mp first) (List.isPrefixOf_iff_prefix.mp starts))
    exact token
  · exact fun token => ⟨w, known, starts, token⟩

/-- The head of the region of an identifier names it as a token of its own, unless it is a function
whose name follows the word `function` directly (and is not repeated in its type parameters), or a
class whose name goes on behind the head. -/
theorem names_iff {t : Text} {found : FoundExport} {r : Region} (named : found.anonymous = false)
    (identifier : Name.isIdentifier found.name = true) (given : ofExport t found = .ok (some r)) :
    r.Names t found.name ↔
      (r.kind = .function →
        Text.startsWith (t.drop (r.start + "function".length)) found.name = true →
        t.HasToken found.name (r.start + "function".length + found.name.length) r.bodyStart) ∧
      (r.kind = .classType →
        (t.drop r.bodyStart).head?.any CodePoint.continuesIdentifier = false) := by
  obtain ⟨lead, read, rest, rfl, head, start, body⟩ := head_of_ofExport named given
  clear given
  obtain ⟨kind, _, _, _⟩ := r
  simp only at head start body ⊢
  subst start body
  have length (s : String) : (Text.ofString s).length = s.length := by
    rw [Text.ofString, List.length_map, String.length_toList]
  have starts {w : String} {behind : Text} :
      Text.startsWith ((lead ++ ((Text.ofString w ++ behind) ++ rest)).drop lead.length) w =
        true := by
    rw [List.drop_left, List.append_assoc]
    exact List.isPrefixOf_iff_prefix.mpr (List.prefix_append _ _)
  cases head with
  | @ofFunction apart more c between ends =>
    rw [names_iff_of_word (by decide) starts]
    simp only [← length, List.length_append, List.append_assoc, List.cons_append, List.length_cons]
    have stops : (c :: (more ++ rest)).head?.any CodePoint.continuesIdentifier = false := ends
    rw [hasToken_function_iff identifier between stops (by omega)]
    simp
  | @ofVariable word apart more c known nonempty blank ends =>
    rw [names_iff_of_word (by revert word; decide) starts]
    simp only [← length, List.length_append, List.append_assoc, List.cons_append, List.length_cons]
    have between := fun d member => CodePoint.not_continues_of_isBlank (blank d member)
    have stops : (c :: (more ++ rest)).head?.any CodePoint.continuesIdentifier = false := ends
    refine iff_of_true ?_ (by simp)
    exact (hasToken_of_apart nonempty between stops).mono (Nat.le_refl _) (by omega)
  | @ofClass apart nonempty blank =>
    rw [names_iff_of_word (by decide) starts]
    simp only [← length, List.length_append, List.append_assoc]
    have between := fun d member => CodePoint.not_continues_of_isBlank (blank d member)
    have behind : (lead ++ (Text.ofString "class" ++
        (apart ++ (Text.ofString found.name ++ rest)))).drop
        (lead.length + ((Text.ofString "class").length +
          (apart.length + (Text.ofString found.name).length))) = rest := by
      rw [← List.drop_drop, List.drop_left, ← List.drop_drop, List.drop_left, ← List.drop_drop,
        List.drop_left, List.drop_left]
    rw [behind]
    constructor
    · exact fun token => ⟨by simp, fun _ => ends_of_hasToken identifier blank token⟩
    · exact fun stops => hasToken_of_apart nonempty between (stops.2 trivial)

def tabText : Text := Text.ofString "let Tab$ = 1;\nfunction * Tab<T>(a) \x7b\x7d"

/-- Another name that starts alike is passed over. -/
theorem tab_named : ∃ r, ofExport tabText (.default 0 "Tab") = .ok (some r) ∧ r.kind = .function ∧
    r.start = 14 ∧ r.Names tabText "Tab" := by
  have given : ofExport tabText (.default 0 "Tab") =
      .ok (some ⟨.function, 14, 32, tabText.drop 14⟩) := by decide +kernel
  exact ⟨_, given, rfl, rfl, (names_iff rfl (by decide) given).mpr ⟨by decide +kernel, by simp⟩⟩

def gluedText : Text := Text.ofString "a = functionTab(1);"

def dollarText : Text := Text.ofString "class Tab$ \x7b\x7d"

theorem tab_misnamed :
    (∃ r, ofExport gluedText (.default 0 "Tab") = .ok (some r) ∧ ¬r.Names gluedText "Tab") ∧
      ∃ r, ofExport dollarText (.default 0 "Tab") = .ok (some r) ∧ ¬r.Names dollarText "Tab" := by
  have glued : ofExport gluedText (.default 0 "Tab") =
      .ok (some ⟨.function, 4, 16, gluedText.drop 4⟩) := by decide +kernel
  have dollar : ofExport dollarText (.default 0 "Tab") =
      .ok (some ⟨.classType, 0, 9, dollarText⟩) := by decide +kernel
  exact ⟨⟨_, glued, by decide +kernel⟩, _, dollar, by decide +kernel⟩

end Sketch.Region
end ExportInventory
