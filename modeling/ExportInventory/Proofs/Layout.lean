import ExportInventory.Proofs.Identifier
import Mathlib.Data.List.TakeWhile

/-!
Lists of exports as they are written: `export`, and in braces names with their aliases, with commas
between them and blanks anywhere. The search for lists gives back the names and aliases in their
order. With `from` behind it a list gives nothing. In either case the search goes on behind the
list, as if the text started there.
-/
namespace ExportInventory

/-- Identifiers as they are written, without the line break that may end others. -/
def Name.isPlain (name : String) : Bool :=
  match name.toList with
  | [] => false
  | c :: rest => isStart c && rest.all isPart

namespace CodePoint

def isPart (c : CodePoint) : Bool := c.is Name.isPart

/-- Characters that decide where a text is split: the comma, brackets and quotes. -/
def dividers : List CodePoint :=
  [',', '(', ')', '{', '}', '[', ']', '<', '>', '\'', '"', '\x60']

/-- Characters that mean something between the words of a text. -/
def marks : List CodePoint :=
  [',', '{', '}', ';', '(', ')', '[', ']', '<', '>', '/', '=', '\'', '"', '\x60']

theorem not_mark_of_isPart {c : CodePoint} (part : c.isPart = true) :
    c.isBlank = false ∧ c ∉ marks := by
  cases c with
  | surrogate i => cases part
  | scalar x =>
    have each : ∀ n < 128, Name.isPart (Char.ofNat n) = true →
        (scalar (Char.ofNat n)).isBlank = false ∧ scalar (Char.ofNat n) ∉ marks := by decide +kernel
    have here := each x.toNat (Name.toNat_lt_of_isPart part)
    rw [Char.ofNat_toNat] at here
    exact here part

theorem not_mark_of_isBlank {c : CodePoint} (blank : c.isBlank = true) : c ∉ marks := by
  have solid : ∀ m ∈ marks, m.isBlank = false := by decide
  intro member
  rw [solid c member] at blank
  cases blank

theorem not_divider_of_not_mark {c : CodePoint} (other : c ∉ marks) : c ∉ dividers := by
  have among : dividers ⊆ marks := by decide
  exact fun member => other (among member)

end CodePoint

namespace Name

theorem isPlain_iff {name : String} : isPlain name = true ↔
    ∃ first rest, name.toList = first :: rest ∧ isStart first = true ∧
      ∀ c ∈ rest, isPart c = true := by
  unfold isPlain
  cases name.toList with
  | nil => simp
  | cons first rest => simp

theorem isIdentifier_of_isPlain {name : String} (plain : isPlain name = true) :
    isIdentifier name = true := by
  obtain ⟨first, rest, chars, start, parts⟩ := isPlain_iff.mp plain
  exact isIdentifier_of_toList chars start parts

theorem isPart_of_isPlain {name : String} (plain : isPlain name = true) :
    ∀ c ∈ Text.ofString name, c.isPart = true := by
  obtain ⟨first, rest, chars, start, parts⟩ := isPlain_iff.mp plain
  intro c member
  obtain ⟨x, inside, rfl⟩ := List.mem_map.mp member
  rw [chars] at inside
  rcases List.mem_cons.mp inside with rfl | behind
  · exact isPart_of_isStart start
  · exact parts x behind

theorem ofString_ne_nil_of_isPlain {name : String} (plain : isPlain name = true) :
    Text.ofString name ≠ [] := by
  obtain ⟨first, rest, chars, _⟩ := isPlain_iff.mp plain
  simp [Text.ofString, chars]

end Name

namespace Text

theorem toString_ofString (s : String) : toString (ofString s) = s := by
  unfold toString ofString
  rw [List.map_map]
  exact (congrArg String.ofList (List.map_id _)).trans String.ofList_toList

theorem takeWhile_append {p : CodePoint → Bool} {u rest : Text} (holds : ∀ c ∈ u, p c = true)
    (stops : rest.head?.any p = false) : (u ++ rest).takeWhile p = u := by
  rw [List.takeWhile_append_of_pos holds]
  cases rest with
  | nil => simp
  | cons c rest => rw [List.takeWhile_cons_of_neg (by simpa using stops), List.append_nil]

theorem startsWith_eq_false {s : String} {t : Text} {c : CodePoint} (inside : c ∈ ofString s)
    (absent : c ∉ t) : startsWith t s = false := by
  rw [Bool.eq_false_iff]
  intro starts
  exact absent ((List.isPrefixOf_iff_prefix.mp starts).subset inside)

private theorem words_go_solid {w : Text} (solid : ∀ c ∈ w, c.isBlank = false)
    (current rest : Text) :
    words.go current (w ++ rest) = words.go (w.reverse ++ current) rest := by
  induction w generalizing current with
  | nil => rfl
  | cons c w ih =>
    have first := solid c List.mem_cons_self
    rw [List.cons_append, words.go, if_neg (by simp [first]),
      ih (fun d member => solid d (List.mem_cons_of_mem c member)), List.reverse_cons,
      List.append_assoc]
    rfl

theorem words_go_blank {b : Text} (blank : ∀ c ∈ b, c.isBlank = true) (rest : Text) :
    words.go [] (b ++ rest) = words.go [] rest := by
  induction b with
  | nil => rfl
  | cons c b ih =>
    rw [List.cons_append, words.go, if_pos (blank c List.mem_cons_self), if_pos List.isEmpty_nil,
      ih fun d member => blank d (List.mem_cons_of_mem c member)]

private theorem words_word {w u : Text} (solid : ∀ c ∈ w, c.isBlank = false) (nonempty : w ≠ [])
    (apart : u.head?.all CodePoint.isBlank = true) : words (w ++ u) = w :: words u := by
  unfold words
  rw [words_go_solid solid, List.append_nil]
  cases u with
  | nil =>
    rw [words.go, if_neg (by simpa using nonempty), List.reverse_reverse]
    rfl
  | cons c u =>
    have blank : c.isBlank = true := apart
    rw [words.go, words.go, if_pos blank, if_pos blank, if_neg (by simpa using nonempty),
      if_pos List.isEmpty_nil, List.reverse_reverse]

theorem words_go_append_blank {b : Text} (blank : ∀ c ∈ b, c.isBlank = true) (current t : Text) :
    words.go current (t ++ b) = words.go current t := by
  have nothing {b : Text} (blank : ∀ c ∈ b, c.isBlank = true) : words.go [] b = [] := by
    have skipped := words_go_blank blank []
    rwa [List.append_nil] at skipped
  induction t generalizing current with
  | nil =>
    cases b with
    | nil => rfl
    | cons c b =>
      rw [List.nil_append, words.go, words.go, if_pos (blank c List.mem_cons_self),
        nothing fun d member => blank d (List.mem_cons_of_mem c member)]
  | cons c t ih => rw [List.cons_append, words.go, words.go, ih, ih]

private theorem words_strip (t : Text) : words (strip t) = words t := by
  have left : words (stripLeft t) = words t := by
    have blank : ∀ c ∈ t.takeWhile CodePoint.isBlank, c.isBlank = true :=
      fun _ => List.mem_takeWhile_imp
    have skipped := words_go_blank blank (stripLeft t)
    rw [stripLeft, List.takeWhile_append_dropWhile] at skipped
    exact skipped.symm
  have right (u : Text) : words (stripLeft u.reverse).reverse = words u := by
    have blank : ∀ c ∈ (u.reverse.takeWhile CodePoint.isBlank).reverse, c.isBlank = true :=
      fun _ member => List.mem_takeWhile_imp (List.mem_reverse.mp member)
    have skipped := words_go_append_blank blank [] (stripLeft u.reverse).reverse
    rw [← List.reverse_append, stripLeft, List.takeWhile_append_dropWhile,
      List.reverse_reverse] at skipped
    exact skipped.symm
  exact (right _).trans left

theorem rawParts_append {u : Text} (inner : ∀ c ∈ u, c ∉ CodePoint.dividers) (current rest : Text) :
    rawParts ',' ⟨.outermost, current⟩ (u ++ rest) =
      rawParts ',' ⟨.outermost, u.reverse ++ current⟩ rest := by
  induction u generalizing current with
  | nil => rfl
  | cons c u ih =>
    have plain := inner c List.mem_cons_self
    simp only [CodePoint.dividers, List.mem_cons, List.not_mem_nil, or_false, not_or] at plain
    have stays : Level.outermost.next c = .outermost := by
      simp [Level.next, Level.outermost, CodePoint.isQuote, CodePoint.closer?, CodePoint.isCloser,
        plain]
    have step : Splitting.step ',' ⟨.outermost, current⟩ c = (⟨.outermost, c :: current⟩, none) := by
      simp [Splitting.step, stays, plain]
    rw [List.cons_append, rawParts, step]
    dsimp only
    rw [ih fun d member => inner d (List.mem_cons_of_mem c member), List.reverse_cons,
      List.append_assoc]
    rfl

theorem rawParts_separator (current rest : Text) :
    rawParts ',' ⟨.outermost, current⟩ (CodePoint.scalar ',' :: rest) =
      current.reverse :: rawParts ',' .start rest := rfl

end Text

/-- A name in a list of exports, with the name it is exported under. -/
structure ListEntry where
  name : String
  asName : Option String
  isName : Name.isPlain name = true := by decide
  isAlias : ∀ a ∈ asName, Name.isPlain a = true := by decide

namespace ListEntry

def words (e : ListEntry) : List String :=
  match e.asName with
  | some a => [e.name, "as", a]
  | none => [e.name]

private theorem isPlain_words (e : ListEntry) : ∀ w ∈ e.words, Name.isPlain w = true := by
  unfold words
  cases given : e.asName with
  | none => simpa using e.isName
  | some a => simpa using ⟨e.isName, by decide, e.isAlias a given⟩

def isDefault (e : ListEntry) : Bool := e.asName = some "default"

/-- The export that an entry of a list at an offset stands for. -/
def found (offset : Nat) (e : ListEntry) : Sketch.FoundExport :=
  if e.isDefault then .default offset e.name
  else { Sketch.FoundExport.named offset e.name with exportedAs := e.asName }

end ListEntry

/-- The text consists of the words, with blanks around them. -/
inductive Spread : List String → Text → Prop
  | nil {b : Text} (blank : ∀ c ∈ b, c.isBlank = true) : Spread [] b
  | cons {w : String} {ws : List String} {b u : Text} (blank : ∀ c ∈ b, c.isBlank = true)
      (apart : u.head?.all CodePoint.isBlank = true) (more : Spread ws u) :
      Spread (w :: ws) (b ++ (Text.ofString w ++ u))

/-- Entries with commas between them. Where there is no entry, as behind a comma at the end, there
are blanks only. -/
inductive Listed : List ListEntry → Text → Prop
  | last {e : Option ListEntry} {u : Text} (spread : Spread (e.elim [] ListEntry.words) u) :
      Listed e.toList u
  | cons {e : Option ListEntry} {es : List ListEntry} {u t : Text}
      (spread : Spread (e.elim [] ListEntry.words) u) (more : Listed es t) :
      Listed (e.toList ++ es) (u ++ CodePoint.scalar ',' :: t)

theorem Listed.single {e : ListEntry} {u : Text} (spread : Spread e.words u) : Listed [e] u :=
  .last (e := some e) spread

theorem Listed.entry {e : ListEntry} {es : List ListEntry} {u t : Text} (spread : Spread e.words u)
    (more : Listed es t) : Listed (e :: es) (u ++ CodePoint.scalar ',' :: t) :=
  .cons (e := some e) spread more

/-- A list of exports up to its closing brace. -/
def Text.bracedList (opening body : Text) : Text :=
  Text.ofString "export" ++ (opening ++ (Text.ofString "\x7b" ++ (body ++ Text.ofString "\x7d")))

namespace Spread

variable {ws : List String} {u : Text} (spread : Spread ws u)
  (plain : ∀ w ∈ ws, Name.isPlain w = true)

include spread plain

private theorem words_eq : (Text.words u).map Text.toString = ws := by
  induction spread with
  | nil blank =>
    have nothing := Text.words_go_append_blank blank [] []
    exact congrArg (List.map Text.toString) nothing
  | @cons w ws b u blank apart more ih =>
    have name := plain w List.mem_cons_self
    have parts (c : CodePoint) (member : c ∈ Text.ofString w) :=
      CodePoint.not_mark_of_isPart (Name.isPart_of_isPlain name c member)
    have skipped : Text.words (b ++ (Text.ofString w ++ u)) = Text.words (Text.ofString w ++ u) :=
      Text.words_go_blank blank _
    rw [skipped, Text.words_word (fun c member => (parts c member).1)
      (Name.ofString_ne_nil_of_isPlain name) apart, List.map_cons, Text.toString_ofString,
      ih fun v member => plain v (List.mem_cons_of_mem w member)]

private theorem isPart_or_isBlank : ∀ c ∈ u, c.isPart = true ∨ c.isBlank = true := by
  induction spread with
  | nil blank => exact fun c member => .inr (blank c member)
  | @cons w ws b u blank apart more ih =>
    intro c member
    rcases List.mem_append.mp member with before | member
    · exact .inr (blank c before)
    · rcases List.mem_append.mp member with inside | behind
      · exact .inl (Name.isPart_of_isPlain (plain w List.mem_cons_self) c inside)
      · exact ih (fun v member => plain v (List.mem_cons_of_mem w member)) c behind

end Spread

namespace Sketch

private theorem listed?_strip (offset : Nat) (item : Text) :
    listed? offset item.strip = listed? offset item := by
  unfold listed?
  rw [Text.words_strip]

private theorem filterMap_splitTopLevel (offset : Nat) (t : Text) :
    (t.splitTopLevel ',').filterMap (listed? offset) =
      (Text.rawParts ',' .start t).filterMap (listed? offset) := by
  rw [Text.splitTopLevel, List.filterMap_filter, List.filterMap_map]
  apply List.filterMap_congr
  intro item _
  have same := listed?_strip offset item
  by_cases empty : item.strip = []
  · have nothing : none = listed? offset item := by rwa [empty] at same
    simpa [empty] using nothing
  · simpa [empty] using same

section Layout

variable {e : Option ListEntry} {u : Text} (spread : Spread (e.elim [] ListEntry.words) u)

theorem isPlain_elim (e : Option ListEntry) :
    ∀ w ∈ e.elim [] ListEntry.words, Name.isPlain w = true := by
  cases e with
  | none => simp
  | some e => exact e.isPlain_words

include spread in
private theorem listed?_of_spread (offset : Nat) :
    listed? offset u = e.map (ListEntry.found offset) := by
  have words := spread.words_eq (isPlain_elim e)
  unfold listed?
  rw [words]
  cases e with
  | none => rfl
  | some e =>
    have name := Name.isIdentifier_of_isPlain e.isName
    rw [Option.elim_some, ListEntry.words, Option.map_some, ListEntry.found, ListEntry.isDefault]
    cases given : e.asName with
    | none => simp [name]
    | some a =>
      have plain := Name.isIdentifier_of_isPlain (e.isAlias a given)
      by_cases default : a = "default" <;> simp [name, plain, default]

include spread in
theorem isPart_or_isBlank_of_spread {c : CodePoint} (member : c ∈ u) :
    c.isPart = true ∨ c.isBlank = true :=
  spread.isPart_or_isBlank (isPlain_elim e) c member

include spread in
private theorem rawParts_of_spread (rest : Text) :
    Text.rawParts ',' .start (u ++ rest) = Text.rawParts ',' ⟨.outermost, u.reverse⟩ rest := by
  have inner : ∀ c ∈ u, c ∉ CodePoint.dividers := by
    intro c member
    apply CodePoint.not_divider_of_not_mark
    rcases isPart_or_isBlank_of_spread spread member with part | blank
    · exact (CodePoint.not_mark_of_isPart part).2
    · exact CodePoint.not_mark_of_isBlank blank
  have whole := Text.rawParts_append inner [] rest
  rwa [List.append_nil] at whole

end Layout

private theorem filterMap_listed {es : List ListEntry} {body : Text} (listed : Listed es body)
    (offset : Nat) :
    (body.splitTopLevel ',').filterMap (listed? offset) = es.map (ListEntry.found offset) := by
  rw [filterMap_splitTopLevel]
  induction listed with
  | @last e u spread =>
    have parts := rawParts_of_spread spread []
    have item := listed?_of_spread spread offset
    rw [List.append_nil, Text.rawParts, List.isEmpty_reverse, List.reverse_reverse] at parts
    rw [parts]
    cases u with
    | nil =>
      have none : e = none := Option.map_eq_none_iff.mp (item.symm.trans rfl)
      rw [none]
      rfl
    | cons c u =>
      rw [List.isEmpty_cons, if_neg Bool.false_ne_true, List.filterMap_cons, item]
      cases e <;> rfl
  | @cons e es u t spread more ih =>
    rw [rawParts_of_spread spread, Text.rawParts_separator, List.reverse_reverse,
      List.filterMap_cons, listed?_of_spread spread, ih, List.map_append]
    cases e <;> rfl

theorem mem_listed {es : List ListEntry} {body : Text} (listed : Listed es body) :
    ∀ c ∈ body, c.isPart = true ∨ c.isBlank = true ∨ c = CodePoint.scalar ',' := by
  induction listed with
  | last spread => exact fun c member => (isPart_or_isBlank_of_spread spread member).imp_right .inl
  | cons spread more ih =>
    intro c member
    rcases List.mem_append.mp member with here | behind
    · exact (isPart_or_isBlank_of_spread spread here).imp_right .inl
    · rcases List.mem_cons.mp behind with comma | later
      · exact .inr (.inr comma)
      · exact ih c later

namespace Matcher

variable {α β : Type}

theorem orElse_of_none {m : Matcher α} {place : Place} (fails : m place = none) (m' : Matcher α) :
    (m <|> m') place = m' place := by
  change ((m place) <|> (m' place)) = _
  rw [fails]
  rfl

theorem orElse_of_some {m : Matcher α} {place : Place} {result : α × Place}
    (found : m place = some result) (m' : Matcher α) : (m <|> m') place = some result := by
  change ((m place) <|> (m' place)) = _
  rw [found]
  rfl

theorem bind_apply (m : Matcher α) (f : α → Matcher β) (place : Place) :
    (m >>= f) place = (m place).bind fun r => f r.1 r.2 := rfl

theorem bind_of_none {m : Matcher α} {place : Place} (fails : m place = none) (f : α → Matcher β) :
    (m >>= f) place = none := by
  rw [bind_apply, fails]
  rfl

private theorem literal_eq_none {s : String} {place : Place} {c : CodePoint}
    (inside : c ∈ Text.ofString s)
    (absent : c ∉ place.rest) : literal s place = none := by
  rw [literal, Text.startsWith_eq_false inside absent]
  rfl

theorem reads_missing {s : String} {c : CodePoint} (inside : c ∈ Text.ofString s) :
    Reads (· ≠ c) (literal s) fun _ => False := by
  intro place _ _ ahead read
  rw [literal_eq_none inside fun member => ahead c member rfl] at read
  cases read

theorem Reads.absurd {P : CodePoint → Prop} {m : Matcher α} {f : α → Matcher β} {Q : β → Prop}
    (never : Reads P m fun _ => False) : Reads P (m >>= f) Q :=
  never.bind fun _ => False.elim

theorem all_eq_nil {P : CodePoint → Prop} {m : Matcher α} (never : Reads P m fun _ => False)
    {t : Text} (text : ∀ c ∈ t, P c) : m.all t = [] := by
  rw [List.eq_nil_iff_forall_not_mem]
  rintro ⟨i, a⟩ member
  exact never.of_mem_all text member

theorem eq_none_of_reads {P : CodePoint → Prop} {m : Matcher α} (never : Reads P m fun _ => False)
    {place : Place} (ahead : ∀ c ∈ place.rest, P c) : m place = none := by
  cases read : m place with
  | none => rfl
  | some result => exact (never place result.1 result.2 ahead read).1.elim

/-- In front of a text, the matcher reads just the one given. -/
def Takes (m : Matcher α) (read : Text) (a : α) (rest : Text) : Prop :=
  ∀ previous offset, ∃ q,
    m ⟨previous, offset, read ++ rest⟩ = some (a, ⟨q, offset + read.length, rest⟩)

theorem Takes.bind {m : Matcher α} {f : α → Matcher β} {u v rest : Text} {a : α} {b : β}
    (first : Takes m u a (v ++ rest)) (next : Takes (f a) v b rest) :
    Takes (m >>= f) (u ++ v) b rest := by
  intro previous offset
  obtain ⟨q₁, before⟩ := first previous offset
  obtain ⟨q₂, after⟩ := next q₁ (offset + u.length)
  refine ⟨q₂, ?_⟩
  rw [bind_apply, List.append_assoc, before, Option.bind_some, after, List.length_append, Nat.add_assoc]

theorem Takes.bind_eq_none {m : Matcher α} {f : α → Matcher β} {u rest : Text}
    {a : α} (first : Takes m u a rest)
    (fails : ∀ previous offset, f a ⟨previous, offset, rest⟩ = none) (previous : Option CodePoint)
    (offset : Nat) : (m >>= f) ⟨previous, offset, u ++ rest⟩ = none := by
  obtain ⟨q, read⟩ := first previous offset
  rw [bind_apply, read]
  exact fails q _

theorem Takes.orElse_left {m : Matcher α} {u rest : Text} {a : α} (first : Takes m u a rest)
    (m' : Matcher α) : Takes (m <|> m') u a rest := by
  intro previous offset
  obtain ⟨q, read⟩ := first previous offset
  exact ⟨q, orElse_of_some read m'⟩

theorem Takes.orElse {m m' : Matcher α} {u rest : Text} {a : α}
    (fails : ∀ previous offset, m ⟨previous, offset, u ++ rest⟩ = none) (second : Takes m' u a rest) :
    Takes (m <|> m') u a rest := by
  intro previous offset
  rw [orElse_of_none (fails previous offset)]
  exact second previous offset

theorem takes_pure (a : α) (rest : Text) : Takes (pure a) [] a rest :=
  fun previous _ => ⟨previous, rfl⟩

theorem takes_literal (s : String) (rest : Text) : Takes (literal s) (Text.ofString s) () rest := by
  intro previous offset
  refine ⟨(Text.ofString s).getLast?.or previous, ?_⟩
  unfold literal
  rw [if_pos]
  · rw [Place.skip, List.drop_left]
  · exact List.isPrefixOf_iff_prefix.mpr (List.prefix_append _ _)

theorem takes_span {p : CodePoint → Bool} {u rest : Text} (holds : ∀ c ∈ u, p c = true)
    (stops : rest.head?.any p = false) : Takes (span p) u u rest := by
  have read := Text.takeWhile_append holds stops
  intro previous offset
  refine ⟨u.getLast?.or previous, ?_⟩
  unfold span
  dsimp only
  rw [read, Place.skip, List.drop_left]

theorem takes_blanks {b rest : Text} (blank : ∀ c ∈ b, c.isBlank = true)
    (stops : rest.head?.any CodePoint.isBlank = false) : Takes blanks b () rest := by
  have read : Takes blanks (b ++ []) () rest := (takes_span blank stops).bind (takes_pure () rest)
  rwa [List.append_nil] at read

theorem boundary_of_word {place : Place} (inWord : place.previous.any CodePoint.isWord = true) :
    boundary place = if place.rest.head?.any CodePoint.isWord then none else some ((), place) := by
  unfold boundary
  rw [inWord]
  cases place.rest.head?.any CodePoint.isWord <;> rfl

section Word

variable {w : String} (letter : (Text.ofString w).getLast?.any CodePoint.isWord = true)

include letter in
theorem isWord_skip (place : Place) :
    (place.skip (Text.ofString w)).previous.any CodePoint.isWord = true := by
  rw [Place.skip]
  cases last : (Text.ofString w).getLast? with
  | none => simp [last] at letter
  | some c => simpa [last] using letter

include letter in
theorem wholeWord_append (previous : Option CodePoint) (offset : Nat) (rest : Text) :
    wholeWord w ⟨previous, offset, Text.ofString w ++ rest⟩ =
      if rest.head?.any CodePoint.isWord then none
      else literal w ⟨previous, offset, Text.ofString w ++ rest⟩ := by
  have starts : Text.startsWith (Text.ofString w ++ rest) w = true :=
    List.isPrefixOf_iff_prefix.mpr (List.prefix_append _ _)
  have behind := boundary_of_word (isWord_skip letter ⟨previous, offset, Text.ofString w ++ rest⟩)
  rw [wholeWord, bind_apply, literal, if_pos starts, Option.bind_some, behind, Place.skip,
    List.drop_left]

include letter in
theorem takes_wholeWord {rest : Text} (ends : rest.head?.any CodePoint.isWord = false) :
    Takes (wholeWord w) (Text.ofString w) () rest := by
  intro previous offset
  rw [wholeWord_append letter, ends, if_neg Bool.false_ne_true]
  exact takes_literal w rest previous offset

end Word

/-- Whether anything is read, and what, is up to the text ahead. -/
def Decided (m : Matcher α) : Prop :=
  ∀ t, (∀ previous offset, m ⟨previous, offset, t⟩ = none) ∨
    ∃ u a rest, t = u ++ rest ∧ Takes m u a rest

theorem Decided.bind {m : Matcher α} {f : α → Matcher β} (first : Decided m)
    (next : ∀ a, Decided (f a)) : Decided (m >>= f) := by
  intro t
  rcases first t with fails | ⟨u, a, rest, rfl, read⟩
  · exact .inl fun previous offset => bind_of_none (fails previous offset) f
  · rcases next a rest with fails | ⟨v, b, rest, rfl, more⟩
    · exact .inl (read.bind_eq_none fails)
    · exact .inr ⟨u ++ v, b, rest, (List.append_assoc _ _ _).symm, read.bind more⟩

private theorem Decided.orElse {m m' : Matcher α} (first : Decided m) (second : Decided m') :
    Decided (m <|> m') := by
  intro t
  rcases first t with fails | ⟨u, a, rest, rfl, read⟩
  · rcases second t with fails' | ⟨u, a, rest, rfl, read⟩
    · exact .inl fun previous offset =>
        (orElse_of_none (fails previous offset) m').trans (fails' previous offset)
    · exact .inr ⟨u, a, rest, rfl, read.orElse fails⟩
  · exact .inr ⟨u, a, rest, rfl, read.orElse_left m'⟩

theorem decided_pure (a : α) : Decided (pure a : Matcher α) :=
  fun t => .inr ⟨[], a, t, rfl, takes_pure a t⟩

private theorem decided_literal (s : String) : Decided (literal s) := by
  intro t
  by_cases starts : Text.startsWith t s = true
  · obtain ⟨rest, rfl⟩ := List.isPrefixOf_iff_prefix.mp starts
    exact .inr ⟨_, (), rest, rfl, takes_literal s rest⟩
  · exact .inl fun previous offset => if_neg starts

theorem decided_span (p : CodePoint → Bool) : Decided (span p) := by
  intro t
  have stops : (t.dropWhile p).head?.any p = false := by
    have first := List.head?_dropWhile_not p t
    cases head : (t.dropWhile p).head? with
    | none => rfl
    | some c => simpa [head] using first
  refine .inr ⟨t.takeWhile p, t.takeWhile p, t.dropWhile p, ?_, ?_⟩
  · rw [List.takeWhile_append_dropWhile]
  · exact takes_span (fun _ => List.mem_takeWhile_imp) stops

theorem decided_blanks : Decided blanks :=
  (decided_span _).bind fun _ => decided_pure ()

private theorem decided_wholeWord {w : String}
    (letter : (Text.ofString w).getLast?.any CodePoint.isWord = true) : Decided (wholeWord w) := by
  intro t
  by_cases starts : Text.startsWith t w = true
  · obtain ⟨rest, rfl⟩ := List.isPrefixOf_iff_prefix.mp starts
    cases goes : rest.head?.any CodePoint.isWord with
    | true =>
      refine .inl fun previous offset => ?_
      rw [wholeWord_append letter, goes]
      rfl
    | false => exact .inr ⟨_, (), rest, rfl, takes_wholeWord letter goes⟩
  · exact .inl fun previous offset => bind_of_none (if_neg starts) _

private theorem occurrences_skip (m : Matcher α) (u rest : Text) (previous : Option CodePoint)
    (offset : Nat) :
    ∃ q, occurrences m u.length previous offset (u ++ rest) =
      occurrences m 0 q (offset + u.length) rest := by
  induction u generalizing previous offset with
  | nil => exact ⟨previous, rfl⟩
  | cons c u ih =>
    obtain ⟨q, more⟩ := ih (some c) (offset + 1)
    refine ⟨q, ?_⟩
    rw [List.length_cons, List.cons_append, occurrences, more, Nat.add_assoc, Nat.add_comm 1]

private theorem all_append {m : Matcher α} {u rest : Text} (nonempty : u ≠ []) {a : α}
    {q : Option CodePoint}
    (read : m ⟨none, 0, u ++ rest⟩ = some (a, ⟨q, u.length, rest⟩)) :
    ∃ q', m.all (u ++ rest) = (0, a) :: occurrences m 0 q' u.length rest := by
  obtain ⟨c, u, rfl⟩ := List.exists_cons_of_ne_nil nonempty
  obtain ⟨q', more⟩ := occurrences_skip m u rest (some c) 1
  refine ⟨q', ?_⟩
  rw [List.cons_append] at read
  rw [all, List.cons_append, occurrences, read]
  dsimp only
  rw [List.length_cons, Nat.sub_zero, Nat.add_sub_cancel, more, Nat.add_comm 1]

private theorem Decided.occurrences_add {m : Matcher α} (decided : Decided m) (d skip : Nat)
    (previous previous' : Option CodePoint) (offset : Nat) (t : Text) :
    occurrences m skip previous (offset + d) t =
      (occurrences m skip previous' offset t).map fun found => (found.1 + d, found.2) := by
  induction t generalizing skip previous previous' offset with
  | nil => rfl
  | cons c t ih =>
    have later (skip : Nat) := ih skip (some c) (some c) (offset + 1)
    rw [Nat.add_right_comm] at later
    cases skip with
    | succ skip =>
      rw [occurrences, occurrences]
      exact later skip
    | zero =>
      rw [occurrences, occurrences]
      rcases decided (c :: t) with fails | ⟨u, a, rest, split, read⟩
      · rw [fails, fails]
        exact later 0
      · obtain ⟨q, here⟩ := read previous (offset + d)
        obtain ⟨q', here'⟩ := read previous' offset
        rw [split, here, here']
        dsimp only
        rw [Nat.add_sub_cancel_left, Nat.add_sub_cancel_left, List.map_cons, later]

theorem occurrences_eq_nil {m : Matcher α} {t : Text}
    (fails : ∀ k previous offset, m ⟨previous, offset, t.drop k⟩ = none) (skip : Nat)
    (previous : Option CodePoint) (offset : Nat) : occurrences m skip previous offset t = [] := by
  rw [List.eq_nil_iff_forall_not_mem]
  rintro ⟨i, a⟩ member
  obtain ⟨before, k, behind, _, _, fits⟩ := mem_occurrences member
  rw [fails] at fits
  cases fits

end Matcher

open Matcher

def FoundExport.moved (d : Nat) (f : FoundExport) : FoundExport := { f with offset := f.offset + d }

private theorem listed?_add (offset d : Nat) (item : Text) :
    listed? (offset + d) item = (listed? offset item).map (FoundExport.moved d) := by
  unfold listed?
  cases (Text.words item).map Text.toString with
  | nil => rfl
  | cons name more =>
    dsimp only
    rw [apply_ite (Option.map _), apply_ite (Option.map _)]
    rfl

/-- The exports of one list. -/
def listItems (offset : Nat) (items : Text) (reexport : Bool) : List FoundExport :=
  if reexport then [] else (Text.splitTopLevel items ',').filterMap (listed? offset)

private theorem listItems_add (offset d : Nat) (items : Text) (reexport : Bool) :
    listItems (offset + d) items reexport =
      (listItems offset items reexport).map (FoundExport.moved d) := by
  unfold listItems
  cases reexport with
  | true => rfl
  | false =>
    rw [if_neg Bool.false_ne_true, if_neg Bool.false_ne_true, List.map_filterMap]
    exact List.filterMap_congr fun item _ => listed?_add offset d item

private theorem decided_reexported : Decided reexported := by
  have word : Decided fromWord := decided_blanks.bind fun _ => decided_wholeWord (by decide)
  exact (word.bind fun _ => decided_pure true).orElse (decided_pure false)

private theorem decided_exportList : Decided exportList :=
  (decided_literal _).bind fun _ => decided_blanks.bind fun _ => (decided_literal _).bind fun _ =>
    (decided_span _).bind fun _ => (decided_literal _).bind fun _ =>
    decided_reexported.bind fun _ => decided_pure _

/-- Behind a list, lists are looked for as if the text started there. -/
theorem scanLists_append {u rest items : Text} {reexport : Bool} (nonempty : u ≠ [])
    (read : Takes exportList u (items, reexport) rest) :
    Strategy.scanLists (u ++ rest) = listItems 0 items reexport ++
      (Strategy.scanLists rest).map (FoundExport.moved u.length) := by
  obtain ⟨q, here⟩ := read none 0
  rw [Nat.zero_add] at here
  obtain ⟨q', found⟩ := all_append nonempty here
  have behind := decided_exportList.occurrences_add u.length 0 q' none 0 rest
  rw [Nat.zero_add] at behind
  rw [Strategy.scanLists, found, behind, List.flatMap_cons, List.flatMap_map, Strategy.scanLists,
    List.map_flatMap]
  congr 1
  apply List.flatMap_congr
  intro found _
  exact listItems_add found.1 u.length found.2.1 found.2.2

private theorem exportList_never : Reads (· ≠ .scalar '{') exportList fun _ => False :=
  (passes_literal _).pass fun _ => passes_blanks.pass fun _ => (reads_missing (by decide)).absurd

theorem scanLists_eq_nil {t : Text} (absent : CodePoint.scalar '{' ∉ t) :
    Strategy.scanLists t = [] := by
  have nothing : exportList.all t = [] := by
    apply all_eq_nil exportList_never
    rintro c member rfl
    exact absent member
  rw [Strategy.scanLists, nothing, List.flatMap_nil]

section Written

variable {es : List ListEntry} {opening body closing : Text}
  (blank : ∀ c ∈ opening, c.isBlank = true) (listed : Listed es body) (blank' : ∀ c ∈ closing, c.isBlank = true)

include blank listed in
theorem takes_bracedList {read rest : Text} {reexport : Bool}
    (behind : Takes reexported read reexport rest) :
    Takes exportList (Text.bracedList opening body ++ read) (body, reexport) rest := by
  have inside : ∀ c ∈ body, decide (c ≠ CodePoint.scalar '}') = true := by
    intro c member
    rw [decide_eq_true_eq]
    rintro rfl
    rcases mem_listed listed _ member with part | blank | comma
    · cases part
    · cases blank
    · cases comma
  have whole : Takes exportList (Text.ofString "export" ++ (opening ++ (Text.ofString "\x7b" ++
      (body ++ (Text.ofString "\x7d" ++ (read ++ [])))))) (body, reexport) rest :=
    (takes_literal _ _).bind <| (takes_blanks blank (by rfl)).bind <| (takes_literal _ _).bind <|
      (takes_span inside (by rfl)).bind <| (takes_literal _ _).bind <| behind.bind (takes_pure _ _)
  rw [List.append_nil] at whole
  simpa only [Text.bracedList, List.append_assoc] using whole

theorem bracedList_ne_nil (opening body : Text) : Text.bracedList opening body ≠ [] :=
  List.cons_ne_nil _ _

include blank listed blank' in
theorem scanLists_ended :
    Strategy.scanLists (Text.bracedList opening body ++ (closing ++ Text.ofString ";")) =
      es.map (ListEntry.found 0) := by
  have alone (previous : Option CodePoint) (offset : Nat) :
      fromWord ⟨previous, offset, closing ++ Text.ofString ";"⟩ = none := by
    apply (takes_blanks blank' (by rfl)).bind_eq_none
    intro previous offset
    rfl
  have read : Takes exportList (Text.bracedList opening body ++ []) (body, false)
      (closing ++ Text.ofString ";") := by
    apply takes_bracedList blank listed
    exact .orElse (fun previous offset => bind_of_none (alone previous offset) _) (takes_pure false _)
  have absent : CodePoint.scalar '{' ∉ closing ++ Text.ofString ";" := by
    intro member
    rcases List.mem_append.mp member with inside | last
    · cases blank' _ inside
    · exact absurd last (by decide)
  rw [List.append_nil] at read
  rw [scanLists_append (bracedList_ne_nil opening body) read, scanLists_eq_nil absent, List.map_nil,
    List.append_nil]
  exact filterMap_listed listed 0

include blank listed blank' in
theorem scanLists_reexported {rest : Text} (ends : rest.head?.any CodePoint.isWord = false) :
    Strategy.scanLists
        (Text.bracedList opening body ++ (closing ++ (Text.ofString "from" ++ rest))) =
      (Strategy.scanLists rest).map
        (FoundExport.moved ((Text.bracedList opening body).length + closing.length + 4)) := by
  have word : Takes fromWord (closing ++ Text.ofString "from") () rest :=
    (takes_blanks blank' (by rfl)).bind (takes_wholeWord (by decide) ends)
  have behind : Takes reexported ((closing ++ Text.ofString "from") ++ []) true rest := by
    apply Takes.orElse_left
    exact word.bind (takes_pure true rest)
  rw [List.append_nil] at behind
  have read := takes_bracedList blank listed behind
  have found := scanLists_append (List.append_ne_nil_of_left_ne_nil (bracedList_ne_nil _ _) _) read
  rw [List.length_append, List.length_append, ← Nat.add_assoc, List.append_assoc,
    List.append_assoc] at found
  exact found

end Written

/-- A list gives one export for each of its entries, in their order and at its start. With `from`
behind it there is none. The search goes on behind that word, so that another list there is found,
even in the string that names the other file. -/
theorem scan_written_list {es : List ListEntry} {opening body closing : Text}
    (blank : ∀ c ∈ opening, c.isBlank = true) (listed : Listed es body)
    (blank' : ∀ c ∈ closing, c.isBlank = true) (fileName : String) :
    Strategy.exportList.scan (Text.bracedList opening body ++ (closing ++ Text.ofString ";"))
        fileName = es.map (ListEntry.found 0) ∧
      ∀ rest : Text, rest.head?.any CodePoint.isWord = false →
        let t := Text.bracedList opening body ++ (closing ++ (Text.ofString "from" ++ rest))
        Strategy.exportList.scan t fileName = (Strategy.exportList.scan rest fileName).map
            (.moved ((Text.bracedList opening body).length + closing.length + 4)) ∧
          (CodePoint.scalar '{' ∉ rest → Strategy.exportList.scan t fileName = []) := by
  refine ⟨scanLists_ended blank listed blank', fun rest ends => ?_⟩
  have found := scanLists_reexported blank listed blank' ends
  refine ⟨found, fun absent => found.trans ?_⟩
  rw [scanLists_eq_nil absent, List.map_nil]

def oddBody : Text := Text.ofString "default as\n as,as, from as default, "

private theorem listed_oddBody :
    ∃ es, Listed es oddBody ∧ es.map (ListEntry.found 0) =
      [{ FoundExport.named 0 "default" with exportedAs := "as" }, .named 0 "as",
        .default 0 "from"] := by
  have first : Spread (ListEntry.words { name := "default", asName := some "as" })
      (Text.ofString "default as\n as") :=
    .cons (b := []) (u := Text.ofString " as\n as") (by decide) (by decide) <|
      .cons (b := Text.ofString " ") (u := Text.ofString "\n as") (by decide) (by decide) <|
      .cons (b := Text.ofString "\n ") (by decide) (by decide) (.nil (b := []) (by decide))
  have second : Spread (ListEntry.words { name := "as", asName := none }) (Text.ofString "as") :=
    .cons (b := []) (by decide) (by decide) (.nil (b := []) (by decide))
  have third : Spread (ListEntry.words { name := "from", asName := some "default" })
      (Text.ofString " from as default") :=
    .cons (b := Text.ofString " ") (u := Text.ofString " as default") (by decide) (by decide) <|
      .cons (b := Text.ofString " ") (u := Text.ofString " default") (by decide) (by decide) <|
      .cons (b := Text.ofString " ") (by decide) (by decide) (.nil (b := []) (by decide))
  have last : Listed [] (Text.ofString " ") := .last (e := none) (.nil (by decide))
  exact ⟨_, .entry first (.entry second (.entry third last)), rfl⟩

/-- Words of the list itself as names, with a comma at the end. -/
theorem oddList_scanned :
    let t := Text.ofString "export \x7bdefault as\n as,as, from as default, \x7d"
    Strategy.exportList.scan (t ++ Text.ofString ";") "Page" =
        [{ FoundExport.named 0 "default" with exportedAs := "as" }, .named 0 "as",
          .default 0 "from"] ∧
      Strategy.exportList.scan (t ++ Text.ofString " from 'list';") "Page" = [] := by
  have blank : ∀ c ∈ Text.ofString " ", c.isBlank = true := by decide
  have empty : ∀ c ∈ ([] : Text), c.isBlank = true := by decide
  obtain ⟨es, listed, found⟩ := listed_oddBody
  obtain ⟨ended, _⟩ := scan_written_list blank listed empty "Page"
  obtain ⟨_, behind⟩ := scan_written_list blank listed blank "Page"
  obtain ⟨_, reexported⟩ := behind (Text.ofString " 'list';") (by decide)
  have whole : Text.ofString "export \x7bdefault as\n as,as, from as default, \x7d" =
      Text.bracedList (Text.ofString " ") oddBody := by decide +kernel
  dsimp only
  rw [whole, ← found]
  exact ⟨ended, reexported (by decide)⟩

/-- The string behind `from` is searched, too. -/
theorem quotedList_found :
    Listed [{ name := "a", asName := none }] (Text.ofString " a ") ∧
      Strategy.exportList.scan (Text.bracedList (Text.ofString " ") (Text.ofString " a ") ++
        (Text.ofString " " ++ (Text.ofString "from" ++ Text.ofString " 'export \x7b b \x7d';")))
        "Page" = [.named 19 "b"] := by
  constructor
  · have entry : Spread (ListEntry.words { name := "a", asName := none }) (Text.ofString " a ") :=
      .cons (b := Text.ofString " ") (by decide) (by decide) <|
        .nil (b := Text.ofString " ") (by decide)
    exact .single entry
  · decide +kernel

end Sketch
end ExportInventory
