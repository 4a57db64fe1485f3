import ExportInventory.Proofs.Discovery

/-!
The statement `export default x;` of an identifier. It is found under the identifier itself, unless
the start of the identifier is taken for a word of its own: `function` in front of another name, or
a word that starts an expression and ends where the identifier ends or goes on with a dollar sign.
-/
namespace ExportInventory

namespace Name

private theorem isPart_of_allParts {cs : List Char} (parts : allParts cs = true)
    (oneLine : '\n' ∉ cs) :
    ∀ c ∈ cs, isPart c = true := by
  induction cs with
  | nil => simp
  | cons c rest ih =>
    simp only [List.mem_cons, not_or] at oneLine
    rw [allParts.eq_3 c rest (by rintro rfl; simp at oneLine), Bool.and_eq_true] at parts
    simp only [List.mem_cons, forall_eq_or_imp]
    exact ⟨parts.1, ih parts.2 oneLine.2⟩

theorem isPlain_of_isIdentifier {name : String} (identifier : isIdentifier name = true)
    (oneLine : '\n' ∉ name.toList) : isPlain name = true := by
  unfold isIdentifier at identifier
  unfold isPlain
  cases chars : name.toList with
  | nil => simp [chars] at identifier
  | cons first rest =>
    rw [chars] at identifier oneLine
    simp only [List.mem_cons, not_or] at oneLine
    simp only [Bool.and_eq_true] at identifier
    have parts := isPart_of_allParts identifier.2 oneLine.2
    simpa [identifier.1] using parts

end Name

namespace CodePoint

theorem isWord_of_isPart {c : CodePoint} (part : c.isPart = true) :
    c.isWord = true ∨ c = .scalar '$' := by
  cases c with
  | surrogate i => cases part
  | scalar x =>
    have small : x.toNat < 128 := Name.toNat_lt_of_isPart part
    have cases : (x.isAlphanum = true ∨ x = '_') ∨ x = '$' := by
      simpa [isPart, CodePoint.is, Name.isPart] using part
    simpa [isWord, small] using cases

theorem continues_of_isPart {c : CodePoint} (part : c.isPart = true) :
    c.continuesIdentifier = true := by
  rcases isWord_of_isPart part with word | rfl
  · simp [continuesIdentifier, word]
  · rfl

end CodePoint

namespace Text

theorem ofString_append (s s' : String) : ofString (s ++ s') = ofString s ++ ofString s' := by
  simp [ofString]

/-- Whether the text starts with the word, and the word ends there. -/
def startsWithWord (t : Text) (w : String) : Bool :=
  startsWith t w && !(t.drop (ofString w).length).head?.any CodePoint.isWord

end Text

namespace Sketch
namespace Matcher

variable {α β : Type}

private theorem occurrences_cons {m : Matcher α} {previous : Option CodePoint} {offset : Nat}
    {c : CodePoint} {t : Text}
    (nothing : ∀ skip, occurrences m skip (some c) (offset + 1) t = []) :
    occurrences m 0 previous offset (c :: t) =
      ((m ⟨previous, offset, c :: t⟩).map fun result => (offset, result.1)).toList := by
  rw [occurrences]
  cases m ⟨previous, offset, c :: t⟩ with
  | none => exact nothing 0
  | some result => exact congrArg _ (nothing _)

private theorem reads_gap : Reads (fun c => c.isBlank = false) gap fun _ => False :=
  (reads_one CodePoint.isBlank).bind fun c read => by simp [read.1] at read

private theorem reads_repeated {P : CodePoint → Prop} {m : Matcher Unit}
    (never : Reads P m fun _ => False) (fuel : Nat) : Reads P (repeated m fuel) (· = 0) := by
  cases fuel with
  | zero => exact .pure rfl
  | succ fuel => exact never.absurd.orElse (.pure rfl)

theorem takes_one {p : CodePoint → Bool} {c : CodePoint} (holds : p c = true) (rest : Text) :
    Takes (one p) [c] c rest := by
  intro previous offset
  refine ⟨some c, ?_⟩
  simp [one, holds]

theorem takes_gap {b rest : Text} (blank : ∀ c ∈ b, c.isBlank = true) (nonempty : b ≠ [])
    (stops : rest.head?.any CodePoint.isBlank = false) : Takes gap b () rest := by
  obtain ⟨c, b, rfl⟩ := List.exists_cons_of_ne_nil nonempty
  simp only [List.mem_cons, forall_eq_or_imp] at blank
  exact (takes_one blank.1 _).bind (takes_blanks blank.2 stops)

theorem takes_identifier {c : CodePoint} {u rest : Text} (start : c.startsIdentifier = true)
    (continues : ∀ d ∈ u, d.continuesIdentifier = true)
    (stops : rest.head?.any CodePoint.continuesIdentifier = false) :
    Takes identifier (c :: u) (Text.toString (c :: u)) rest := by
  have read : Takes identifier ([c] ++ (u ++ [])) (Text.toString (c :: u)) rest :=
    (takes_one start _).bind <| (takes_span continues stops).bind (takes_pure _ rest)
  simpa using read

theorem takes_exportDefault {rest : Text} (stops : rest.head?.any CodePoint.isBlank = false) :
    Takes exportDefault (Text.ofString "export default ") () rest := by
  have read : Takes exportDefault (Text.ofString "export" ++ ([.scalar ' '] ++
      (Text.ofString "default" ++ [.scalar ' ']))) () rest :=
    (takes_literal _ _).bind <| (takes_gap (by decide) (by decide) rfl).bind <|
      (takes_literal _ _).bind (takes_gap (by decide) (by decide) stops)
  exact read

end Matcher

open Matcher

/-- Code points other than the parenthesis of a call. -/
abbrev NoCall (c : CodePoint) : Prop := c ≠ .scalar '('

theorem reads_callOf (functions : List String) : Reads NoCall (callOf functions) fun _ => False :=
  (passes_maybe (passes_literal _)).pass fun _ => (passes_anyLiteral functions).pass fun _ =>
    passes_blanks.pass fun _ => (reads_missing (by decide)).absurd

private theorem reads_outerWrappers : Reads NoCall outerWrappers (· = 0) :=
  fun place a behind ahead read =>
    reads_repeated (reads_callOf _) place.rest.length place a behind ahead read

private theorem connectedDefault_never : Reads NoCall connectedDefault fun _ => False :=
  passes_exportDefault.pass fun _ => passes_outerWrappers.pass fun _ =>
    (passes_literal _).pass fun _ => passes_blanks.pass fun _ =>
    Reads.absurd (reads_missing (by decide)).absurd

private theorem wrappedDefault_never : Reads NoCall wrappedDefault fun _ => False := by
  refine passes_exportDefault.pass fun _ => reads_outerWrappers.bind fun outer none => ?_
  subst none
  exact (reads_callOf _).absurd.orElse
    (Reads.bind (Q := fun _ => False) .failure fun _ => False.elim)

private theorem guarded_of_solid {t : Text} (solid : ∀ c ∈ t, c.isBlank = false) : Guarded t := by
  rintro before rest rfl blank
  cases rest with
  | nil => cases blank
  | cons c rest =>
    rw [List.head?_cons, Option.any_some, solid c (by simp)] at blank
    cases blank

private theorem all_exportDefault {α : Type} (m : Matcher α) {r : Text}
    (solid : ∀ c ∈ r, c.isBlank = false) :
    ∃ q, (do exportDefault; m).all (Text.ofString "export default " ++ r) =
      ((m ⟨q, 15, r⟩).map fun result => (0, result.1)).toList := by
  have stops : r.head?.any CodePoint.isBlank = false := by
    cases r with
    | nil => rfl
    | cons c r => exact solid c List.mem_cons_self
  have guarded : Guarded (Text.ofString "xport default " ++ r) := by
    refine guarded_append (u := Text.ofString "xport d") (by decide) ?_
    rintro (_ | ⟨c, before⟩) rest split blank
    · cases split
    · exact guarded_append (u := Text.ofString "fault ") (by decide) (guarded_of_solid solid) before
        rest (List.cons.inj split).2 blank
  have nothing (skip : Nat) (previous : Option CodePoint) (offset : Nat) :
      occurrences (do exportDefault; m) skip previous offset
        (Text.ofString "xport default " ++ r) = [] := by
    refine occurrences_eq_nil (fun k previous offset => ?_) skip previous offset
    exact bind_of_none (guarded.exportDefault_eq_none k previous offset) _
  obtain ⟨q, read⟩ := takes_exportDefault stops none 0
  have first : (do exportDefault; m) ⟨none, 0, Text.ofString "export default " ++ r⟩ =
      m ⟨q, 15, r⟩ := by
    rw [bind_apply, read]
    rfl
  refine ⟨q, ?_⟩
  rw [← first]
  exact occurrences_cons fun skip => nothing skip _ _

section Identifier

variable {x : String} (plain : Name.isPlain x = true) (q : Option CodePoint) (offset : Nat)

/-- What stands behind `export default`. -/
def operand (x : String) : Text := Text.ofString x ++ Text.ofString ";"

theorem operand_append (w y : String) : operand (w ++ y) = Text.ofString w ++ operand y := by
  simp [operand, Text.ofString_append]

include plain in
theorem mem_operand {c : CodePoint} (member : c ∈ operand x) :
    c.isPart = true ∨ c = .scalar ';' := by
  rcases List.mem_append.mp member with inside | last
  · exact .inl (Name.isPart_of_isPlain plain c inside)
  · exact .inr (by simpa [Text.ofString] using last)

include plain in
private theorem solid_operand : ∀ c ∈ operand x, c.isBlank = false := by
  intro c member
  rcases mem_operand plain member with part | rfl
  · exact (CodePoint.not_mark_of_isPart part).1
  · rfl

theorem exists_of_startsWith {w : String} (inner : CodePoint.scalar ';' ∉ Text.ofString w)
    (starts : Text.startsWith (operand x) w = true) : ∃ y, x = w ++ y := by
  have ahead : Text.ofString w <+: Text.ofString x ++ [.scalar ';'] :=
    List.isPrefixOf_iff_prefix.mp starts
  rcases List.prefix_concat_iff.mp ahead with whole | inside
  · rw [whole] at inner
    simp at inner
  · obtain ⟨r, split⟩ := inside
    refine ⟨Text.toString r, ?_⟩
    rw [← Text.toString_ofString x, ← split, ← Text.toString_ofString w]
    simp [Text.toString, Text.ofString, Function.comp_def, CodePoint.toChar]

theorem takes_functionWord_blanks {b rest : Text} (blank : ∀ c ∈ b, c.isBlank = true)
    (next : ∀ c ∈ rest.head?, c.isPart = true ∨ c = .scalar ';') :
    Takes functionWord (Text.ofString "function" ++ b) () rest := by
  have solid : rest.head?.any CodePoint.isBlank = false := by
    cases head : rest.head? with
    | none => rfl
    | some c =>
      rcases next c head with part | rfl
      · exact (CodePoint.not_mark_of_isPart part).1
      · rfl
  have star (previous : Option CodePoint) (offset : Nat) :
      literal "*" ⟨previous, offset, [] ++ rest⟩ = none := by
    cases read : literal "*" ⟨previous, offset, [] ++ rest⟩ with
    | none => rfl
    | some result =>
      obtain ⟨more, split⟩ := List.isPrefixOf_iff_prefix.mp (literal_eq_some read).1
      have starts : rest.head? = some (.scalar '*') := congrArg List.head? split.symm
      exact absurd (next _ starts) (by decide)
  have read : Takes functionWord (Text.ofString "function" ++ (b ++ ([] ++ []))) () rest :=
    (takes_literal _ _).bind <| (takes_blanks blank solid).bind <|
      (Takes.orElse star (takes_pure () _)).bind (takes_blanks (by simp) solid)
  simpa using read

theorem takes_functionWord {rest : Text}
    (next : ∀ c ∈ rest.head?, c.isPart = true ∨ c = .scalar ';') :
    Takes functionWord (Text.ofString "function") () rest := by
  have read := takes_functionWord_blanks (b := []) (by simp) next
  rwa [List.append_nil] at read

include plain in
theorem takes_plain {rest : Text} (stops : rest.head?.any CodePoint.continuesIdentifier = false) :
    Takes identifier (Text.ofString x) x rest := by
  obtain ⟨first, rest, chars, start, parts⟩ := Name.isPlain_iff.mp plain
  have split : Text.ofString x = .scalar first :: rest.map .scalar := by
    rw [Text.ofString, chars, List.map_cons]
  have continues : ∀ d ∈ rest.map CodePoint.scalar, d.continuesIdentifier = true := by
    intro d member
    obtain ⟨c, inside, rfl⟩ := List.mem_map.mp member
    exact CodePoint.continues_of_isPart (parts c inside)
  have read := takes_identifier (c := .scalar first) start continues stops
  rwa [← split, Text.toString_ofString] at read

include plain in
private theorem head_operand : ∀ c ∈ (operand x).head?, c.isPart = true ∨ c = .scalar ';' :=
  fun _ first => mem_operand plain (List.mem_of_head? first)

include plain in
theorem functionName_append :
    ∃ behind, functionName ⟨q, offset, operand ("function" ++ x)⟩ =
      some (x, behind) := by
  have read : Takes functionName (Text.ofString "function" ++ Text.ofString x) x
      (Text.ofString ";") :=
    (takes_functionWord (head_operand plain)).bind (takes_plain plain (by decide))
  obtain ⟨q', taken⟩ := read q offset
  rw [List.append_assoc, ← operand, ← operand_append] at taken
  exact ⟨_, taken⟩

include plain in
private theorem functionName_eq_none (other : ∀ y, Name.isPlain y = true → x ≠ "function" ++ y) :
    functionName ⟨q, offset, operand x⟩ = none := by
  cases starts : Text.startsWith (operand x) "function" with
  | false =>
    have fails : literal "function" ⟨q, offset, operand x⟩ = none := by
      rw [literal, starts]
      rfl
    exact bind_of_none (bind_of_none fails _) _
  | true =>
    obtain ⟨y, rfl⟩ := exists_of_startsWith (by decide) starts
    have parts : ∀ c ∈ y.toList, Name.isPart c = true := by
      intro c member
      apply Name.isPart_of_isPlain plain (.scalar c)
      rw [Text.ofString_append]
      exact List.mem_append_right _ (List.mem_map_of_mem member)
    have inner : ∀ c ∈ operand y, c.isPart = true ∨ c = .scalar ';' := by
      intro c member
      apply mem_operand plain
      rw [operand_append]
      exact List.mem_append_right _ member
    obtain ⟨q', taken⟩ :=
      takes_functionWord (fun c first => inner c (List.mem_of_head? first)) q offset
    rw [← operand_append] at taken
    refine (bind_apply _ _ _).trans ?_
    rw [taken, Option.bind_some]
    apply bind_of_none
    -- no name follows the word, since what does would be one
    cases chars : y.toList with
    | nil => simp [one, operand, Text.ofString, chars, CodePoint.startsIdentifier, CodePoint.is]
    | cons c cs =>
      have refused : Name.isStart c = false := by
        rw [Bool.eq_false_iff]
        intro start
        refine other y (Name.isPlain_iff.mpr ⟨c, cs, chars, start, ?_⟩) rfl
        intro d member
        exact parts d (by simp [chars, member])
      have other : (CodePoint.scalar c).startsIdentifier = false := refused
      simp [one, operand, Text.ofString, chars, other]

theorem anyLiteral_eq_some {ws : List String} {place : Place} {result : Unit × Place}
    (read : anyLiteral ws place = some result) : ∃ w ∈ ws, literal w place = some result := by
  induction ws with
  | nil => cases read
  | cons w rest ih =>
    rw [anyLiteral] at read
    cases first : literal w place with
    | some other =>
      change (literal w place <|> _) = _ at read
      rw [first] at read
      exact ⟨w, List.mem_cons_self, first.trans read⟩
    | none =>
      rw [orElse_of_none first] at read
      obtain ⟨v, member, found⟩ := ih read
      exact ⟨v, List.mem_cons_of_mem w member, found⟩

theorem wholeWord_isSome_iff {w : String} (letter : (Text.ofString w).getLast?.any CodePoint.isWord = true)
    (place : Place) :
    (wholeWord w place).isSome = true ↔
      Text.startsWithWord place.rest w = true := by
  rw [wholeWord, bind_apply, literal, Text.startsWithWord, Bool.and_eq_true]
  cases Text.startsWith place.rest w with
  | false => simp
  | true =>
    rw [if_pos rfl, Option.bind_some, boundary_of_word (isWord_skip letter place), Bool.not_eq_true',
      and_iff_right rfl, Place.skip]
    cases (place.rest.drop (Text.ofString w).length).head?.any CodePoint.isWord <;> simp

theorem anyWord_isSome_iff {ws : List String}
    (letters : ∀ w ∈ ws, (Text.ofString w).getLast?.any CodePoint.isWord = true)
    (single : ∀ v ∈ ws, ∀ w ∈ ws,
      (Text.ofString v <+: Text.ofString w ∨ Text.ofString w <+: Text.ofString v) → v = w)
    (place : Place) :
    (anyWord ws place).isSome = true ↔
      ∃ w ∈ ws, Text.startsWithWord place.rest w = true := by
  induction ws with
  | nil =>
    constructor
    · intro read
      cases read
    · rintro ⟨w, member, _⟩
      cases member
  | cons w ws ih =>
    have here := wholeWord_isSome_iff (letters w List.mem_cons_self) place
    rw [wholeWord, bind_apply] at here
    rw [anyWord, bind_apply, anyLiteral]
    cases first : literal w place with
    | none =>
      have others := ih (fun v member => letters v (List.mem_cons_of_mem w member))
        fun u inside v member =>
          single u (List.mem_cons_of_mem w inside) v (List.mem_cons_of_mem w member)
      rw [anyWord, bind_apply] at others
      rw [first] at here
      rw [orElse_of_none first, others, List.exists_mem_cons_iff, ← here]
      exact (or_iff_right Bool.false_ne_true).symm
    | some result =>
      rw [first] at here
      change (Option.bind (literal w place <|> anyLiteral ws place) _).isSome = true ↔ _
      rw [first]
      refine here.trans ⟨fun found => ⟨w, List.mem_cons_self, found⟩, ?_⟩
      rintro ⟨v, member, found⟩
      -- any other of the words at this place would start this one or the other way round
      have starts := (literal_eq_some first).1
      have other := (Bool.and_eq_true_iff.mp found).1
      obtain rfl := single v member w List.mem_cons_self (List.prefix_or_prefix_of_prefix
        (List.isPrefixOf_iff_prefix.mp other) (List.isPrefixOf_iff_prefix.mp starts))
      exact found

private theorem expressionWord_isSome_iff :
    (expressionWord ⟨q, offset, operand x⟩).isSome = true ↔
      ∃ w ∈ expressionWords, ∃ y, x = w ++ y ∧ (operand y).head?.any CodePoint.isWord = false := by
  have inner : ∀ w ∈ expressionWords, CodePoint.scalar ';' ∉ Text.ofString w := by decide
  have behind (w y : String) : Text.startsWithWord (operand (w ++ y)) w = true ↔
      (operand y).head?.any CodePoint.isWord = false := by
    have starts : Text.startsWith (operand (w ++ y)) w = true := by
      rw [operand_append]
      exact List.isPrefixOf_iff_prefix.mpr (List.prefix_append _ _)
    rw [Text.startsWithWord, starts, Bool.true_and, operand_append, List.drop_left,
      Bool.not_eq_true']
  rw [expressionWord, anyWord_isSome_iff (by decide) (by decide)]
  apply exists_congr
  intro w
  apply and_congr_right
  intro member
  constructor
  · intro found
    obtain ⟨y, rfl⟩ := exists_of_startsWith (inner w member) (Bool.and_eq_true_iff.mp found).1
    exact ⟨y, rfl, (behind w y).mp found⟩
  · intro ⟨y, same, ends⟩
    rw [same]
    exact (behind w y).mpr ends

private theorem head_operand_iff {y : String} (parts : ∀ c ∈ Text.ofString y, c.isPart = true) :
    (operand y).head?.any CodePoint.isWord = false ↔ y = "" ∨ ∃ z, y = "$" ++ z := by
  cases chars : y.toList with
  | nil =>
    have empty : y = "" := String.toList_inj.mp chars
    subst empty
    exact iff_of_true (by decide) (.inl rfl)
  | cons c cs =>
    have head : (operand y).head? = some (.scalar c) := by simp [operand, Text.ofString, chars]
    rw [head, Option.any_some]
    constructor
    · intro other
      have part := parts (.scalar c) (by simp [Text.ofString, chars])
      rcases CodePoint.isWord_of_isPart part with word | dollar
      · rw [word] at other
        cases other
      · obtain rfl := CodePoint.scalar.inj dollar
        refine .inr ⟨String.ofList cs, String.toList_inj.mp ?_⟩
        simp [chars]
    · rintro (rfl | ⟨z, rfl⟩)
      · cases chars
      · simp only [String.toList_append] at chars
        obtain ⟨rfl, _⟩ := List.cons.inj chars
        decide

include plain in
private theorem expressionWord_iff :
    (expressionWord ⟨q, offset, operand x⟩).isSome = true ↔
      ∃ w ∈ expressionWords, x = w ∨ ∃ y, x = w ++ "$" ++ y := by
  rw [expressionWord_isSome_iff]
  constructor
  · rintro ⟨w, member, y, rfl, ends⟩
    have parts : ∀ c ∈ Text.ofString y, c.isPart = true := by
      intro c inner
      apply Name.isPart_of_isPlain plain
      rw [Text.ofString_append]
      exact List.mem_append_right _ inner
    rcases (head_operand_iff parts).mp ends with rfl | ⟨z, rfl⟩
    · exact ⟨w, member, .inl (by simp)⟩
    · exact ⟨w, member, .inr ⟨z, by rw [String.append_assoc]⟩⟩
  · rintro ⟨w, member, rfl | ⟨y, rfl⟩⟩
    · exact ⟨x, member, "", by simp, by decide⟩
    · refine ⟨w, member, "$" ++ y, by rw [String.append_assoc], ?_⟩
      rw [operand_append]
      rfl

include plain in
private theorem nameAlone_operand :
    (nameAlone ⟨q, offset, operand x⟩).map Prod.fst =
      if (expressionWord ⟨q, offset, operand x⟩).isSome then none else some x := by
  have statementEnds : Takes statementEnd ([] ++ []) () (Text.ofString ";") :=
    (takes_span (by simp) (by decide)).bind fun previous _ => ⟨previous, rfl⟩
  have read : Takes nameStatement (Text.ofString x ++ ([] ++ [] ++ [])) x (Text.ofString ";") :=
    (takes_plain plain (by decide)).bind (statementEnds.bind (takes_pure x _))
  obtain ⟨q', taken⟩ := read q offset
  simp only [List.append_nil] at taken
  rw [nameAlone, bind_apply, notAhead]
  split
  · rfl
  · rw [Option.bind_some, operand, taken]
    rfl

private theorem declared_of_solid {r : Text} (solid : ∀ c ∈ r, c.isBlank = false) :
    declaredName ⟨q, offset, r⟩ = functionName ⟨q, offset, r⟩ := by
  have async : asyncWord ⟨q, offset, r⟩ = none :=
    eq_none_of_reads ((passes_literal _).pass fun _ => reads_gap) solid
  have unnamed : className ⟨q, offset, r⟩ = none :=
    eq_none_of_reads ((passes_maybe passes_abstractWord).pass fun _ =>
      (passes_literal _).pass fun _ => reads_gap.absurd) solid
  rw [declaredName, bind_apply, maybe_of_none async, Option.bind_some]
  change (functionName _ <|> className _) = _
  rw [unnamed]
  cases functionName ⟨q, offset, r⟩ <;> rfl

end Identifier

namespace Strategy

private theorem byOffset_of_zero {found : List FoundExport} (start : ∀ f ∈ found, f.offset = 0) :
    byOffset found = found := by
  apply List.mergeSort_of_pairwise
  apply List.pairwise_of_forall_mem_list
  intro a first b second
  simp [start a first, start b second]

/-- The search for plain default exports finds a function, the name by itself and something without
a name, if it finds them, in this order. -/
theorem scanDefault_statement {r : Text} (solid : ∀ c ∈ r, c.isBlank = false) (fileName : String) :
    ∃ q q' inline, (∀ f ∈ inline, f.anonymous = true) ∧
      scanDefault (Text.ofString "export default " ++ r) fileName =
        ((functionName ⟨q, 15, r⟩).map fun a => FoundExport.default 0 a.1).toList ++
          (((nameAlone ⟨q', 15, r⟩).map fun a => FoundExport.default 0 a.1).toList ++ inline) := by
  obtain ⟨q, declared⟩ : ∃ q, declaredDefault.all (Text.ofString "export default " ++ r) =
      ((functionName ⟨q, 15, r⟩).map fun a => (0, a.1)).toList := by
    obtain ⟨q, found⟩ := all_exportDefault declaredName solid
    rw [declared_of_solid q 15 solid] at found
    exact ⟨q, found⟩
  obtain ⟨q', named⟩ : ∃ q', namedDefault.all (Text.ofString "export default " ++ r) =
      ((nameAlone ⟨q', 15, r⟩).map fun a => (0, a.1)).toList := all_exportDefault nameAlone solid
  obtain ⟨inline, anonymous⟩ : ∃ inline : Option Unit,
      anonymousDefault.all (Text.ofString "export default " ++ r) =
        (inline.map fun a => (0, a)).toList := by
    obtain ⟨q'', found⟩ := all_exportDefault Sketch.anonymous solid
    refine ⟨(Sketch.anonymous ⟨q'', 15, r⟩).map Prod.fst, found.trans ?_⟩
    rw [Option.map_map]
    rfl
  refine ⟨q, q',
    (inline.map fun _ => { FoundExport.default 0 fileName with anonymous := true }).toList,
    by simp, ?_⟩
  rw [scanDefault, declared, named, anonymous, byOffset_of_zero]
  · cases functionName ⟨q, 15, r⟩ <;> cases nameAlone ⟨q', 15, r⟩ <;>
      cases inline <;> rfl
  · simp only [List.mem_append, List.mem_map, Option.mem_toList, Option.map_eq_some_iff]
    rintro f ((⟨_, ⟨_, _, rfl⟩, rfl⟩ | ⟨_, ⟨_, _, rfl⟩, rfl⟩) | ⟨_, ⟨_, _, rfl⟩, rfl⟩) <;> rfl

end Strategy

namespace FoundExports

theorem default_statement {x : String} (plain : Name.isPlain x = true) (fileName : String) :
    ∃ q q' inline, (∀ f, inline = some f → f.anonymous = true) ∧
      (discover (Text.ofString "export default " ++ operand x) fileName Strategy.ordered).default =
        ((functionName ⟨q, 15, operand x⟩).map fun a => FoundExport.default 0 a.1).or
          (((nameAlone ⟨q', 15, operand x⟩).map fun a => FoundExport.default 0 a.1).or inline) := by
  have absent {d : CodePoint} (other : d ∉ Text.ofString "export default " ∧ d.isPart = false ∧
      d ≠ .scalar ';') : ∀ c ∈ Text.ofString "export default " ++ operand x, c ≠ d := by
    rintro c inner rfl
    rcases List.mem_append.mp inner with lead | behind
    · exact other.1 lead
    · rcases mem_operand plain behind with part | last
      · simp [other.2.1] at part
      · exact other.2.2 last
  have connected : Strategy.scanConnected (Text.ofString "export default " ++ operand x) = [] := by
    have direct := all_eq_nil connectedDefault_never (absent (by decide))
    have bound := connectedVariable_all fun inner => absent (by decide) _ inner rfl
    simp [Strategy.scanConnected, direct, bound, Strategy.byOffset]
  have wrapped : Strategy.scanWrapped (Text.ofString "export default " ++ operand x) = [] := by
    simp [Strategy.scanWrapped, all_eq_nil wrappedDefault_never (absent (by decide))]
  have lists : Strategy.scanLists (Text.ofString "export default " ++ operand x) = [] :=
    scanLists_eq_nil fun inner => absent (by decide) _ inner rfl
  have named : (Strategy.scanNamed (Text.ofString "export default " ++ operand x)).find?
      (fun f => f.visibility = .default) = none := by
    simp [Strategy.scanNamed, FoundExport.named]
  obtain ⟨q, q', inline, anonymous, scanned⟩ :=
    Strategy.scanDefault_statement (solid_operand plain) fileName
  refine ⟨q, q', inline.find? fun f => f.visibility = .default,
    fun f found => anonymous f (List.mem_of_find?_eq_some found), ?_⟩
  rw [discover, default_foldl_add, Option.none_or]
  simp only [Strategy.ordered, List.flatMap_cons, List.flatMap_nil, Strategy.scan, connected,
    wrapped, lists, scanned, List.nil_append, List.append_nil, List.find?_append, named, Option.or_none]
  cases functionName ⟨q, 15, operand x⟩ <;> cases nameAlone ⟨q', 15, operand x⟩ <;>
    simp [FoundExport.default]

/-- An identifier that is exported by itself is found under its name, just if it is not the word
`function` and another identifier in one, and no word of an expression that ends there or goes on
with a dollar sign. -/
theorem default_statement_iff {x : String} (name : Name.isIdentifier x = true)
    (oneLine : '\n' ∉ x.toList) (fileName : String) :
    (discover (Text.ofString ("export default " ++ x ++ ";")) fileName Strategy.ordered).default =
        some (.default 0 x) ↔
      (∀ y, Name.isIdentifier y = true → x ≠ "function" ++ y) ∧
        ∀ w ∈ expressionWords, x ≠ w ∧ ∀ y, x ≠ w ++ "$" ++ y := by
  have plain := Name.isPlain_of_isIdentifier name oneLine
  have split : Text.ofString ("export default " ++ x ++ ";") =
      Text.ofString "export default " ++ operand x := by
    rw [Text.ofString_append, Text.ofString_append, List.append_assoc, operand]
  obtain ⟨q, q', inline, anonymous, chosen⟩ := default_statement plain fileName
  have alone : ((nameAlone ⟨q', 15, operand x⟩).map fun a => FoundExport.default 0 a.1) =
      if (expressionWord ⟨q', 15, operand x⟩).isSome then none else some (.default 0 x) := by
    have mapped := congrArg (Option.map (FoundExport.default 0)) (nameAlone_operand plain q' 15)
    rw [Option.map_map] at mapped
    refine mapped.trans ?_
    split <;> rfl
  have word : (∀ w ∈ expressionWords, x ≠ w ∧ ∀ y, x ≠ w ++ "$" ++ y) ↔
      ¬(expressionWord ⟨q', 15, operand x⟩).isSome = true := by
    rw [expressionWord_iff plain]
    simp only [not_exists, not_and, not_or, ne_eq]
  rw [split, chosen, alone, word]
  constructor
  · intro found
    have noFunction : ∀ y, Name.isIdentifier y = true → x ≠ "function" ++ y := by
      rintro y identifier rfl
      have shorter : '\n' ∉ y.toList := by
        intro member
        apply oneLine
        rw [String.toList_append]
        exact List.mem_append_right _ member
      obtain ⟨behind, read⟩ :=
        functionName_append (Name.isPlain_of_isIdentifier identifier shorter) q 15
      rw [read] at found
      have same : y = "function" ++ y := congrArg FoundExport.name (Option.some.inj found)
      have longer := congrArg String.length same
      simp at longer
    refine ⟨noFunction, fun read => ?_⟩
    have none := functionName_eq_none plain q 15 fun y plain =>
      noFunction y (Name.isIdentifier_of_isPlain plain)
    rw [none, if_pos read] at found
    cases anonymous _ found
  · rintro ⟨noFunction, unread⟩
    have none := functionName_eq_none plain q 15 fun y plain =>
      noFunction y (Name.isIdentifier_of_isPlain plain)
    rw [none, if_neg unread]
    rfl

/-- Words that are no identifiers of the language. -/
def reservedWords : List String :=
  ["await", "break", "case", "catch", "class", "const", "continue", "debugger", "default", "delete",
    "do", "else", "enum", "export", "extends", "false", "finally", "for", "function", "if",
    "implements", "import", "in", "instanceof", "interface", "let", "new", "null", "package",
    "private", "protected", "public", "return", "static", "super", "switch", "this", "throw", "true",
    "try", "typeof", "var", "void", "while", "with", "yield"]

/-- A class without a name starts in the same way, but the name is looked for first. -/
theorem classextends_default :
    (discover (Text.ofString "export default classextends;") "Page" Strategy.ordered).default =
      some (.default 0 "classextends") := by
  refine (default_statement_iff (x := "classextends") (by decide) (by decide) "Page").mpr ⟨?_, ?_⟩
  · intro y _ same
    exact absurd (congrArg (·.toList.head?) same) (by simp)
  · have apart : ∀ w ∈ expressionWords,
        "classextends" ≠ w ∧ ¬(w ++ "$").toList <+: "classextends".toList := by decide
    refine fun w member => ⟨(apart w member).1, fun y same => (apart w member).2 ?_⟩
    exact ⟨y.toList, (String.toList_append.symm.trans (congrArg String.toList same.symm))⟩

theorem functional_default :
    (∀ x ∈ ["functional", "class$", "async"], x ∉ reservedWords ∧ Name.isIdentifier x = true) ∧
      (discover (Text.ofString "export default functional;") "Page" Strategy.ordered).default =
        some (.default 0 "al") ∧
      (discover (Text.ofString "export default class$;") "Page" Strategy.ordered).default = none ∧
      (discover (Text.ofString "export default async;") "Page" Strategy.ordered).default = none := by
  refine ⟨by decide, ?_, by decide +kernel, by decide +kernel⟩
  have plain : Name.isPlain "functional" = true := by decide
  obtain ⟨q, q', inline, _, chosen⟩ := default_statement plain "Page"
  obtain ⟨behind, read⟩ := functionName_append (x := "al") (by decide) q 15
  refine chosen.trans ?_
  change ((functionName ⟨q, 15, operand ("function" ++ "al")⟩).map _).or _ = _
  rw [read]
  rfl

end FoundExports
end Sketch
end ExportInventory
