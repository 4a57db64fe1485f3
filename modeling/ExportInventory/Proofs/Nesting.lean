import ExportInventory.Proofs.Removal

/-!
Calls that are followed into each other. The name of a call is looked for along its callees, what it
wraps along its first arguments. Both ways are followed for sixteen calls at most, and up to there
they lead where they would lead without a limit.
-/
namespace ExportInventory

namespace Tree

theorem size_unwrapped_le (t : Tree) : t.unwrapped.size ≤ t.size := by
  apply of_unwrapped (P := fun n => n.size ≤ t.size)
  · intro n bound c child
    exact Nat.le_trans (Nat.le_of_lt (size_lt_of_mem child)) bound
  · exact Nat.le_refl _

private theorem size_operand_lt {t c : Tree} {role : String} (found : t.operand? role = some c) :
    c.size < t.size := by
  obtain ⟨v, child, rfl⟩ := Option.map_eq_some_iff.mp found
  have smaller := size_lt_of_mem (mem_children_of_child? child)
  have inside := size_unwrapped_le v
  omega

end Tree

namespace Wrapper

/-- The first argument of a call, without what is around it. -/
def argument? (call : Tree) : Option Tree := (firstArgument? call).map Tree.unwrapped

private theorem size_argument_lt {call c : Tree} (found : argument? call = some c) :
    c.size < call.size := by
  obtain ⟨v, first, rfl⟩ := Option.map_eq_some_iff.mp found
  obtain ⟨list, arguments, named⟩ := Option.bind_eq_some_iff.mp first
  have outer := Tree.size_lt_of_mem (Tree.mem_children_of_child? arguments)
  have inner := Tree.size_lt_of_mem (List.mem_filter.mp (List.mem_of_find?_eq_some named)).1
  have inside := Tree.size_unwrapped_le v
  omega

/-- A way from calls to smaller nodes. -/
structure Descent where
  next : Tree → Option Tree
  shrinks : ∀ {t c : Tree}, next t = some c → c.size < t.size

namespace Descent

variable (d : Descent)

/-- The first node on the way that is no call. -/
def target? (t : Tree) : Option Tree :=
  match found : d.next t with
  | none => none
  | some c =>
    have _smaller := d.shrinks found
    if c.kind = "call_expression" then target? c else some c
termination_by t.size

/-- The calls on the way. The one that it starts from counts. -/
def calls (t : Tree) : List Tree :=
  match found : d.next t with
  | none => [t]
  | some c =>
    have _smaller := d.shrinks found
    if c.kind = "call_expression" then t :: calls c else [t]
termination_by t.size

/-- The target if it is reached within a number of calls. -/
def targetWithin? : Nat → Tree → Option Tree
  | 0, _ => none
  | depth + 1, t =>
    (d.next t).bind fun c =>
      if c.kind = "call_expression" then targetWithin? depth c else some c

variable {d} {t c : Tree}

theorem target?_of_none (stop : d.next t = none) : d.target? t = none := by
  rw [target?]
  split <;> simp_all

theorem target?_of_some (found : d.next t = some c) :
    d.target? t = if c.kind = "call_expression" then d.target? c else some c := by
  rw [target?]
  split <;> simp_all

theorem calls_of_none (stop : d.next t = none) : d.calls t = [t] := by
  rw [calls]
  split <;> simp_all

theorem calls_of_some (found : d.next t = some c) :
    d.calls t = if c.kind = "call_expression" then t :: d.calls c else [t] := by
  rw [calls]
  split <;> simp_all

theorem mem_calls_self (d : Descent) (t : Tree) : t ∈ d.calls t := by
  cases found : d.next t with
  | none => simp [calls_of_none found]
  | some c =>
    rw [calls_of_some found]
    split <;> simp

theorem targetWithin?_eq (d : Descent) (depth : Nat) (t : Tree) :
    d.targetWithin? depth t = if (d.calls t).length ≤ depth then d.target? t else none := by
  induction depth generalizing t with
  | zero =>
    have some : 0 < (d.calls t).length := List.length_pos_of_mem (d.mem_calls_self t)
    rw [targetWithin?, if_neg (by omega)]
  | succ depth ih =>
    rw [targetWithin?]
    cases found : d.next t with
    | none => simp [target?_of_none found]
    | some c =>
      rw [Option.bind_some, target?_of_some found, calls_of_some found]
      by_cases call : c.kind = "call_expression"
      · simp [call, ih]
      · simp [call]

theorem next_of_target? (found : d.target? t = some c) :
    c.kind ≠ "call_expression" ∧ (∃ v, d.next v = some c) ∧
      ∀ call ∈ d.calls t, (d.next call).isSome := by
  induction t using calls.induct d with
  | case1 t stop =>
    rw [target?_of_none stop] at found
    cases found
  | case2 t v step _ again ih =>
    rw [target?_of_some step, if_pos again] at found
    obtain ⟨kind, led, goesOn⟩ := ih found
    refine ⟨kind, led, ?_⟩
    rw [calls_of_some step, if_pos again, List.forall_mem_cons, step]
    exact ⟨rfl, goesOn⟩
  | case3 t v step _ other =>
    rw [target?_of_some step, if_neg other] at found
    rw [← Option.some.inj found]
    refine ⟨other, ⟨t, step⟩, ?_⟩
    rw [calls_of_some step, if_neg other, List.forall_mem_singleton, step]
    rfl

private theorem target?_congr {e : Descent} (same : ∀ call ∈ d.calls t, e.next call = d.next call) :
    e.target? t = d.target? t ∧ e.calls t = d.calls t := by
  have first := same t (d.mem_calls_self t)
  induction t using calls.induct d with
  | case1 t stop =>
    rw [stop] at first
    rw [target?_of_none stop, target?_of_none first, calls_of_none stop, calls_of_none first]
    exact ⟨rfl, rfl⟩
  | case2 t v step _ again ih =>
    rw [step] at first
    have rest : ∀ call ∈ d.calls v, e.next call = d.next call := by
      intro call member
      apply same
      rw [calls_of_some step, if_pos again]
      exact List.mem_cons_of_mem t member
    obtain ⟨target, calls⟩ := ih rest (rest v (d.mem_calls_self v))
    simp only [target?_of_some step, target?_of_some first, calls_of_some step, calls_of_some first,
      again, if_true, target, calls, and_self]
  | case3 t v step _ other =>
    rw [step] at first
    simp only [target?_of_some step, target?_of_some first, calls_of_some step, calls_of_some first,
      other, if_false, and_self]

end Descent

/-- From a call to what it calls. -/
def callees : Descent := ⟨fun t => t.operand? "function", Tree.size_operand_lt⟩

/-- The name of a function that is called by its name or as a member. -/
def plainName? (s : Source) (callee : Tree) : Option String :=
  if callee.kind = "identifier" then some (s.textOf callee)
  else if callee.kind = "member_expression" then (callee.child? "property").map s.textOf
  else none

/-- The name of the function that a call calls, through any number of curried calls. -/
def curriedName? (s : Source) (call : Tree) : Option String :=
  (callees.target? call).bind (plainName? s)

private theorem calleeName?_succ (s : Source) (depth : Nat) (callee : Tree) :
    calleeName? s (depth + 1) (some callee) =
      if callee.kind = "call_expression" then calleeName? s depth (callee.operand? "function")
      else plainName? s callee := by
  rw [calleeName?, plainName?]
  split <;> simp_all [Tree.operand?]

private theorem calleeName?_eq (s : Source) (depth : Nat) (call : Tree) :
    calleeName? s depth (call.operand? "function") =
      (callees.targetWithin? depth call).bind (plainName? s) := by
  induction depth generalizing call with
  | zero => rfl
  | succ depth ih =>
    rw [Descent.targetWithin?]
    change _ = ((call.operand? "function").bind _).bind _
    cases call.operand? "function" with
    | none => rfl
    | some callee =>
      rw [calleeName?_succ, Option.bind_some]
      by_cases again : callee.kind = "call_expression"
      · rw [if_pos again, if_pos again, ih]
      · rw [if_neg again, if_neg again, Option.bind_some]

theorem name?_eq (s : Source) (call : Tree) :
    name? s call = if (callees.calls call).length ≤ 16 then curriedName? s call else none := by
  have bounded : name? s call = (callees.targetWithin? 16 call).bind (plainName? s) :=
    calleeName?_eq s 16 call
  rw [bounded, Descent.targetWithin?_eq]
  split <;> rfl

/-- From a call that is accepted to its first argument. -/
def arguments (accepts : Tree → Bool) : Descent where
  next t := if t.kind = "call_expression" ∧ accepts t = true then argument? t else none
  shrinks found := size_argument_lt (Option.ite_none_right_eq_some.mp found).2

/-- The call is named like a wrapper, through any number of curried calls. -/
def isCurriedNamed (s : Source) (call : Tree) : Bool :=
  (curriedName? s call).any fun name => names.contains name

private theorem isNamed_of_length_le {s : Source} {call : Tree}
    (short : (callees.calls call).length ≤ 16) :
    isNamed s call = isCurriedNamed s call := by
  rw [isNamed, name?_eq, if_pos short, isCurriedNamed]
  cases curriedName? s call <;> rfl

private theorem length_le_of_isNamed {s : Source} {call : Tree} (named : isNamed s call = true) :
    (callees.calls call).length ≤ 16 := by
  by_contra long
  rw [isNamed, name?_eq, if_neg long] at named
  cases named

private theorem innermost?_eq (s : Source) (depth : Nat) (call : Tree) :
    innermost? s depth call = (arguments (isNamed s)).targetWithin? depth call := by
  induction depth generalizing call with
  | zero => rfl
  | succ depth ih =>
    rw [innermost?, Descent.targetWithin?]
    by_cases accepted : call.kind = "call_expression" ∧ isNamed s call = true
    · have next : (arguments (isNamed s)).next call = argument? call := if_pos accepted
      rw [next, if_neg (by simp [accepted]), argument?]
      cases (firstArgument? call).map Tree.unwrapped with
      | none => rfl
      | some inner =>
        rw [Option.bind_some]
        by_cases again : inner.kind = "call_expression" <;> simp [again, ih]
    · have next : (arguments (isNamed s)).next call = none := if_neg accepted
      have refused : (call.kind != "call_expression" || !isNamed s call) = true := by
        simpa [Classical.or_iff_not_imp_left] using accepted
      rw [next, if_pos refused, Option.bind_none]

private theorem inner?_eq (s : Source) (t : Tree) :
    inner? s t =
      if ((arguments (isNamed s)).calls t.unwrapped).length ≤ 16 then
        (arguments (isNamed s)).target? t.unwrapped
      else none := by
  have bounded : inner? s t = (arguments (isNamed s)).targetWithin? 16 t.unwrapped :=
    innermost?_eq s 16 t.unwrapped
  rw [bounded, Descent.targetWithin?_eq]

private theorem next_arguments_of_length_le {s : Source} {call : Tree}
    (short : (callees.calls call).length ≤ 16) :
    (arguments (isNamed s)).next call = (arguments (isCurriedNamed s)).next call := by
  simp only [arguments, isNamed_of_length_le short]

/-- A target behind wrappers is found on the way without limits too, over calls with short names. -/
theorem target?_isNamed_iff (s : Source) (t inner : Tree) :
    (arguments (isNamed s)).target? t = some inner ∧
        ((arguments (isNamed s)).calls t).length ≤ 16 ↔
      (arguments (isCurriedNamed s)).target? t = some inner ∧
        ((arguments (isCurriedNamed s)).calls t).length ≤ 16 ∧
        ∀ call ∈ (arguments (isCurriedNamed s)).calls t, (callees.calls call).length ≤ 16 := by
  constructor
  · rintro ⟨found, few⟩
    -- A name is only found over few callees, so the limit on names does not show on this way.
    have short : ∀ call ∈ (arguments (isNamed s)).calls t, (callees.calls call).length ≤ 16 := by
      intro call member
      obtain ⟨c, step⟩ := Option.isSome_iff_exists.mp ((Descent.next_of_target? found).2.2 call member)
      exact length_le_of_isNamed (Option.ite_none_right_eq_some.mp step).1.2
    obtain ⟨target, calls⟩ := Descent.target?_congr (e := arguments (isCurriedNamed s))
      fun call member => (next_arguments_of_length_le (short call member)).symm
    rw [target, calls]
    exact ⟨found, few, short⟩
  · rintro ⟨found, few, short⟩
    obtain ⟨target, calls⟩ := Descent.target?_congr (e := arguments (isNamed s))
      fun call member => next_arguments_of_length_le (short call member)
    rw [target, calls]
    exact ⟨found, few⟩

private theorem isCall_of_target? {s : Source} {t inner : Tree}
    (found : (arguments (isNamed s)).target? t.unwrapped = some inner) :
    isCall s t = true ∧ inner.kind ≠ "call_expression" ∧ inner.unwrapped = inner := by
  obtain ⟨kind, ⟨v, last⟩, goesOn⟩ := Descent.next_of_target? found
  refine ⟨?_, kind, ?_⟩
  · obtain ⟨c, step⟩ := Option.isSome_iff_exists.mp (goesOn _ (Descent.mem_calls_self _ _))
    have accepted := (Option.ite_none_right_eq_some.mp step).1
    simp [isCall, accepted]
  · have argument := (Option.ite_none_right_eq_some.mp last).2
    obtain ⟨u, _, rfl⟩ := Option.map_eq_some_iff.mp argument
    exact Tree.unwrapped_unwrapped u

/-- Names of calls and what they wrap are found as without a limit on the calls that are followed, if
these are sixteen at most, and not at all if they are more. What is found behind a wrapper call is no
call, and nothing is around it. -/
theorem name?_and_inner?_of_calls (s : Source) (t : Tree) :
    name? s t = (if (callees.calls t).length ≤ 16 then curriedName? s t else none) ∧
      inner? s t =
        (if ((arguments (isNamed s)).calls t.unwrapped).length ≤ 16 then
          (arguments (isNamed s)).target? t.unwrapped
        else none) ∧
      ∀ inner,
        (inner? s t = some inner ↔
          (arguments (isCurriedNamed s)).target? t.unwrapped = some inner ∧
            ((arguments (isCurriedNamed s)).calls t.unwrapped).length ≤ 16 ∧
            ∀ call ∈ (arguments (isCurriedNamed s)).calls t.unwrapped,
              (callees.calls call).length ≤ 16) ∧
        (inner? s t = some inner →
          isCall s t = true ∧ inner.kind ≠ "call_expression" ∧ inner.unwrapped = inner) := by
  refine ⟨name?_eq s t, inner?_eq s t, fun inner => ⟨?_, ?_⟩⟩
  · rw [inner?_eq, Option.ite_none_right_eq_some, and_comm]
    exact target?_isNamed_iff s t.unwrapped inner
  · intro found
    rw [inner?_eq] at found
    exact isCall_of_target? (Option.ite_none_right_eq_some.mp found).2

/-- A component that is connected to a store and to a router. -/
def routedSource : Source :=
  ⟨"/src/Page.jsx", Encoding.encode "withRouter(connect(m)(Inner))".toList,
    ⟨"call_expression", true, 0, 29, none, false, [
      (Tree.leaf "identifier" true 0 10).withField (some "function"),
      ⟨"arguments", true, 10, 29, some "arguments", false, [
        .leaf "(" false 10 11,
        ⟨"call_expression", true, 11, 28, none, false, [
          ⟨"call_expression", true, 11, 21, some "function", false, [
            (Tree.leaf "identifier" true 11 18).withField (some "function"),
            ⟨"arguments", true, 18, 21, some "arguments", false, [
              .leaf "(" false 18 19, .leaf "identifier" true 19 20, .leaf ")" false 20 21]⟩]⟩,
          ⟨"arguments", true, 21, 28, some "arguments", false, [
            .leaf "(" false 21 22, .leaf "identifier" true 22 27, .leaf ")" false 27 28]⟩]⟩,
        .leaf ")" false 28 29]⟩]⟩⟩

theorem routedSource_inner :
    inner? routedSource routedSource.tree = some (.leaf "identifier" true 22 27) ∧
      (arguments (isCurriedNamed routedSource)).target? routedSource.tree.unwrapped =
        some (.leaf "identifier" true 22 27) ∧
      isCall routedSource routedSource.tree = true := by
  have inner : inner? routedSource routedSource.tree = some (.leaf "identifier" true 22 27) := rfl
  obtain ⟨_, _, wraps⟩ := name?_and_inner?_of_calls routedSource routedSource.tree
  obtain ⟨unlimited, call⟩ := wraps (.leaf "identifier" true 22 27)
  exact ⟨inner, (unlimited.mp inner).1, (call inner).1⟩

/-- A name that is called, what it gives is called again, and so on. -/
def curriedCall : Nat → Tree
  | 0 => (Tree.leaf "identifier" true 0 4).withField (some "function")
  | n + 1 => ⟨"call_expression", true, 0, 2 * n + 6, some "function", false, [curriedCall n]⟩

example (s : Source) : name? s (curriedCall 16) = some (s.textOf (curriedCall 0)) := rfl

example (s : Source) : name? s (curriedCall 17) = none := rfl

end Wrapper
end ExportInventory
