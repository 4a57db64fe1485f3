import ExportInventory.Text.Digit
import ExportInventory.Text.Quoted

/-!
Command-line interfaces: options, which start with dashes and may be shortened, and one operand.
An argument is first sorted by its look; then options and the operand take their arguments from
left to right.
-/
namespace ExportInventory.Command

inductive OptionKind where
  | help
  | switch
  | value
deriving DecidableEq, Repr

structure CommandOption where
  names : List String
  kind : OptionKind
deriving DecidableEq, Repr

def CommandOption.label (o : CommandOption) : String := "/".intercalate o.names

/-- How many arguments an operand takes: one, at least one, or all that follow, options too. -/
inductive OperandCount where
  | one
  | several
  | rest
deriving DecidableEq, Repr

structure Interface where
  program : String
  usage : String
  help : String
  options : List CommandOption
  operand : String
  count : OperandCount
  required : Bool
deriving Repr

inductive Complaint where
  | ambiguous (argument : String) (names : List String)
  | noValue (option : CommandOption)
  | unusedValue (option : CommandOption) (value : String)
  | badChoice (operand choice : String) (choices : List String)
  | required (operand : String)
  | unrecognized (arguments : List String)
deriving DecidableEq, Repr

def Complaint.message : Complaint → String
  | ambiguous argument names =>
    "ambiguous option: " ++ argument ++ " could match " ++ ", ".intercalate names
  | noValue option => "argument " ++ option.label ++ ": expected one argument"
  | unusedValue option value =>
    "argument " ++ option.label ++ ": ignored explicit argument " ++ Text.quoted value
  | badChoice operand choice choices =>
    "argument " ++ operand ++ ": invalid choice: " ++ Text.quoted choice ++ " (choose from "
      ++ ", ".intercalate (choices.map Text.quoted) ++ ")"
  | required operand => "the following arguments are required: " ++ operand
  | unrecognized arguments => "unrecognized arguments: " ++ " ".intercalate arguments

inductive Stop where
  | help (interface : Interface)
  | complaint (interface : Interface) (c : Complaint)

inductive Attached where
  | none
  | equals (value : List Char)
  | direct (value : List Char)
deriving DecidableEq, Repr

structure Named where
  option : CommandOption
  name : String
  attached : Attached
deriving DecidableEq, Repr

inductive Look where
  | plain
  | dashes
  | option (named : Option Named)
deriving DecidableEq, Repr

def Look.isOption : Look → Bool
  | option _ => true
  | _ => false

private def digits (cs : List Char) : Bool := cs.all (fun c => (Text.digitValue? (.scalar c)).isSome)

def isNegativeNumber (cs : List Char) : Bool :=
  match cs with
  | '-' :: body =>
    let body := if body.getLast? = some '\n' then body.dropLast else body
    let whole := body.takeWhile (· ≠ '.')
    match body.drop whole.length with
    | [] => !body.isEmpty && digits body
    | _ :: fraction => digits whole && !fraction.isEmpty && digits fraction
  | _ => false

def splitEquals (cs : List Char) : List Char × Attached :=
  let name := cs.takeWhile (· ≠ '=')
  match cs.drop name.length with
  | [] => (name, .none)
  | _ :: value => (name, .equals value)

namespace Interface

variable (i : Interface)

def named : List (String × CommandOption) :=
  i.options.flatMap fun o => o.names.map (·, o)

/-- The options that an argument may mean. After two dashes any start of a name will do; after one
the first letter may be followed by a value. -/
def candidates (cs : List Char) : List Named :=
  match cs with
  | '-' :: '-' :: _ =>
    let (start, attached) := splitEquals cs
    (i.named.filter (fun x => start.isPrefixOf x.1.toList)).map fun x => ⟨x.2, x.1, attached⟩
  | _ =>
    i.named.filterMap fun x =>
      if x.1.toList = cs.take 2 then some ⟨x.2, x.1, .direct (cs.drop 2)⟩
      else if cs.isPrefixOf x.1.toList then some ⟨x.2, x.1, .none⟩
      else none

def look (argument : String) : Except Complaint Look :=
  let cs := argument.toList
  match cs with
  | '-' :: _ =>
    match i.named.lookup argument with
    | some o => .ok (.option (some ⟨o, argument, .none⟩))
    | none =>
      if cs.length = 1 then .ok .plain
      else
        let (name, attached) := splitEquals cs
        match attached, i.named.lookup (String.ofList name) with
        | .equals value, some o => .ok (.option (some ⟨o, String.ofList name, .equals value⟩))
        | _, _ =>
          match i.candidates cs with
          | [named] => .ok (.option (some named))
          | [] =>
            if isNegativeNumber cs || cs.contains ' ' then .ok .plain else .ok (.option none)
          | several => .error (.ambiguous argument (several.map (·.name)))
  | _ => .ok .plain

/-- The looks of all arguments. After two dashes alone no argument is an option. -/
def looks : List String → Except Complaint (List (String × Look))
  | [] => .ok []
  | argument :: rest =>
    if argument = "--" then .ok ((argument, .dashes) :: rest.map (·, .plain))
    else do
      let l ← i.look argument
      return (argument, l) :: (← looks rest)

end Interface

structure Reading where
  values : List (String × String)
  switches : List String
  operand : Option (List String)
  extras : List String
deriving Repr

namespace Reading

def empty : Reading := ⟨[], [], none, []⟩

def value? (r : Reading) (name : String) : Option String := r.values.lookup name

end Reading

structure Unfolded where
  given : List (CommandOption × Option String)
  waiting : Option CommandOption
  extra : List String

/-- Unfolds an argument: letters after a single dash are options of their own as long as the one
before takes no value. -/
def unfold (i : Interface) (o : CommandOption) (single equals : Bool) :
    List Char → Except Complaint Unfolded
  | [] =>
    if o.kind = .value then .ok ⟨[(o, some "")], none, []⟩ else .error (.unusedValue o "")
  | c :: rest =>
    if o.kind = .value then .ok ⟨[(o, some (String.ofList (c :: rest)))], none, []⟩
    else if !single || equals || c = '-' then .error (.unusedValue o (String.ofList (c :: rest)))
    else
      match i.named.lookup (String.ofList ['-', c]) with
      | none => .ok ⟨[(o, none)], none, [String.ofList ('-' :: c :: rest)]⟩
      | some next => do
        let u ← match rest with
          | [] => .ok ⟨[], some next, []⟩
          | '=' :: more => unfold i next true true more
          | d :: more => unfold i next true false (d :: more)
        return { u with given := (o, none) :: u.given }
termination_by cs => cs.length

def Named.unfold (i : Interface) (n : Named) : Except Complaint Unfolded :=
  let single := n.name.toList[1]? ≠ some '-'
  match n.attached with
  | .none => .ok ⟨[], some n.option, []⟩
  | .equals value => Command.unfold i n.option single true value
  | .direct value => Command.unfold i n.option single false value

namespace Interface

variable (i : Interface)

def note (r : Reading) (o : CommandOption) (value : Option String) : Except Stop Reading :=
  match o.kind with
  | .help => .error (.help i)
  | .switch => .ok { r with switches := o.label :: r.switches }
  | .value => .ok { r with values := (o.label, value.getD "") :: r.values }

def readOption (r : Reading) (named : Named) (rest : List (String × Look)) :
    Except Stop (Reading × List (String × Look)) := do
  let u ← (named.unfold i).mapError (.complaint i)
  let (waiting, rest) ← match u.waiting with
    | none => pure ([], rest)
    | some o =>
      if o.kind = .value then
        match rest with
        | (value, .plain) :: rest => pure ([(o, some value)], rest)
        | _ => .error (.complaint i (.noValue o))
      else pure ([(o, none)], rest)
  let r ← (u.given ++ waiting).foldlM (fun r x => i.note r x.1 x.2) r
  return ({ r with extras := r.extras ++ u.extra }, rest)

/-- The number of arguments that the operand takes. Two dashes alone may stand before and after. -/
def operandLength (arguments : List (String × Look)) : Option Nat :=
  let lead := (arguments.takeWhile (fun a => a.2 = .dashes)).length
  match arguments.drop lead with
  | (_, .plain) :: rest =>
    match i.count with
    | .one => some (lead + 1 + (rest.takeWhile (fun a => a.2 = .dashes)).length)
    | .several => some (lead + 1 + (rest.takeWhile (fun a => !a.2.isOption)).length)
    | .rest => some arguments.length
  | _ => none

def readOperand? (r : Reading) (arguments : List (String × Look)) :
    Option (Reading × List (String × Look)) :=
  match r.operand, i.operandLength arguments with
  | none, some n =>
    let taken := (arguments.take n).map Prod.fst
    let taken := if i.count = .rest then taken else taken.erase "--"
    some ({ r with operand := some taken }, arguments.drop n)
  | _, _ => none

/-- Reads arguments from left to right. Each round uses up at least one, so `fuel` above their
number is enough. -/
def readWithin : Nat → Reading → List (String × Look) → Except Stop Reading
  | 0, r, _ => .ok r
  | fuel + 1, r, arguments =>
    let lead := arguments.takeWhile (fun a => !a.2.isOption)
    match arguments.drop lead.length with
    | (argument, .option named) :: rest =>
      match (if lead.isEmpty then none else i.readOperand? r arguments) with
      | some (r, after) => readWithin fuel r after
      | none =>
        let r := { r with extras := r.extras ++ lead.map Prod.fst }
        match named with
        | none => readWithin fuel { r with extras := r.extras ++ [argument] } rest
        | some named => do
          let (r, after) ← i.readOption r named rest
          readWithin fuel r after
    | _ =>
      match i.readOperand? r arguments with
      | some (r, after) => .ok { r with extras := r.extras ++ after.map Prod.fst }
      | none => .ok { r with extras := r.extras ++ arguments.map Prod.fst }

def read (arguments : List String) : Except Stop Reading := do
  let looked ← (i.looks arguments).mapError (.complaint i)
  let r ← i.readWithin (looked.length + 1) .empty looked
  if i.required && r.operand.isNone then .error (.complaint i (.required i.operand))
  else return r

end Interface
end ExportInventory.Command
