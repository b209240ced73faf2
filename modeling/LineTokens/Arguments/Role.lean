import LineTokens.Arguments.UsageError
import LineTokens.Text.DecimalDigit

/-!
The role of each argument: an operand, a flag that the signature has, or
something that looks like a flag and is none. Roles are assigned before any
argument is interpreted. The first argument that is just two dashes is a
separator, and all arguments after it are operands.
-/

namespace LineTokens

/-- A value given in the same argument as a flag, told apart by whether it
stands behind the short spelling or the long one. -/
inductive Attachment where
  | none
  | short (value : List Char)
  | long (value : List Char)
  deriving DecidableEq, Repr

inductive Role where
  | operand
  | separator
  | flag (flag : Flag) (attachment : Attachment)
  | unknown
  deriving DecidableEq, Repr

namespace Role

/-- An argument up to its first equals sign, which is where the spelling of a
flag has to end. -/
def spelling (argument : List Char) : List Char :=
  argument.takeWhile (· ≠ '=')

/-- What stands behind the first equals sign, if there is one. -/
def value? (argument : List Char) : Option (List Char) :=
  (argument.dropWhile (· ≠ '=')).tail?

/-- Digits, or a fraction with digits behind its point. -/
def IsNumeral (text : List Char) : Prop :=
  let fraction := text.dropWhile (DecimalDigit ·)
  (text ≠ [] ∧ fraction = []) ∨
    (fraction.head? = some '.' ∧ fraction.tail ≠ [] ∧ ∀ c ∈ fraction.tail, DecimalDigit c)

instance (text : List Char) : Decidable (IsNumeral text) :=
  inferInstanceAs (Decidable (_ ∨ _))

/-- The role of an argument with a dash that is no flag: a negative number,
which may have a newline behind it, and a text with a space are operands. -/
def ofDashed (text : List Char) : Role :=
  if IsNumeral text ∨ (text.getLast? = some '\n' ∧ IsNumeral text.dropLast) then operand
  else if ' ' ∈ text then operand
  else unknown

/-- The role of an argument other than the separator. A flag may be spelled
in full, with or without a value behind an equals sign; a long spelling may
be cut short as long as one flag is meant; and text behind a short spelling
is attached to it. -/
def ofArgument (flags : List Flag) (argument : String) : Except Problem Role :=
  match argument.toList with
  | '-' :: second :: rest =>
    let name := spelling ('-' :: second :: rest)
    let value := value? ('-' :: second :: rest)
    match flags.find? (·.short.toList = name), flags.find? (·.long.toList = name) with
    | some f, _ => .ok (.flag f (value.elim .none .short))
    | none, some f => .ok (.flag f (value.elim .none .long))
    | none, none =>
      if second = '-' then
        match flags.filter fun f => name <+: f.long.toList with
        | [] => .ok (ofDashed (second :: rest))
        | [f] => .ok (.flag f (value.elim .none .long))
        | candidates => .error (.ambiguous argument candidates)
      else
        match flags.find? (·.letter = second) with
        | some f => .ok (.flag f (.short rest))
        | none => .ok (ofDashed (second :: rest))
  | _ => .ok .operand

end Role

/-- An argument and its role. -/
structure Argument where
  text : String
  role : Role
  deriving DecidableEq, Repr

/-- Assigns its role to every argument. -/
def assignRoles (flags : List Flag) : List String → Except Problem (List Argument)
  | [] => .ok []
  | text :: rest =>
    if text = "--" then
      .ok (⟨text, .separator⟩ :: rest.map fun t => ⟨t, .operand⟩)
    else do
      let role ← Role.ofArgument flags text
      let others ← assignRoles flags rest
      return ⟨text, role⟩ :: others

end LineTokens
