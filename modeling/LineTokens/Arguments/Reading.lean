import LineTokens.Arguments.Role

/-!
Interpreting a list of arguments from left to right. Each flag takes effect
in its turn, the operand goes to the first argument that can be it, and what
nothing takes is kept as an extra.

Arguments are read as argparse reads them before its release 3.11.9, which drops
two dashes that are attached to a flag. Later releases refuse them as a format.
-/

namespace LineTokens

/-- What a list of arguments says. The command comes with all arguments
after it. -/
structure Reading where
  help : Bool
  format : Format
  line : Option String
  command : Option (String × List String)
  extras : List String
  deriving DecidableEq, Repr

namespace Reading

/-- What no arguments say. -/
def empty : Reading where
  help := false
  format := .list
  line := none
  command := none
  extras := []

def addExtra (r : Reading) (text : String) : Reading :=
  { r with extras := r.extras ++ [text] }

/-- Sets the format, which has to be on offer. The last one counts. -/
def setFormat (r : Reading) (name : String) : Except Problem Reading :=
  match Format.ofName? name with
  | some format => .ok { r with format }
  | none => .error (.unknownFormat name)

/-- How far a flag argument brings a reading: either it is all done, or the
next argument has to be the format. -/
inductive Progress where
  | done (r : Reading)
  | formatNext (r : Reading)
  deriving DecidableEq, Repr

/-- Takes what is attached to a format flag. Two dashes are dropped and leave the
flag without a value. The format is then an empty list of names, which passes for
one on offer and shows tokens as `list` does; it is written `list` here, since no
report tells the two apart. -/
def takeFormat (r : Reading) (value : List Char) : Except Problem Progress :=
  if value = ['-', '-'] then .ok (.done { r with format := .list })
  else (r.setFormat (String.ofList value)).map Progress.done

/-- Takes the letters behind a short help flag, each a short flag of its own.
A format has all letters after it as its value, or the next argument if there
are none. -/
def takeLetters (flags : List Flag) (r : Reading) : List Char → Except Problem Progress
  | [] => .error (.ignoredValue .help "")
  | letter :: rest =>
    match flags.find? (·.letter = letter), rest with
    | none, _ => .error (.ignoredValue .help (String.ofList (letter :: rest)))
    | some .help, [] => .ok (.done r)
    | some .help, _ :: _ => takeLetters flags r rest
    | some .format, [] => .ok (.formatNext r)
    | some .format, _ :: _ => r.takeFormat rest

/-- Takes a flag with what is attached to it. Help has no value. -/
def takeFlag (flags : List Flag) (r : Reading) : Flag → Attachment → Except Problem Progress
  | .help, .none => .ok (.done { r with help := true })
  | .help, .short letters => takeLetters flags { r with help := true } letters
  | .help, .long value => .error (.ignoredValue .help (String.ofList value))
  | .format, .none => .ok (.formatNext r)
  | .format, .short value | .format, .long value => r.takeFormat value

/-- Reads arguments while `operand` is still free. A separator goes to the
operand beside it, before a line or after it; a separator alone uses the line
up and leaves it absent. A command takes everything after it, and a separator
with something after it is taken for its name. -/
def read (flags : List Flag) (operand : Operand) (r : Reading) :
    List Argument → Except Problem Reading
  | [] => .ok r
  | ⟨text, .unknown⟩ :: rest => read flags operand (r.addExtra text) rest
  | ⟨_, .flag f attachment⟩ :: rest =>
    match r.takeFlag flags f attachment, rest with
    | .error problem, _ => .error problem
    | .ok (.done r), rest => read flags operand r rest
    | .ok (.formatNext r), ⟨value, .operand⟩ :: rest =>
      match r.setFormat value with
      | .error problem => .error problem
      | .ok r => read flags operand r rest
    | .ok (.formatNext _), _ => .error (.missingValue .format)
  | ⟨text, .operand⟩ :: rest =>
    match operand, rest with
    | .none, rest => read flags .none (r.addExtra text) rest
    | .line, ⟨_, .separator⟩ :: rest => read flags .none { r with line := some text } rest
    | .line, rest => read flags .none { r with line := some text } rest
    | .command, rest => .ok { r with command := some (text, rest.map (·.text)) }
  | ⟨text, .separator⟩ :: rest =>
    match operand, rest with
    | .none, rest => read flags .none (r.addExtra text) rest
    | .line, ⟨line, .operand⟩ :: rest => read flags .none { r with line := some line } rest
    | .line, rest => read flags .none r rest
    | .command, [] => .ok (r.addExtra text)
    | .command, rest => .ok { r with command := some (text, rest.map (·.text)) }

end Reading

/-- Reads all arguments of a signature. -/
def Signature.read (s : Signature) (arguments : List String) : Except UsageError Reading :=
  (do
    let assigned ← assignRoles s.flags arguments
    Reading.read s.flags s.operand .empty assigned).mapError (⟨s, ·⟩)

end LineTokens
