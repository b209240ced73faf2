import LineTokens.Arguments.Flag

/-!
The commands of the program, and what arguments the program and each command
take.
-/

namespace LineTokens

inductive Subcommand where
  | split
  | demo
  | help
  | version
  deriving DecidableEq, Repr

namespace Subcommand

def name : Subcommand → String
  | split => "split"
  | demo => "demo"
  | help => "help"
  | version => "version"

/-- All commands, in the order in which they are offered. -/
def all : List Subcommand := [split, demo, help, version]

def ofName? (name : String) : Option Subcommand :=
  all.find? (·.name = name)

@[simp] theorem ofName?_name (c : Subcommand) : ofName? c.name = some c := by
  cases c <;> decide

end Subcommand

/-- The operand that an argument list may have beside its flags: a line, or a
command with all that follows it. -/
inductive Operand where
  | none
  | line
  | command
  deriving DecidableEq, Repr

/-- What arguments are understood, and the texts that say so. -/
structure Signature where
  program : String
  usage : String
  flags : List Flag
  operand : Operand
  deriving DecidableEq, Repr

namespace Signature

/-- The arguments of the program itself. -/
def top : Signature where
  program := "linesplit"
  usage := "usage: linesplit [-h] \x7bsplit,demo,help,version\x7d ..."
  flags := [.help]
  operand := .command

end Signature

/-- The arguments of a command. -/
def Subcommand.signature : Subcommand → Signature
  | split =>
    { program := "linesplit split"
      usage := "usage: linesplit split [-h] [-f \x7blist,json,lines\x7d] [line]"
      flags := [.help, .format]
      operand := .line }
  | demo =>
    { program := "linesplit demo"
      usage := "usage: linesplit demo [-h]"
      flags := [.help]
      operand := .none }
  | help =>
    { program := "linesplit help"
      usage := "usage: linesplit help"
      flags := []
      operand := .none }
  | version =>
    { program := "linesplit version"
      usage := "usage: linesplit version"
      flags := []
      operand := .none }

end LineTokens
