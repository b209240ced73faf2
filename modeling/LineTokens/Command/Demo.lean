import LineTokens.Command.Split

/-!
The command that splits lines one after another and shows each result beside
its line. A line that is refused does not stop it.
-/

namespace LineTokens

/-- Lines that show every rule of the syntax and both ways to break it. -/
def sampleLines : List String :=
  ["a b \"c d\"",
   "a b \"c \\\" d\"",
   "a b c\\ d",
   "ab\"c d\"",
   "\"c d\"ef",
   "\"\" \"\"",
   "a b \"c",
   "a b c\\",
   "a b \"c\\"]

/-- The entry for one line. -/
def demoEntry (console : Console) (line : String) : String :=
  match tokenize line with
  | .ok tokens => console.print (line ++ ": " ++ Literal.ofList tokens)
  | .error rejection => console.print (line ++ ": ERROR: " ++ rejection.fault.message)

def demo (console : Console) (lines : List String) : Outcome :=
  .success (String.join (lines.map (demoEntry console)))

end LineTokens
