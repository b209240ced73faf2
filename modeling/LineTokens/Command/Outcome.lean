import LineTokens.Input.Standard

/-!
What a run of a command leaves behind: two texts, and how it ended. Standard
output and standard error are taken to accept every text, so that writing never
fails; reading may.
-/

namespace LineTokens

/-- A run ends with an exit code, or with a failure to read that nobody
handled. -/
inductive Ending where
  | exit (code : Nat)
  | failed (failure : ReadFailure)
  deriving DecidableEq, Repr

structure Outcome where
  stdout : String
  stderr : String
  ending : Ending
  deriving DecidableEq, Repr

namespace Outcome

def success (stdout : String) : Outcome :=
  ⟨stdout, "", .exit 0⟩

def failure (code : Nat) (stderr : String) : Outcome :=
  ⟨"", stderr, .exit code⟩

@[simp] theorem success_inj {a b : String} : success a = success b ↔ a = b := by
  simp [success]

theorem failure_inj {code : Nat} {a b : String} : failure code a = failure code b ↔ a = b := by
  simp [failure]

/-- Handles a failure to read: an interruption ends the run in silence, and
every other failure is reported. -/
def guarded (o : Outcome) : Outcome :=
  match o.ending with
  | .exit _ => o
  | .failed (.interrupted _) => { o with ending := .exit 130 }
  | .failed failure =>
    { o with
      stderr := o.stderr ++ "Error: " ++ failure.message ++ "\n"
      ending := .exit 1 }

end Outcome

end LineTokens
