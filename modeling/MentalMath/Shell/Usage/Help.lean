import MentalMath.Shell.Terminal

/-! What is printed when the arguments make no call: help, the version, or what is wrong with them.
-/

namespace MentalMath.Shell

open Text

/-- The name and the version of the program. -/
def versionLine : String := "quickcal 0.1.0"

namespace Level

def nameLines (l : Level) : List String :=
  l.names.map fun (name, below) => "  " ++ paddedRight 32 name ++ below.summary

def parameterLines (l : Level) : List String :=
  l.parameters.map fun p => "  " ++ paddedRight 32 p.form.text ++ p.summary

def helpLines (l : Level) : List String :=
  [l.summary, ""] ++ l.nameLines ++ l.parameterLines

end Level

/-- What a terminal shows in place of a call whose arguments are refused. -/
def UsageError.report (e : UsageError) : String :=
  styled "1;31" "error:" ++ " " ++ e.message ++ "\n\nFor more information, try '"
    ++ known "--help" ++ "'.\n"

/-- What is printed in place of a call. -/
def Halt.outcome : Halt → Outcome
  | .refused e => ⟨2, "", withoutControls e.report⟩
  | .nothing => ⟨2, "", textOf Level.top.helpLines⟩
  | .help l => ⟨0, textOf l.helpLines, ""⟩
  | .version => ⟨0, versionLine ++ "\n", ""⟩

end MentalMath.Shell
