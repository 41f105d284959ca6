/-! Texts with the control sequences of a terminal, and what is left of them elsewhere. A sequence
begins with the escape character. Blanks within one are still shown, and from there on the text is
shown as it stands up to the next character that controls the terminal. -/

namespace MentalMath.Text

/-- A text in a style, which a sequence before it turns on and one after it turns off. -/
def styled (code s : String) : String :=
  "\x1b[" ++ code ++ "m" ++ s ++ "\x1b[0m"

/-- Where in a control sequence a text stands. -/
inductive Control where
  | ground
  | escape
  | marks
  | function
  /-- At the start of the head of a string for a device. -/
  | deviceStart
  /-- Among the numbers of the head of a string for a device. -/
  | deviceNumbers
  /-- Among the marks of the head of a string for a device. -/
  | deviceMarks
  | string
  /-- In a string for the system, which goes on to a bell. -/
  | command
  deriving DecidableEq, Repr

/-- Whether a character lies between two others, the ends included. -/
def isBetween (low high c : Char) : Bool :=
  low ≤ c && c ≤ high

/-- Whether a character ends a string: the terminator is one of the bytes that write it. -/
def hasTerminator (c : Char) : Bool :=
  (String.utf8EncodeChar c).contains 0x9c

/-- The blanks that are shown even within a sequence. -/
def isLoneBlank (c : Char) : Bool :=
  c == '\t' || c == '\n' || c == '\x0c' || c == '\r'

/-- The characters that are shown outside of all sequences. -/
def isShown (c : Char) : Bool :=
  isLoneBlank c || ' ' ≤ c && c != '\x7f'

namespace Control

/-- Where a text stands after one more character. -/
def next (c : Char) (state : Control) : Control :=
  if c == '\x18' || c == '\x1a' then .ground
  else if c == '\x1b' then .escape
  else
    match state with
    | .ground => .ground
    | .escape =>
      if isBetween ' ' '/' c then .marks
      else if c == '[' then .function
      else if c == ']' then .command
      else if c == 'P' then .deviceStart
      else if c == 'X' || c == '^' || c == '_' then .string
      else if isBetween '0' '~' c then .ground
      else .escape
    | .marks => if isBetween '0' '~' c then .ground else .marks
    | .function => if isBetween '@' '~' c then .ground else .function
    | .deviceStart =>
      if isBetween ' ' '/' c then .deviceMarks
      else if isBetween '0' '?' c then .deviceNumbers
      else if isBetween '@' '~' c then .string
      else .deviceStart
    | .deviceNumbers =>
      if isBetween ' ' '/' c then .deviceMarks
      else if isBetween '<' '~' c then .string
      else .deviceNumbers
    | .deviceMarks => if isBetween '0' '~' c then .string else .deviceMarks
    | .string => if hasTerminator c then .ground else .string
    | .command => if c == '\x07' then .ground else .command

/-- Whether a character is shown. -/
def shows (c : Char) : Control → Bool
  | .ground => isShown c
  | .escape | .marks | .function => isLoneBlank c
  | _ => false

/-- What is shown of a text that goes on from a place in a sequence. A text that shows, shows on up
to the next control, which is then taken for a part of the sequence it was in. -/
def visible (state : Control) (showing : Bool) : List Char → List Char
  | [] => []
  | c :: cs =>
    if showing && isShown c then
      c :: visible (if c ≤ '\x7f' then state else .ground) true cs
    else if state.shows c then c :: visible (state.next c) true cs
    else visible (state.next c) false cs

end Control

def withoutControls (s : String) : String :=
  String.ofList (Control.visible .ground true s.toList)

end MentalMath.Text
