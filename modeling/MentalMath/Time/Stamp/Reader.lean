import MentalMath.Text.Cut
import MentalMath.Text.Numeral
import MentalMath.Time.Calendar

/-! Times read from text. A form is a list of items; reading a text by a form fills in the parts of
a time, and the parts are then checked to be a date, a time of day and an offset from UTC. The form
of documents is lenient about blanks; stored times are read by the strict form of RFC 3339 or else
by the first of some looser forms that fits. -/

namespace MentalMath.Stamp

open Text

/-- Why a text is not a time. -/
inductive StampError where
  | tooShort
  | invalid
  | outOfRange
  | tooLong
  /-- The offset takes the time out of the calendar. -/
  | impossible
  | incomplete
  deriving DecidableEq, Repr

def StampError.message : StampError → String
  | .tooShort => "premature end of input"
  | .invalid => "input contains invalid characters"
  | .outOfRange => "input is out of range"
  | .tooLong => "trailing input"
  | .impossible => "no possible date and time matching input"
  | .incomplete => "input is not enough for unique date and time"

inductive Part where
  | year
  | month
  | day
  | hour
  | minute
  | second
  deriving DecidableEq, Repr

/-- How an offset is written. -/
inductive Zone where
  /-- The letter Z, or hours and minutes with one colon between them, less than a day. -/
  | strict
  /-- The letter Z, the letters UTC, or hours and minutes with colons or blanks between them. -/
  | lenient
  /-- Hours and minutes with colons or blanks between them. -/
  | numeric
  deriving DecidableEq, Repr

/-- An item of a form. -/
inductive Item where
  /-- A number after any blanks; a year may have a sign and then any number of digits. -/
  | free (part : Part)
  /-- A number of exactly four digits for a year and two for any other part. -/
  | exact (part : Part)
  | mark (c : Char)
  | blanks
  /-- What stands between the date and the time of day: a letter T or a space. -/
  | separator
  /-- A point and digits of a second, or nothing. -/
  | fraction
  | zone (kind : Zone)
  deriving DecidableEq, Repr

/-- The parts of a time that were read. -/
structure Parts where
  year : Int
  month : Nat
  day : Nat
  hour : Nat
  minute : Nat
  second : Nat
  /-- The nanoseconds past the second. -/
  nanos : Nat
  /-- The offset from UTC in minutes, if the form has one. -/
  offset : Option Int
  deriving DecidableEq, Repr

namespace Parts

def blank : Parts := ⟨0, 1, 1, 0, 0, 0, 0, none⟩

def set (p : Parts) (part : Part) (n : Int) : Except StampError Parts :=
  let within (lo hi : Int) (q : Parts) : Except StampError Parts :=
    if lo ≤ n ∧ n ≤ hi then .ok q else .error .outOfRange
  match part with
  | .year => within (-2147483648) 2147483647 { p with year := n }
  | .month => within 1 12 { p with month := n.toNat }
  | .day => within 1 31 { p with day := n.toNat }
  | .hour => within 0 23 { p with hour := n.toNat }
  | .minute => within 0 59 { p with minute := n.toNat }
  | .second => within 0 60 { p with second := n.toNat }

/-- The time of day and the date as they were written, before the offset. -/
def local? (p : Parts) : Except StampError CivilTime :=
  match Date.ofParts? p.year p.month p.day with
  | some date => .ok ⟨date, p.hour, p.minute, p.second, p.nanos⟩
  | none => .error .outOfRange

end Parts

def byteLength (cs : List Char) : Nat :=
  cs.foldl (fun n c => n + c.utf8Size) 0

/-- Reads from `least` to `most` digits, without a bound if `most` is missing. -/
def number (least : Nat) (most : Option Nat) (cs : List Char) :
    Except StampError (Int × List Char) :=
  if byteLength cs < least then .error .tooShort
  else
    let window := match most with
      | some n => cs.take n
      | none => cs
    let digits := window.takeWhile fun c => (digit? c).isSome
    if digits.length < least then .error .invalid
    else
      match readDigits maxSigned64 0 .tooLarge digits with
      | .ok n => .ok (n, cs.drop digits.length)
      | .error _ => .error .outOfRange

def Part.width : Part → Nat
  | .year => 4
  | _ => 2

def freeNumber (part : Part) (cs : List Char) : Except StampError (Int × List Char) :=
  match part, trimLeft cs with
  | .year, '-' :: rest => do
    let (n, rest) ← number 1 none rest
    return (-n, rest)
  | .year, '+' :: rest => number 1 none rest
  | part, rest => number 1 (some part.width) rest

/-- Reads the digits of a fraction; digits after the ninth are passed over. -/
def readFraction (cs : List Char) : Except StampError (Nat × List Char) := do
  let (n, rest) ← number 1 (some 9) cs
  let read := cs.length - rest.length
  return (n.toNat * Nat.pow 10 (9 - read), rest.dropWhile fun c => (digit? c).isSome)

/-- Two digits at the front of a text. -/
def twoDigits (cs : List Char) : Except StampError (Nat × Nat × List Char) :=
  match cs with
  | a :: b :: rest =>
    match digit? a, digit? b with
    | some x, some y => .ok (x, y, rest)
    | _, _ => .error .invalid
  | _ => if byteLength cs < 2 then .error .tooShort else .error .invalid

/-- Reads a signed offset in minutes. The first argument passes over what stands between its hours
and its minutes. -/
def signedOffset (between : List Char → Except StampError (List Char)) (cs : List Char) :
    Except StampError (Int × List Char) := do
  let (sign, rest) ← match cs with
    | '+' :: rest => .ok ((1 : Int), rest)
    | '-' :: rest => .ok (-1, rest)
    | '−' :: rest => .ok (-1, rest)
    | _ :: _ => .error .invalid
    | [] => .error .tooShort
  let (h1, h2, rest) ← twoDigits rest
  let rest ← between rest
  let (m1, m2, rest) ← twoDigits rest
  if m1 > 5 then .error .outOfRange
  else return (sign * ((h1 * 10 + h2) * 60 + m1 * 10 + m2 : Nat), rest)

/-- Passes over one colon. -/
def oneColon : List Char → Except StampError (List Char)
  | ':' :: rest => .ok rest
  | _ :: _ => .error .invalid
  | [] => .error .tooShort

/-- Passes over any colons and blanks. -/
def colonsAndBlanks (cs : List Char) : Except StampError (List Char) :=
  .ok (cs.dropWhile fun c => c == ':' || isBlank c)

def Zone.read (zone : Zone) (cs : List Char) : Except StampError (Int × List Char) :=
  match zone with
  | .strict => do
    match cs with
    | 'Z' :: rest => return (0, rest)
    | 'z' :: rest => return (0, rest)
    | cs =>
      let (minutes, rest) ← signedOffset oneColon cs
      if -1440 < minutes ∧ minutes < 1440 then return (minutes, rest) else .error .outOfRange
  | .lenient =>
    let cs := trimLeft cs
    if (cs.take 3).map Char.toUpper = ['U', 'T', 'C'] then .ok (0, cs.drop 3)
    else
      match cs with
      | 'Z' :: rest => .ok (0, rest)
      | 'z' :: rest => .ok (0, rest)
      | cs => signedOffset colonsAndBlanks cs
  | .numeric => signedOffset colonsAndBlanks (trimLeft cs)

def Item.read (item : Item) (p : Parts) (cs : List Char) : Except StampError (Parts × List Char) :=
  match item with
  | .free part => do
    let (n, rest) ← freeNumber part cs
    return (← p.set part n, rest)
  | .exact part => do
    let (n, rest) ← number part.width (some part.width) cs
    return (← p.set part n, rest)
  | .mark c =>
    match cs with
    | c' :: rest => if c' = c then .ok (p, rest) else .error .invalid
    | [] => .error .tooShort
  | .blanks => .ok (p, trimLeft cs)
  | .separator =>
    match cs with
    | c :: rest => if c = 'T' ∨ c = 't' ∨ c = ' ' then .ok (p, rest) else .error .invalid
    | [] => .error .tooShort
  | .fraction =>
    match cs with
    | '.' :: rest => do
      let (n, rest) ← readFraction rest
      return ({ p with nanos := n }, rest)
    | _ => .ok (p, cs)
  | .zone kind => do
    let (minutes, rest) ← kind.read cs
    return ({ p with offset := some minutes }, rest)

def readItems : List Item → Parts → List Char → Except StampError (Parts × List Char)
  | [], p, cs => .ok (p, cs)
  | item :: items, p, cs => do
    let (p, rest) ← item.read p cs
    readItems items p rest

/-- The time of UTC that a local time stands for, given its offset in minutes. A leap second stays
one. -/
def atOffset (t : CivilTime) (offset : Int) : Except StampError CivilTime :=
  let minutes := t.date.toDays * 1440 + t.hour * 60 + t.minute - offset
  let date := Date.ofDays (minutes / 1440)
  let ofDay := (minutes % 1440).toNat
  if -262143 ≤ date.year ∧ date.year ≤ 262142 then
    .ok ⟨date, ofDay / 60, ofDay % 60, t.second, t.nanos⟩
  else .error .impossible

/-- The time of UTC of parts that hold an offset of less than a day. -/
def Parts.toCivil (p : Parts) : Except StampError CivilTime := do
  match p.offset with
  | none => .error .incomplete
  | some offset =>
    let t ← p.local?
    if -1440 < offset ∧ offset < 1440 then atOffset t offset else .error .outOfRange

def dateItems : List Item :=
  [.free .year, .mark '-', .free .month, .mark '-', .free .day]

def minuteItems : List Item :=
  [.free .hour, .mark ':', .free .minute]

def secondItems : List Item :=
  minuteItems ++ [.mark ':', .free .second, .fraction]

/-- The form of times in documents. -/
def documentForm : List Item :=
  [.free .year, .blanks, .mark '-', .free .month, .blanks, .mark '-', .free .day, .separator,
    .free .hour, .blanks, .mark ':', .free .minute, .blanks, .mark ':', .free .second, .fraction,
    .blanks, .zone .lenient, .blanks]

/-- The strict form of RFC 3339. -/
def strictForm : List Item :=
  [.exact .year, .mark '-', .exact .month, .mark '-', .exact .day, .separator, .exact .hour,
    .mark ':', .exact .minute, .mark ':', .exact .second, .fraction, .zone .strict]

/-- The looser forms of stored times, in the order in which they are tried. -/
def storedForms : List (List Item) :=
  [dateItems ++ [Item.blanks] ++ secondItems,
    dateItems ++ [Item.blanks] ++ minuteItems,
    dateItems ++ [Item.blanks] ++ minuteItems ++ [Item.mark 'Z'],
    dateItems ++ [Item.blanks] ++ minuteItems ++ [Item.zone .numeric],
    dateItems ++ [Item.blanks] ++ secondItems ++ [Item.mark 'Z'],
    dateItems ++ [Item.blanks] ++ secondItems ++ [Item.zone .numeric],
    dateItems ++ [Item.mark 'T'] ++ minuteItems,
    dateItems ++ [Item.mark 'T'] ++ minuteItems ++ [Item.mark 'Z'],
    dateItems ++ [Item.mark 'T'] ++ minuteItems ++ [Item.zone .numeric],
    dateItems ++ [Item.mark 'T'] ++ secondItems,
    dateItems ++ [Item.mark 'T'] ++ secondItems ++ [Item.mark 'Z'],
    dateItems ++ [Item.mark 'T'] ++ secondItems ++ [Item.zone .numeric]]

/-- The parts of a text that has a form from its first to its last character. -/
def readForm (form : List Item) (s : String) : Except StampError Parts := do
  let (p, rest) ← readItems form Parts.blank s.toList
  if rest.isEmpty then return p else .error .tooLong

def readDocument (s : String) : Except StampError CivilTime := do
  let p ← readForm documentForm s
  p.toCivil

/-- The time of a text by one of the looser forms. Without an offset, or with one that leads
nowhere, the text is read as a time of UTC. -/
def readLoose (form : List Item) (s : String) : Option CivilTime :=
  match readForm form s with
  | .error _ => none
  | .ok p =>
    match p.toCivil, p.local? with
    | .ok t, _ => some t
    | .error _, .ok t => some t
    | .error _, .error _ => none

/-- The instant of a stored text, if it can be read. -/
def readStored? (s : String) : Option Instant :=
  let civil := match readForm strictForm s >>= Parts.toCivil with
    | .ok t => some t
    | .error _ => storedForms.findSome? fun form => readLoose form s
  civil.bind CivilTime.toInstant?

end MentalMath.Stamp
