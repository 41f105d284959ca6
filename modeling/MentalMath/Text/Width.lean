import MentalMath.Text.Columns
import MentalMath.Text.Emoji
import MentalMath.Text.Extending

/-! The number of terminal columns that a line takes. Most characters take the columns that they
take alone, but some melt into those after them: pictures that are joined or have a tone of skin,
and letters that are written as one sign. So a line is measured from its end, and each step knows
what the rest of the line begins with. -/

namespace MentalMath.Text

/-- The columns of a character that stands alone. Halfwidth voicing marks and the joiner of Tifinagh
have a column of their own although they join the character before them. -/
def columns (c : Char) : Nat :=
  if c == '\u17d8' then 3
  else if invisible.has c then 0
  else if extending.has c && !halfwidthVoicing.has c && c != '\u2d7f' then 0
  else if wide.has c then 2
  else 1

/-- The letters that make flags, two a flag. -/
def isFlagLetter (c : Char) : Bool :=
  0x1f1e6 ≤ c.toNat && c.toNat ≤ 0x1f1ff

def isSkinTone (c : Char) : Bool :=
  0x1f3fb ≤ c.toNat && c.toNat ≤ 0x1f3ff

def isTagLetter (c : Char) : Bool :=
  0xe0061 ≤ c.toNat && c.toNat ≤ 0xe007a

def isTagDigit (c : Char) : Bool :=
  0xe0030 ≤ c.toNat && c.toNat ≤ 0xe0039

/-- The quotation marks that have a form in full width. -/
def isCurlyQuote (c : Char) : Bool :=
  c == '\u2018' || c == '\u2019' || c == '\u201c' || c == '\u201d'

/-- The pictures whose black and white form is narrower. Those of ideographs in boxes stay wide. -/
def narrowsAsText (c : Char) : Bool :=
  pictures.has c && twoForms.has c && !(0x1f200 ≤ c.toNat && c.toNat ≤ 0x1f2ff)

/-- The form that a selector asks of the character before it. -/
inductive Form where
  | text
  | picture
  | full
  deriving DecidableEq, Repr

/-- The form that a character asks for, if it is a selector. -/
def Form.ofSelector? (c : Char) : Option Form :=
  if c == '\ufe0e' then some .text
  else if c == '\ufe0f' then some .picture
  else if c == '\ufe01' then some .full
  else none

/-- What has been read of the picture before a joiner and another picture, from its end on. -/
inductive Chain where
  | joiner
  | keycap
  /-- The second letter of a flag. -/
  | halfFlag
  /-- Whole flags. -/
  | flags
  /-- The second letter of a flag, and whole flags. -/
  | halfFlags
  /-- The tags of a flag, as many letters and then as many digits from the end. -/
  | tags (letters digits : Nat)
  deriving DecidableEq, Repr

/-- A sign at whose end some letters stand together. -/
inductive Ligature where
  /-- The lamed of alef and lamed. -/
  | lamed
  /-- The ya of the iya of Buginese. -/
  | ya
  /-- The vowel and the ya of the iya of Buginese. -/
  | vowelYa
  /-- The second consonant of a pair of Tifinagh. -/
  | consonant
  /-- The joiner and the second consonant of a pair of Tifinagh. -/
  | joinedConsonant
  /-- The second tone of a pair of Lisu. -/
  | tone
  /-- The vowel of a syllable of Old Turkic. -/
  | orkhonVowel
  /-- A letter of Khmer that may stand under another one. -/
  | subscriptLetter
  deriving DecidableEq, Repr

/-- What the rest of a line begins with, as far as it changes the columns of the character before
it. -/
inductive Head where
  | other
  | lineFeed
  | skinTone
  | flagLetter
  | flagLetters
  | picture
  /-- The end of a picture that a joiner melts into the next one. -/
  | chain (read : Chain)
  /-- An alef, with marks before it. -/
  | alef
  /-- The end of a ligature, and whether a joiner stands before it. -/
  | ligature (read : Ligature) (joined : Bool)
  /-- The vowel sign e of Kirat Rai. -/
  | vowelE
  /-- The vowel sign ai of Kirat Rai. -/
  | vowelAi
  deriving DecidableEq, Repr

/-- What a line begins with whose first character melts into nothing after it. -/
def Head.of (c : Char) : Head :=
  if c == '\n' then .lineFeed
  else if isSkinTone c then .skinTone
  else if isFlagLetter c then .flagLetter
  else if pictures.has c then .picture
  else if alefs.has c then .alef
  else if c == '\u05dc' then .ligature .lamed false
  else if c == '\u1a10' then .ligature .ya false
  else if berberConsonants.has c then .ligature .consonant false
  else if c == '\ua4fc' || c == '\ua4fd' then .ligature .tone false
  else if c.toNat == 0x10c03 then .ligature .orkhonVowel false
  else if subscriptLetters.has c then .ligature .subscriptLetter false
  else if c.toNat == 0x16d67 then .vowelE
  else if c.toNat == 0x16d68 then .vowelAi
  else .other

/-- Reads the picture before a joiner on. What the columns are for a character that belongs to it,
the letters of a flag count only once it is known that the flag is whole. -/
def Chain.before (c : Char) : Chain → Option (Int × Head)
  | .joiner =>
    if c == '\u20e3' then some (0, .chain .keycap)
    else if isFlagLetter c then some (1, .chain .halfFlag)
    else if isSkinTone c then some (0, .skinTone)
    else if c.toNat == 0xe007f then some (0, .chain (.tags 0 0))
    else if pictures.has c then some (0, .picture)
    else none
  | .keycap => none
  | .halfFlag => if isFlagLetter c then some (-1, .chain .flags) else none
  | .flags =>
    if isFlagLetter c then some (3, .chain .halfFlags)
    else if c == '\u200d' then some (0, .chain .joiner)
    else none
  | .halfFlags =>
    if isFlagLetter c then some (-1, .chain .flags)
    else if c == '\u200d' then some (0, .chain .joiner)
    else none
  | .tags letters digits =>
    if isTagLetter c && letters < 6 && digits == 0 then some (0, .chain (.tags (letters + 1) 0))
    else if isTagDigit c && letters ≤ 4 && digits < 3 then
      some (0, .chain (.tags letters (digits + 1)))
    else if c.toNat == 0x1f3f4 && (digits == 3 || digits == 0 && 3 ≤ letters) then
      some (0, .picture)
    else none

/-- Reads a ligature on, which takes the columns of its last letter. -/
def Ligature.before (joined : Bool) (c : Char) : Ligature → Option (Int × Head)
  | .lamed => if joined && c == '\u05d0' then some (0, .other) else none
  | .ya => if joined && c == '\u1a17' then some (0, .ligature .vowelYa true) else none
  | .vowelYa => if c == '\u1a15' then some (0, .other) else none
  | .consonant =>
    if c == '\u2d7f' then some (1, .ligature .joinedConsonant true)
    else if joined && berberConsonants.has c then some (0, .other)
    else none
  | .joinedConsonant => if berberConsonants.has c then some (-1, .other) else none
  | .tone => if '\ua4f8' ≤ c && c ≤ '\ua4fb' then some (0, .other) else none
  | .orkhonVowel => if joined && c.toNat == 0x10c32 then some (0, .other) else none
  | .subscriptLetter => if c == '\u17d2' then some (-1, .other) else none

/-- The columns that a character adds to the rest of a line that it melts into, and what the line
begins with then. -/
def Head.before (c : Char) : Head → Option (Int × Head)
  | .other => none
  | .lineFeed => if c == '\r' then some (0, .other) else none
  | .skinTone =>
    if figures.has c then some (0, .picture)
    else if c == '\u200d' then some (0, .chain .joiner)
    else none
  | .flagLetter => if isFlagLetter c then some (1, .flagLetters) else none
  | .flagLetters =>
    if isFlagLetter c then some (1, .flagLetters)
    else if c == '\u200d' then some (0, .chain .joiner)
    else none
  | .picture => if c == '\u200d' then some (0, .chain .joiner) else none
  | .chain read => read.before c
  | .alef =>
    if lams.has c then some (0, .other)
    else if columns c == 0 && !partings.has c then some (0, .alef)
    else none
  | .ligature read joined =>
    if c == '\u200d' then some (0, .ligature read true)
    else if ignorableMarks.has c then some (0, .ligature read joined)
    else read.before joined c
  | .vowelE =>
    if c.toNat == 0x16d63 || c.toNat == 0x16d69 then some (0, .other)
    else if c.toNat == 0x16d67 then some (0, .vowelAi)
    else if c.toNat == 0x16d68 then some (1, .vowelE)
    else none
  | .vowelAi => if c.toNat == 0x16d63 then some (0, .other) else none

/-- What a line begins with after a selector. A selector may stand within a sign of several letters,
and the one for color within a joined picture. -/
def Head.select (form : Form) : Head → Head
  | .alef => .alef
  | .ligature read joined => .ligature read joined
  | .chain .joiner => if form = .picture then .chain .joiner else .other
  | .chain .keycap => if form = .picture then .chain .keycap else .other
  | _ => .other

/-- What a line begins with after a selector whose form the character before it does not have. -/
def Head.dismiss : Head → Head
  | .alef => .alef
  | .ligature read joined => .ligature read joined
  | _ => .other

/-- The rest of a line that has been measured. -/
structure Tail where
  width : Int
  head : Head
  /-- The form that a selector at its beginning asks for. -/
  form : Option Form

def Tail.empty : Tail := ⟨0, .other, none⟩

/-- The rest of a line with no selector to look at any more. -/
def Tail.dismiss (rest : Tail) : Tail :=
  match rest.form with
  | some _ => { rest with head := rest.head.dismiss, form := none }
  | none => rest

/-- Puts a character before the rest of a line. -/
def Tail.push (c : Char) (rest : Tail) : Tail :=
  if rest.form = some .picture && twoForms.has c then
    let n := match rest.head with
      | .chain _ => 0
      | _ => 2
    ⟨rest.width + n, .picture, none⟩
  else if rest.form = some .text && narrowsAsText c then ⟨rest.width + 1, .other, none⟩
  else if rest.form = some .full && isCurlyQuote c then ⟨rest.width + 2, .other, none⟩
  else
    let rest := rest.dismiss
    match Form.ofSelector? c with
    | some form => ⟨rest.width, rest.head.select form, some form⟩
    | none =>
      let (n, head) := (rest.head.before c).getD (columns c, Head.of c)
      ⟨rest.width + n, head, none⟩

def width (s : String) : Nat :=
  (s.toList.foldr Tail.push .empty).width.toNat

end MentalMath.Text
