import MentalMath.Proofs.Text.Numeral
import MentalMath.Proofs.Time.Calendar
import MentalMath.Time.Stamp.Reader
import MentalMath.Time.Stamp.Writer

/-! Stored times are read back. A stamp is a row of numbers, each with a mark after it, so that an
item of a form takes exactly the digits of its number. A stamp with a year of four digits has the
strict form. A year with a sign has not, and of the looser forms only the last one fits. -/

namespace MentalMath

namespace Stamp

open Text

theorem length_le_byteLength (cs : List Char) : cs.length ≤ byteLength cs := by
  have hfold : ∀ (cs : List Char) (n : Nat),
      n + cs.length ≤ cs.foldl (fun n c => n + c.utf8Size) n := by
    intro cs
    induction cs with
    | nil => exact fun n => Nat.le_refl _
    | cons c cs ih =>
      intro n
      have hc : 0 < c.utf8Size := c.utf8Size_pos
      have hcs := ih (n + c.utf8Size)
      rw [List.foldl_cons, List.length_cons]
      omega
  have hcs := hfold cs 0
  rwa [Nat.zero_add] at hcs

/-- The digits of a number are those at the front of a window. -/
theorem number_eq (least : Nat) (most : Option Nat) (cs : List Char) :
    number least most cs =
      if byteLength cs < least then .error .tooShort
      else
        let digits := (most.elim cs cs.take).takeWhile fun c => (digit? c).isSome
        if digits.length < least then .error .invalid
        else
          match readDigits maxSigned64 0 .tooLarge digits with
          | .ok n => .ok (n, cs.drop digits.length)
          | .error _ => .error .outOfRange := by
  cases most <;> rfl

/-- A number is read up to the mark after it. -/
theorem number_zeroPadded (least : Nat) (most : Option Nat) {width n : Nat} {c : Char}
    (rest : List Char) (hl : least ≤ width)
    (hm : ∀ m, most = some m → (zeroPadded width n).toList.length ≤ m) (hn : n ≤ maxSigned64)
    (hc : digit? c = none) :
    number least most ((zeroPadded width n).toList ++ c :: rest) = .ok ((n : Int), c :: rest) := by
  have hlong := le_length_zeroPadded width n
  have hdigits : ∀ d ∈ (zeroPadded width n).toList, d.isDigit = true :=
    fun d hd => isDigit_of_mem_zeroPadded hd
  have hvalue := ofDigitChars_zeroPadded width n
  generalize (zeroPadded width n).toList = ds at *
  have hsome : ∀ d ∈ ds, (digit? d).isSome = true := by
    intro d hd
    rw [digit?_of_isDigit (hdigits d hd)]
    rfl
  have hwindow : (most.elim (ds ++ c :: rest) (ds ++ c :: rest).take).takeWhile
      (fun d => (digit? d).isSome) = ds := by
    cases most with
    | none => simp [List.takeWhile_append_of_pos hsome, hc]
    | some m =>
      have hroom := hm m rfl
      simp only [Option.elim_some, List.take_append, List.take_of_length_le hroom,
        List.takeWhile_append_of_pos hsome]
      cases m - ds.length <;> simp [hc]
  have hbytes := length_le_byteLength (ds ++ c :: rest)
  rw [List.length_append] at hbytes
  have hread := readDigits_eq_ok .tooLarge hdigits (n := 0) (hvalue ▸ hn)
  rw [hvalue] at hread
  rw [number_eq, if_neg (by omega)]
  simp only [hwindow]
  rw [if_neg (by omega), hread, List.drop_left]

/-- There is no number where no digit stands. -/
theorem number_eq_error (least : Nat) (most : Option Nat) {c : Char} (rest : List Char)
    (hl : 0 < least) (hc : digit? c = none) : ∃ e, number least most (c :: rest) = .error e := by
  have hwindow : (most.elim (c :: rest) (c :: rest).take).takeWhile
      (fun d => (digit? d).isSome) = [] := by
    cases most with
    | none => simp [hc]
    | some m => cases m <;> simp [hc]
  rw [number_eq]
  simp only [hwindow]
  split
  · exact ⟨_, rfl⟩
  · exact ⟨_, if_pos hl⟩

/-! Items, one by one. -/

/-- The numbers that a part of two digits can have. -/
def Part.Takes : Part → Nat → Prop
  | .year, _ => False
  | .month, n => 1 ≤ n ∧ n ≤ 12
  | .day, n => 1 ≤ n ∧ n ≤ 31
  | .hour, n => n ≤ 23
  | .minute, n => n ≤ 59
  | .second, n => n ≤ 60

/-- The parts with one of two digits replaced. -/
def Parts.put (p : Parts) : Part → Nat → Parts
  | .year, _ => p
  | .month, n => { p with month := n }
  | .day, n => { p with day := n }
  | .hour, n => { p with hour := n }
  | .minute, n => { p with minute := n }
  | .second, n => { p with second := n }

variable {p : Parts} {part : Part} {n : Nat} {c : Char} {rest : List Char} {items : List Item}

theorem Part.Takes.set_eq (h : part.Takes n) (p : Parts) : p.set part n = .ok (p.put part n) := by
  cases part with
  | year => exact h.elim
  | month | day => exact if_pos (by simp only [Part.Takes] at h; omega)
  | hour | minute | second => exact if_pos (by simp only [Part.Takes] at h; omega)

theorem Part.Takes.lt (h : part.Takes n) : n < 100 := by
  cases part with
  | year => exact h.elim
  | _ =>
    simp only [Part.Takes] at h
    omega

theorem Part.Takes.width_eq (h : part.Takes n) : part.width = 2 := by
  cases part with
  | year => exact h.elim
  | _ => rfl

/-- A number of two digits is read up to the mark after it. -/
theorem Part.Takes.number_eq (h : part.Takes n) {least : Nat} (hl : least ≤ 2)
    (hc : digit? c = none) :
    number least (some 2) ((zeroPadded 2 n).toList ++ c :: rest) = .ok ((n : Int), c :: rest) := by
  have hlt := h.lt
  have hlength := length_zeroPadded 2 (by decide) hlt
  refine number_zeroPadded least (some 2) rest hl (fun m hm => ?_) ?_ hc
  · exact Option.some.inj hm ▸ Nat.le_of_eq hlength
  · simp only [maxSigned64]
    omega

theorem readItems_mark : readItems (.mark c :: items) p (c :: rest) = readItems items p rest := by
  have hread : (Item.mark c).read p (c :: rest) = .ok (p, rest) := if_pos rfl
  simp only [readItems, hread]
  rfl

theorem readItems_exact (h : part.Takes n) (hc : digit? c = none) :
    readItems (.exact part :: items) p ((zeroPadded 2 n).toList ++ c :: rest) =
      readItems items (p.put part n) (c :: rest) := by
  have hread : (Item.exact part).read p ((zeroPadded 2 n).toList ++ c :: rest) =
      .ok (p.put part n, c :: rest) := by
    simp only [Item.read, h.width_eq, h.number_eq (Nat.le_refl 2) hc, bind, Except.bind, h.set_eq]
    rfl
  simp only [readItems, hread]
  rfl

/-- A year of four digits. -/
theorem readItems_exact_year {year : Int} (hy : 0 ≤ year ∧ year ≤ 9999) (hc : digit? c = none) :
    readItems (.exact .year :: items) p ((Date.yearText year).toList ++ c :: rest) =
      readItems items { p with year := year } (c :: rest) := by
  have htext : Date.yearText year = zeroPadded 4 year.toNat := if_pos hy
  have hset : p.set .year year = .ok { p with year := year } := if_pos (by omega)
  have hlt : year.toNat < 10000 := by omega
  have hlength := length_zeroPadded 4 (by decide) hlt
  have hnumber : number 4 (some 4) ((zeroPadded 4 year.toNat).toList ++ c :: rest) =
      .ok (year, c :: rest) := by
    have hpad := number_zeroPadded 4 (some 4) rest (Nat.le_refl 4)
      (fun m hm => Option.some.inj hm ▸ Nat.le_of_eq hlength)
      (show year.toNat ≤ maxSigned64 by simp only [maxSigned64]; omega) hc
    rwa [Int.toNat_of_nonneg hy.1] at hpad
  have hread : (Item.exact .year).read p ((Date.yearText year).toList ++ c :: rest) =
      .ok ({ p with year := year }, c :: rest) := by
    rw [htext]
    simp only [Item.read, Part.width, hnumber, bind, Except.bind, hset]
    rfl
  simp only [readItems, hread]
  rfl

theorem isBlank_of_isDigit {c : Char} (h : c.isDigit = true) : isBlank c = false := by
  have hc : 48 ≤ c.toNat ∧ c.toNat ≤ 57 := by
    simp only [Char.isDigit, ge_iff_le, Bool.and_eq_true, decide_eq_true_eq] at h
    exact h
  cases hb : isBlank c with
  | false => rfl
  | true =>
    simp only [isBlank, Bool.or_eq_true, Bool.and_eq_true, decide_eq_true_eq, beq_iff_eq] at hb
    omega

theorem trimLeft_zeroPadded (width : Nat) {n : Nat} (hw : 0 < width) (rest : List Char) :
    trimLeft ((zeroPadded width n).toList ++ rest) = (zeroPadded width n).toList ++ rest := by
  have hlong := le_length_zeroPadded width n
  cases hd : (zeroPadded width n).toList with
  | nil =>
    rw [hd, List.length_nil] at hlong
    omega
  | cons d ds =>
    have hmem : d ∈ (zeroPadded width n).toList := by
      rw [hd]
      exact List.mem_cons_self
    exact trimLeft_eq_self (isBlank_of_isDigit (isDigit_of_mem_zeroPadded hmem))

theorem readItems_free (h : part.Takes n) (hc : digit? c = none) :
    readItems (.free part :: items) p ((zeroPadded 2 n).toList ++ c :: rest) =
      readItems items (p.put part n) (c :: rest) := by
  have hfree : ∀ cs, freeNumber part cs = number 1 (some part.width) (trimLeft cs) := by
    cases part with
    | year => exact h.elim
    | _ => exact fun cs => rfl
  have hread : (Item.free part).read p ((zeroPadded 2 n).toList ++ c :: rest) =
      .ok (p.put part n, c :: rest) := by
    simp only [Item.read, hfree, trimLeft_zeroPadded 2 (by decide), h.width_eq,
      h.number_eq (by decide : 1 ≤ 2) hc, bind, Except.bind, h.set_eq]
    rfl
  simp only [readItems, hread]
  rfl

/-- A year with a sign may have any number of digits. -/
theorem readItems_free_year {year : Int} (hy : ¬(0 ≤ year ∧ year ≤ 9999))
    (hl : -262143 ≤ year ∧ year ≤ 262142) (hc : digit? c = none) :
    readItems (.free .year :: items) p ((Date.yearText year).toList ++ c :: rest) =
      readItems items { p with year := year } (c :: rest) := by
  have hset : p.set .year year = .ok { p with year := year } := if_pos (by omega)
  have hnumber : ∀ n : Nat, n ≤ 262143 →
      number 1 none ((zeroPadded 4 n).toList ++ c :: rest) = .ok ((n : Int), c :: rest) := by
    intro n hn
    refine number_zeroPadded 1 none rest (by decide) (fun m hm => nomatch hm) ?_ hc
    simp only [maxSigned64]
    omega
  have hread : (Item.free .year).read p ((Date.yearText year).toList ++ c :: rest) =
      .ok ({ p with year := year }, c :: rest) := by
    by_cases hpos : 0 ≤ year
    · have htext : (Date.yearText year).toList ++ c :: rest =
          '+' :: ((zeroPadded 4 year.toNat).toList ++ c :: rest) := by
        simp only [Date.yearText, if_neg hy, if_pos hpos, String.toList_append]
        rfl
      have hsign : isBlank '+' = false := by decide
      rw [htext]
      simp only [Item.read, freeNumber, trimLeft_eq_self hsign, hnumber year.toNat (by omega), bind,
        Except.bind, Int.toNat_of_nonneg hpos, hset]
      rfl
    · have htext : (Date.yearText year).toList ++ c :: rest =
          '-' :: ((zeroPadded 4 (-year).toNat).toList ++ c :: rest) := by
        simp only [Date.yearText, if_neg hy, if_neg hpos, String.toList_append]
        rfl
      have hsign : isBlank '-' = false := by decide
      have hneg : -(((-year).toNat : Nat) : Int) = year := by omega
      rw [htext]
      simp only [Item.read, freeNumber, trimLeft_eq_self hsign, hnumber (-year).toNat (by omega),
        bind, Except.bind, pure, Except.pure, hneg, hset]
  simp only [readItems, hread]
  rfl

theorem readFraction_zeroPadded {width : Nat} (hw : 0 < width) (hw' : width ≤ 9)
    (hn : n < Nat.pow 10 width) :
    readFraction ((zeroPadded width n).toList ++ '+' :: rest) =
      .ok (n * Nat.pow 10 (9 - width), '+' :: rest) := by
  have hlength := length_zeroPadded width hw hn
  have hmax : n ≤ maxSigned64 := by
    have hpow : Nat.pow 10 width ≤ 1000000000 := Nat.pow_le_pow_right (n := 10) (by decide) hw'
    simp only [maxSigned64]
    omega
  have hroom : ∀ m, some 9 = some m → (zeroPadded width n).toList.length ≤ m :=
    fun m hm => Option.some.inj hm ▸ hlength.symm ▸ hw'
  have hnumber := number_zeroPadded 1 (some 9) rest (c := '+') hw hroom hmax rfl
  have hread : ((zeroPadded width n).toList ++ '+' :: rest).length - ('+' :: rest).length =
      width := by
    rw [List.length_append, hlength]
    omega
  simp only [readFraction, hnumber, bind, Except.bind, hread]
  rfl

/-- A fraction of a second is read whatever its width is. -/
theorem readItems_fraction (hn : n < 1000000000) (hp : p.nanos = 0) :
    readItems (.fraction :: items) p ((CivilTime.fractionText n).toList ++ '+' :: rest) =
      readItems items { p with nanos := n } ('+' :: rest) := by
  have hdigits : ∀ width k unit : Nat, 0 < width → width ≤ 9 → k < Nat.pow 10 width →
      Nat.pow 10 (9 - width) = unit →
      Item.fraction.read p (("." ++ zeroPadded width k).toList ++ '+' :: rest) =
        .ok ({ p with nanos := k * unit }, '+' :: rest) := by
    intro width k unit hw hw' hk hunit
    subst hunit
    have htext : ("." ++ zeroPadded width k).toList ++ '+' :: rest =
        '.' :: ((zeroPadded width k).toList ++ '+' :: rest) := by
      simp
    rw [htext]
    simp only [Item.read, readFraction_zeroPadded hw hw' hk, bind, Except.bind]
    rfl
  have hread : Item.fraction.read p ((CivilTime.fractionText n).toList ++ '+' :: rest) =
      .ok ({ p with nanos := n }, '+' :: rest) := by
    unfold CivilTime.fractionText
    split
    case isTrue hzero =>
      subst hzero
      rw [← hp]
      rfl
    case isFalse =>
    split
    case isTrue hmillis =>
      have hfew : n / 1000000 < 1000 := by omega
      rw [hdigits 3 (n / 1000000) 1000000 (by decide) (by decide) hfew rfl]
      congr 3
      omega
    case isFalse =>
    split
    case isTrue hmicros =>
      have hfew : n / 1000 < 1000000 := by omega
      rw [hdigits 6 (n / 1000) 1000 (by decide) (by decide) hfew rfl]
      congr 3
      omega
    case isFalse =>
      rw [hdigits 9 n 1 (by decide) (by decide) hn rfl]
      congr 3
      omega
  simp only [readItems, hread]
  rfl

/-! A whole stamp. -/

/-- The parts of a time of UTC. -/
def Parts.ofCivil (t : CivilTime) : Parts :=
  ⟨t.date.year, t.date.month, t.date.day, t.hour, t.minute, t.second, t.nanos, some 0⟩

/-- The parts before the time of day is read. -/
def Parts.ofDate (d : Date) : Parts :=
  ⟨d.year, d.month, d.day, 0, 0, 0, 0, none⟩

/-- What follows the minute in the stamp of a time. -/
def secondChars (t : CivilTime) : List Char :=
  (zeroPadded 2 t.second).toList ++ ((CivilTime.fractionText t.nanos).toList ++ '+' :: "00:00".toList)

/-- What follows the date in the stamp of a time. -/
def clockChars (t : CivilTime) : List Char :=
  (zeroPadded 2 t.hour).toList ++ ':' :: ((zeroPadded 2 t.minute).toList ++ ':' :: secondChars t)

theorem toList_stamp (t : CivilTime) : (t.text ++ "+00:00").toList =
    (Date.yearText t.date.year).toList ++ '-' :: ((zeroPadded 2 t.date.month).toList ++ '-' ::
      ((zeroPadded 2 t.date.day).toList ++ 'T' :: clockChars t)) := by
  simp [CivilTime.text, Date.text, clockChars, secondChars]

variable {t : CivilTime}

theorem toCivil_ofCivil (h : t.Regular) : (Parts.ofCivil t).toCivil = .ok t := by
  have hlocal : (Parts.ofCivil t).local? = .ok t := by
    simp only [Parts.local?, Parts.ofCivil, h.date]
  have hhour := h.hour
  have hminute := h.minute
  have hoffset : atOffset t 0 = .ok t := by
    have hdays : (t.date.toDays * 1440 + t.hour * 60 + t.minute - 0) / 1440 = t.date.toDays := by
      omega
    have hofDay : ((t.date.toDays * 1440 + t.hour * 60 + t.minute - 0) % 1440).toNat =
        t.hour * 60 + t.minute := by omega
    have hh : (t.hour * 60 + t.minute) / 60 = t.hour := by omega
    have hm : (t.hour * 60 + t.minute) % 60 = t.minute := by omega
    simp only [atOffset, hdays, hofDay, hh, hm, h.days]
    exact if_pos (Date.bounds_of_ofParts? h.date).1
  simp only [Parts.toCivil, Parts.ofCivil] at hlocal ⊢
  simp only [hlocal, bind, Except.bind]
  exact (if_pos (by decide)).trans hoffset

/-- After the seconds comes a mark, whether or not there is a fraction. -/
theorem exists_mark (n : Nat) (rest : List Char) : ∃ c r, digit? c = none ∧
    (CivilTime.fractionText n).toList ++ '+' :: rest = c :: r := by
  have hpoint : ∀ s : String, ("." ++ s).toList ++ '+' :: rest = '.' :: (s.toList ++ '+' :: rest) := by
    intro s
    simp
  unfold CivilTime.fractionText
  split
  · exact ⟨'+', rest, rfl, rfl⟩
  · split
    · exact ⟨'.', _, rfl, hpoint _⟩
    · split
      · exact ⟨'.', _, rfl, hpoint _⟩
      · exact ⟨'.', _, rfl, hpoint _⟩

/-- What the parts of a regular time can be. -/
structure Fits (t : CivilTime) : Prop where
  year : -262143 ≤ t.date.year ∧ t.date.year ≤ 262142
  month : Part.month.Takes t.date.month
  day : Part.day.Takes t.date.day
  hour : Part.hour.Takes t.hour
  minute : Part.minute.Takes t.minute
  second : Part.second.Takes t.second
  nanos : t.nanos < 1000000000

theorem fits_of_regular (h : t.Regular) : Fits t := by
  obtain ⟨hyear, hmonth, hday⟩ := Date.bounds_of_ofParts? h.date
  exact ⟨hyear, hmonth, hday, h.hour, h.minute, h.second, h.nanos⟩

theorem digit?_minus : digit? '-' = none := rfl

theorem digit?_colon : digit? ':' = none := rfl

theorem digit?_letter : digit? 'T' = none := rfl

/-- A time whose year has four digits has the strict form. -/
theorem readItems_strictForm (h : Fits t) (hy : 0 ≤ t.date.year ∧ t.date.year ≤ 9999) :
    readItems strictForm Parts.blank (t.text ++ "+00:00").toList = .ok (Parts.ofCivil t, []) := by
  have hseparator : ∀ (items : List Item) (p : Parts) (cs : List Char),
      readItems (.separator :: items) p ('T' :: cs) = readItems items p cs := fun _ _ _ => rfl
  obtain ⟨c, r, hc, hmark⟩ := exists_mark t.nanos "00:00".toList
  rw [toList_stamp, strictForm, clockChars, secondChars, hmark,
    readItems_exact_year hy digit?_minus, readItems_mark,
    readItems_exact h.month digit?_minus, readItems_mark,
    readItems_exact h.day digit?_letter, hseparator,
    readItems_exact h.hour digit?_colon, readItems_mark,
    readItems_exact h.minute digit?_colon, readItems_mark,
    readItems_exact h.second hc, ← hmark, readItems_fraction h.nanos rfl]
  rfl

/-! A year with a sign. -/

/-- A year with a sign does not have the strict form. -/
theorem readItems_strictForm_of_sign (hy : ¬(0 ≤ t.date.year ∧ t.date.year ≤ 9999)) :
    ∃ e, readItems strictForm p (t.text ++ "+00:00").toList = .error e := by
  obtain ⟨c, cs, hc, htext⟩ : ∃ c cs, digit? c = none ∧ (Date.yearText t.date.year).toList = c :: cs := by
    unfold Date.yearText
    rw [if_neg hy]
    split
    · exact ⟨'+', _, rfl, String.toList_append⟩
    · exact ⟨'-', _, rfl, String.toList_append⟩
  rw [toList_stamp, htext]
  obtain ⟨e, he⟩ := number_eq_error 4 (some 4) (cs ++ '-' ::
    ((zeroPadded 2 t.date.month).toList ++ '-' :: ((zeroPadded 2 t.date.day).toList ++ 'T' ::
      clockChars t))) (by decide) hc
  refine ⟨e, ?_⟩
  simp only [strictForm, readItems, Item.read, Part.width, List.cons_append, he, bind, Except.bind]

theorem readItems_dateItems (h : Fits t) (hy : ¬(0 ≤ t.date.year ∧ t.date.year ≤ 9999)) :
    readItems (dateItems ++ items) Parts.blank (t.text ++ "+00:00").toList =
      readItems items (Parts.ofDate t.date) ('T' :: clockChars t) := by
  show readItems (.free .year :: .mark '-' :: .free .month :: .mark '-' :: .free .day :: items) _ _ = _
  rw [toList_stamp, readItems_free_year hy h.year digit?_minus, readItems_mark,
    readItems_free h.month digit?_minus, readItems_mark, readItems_free h.day digit?_letter]
  rfl

theorem readItems_minuteItems (h : Fits t) :
    readItems (minuteItems ++ items) p (clockChars t) =
      readItems items { p with hour := t.hour, minute := t.minute } (':' :: secondChars t) := by
  show readItems (.free .hour :: .mark ':' :: .free .minute :: items) _ _ = _
  rw [clockChars, readItems_free h.hour digit?_colon, readItems_mark,
    readItems_free h.minute digit?_colon]
  rfl

theorem readItems_secondItems (h : Fits t) (hp : p.nanos = 0) :
    readItems (secondItems ++ items) p (clockChars t) =
      readItems items { p with hour := t.hour, minute := t.minute, second := t.second, nanos := t.nanos }
        ('+' :: "00:00".toList) := by
  obtain ⟨c, r, hc, hmark⟩ := exists_mark t.nanos "00:00".toList
  show readItems (minuteItems ++ (.mark ':' :: .free .second :: .fraction :: items)) _ _ = _
  rw [readItems_minuteItems h, readItems_mark, secondChars, hmark, readItems_free h.second hc, ← hmark]
  exact readItems_fraction h.nanos hp

/-- No number stands where a stamp has its letter. -/
theorem readItems_blanks_of_letter (cs : List Char) :
    ∃ e, readItems (.blanks :: .free .hour :: items) p ('T' :: cs) = .error e := by
  have hletter : isBlank 'T' = false := by decide
  obtain ⟨e, he⟩ := number_eq_error 1 (some 2) cs (by decide) digit?_letter
  refine ⟨e, ?_⟩
  simp only [readItems, Item.read, freeNumber, trimLeft_eq_self hletter, Part.width, he, bind,
    Except.bind]

/-- A text does not have a form if its items cannot be read or leave something over. -/
theorem readLoose_eq_none {form : List Item} {s : String}
    (h : (∃ e, readItems form Parts.blank s.toList = .error e) ∨
      ∃ p c cs, readItems form Parts.blank s.toList = .ok (p, c :: cs)) : readLoose form s = none := by
  rcases h with ⟨e, he⟩ | ⟨p, c, cs, hp⟩
  · simp only [readLoose, readForm, he, bind, Except.bind]
  · simp only [readLoose, readForm, hp, bind, Except.bind]
    rfl

/-- A time whose year has a sign has the last of the looser forms, and no other one. -/
theorem findSome?_storedForms (h : t.Regular) (hy : ¬(0 ≤ t.date.year ∧ t.date.year ≤ 9999)) :
    storedForms.findSome? (fun form => readLoose form (t.text ++ "+00:00")) = some t := by
  have hf := fits_of_regular h
  have hblanks : ∀ items : List Item,
      readLoose (dateItems ++ .blanks :: .free .hour :: items) (t.text ++ "+00:00") = none := by
    intro items
    refine readLoose_eq_none (Or.inl ?_)
    rw [readItems_dateItems hf hy]
    exact readItems_blanks_of_letter _
  have hminutes : ∀ items : List Item, (∃ e, ∀ p : Parts,
        readItems items p (':' :: secondChars t) = .error e) ∨ items = [] →
      readLoose (dateItems ++ .mark 'T' :: (minuteItems ++ items)) (t.text ++ "+00:00") = none := by
    intro items hitems
    apply readLoose_eq_none
    rw [readItems_dateItems hf hy, readItems_mark, readItems_minuteItems hf]
    rcases hitems with ⟨e, he⟩ | rfl
    · exact Or.inl ⟨e, he _⟩
    · exact Or.inr ⟨_, _, _, rfl⟩
  have hseconds : ∀ items : List Item,
      readItems (dateItems ++ .mark 'T' :: (secondItems ++ items)) Parts.blank
          (t.text ++ "+00:00").toList =
        readItems items { Parts.ofCivil t with offset := none } ('+' :: "00:00".toList) := by
    intro items
    rw [readItems_dateItems hf hy, readItems_mark, readItems_secondItems hf rfl]
    rfl
  have hforms : storedForms =
      [dateItems ++ Item.blanks :: Item.free .hour :: secondItems.tail,
        dateItems ++ Item.blanks :: Item.free .hour :: minuteItems.tail,
        dateItems ++ Item.blanks :: Item.free .hour :: (minuteItems.tail ++ [Item.mark 'Z']),
        dateItems ++ Item.blanks :: Item.free .hour :: (minuteItems.tail ++ [Item.zone .numeric]),
        dateItems ++ Item.blanks :: Item.free .hour :: (secondItems.tail ++ [Item.mark 'Z']),
        dateItems ++ Item.blanks :: Item.free .hour :: (secondItems.tail ++ [Item.zone .numeric]),
        dateItems ++ Item.mark 'T' :: (minuteItems ++ []),
        dateItems ++ Item.mark 'T' :: (minuteItems ++ [Item.mark 'Z']),
        dateItems ++ Item.mark 'T' :: (minuteItems ++ [Item.zone .numeric]),
        dateItems ++ Item.mark 'T' :: (secondItems ++ []),
        dateItems ++ Item.mark 'T' :: (secondItems ++ [Item.mark 'Z']),
        dateItems ++ Item.mark 'T' :: (secondItems ++ [Item.zone .numeric])] := rfl
  have hminute := hminutes [] (Or.inr rfl)
  have hminuteLetter := hminutes [.mark 'Z'] (Or.inl ⟨.invalid, fun _ => rfl⟩)
  have hminuteZone := hminutes [.zone .numeric] (Or.inl ⟨.invalid, fun _ => rfl⟩)
  have hsecond := readLoose_eq_none (Or.inr ⟨_, _, _, hseconds []⟩)
  have hsecondLetter := readLoose_eq_none (Or.inl ⟨_, (hseconds [.mark 'Z']).trans rfl⟩)
  have hsecondZone : readLoose (dateItems ++ .mark 'T' :: (secondItems ++ [.zone .numeric]))
      (t.text ++ "+00:00") = some t := by
    have hread : readItems [.zone .numeric] { Parts.ofCivil t with offset := none }
        ('+' :: "00:00".toList) = .ok (Parts.ofCivil t, []) := rfl
    have hform : readForm (dateItems ++ .mark 'T' :: (secondItems ++ [.zone .numeric]))
        (t.text ++ "+00:00") = .ok (Parts.ofCivil t) := by
      simp only [readForm, hseconds, hread, bind, Except.bind]
      rfl
    simp only [readLoose, hform, toCivil_ofCivil h]
  rw [hforms]
  simp only [List.findSome?_cons, hblanks, hminute, hminuteLetter, hminuteZone, hsecond,
    hsecondLetter, hsecondZone]

/-- A stored time is read back, whatever its year is. -/
theorem readStored?_storedText (t : Instant) : readStored? t.storedText = some t := by
  have h := t.regular_toCivil
  have hinstant : (some t.toCivil).bind CivilTime.toInstant? = some t := t.toInstant?_toCivil
  by_cases hy : 0 ≤ t.toCivil.date.year ∧ t.toCivil.date.year ≤ 9999
  · have hform : readForm strictForm t.storedText = .ok (Parts.ofCivil t.toCivil) := by
      simp only [readForm, Instant.storedText, readItems_strictForm (fits_of_regular h) hy, bind,
        Except.bind]
      rfl
    simp only [readStored?, hform, bind, Except.bind, toCivil_ofCivil h]
    exact hinstant
  · obtain ⟨e, he⟩ : ∃ e, readForm strictForm t.storedText = .error e := by
      obtain ⟨e, he⟩ := readItems_strictForm_of_sign (p := Parts.blank) hy
      refine ⟨e, ?_⟩
      simp only [readForm, Instant.storedText, he, bind, Except.bind]
    have hloose : storedForms.findSome? (fun form => readLoose form t.storedText) =
        some t.toCivil := findSome?_storedForms h hy
    simp only [readStored?, he, bind, Except.bind, hloose]
    exact hinstant

end Stamp

end MentalMath
