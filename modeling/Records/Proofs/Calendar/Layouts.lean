import Records.Proofs.Calendar

/-!
# Days written in the four layouts

A date is written in a layout with zeros in front of its numbers, so that no other layout reads it:
where another layout looks for a mark there is a digit or the other mark, or digits are left at the
end.  So whatever blanks stand around it, the text is normalized to the day that it names, and
rejected when it names none (`normalize_of_isWrittenBy`).
-/

set_option autoImplicit false

namespace Records

/-- A layout: whether the year stands first or the day, and whether the marks are slashes. -/
structure Layout where
  yearFirst : Bool
  slashed : Bool

namespace Layout

/-- The mark between the numbers. -/
def mark (layout : Layout) : Char := if layout.slashed then '/' else '-'

/-- A date as a layout writes it. -/
def write (layout : Layout) (date : Date) : List Char :=
  let year := Numeral.padded 4 date.year.toNat
  let month := Numeral.padded 2 date.month
  let day := Numeral.padded 2 date.day
  if layout.yearFirst then year ++ layout.mark :: (month ++ layout.mark :: day)
  else day ++ layout.mark :: (month ++ layout.mark :: year)

/-- The layout of the normal form. -/
def normal : Layout := ⟨true, false⟩

end Layout

namespace Date

/-- A date whose numbers have the places that a layout gives them. -/
structure Fits (date : Date) : Prop where
  year : date.HasPlainYear
  month : date.month ≤ 99
  day : date.day ≤ 99

/-- A text writes a date in one of the layouts, with blanks around it. -/
def IsWrittenBy (date : Date) (raw : String) : Prop :=
  date.Fits ∧ ∃ layout front back, raw.toList = front ++ (Layout.write layout date ++ back) ∧
    (∀ c ∈ front, Text.isBlank c = true) ∧ ∀ c ∈ back, Text.isBlank c = true

/-- A day of the Gregorian calendar: no month is longer than it is, and only a year that four
divides has a leap day, a full century only when four hundred divides it. -/
structure IsGregorian (date : Date) : Prop where
  month : 1 ≤ date.month ∧ date.month ≤ 12
  day : 1 ≤ date.day ∧ date.day ≤ 31
  short : date.month ∈ [4, 6, 9, 11] → date.day ≤ 30
  february : date.month = 2 → date.day ≤ 29
  leap : date.month = 2 → date.day = 29 → 4 ∣ date.year ∧ (100 ∣ date.year → 400 ∣ date.year)

/-- The leap years are those that 4 divides, save the centuries that 400 does not divide. -/
theorem isLeapYear_iff (year : Int) :
    isLeapYear year = true ↔ 4 ∣ year ∧ (100 ∣ year → 400 ∣ year) := by
  simp only [isLeapYear, ne_eq, decide_not, Bool.and_eq_true, Bool.or_eq_true, Bool.not_eq_true',
    decide_eq_true_eq, decide_eq_false_iff_not]
  omega

/-- A day of a month, by the number of days that the month has. -/
theorem le_daysInMonth_iff {year : Int} {month day : Nat} (hday : 1 ≤ day) :
    day ≤ daysInMonth year month ↔ (1 ≤ month ∧ month ≤ 12) ∧ day ≤ 31 ∧
      (month ∈ [4, 6, 9, 11] → day ≤ 30) ∧ (month = 2 → day ≤ 29) ∧
      (month = 2 → day = 29 → isLeapYear year = true) := by
  rw [daysInMonth.eq_def]
  split
  all_goals grind

/-- The days that are accepted are those of the calendar. -/
theorem isDay_iff_isGregorian {date : Date} (h : date.HasPlainYear) :
    date.isDay = true ↔ date.IsGregorian := by
  obtain ⟨hleast, hgreatest⟩ := h
  have hfirst : firstYear ≤ date.year := by
    rw [firstYear]
    omega
  have hlast : date.year ≤ lastYear := by
    rw [lastYear]
    omega
  simp only [isDay, hfirst, hlast, decide_true, Bool.true_and, Bool.and_eq_true, decide_eq_true_eq]
  constructor
  · rintro ⟨hday, hmonth⟩
    obtain ⟨hmonth, hlong, hshort, hfebruary, hleap⟩ := (le_daysInMonth_iff hday).mp hmonth
    exact ⟨hmonth, ⟨hday, hlong⟩, hshort, hfebruary,
      fun hmonth hday => (isLeapYear_iff _).mp (hleap hmonth hday)⟩
  · rintro ⟨hmonth, ⟨hday, hlong⟩, hshort, hfebruary, hleap⟩
    exact ⟨hday, (le_daysInMonth_iff hday).mpr ⟨hmonth, hlong, hshort, hfebruary,
      fun hmonth hday => (isLeapYear_iff _).mpr (hleap hmonth hday)⟩⟩

/-! ## Reading what is written -/

section

variable {d : Date} {pieces : List Piece} {rest : List Char}

/-- Digits are read together up to the width, or to the first other character. -/
theorem readDigits_append {width : Nat} {digits : List Char}
    (hdigits : ∀ c ∈ digits, c.isDigit = true) (hwidth : digits.length ≤ width)
    (hstop : digits.length = width ∨ ∀ c ∈ rest.head?, c.isDigit = false) :
    readDigits width (digits ++ rest) = (Numeral.nat? digits).map fun n => (n, rest) := by
  have hrest : (rest.take (width - digits.length)).takeWhile Char.isDigit = [] := by
    rcases hstop with rfl | hstop
    · simp
    · cases rest with
      | nil => simp
      | cons c rest =>
        have hc := hstop c rfl
        cases width - digits.length <;> simp [hc]
  rw [readDigits, List.take_append, List.take_of_length_le hwidth,
    List.takeWhile_append_of_pos hdigits, hrest, List.append_nil, List.drop_left]

/-- No blank stands in front of digits. -/
theorem trimFront_digits {digits : List Char} (hdigits : ∀ c ∈ digits, c.isDigit = true)
    (hne : digits ≠ []) : Text.trimFront (digits ++ rest) = digits ++ rest := by
  obtain ⟨c, others, rfl⟩ := List.exists_cons_of_ne_nil hne
  have hc := Numeral.isBlank_of_isDigit (hdigits c List.mem_cons_self)
  rw [List.cons_append, Text.trimFront, List.dropWhile_cons_of_neg (by simp [hc])]

/-- A padded numeral has at least one digit. -/
theorem padded_ne_nil (width n : Nat) : Numeral.padded width n ≠ [] := by
  simp [Numeral.padded, Numeral.ofNat_ne_nil]

/-- A numeral padded to the width that is read is read back whole. -/
theorem readDigits_padded {width n : Nat} (hwidth : 0 < width) (hn : n < 10 ^ width) :
    readDigits width (Numeral.padded width n ++ rest) = some (n, rest) := by
  have hlength := Numeral.length_padded hwidth hn
  rw [readDigits_append (fun _ => Numeral.isDigit_of_mem_padded) (Nat.le_of_eq hlength)
    (.inl hlength), Numeral.nat?_padded]
  rfl

/-- A day of two digits is read by its piece of a layout. -/
theorem readPieces_day {n : Nat} (hn : n ≤ 99) :
    readPieces d (.day :: pieces) (Numeral.padded 2 n ++ rest) =
      readPieces { d with day := n } pieces rest := by
  rw [readPieces, trimFront_digits (fun _ => Numeral.isDigit_of_mem_padded) (padded_ne_nil 2 n),
    readDigits_padded Nat.two_pos (Nat.lt_succ_of_le hn)]

/-- A month of two digits is read by its piece of a layout. -/
theorem readPieces_month {n : Nat} (hn : n ≤ 99) :
    readPieces d (.month :: pieces) (Numeral.padded 2 n ++ rest) =
      readPieces { d with month := n } pieces rest := by
  rw [readPieces, trimFront_digits (fun _ => Numeral.isDigit_of_mem_padded) (padded_ne_nil 2 n),
    readDigits_padded Nat.two_pos (Nat.lt_succ_of_le hn)]

/-- A year that begins with a digit is read as up to four plain digits. -/
theorem readYear_digits {digits : List Char} (hdigits : ∀ c ∈ digits, c.isDigit = true)
    (hne : digits ≠ []) :
    readYear (digits ++ rest) =
      (readDigits 4 (digits ++ rest)).map fun found => ((found.1 : Int), found.2) := by
  obtain ⟨c, others, rfl⟩ := List.exists_cons_of_ne_nil hne
  have hc := hdigits c List.mem_cons_self
  rw [List.cons_append, readYear.eq_def]
  split
  · rename_i hsign
    cases hsign
    cases hc
  · rename_i hsign
    cases hsign
    cases hc
  · rfl

/-- A year of four digits is read by its piece of a layout. -/
theorem readPieces_year {n : Nat} (hn : n ≤ 9999) :
    readPieces d (.year :: pieces) (Numeral.padded 4 n ++ rest) =
      readPieces { d with year := n } pieces rest := by
  rw [readPieces, trimFront_digits (fun _ => Numeral.isDigit_of_mem_padded) (padded_ne_nil 4 n),
    readYear_digits (fun _ => Numeral.isDigit_of_mem_padded) (padded_ne_nil 4 n),
    readDigits_padded (by omega) (Nat.lt_succ_of_le hn)]
  rfl

/-- The mark of a layout is read from the same mark only. -/
theorem readPieces_mark (c c' : Char) :
    readPieces d (.mark c :: pieces) (c' :: rest) =
      if c = c' then readPieces d pieces rest else none := rfl

/-! ## Misreading -/

/-- A number of two digits is read as a year before any other character. -/
theorem readPieces_year_short {n : Nat} (hn : n ≤ 99) {c : Char} (hc : c.isDigit = false) :
    readPieces d (.year :: pieces) (Numeral.padded 2 n ++ c :: rest) =
      readPieces { d with year := n } pieces (c :: rest) := by
  have hlength := Numeral.length_padded Nat.two_pos (Nat.lt_succ_of_le hn)
  have hread : readDigits 4 (Numeral.padded 2 n ++ c :: rest) = some (n, c :: rest) := by
    rw [readDigits_append (fun _ => Numeral.isDigit_of_mem_padded) (by omega) (.inr (by simpa)),
      Numeral.nat?_padded]
    rfl
  rw [readPieces, trimFront_digits (fun _ => Numeral.isDigit_of_mem_padded) (padded_ne_nil 2 n),
    readYear_digits (fun _ => Numeral.isDigit_of_mem_padded) (padded_ne_nil 2 n), hread]
  rfl

/-- The first two digits of a year are read as a day, and two are left. -/
theorem readPieces_day_of_year {n : Nat} (hn : n ≤ 9999) :
    ∃ day, readPieces d (.day :: pieces) (Numeral.padded 4 n ++ rest) =
      readPieces { d with day := day } pieces
        (Numeral.digitChar (n / 10) :: Numeral.digitChar n :: rest) := by
  have hdigits : Numeral.padded 4 n =
      Numeral.padded 2 (n / 10 / 10) ++ [Numeral.digitChar (n / 10), Numeral.digitChar n] := by
    rw [Numeral.padded_succ (by omega), Numeral.padded_succ (by omega), List.append_assoc,
      List.singleton_append]
  rw [hdigits, List.append_assoc, readPieces_day (by omega)]
  exact ⟨_, rfl⟩

/-- A year is not read as a day before a mark. -/
theorem readPieces_day_mark {n : Nat} (hn : n ≤ 9999) {c : Char} (hc : c.isDigit = false) :
    readPieces d (.day :: .mark c :: pieces) (Numeral.padded 4 n ++ rest) = none := by
  obtain ⟨day, hread⟩ := readPieces_day_of_year hn
  rw [hread, readPieces_mark, if_neg]
  rintro rfl
  rw [Numeral.isDigit_digitChar] at hc
  cases hc

/-- A year is not read as a day at the end. -/
theorem readPieces_day_last {n : Nat} (hn : n ≤ 9999) :
    readPieces d [.day] (Numeral.padded 4 n) = none := by
  obtain ⟨day, hread⟩ := readPieces_day_of_year hn
  rw [← List.append_nil (Numeral.padded 4 n), hread]
  rfl

end

/-! ## The layouts -/

/-- A date that fits is made of three natural numbers with their bounds. -/
theorem Fits.exists_eq {date : Date} (h : date.Fits) :
    ∃ year month day : Nat, date = ⟨year, month, day⟩ ∧ year ≤ 9999 ∧ month ≤ 99 ∧ day ≤ 99 := by
  obtain ⟨⟨hleast, hgreatest⟩, hmonth, hday⟩ := h
  refine ⟨date.year.toNat, date.month, date.day, ?_, by omega, hmonth, hday⟩
  rw [Int.toNat_of_nonneg hleast]

/-- The normal layout writes the date's own text. -/
theorem write_normal {date : Date} (h : date.HasPlainYear) :
    Layout.normal.write date = date.text := by
  rw [text_of_plainYear h]
  rfl

/-- The text of the layouts that begin with the year. -/
theorem write_yearFirst (slashed : Bool) (year month day : Nat) :
    Layout.write ⟨true, slashed⟩ ⟨year, month, day⟩ =
      Numeral.padded 4 year ++ Layout.mark ⟨true, slashed⟩ ::
        (Numeral.padded 2 month ++ Layout.mark ⟨true, slashed⟩ :: Numeral.padded 2 day) := rfl

/-- The text of the layouts that begin with the day. -/
theorem write_dayFirst (slashed : Bool) (year month day : Nat) :
    Layout.write ⟨false, slashed⟩ ⟨year, month, day⟩ =
      Numeral.padded 2 day ++ Layout.mark ⟨false, slashed⟩ ::
        (Numeral.padded 2 month ++ Layout.mark ⟨false, slashed⟩ :: Numeral.padded 4 year) := rfl

/-- The normal layout reads back the text of every date that fits, a day of the calendar or not. -/
theorem readNormal?_of_fits {date : Date} (h : date.Fits) : readNormal? date.text = some date :=
  readNormal?_text (Nat.lt_succ_of_le h.month) (Nat.lt_succ_of_le h.day) h.year

/-- A text whose fifth character is no dash is not of the normal form. -/
theorem readNormal?_eq_none {text : List Char} (h : text[4]? ≠ some '-') :
    readNormal? text = none := by
  rw [Option.eq_none_iff_forall_ne_some]
  intro date hread
  obtain ⟨_, _, _, _, _, _, _, _, rfl, _⟩ := readNormal?_eq_some hread
  exact h rfl

/-- In the other layouts the fifth character is a slash or the last digit of the month. -/
theorem readNormal?_write {layout : Layout} {date : Date} (h : date.Fits)
    (hother : layout ≠ .normal) : readNormal? (layout.write date) = none := by
  obtain ⟨year, month, day, rfl, hyear, hmonth, hday⟩ := h.exists_eq
  apply readNormal?_eq_none
  obtain ⟨yearFirst, slashed⟩ := layout
  cases yearFirst with
  | true =>
    cases slashed with
    | false => exact absurd rfl hother
    | true =>
      have hlength : (Numeral.padded 4 year).length = 4 :=
        Numeral.length_padded (by omega) (by omega)
      rw [write_yearFirst, List.getElem?_append_right (by omega), hlength]
      simp [Layout.mark]
  | false =>
    obtain ⟨d1, d2, hdays⟩ :=
      List.length_eq_two.mp (Numeral.length_padded Nat.two_pos (Nat.lt_succ_of_le hday))
    obtain ⟨m1, m2, hmonths⟩ :=
      List.length_eq_two.mp (Numeral.length_padded Nat.two_pos (Nat.lt_succ_of_le hmonth))
    have hdigit : m2.isDigit = true := by
      apply Numeral.isDigit_of_mem_padded
      rw [hmonths]
      simp
    rw [write_dayFirst, hdays, hmonths]
    rintro hdash
    cases hdash
    cases hdigit

section

variable {year month day : Nat}

/-- Pieces that begin with the day read what is written day first, as long as the marks agree. -/
theorem readPieces_dayFirst (hyear : year ≤ 9999) (hmonth : month ≤ 99) (hday : day ≤ 99)
    (slashed : Bool) (c : Char) :
    readPieces ⟨0, 0, 0⟩ [.day, .mark c, .month, .mark c, .year]
        (Layout.write ⟨false, slashed⟩ ⟨year, month, day⟩) =
      if c = Layout.mark ⟨false, slashed⟩ then some ⟨year, month, day⟩ else none := by
  rw [write_dayFirst, readPieces_day hday, readPieces_mark]
  split
  · rename_i hmark
    rw [readPieces_month hmonth, readPieces_mark, if_pos hmark,
      ← List.append_nil (Numeral.padded 4 year), readPieces_year hyear]
    rfl
  · rfl

/-- Pieces with slashes that begin with the year read what is written so. -/
theorem readPieces_yearFirst (hyear : year ≤ 9999) (hmonth : month ≤ 99) (hday : day ≤ 99) :
    readPieces ⟨0, 0, 0⟩ [.year, .mark '/', .month, .mark '/', .day]
        (Layout.write ⟨true, true⟩ ⟨year, month, day⟩) = some ⟨year, month, day⟩ := by
  have hmark : '/' = Layout.mark ⟨true, true⟩ := rfl
  rw [write_yearFirst, readPieces_year hyear, readPieces_mark, if_pos hmark,
    readPieces_month hmonth, readPieces_mark, if_pos hmark,
    ← List.append_nil (Numeral.padded 2 day), readPieces_day hday]
  rfl

/-- Where the day stands first, the year is left over when the day is taken for one. -/
theorem readPieces_yearFirst_of_dayFirst (hyear : year ≤ 9999) (hmonth : month ≤ 99)
    (hday : day ≤ 99) (slashed : Bool) :
    readPieces ⟨0, 0, 0⟩ [.year, .mark '/', .month, .mark '/', .day]
        (Layout.write ⟨false, slashed⟩ ⟨year, month, day⟩) = none := by
  have hmark : (Layout.mark ⟨false, slashed⟩).isDigit = false := by cases slashed <;> rfl
  rw [write_dayFirst, readPieces_year_short hday hmark, readPieces_mark]
  split
  · rename_i hslash
    rw [readPieces_month hmonth, readPieces_mark, if_pos hslash, readPieces_day_last hyear]
  · rfl

end

/-- Of the layouts other than the normal form only the one in which a date is written reads it. -/
theorem findSome?_write {layout : Layout} {date : Date} (h : date.Fits)
    (hother : layout ≠ .normal) :
    (layouts.findSome? fun pieces => readIn pieces (layout.write date)) =
      if date.isDay then some date else none := by
  obtain ⟨year, month, day, rfl, hyear, hmonth, hday⟩ := h.exists_eq
  obtain ⟨yearFirst, slashed⟩ := layout
  cases yearFirst with
  | true =>
    cases slashed with
    | false => exact absurd rfl hother
    | true =>
      have hdash : readPieces ⟨0, 0, 0⟩ [.day, .mark '-', .month, .mark '-', .year]
          (Layout.write ⟨true, true⟩ ⟨year, month, day⟩) = none := by
        rw [write_yearFirst, readPieces_day_mark hyear rfl]
      have hslash : readPieces ⟨0, 0, 0⟩ [.day, .mark '/', .month, .mark '/', .year]
          (Layout.write ⟨true, true⟩ ⟨year, month, day⟩) = none := by
        rw [write_yearFirst, readPieces_day_mark hyear rfl]
      simp only [layouts, List.findSome?_cons, List.findSome?_nil, readIn, hdash, hslash,
        readPieces_yearFirst hyear hmonth hday]
      cases hdate : isDay ⟨year, month, day⟩ <;> simp [Option.filter_some, hdate]
  | false =>
    simp only [layouts, List.findSome?_cons, List.findSome?_nil, readIn,
      readPieces_dayFirst hyear hmonth hday, readPieces_yearFirst_of_dayFirst hyear hmonth hday]
    cases slashed <;> cases hdate : isDay ⟨year, month, day⟩ <;>
      simp [Layout.mark, Option.filter_some, hdate]

/-- A layout writes digits and its mark. -/
theorem isDigit_or_eq_mark {layout : Layout} {date : Date} {c : Char} (h : c ∈ layout.write date) :
    c.isDigit = true ∨ c = layout.mark := by
  rw [Layout.write] at h
  split at h
  all_goals
    rw [List.mem_append, List.mem_cons, List.mem_append, List.mem_cons] at h
    rcases h with h | h | h | h | h
    · exact .inl (Numeral.isDigit_of_mem_padded h)
    · exact .inr h
    · exact .inl (Numeral.isDigit_of_mem_padded h)
    · exact .inr h
    · exact .inl (Numeral.isDigit_of_mem_padded h)

/-- No layout writes a blank character. -/
theorem isBlank_of_mem_write {layout : Layout} {date : Date} {c : Char}
    (h : c ∈ layout.write date) : Text.isBlank c = false := by
  rcases isDigit_or_eq_mark h with hdigit | rfl
  · exact Numeral.isBlank_of_isDigit hdigit
  · rw [Layout.mark]
    split <;> rfl

/-- A date in one of the layouts is normalized to the text of the day that it names, and rejected
when it names none. -/
theorem normalize_of_isWrittenBy {date : Date} {raw : String} (h : date.IsWrittenBy raw) :
    normalize raw =
      if date.isDay then .ok (String.ofList date.text)
      else .error (.invalidDate (Text.trim raw)) := by
  obtain ⟨hfits, layout, front, back, hraw, hfront, hback⟩ := h
  have htrim : Text.trimChars raw.toList = layout.write date := by
    rw [hraw]
    exact Text.trimChars_append hfront hback fun _ => isBlank_of_mem_write
  rw [normalize, Text.trim, htrim]
  by_cases hnormal : layout = .normal
  · subst hnormal
    simp only [write_normal hfits.year, readNormal?_of_fits hfits]
  · simp only [readNormal?_write hfits hnormal, findSome?_write hfits hnormal]
    cases date.isDay <;> rfl

end Date

end Records
