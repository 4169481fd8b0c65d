import Records.Calendar
import Records.Proofs.Outcome
import Records.Proofs.Number.Padded
import Records.Proofs.Text.Blank
import Mathlib.Data.List.Basic

/-!
# What days are normalized to

What is given for a text is the text of a day that it names.  For a year of at most four digits that
is the normal form, which stays as it is when it is normalized again.  A year may be outside that
range only where it is written with a sign; then the text of the day has the sign too, is not of the
normal form, and is not accepted again (`normalized_canonical_or_signed`,
`not_canonical_signed_year`).
-/

set_option autoImplicit false

namespace Records.Date

/-- Ten characters: four digits, a dash, two digits, a dash and two digits, that name a day. -/
def IsCanonical (text : List Char) : Prop :=
  ∃ y1 y2 y3 y4 m1 m2 d1 d2, text = [y1, y2, y3, y4, '-', m1, m2, '-', d1, d2] ∧
    ∃ year month day, Numeral.nat? [y1, y2, y3, y4] = some year ∧
      Numeral.nat? [m1, m2] = some month ∧ Numeral.nat? [d1, d2] = some day ∧
      isDay ⟨year, month, day⟩ = true

/-- A year that four digits write. -/
def HasPlainYear (date : Date) : Prop := 0 ≤ date.year ∧ date.year ≤ 9999

/-- Whether a sign and digits after it, somewhere in a text, write a year. -/
def WritesSigned (text : List Char) (year : Int) : Prop :=
  ∃ before sign digits after, text = before ++ sign :: (digits ++ after) ∧
    ∃ n, Numeral.nat? digits = some n ∧ (sign = '+' ∧ year = n ∨ sign = '-' ∧ year = -n)

/-! ## The text of a day -/

/-- A month with days is one of the twelve. -/
theorem month_le_of_daysInMonth {year : Int} {month : Nat} (h : daysInMonth year month ≠ 0) :
    month ≤ 12 := by
  rw [daysInMonth.eq_def] at h
  grind

/-- No month has more than 31 days. -/
theorem daysInMonth_le (year : Int) (month : Nat) : daysInMonth year month ≤ 31 := by
  rw [daysInMonth.eq_def]
  grind

/-- The month and the day of a day of the calendar fit in two digits each. -/
theorem bounds_of_isDay {date : Date} (h : date.isDay = true) :
    date.month < 10 ^ 2 ∧ date.day < 10 ^ 2 := by
  simp only [isDay, Bool.and_eq_true, decide_eq_true_eq] at h
  obtain ⟨⟨_, hfirst⟩, hlast⟩ := h
  have hsome : daysInMonth date.year date.month ≠ 0 := by omega
  have hmonth := month_le_of_daysInMonth hsome
  have hdays := daysInMonth_le date.year date.month
  omega

/-- The text of a date whose year has four plain digits, part by part. -/
theorem text_of_plainYear {date : Date} (h : date.HasPlainYear) :
    date.text = Numeral.padded 4 date.year.toNat ++
      '-' :: (Numeral.padded 2 date.month ++ '-' :: Numeral.padded 2 date.day) := by
  rw [text, yearText, if_pos (show 0 ≤ date.year ∧ date.year ≤ 9999 from h)]

/-- The text of any other year begins with a sign and is longer than the normal form. -/
theorem exists_text_eq_cons {date : Date} (h : ¬ date.HasPlainYear) :
    ∃ sign digits rest, (sign = '-' ∨ sign = '+') ∧ date.text = sign :: (digits ++ '-' :: rest) ∧
      (∀ c ∈ digits, c.isDigit = true) ∧ 4 ≤ digits.length ∧ 5 ≤ rest.length := by
  refine ⟨if date.year < 0 then '-' else '+', Numeral.padded 4 date.year.natAbs,
    Numeral.padded 2 date.month ++ '-' :: Numeral.padded 2 date.day, ?_, ?_,
    fun _ => Numeral.isDigit_of_mem_padded, Numeral.le_length_padded 4 _, ?_⟩
  · split <;> simp
  · rw [text, yearText, if_neg (show ¬ (0 ≤ date.year ∧ date.year ≤ 9999) from h)]
    rfl
  · have hmonth := Numeral.le_length_padded 2 date.month
    have hday := Numeral.le_length_padded 2 date.day
    rw [List.length_append, List.length_cons]
    omega

/-- No character of a date's text is blank. -/
theorem isBlank_of_mem_text {date : Date} {c : Char} (h : c ∈ date.text) :
    Text.isBlank c = false := by
  have hyear : c ∈ yearText date.year → c = '-' ∨ c = '+' ∨ c.isDigit = true := by
    rw [yearText]
    split
    · exact fun hc => .inr (.inr (Numeral.isDigit_of_mem_padded hc))
    · rw [List.mem_cons]
      rintro (rfl | hc)
      · split <;> simp
      · exact .inr (.inr (Numeral.isDigit_of_mem_padded hc))
  have hmark : c = '-' ∨ c = '+' ∨ c.isDigit = true := by
    rw [text, List.mem_append, List.mem_cons, List.mem_append, List.mem_cons] at h
    rcases h with h | rfl | h | rfl | h
    · exact hyear h
    · exact .inl rfl
    · exact .inr (.inr (Numeral.isDigit_of_mem_padded h))
    · exact .inl rfl
    · exact .inr (.inr (Numeral.isDigit_of_mem_padded h))
  rcases hmark with rfl | rfl | hdigit
  · rfl
  · rfl
  · exact Numeral.isBlank_of_isDigit hdigit

/-- Trimming leaves a date's text as it is. -/
theorem trimChars_text (date : Date) : Text.trimChars date.text = date.text :=
  Text.trimChars_of_forall fun _ => isBlank_of_mem_text

/-! ## The normal form -/

/-- What the normal layout reads: ten characters with two marks, whose digits spell the year, the
month and the day. -/
theorem readNormal?_eq_some {text : List Char} {date : Date} (h : readNormal? text = some date) :
    ∃ y1 y2 y3 y4 m1 m2 d1 d2, text = [y1, y2, y3, y4, '-', m1, m2, '-', d1, d2] ∧
      ∃ year month day : Nat, Numeral.nat? [y1, y2, y3, y4] = some year ∧
        Numeral.nat? [m1, m2] = some month ∧ Numeral.nat? [d1, d2] = some day ∧
        date = ⟨year, month, day⟩ := by
  rw [readNormal?.eq_def] at h
  split at h
  · split at h
    · cases h
      exact ⟨_, _, _, _, _, _, _, _, rfl, _, _, _, ‹_›, ‹_›, ‹_›, rfl⟩
    · cases h
  · cases h

/-- A text of the normal form is the text of what it names. -/
theorem text_of_readNormal? {text : List Char} {date : Date} (h : readNormal? text = some date) :
    date.HasPlainYear ∧ date.text = text := by
  obtain ⟨y1, y2, y3, y4, m1, m2, d1, d2, rfl, year, month, day, hyear, hmonth, hday, rfl⟩ :=
    readNormal?_eq_some h
  have hbound : year < 10 ^ 4 := Numeral.lt_of_valueFrom (Numeral.valueFrom_of_nat? hyear).2
  have hplain : HasPlainYear ⟨year, month, day⟩ := by
    constructor
    · exact Int.natCast_nonneg year
    · show (year : Int) ≤ 9999
      omega
  refine ⟨hplain, ?_⟩
  have hyear := Numeral.padded_of_nat? hyear
  have hmonth := Numeral.padded_of_nat? hmonth
  have hday := Numeral.padded_of_nat? hday
  rw [text_of_plainYear hplain]
  show Numeral.padded 4 year ++ '-' :: (Numeral.padded 2 month ++ '-' :: Numeral.padded 2 day) = _
  simp_all

/-- The text of a date of a plain year is read as the date. -/
theorem readNormal?_text {date : Date} (hmonth : date.month < 10 ^ 2) (hday : date.day < 10 ^ 2)
    (hplain : date.HasPlainYear) : readNormal? date.text = some date := by
  obtain ⟨hleast, hgreatest⟩ := hplain
  obtain ⟨y1, y2, y3, y4, hyears⟩ : ∃ y1 y2 y3 y4,
      Numeral.padded 4 date.year.toNat = [y1, y2, y3, y4] := by
    rw [Numeral.padded_succ (by omega), Numeral.padded_succ (by omega),
      Numeral.padded_succ (by omega), Numeral.padded_one (by omega)]
    exact ⟨_, _, _, _, rfl⟩
  obtain ⟨m1, m2, hmonths⟩ := List.length_eq_two.mp (Numeral.length_padded Nat.two_pos hmonth)
  obtain ⟨d1, d2, hdays⟩ := List.length_eq_two.mp (Numeral.length_padded Nat.two_pos hday)
  have hyear := Numeral.nat?_padded 4 date.year.toNat
  have hmonth := Numeral.nat?_padded 2 date.month
  have hday := Numeral.nat?_padded 2 date.day
  rw [hyears] at hyear
  rw [hmonths] at hmonth
  rw [hdays] at hday
  rw [text_of_plainYear ⟨hleast, hgreatest⟩, hyears, hmonths, hdays]
  simp only [List.cons_append, List.nil_append]
  rw [readNormal?, hyear, hmonth, hday]
  simp only [Int.toNat_of_nonneg hleast]

/-- A day with a plain year has a canonical text. -/
theorem isCanonical_text {date : Date} (hday : date.isDay = true) (hplain : date.HasPlainYear) :
    IsCanonical date.text := by
  obtain ⟨y1, y2, y3, y4, m1, m2, d1, d2, htext, year, month, day, hy, hm, hd, rfl⟩ :=
    readNormal?_eq_some
      (readNormal?_text (bounds_of_isDay hday).1 (bounds_of_isDay hday).2 hplain)
  exact ⟨y1, y2, y3, y4, m1, m2, d1, d2, htext, year, month, day, hy, hm, hd, hday⟩

/-- A canonical text has ten characters. -/
theorem IsCanonical.length_eq {text : List Char} (h : IsCanonical text) : text.length = 10 := by
  obtain ⟨_, _, _, _, _, _, _, _, rfl, _⟩ := h
  rfl

/-! ## Numbers in a layout -/

/-- The digits that are read spell a number below the power of ten, and the rest of the text stands
behind them. -/
theorem readDigits_eq_some {width n : Nat} {text rest : List Char}
    (h : readDigits width text = some (n, rest)) :
    n < 10 ^ width ∧ ∃ digits, Numeral.nat? digits = some n ∧ text = digits ++ rest := by
  obtain ⟨value, hvalue, h⟩ := Option.map_eq_some_iff.mp h
  cases h
  have hwhile : (text.take width).takeWhile Char.isDigit <+: text :=
    (List.takeWhile_prefix _).trans (List.take_prefix _ _)
  constructor
  · refine Nat.lt_of_lt_of_le (Numeral.lt_of_valueFrom (Numeral.valueFrom_of_nat? hvalue).2)
      (Nat.pow_le_pow_right (by omega) ?_)
    exact Nat.le_trans (List.takeWhile_prefix _).length_le (List.length_take_le _ _)
  · exact ⟨_, hvalue, (List.prefix_iff_eq_append.mp hwhile).symm⟩

/-- No number is read where no digit stands. -/
theorem readDigits_of_not_digit {c : Char} (hc : c.isDigit = false) (width : Nat)
    (rest : List Char) : readDigits width (c :: rest) = none := by
  cases width with
  | zero => rfl
  | succ width => simp [readDigits, hc, Numeral.nat?]

/-- A year has at most four digits, or a sign before its digits. -/
theorem readYear_eq_some {text rest : List Char} {year : Int}
    (h : readYear text = some (year, rest)) :
    (0 ≤ year ∧ year ≤ 9999 ∨ WritesSigned text year) ∧ rest <:+ text := by
  rw [readYear.eq_def] at h
  split at h
  · obtain ⟨⟨n, after⟩, hdigits, h⟩ := Option.map_eq_some_iff.mp h
    cases h
    obtain ⟨_, digits, hvalue, rfl⟩ := readDigits_eq_some hdigits
    exact ⟨.inr ⟨[], '-', digits, rest, rfl, n, hvalue, .inr ⟨rfl, rfl⟩⟩,
      ('-' :: digits), rfl⟩
  · obtain ⟨⟨n, after⟩, hdigits, h⟩ := Option.map_eq_some_iff.mp h
    cases h
    obtain ⟨_, digits, hvalue, rfl⟩ := readDigits_eq_some hdigits
    exact ⟨.inr ⟨[], '+', digits, rest, rfl, n, hvalue, .inl ⟨rfl, rfl⟩⟩,
      ('+' :: digits), rfl⟩
  · obtain ⟨⟨n, after⟩, hdigits, h⟩ := Option.map_eq_some_iff.mp h
    cases h
    obtain ⟨hlt, digits, _, rfl⟩ := readDigits_eq_some hdigits
    exact ⟨.inl ⟨Int.natCast_nonneg n, by omega⟩, List.suffix_append _ _⟩

/-- A year that a part of the text writes with a sign is written so in the whole text. -/
theorem WritesSigned.of_infix {part text : List Char} {year : Int} (h : WritesSigned part year)
    (hpart : part <:+: text) : WritesSigned text year := by
  obtain ⟨before, sign, digits, after, rfl, hyear⟩ := h
  obtain ⟨front, back, rfl⟩ := hpart
  exact ⟨front ++ before, sign, digits, after ++ back, by simp, hyear⟩

/-- A number in a layout leaves a suffix of the text. -/
theorem suffix_of_readDigits {width n : Nat} {text rest : List Char}
    (h : readDigits width (Text.trimFront text) = some (n, rest)) : rest <:+ text := by
  obtain ⟨_, digits, _, hdigits⟩ := readDigits_eq_some h
  have hsuffix : rest <:+ Text.trimFront text := by
    rw [hdigits]
    exact List.suffix_append _ _
  exact hsuffix.trans (Text.trimFront_suffix text)

/-- The year that is filled in from a layout is plain or written with a sign. -/
theorem year_of_readPieces {whole : List Char} {d date : Date} {pieces : List Piece}
    {text : List Char} (h : readPieces d pieces text = some date) (hsuffix : text <:+ whole)
    (hyear : d.HasPlainYear ∨ WritesSigned whole d.year) :
    date.HasPlainYear ∨ WritesSigned whole date.year := by
  -- only the piece of the year sets it, and what it reads is a part of the whole text
  induction pieces generalizing d text with
  | nil =>
    cases text with
    | nil =>
      cases h
      exact hyear
    | cons c rest => cases h
  | cons piece pieces ih =>
    cases piece with
    | year =>
      rw [readPieces] at h
      split at h
      · rename_i year rest hread
        obtain ⟨hplain, hrest⟩ := readYear_eq_some hread
        have hfront := (Text.trimFront_suffix text).trans hsuffix
        refine ih h (hrest.trans hfront) ?_
        exact hplain.imp_right fun hsigned => hsigned.of_infix hfront.isInfix
      · cases h
    | month =>
      rw [readPieces] at h
      split at h
      · rename_i month rest hread
        exact ih h ((suffix_of_readDigits hread).trans hsuffix) hyear
      · cases h
    | day =>
      rw [readPieces] at h
      split at h
      · rename_i day rest hread
        exact ih h ((suffix_of_readDigits hread).trans hsuffix) hyear
      · cases h
    | mark c =>
      cases text with
      | nil => cases h
      | cons c' rest =>
        rw [readPieces] at h
        split at h
        · exact ih h ((List.suffix_cons c' rest).trans hsuffix) hyear
        · cases h

/-- A date that a layout reads is a day, and its year is plain or the text writes it with a sign. -/
theorem readIn_eq_some {layout : List Piece} {text : List Char} {date : Date}
    (h : readIn layout text = some date) :
    date.isDay = true ∧ (date.HasPlainYear ∨ WritesSigned text date.year) := by
  obtain ⟨hpieces, hday⟩ := Option.filter_eq_some_iff.mp h
  exact ⟨hday, year_of_readPieces hpieces List.suffix_rfl
    (.inl ⟨Int.le_refl 0, show (0 : Int) ≤ 9999 by omega⟩)⟩

/-! ## Normalizing -/

/-- What is given for a text is the text of a day. -/
theorem exists_day_of_normalize {raw day : String} (h : normalize raw = .ok day) :
    ∃ date : Date, date.isDay = true ∧ day = String.ofList date.text ∧
      (date.HasPlainYear ∨ WritesSigned raw.toList date.year) := by
  rw [normalize] at h
  split at h
  · rename_i date hread
    split at h
    · rename_i hday
      cases h
      obtain ⟨hplain, htext⟩ := text_of_readNormal? hread
      exact ⟨date, hday, by rw [htext], .inl hplain⟩
    · cases h
  · split at h
    · rename_i date hread
      cases h
      obtain ⟨layout, _, hlayout⟩ := List.exists_of_findSome?_eq_some hread
      obtain ⟨hday, hyear⟩ := readIn_eq_some hlayout
      have hpart := Text.trimChars_infix raw.toList
      exact ⟨date, hday, rfl, hyear.imp_right fun hsigned => hsigned.of_infix hpart⟩
    · cases h

/-- The normal form of a day stays as it is. -/
theorem normalize_text {date : Date} (hday : date.isDay = true) (hplain : date.HasPlainYear) :
    normalize (String.ofList date.text) = .ok (String.ofList date.text) := by
  obtain ⟨hmonth, hdate⟩ := bounds_of_isDay hday
  rw [normalize, String.toList_ofList]
  simp only [trimChars_text, readNormal?_text hmonth hdate hplain, hday, if_true]

/-- A year with a sign takes all the digits after it. -/
theorem rest_of_readYear {sign : Char} (hsign : sign = '-' ∨ sign = '+') {digits : List Char}
    (hdigits : ∀ c ∈ digits, c.isDigit = true) {rest after : List Char} {year : Int}
    (h : readYear (sign :: (digits ++ '-' :: rest)) = some (year, after)) :
    after = '-' :: rest := by
  have hall : readAllDigits (digits ++ '-' :: rest) =
      (Numeral.nat? digits).map fun n => (n, '-' :: rest) := by
    rw [readAllDigits, readDigits, List.take_length, List.takeWhile_append_of_pos hdigits,
      List.takeWhile_cons_of_neg (by decide), List.append_nil, List.drop_left]
  rcases hsign with rfl | rfl
  · rw [readYear, hall, Option.map_map] at h
    obtain ⟨_, _, h⟩ := Option.map_eq_some_iff.mp h
    exact (congrArg Prod.snd h).symm
  · rw [readYear, hall, Option.map_map] at h
    obtain ⟨_, _, h⟩ := Option.map_eq_some_iff.mp h
    exact (congrArg Prod.snd h).symm

/-- A sign, digits and a dash begin a text of no layout. -/
theorem readIn_signed {sign : Char} (hsign : sign = '-' ∨ sign = '+') {digits : List Char}
    (hdigits : ∀ c ∈ digits, c.isDigit = true) (rest : List Char) {layout : List Piece}
    (hlayout : layout ∈ layouts) : readIn layout (sign :: (digits ++ '-' :: rest)) = none := by
  have hblank : Text.isBlank sign = false := by rcases hsign with rfl | rfl <;> rfl
  have hdigit : sign.isDigit = false := by rcases hsign with rfl | rfl <;> rfl
  have hfront : Text.trimFront (sign :: (digits ++ '-' :: rest)) =
      sign :: (digits ++ '-' :: rest) := by
    rw [Text.trimFront, List.dropWhile_cons, hblank]
    rfl
  simp only [layouts, List.mem_cons, List.not_mem_nil, or_false] at hlayout
  -- no day has a sign, and a year is followed by a slash
  rcases hlayout with rfl | rfl | rfl
  · rw [readIn, readPieces, hfront, readDigits_of_not_digit hdigit]
    rfl
  · rw [readIn, readPieces, hfront, readDigits_of_not_digit hdigit]
    rfl
  · rw [readIn, readPieces, hfront]
    cases hread : readYear (sign :: (digits ++ '-' :: rest)) with
    | none => rfl
    | some found =>
      obtain ⟨year, after⟩ := found
      rw [rest_of_readYear hsign hdigits hread]
      rfl

/-- The text of a day of another year is not accepted. -/
theorem normalize_text_signed {date : Date} (h : ¬ date.HasPlainYear) :
    ¬ IsCanonical date.text ∧
      normalize (String.ofList date.text) =
        .error (.invalidDate (String.ofList date.text)) := by
  obtain ⟨sign, digits, rest, hsign, htext, hdigits, hyear, hrest⟩ := exists_text_eq_cons h
  have hlength : date.text.length ≠ 10 := by
    rw [htext, List.length_cons, List.length_append, List.length_cons]
    omega
  have hnormal : readNormal? date.text = none := by
    rw [Option.eq_none_iff_forall_ne_some]
    intro other hread
    obtain ⟨_, _, _, _, _, _, _, _, hten, _⟩ := readNormal?_eq_some hread
    exact hlength (congrArg List.length hten)
  have hlayouts : (layouts.findSome? fun layout => readIn layout date.text) = none := by
    rw [List.findSome?_eq_none_iff, htext]
    exact fun layout => readIn_signed hsign hdigits rest
  refine ⟨fun hcanonical => hlength hcanonical.length_eq, ?_⟩
  rw [normalize, String.toList_ofList]
  simp only [trimChars_text, hnormal, hlayouts]

/-- A text is normalized to the text of a day.  That is a canonical text, which is normalized to
itself, when the year is plain.  Any other year is written with a sign, and its text is neither
canonical nor accepted. -/
theorem normalized_canonical_or_signed {raw day : String} (h : normalize raw = .ok day) :
    ∃ date : Date, date.isDay = true ∧ day = String.ofList date.text ∧
      (date.HasPlainYear → IsCanonical day.toList ∧ normalize day = .ok day) ∧
      (¬ date.HasPlainYear → WritesSigned raw.toList date.year ∧ ¬ IsCanonical day.toList ∧
        normalize day = .error (.invalidDate day)) := by
  obtain ⟨date, hday, rfl, hyear⟩ := exists_day_of_normalize h
  rw [String.toList_ofList]
  refine ⟨date, hday, rfl, fun hplain => ?_, fun hsigned => ?_⟩
  · exact ⟨isCanonical_text hday hplain, normalize_text hday hplain⟩
  · exact ⟨hyear.resolve_left hsigned, normalize_text_signed hsigned⟩

/-- A leap day with blanks and a short month. -/
theorem normalized_canonical_or_signed_leap_day :
    normalize " 29/ 2/2024" = .ok "2024-02-29" ∧
      ∃ date : Date, date.isDay = true ∧ "2024-02-29" = String.ofList date.text ∧
        date.HasPlainYear ∧ IsCanonical "2024-02-29".toList ∧
        normalize "2024-02-29" = .ok "2024-02-29" := by
  have h : normalize " 29/ 2/2024" = .ok "2024-02-29" :=
    Outcome.toOption_eq_some.mp (by decide +kernel)
  obtain ⟨date, hday, htext, hplain, hsigned⟩ := normalized_canonical_or_signed h
  have hyear : date.HasPlainYear := by
    by_contra hother
    have hrejected := (hsigned hother).2.2
    cases hrejected
  exact ⟨h, date, hday, htext, hyear, hplain hyear⟩

/-- A year before the first one is given a text that is not canonical and not accepted. -/
theorem not_canonical_signed_year :
    normalize "-2025/01/01" = .ok "-2025-01-01" ∧ ¬ IsCanonical "-2025-01-01".toList ∧
      normalize "-2025-01-01" = .error (.invalidDate "-2025-01-01") := by
  have hnormalized : normalize "-2025/01/01" = .ok "-2025-01-01" :=
    Outcome.toOption_eq_some.mp (by decide +kernel)
  have hlength : "-2025-01-01".toList.length ≠ 10 := by decide
  exact ⟨hnormalized, fun hcanonical => hlength hcanonical.length_eq, rfl⟩

end Records.Date
